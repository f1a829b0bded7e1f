import MaxScaleSystemTest.Lib.CInt
import MaxScaleSystemTest.Lib.Runs

namespace MaxScaleSystemTest.Binlog.ChangeMaster

open CInt Runs

/-!
# Transactions while the master changes

`transaction_thread` executes transactions with the numbers 0, 1, 2, …, and the same one again
with a new master when one fails, until `main` sets `exit_flag`.  It counts them in `i_trans`,
which it moves back and forth, and back once more at the end, and `main` looks for the rows of
the transactions below it.

* `step` — one step of the thread, or the setting of the flag, in any order;
* `Counted` — `i_trans` against the transactions that have returned 0, wherever the thread is;
* `transactions_committed` — what `i_trans` says when the thread has ended.
-/

/-! ### The thread -/

/-- The statements of `transaction`. -/
inductive Statement where
  | startTransaction
  | setAutocommit
  | insert
  | commit
  deriving DecidableEq

/-- The one that is executed next. -/
def Statement.next : Statement → Option Statement
  | .startTransaction => some .setAutocommit
  | .setAutocommit => some .insert
  | .insert => some .commit
  | .commit => none

/-- Where the thread is.  Inside `transaction` it has its `local_result`; an `int` that overflows
    is the end of it. -/
inductive Place where
  | connect
  | loopTest
  | statement (st : Statement) (localResult : ℤ)
  | closeConnection
  | selectNewMaster
  | reopen
  | stepBack
  | advance
  | leave
  | ended
  | overflow
  deriving DecidableEq

/-- A call of `transaction` begins, or returns. -/
inductive Event where
  | started (N : ℤ)
  | returned (N result : ℤ)
  deriving DecidableEq

/-- The variables of the program and, in `history`, what has become of the transactions, which the
    code does not keep. -/
structure State where
  place : Place
  exitFlag : Bool
  master : ℤ
  iTrans : ℤ
  failedTransactionNum : ℤ
  history : List Event

/-- `i_trans = n`, and on to another place. -/
def State.setTrans (s : State) (n : ℤ) (place : Place) : State :=
  if InInt n then { s with iTrans := n, place := place } else { s with place := .overflow }

/-- `transaction` returns, and its result is looked at. -/
def State.finish (s : State) (transResult : ℤ) : State :=
  let s : State := { s with history := s.history ++ [.returned s.iTrans transResult] }
  if transResult ≠ 0 then { s with failedTransactionNum := s.iTrans, place := .closeConnection }
  else { s with place := .advance }

/-- One step of `transaction_thread`; `rc` is what `execute_query` returns in a step that calls
    it. -/
def threadStep (s : State) (rc : ℤ) : State :=
  match s.place with
  | .connect => { s with place := .loopTest }
  | .loopTest =>
    if s.exitFlag then { s with place := .leave }
    else
      { s with
        place := .statement .startTransaction 0
        history := s.history ++ [.started s.iTrans] }
  | .statement st localResult =>
    let localResult := localResult + rc
    if localResult ≠ 0 then s.finish localResult
    else match st.next with
      | some st' => { s with place := .statement st' localResult }
      | none => s.finish localResult
  | .closeConnection => { s with place := .selectNewMaster }
  | .selectNewMaster => { s with master := 2, place := .reopen }
  | .reopen => { s with place := .stepBack }
  | .stepBack => s.setTrans (s.iTrans - 1) .advance
  | .advance => s.setTrans (s.iTrans + 1) .loopTest
  | .leave => s.setTrans (s.iTrans - 1) .ended
  | .ended | .overflow => s

/-- `main` sets the flag, or the thread takes a step. -/
inductive Action where
  | raise
  | thread (rc : ℤ)
  deriving DecidableEq

def step (s : State) : Action → State
  | .raise => { s with exitFlag := true }
  | .thread rc => threadStep s rc

/-- The program when the thread is created. -/
def start : State := ⟨.connect, false, 0, 0, 0, []⟩

/-- The numbers below `n`. -/
def upTo (n : ℕ) : List ℤ := (List.range n).map (↑)

/-- The transactions that `main` looks for on the slaves afterwards. -/
def verified (iTrans : ℤ) : List ℤ := upTo iTrans.toNat

/-! ### What the counter should say -/

/-- The number of a transaction that has returned 0. -/
def Event.committed : Event → Option ℤ
  | .started _ => none
  | .returned N result => if result = 0 then some N else none

/-- The transactions that have returned 0, in order. -/
def committed (history : List Event) : List ℤ := history.filterMap Event.committed

/-- No transaction is begun before all with smaller numbers have returned 0. -/
def InOrder (history : List Event) : Prop :=
  ∀ before N after, history = before ++ .started N :: after →
    ∀ j, 0 ≤ j → j < N → j ∈ committed before

/-- The transactions that have returned 0 are those up to `i_trans`, each once and in increasing
    order, none was begun too early, and `main` looks for no other. -/
structure CommittedExactly (s : State) : Prop where
  exactly : ∀ j, j ∈ committed s.history ↔ 0 ≤ j ∧ j ≤ s.iTrans
  once : (committed s.history).Nodup
  increasing : (committed s.history).Pairwise (· < ·)
  inOrder : InOrder s.history
  verified : ∀ j ∈ verified s.iTrans, j ∈ committed s.history

/-- `i_trans` does not overflow, and says what it should when the thread has ended. -/
def RunRight (actions : List Action) : Prop :=
  (run step start actions).place ≠ .overflow ∧
    ((run step start actions).place = .ended → CommittedExactly (run step start actions))

/-! ### Histories -/

theorem mem_upTo {n : ℕ} {j : ℤ} : j ∈ upTo n ↔ 0 ≤ j ∧ j < n := by
  simp only [upTo, List.mem_map, List.mem_range]
  constructor
  · rintro ⟨k, hk, rfl⟩
    omega
  · rintro ⟨hnonneg, hlt⟩
    exact ⟨j.toNat, by omega, by omega⟩

theorem upTo_succ (n : ℕ) : upTo (n + 1) = upTo n ++ [(n : ℤ)] := by
  simp [upTo, List.range_succ]

theorem length_upTo (n : ℕ) : (upTo n).length = n := by
  simp [upTo]

theorem pairwise_upTo (n : ℕ) : (upTo n).Pairwise (· < ·) := by
  refine List.Pairwise.map _ ?_ List.pairwise_lt_range
  intro a b hab
  exact Int.ofNat_lt.mpr hab

theorem committed_append (history : List Event) (e : Event) :
    committed (history ++ [e]) = committed history ++ e.committed.toList := by
  rw [committed, List.filterMap_append]
  cases h : e.committed with
  | none => simp [h, committed]
  | some j => simp [h, committed]

/-- A history with one event more, which begins no transaction too early. -/
theorem InOrder.append {history : List Event} (h : InOrder history) (e : Event)
    (he : ∀ N, e = .started N → ∀ j, 0 ≤ j → j < N → j ∈ committed history) :
    InOrder (history ++ [e]) := by
  intro before N after hsplit
  rcases List.eq_nil_or_concat after with rfl | ⟨front, last, rfl⟩
  · obtain ⟨rfl, hlast⟩ := List.append_inj' hsplit rfl
    obtain rfl := (List.cons.inj hlast).1
    exact he N rfl
  · rw [List.concat_eq_append, ← List.cons_append, ← List.append_assoc] at hsplit
    obtain ⟨rfl, -⟩ := List.append_inj' hsplit rfl
    exact h before N front rfl

/-! ### The counter -/

/-- How far the counter is behind the number of transactions that have returned 0. -/
def Place.behind : Place → ℤ
  | .advance | .ended => 1
  | _ => 0

/-- The invariant: `n` transactions have returned 0, which are the first ones, and the counter
    says so. -/
structure Counted (n : ℕ) (s : State) : Prop where
  committed : committed s.history = upTo n
  inOrder : InOrder s.history
  isInt : InInt s.iTrans
  counter : s.place ≠ .overflow → s.iTrans + s.place.behind = n
  overflow : s.place = .overflow → 2 ^ 31 ≤ n

theorem counted_start : Counted 0 start where
  committed := rfl
  inOrder := by
    intro before N after hsplit
    simp [start] at hsplit
  isInt := by decide
  counter := fun _ => rfl
  overflow := nofun

section

variable {n : ℕ} {s : State}

/-- The thread goes to another place, which is as far behind. -/
theorem Counted.move (h : Counted n s) (hplace : s.place ≠ .overflow) {s' : State}
    (hhistory : s'.history = s.history) (htrans : s'.iTrans = s.iTrans)
    (hbehind : s'.place.behind = s.place.behind) (hplace' : s'.place ≠ .overflow) :
    Counted n s' where
  committed := by rw [hhistory, h.committed]
  inOrder := by rw [hhistory]; exact h.inOrder
  isInt := by rw [htrans]; exact h.isInt
  counter := fun _ => by rw [htrans, hbehind]; exact h.counter hplace
  overflow := fun hover => absurd hover hplace'

/-- The counter is set; when that overflows there are too many transactions. -/
theorem Counted.setTrans (h : Counted n s) {m : ℤ} {place : Place} (hplace : place ≠ .overflow)
    (hcounter : m + place.behind = n) (hover : ¬ InInt m → 2 ^ 31 ≤ n) :
    Counted n (s.setTrans m place) := by
  unfold State.setTrans
  by_cases hint : InInt m
  · rw [if_pos hint]
    exact ⟨h.committed, h.inOrder, hint, fun _ => hcounter, fun heq => absurd heq hplace⟩
  · rw [if_neg hint]
    exact ⟨h.committed, h.inOrder, h.isInt, fun hne => absurd rfl hne, fun _ => hover hint⟩

/-- A transaction is begun: all with smaller numbers have returned 0. -/
theorem Counted.started (h : Counted n s) (htrans : s.iTrans = n) (st : Statement) (r : ℤ) :
    Counted n
      { s with place := .statement st r, history := s.history ++ [.started s.iTrans] } where
  committed := by
    show ChangeMaster.committed (s.history ++ [.started s.iTrans]) = upTo n
    rw [committed_append, h.committed]
    exact List.append_nil _
  inOrder := by
    refine h.inOrder.append _ fun N hN j hnonneg hlt => ?_
    cases hN
    rw [h.committed, mem_upTo, ← htrans]
    exact ⟨hnonneg, hlt⟩
  isInt := h.isInt
  counter := fun _ => by simpa [Place.behind] using htrans
  overflow := nofun

/-- A transaction returns: there is one more if it returns 0. -/
theorem Counted.finish (h : Counted n s) (htrans : s.iTrans = n) (transResult : ℤ) :
    ∃ n', Counted n' (s.finish transResult) := by
  have hinOrder : InOrder (s.history ++ [.returned s.iTrans transResult]) :=
    h.inOrder.append _ fun N hN => nomatch hN
  unfold State.finish
  by_cases hzero : transResult = 0
  · subst hzero
    refine ⟨n + 1, ?_, hinOrder, h.isInt, fun _ => ?_, nofun⟩
    · show ChangeMaster.committed (s.history ++ [.returned s.iTrans 0]) = upTo (n + 1)
      rw [committed_append, h.committed, upTo_succ, ← htrans]
      rfl
    · show s.iTrans + 1 = _
      rw [htrans]
      rfl
  · have hnone : Event.committed (.returned s.iTrans transResult) = none := if_neg hzero
    dsimp only
    rw [if_pos hzero]
    refine ⟨n, ?_, hinOrder, h.isInt, fun _ => ?_, nofun⟩
    · show ChangeMaster.committed (s.history ++ [.returned s.iTrans transResult]) = upTo n
      rw [committed_append, h.committed, hnone]
      exact List.append_nil _
    · show s.iTrans + 0 = n
      rw [htrans, add_zero]

/-- **Step lemma.** Every step of the thread keeps the invariant. -/
theorem Counted.threadStep (h : Counted n s) (rc : ℤ) :
    ∃ n', Counted n' (threadStep s rc) := by
  unfold ChangeMaster.threadStep
  have hcounter := h.counter
  have hint := h.isInt
  cases hplace : s.place with
  | connect => exact ⟨n, h.move (by simp [hplace]) rfl rfl (by rw [hplace]; rfl) nofun⟩
  | loopTest =>
    have htrans : s.iTrans = n := by simpa [hplace, Place.behind] using hcounter
    by_cases hflag : s.exitFlag = true
    · simp only [if_pos hflag]
      exact ⟨n, h.move (by simp [hplace]) rfl rfl (by rw [hplace]; rfl) nofun⟩
    · simp only [if_neg hflag]
      exact ⟨n, h.started htrans _ _⟩
  | statement st localResult =>
    have htrans : s.iTrans = n := by simpa [hplace, Place.behind] using hcounter
    by_cases hzero : localResult + rc = 0
    · simp only [ne_eq, hzero, not_true_eq_false, if_false]
      cases st.next with
      | none => exact h.finish htrans 0
      | some st' => exact ⟨n, h.move (by simp [hplace]) rfl rfl (by rw [hplace]; rfl) nofun⟩
    · simp only [ne_eq, hzero, not_false_eq_true, if_true]
      exact h.finish htrans _
  | closeConnection => exact ⟨n, h.move (by simp [hplace]) rfl rfl (by rw [hplace]; rfl) nofun⟩
  | selectNewMaster => exact ⟨n, h.move (by simp [hplace]) rfl rfl (by rw [hplace]; rfl) nofun⟩
  | reopen => exact ⟨n, h.move (by simp [hplace]) rfl rfl (by rw [hplace]; rfl) nofun⟩
  | stepBack =>
    have htrans : s.iTrans = n := by simpa [hplace, Place.behind] using hcounter
    refine ⟨n, h.setTrans nofun (by simp [Place.behind, htrans]) fun hover => ?_⟩
    unfold InInt at hover hint
    omega
  | advance =>
    have htrans : s.iTrans + 1 = n := by simpa [hplace, Place.behind] using hcounter
    refine ⟨n, h.setTrans nofun (by simp [Place.behind, htrans]) fun hover => ?_⟩
    unfold InInt at hover hint
    omega
  | leave =>
    have htrans : s.iTrans = n := by simpa [hplace, Place.behind] using hcounter
    refine ⟨n, h.setTrans nofun (by simp [Place.behind, htrans]) fun hover => ?_⟩
    unfold InInt at hover hint
    omega
  | ended => exact ⟨n, h⟩
  | overflow => exact ⟨n, h⟩

end

/-- **Invariant.** In every run `i_trans` says how many transactions have returned 0, at any place
    and whenever the flag is set. -/
theorem counted_run (actions : List Action) : ∃ n, Counted n (run step start actions) := by
  have hstep : ∀ s a, (∃ n, Counted n s) → ∃ n, Counted n (step s a) := by
    rintro s a ⟨n, hn⟩
    cases a with
    | raise => exact ⟨n, hn.committed, hn.inOrder, hn.isInt, hn.counter, hn.overflow⟩
    | thread rc => exact hn.threadStep rc
  exact run_invariant hstep ⟨0, counted_start⟩ actions

/-! ### When the thread has ended -/

theorem Counted.committedExactly {n : ℕ} {s : State} (h : Counted n s) (hended : s.place = .ended) :
    CommittedExactly s := by
  have htrans : s.iTrans + 1 = n := by simpa [hended, Place.behind] using h.counter
  have hmem : ∀ j, j ∈ ChangeMaster.committed s.history ↔ 0 ≤ j ∧ j ≤ s.iTrans := by
    intro j
    rw [h.committed, mem_upTo]
    omega
  have hincreasing : (ChangeMaster.committed s.history).Pairwise (· < ·) := by
    rw [h.committed]
    exact pairwise_upTo n
  refine ⟨hmem, hincreasing.imp fun hlt => hlt.ne, hincreasing, h.inOrder, fun j hj => ?_⟩
  rw [ChangeMaster.verified, mem_upTo] at hj
  rw [hmem]
  omega

/-- **Committed.** Where fewer transactions return 0 than an `int` can count, the counter does not
    overflow, and says what it should when the thread has ended. -/
theorem transactions_committed (actions : List Action)
    (h : (committed (run step start actions).history).length < 2 ^ 31) : RunRight actions := by
  obtain ⟨n, hn⟩ := counted_run actions
  rw [hn.committed, length_upTo] at h
  exact ⟨fun hover => absurd (hn.overflow hover) (Nat.not_le.mpr h), hn.committedExactly⟩

/-- One transaction fails at its commit and succeeds with the new master, then the flag is set. -/
def oneRetry : List Action :=
  List.replicate 5 (.thread 0) ++ .thread 1 :: List.replicate 10 (.thread 0) ++
    .raise :: List.replicate 3 (.thread 0)

theorem transactions_committed_retry :
    (run step start oneRetry).place = .ended ∧ RunRight oneRetry :=
  ⟨by decide, transactions_committed oneRetry (by decide)⟩

/-! ### A run that never ends -/

/-- A turn of the loop in which the transaction succeeds. -/
def turn : List Action := List.replicate 6 (.thread 0)

theorem run_turn {s : State} (hplace : s.place = .loopTest) (hflag : s.exitFlag = false) :
    run step s turn = { s with
      place := .advance
      history := s.history ++ [.started s.iTrans] ++ [.returned s.iTrans 0] : State }.setTrans
        (s.iTrans + 1) .loopTest := by
  obtain ⟨place, exitFlag, master, iTrans, failed, history⟩ := s
  obtain rfl : place = .loopTest := hplace
  obtain rfl : exitFlag = false := hflag
  rfl

/-- A run of `k` transactions that succeed. -/
def successes (k : ℕ) : List Action := .thread 0 :: (List.replicate k turn).flatten

theorem run_successes_succ (k : ℕ) :
    run step start (successes (k + 1)) = run step (run step start (successes k)) turn := by
  rw [← run_append]
  simp [successes, List.replicate_succ']

theorem run_successes {k : ℕ} (hk : k < 2 ^ 31) :
    (run step start (successes k)).place = .loopTest ∧
      (run step start (successes k)).exitFlag = false ∧
        (run step start (successes k)).iTrans = k := by
  induction k with
  | zero => exact ⟨rfl, rfl, rfl⟩
  | succ k ih =>
    obtain ⟨hplace, hflag, htrans⟩ := ih (by omega)
    have hint : InInt (k + 1 : ℤ) := by
      unfold InInt
      omega
    rw [run_successes_succ, run_turn hplace hflag, htrans, State.setTrans, if_pos hint]
    exact ⟨rfl, hflag, by simp⟩

/-- The counter overflows behind one transaction more than an `int` can count. -/
theorem long_run_overflows : ¬ RunRight (successes (2 ^ 31)) := by
  rintro ⟨hplace, -⟩
  apply hplace
  obtain ⟨hplace, hflag, htrans⟩ := run_successes (k := 2 ^ 31 - 1) (by norm_num)
  have hover : ¬ InInt (((2 ^ 31 - 1 : ℕ) : ℤ) + 1) := by
    unfold InInt
    norm_num
  have hlast : 2 ^ 31 = 2 ^ 31 - 1 + 1 := by norm_num
  rw [hlast, run_successes_succ, run_turn hplace hflag, htrans, State.setTrans, if_neg hover]

end MaxScaleSystemTest.Binlog.ChangeMaster
