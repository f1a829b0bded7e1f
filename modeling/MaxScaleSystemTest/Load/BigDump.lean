import Mathlib.Logic.Function.Basic
import MaxScaleSystemTest.Lib.Runs

namespace MaxScaleSystemTest.Load.BigDump

open Runs

/-!
# Large INSERTs in two rounds

The test runs its threads twice: in the first round they send INSERTs to the read-write-split
router only, in the second one, with `rwsplit_only` at 0, to the ReadConn router of the master as
well.  A thread sends INSERTs until its `exit_flag` is set; the flag is set at the end of either
round, and is never cleared.

* `Place`, `threadStep` — one statement of `query_thread1`;
* `MainPlace`, `mainStep` — the statements of `main` that the threads see;
* `Inv`, `inv_step` — what every step of every thread keeps;
* `frozen_step` — what no step changes after the first round;
* `big_dump_one_round` — what has been sent in any order of steps.
-/

/-- The connections of a thread. -/
inductive Conn where
  | conn1
  | conn2
  deriving DecidableEq

/-- Where a thread stands in `query_thread1`. -/
inductive Place where
  | idle
  | connect (c : Conn)
  | setLog (c : Conn)
  | ifConnect
  | test
  | insert (c : Conn)
  | ifInsert
  | count
  | ended
  deriving DecidableEq

inductive Round where
  | first
  | second
  deriving DecidableEq

/-- Where `main` stands. -/
inductive MainPlace where
  | create (round : Round) (i : ℕ)
  | exit (round : Round) (i : ℕ)
  | join (round : Round) (i : ℕ)
  | clearOnly (i : ℕ)
  | done
  deriving DecidableEq

/-- `openclose_thread_data` without the connections. -/
structure ThreadData where
  exitFlag : Bool
  i : ℕ
  rwsplitOnly : Bool

/-- The threads with their data, the calls of `add_result` with which a thread gives up, and,
    which the code does not keep, how many INSERTs a thread has sent on a connection. -/
structure World where
  place : ℕ → Place
  data : ℕ → ThreadData
  errors : ℕ
  inserts : ℕ → Conn → ℕ
  main : MainPlace

/-- No thread has been created. -/
def start : World where
  place := fun _ => .idle
  data := fun _ => ⟨false, 0, true⟩
  errors := 0
  inserts := fun _ _ => 0
  main := .create .first 0

/-- Thread `i` goes on at another place. -/
def World.goto (w : World) (i : ℕ) (place : Place) : World :=
  { w with place := Function.update w.place i place }

/-- Thread `i` reports an error, and returns. -/
def World.giveUp (w : World) (i : ℕ) : World := { w with errors := w.errors + 1 }.goto i .ended

/-- Thread `i` sends an INSERT. -/
def World.sent (w : World) (i : ℕ) (c : Conn) : World :=
  { w with inserts := Function.update w.inserts i
            (Function.update (w.inserts i) c (w.inserts i c + 1)) }

/-- What follows the statement that switches the binary log off. -/
def afterSetLog : Conn → Place
  | .conn1 => .ifConnect
  | .conn2 => .test

/-- What follows an INSERT. -/
def afterInsert : Conn → Place
  | .conn1 => .ifInsert
  | .conn2 => .count

/-- One statement of `query_thread1`; `succeeds` is what a connection or an INSERT does. -/
def threadStep (w : World) (i : ℕ) (succeeds : Bool) : World :=
  match w.place i with
  | .idle => w
  | .connect c => if succeeds then w.goto i (.setLog c) else w.giveUp i
  | .setLog c => w.goto i (afterSetLog c)
  | .ifConnect => w.goto i (if (w.data i).rwsplitOnly then .test else .connect .conn2)
  -- a thread that ends closes its connections
  | .test => w.goto i (if (w.data i).exitFlag then .ended else .insert .conn1)
  | .insert c =>
    if succeeds then (w.sent i c).goto i (afterInsert c) else (w.sent i c).giveUp i
  | .ifInsert => w.goto i (if (w.data i).rwsplitOnly then .count else .insert .conn2)
  | .count =>
    { w with data := Function.update w.data i
              { w.data i with i := (w.data i).i + 1 } }.goto i .test
  | .ended => w

/-- What follows a round. -/
def afterRound : Round → MainPlace
  | .first => .clearOnly 0
  | .second => .done

/-- One statement of `main`, with `n` threads; a thread that has not ended is waited for. -/
def mainStep (n : ℕ) (w : World) : World :=
  match w.main with
  | .create round i =>
    if i < n then { w.goto i (.connect .conn1) with main := .create round (i + 1) }
    else { w with main := .exit round 0 }
  | .exit round i =>
    if i < n then
      { w with data := Function.update w.data i { w.data i with exitFlag := true }
               main := .join round i }
    else { w with main := afterRound round }
  | .join round i => if w.place i = .ended then { w with main := .exit round (i + 1) } else w
  | .clearOnly i =>
    if i < n then
      { w with data := Function.update w.data i { w.data i with rwsplitOnly := false }
               main := .clearOnly (i + 1) }
    else { w with main := .create .second 0 }
  | .done => w

/-- Whose turn it is. -/
inductive Turn where
  | main
  | thread (i : ℕ) (succeeds : Bool)

/-- One statement of `main` or of one of its threads. -/
def step (n : ℕ) (w : World) : Turn → World
  | .main => mainStep n w
  | .thread i succeeds => if i < n then threadStep w i succeeds else w

/-! ### What holds of a thread -/

/-- The first round is over: its threads have been joined. -/
def FirstOver : MainPlace → Prop
  | .create round _ => round = .second
  | .exit round _ => round = .second
  | .join round _ => round = .second
  | .clearOnly _ => True
  | .done => True

/-- A thread sends no INSERT before the next test of the flag. -/
def Quiet : Place → Prop
  | .insert _ => False
  | .ifInsert => False
  | .count => False
  | _ => True

/-- An INSERT that has been sent, and not been counted. -/
def pending : Place → ℕ
  | .ifInsert => 1
  | .count => 1
  | _ => 0

/-- The threads that have been told to end. -/
def Told (i : ℕ) : MainPlace → Prop
  | .exit .first k => i < k
  | .join .first k => i ≤ k
  | main => FirstOver main

/-- The threads of the first round that have been joined. -/
def Joined (i : ℕ) : MainPlace → Prop
  | .exit .first k => i < k
  | .join .first k => i < k
  | _ => False

/-- The threads that have not been created. -/
def Fresh (i : ℕ) : MainPlace → Prop
  | .create .first k => k ≤ i
  | _ => False

/-- What holds of thread `i`. -/
structure ThreadOk (i : ℕ) (main : MainPlace) (errors : ℕ) (place : Place) (data : ThreadData)
    (inserts : Conn → ℕ) : Prop where
  only : ¬ FirstOver main → data.rwsplitOnly = true ∧ place ≠ .insert .conn2
  quiet : FirstOver main → Quiet place
  flag : Told i main → data.exitFlag = true
  ended : Joined i main → place = .ended
  fresh : Fresh i main → place = .idle
  unsent : inserts .conn2 = 0
  counted : errors = 0 → inserts .conn1 = data.i + pending place

/-- The invariant. -/
def Inv (n : ℕ) (w : World) : Prop :=
  ∀ i < n, ThreadOk i w.main w.errors (w.place i) (w.data i) (w.inserts i)

variable {n : ℕ} {w : World} {i : ℕ} {main : MainPlace} {errors : ℕ} {place : Place}
  {data : ThreadData} {inserts : Conn → ℕ}

theorem inv_start (n : ℕ) : Inv n start := fun _ _ => {
  only := fun _ => ⟨rfl, nofun⟩
  quiet := nofun
  flag := nofun
  ended := nofun
  fresh := fun _ => rfl
  unsent := rfl
  counted := fun _ => rfl }

theorem told_of_firstOver (h : FirstOver main) : Told i main := by
  match main with
  | .create _ _ => exact h
  | .exit .first _ => cases h
  | .exit .second _ => exact h
  | .join .first _ => cases h
  | .join .second _ => exact h
  | .clearOnly _ => exact h
  | .done => exact h

theorem pending_eq_zero {place : Place} (h : Quiet place) : pending place = 0 := by
  cases place with
  | ifInsert => exact h.elim
  | count => exact h.elim
  | _ => rfl

/-! ### The statements of a thread -/

/-- A statement of thread `i` changes nothing of the others. -/
structure OnlyOf (i : ℕ) (w w' : World) : Prop where
  place : ∀ j ≠ i, w'.place j = w.place j
  data : ∀ j ≠ i, w'.data j = w.data j
  inserts : ∀ j ≠ i, w'.inserts j = w.inserts j
  main : w'.main = w.main
  errors : w.errors ≤ w'.errors

theorem onlyOf_threadStep (w : World) (i : ℕ) (succeeds : Bool) :
    OnlyOf i w (threadStep w i succeeds) := by
  have hupdate : ∀ {α : Type} (f : ℕ → α) (x : α), ∀ j ≠ i, Function.update f i x j = f j :=
    fun f x j hj => Function.update_of_ne hj x f
  have hsame : ∀ {α : Type} (f : ℕ → α), ∀ j ≠ i, f j = f j := fun _ _ _ => rfl
  have hgoto : ∀ place, OnlyOf i w (w.goto i place) :=
    fun place => ⟨hupdate _ _, hsame _, hsame _, rfl, Nat.le_refl _⟩
  unfold threadStep
  split
  · exact ⟨hsame _, hsame _, hsame _, rfl, Nat.le_refl _⟩
  · split
    · exact hgoto _
    · exact ⟨hupdate _ _, hsame _, hsame _, rfl, Nat.le_succ _⟩
  · exact hgoto _
  · exact hgoto _
  · exact hgoto _
  · split
    · exact ⟨hupdate _ _, hsame _, hupdate _ _, rfl, Nat.le_refl _⟩
    · exact ⟨hupdate _ _, hsame _, hupdate _ _, rfl, Nat.le_succ _⟩
  · exact hgoto _
  · exact ⟨hupdate _ _, hupdate _ _, hsame _, rfl, Nat.le_refl _⟩
  · exact ⟨hsame _, hsame _, hsame _, rfl, Nat.le_refl _⟩

/-- A thread that goes on, with nothing sent and nothing counted. -/
theorem ThreadOk.goto {place' : Place} (h : ThreadOk i main errors place data inserts)
    (hne : place ≠ .ended ∧ place ≠ .idle) (honly : ¬ FirstOver main → place' ≠ .insert .conn2)
    (hquiet : FirstOver main → Quiet place') (hpending : pending place' = pending place) :
    ThreadOk i main errors place' data inserts where
  only hover := ⟨(h.only hover).1, honly hover⟩
  quiet := hquiet
  flag := h.flag
  ended hjoined := absurd (h.ended hjoined) hne.1
  fresh hfresh := absurd (h.fresh hfresh) hne.2
  unsent := h.unsent
  counted herrors := by rw [hpending, h.counted herrors]

/-- A thread that gives up. -/
theorem ThreadOk.giveUp {inserts' : Conn → ℕ} (h : ThreadOk i main errors place data inserts)
    (hne : place ≠ .ended ∧ place ≠ .idle) (hunsent : inserts' .conn2 = 0) :
    ThreadOk i main (errors + 1) .ended data inserts' where
  only hover := ⟨(h.only hover).1, nofun⟩
  quiet _ := trivial
  flag := h.flag
  ended _ := rfl
  fresh hfresh := absurd (h.fresh hfresh) hne.2
  unsent := hunsent
  counted := nofun

/-- A thread that has sent an INSERT with success, which it does before the first round is over. -/
theorem ThreadOk.sent (h : ThreadOk i main errors (.insert .conn1) data inserts) :
    ThreadOk i main errors .ifInsert data
      (Function.update inserts .conn1 (inserts .conn1 + 1)) where
  only hover := ⟨(h.only hover).1, nofun⟩
  quiet hover := h.quiet hover
  flag := h.flag
  ended hjoined := nomatch h.ended hjoined
  fresh hfresh := nomatch h.fresh hfresh
  unsent := by rw [Function.update_of_ne (by decide), h.unsent]
  counted herrors := by
    rw [Function.update_self, h.counted herrors]
    rfl

/-- No INSERT is sent on the second connection. -/
theorem ThreadOk.not_insert (h : ThreadOk i main errors (.insert .conn2) data inserts) : False := by
  by_cases hover : FirstOver main
  · exact h.quiet hover
  · exact (h.only hover).2 rfl

/-- A thread that has counted its INSERT. -/
theorem ThreadOk.count (h : ThreadOk i main errors .count data inserts) :
    ThreadOk i main errors .test { data with i := data.i + 1 } inserts where
  only hover := ⟨(h.only hover).1, nofun⟩
  quiet _ := trivial
  flag := h.flag
  ended hjoined := nomatch h.ended hjoined
  fresh hfresh := nomatch h.fresh hfresh
  unsent := h.unsent
  counted := h.counted

/-- What a statement of thread `i` makes of the thread. -/
theorem threadOk_threadStep
    (h : ThreadOk i w.main w.errors (w.place i) (w.data i) (w.inserts i)) (succeeds : Bool) :
    ThreadOk i w.main (threadStep w i succeeds).errors ((threadStep w i succeeds).place i)
      ((threadStep w i succeeds).data i) ((threadStep w i succeeds).inserts i) := by
  unfold threadStep
  cases hplace : w.place i with
  | idle => exact h
  | ended => exact h
  | connect c =>
    rw [hplace] at h
    cases succeeds with
    | true =>
      simp only [if_true, World.goto, Function.update_self]
      exact h.goto ⟨nofun, nofun⟩ nofun (fun _ => trivial) rfl
    | false =>
      simp only [Bool.false_eq_true, if_false, World.giveUp, World.goto, Function.update_self]
      exact h.giveUp ⟨nofun, nofun⟩ h.unsent
  | setLog c =>
    rw [hplace] at h
    simp only [World.goto, Function.update_self]
    cases c with
    | conn1 => exact h.goto ⟨nofun, nofun⟩ nofun (fun _ => trivial) rfl
    | conn2 => exact h.goto ⟨nofun, nofun⟩ nofun (fun _ => trivial) rfl
  | ifConnect =>
    rw [hplace] at h
    simp only [World.goto, Function.update_self]
    split
    · exact h.goto ⟨nofun, nofun⟩ nofun (fun _ => trivial) rfl
    · exact h.goto ⟨nofun, nofun⟩ nofun (fun _ => trivial) rfl
  | test =>
    rw [hplace] at h
    simp only [World.goto, Function.update_self]
    split
    · exact h.goto ⟨nofun, nofun⟩ nofun (fun _ => trivial) rfl
    · next hflag =>
      -- the flag is set when the first round is over
      refine h.goto ⟨nofun, nofun⟩ nofun (fun hover => hflag (h.flag ?_)) rfl
      exact told_of_firstOver hover
  | insert c =>
    rw [hplace] at h
    cases c with
    | conn2 => exact h.not_insert.elim
    | conn1 =>
      cases succeeds with
      | true =>
        simp only [if_true, World.goto, World.sent, Function.update_self]
        exact h.sent
      | false =>
        simp only [Bool.false_eq_true, if_false, World.giveUp, World.goto, World.sent,
          Function.update_self]
        exact h.giveUp ⟨nofun, nofun⟩ h.sent.unsent
  | ifInsert =>
    rw [hplace] at h
    simp only [World.goto, Function.update_self]
    by_cases hover : FirstOver w.main
    · exact (h.quiet hover).elim
    · rw [if_pos (h.only hover).1]
      exact h.goto ⟨nofun, nofun⟩ nofun (fun h => absurd h hover) rfl
  | count =>
    rw [hplace] at h
    simp only [World.goto, Function.update_self]
    exact h.count

/-- Errors are only added. -/
theorem ThreadOk.mono {errors' : ℕ} (h : ThreadOk i main errors place data inserts)
    (hle : errors ≤ errors') : ThreadOk i main errors' place data inserts :=
  { h with counted := fun herrors => h.counted (by omega) }

/-- A statement of a thread keeps the invariant. -/
theorem inv_threadStep (h : Inv n w) (hi : i < n) (succeeds : Bool) :
    Inv n (threadStep w i succeeds) := by
  have honly := onlyOf_threadStep w i succeeds
  intro j hj
  rw [honly.main]
  by_cases hji : j = i
  · subst hji
    exact threadOk_threadStep (h j hj) succeeds
  · rw [honly.place j hji, honly.data j hji, honly.inserts j hji]
    exact (h j hj).mono honly.errors

/-! ### The statements of `main` -/

/-- What holds of a thread when `main` goes on. -/
theorem ThreadOk.mainGoto {main' : MainPlace} (h : ThreadOk i main errors place data inserts)
    (honly : FirstOver main → FirstOver main') (hquiet : FirstOver main' → Quiet place)
    (hflag : Told i main' → data.exitFlag = true) (hended : Joined i main' → place = .ended)
    (hfresh : Fresh i main' → Fresh i main) : ThreadOk i main' errors place data inserts where
  only hover := h.only (mt honly hover)
  quiet := hquiet
  flag := hflag
  ended := hended
  fresh hf := h.fresh (hfresh hf)
  unsent := h.unsent
  counted := h.counted

/-- What holds of a thread when `main` goes on after the first round. -/
theorem ThreadOk.later {main' : MainPlace} (h : ThreadOk i main errors place data inserts)
    (hover : FirstOver main) (hover' : FirstOver main') :
    ThreadOk i main' errors place data inserts := by
  obtain ⟨hjoined, hfresh⟩ : ¬ Joined i main' ∧ ¬ Fresh i main' := by
    match main' with
    | .create .second _ => exact ⟨nofun, nofun⟩
    | .exit .second _ => exact ⟨nofun, nofun⟩
    | .join .second _ => exact ⟨nofun, nofun⟩
    | .clearOnly _ => exact ⟨nofun, nofun⟩
    | .done => exact ⟨nofun, nofun⟩
  exact h.mainGoto (fun _ => hover') (fun _ => h.quiet hover)
    (fun _ => h.flag (told_of_firstOver hover)) (fun hj => absurd hj hjoined)
    fun hf => absurd hf hfresh

/-- A thread that is created, for the first or for the second time. -/
theorem ThreadOk.created {round : Round}
    (h : ThreadOk i (.create round i) errors place data inserts) :
    ThreadOk i (.create round (i + 1)) errors (.connect .conn1) data inserts where
  only hover := ⟨(h.only hover).1, nofun⟩
  quiet _ := trivial
  flag := h.flag
  ended := nofun
  fresh hfresh := by
    cases round with
    | first => exact absurd hfresh (Nat.not_succ_le_self i)
    | second => exact hfresh.elim
  unsent := h.unsent
  counted herrors := by
    have hquiet : Quiet place := by
      cases round with
      | first =>
        rw [h.fresh (Nat.le_refl i)]
        trivial
      | second => exact h.quiet rfl
    rw [h.counted herrors, pending_eq_zero hquiet]
    rfl

/-- What holds of a thread, told with the place of `main`. -/
theorem Inv.at (h : Inv n w) (hmain : w.main = main) (hi : i < n) :
    ThreadOk i main w.errors (w.place i) (w.data i) (w.inserts i) := hmain ▸ h i hi

/-- A statement of `main` keeps the invariant. -/
theorem inv_mainStep (h : Inv n w) : Inv n (mainStep n w) := by
  unfold mainStep
  cases hmain : w.main with
  | create round k =>
    dsimp only
    split
    · intro j hj
      have hj' := h.at hmain hj
      by_cases hjk : j = k
      · subst hjk
        show ThreadOk j _ _ (Function.update w.place j _ j) _ _
        rw [Function.update_self]
        exact hj'.created
      · show ThreadOk j _ _ (Function.update w.place k _ j) _ _
        rw [Function.update_of_ne hjk]
        cases round with
        | first => exact hj'.mainGoto nofun nofun nofun nofun Nat.le_of_succ_le
        | second => exact hj'.later rfl rfl
    · intro j hj
      have hj' := h.at hmain hj
      cases round with
      | first =>
        have hnone : ∀ {p : Prop}, j < 0 → p := fun hlt => absurd hlt (Nat.not_lt_zero j)
        exact hj'.mainGoto nofun nofun hnone hnone nofun
      | second => exact hj'.later rfl rfl
  | exit round k =>
    dsimp only
    split
    · intro j hj
      have hj' := h.at hmain hj
      show ThreadOk j _ _ _ (Function.update w.data k _ j) _
      by_cases hjk : j = k
      · subst hjk
        rw [Function.update_self]
        refine ⟨hj'.only, hj'.quiet, fun _ => rfl, ?_, ?_, hj'.unsent, hj'.counted⟩
        · cases round with
          | first => exact hj'.ended
          | second => exact nofun
        · cases round <;> exact nofun
      · rw [Function.update_of_ne hjk]
        cases round with
        | first =>
          exact hj'.mainGoto nofun nofun (fun hle => hj'.flag (Nat.lt_of_le_of_ne hle hjk))
            hj'.ended nofun
        | second => exact hj'.later rfl rfl
    · next hall =>
      intro j hj
      have hj' := h.at hmain hj
      cases round with
      | first =>
        -- all threads have been told to end, and joined
        have hlt : j < k := Nat.lt_of_lt_of_le hj (Nat.le_of_not_lt hall)
        have hended : w.place j = .ended := hj'.ended hlt
        refine hj'.mainGoto nofun (fun _ => ?_) (fun _ => hj'.flag hlt) nofun nofun
        rw [hended]
        trivial
      | second => exact hj'.later rfl trivial
  | join round k =>
    dsimp only
    split
    · next hended =>
      intro j hj
      have hj' := h.at hmain hj
      cases round with
      | first =>
        refine hj'.mainGoto nofun nofun (fun hlt => hj'.flag (Nat.le_of_lt_succ hlt))
          (fun hlt => ?_) nofun
        rcases Nat.lt_succ_iff_lt_or_eq.mp hlt with hlt | rfl
        · exact hj'.ended hlt
        · exact hended
      | second => exact hj'.later rfl rfl
    · exact h
  | clearOnly k =>
    dsimp only
    split
    · intro j hj
      have hj' := h.at hmain hj
      show ThreadOk j _ _ _ (Function.update w.data k _ j) _
      by_cases hjk : j = k
      · subst hjk
        rw [Function.update_self]
        exact ⟨fun hover => absurd trivial hover, hj'.quiet, hj'.flag, nofun, nofun, hj'.unsent,
          hj'.counted⟩
      · rw [Function.update_of_ne hjk]
        exact hj'.later trivial trivial
    · intro j hj
      have hj' := h.at hmain hj
      exact hj'.later trivial rfl
  | done => exact h

/-- **Step.** Every statement of every thread keeps the invariant. -/
theorem inv_step (turn : Turn) (h : Inv n w) : Inv n (step n w turn) := by
  cases turn with
  | main => exact inv_mainStep h
  | thread i succeeds =>
    rw [step]
    split
    · exact inv_threadStep h ‹_› succeeds
    · exact h

/-! ### After the first round -/

/-- The INSERTs that have been sent, and the counters. -/
def World.work (w : World) : (ℕ → Conn → ℕ) × (ℕ → ℕ) := (w.inserts, fun i => (w.data i).i)

/-- A thread that sends no INSERT counts none. -/
theorem work_threadStep (hquiet : Quiet (w.place i)) (succeeds : Bool) :
    (threadStep w i succeeds).work = w.work := by
  unfold threadStep
  cases hplace : w.place i with
  | insert c => exact (hplace ▸ hquiet : Quiet (.insert c)).elim
  | count => exact (hplace ▸ hquiet : Quiet .count).elim
  | connect c => cases succeeds <;> rfl
  | _ => rfl

/-- Neither does `main`, which goes on to the second round and to the end. -/
theorem work_mainStep (n : ℕ) (w : World) : (mainStep n w).work = w.work := by
  have hdata : ∀ k d, d.i = (w.data k).i →
      (fun i => (Function.update w.data k d i).i) = fun i => (w.data i).i := by
    intro k d hd
    funext i
    by_cases hik : i = k
    · rw [hik, Function.update_self, hd]
    · rw [Function.update_of_ne hik]
  unfold mainStep
  split
  · split <;> rfl
  · split
    · exact congrArg (Prod.mk w.inserts) (hdata _ _ rfl)
    · rfl
  · split <;> rfl
  · split
    · exact congrArg (Prod.mk w.inserts) (hdata _ _ rfl)
    · rfl
  · rfl

theorem firstOver_mainStep (h : FirstOver w.main) : FirstOver (mainStep n w).main := by
  unfold mainStep
  cases hmain : w.main with
  | create round k =>
    rw [hmain] at h
    dsimp only
    split <;> exact h
  | exit round k =>
    rw [hmain] at h
    dsimp only
    split
    · exact h
    · cases h
      trivial
  | join round k =>
    rw [hmain] at h
    dsimp only
    split
    · exact h
    · rw [hmain]
      exact h
  | clearOnly k =>
    dsimp only
    split
    · trivial
    · exact rfl
  | done =>
    rw [hmain]
    trivial

/-- **Step.** After the first round nothing is sent. -/
theorem frozen_step (h : Inv n w) (hover : FirstOver w.main) (turn : Turn) :
    FirstOver (step n w turn).main ∧ (step n w turn).work = w.work := by
  cases turn with
  | main => exact ⟨firstOver_mainStep hover, work_mainStep n w⟩
  | thread i succeeds =>
    rw [step]
    split
    · next hi =>
      rw [(onlyOf_threadStep w i succeeds).main]
      exact ⟨hover, work_threadStep ((h i hi).quiet hover) succeeds⟩
    · exact ⟨hover, rfl⟩

/-- **One round.** In any order of steps, whatever fails: no INSERT is ever sent to the second
    router; from the end of the first round on none is sent, and none counted, at all; and when
    no thread has given up each one has counted at the end what it has sent. -/
theorem big_dump_one_round (n : ℕ) (turns : List Turn) :
    (∀ i < n, (run (step n) start turns).inserts i .conn2 = 0) ∧
      (FirstOver (run (step n) start turns).main →
        ∀ more, (run (step n) start (turns ++ more)).work = (run (step n) start turns).work) ∧
      ((run (step n) start turns).main = .done → (run (step n) start turns).errors = 0 →
        ∀ i < n, (run (step n) start turns).inserts i .conn1 =
          ((run (step n) start turns).data i).i) := by
  have hinv : Inv n (run (step n) start turns) :=
    run_invariant (fun _ turn h => inv_step turn h) (inv_start n) turns
  simp only [run_append]
  generalize run (step n) start turns = w at hinv
  refine ⟨fun i hi => (hinv i hi).unsent, fun hover more => ?_, fun hdone herrors i hi => ?_⟩
  · have hstep : ∀ (w' : World) (turn : Turn),
        Inv n w' ∧ FirstOver w'.main ∧ w'.work = w.work →
          Inv n (step n w' turn) ∧ FirstOver (step n w' turn).main ∧
            (step n w' turn).work = w.work := by
      rintro w' turn ⟨hinv', hover', hwork⟩
      obtain ⟨hnext, hsame⟩ := frozen_step hinv' hover' turn
      exact ⟨inv_step turn hinv', hnext, hsame.trans hwork⟩
    exact (run_invariant hstep ⟨hinv, hover, rfl⟩ more).2.2
  · have hthread := hinv i hi
    have hquiet : Quiet (w.place i) := hthread.quiet (by rw [hdone]; trivial)
    rw [hthread.counted herrors, pending_eq_zero hquiet, Nat.add_zero]

end MaxScaleSystemTest.Load.BigDump
