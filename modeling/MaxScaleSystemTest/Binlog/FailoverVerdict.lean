import MaxScaleSystemTest.Binlog.ChangeMaster
import MaxScaleSystemTest.Lib.Decimal
import MaxScaleSystemTest.Nodes.ReadEnv
import MaxScaleSystemTest.Sql.FieldPrint

namespace MaxScaleSystemTest.Binlog.FailoverVerdict

open ChangeMaster CString Runs Sql
open Nodes.ReadEnv (scanInt number IsInt)

/-!
# The check of `binlog_change_master`

When `transaction_thread` has ended, `main` asks each node from the fourth one on for the rows of
each transaction below `i_trans`.  It reads the answers through one buffer into one `int`, and does
not look at what `find_field` returns.  An empty transaction is accepted if it is the one in front
of the transaction that has failed.

* `readCount_of_shows` — what an answer that has a count comes to;
* `checkAll_of_complete`, `accepted_of_checkAll` — what the check accepts;
* `failover_verdict_iff` — what it says of the transactions that have been committed.
-/

/-! ### The check -/

/-- `N_INSERTS` -/
def nInserts : ℤ := 100

/-- The size of `rep`. -/
def REP_SIZE : ℕ := 256

/-- What `rep` and `rep_d` hold. -/
structure Reading where
  rep : Bytes
  repD : ℤ
  deriving DecidableEq

/-- `find_field` and `sscanf`, on what the node answers to `select count(*) from t1 where fl=%d;`;
    `none` when it faults or writes behind `rep`. -/
def readCount (nullText : Option Bytes) (reply : Option QueryReply) (st : Reading) :
    Option Reading := do
  let answer ← findFieldInto REP_SIZE nullText reply (ascii "count(*)") st.rep
  let repD ← scanInt answer.value st.repD
  return ⟨answer.value, repD⟩

/-- The calls of `add_result` for transaction `j`. -/
def failures (failedTransactionNum j repD : ℤ) : ℕ :=
  (if repD ≠ nInserts ∧ j ≠ failedTransactionNum - 1 then 1 else 0) +
    (if j = failedTransactionNum - 1 ∧ repD ≠ 0 ∧ repD ≠ nInserts then 1 else 0)

/-- The checks of some transactions at some nodes. -/
def checkAll (nullText : Option Bytes) (failedTransactionNum : ℤ)
    (reply : ℕ → ℤ → Option QueryReply) : List (ℕ × ℤ) → Reading → Option (ℕ × Reading)
  | [], st => some (0, st)
  | (i, j) :: rest, st => do
    let st ← readCount nullText (reply i j) st
    let (n, last) ← checkAll nullText failedTransactionNum reply rest st
    return (failures failedTransactionNum j st.repD + n, last)

/-- The two loops of `main`, over the nodes and over the transactions. -/
def checked (N : ℕ) (s : State) : List (ℕ × ℤ) :=
  (List.range' 3 (N - 3)).flatMap fun i => (verified s.iTrans).map fun j => (i, j)

/-- The check; `N` is `Test->repl->N`. -/
def check (nullText : Option Bytes) (N : ℕ) (s : State) (reply : ℕ → ℤ → Option QueryReply)
    (st : Reading) : Option (ℕ × Reading) :=
  checkAll nullText s.failedTransactionNum reply (checked N s) st

/-! ### One answer -/

/-- The answer has this count. -/
def Shows (reply : Option QueryReply) (n : ℕ) : Prop :=
  suppliedCell reply (ascii "count(*)") = some (Decimal.ofNat n)

/-- The answer has all rows of a transaction. -/
def Complete (reply : Option QueryReply) : Prop := Shows reply 100

theorem number_ofNat (n : ℕ) : number (Decimal.ofNat n) = some (n : ℤ) := by
  have hdigits : ∀ c ∈ Decimal.ofNat n, isdigit c = true := fun _ => Decimal.isdigit_of_mem_ofNat
  obtain ⟨c, ds, hds, -⟩ := Decimal.ofNat_eq_cons n
  unfold number
  rw [dropWhile_isspace_of_digits hdigits, splitSign_of_digits hdigits]
  simp only [Decimal.takeWhile_ofNat]
  rw [← Decimal.digitsValue_ofNat n, hds]
  rfl

/-- Two counts that one answer has are the same. -/
theorem shows_inj {reply : Option QueryReply} {m n : ℕ} (hm : Shows reply m)
    (hn : Shows reply n) : m = n := by
  have htext : Decimal.ofNat m = Decimal.ofNat n := Option.some.inj (hm.symm.trans hn)
  have hnumber := congrArg number htext
  rw [number_ofNat, number_ofNat, Option.some.injEq] at hnumber
  exact Int.ofNat_inj.mp hnumber

/-- **One answer.** A count that fits is read. -/
theorem readCount_of_shows {reply : Option QueryReply} {n : ℕ} (h : Shows reply n)
    (nullText : Option Bytes) (st : Reading) :
    readCount nullText reply st =
      if (Decimal.ofNat n).length < REP_SIZE ∧ IsInt n then some ⟨Decimal.ofNat n, n⟩
      else none := by
  unfold readCount findFieldInto
  rw [findField_of_supplied nullText st.rep h, Option.filter_some]
  by_cases hroom : (Decimal.ofNat n).length < REP_SIZE
  · simp only [hroom, decide_true, if_true, Option.bind_eq_bind, Option.bind_some]
    unfold scanInt
    rw [number_ofNat]
    by_cases hint : IsInt n <;> simp [hint]
  · simp [hroom]

/-! ### All answers -/

/-- The counts that are accepted. -/
theorem failures_eq_zero_iff {failedTransactionNum j repD : ℤ} :
    failures failedTransactionNum j repD = 0 ↔
      repD = nInserts ∨ j = failedTransactionNum - 1 ∧ repD = 0 := by
  unfold failures
  by_cases hfull : repD = nInserts <;> by_cases hj : j = failedTransactionNum - 1 <;>
    simp [hfull, hj]

section

variable {nullText : Option Bytes} {failedTransactionNum : ℤ} {reply : ℕ → ℤ → Option QueryReply}

/-- Nothing is added when all of them are complete. -/
theorem checkAll_of_complete {pairs : List (ℕ × ℤ)}
    (h : ∀ p ∈ pairs, Complete (reply p.1 p.2)) (st : Reading) :
    ∃ last, checkAll nullText failedTransactionNum reply pairs st = some (0, last) := by
  induction pairs generalizing st with
  | nil => exact ⟨st, rfl⟩
  | cons p pairs ih =>
    rw [List.forall_mem_cons] at h
    obtain ⟨hfirst, hrest⟩ := h
    obtain ⟨last, hlast⟩ := ih hrest ⟨Decimal.ofNat 100, 100⟩
    have hread : readCount nullText (reply p.1 p.2) st = some ⟨Decimal.ofNat 100, 100⟩ := by
      rw [readCount_of_shows hfirst]
      exact if_pos (by decide)
    have hzero : failures failedTransactionNum p.2 100 = 0 := failures_eq_zero_iff.mpr (.inl rfl)
    refine ⟨last, ?_⟩
    rw [checkAll, hread, Option.bind_eq_bind, Option.bind_some, hlast, Option.bind_eq_bind,
      Option.bind_some, hzero]
    rfl

/-- Where every answer has a count and nothing is added, each of them is complete, or is that of
    the transaction in front of the failed one and has no rows. -/
theorem accepted_of_checkAll {pairs : List (ℕ × ℤ)}
    (hshows : ∀ p ∈ pairs, ∃ n, Shows (reply p.1 p.2) n) {st last : Reading}
    (h : checkAll nullText failedTransactionNum reply pairs st = some (0, last)) :
    ∀ p ∈ pairs, Complete (reply p.1 p.2) ∨
      p.2 = failedTransactionNum - 1 ∧ Shows (reply p.1 p.2) 0 := by
  induction pairs generalizing st with
  | nil => exact fun p hp => absurd hp List.not_mem_nil
  | cons p pairs ih =>
    rw [List.forall_mem_cons] at hshows ⊢
    obtain ⟨⟨n, hn⟩, hrest⟩ := hshows
    rw [checkAll, readCount_of_shows hn] at h
    split at h
    · rw [Option.bind_eq_bind, Option.bind_some] at h
      obtain ⟨⟨k, last'⟩, htail, hsum⟩ := Option.bind_eq_some_iff.mp h
      have hpair : (failures failedTransactionNum p.2 n + k, last') = (0, last) :=
        Option.some.inj hsum
      obtain ⟨hzero, rfl⟩ := Prod.mk.inj hpair
      obtain ⟨hfirst, rfl⟩ := Nat.add_eq_zero_iff.mp hzero
      refine ⟨?_, ih hrest htail⟩
      rcases failures_eq_zero_iff.mp hfirst with hfull | ⟨hj, hempty⟩
      · obtain rfl : n = 100 := Int.ofNat_inj.mp hfull
        exact .inl hn
      · obtain rfl : n = 0 := Int.ofNat_inj.mp hempty
        exact .inr ⟨hj, hn⟩
    · cases h

end

/-! ### The verdict -/

theorem mem_checked {N : ℕ} {s : State} {p : ℕ × ℤ} :
    p ∈ checked N s ↔ (3 ≤ p.1 ∧ p.1 < N) ∧ p.2 ∈ verified s.iTrans := by
  obtain ⟨i, j⟩ := p
  simp only [checked, List.mem_flatMap, List.mem_range'_1, List.mem_map, Prod.mk.injEq]
  constructor
  · rintro ⟨i', hi, j', hj, rfl, rfl⟩
    exact ⟨⟨hi.1, by omega⟩, hj⟩
  · rintro ⟨⟨hi, hlt⟩, hj⟩
    exact ⟨i, ⟨hi, by omega⟩, j, hj, rfl, rfl⟩

/-- **Verdict.** When the thread has ended, all transactions that have been committed are complete
    on the nodes from the fourth one on, exactly if the check adds nothing and every answer that
    it gets has a count, the last transaction is complete, which the check does not ask for, and
    the one in front of the failed transaction is not empty, which it accepts. -/
theorem failover_verdict_iff (actions : List Action)
    (hended : (run step start actions).place = .ended) (nullText : Option Bytes) (N : ℕ)
    (reply : ℕ → ℤ → Option QueryReply) (st : Reading) :
    let s := run step start actions
    (∀ i, 3 ≤ i → i < N → ∀ j ∈ committed s.history, Complete (reply i j)) ↔
      (∃ last, check nullText N s reply st = some (0, last)) ∧
        ∀ i, 3 ≤ i → i < N →
          (∀ j ∈ verified s.iTrans, ∃ n, Shows (reply i j) n) ∧
            (s.iTrans ∈ committed s.history → Complete (reply i s.iTrans)) ∧
              ∀ j ∈ verified s.iTrans, j = s.failedTransactionNum - 1 → ¬ Shows (reply i j) 0 := by
  intro s
  obtain ⟨n, hn⟩ := counted_run actions
  have hcommitted := hn.committedExactly hended
  have hverified : ∀ j ∈ verified s.iTrans, j ∈ committed s.history := hcommitted.verified
  constructor
  · intro hall
    have hpairs : ∀ p ∈ checked N s, Complete (reply p.1 p.2) := by
      intro p hp
      obtain ⟨⟨hi, hlt⟩, hj⟩ := mem_checked.mp hp
      exact hall p.1 hi hlt p.2 (hverified p.2 hj)
    refine ⟨checkAll_of_complete hpairs st, fun i hi hlt => ⟨fun j hj => ?_, fun hlast => ?_, ?_⟩⟩
    · exact ⟨100, hall i hi hlt j (hverified j hj)⟩
    · exact hall i hi hlt s.iTrans hlast
    · intro j hj _ hempty
      have hfull : Shows (reply i j) 100 := hall i hi hlt j (hverified j hj)
      exact absurd (shows_inj hempty hfull) (by decide)
  · rintro ⟨⟨last, hcheck⟩, hnodes⟩ i hi hlt j hj
    obtain ⟨hshows, hlast, hempty⟩ := hnodes i hi hlt
    have haccepted := accepted_of_checkAll
      (fun p hp => by
        obtain ⟨⟨hi, hlt⟩, hj⟩ := mem_checked.mp hp
        exact (hnodes p.1 hi hlt).1 p.2 hj) hcheck
    obtain ⟨hnonneg, hle⟩ : 0 ≤ j ∧ j ≤ s.iTrans := (hcommitted.exactly j).mp hj
    by_cases hj' : j = s.iTrans
    · subst hj'
      exact hlast hj
    · have hmem : j ∈ verified s.iTrans := by
        rw [verified, mem_upTo]
        omega
      rcases haccepted (i, j) (mem_checked.mpr ⟨⟨hi, hlt⟩, hmem⟩) with hfull | ⟨hfailed, hzero⟩
      · exact hfull
      · exact absurd hzero (hempty j hmem hfailed)

/-- A count, as the node answers it. -/
def countReply (n : ℕ) : QueryReply :=
  .result ⟨[ascii "count(*)"], [[some (Decimal.ofNat n)]], by simp⟩

/-- The only transaction has been committed behind one retry, and is nowhere on the fourth node: the
    check does not ask for it. -/
theorem failover_verdict_lost :
    (run step start oneRetry).place = .ended ∧
      let s := run step start oneRetry
      let reply : ℕ → ℤ → Option QueryReply := fun _ _ => some (countReply 0)
      (∀ i, 3 ≤ i → i < 4 → ∀ j ∈ committed s.history, Complete (reply i j)) ↔
        (∃ last, check none 4 s reply ⟨[], 0⟩ = some (0, last)) ∧
          ∀ i, 3 ≤ i → i < 4 →
            (∀ j ∈ verified s.iTrans, ∃ n, Shows (reply i j) n) ∧
              (s.iTrans ∈ committed s.history → Complete (reply i s.iTrans)) ∧
                ∀ j ∈ verified s.iTrans, j = s.failedTransactionNum - 1 → ¬ Shows (reply i j) 0 :=
  ⟨by decide,
    failover_verdict_iff oneRetry (by decide) none 4 (fun _ _ => some (countReply 0)) ⟨[], 0⟩⟩

end MaxScaleSystemTest.Binlog.FailoverVerdict
