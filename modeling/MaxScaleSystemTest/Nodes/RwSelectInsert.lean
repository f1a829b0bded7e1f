import MaxScaleSystemTest.Lib.CInt
import Mathlib.Algebra.BigOperators.Fin
import Mathlib.Data.List.FinRange

namespace MaxScaleSystemTest.Nodes.RwSelectInsert

open CInt

/-!
# Where selects and inserts are executed

The read/write test reads the counters `COM_SELECT` and `COM_INSERT` of all nodes, and checks
after some statements which of them have changed.  Each check gets the counters of the check
before as well, and is to replace them by the new ones.

* `checkComSelect_eq` — what the check of selects computes;
* `check_right_iff` — when a check is right and leaves the new counters behind;
* `com_counters_iff` — the same for a series of checks.
-/

/-! ### The functions -/

/-- A counter of a server, as a `long`. -/
@[ext] structure Counter where
  value : ℕ
  isLong : value < 2 ^ 63

/-- The counters of all nodes, the master first. -/
@[ext] structure Counters (slaves : ℕ) where
  selects : Fin (slaves + 1) → Counter
  inserts : Fin (slaves + 1) → Counter

/-- What a counter has grown by. -/
def growth (old new : Counter) : ℤ := new.value - old.value

variable {slaves : ℕ}

/-- The new counters of one node replace the old ones. -/
def Counters.refresh (old new : Counters slaves) (i : Fin (slaves + 1)) : Counters slaves where
  selects := Function.update old.selects i (new.selects i)
  inserts := Function.update old.inserts i (new.inserts i)

/-- The variables of the loop in `check_com_select`, with the arrays of old counters. -/
structure SelectState (slaves : ℕ) where
  result : ℤ
  sumSelects : ℤ
  old : Counters slaves

/-- The body of the loop; `none` for an overflow of `sum_selects`. -/
def selectTurn (new : Counters slaves) (st : SelectState slaves) (i : Fin (slaves + 1)) :
    Option (SelectState slaves) :=
  let result := if growth (st.old.inserts i) (new.inserts i) ≠ 0 then 1 else st.result
  let diff := cutInt (growth (st.old.selects i) (new.selects i))
  if InInt (st.sumSelects + diff) then
    some ⟨result, st.sumSelects + diff, st.old.refresh new i⟩
  else none

/-- `check_com_select`: the result and the counters that are left in the arrays. -/
def checkComSelect (new old : Counters slaves) (expected : Int32) :
    Option (ℤ × Counters slaves) := do
  let result := if growth (old.selects 0) (new.selects 0) ≠ 0 then 1 else 0
  let st ← (List.finRange (slaves + 1)).foldlM (selectTurn new) ⟨result, 0, old⟩
  let result := if st.sumSelects ≠ expected.toInt then 1 else st.result
  return (result, st.old)

/-- `check_com_insert`, which looks at node 0 only. -/
def checkComInsert (new old : Counters slaves) (expected : Int32) : ℤ × Counters slaves :=
  let diffIns := cutInt (growth (old.inserts 0) (new.inserts 0))
  let diffSel := cutInt (growth (old.selects 0) (new.selects 0))
  let result := if diffIns = 0 then 1 else 0
  let result := if diffSel ≠ 0 then 1 else result
  let result := if diffIns ≠ expected.toInt then 1 else result
  (result, old.refresh new 0)

/-- The two checks. -/
inductive Kind where
  | select
  | insert
  deriving DecidableEq

/-- A call of one of them: the counters that have been read, and the growth that is expected. -/
structure Check (slaves : ℕ) where
  kind : Kind
  new : Counters slaves
  expected : Int32

/-- A check, on the counters in the arrays. -/
def Check.run (c : Check slaves) (old : Counters slaves) : Option (ℤ × Counters slaves) :=
  match c.kind with
  | .select => checkComSelect c.new old c.expected
  | .insert => some (checkComInsert c.new old c.expected)

/-! ### What they should do -/

/-- What a check is to find between the counters of the check before and its own. -/
def Check.Passes (c : Check slaves) (old : Counters slaves) : Prop :=
  match c.kind with
  | .select =>
    growth (old.selects 0) (c.new.selects 0) ≤ 0 ∧
      ∑ i : Fin slaves, growth (old.selects i.succ) (c.new.selects i.succ) = c.expected.toInt ∧
        ∀ i, growth (old.inserts i) (c.new.inserts i) ≤ 0
  | .insert =>
    growth (old.inserts 0) (c.new.inserts 0) = c.expected.toInt ∧
      ∀ i, growth (old.selects i) (c.new.selects i) ≤ 0

/-- Every check of a series passes exactly when it should, measured from the counters `last` of
    the check before, and leaves its own counters in the arrays. -/
def ChecksRight (last old : Counters slaves) : List (Check slaves) → Prop
  | [] => True
  | c :: checks => ∃ result after, c.run old = some (result, after) ∧
      (result = 0 ↔ c.Passes last) ∧ after = c.new ∧ ChecksRight c.new after checks

/-! ### When they do it -/

/-- The changes of the selects of some nodes, each cut to an `int`. -/
def nodeDiffs (old new : Counters slaves) (is : List (Fin (slaves + 1))) : List ℤ :=
  is.map fun i => cutInt (growth (old.selects i) (new.selects i))

/-- The changes of the selects of all nodes. -/
def selectDiffs (old new : Counters slaves) : List ℤ :=
  nodeDiffs old new (List.finRange (slaves + 1))

/-- The master has no new selects, and no node has new inserts. -/
def OnlySlaveSelects (old new : Counters slaves) : Prop :=
  growth (old.selects 0) (new.selects 0) = 0 ∧ ∀ i, growth (old.inserts i) (new.inserts i) = 0

/-- A check of selects is right: the sum of the changes does not overflow; when the check should
    pass, no counter has gone back; and the changes add up to what is expected if and only if they
    do so cut to `int`s. -/
structure SelectGood (old : Counters slaves) (c : Check slaves) : Prop where
  fits : SumsFit 0 (selectDiffs old c.new)
  forward : c.Passes old → OnlySlaveSelects old c.new
  cut : OnlySlaveSelects old c.new → ((selectDiffs old c.new).sum = c.expected.toInt ↔
    ∑ i : Fin slaves, growth (old.selects i.succ) (c.new.selects i.succ) = c.expected.toInt)

/-- A check of inserts is right: nothing has changed on the slaves; when it should pass, an insert
    was expected, and the master's selects have not gone back; and the changes on the master are
    what is expected if they are so cut to `int`s. -/
structure InsertGood (old : Counters slaves) (c : Check slaves) : Prop where
  slaves : ∀ i : Fin slaves, growth (old.selects i.succ) (c.new.selects i.succ) = 0 ∧
    growth (old.inserts i.succ) (c.new.inserts i.succ) = 0
  forward : growth (old.inserts 0) (c.new.inserts 0) = c.expected.toInt →
    growth (old.selects 0) (c.new.selects 0) ≤ 0 →
      c.expected.toInt ≠ 0 ∧ cutInt (growth (old.selects 0) (c.new.selects 0)) = 0
  cut : c.expected.toInt ≠ 0 →
    cutInt (growth (old.inserts 0) (c.new.inserts 0)) = c.expected.toInt →
      cutInt (growth (old.selects 0) (c.new.selects 0)) = 0 →
        growth (old.inserts 0) (c.new.inserts 0) = c.expected.toInt ∧
          growth (old.selects 0) (c.new.selects 0) ≤ 0

/-- A check is right, measured from the counters `old`. -/
def Check.Good (c : Check slaves) (old : Counters slaves) : Prop :=
  match c.kind with
  | .select => SelectGood old c
  | .insert => InsertGood old c

/-- All checks of a series are, each measured from the counters of the one before. -/
def ChecksGood (last : Counters slaves) : List (Check slaves) → Prop
  | [] => True
  | c :: checks => c.Good last ∧ ChecksGood c.new checks

/-! ### The check of selects -/

/-- The old counters, with those of some nodes replaced. -/
def Counters.refreshAll (old new : Counters slaves) (is : List (Fin (slaves + 1))) :
    Counters slaves where
  selects i := if i ∈ is then new.selects i else old.selects i
  inserts i := if i ∈ is then new.inserts i else old.inserts i

theorem refreshAll_nil (old new : Counters slaves) : old.refreshAll new [] = old := by
  simp [Counters.refreshAll]

theorem refreshAll_refresh (old new : Counters slaves) (i : Fin (slaves + 1))
    (is : List (Fin (slaves + 1))) :
    (old.refresh new i).refreshAll new is = old.refreshAll new (i :: is) := by
  ext j
  all_goals
    by_cases hj : j ∈ is
    · simp [Counters.refreshAll, Counters.refresh, hj]
    · by_cases hji : j = i
      · subst hji
        simp [Counters.refreshAll, Counters.refresh, hj]
      · simp [Counters.refreshAll, Counters.refresh, hj, hji]

theorem refreshAll_finRange (old new : Counters slaves) :
    old.refreshAll new (List.finRange (slaves + 1)) = new := by
  simp [Counters.refreshAll]

/-- **The loop.** Every node is compared with its old counters. -/
theorem foldlM_selectTurn (old new : Counters slaves) {is : List (Fin (slaves + 1))}
    (hnodup : is.Nodup) (st : SelectState slaves)
    (hold : ∀ i ∈ is, st.old.selects i = old.selects i ∧ st.old.inserts i = old.inserts i) :
    (SumsFit st.sumSelects (nodeDiffs old new is) ∧ is.foldlM (selectTurn new) st = some
        ⟨if ∀ i ∈ is, growth (old.inserts i) (new.inserts i) = 0 then st.result else 1,
          st.sumSelects + (nodeDiffs old new is).sum, st.old.refreshAll new is⟩) ∨
      (¬ SumsFit st.sumSelects (nodeDiffs old new is) ∧
        is.foldlM (selectTurn new) st = none) := by
  induction is generalizing st with
  | nil =>
    refine .inl ⟨trivial, ?_⟩
    simp [nodeDiffs, refreshAll_nil]
  | cons i is ih =>
    obtain ⟨hi, hnodup⟩ := List.nodup_cons.mp hnodup
    obtain ⟨⟨hselects, hinserts⟩, hold⟩ := List.forall_mem_cons.mp hold
    have hdiffs : nodeDiffs old new (i :: is) =
        cutInt (growth (old.selects i) (new.selects i)) :: nodeDiffs old new is := rfl
    rw [List.foldlM_cons, selectTurn, hselects, hinserts, hdiffs, SumsFit, List.sum_cons]
    by_cases hfits : InInt (st.sumSelects + cutInt (growth (old.selects i) (new.selects i)))
    · -- the other nodes keep their old counters
      have hrest : ∀ j ∈ is, (st.old.refresh new i).selects j = old.selects j ∧
          (st.old.refresh new i).inserts j = old.inserts j := by
        intro j hj
        have hne : j ≠ i := fun heq => hi (heq ▸ hj)
        refine ⟨?_, ?_⟩
        · exact (Function.update_of_ne hne _ _).trans (hold j hj).1
        · exact (Function.update_of_ne hne _ _).trans (hold j hj).2
      rw [if_pos hfits]
      obtain ⟨hsums, hrun⟩ | ⟨hsums, hrun⟩ := ih hnodup ⟨_, _, st.old.refresh new i⟩ hrest
      · refine .inl ⟨⟨hfits, hsums⟩, ?_⟩
        refine Eq.trans hrun ?_
        simp only [refreshAll_refresh, List.forall_mem_cons, add_assoc]
        by_cases hzero : growth (old.inserts i) (new.inserts i) = 0
        · simp [hzero]
        · simp [hzero]
      · exact .inr ⟨fun h => hsums h.2, hrun⟩
    · rw [if_neg hfits]
      exact .inr ⟨fun h => hfits h.1, rfl⟩

/-- **Selects.** The check faults when the sum of the changes overflows, and else leaves the new
    counters and passes exactly when only the slaves' selects have changed, by what is
    expected. -/
theorem checkComSelect_eq (new old : Counters slaves) (expected : Int32) :
    (SumsFit 0 (selectDiffs old new) ∧ ∃ result,
        checkComSelect new old expected = some (result, new) ∧
          (result = 0 ↔ OnlySlaveSelects old new ∧
            (selectDiffs old new).sum = expected.toInt)) ∨
      (¬ SumsFit 0 (selectDiffs old new) ∧ checkComSelect new old expected = none) := by
  have hloop := foldlM_selectTurn old new (List.nodup_finRange (slaves + 1))
    ⟨if growth (old.selects 0) (new.selects 0) ≠ 0 then 1 else 0, 0, old⟩ fun _ _ => ⟨rfl, rfl⟩
  simp only [refreshAll_finRange, zero_add, List.mem_finRange, forall_const] at hloop
  change (SumsFit 0 (selectDiffs old new) ∧ _) ∨ (¬ SumsFit 0 (selectDiffs old new) ∧ _) at hloop
  obtain ⟨hsums, hrun⟩ | ⟨hsums, hrun⟩ := hloop
  · let loop : ℤ := if ∀ i, growth (old.inserts i) (new.inserts i) = 0 then
      if growth (old.selects 0) (new.selects 0) ≠ 0 then 1 else 0 else 1
    let result : ℤ := if (selectDiffs old new).sum ≠ expected.toInt then 1 else loop
    refine .inl ⟨hsums, result, ?_, ?_⟩
    · show (List.foldlM (selectTurn new) _ _).bind _ = _
      rw [hrun]
      rfl
    · by_cases hsum : (selectDiffs old new).sum = expected.toInt
      · by_cases hinserts : ∀ i, growth (old.inserts i) (new.inserts i) = 0
        · simp [result, loop, OnlySlaveSelects, hsum, hinserts]
        · simp [result, loop, OnlySlaveSelects, hsum, hinserts]
      · simp [result, hsum]
  · refine .inr ⟨hsums, ?_⟩
    show (List.foldlM (selectTurn new) _ _).bind _ = _
    rw [hrun]
    rfl

/-- What should pass is told from the changes, where no counter has gone back. -/
theorem select_passes_iff {old : Counters slaves} {c : Check slaves} (hkind : c.kind = .select) :
    OnlySlaveSelects old c.new →
      (c.Passes old ↔ ∑ i : Fin slaves, growth (old.selects i.succ) (c.new.selects i.succ)
        = c.expected.toInt) := by
  rintro ⟨hselects, hinserts⟩
  simp only [Check.Passes, hkind, hselects, hinserts, le_refl, true_and, implies_true, and_true]

theorem select_right_iff {old : Counters slaves} {c : Check slaves} (hkind : c.kind = .select) :
    (∃ result after, c.run old = some (result, after) ∧ (result = 0 ↔ c.Passes old) ∧
      after = c.new) ↔ SelectGood old c := by
  have hrun : c.run old = checkComSelect c.new old c.expected := by
    rw [Check.run, hkind]
  rw [hrun]
  obtain ⟨hsums, result, hcheck, hresult⟩ | ⟨hsums, hcheck⟩ :=
    checkComSelect_eq c.new old c.expected
  · rw [hcheck]
    constructor
    · rintro ⟨_, _, ⟨⟩, hright, -⟩
      have hiff := hresult.symm.trans hright
      refine ⟨hsums, fun hpasses => (hiff.mpr hpasses).1, fun honly => ?_⟩
      rw [← select_passes_iff hkind honly, ← hiff, and_iff_right honly]
    · rintro ⟨-, hforward, hcut⟩
      refine ⟨result, c.new, rfl, hresult.trans ⟨?_, ?_⟩, rfl⟩
      · rintro ⟨honly, hsum⟩
        exact (select_passes_iff hkind honly).mpr ((hcut honly).mp hsum)
      · intro hpasses
        have honly := hforward hpasses
        exact ⟨honly, (hcut honly).mpr ((select_passes_iff hkind honly).mp hpasses)⟩
  · rw [hcheck]
    refine iff_of_false ?_ fun hgood => hsums hgood.fits
    rintro ⟨_, _, hnone, -⟩
    cases hnone

/-! ### The check of inserts -/

/-- A counter that has not grown or gone back is the same. -/
theorem growth_eq_zero_iff {old new : Counter} : growth old new = 0 ↔ old = new := by
  constructor
  · intro h
    unfold growth at h
    ext
    omega
  · rintro rfl
    exact sub_self _

/-- What is refreshed of node 0 is the whole exactly when nothing has changed on the others. -/
theorem refresh_eq_iff (old new : Counters slaves) :
    old.refresh new 0 = new ↔ ∀ i : Fin slaves,
      growth (old.selects i.succ) (new.selects i.succ) = 0 ∧
        growth (old.inserts i.succ) (new.inserts i.succ) = 0 := by
  simp only [Counters.ext_iff, Counters.refresh, funext_iff, Fin.forall_fin_succ,
    Function.update_self, Function.update_of_ne (Fin.succ_ne_zero _), true_and, growth_eq_zero_iff,
    forall_and]

/-- An `int` is not cut. -/
theorem cutInt_toInt (n : Int32) : cutInt n.toInt = n.toInt := by
  have hle := Int32.le_toInt n
  have hlt := Int32.toInt_lt n
  rw [cutInt, Int.bmod_def]
  split <;> omega

theorem checkComInsert_eq_zero_iff (new old : Counters slaves) (expected : Int32) :
    (checkComInsert new old expected).1 = 0 ↔ expected.toInt ≠ 0 ∧
      cutInt (growth (old.inserts 0) (new.inserts 0)) = expected.toInt ∧
        cutInt (growth (old.selects 0) (new.selects 0)) = 0 := by
  unfold checkComInsert
  by_cases hins : cutInt (growth (old.inserts 0) (new.inserts 0)) = expected.toInt
  · by_cases hsel : cutInt (growth (old.selects 0) (new.selects 0)) = 0
    · simp [hins, hsel]
    · simp [hins, hsel]
  · simp [hins]

/-- Without changes on the slaves, only the master counts. -/
theorem insert_passes_iff {old : Counters slaves} {c : Check slaves} (hkind : c.kind = .insert)
    (hslaves : ∀ i : Fin slaves, growth (old.selects i.succ) (c.new.selects i.succ) = 0) :
    c.Passes old ↔ growth (old.inserts 0) (c.new.inserts 0) = c.expected.toInt ∧
      growth (old.selects 0) (c.new.selects 0) ≤ 0 := by
  simp only [Check.Passes, hkind, Fin.forall_fin_succ, hslaves, le_refl, implies_true, and_true]

theorem insert_right_iff {old : Counters slaves} {c : Check slaves} (hkind : c.kind = .insert) :
    (∃ result after, c.run old = some (result, after) ∧ (result = 0 ↔ c.Passes old) ∧
      after = c.new) ↔ InsertGood old c := by
  have hrun : c.run old = some (checkComInsert c.new old c.expected) := by
    rw [Check.run, hkind]
  rw [hrun]
  constructor
  · rintro ⟨_, _, ⟨⟩, hright, hafter⟩
    have hslaves := (refresh_eq_iff old c.new).mp hafter
    change (checkComInsert c.new old c.expected).1 = 0 ↔ _ at hright
    rw [checkComInsert_eq_zero_iff, insert_passes_iff hkind fun i => (hslaves i).1] at hright
    refine ⟨hslaves, fun hins hsel => ?_, fun hexpected hins hsel => ?_⟩
    · obtain ⟨hexpected, -, hcut⟩ := hright.mpr ⟨hins, hsel⟩
      exact ⟨hexpected, hcut⟩
    · exact hright.mp ⟨hexpected, hins, hsel⟩
  · rintro ⟨hslaves, hforward, hcut⟩
    refine ⟨(checkComInsert c.new old c.expected).1, old.refresh c.new 0, rfl, ?_,
      (refresh_eq_iff old c.new).mpr hslaves⟩
    rw [checkComInsert_eq_zero_iff, insert_passes_iff hkind fun i => (hslaves i).1]
    constructor
    · rintro ⟨hexpected, hins, hsel⟩
      exact hcut hexpected hins hsel
    · rintro ⟨hins, hsel⟩
      obtain ⟨hexpected, hzero⟩ := hforward hins hsel
      exact ⟨hexpected, by rw [hins, cutInt_toInt], hzero⟩

/-! ### Series of checks -/

/-- **One check.** It passes when it should and leaves the new counters exactly when it is good. -/
theorem check_right_iff (old : Counters slaves) (c : Check slaves) :
    (∃ result after, c.run old = some (result, after) ∧ (result = 0 ↔ c.Passes old) ∧
      after = c.new) ↔ c.Good old := by
  unfold Check.Good
  cases hkind : c.kind with
  | select => exact select_right_iff hkind
  | insert => exact insert_right_iff hkind

/-- **All checks.** A series measures what has changed since the check before, every time, exactly
    when all its checks are good. -/
theorem com_counters_iff (first : Counters slaves) (checks : List (Check slaves)) :
    ChecksRight first first checks ↔ ChecksGood first checks := by
  induction checks generalizing first with
  | nil => exact Iff.rfl
  | cons c checks ih =>
    rw [ChecksRight, ChecksGood, ← check_right_iff, ← ih]
    constructor
    · rintro ⟨result, after, hrun, hright, rfl, hrest⟩
      exact ⟨⟨result, c.new, hrun, hright, rfl⟩, hrest⟩
    · rintro ⟨⟨result, after, hrun, hright, rfl⟩, hrest⟩
      exact ⟨result, c.new, hrun, hright, rfl, hrest⟩

/-- Counters of a master and a slave that have executed nothing. -/
def idle : Counters 1 := ⟨fun _ => ⟨0, by decide⟩, fun _ => ⟨0, by decide⟩⟩

/-- An insert is expected and has been executed by the master; a select has been executed by the
    slave meanwhile. -/
def insertWithSelect : Check 1 where
  kind := .insert
  new := ⟨fun i => if i = 0 then ⟨0, by decide⟩ else ⟨1, by decide⟩, fun i =>
    if i = 0 then ⟨1, by decide⟩ else ⟨0, by decide⟩⟩
  expected := 1

/-- The check of inserts does not see the select, and leaves the old counters of the slave. -/
theorem select_on_slave_missed : ¬ ChecksRight idle idle [insertWithSelect] := by
  rw [com_counters_iff]
  rintro ⟨hgood, -⟩
  have hslave : growth (idle.selects 1) (insertWithSelect.new.selects 1) = 0 :=
    (InsertGood.slaves hgood 0).1
  exact absurd hslave (by decide)

end MaxScaleSystemTest.Nodes.RwSelectInsert
