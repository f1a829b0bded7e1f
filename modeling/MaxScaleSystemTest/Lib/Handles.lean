import Mathlib.Data.Finset.Insert
import Mathlib.Data.Finset.Erase
import Mathlib.Data.Finset.Option
import Mathlib.Data.Finset.Union
import MaxScaleSystemTest.Lib.Runs

namespace Handles

open Runs

/-!
# Handles in slots

A program opens handles, uses and closes them, and keeps them in slots: variables, members of an
array, one slot or several for each thread.  A slot that is empty holds a null pointer.  Handles
are numbered in the order in which they are opened.

* `step` — what an event makes of the open handles; a handle that is not open can be neither used
  nor closed;
* `Slots.openAt`, `Slots.useAt`, `Slots.closeAt`, `Slots.forgetAt` — what a program does with a
  slot;
* `Accounts` — the events so far are in order, and every open handle stands in one slot, or is
  lost: written over, or forgotten with its variable;
* `Accounts.openAt` and the others — each operation keeps the accounts, and says what is lost;
* `Accounts.empty`, `Accounts.live` — what is open when all slots are empty, and when nothing is
  lost.
-/

/-- What is done with a handle. -/
inductive Event where
  | opened (h : ℕ)
  | used (h : ℕ)
  | closed (h : ℕ)
  deriving DecidableEq

/-- The open handles after an event, `none` when it is out of order. -/
def step (live : Finset ℕ) : Event → Option (Finset ℕ)
  | .opened h => if h ∈ live then none else some (insert h live)
  | .used h => if h ∈ live then some live else none
  | .closed h => if h ∈ live then some (live.erase h) else none

/-- The open handles after a trace, `none` when an event of it is out of order. -/
def after (trace : List Event) : Option (Finset ℕ) := tryRun step ∅ trace

theorem tryRun_concat {live live' : Finset ℕ} {trace : List Event}
    (h : tryRun step live trace = some live') (e : Event) :
    tryRun step live (trace ++ [e]) = step live' e := by
  induction trace generalizing live with
  | nil =>
    obtain rfl : live = live' := Option.some.inj h
    show (step live e).bind (fun l => some l) = _
    cases step live e <;> rfl
  | cons first trace ih =>
    obtain ⟨next, hnext, hrest⟩ := Option.bind_eq_some_iff.mp h
    rw [List.cons_append, tryRun, hnext]
    exact ih hrest

variable {ι : Type*} [DecidableEq ι]

/-- The slots, the number of the next handle, and what has been done so far. -/
structure Slots (ι : Type*) where
  slot : ι → Option ℕ
  next : ℕ
  trace : List Event

namespace Slots

/-- Empty slots. -/
def empty (ι : Type*) : Slots ι := ⟨fun _ => none, 0, []⟩

/-- A handle is opened, if that is granted, and written to a slot. -/
def openAt (s : Slots ι) (i : ι) (granted : Bool) : Slots ι :=
  if granted then
    ⟨Function.update s.slot i (some s.next), s.next + 1, s.trace ++ [.opened s.next]⟩
  else ⟨Function.update s.slot i none, s.next, s.trace⟩

/-- The handle in a slot is used, unless it is null. -/
def useAt (s : Slots ι) (i : ι) : Slots ι :=
  match s.slot i with
  | none => s
  | some h => { s with trace := s.trace ++ [.used h] }

/-- The handle in a slot is closed, unless it is null, and the slot made null. -/
def closeAt (s : Slots ι) (i : ι) : Slots ι :=
  match s.slot i with
  | none => s
  | some h => ⟨Function.update s.slot i none, s.next, s.trace ++ [.closed h]⟩

/-- The variable is gone, whatever it held. -/
def forgetAt (s : Slots ι) (i : ι) : Slots ι := { s with slot := Function.update s.slot i none }

section Fields

variable (s : Slots ι) (i : ι)

theorem openAt_slot (granted : Bool) :
    (s.openAt i granted).slot =
      Function.update s.slot i (if granted then some s.next else none) := by
  cases granted <;> rfl

omit [DecidableEq ι] in
@[simp] theorem useAt_slot : (s.useAt i).slot = s.slot := by
  unfold useAt
  split <;> rfl

theorem closeAt_slot : (s.closeAt i).slot = Function.update s.slot i none := by
  unfold closeAt
  split
  · rename_i hnull
    rw [← hnull, Function.update_eq_self]
  · rfl

theorem forgetAt_slot : (s.forgetAt i).slot = Function.update s.slot i none := rfl

end Fields

end Slots

/-- The handle in a slot, as a set. -/
def inSlot (s : Slots ι) (i : ι) : Finset ℕ := (s.slot i).toFinset

/-- **Accounts.** What is open stands in one slot, or is lost. -/
structure Accounts (s : Slots ι) (lost : Finset ℕ) : Prop where
  open_iff : ∃ live, after s.trace = some live ∧
    ∀ h, h ∈ live ↔ h ∈ lost ∨ ∃ i, s.slot i = some h
  sole : ∀ i j h, s.slot i = some h → s.slot j = some h → i = j
  not_lost : ∀ i h, s.slot i = some h → h ∉ lost
  old : ∀ i h, s.slot i = some h → h < s.next
  lost_old : ∀ h ∈ lost, h < s.next

omit [DecidableEq ι] in
theorem accounts_empty : Accounts (Slots.empty ι) ∅ where
  open_iff := ⟨∅, rfl, by simp [Slots.empty]⟩
  sole := nofun
  not_lost := nofun
  old := nofun
  lost_old := by simp

namespace Accounts

variable {s : Slots ι} {lost : Finset ℕ}

omit [DecidableEq ι] in
/-- With all slots empty what is open is lost. -/
theorem empty (h : Accounts s lost) (hslots : ∀ i, s.slot i = none) :
    after s.trace = some lost := by
  obtain ⟨live, hlive, hiff⟩ := h.open_iff
  have heq : live = lost := by
    ext x
    simp [hiff x, hslots]
  rw [← heq]
  exact hlive

/-- A variable that is gone takes its handle with it. -/
theorem forgetAt (h : Accounts s lost) (i : ι) :
    Accounts (s.forgetAt i) (lost ∪ inSlot s i) := by
  obtain ⟨live, hlive, hiff⟩ := h.open_iff
  have hslot : ∀ j x, (s.forgetAt i).slot j = some x ↔ j ≠ i ∧ s.slot j = some x := by
    intro j x
    rw [Slots.forgetAt_slot]
    by_cases hj : j = i
    · simp [hj]
    · simp [hj, Function.update_of_ne]
  refine ⟨⟨live, hlive, fun x => ?_⟩, ?_, ?_, ?_, ?_⟩
  · simp only [hiff, hslot, Finset.mem_union, inSlot, Option.mem_toFinset, Option.mem_def]
    constructor
    · rintro (hx | ⟨j, hj⟩)
      · exact .inl (.inl hx)
      · by_cases hji : j = i
        · exact .inl (.inr (hji ▸ hj))
        · exact .inr ⟨j, hji, hj⟩
    · rintro ((hx | hx) | ⟨j, -, hj⟩)
      · exact .inl hx
      · exact .inr ⟨i, hx⟩
      · exact .inr ⟨j, hj⟩
  · intro j k x hj hk
    exact h.sole j k x ((hslot j x).mp hj).2 ((hslot k x).mp hk).2
  · intro j x hj hx
    obtain ⟨hne, hj⟩ := (hslot j x).mp hj
    rcases Finset.mem_union.mp hx with hx | hx
    · exact h.not_lost j x hj hx
    · exact hne (h.sole j i x hj (by simpa [inSlot] using hx))
  · intro j x hj
    exact h.old j x ((hslot j x).mp hj).2
  · intro x hx
    rcases Finset.mem_union.mp hx with hx | hx
    · exact h.lost_old x hx
    · exact h.old i x (by simpa [inSlot] using hx)

/-- A handle that is opened over another one loses it. -/
theorem openAt (h : Accounts s lost) (i : ι) (granted : Bool) :
    Accounts (s.openAt i granted) (lost ∪ inSlot s i) := by
  have hforget := h.forgetAt i
  cases granted with
  | false => exact hforget
  | true =>
    obtain ⟨live, hlive, hiff⟩ := hforget.open_iff
    have hfresh : s.next ∉ live := by
      intro hmem
      rcases (hiff s.next).mp hmem with hx | ⟨j, hj⟩
      · exact lt_irrefl _ (hforget.lost_old _ hx)
      · exact lt_irrefl _ (hforget.old j _ hj)
    have hslot : ∀ j x, (s.openAt i true).slot j = some x ↔
        (j = i ∧ x = s.next) ∨ (s.forgetAt i).slot j = some x := by
      intro j x
      rw [Slots.openAt_slot, Slots.forgetAt_slot]
      by_cases hj : j = i
      · simp [hj, eq_comm]
      · simp [hj, Function.update_of_ne]
    refine ⟨⟨insert s.next live, ?_, fun x => ?_⟩, ?_, ?_, ?_, ?_⟩
    · have hbefore : tryRun step ∅ s.trace = some live := hlive
      show after (s.trace ++ [.opened s.next]) = _
      rw [after, tryRun_concat hbefore, step, if_neg hfresh]
    · simp only [Finset.mem_insert, hiff, hslot]
      constructor
      · rintro (rfl | hx | ⟨j, hj⟩)
        · exact .inr ⟨i, .inl ⟨rfl, rfl⟩⟩
        · exact .inl hx
        · exact .inr ⟨j, .inr hj⟩
      · rintro (hx | ⟨j, ⟨-, rfl⟩ | hj⟩)
        · exact .inr (.inl hx)
        · exact .inl rfl
        · exact .inr (.inr ⟨j, hj⟩)
    · intro j k x hj hk
      rcases (hslot j x).mp hj with ⟨hji, hx⟩ | hj
      · rcases (hslot k x).mp hk with ⟨hki, -⟩ | hk
        · rw [hji, hki]
        · exact absurd (hforget.old k x hk) (hx ▸ lt_irrefl _)
      · rcases (hslot k x).mp hk with ⟨-, hx⟩ | hk
        · exact absurd (hforget.old j x hj) (hx ▸ lt_irrefl _)
        · exact hforget.sole j k x hj hk
    · intro j x hj hx
      rcases (hslot j x).mp hj with ⟨-, rfl⟩ | hj
      · exact lt_irrefl _ (hforget.lost_old _ hx)
      · exact hforget.not_lost j x hj hx
    · intro j x hj
      show x < s.next + 1
      rcases (hslot j x).mp hj with ⟨-, rfl⟩ | hj
      · exact Nat.lt_succ_self _
      · exact Nat.lt_succ_of_lt (hforget.old j x hj)
    · exact fun x hx => Nat.lt_succ_of_lt (hforget.lost_old x hx)

/-- Into an empty slot nothing is lost. -/
theorem openAt_of_null (h : Accounts s lost) {i : ι} (hnull : s.slot i = none) (granted : Bool) :
    Accounts (s.openAt i granted) lost := by
  have hopen := h.openAt i granted
  rwa [inSlot, hnull, Option.toFinset_none, Finset.union_empty] at hopen

omit [DecidableEq ι] in
/-- What a slot holds can be used. -/
theorem useAt (h : Accounts s lost) (i : ι) : Accounts (s.useAt i) lost := by
  obtain ⟨live, hlive, hiff⟩ := h.open_iff
  unfold Slots.useAt
  split
  · exact h
  · rename_i x hx
    have hmem : x ∈ live := (hiff x).mpr (.inr ⟨i, hx⟩)
    refine ⟨⟨live, ?_, hiff⟩, h.sole, h.not_lost, h.old, h.lost_old⟩
    show after (s.trace ++ [.used x]) = _
    rw [after, tryRun_concat hlive, step, if_pos hmem]

/-- What a slot holds can be closed. -/
theorem closeAt (h : Accounts s lost) (i : ι) : Accounts (s.closeAt i) lost := by
  obtain ⟨live, hlive, hiff⟩ := h.open_iff
  unfold Slots.closeAt
  split
  · exact h
  · rename_i x hx
    have hmem : x ∈ live := (hiff x).mpr (.inr ⟨i, hx⟩)
    have hslot : ∀ j y, Function.update s.slot i none j = some y ↔ j ≠ i ∧ s.slot j = some y := by
      intro j y
      by_cases hj : j = i
      · simp [hj]
      · simp [hj, Function.update_of_ne]
    refine ⟨⟨live.erase x, ?_, fun y => ?_⟩, ?_, ?_, ?_, h.lost_old⟩
    · show after (s.trace ++ [.closed x]) = _
      rw [after, tryRun_concat hlive, step, if_pos hmem]
    · simp only [Finset.mem_erase, hiff, hslot]
      constructor
      · rintro ⟨hne, hy | ⟨j, hj⟩⟩
        · exact .inl hy
        · refine .inr ⟨j, ?_, hj⟩
          rintro rfl
          rw [hx, Option.some.injEq] at hj
          exact hne hj.symm
      · rintro (hy | ⟨j, hne, hj⟩)
        · exact ⟨fun heq => h.not_lost i x hx (heq ▸ hy), .inl hy⟩
        · exact ⟨fun heq => hne (h.sole j i x (heq ▸ hj) hx), .inr ⟨j, hj⟩⟩
    · exact fun j k y hj hk => h.sole j k y ((hslot j y).mp hj).2 ((hslot k y).mp hk).2
    · exact fun j y hj => h.not_lost j y ((hslot j y).mp hj).2
    · exact fun j y hj => h.old j y ((hslot j y).mp hj).2

omit [DecidableEq ι] in
/-- When nothing is lost, what is open stands in a slot. -/
theorem live (h : Accounts s ∅) :
    ∃ live, after s.trace = some live ∧ ∀ x, x ∈ live ↔ ∃ i, s.slot i = some x := by
  obtain ⟨live, hlive, hiff⟩ := h.open_iff
  refine ⟨live, hlive, fun x => (hiff x).trans (or_iff_right ?_)⟩
  exact Finset.notMem_empty x

end Accounts

end Handles
