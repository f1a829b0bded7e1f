import Mathlib.Data.List.Basic
import Mathlib.Data.List.Induction
import Mathlib.Data.List.TakeWhile

namespace Scan

/-!
# Pointers that walk over memory

A piece of memory is the list of its cells, and a pointer into it is the offset of a cell.  A
loop that moves a pointer until it finds a cell of a kind gives `none` where it would look at
a cell outside the memory.

* `forward_of_split` — a scan forwards stops at the first cell of the kind;
* `forward_eq_none_iff` — it leaves the memory when there is none;
* `forward_eq_some` — it stops at no other;
* `eraseBack_of_split` — a scan backwards overwrites what it passes;
* `eraseBack_of_forall` — it leaves the memory when there is nothing to stop it.
-/

variable {α : Type*}

/-- The loop `while (!stop(*p)) p++;` over the cells that are left, the first of them at
    offset `i`. -/
def cellsFrom (stop : α → Bool) : List α → (i : ℕ) → Option ℕ
  | [], _ => none
  | c :: cs, i => if stop c then some i else cellsFrom stop cs (i + 1)

/-- `while (!stop(*p)) p++;`, where `p` starts at offset `i`. -/
def forward (stop : α → Bool) (mem : List α) (i : ℕ) : Option ℕ := cellsFrom stop (mem.drop i) i

/-- `while (erase(*p)) *p-- = z;`, where `p` starts at offset `i`: the memory afterwards. -/
def eraseBack (erase : α → Bool) (z : α) : List α → (i : ℕ) → Option (List α)
  | mem, 0 =>
    match mem[0]? with
    | some c => if erase c then none else some mem
    | none => none
  | mem, i + 1 =>
    match mem[i + 1]? with
    | some c => if erase c then eraseBack erase z (mem.set (i + 1) z) i else some mem
    | none => none

/-! ### Forwards -/

section Forward

variable {stop : α → Bool}

theorem cellsFrom_append {passed : List α} (h : ∀ c ∈ passed, stop c = false) (cs : List α)
    (i : ℕ) : cellsFrom stop (passed ++ cs) i = cellsFrom stop cs (i + passed.length) := by
  induction passed generalizing i with
  | nil => rfl
  | cons c passed ih =>
    have hc : stop c = false := h c List.mem_cons_self
    have hpassed : ∀ d ∈ passed, stop d = false := fun d hd => h d (List.mem_cons_of_mem c hd)
    rw [List.cons_append, cellsFrom, hc, if_neg Bool.false_ne_true, ih hpassed, List.length_cons]
    congr 1
    omega

theorem cellsFrom_cons_of_stop {c : α} (h : stop c = true) (cs : List α) (i : ℕ) :
    cellsFrom stop (c :: cs) i = some i := by
  rw [cellsFrom, if_pos h]

/-- **Forwards.** A scan passes cells of another kind and stops at the first one of its own. -/
theorem forward_of_split {mem passed rest : List α} {c : α} {i : ℕ}
    (hmem : mem.drop i = passed ++ c :: rest) (hpassed : ∀ d ∈ passed, stop d = false)
    (hc : stop c = true) : forward stop mem i = some (i + passed.length) := by
  rw [forward, hmem, cellsFrom_append hpassed, cellsFrom_cons_of_stop hc]

/-- Without a cell of its kind a scan leaves the memory. -/
theorem forward_eq_none_iff {mem : List α} {i : ℕ} :
    forward stop mem i = none ↔ ∀ c ∈ mem.drop i, stop c = false := by
  unfold forward
  generalize mem.drop i = cs
  induction cs generalizing i with
  | nil => simp [cellsFrom]
  | cons c cs ih =>
    rw [cellsFrom, List.forall_mem_cons]
    by_cases hc : stop c = true
    · simp [hc]
    · rw [if_neg hc, ih]
      simp [hc]

theorem cellsFrom_eq_some {cs : List α} {i j : ℕ} (h : cellsFrom stop cs i = some j) :
    ∃ k c, j = i + k ∧ cs[k]? = some c ∧ stop c = true := by
  induction cs generalizing i with
  | nil => cases h
  | cons c cs ih =>
    unfold cellsFrom at h
    split at h
    · rename_i hc
      cases h
      exact ⟨0, c, rfl, rfl, hc⟩
    · obtain ⟨k, d, rfl, hd, hstop⟩ := ih h
      exact ⟨k + 1, d, by omega, hd, hstop⟩

/-- Where a scan stops, there is a cell of its kind. -/
theorem forward_eq_some {mem : List α} {i j : ℕ} (h : forward stop mem i = some j) :
    ∃ k c, j = i + k ∧ (mem.drop i)[k]? = some c ∧ stop c = true :=
  cellsFrom_eq_some h

end Forward

/-- Every list is cells of a kind, with something else behind them. -/
theorem exists_span (p : α → Bool) (cs : List α) :
    ∃ passed rest, cs = passed ++ rest ∧ (∀ c ∈ passed, p c = true) ∧
      ∀ c ∈ rest.head?, p c = false := by
  refine ⟨cs.takeWhile p, cs.dropWhile p, List.takeWhile_append_dropWhile.symm,
    fun c hc => List.mem_takeWhile_imp hc, fun c hc => ?_⟩
  have hhead := List.head?_dropWhile_not p cs
  rw [Option.mem_def.mp hc] at hhead
  exact hhead

/-! ### Backwards -/

section Backward

variable {erase : α → Bool} {z : α}

theorem eraseBack_of_erase {mem : List α} {i : ℕ} {c : α} (hmem : mem[i + 1]? = some c)
    (hc : erase c = true) :
    eraseBack erase z mem (i + 1) = eraseBack erase z (mem.set (i + 1) z) i := by
  rw [eraseBack, hmem]
  exact if_pos hc

theorem eraseBack_of_stop {mem : List α} {i : ℕ} {c : α} (hmem : mem[i]? = some c)
    (hc : erase c = false) : eraseBack erase z mem i = some mem := by
  have hstop : ¬ erase c = true := by simp [hc]
  cases i <;> rw [eraseBack, hmem] <;> exact if_neg hstop

/-- **Backwards.** A scan overwrites the cells to be erased, back to the last cell that is
    none of them. -/
theorem eraseBack_of_split (front : List α) {c : α} (hc : erase c = false) (erased rest : List α)
    (herased : ∀ d ∈ erased, erase d = true) :
    eraseBack erase z (front ++ c :: (erased ++ rest)) (front.length + erased.length) =
      some (front ++ c :: (List.replicate erased.length z ++ rest)) := by
  induction erased using List.reverseRecOn generalizing rest with
  | nil => exact eraseBack_of_stop (by simp) hc
  | append_singleton erased d ih =>
    -- the last cell is overwritten, and belongs to the rest from then on
    have hd : erase d = true := herased d (by simp)
    have hcell : (front ++ c :: (erased ++ [d] ++ rest))[front.length + erased.length + 1]?
        = some d := by
      rw [List.getElem?_append_right (by omega)]
      simp [Nat.add_assoc]
    have hset : (front ++ c :: (erased ++ [d] ++ rest)).set (front.length + erased.length + 1) z
        = front ++ c :: (erased ++ (z :: rest)) := by
      rw [List.set_append_right _ _ (by omega)]
      simp [Nat.add_assoc]
    have hzeros : List.replicate (erased ++ [d]).length z ++ rest =
        List.replicate erased.length z ++ z :: rest := by
      rw [List.length_append, List.length_singleton, List.replicate_succ', List.append_assoc]
      rfl
    have hrest := ih (z :: rest) fun e he => herased e (by simp [he])
    rw [List.length_append, List.length_singleton, ← Nat.add_assoc, eraseBack_of_erase hcell hd,
      hset, hrest, ← hzeros, List.length_append, List.length_singleton]

/-- When all cells in front are to be erased, a scan leaves the memory. -/
theorem eraseBack_of_forall {c : α} {erased : List α} (h : ∀ d ∈ c :: erased, erase d = true)
    (rest : List α) : eraseBack erase z (c :: (erased ++ rest)) erased.length = none := by
  induction erased using List.reverseRecOn generalizing rest with
  | nil => simp [eraseBack, h c List.mem_cons_self]
  | append_singleton erased d ih =>
    have hd : erase d = true := h d (by simp)
    have hcell : (c :: (erased ++ [d] ++ rest))[erased.length + 1]? = some d := by simp
    have hset : (c :: (erased ++ [d] ++ rest)).set (erased.length + 1) z
        = c :: (erased ++ z :: rest) := by simp
    rw [List.length_append, List.length_singleton, eraseBack_of_erase hcell hd, hset]
    apply ih
    intro e he
    apply h e
    rw [← List.cons_append]
    exact List.mem_append_left _ he

end Backward

end Scan
