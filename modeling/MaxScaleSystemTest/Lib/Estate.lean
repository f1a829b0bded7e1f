import Mathlib.Data.Finset.Insert
import Mathlib.Data.Finset.Erase

/-!
# Things that are made and deleted

An estate is what exists, and what has been made of it since some moment.  A deletion of
something that does not exist changes nothing.

* `Left` — what has been made and still exists;
* `left_make`, `left_delete`, `left_deleteAll` — how it changes.
-/

/-- What exists, and what has been made. -/
structure Estate (α : Type*) [DecidableEq α] where
  existing : Finset α
  made : List α

namespace Estate

variable {α : Type*} [DecidableEq α]

/-- Something is made. -/
def make (e : Estate α) (x : α) : Estate α := ⟨insert x e.existing, e.made ++ [x]⟩

/-- Something is deleted. -/
def delete (e : Estate α) (x : α) : Estate α := ⟨e.existing.erase x, e.made⟩

/-- Several things are deleted, one after the other. -/
def deleteAll (e : Estate α) (xs : List α) : Estate α := xs.foldl delete e

/-- What has been made and still exists. -/
def Left (e : Estate α) (x : α) : Prop := x ∈ e.made ∧ x ∈ e.existing

instance (e : Estate α) (x : α) : Decidable (e.Left x) := inferInstanceAs (Decidable (_ ∧ _))

@[simp] theorem left_make (e : Estate α) (x y : α) : (e.make x).Left y ↔ y = x ∨ e.Left y := by
  simp only [Left, make, List.mem_append, List.mem_singleton, Finset.mem_insert]
  tauto

@[simp] theorem left_delete (e : Estate α) (x y : α) :
    (e.delete x).Left y ↔ y ≠ x ∧ e.Left y := by
  simp only [Left, delete, Finset.mem_erase]
  tauto

@[simp] theorem left_deleteAll (e : Estate α) (xs : List α) (y : α) :
    (e.deleteAll xs).Left y ↔ y ∉ xs ∧ e.Left y := by
  induction xs generalizing e with
  | nil => simp [deleteAll]
  | cons x xs ih =>
    show ((e.delete x).deleteAll xs).Left y ↔ _
    rw [ih, left_delete, List.mem_cons, not_or]
    tauto

/-- Nothing is left of what exists only. -/
theorem not_left_start (existing : Finset α) (y : α) : ¬ (Estate.mk existing []).Left y := by
  simp [Left]

end Estate
