import Mathlib.Data.List.Basic

namespace Ledger

/-!
# Ledgers of resources

A trace of acquisitions and releases keeps its books in order when only what is held is
released.  `held` is what a trace leaves held, `none` when it has released something that
it did not hold.
-/

/-- To acquire or to release a resource. -/
inductive Action (α : Type*) where
  | acquire (x : α)
  | release (x : α)
  deriving DecidableEq

variable {α : Type*} [DecidableEq α]

/-- What is held after one action. -/
def step (held : List α) : Action α → Option (List α)
  | .acquire x => some (x :: held)
  | .release x => if x ∈ held then some (held.erase x) else none

/-- What is held after a trace that starts with `held`. -/
def after (held : List α) : List (Action α) → Option (List α)
  | [] => some held
  | a :: trace => (step held a).bind fun held' => after held' trace

/-- What a trace leaves held. -/
def held (trace : List (Action α)) : Option (List α) := after [] trace

theorem after_append (l : List α) (t₁ t₂ : List (Action α)) :
    after l (t₁ ++ t₂) = (after l t₁).bind fun l' => after l' t₂ := by
  induction t₁ generalizing l with
  | nil => rfl
  | cons a t₁ ih =>
    show (step l a).bind _ = ((step l a).bind _).bind _
    cases step l a with
    | none => rfl
    | some l' => exact ih l'

/-- One more action. -/
theorem held_concat {trace : List (Action α)} {l : List α} (h : held trace = some l)
    (a : Action α) : held (trace ++ [a]) = step l a := by
  have hstep : after l [a] = step l a := by
    show (step l a).bind (fun l' => some l') = step l a
    cases step l a <;> rfl
  rw [held, after_append, show after [] trace = some l from h]
  exact hstep

theorem step_release {l : List α} {x : α} (h : x ∈ l) :
    step l (.release x) = some (l.erase x) := if_pos h

end Ledger
