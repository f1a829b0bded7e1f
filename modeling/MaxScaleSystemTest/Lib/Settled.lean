import Mathlib.Data.List.Forall2
import Mathlib.Data.Option.Basic

namespace Settled

/-!
# Checks that rest on undefined values

A check runs under some choice `e` of what its language leaves undefined, and fails to answer
(`none`) where that choice makes it fault.  One choice, `worst`, makes every use of something
undefined a fault.  A check is settled when it is known which of its inputs keep it clear of
anything undefined, and what it then decides.

* `Settles.answers_iff` — when a settled check answers rightly under every choice;
* `Settles.andThen` — a check that is made only if an earlier one came out well;
* `mapM_of_forall`, `mapM_of_mem` — a list of runs, all of which answer or one of which faults.
-/

variable {ε α β : Type*} {worst : ε}

/-- Where `clean` holds, `run` decides `pass` under every choice, and elsewhere the worst choice
    makes it fault.  `good` says which results mean that the check came out well. -/
structure Settles (worst : ε) (run : ε → Option α) (good : α → Prop) (clean pass : Prop) :
    Prop where
  answers : clean → ∀ e, ∃ a, run e = some a ∧ (good a ↔ pass)
  faults : ¬ clean → run worst = none

/-- A check that uses nothing undefined. -/
theorem Settles.pure (worst : ε) (a : α) (good : α → Prop) :
    Settles worst (fun _ => some a) good True (good a) where
  answers _ _ := ⟨a, rfl, Iff.rfl⟩
  faults h := absurd trivial h

/-- The conditions of a settled check may be put another way. -/
theorem Settles.congr {run : ε → Option α} {good : α → Prop} {clean pass clean' pass' : Prop}
    (h : Settles worst run good clean pass) (hclean : clean ↔ clean') (hpass : pass ↔ pass') :
    Settles worst run good clean' pass' := by
  rw [← hclean, ← hpass]
  exact h

/-- **Right answers.** A settled check decides `Q` under every choice exactly if it is clean and
    what it decides is `Q`. -/
theorem Settles.answers_iff {run : ε → Option α} {good : α → Prop} {clean pass : Prop}
    (h : Settles worst run good clean pass) (Q : Prop) :
    (∀ e, ∃ a, run e = some a ∧ (good a ↔ Q)) ↔ clean ∧ (pass ↔ Q) := by
  constructor
  · intro hright
    obtain ⟨a, hrun, hQ⟩ := hright worst
    have hclean : clean := by
      by_contra hclean
      rw [h.faults hclean] at hrun
      cases hrun
    -- the worst choice has one answer, which is the one of the clean run
    obtain ⟨b, hrun', hpass⟩ := h.answers hclean worst
    rw [hrun, Option.some.injEq] at hrun'
    subst hrun'
    exact ⟨hclean, hpass.symm.trans hQ⟩
  · rintro ⟨hclean, hQ⟩ e
    obtain ⟨a, hrun, hpass⟩ := h.answers hclean e
    exact ⟨a, hrun, hpass.trans hQ⟩

/-- **Sequence.** The second check is made only if the first came out well, and must be clean
    only then. -/
theorem Settles.andThen {first : ε → Option α} {second run : ε → Option β} {good₁ : α → Prop}
    [DecidablePred good₁] {good₂ : β → Prop} {b : β} {clean₁ pass₁ clean₂ pass₂ : Prop}
    (h₁ : Settles worst first good₁ clean₁ pass₁)
    (h₂ : Settles worst second good₂ clean₂ pass₂) (hb : ¬ good₂ b)
    (hrun : ∀ e, run e = (first e).bind fun a => if good₁ a then second e else some b) :
    Settles worst run good₂ (clean₁ ∧ (pass₁ → clean₂)) (pass₁ ∧ pass₂) where
  answers := by
    rintro ⟨hclean₁, hclean₂⟩ e
    obtain ⟨a, hfirst, hpass⟩ := h₁.answers hclean₁ e
    rw [hrun, hfirst, Option.bind_some]
    by_cases ha : good₁ a
    · obtain ⟨c, hsecond, hc⟩ := h₂.answers (hclean₂ (hpass.mp ha)) e
      rw [if_pos ha]
      exact ⟨c, hsecond, hc.trans (and_iff_right (hpass.mp ha)).symm⟩
    · rw [if_neg ha]
      exact ⟨b, rfl, iff_of_false hb fun hp => ha (hpass.mpr hp.1)⟩
  faults := by
    intro hunclean
    rw [hrun]
    by_cases hclean₁ : clean₁
    · obtain ⟨a, hfirst, hpass⟩ := h₁.answers hclean₁ worst
      obtain ⟨hp, hclean₂⟩ : pass₁ ∧ ¬ clean₂ := by
        simpa [hclean₁] using hunclean
      rw [hfirst, Option.bind_some, if_pos (hpass.mpr hp)]
      exact h₂.faults hclean₂
    · rw [h₁.faults hclean₁]
      rfl

/-! ### Lists of runs -/

section

variable {f : α → Option β} {xs : List α}

/-- If every run answers, so does the list. -/
theorem mapM_of_forall {g : α → β} (h : ∀ x ∈ xs, f x = some (g x)) :
    xs.mapM f = some (xs.map g) := by
  induction xs with
  | nil => rfl
  | cons x xs ih =>
    obtain ⟨hx, hxs⟩ := List.forall_mem_cons.mp h
    rw [List.mapM_cons, hx, ih hxs]
    rfl

/-- One run that faults is enough. -/
theorem mapM_of_mem {x : α} (hx : x ∈ xs) (h : f x = none) : xs.mapM f = none := by
  induction xs with
  | nil => cases hx
  | cons y ys ih =>
    rw [List.mapM_cons]
    rcases List.mem_cons.mp hx with rfl | hmem
    · rw [h]
      rfl
    · rw [ih hmem]
      cases f y <;> rfl

/-- A list of runs answers exactly if every one of them does. -/
theorem exists_mapM_iff : (∃ ys, xs.mapM f = some ys) ↔ ∀ x ∈ xs, (f x).isSome := by
  refine ⟨fun ⟨ys, hys⟩ x hx => ?_, fun h => ?_⟩
  · by_contra hnone
    rw [mapM_of_mem hx (Option.not_isSome_iff_eq_none.mp hnone)] at hys
    cases hys
  · induction xs with
    | nil => exact ⟨[], rfl⟩
    | cons x xs ih =>
      obtain ⟨hx, hxs⟩ := List.forall_mem_cons.mp h
      obtain ⟨y, hy⟩ := Option.isSome_iff_exists.mp hx
      obtain ⟨ys, hys⟩ := ih hxs
      exact ⟨y :: ys, by rw [List.mapM_cons, hy, hys]; rfl⟩

/-- The answers belong to the runs, one to one. -/
theorem mapM_eq_some_iff {ys : List β} :
    xs.mapM f = some ys ↔ List.Forall₂ (fun x y => f x = some y) xs ys := by
  induction xs generalizing ys with
  | nil => simp [eq_comm]
  | cons x xs ih =>
    rw [List.mapM_cons, List.forall₂_cons_left_iff]
    simp only [Option.bind_eq_bind, Option.bind_eq_some_iff, ih]
    constructor
    · rintro ⟨y, hy, ys, hys, ⟨⟩⟩
      exact ⟨y, ys, hy, hys, rfl⟩
    · rintro ⟨y, ys, hy, hys, rfl⟩
      exact ⟨y, hy, ys, hys, rfl⟩

theorem exists_of_mem_answers {ys : List β} (h : xs.mapM f = some ys) {y : β} (hy : y ∈ ys) :
    ∃ x ∈ xs, f x = some y := by
  induction mapM_eq_some_iff.mp h with
  | nil => cases hy
  | cons hxy hrest ih =>
    rcases List.mem_cons.mp hy with rfl | hy
    · exact ⟨_, List.mem_cons_self, hxy⟩
    · obtain ⟨x, hx, hfx⟩ := ih (mapM_eq_some_iff.mpr hrest) hy
      exact ⟨x, List.mem_cons_of_mem _ hx, hfx⟩

end

end Settled
