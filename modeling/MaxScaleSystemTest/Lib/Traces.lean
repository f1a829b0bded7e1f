import MaxScaleSystemTest.Lib.Runs

namespace Traces

open Runs

/-!
# Traces whose events have to be allowed

A machine writes a trace of what it does.  Whether an event is allowed depends on the events in
front of it.

* `Guarded` — every event is allowed where it stands;
* `guarded_run` — the rule for a machine that keeps an invariant and adds one event in a step, or
  none.
-/

variable {Event : Type*} (Allowed : List Event → Event → Prop)

/-- Every event is allowed by those in front of it. -/
def Guarded (trace : List Event) : Prop :=
  ∀ before e after, trace = before ++ e :: after → Allowed before e

theorem guarded_nil : Guarded Allowed [] := by
  intro before e after h
  simp at h

variable {Allowed}

/-- One more event. -/
theorem Guarded.concat {trace : List Event} (h : Guarded Allowed trace) {e : Event}
    (he : Allowed trace e) : Guarded Allowed (trace ++ [e]) := by
  intro before e' after hsplit
  rcases List.eq_nil_or_concat after with rfl | ⟨front, last, rfl⟩
  · obtain ⟨rfl, hlast⟩ := List.append_inj' hsplit rfl
    obtain rfl := (List.cons.inj hlast).1
    exact he
  · rw [List.concat_eq_append, ← List.cons_append, ← List.append_assoc] at hsplit
    obtain ⟨rfl, -⟩ := List.append_inj' hsplit rfl
    exact h before e' front rfl

/-- **Trace rule.** Where every step keeps an invariant, and adds nothing to the trace or an event
    that it allows, the trace of a run is guarded. -/
theorem guarded_run {State Op : Type*} {step : State → Op → State} {trace : State → List Event}
    {Inv : State → Prop} (hinv : ∀ s op, Inv s → Inv (step s op))
    (hstep : ∀ s op, Inv s → trace (step s op) = trace s ∨
      ∃ e, trace (step s op) = trace s ++ [e] ∧ Allowed (trace s) e)
    {s : State} (h : Inv s) (htrace : Guarded Allowed (trace s)) (ops : List Op) :
    Guarded Allowed (trace (run step s ops)) := by
  have hboth : ∀ s op, Inv s ∧ Guarded Allowed (trace s) →
      Inv (step s op) ∧ Guarded Allowed (trace (step s op)) := by
    rintro s op ⟨hs, hguarded⟩
    refine ⟨hinv s op hs, ?_⟩
    rcases hstep s op hs with hsame | ⟨e, hmore, he⟩
    · rw [hsame]
      exact hguarded
    · rw [hmore]
      exact hguarded.concat he
  exact (run_invariant hboth ⟨h, htrace⟩ ops).2

end Traces
