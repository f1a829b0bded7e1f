import Mathlib.Data.List.Infix

namespace Runs

/-!
# Runs of a state machine

A machine takes one operation after the other.  In the first part every operation can be
taken in every state, in the second one `step` is `none` where it cannot.

* `run_invariant` — what every operation preserves holds after a run;
* `StepsHold` — a relation of states and operations holds at every step of a run,
  `StepsHold.invariant` — what such steps keep holds after the run;
* `exists_run_of_rank` — a goal can be reached when some operation always leads down;
* `invariant_iff` — when each step keeps an invariant, and does what it should, exactly under
  a condition on the step, a run does so exactly when all its steps meet the condition;
* `lockstep_iff` — the same for a relation between the states of two machines;
* `StepsMeet`, `StepsMeet.invariant` — the same in one direction, for the second kind;
* `tryRun_invariant` — what every operation that can be taken preserves;
* `simulated_iff` — a machine of the second kind that follows one of the first kind can take a run
  exactly when the other one meets a condition at all its steps;
* `tryRun_keeps` — operations that can be taken whenever an invariant holds can be taken one
  after the other.
-/

section Total

variable {State Op : Type*} (step : State → Op → State)

/-- The state after some operations. -/
def run (s : State) (ops : List Op) : State := ops.foldl step s

/-- `P` holds of every operation of a run and the state in which it is taken. -/
def StepsHold (P : State → Op → Prop) (s : State) (ops : List Op) : Prop :=
  ∀ before op, before ++ [op] <+: ops → P (run step s before) op

@[simp] theorem run_nil (s : State) : run step s [] = s := rfl

@[simp] theorem run_cons (s : State) (op : Op) (ops : List Op) :
    run step s (op :: ops) = run step (step s op) ops := rfl

theorem stepsHold_nil (P : State → Op → Prop) (s : State) : StepsHold step P s [] := by
  intro before op hprefix
  have hempty := List.prefix_nil.mp hprefix
  simp at hempty

theorem stepsHold_cons (P : State → Op → Prop) (s : State) (op : Op) (ops : List Op) :
    StepsHold step P s (op :: ops) ↔ P s op ∧ StepsHold step P (step s op) ops := by
  constructor
  · intro h
    refine ⟨h [] op (by simp), fun before last hprefix => ?_⟩
    apply h (op :: before) last
    rw [List.cons_append]
    exact (List.prefix_cons_inj op).mpr hprefix
  · rintro ⟨hfirst, hrest⟩ before last hprefix
    cases before with
    | nil =>
      obtain ⟨rfl, -⟩ := List.cons_prefix_cons.mp hprefix
      exact hfirst
    | cons first before =>
      obtain ⟨rfl, htail⟩ := List.cons_prefix_cons.mp hprefix
      exact hrest before last htail

/-- All states of a run, told from the first one and those of the rest. -/
theorem forall_prefix_cons (Inv : State → Prop) (s : State) (op : Op) (ops : List Op) :
    (∀ before, before <+: op :: ops → Inv (run step s before)) ↔
      Inv s ∧ ∀ before, before <+: ops → Inv (run step (step s op) before) := by
  constructor
  · intro h
    exact ⟨h [] List.nil_prefix,
      fun before hprefix => h (op :: before) ((List.prefix_cons_inj op).mpr hprefix)⟩
  · rintro ⟨hfirst, hrest⟩ before hprefix
    cases before with
    | nil => exact hfirst
    | cons first before =>
      obtain ⟨rfl, htail⟩ := List.cons_prefix_cons.mp hprefix
      exact hrest before htail

theorem run_append (s : State) (ops ops' : List Op) :
    run step s (ops ++ ops') = run step (run step s ops) ops' := List.foldl_append

/-- What every operation preserves holds after a run. -/
theorem run_invariant {step : State → Op → State} {Inv : State → Prop}
    (hstep : ∀ s op, Inv s → Inv (step s op)) {s : State} (h : Inv s) (ops : List Op) :
    Inv (run step s ops) := by
  induction ops generalizing s with
  | nil => exact h
  | cons op ops ih => exact ih (hstep s op h)

/-- **Progress.** Where an invariant holds, and a goal does not, some operation keeps the invariant
    and leads down in a well-founded order: then some run leads to the goal. -/
theorem exists_run_of_rank {step : State → Op → State} {α : Type*} {r : α → α → Prop}
    (hwf : WellFounded r) (rank : State → α) {Inv Goal : State → Prop}
    (hstep : ∀ s, Inv s → ¬ Goal s → ∃ op, Inv (step s op) ∧ r (rank (step s op)) (rank s))
    {s : State} (h : Inv s) : ∃ ops, Goal (run step s ops) := by
  induction hrank : rank s using hwf.induction generalizing s with
  | _ a ih =>
    by_cases hgoal : Goal s
    · exact ⟨[], hgoal⟩
    · obtain ⟨op, hnext, hless⟩ := hstep s h hgoal
      obtain ⟨ops, hops⟩ := ih _ (hrank ▸ hless) hnext rfl
      exact ⟨op :: ops, hops⟩

/-- **Invariant rule.** From a state that meets the invariant, it holds in every state of a
    run, and `Post` of every step, exactly when every step meets the condition `Good`. -/
theorem invariant_iff {Inv : State → Prop} {Post Good : State → Op → Prop}
    (hstep : ∀ s op, Inv s → (Inv (step s op) ∧ Post s op ↔ Good s op))
    {s : State} (h : Inv s) (ops : List Op) :
    ((∀ before, before <+: ops → Inv (run step s before)) ∧ StepsHold step Post s ops) ↔
      StepsHold step Good s ops := by
  induction ops generalizing s with
  | nil =>
    have hstates : ∀ before, before <+: [] → Inv (run step s before) := by
      intro before hprefix
      rw [List.prefix_nil.mp hprefix]
      exact h
    exact iff_of_true ⟨hstates, stepsHold_nil step Post s⟩ (stepsHold_nil step Good s)
  | cons op ops ih =>
    rw [forall_prefix_cons, stepsHold_cons, stepsHold_cons]
    constructor
    · rintro ⟨⟨-, hinv⟩, hpost, hposts⟩
      have hnext : Inv (step s op) := hinv [] List.nil_prefix
      exact ⟨(hstep s op h).mp ⟨hnext, hpost⟩, (ih hnext).mp ⟨hinv, hposts⟩⟩
    · rintro ⟨hgood, hgoods⟩
      obtain ⟨hnext, hpost⟩ := (hstep s op h).mpr hgood
      obtain ⟨hinv, hposts⟩ := (ih hnext).mpr hgoods
      exact ⟨⟨h, hinv⟩, hpost, hposts⟩

/-- **Lockstep rule.** When one step of two machines keeps a relation exactly under a condition,
    the relation holds throughout a run exactly when all steps meet the condition. -/
theorem lockstep_iff {State' : Type*} {step' : State' → Op → State'} {R : State → State' → Prop}
    {Good : State → Op → Prop}
    (hstep : ∀ s s' op, R s s' → (R (step s op) (step' s' op) ↔ Good s op))
    {s : State} {s' : State'} (h : R s s') (ops : List Op) :
    (∀ before, before <+: ops → R (run step s before) (run step' s' before)) ↔
      StepsHold step Good s ops := by
  induction ops generalizing s s' with
  | nil =>
    refine iff_of_true (fun before hprefix => ?_) (stepsHold_nil step Good s)
    rw [List.prefix_nil.mp hprefix]
    exact h
  | cons op ops ih =>
    rw [stepsHold_cons]
    constructor
    · intro hall
      have hgood : Good s op := (hstep s s' op h).mp (hall [op] (by simp))
      have hnext := (hstep s s' op h).mpr hgood
      refine ⟨hgood, (ih hnext).mp fun before hprefix => ?_⟩
      exact hall (op :: before) ((List.prefix_cons_inj op).mpr hprefix)
    · rintro ⟨hgood, hgoods⟩ before hprefix
      cases before with
      | nil => exact h
      | cons first before =>
        obtain ⟨rfl, htail⟩ := List.cons_prefix_cons.mp hprefix
        exact (ih ((hstep s s' first h).mpr hgood)).mpr hgoods before htail

/-- An invariant that good steps keep holds after a run of good steps. -/
theorem StepsHold.invariant {step : State → Op → State} {Inv : State → Prop}
    {Good : State → Op → Prop} (hgood : ∀ s op, Inv s → Good s op → Inv (step s op)) {s : State}
    (h : Inv s) {ops : List Op} (hops : StepsHold step Good s ops) : Inv (run step s ops) := by
  induction ops generalizing s with
  | nil => exact h
  | cons op ops ih =>
    obtain ⟨hop, hrest⟩ := (stepsHold_cons step Good s op ops).mp hops
    exact ih (hgood s op h hop) hrest

end Total

section Guarded

variable {State Op : Type*} (step : State → Op → Option State)

/-- The state after some operations, `none` when one of them cannot be taken. -/
def tryRun (s : State) : List Op → Option State
  | [] => some s
  | op :: ops => (step s op).bind fun s' => tryRun s' ops

/-- Every operation that a run takes is taken in a state that meets `Good`. -/
def StepsMeet (Good : State → Op → Prop) (s : State) : List Op → Prop
  | [] => True
  | op :: ops => ∀ s' ∈ step s op, Good s op ∧ StepsMeet Good s' ops

instance decidableStepsMeet (Good : State → Op → Prop) [∀ s op, Decidable (Good s op)] (s : State)
    (ops : List Op) : Decidable (StepsMeet step Good s ops) :=
  match ops with
  | [] => inferInstanceAs (Decidable True)
  | op :: ops =>
    have : ∀ s', Decidable (StepsMeet step Good s' ops) :=
      fun s' => decidableStepsMeet Good s' ops
    inferInstanceAs (Decidable (∀ s' ∈ step s op, Good s op ∧ StepsMeet step Good s' ops))

variable {step} {Inv : State → Prop} {Good Good' : State → Op → Prop} {s s' : State}

/-- **Invariant rule.** An invariant that good steps keep holds at the end of a run of good
    steps. -/
theorem StepsMeet.invariant
    (hstep : ∀ s op s', Inv s → Good s op → step s op = some s' → Inv s')
    (h : Inv s) {ops : List Op} (hgood : StepsMeet step Good s ops)
    (hrun : tryRun step s ops = some s') : Inv s' := by
  induction ops generalizing s with
  | nil =>
    cases hrun
    exact h
  | cons op ops ih =>
    obtain ⟨s₁, hs₁, hrest⟩ := Option.bind_eq_some_iff.mp hrun
    obtain ⟨hfirst, hothers⟩ := hgood s₁ hs₁
    exact ih (hstep s op s₁ h hfirst hs₁) hothers hrest

/-- A condition that follows from another one under an invariant. -/
theorem StepsMeet.mono
    (hstep : ∀ s op s', Inv s → Good s op → step s op = some s' → Good' s op ∧ Inv s')
    (h : Inv s) {ops : List Op} (hgood : StepsMeet step Good s ops) :
    StepsMeet step Good' s ops := by
  induction ops generalizing s with
  | nil => trivial
  | cons op ops ih =>
    intro s₁ hs₁
    obtain ⟨hfirst, hothers⟩ := hgood s₁ hs₁
    obtain ⟨hgood', hnext⟩ := hstep s op s₁ h hfirst hs₁
    exact ⟨hgood', ih hnext hothers⟩

/-- What every operation that can be taken preserves holds after a run. -/
theorem tryRun_invariant {Inv : State → Prop}
    (hstep : ∀ s op s', Inv s → step s op = some s' → Inv s') (h : Inv s) {ops : List Op}
    (hrun : tryRun step s ops = some s') : Inv s' := by
  induction ops generalizing s with
  | nil => exact Option.some.inj hrun ▸ h
  | cons op ops ih =>
    obtain ⟨s₁, hs₁, hrest⟩ := Option.bind_eq_some_iff.mp hrun
    exact ih (hstep s op s₁ h hs₁) hrest

/-- **Simulation rule.** A machine follows a simpler one, which takes every operation, and where
    it cannot take an operation the simpler one does not meet `Good`. -/
theorem simulated_iff {Abs : Type*} {next : Abs → Op → Abs} {R : State → Abs → Prop}
    {Ok : Op → Prop} {Good : Abs → Op → Prop}
    (hgood : ∀ s a op, R s a → Ok op → Good a op → ∃ s', step s op = some s' ∧ R s' (next a op))
    (hbad : ∀ s a op, R s a → Ok op → ¬ Good a op → step s op = none)
    {a : Abs} (h : R s a) {ops : List Op} (hok : ∀ op ∈ ops, Ok op) :
    ((∃ s', tryRun step s ops = some s') ↔ StepsHold next Good a ops) ∧
      ∀ s', tryRun step s ops = some s' → R s' (run next a ops) := by
  induction ops generalizing s a with
  | nil =>
    refine ⟨iff_of_true ⟨s, rfl⟩ (stepsHold_nil next Good a), fun s' hs' => ?_⟩
    obtain rfl := Option.some.inj hs'
    exact h
  | cons op ops ih =>
    rw [List.forall_mem_cons] at hok
    rw [stepsHold_cons, tryRun]
    by_cases hop : Good a op
    · obtain ⟨s₁, hs₁, hR⟩ := hgood s a op h hok.1 hop
      rw [hs₁]
      obtain ⟨hiff, hend⟩ := ih hR hok.2
      exact ⟨hiff.trans (and_iff_right hop).symm, hend⟩
    · rw [hbad s a op h hok.1 hop]
      exact ⟨iff_of_false nofun fun hall => hop hall.1, nofun⟩

/-- **Progress rule.** The invariant tells of the operations taken so far; where it holds, the
    next one can be taken and keeps it. -/
theorem tryRun_keeps {Ok : Op → Prop} {Inv : List Op → State → Prop}
    (hstep : ∀ before s op, Inv before s → Ok op →
      ∃ s', step s op = some s' ∧ Inv (before ++ [op]) s')
    (h : Inv [] s) {ops : List Op} (hok : ∀ op ∈ ops, Ok op) :
    ∃ s', tryRun step s ops = some s' ∧ Inv ops s' := by
  have hall : ∀ before s, Inv before s → ∃ s', tryRun step s ops = some s' ∧
      Inv (before ++ ops) s' := by
    clear h
    induction ops with
    | nil => exact fun before s h => ⟨s, rfl, by rwa [List.append_nil]⟩
    | cons op ops ih =>
      intro before s h
      rw [List.forall_mem_cons] at hok
      obtain ⟨s₁, hs₁, hnext⟩ := hstep before s op h hok.1
      obtain ⟨s', hrun, hend⟩ := ih hok.2 (before ++ [op]) s₁ hnext
      refine ⟨s', ?_, ?_⟩
      · rw [tryRun, hs₁]
        exact hrun
      · rwa [List.append_assoc] at hend
  exact hall [] s h

end Guarded

end Runs
