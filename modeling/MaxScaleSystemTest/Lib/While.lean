import Mathlib.Data.Nat.Notation
import Mathlib.Tactic.TypeStar

namespace While

/-!
# While loops

`loop guard body fuel s` runs `while guard s do s := body s`, with at most `fuel` checks of
the guard; `none` stands for a loop that is not over by then.

* `loop_of_measure` — a measure that every round decreases bounds the checks needed;
* `loop_invariant` — what every round preserves holds at the end;
* `guard_of_loop` — the guard is false at the end.

`count body n s` runs `body` for 0, 1 and so on below `n`; a round may have no result.

* `count_keeps` — rounds that keep an invariant, which tells of their number, all have one;
* `count_eq_none` — a round that has none ends the loop.
-/

variable {S : Type*}

/-- Run a while loop with at most `fuel` checks of its guard. -/
def loop (guard : S → Bool) (body : S → S) : (fuel : ℕ) → S → Option S
  | 0, _ => none
  | fuel + 1, s => if guard s then loop guard body fuel (body s) else some s

variable {guard : S → Bool} {body : S → S}

theorem loop_of_guard {s : S} (h : guard s) (fuel : ℕ) :
    loop guard body (fuel + 1) s = loop guard body fuel (body s) := by
  rw [loop, if_pos h]

theorem loop_of_not_guard {s : S} (h : ¬ guard s) (fuel : ℕ) :
    loop guard body (fuel + 1) s = some s := by
  rw [loop, if_neg h]

/-- **Termination.** When every round decreases a measure, the loop ends with one check more
    than its first value. -/
theorem loop_of_measure (measure : S → ℕ) (hstep : ∀ s, guard s → measure (body s) < measure s)
    {fuel : ℕ} {s : S} (hfuel : measure s < fuel) : ∃ s', loop guard body fuel s = some s' := by
  induction fuel generalizing s with
  | zero => exact absurd hfuel (Nat.not_lt_zero _)
  | succ fuel ih =>
    by_cases hguard : guard s
    · have hless : measure (body s) < fuel :=
        Nat.lt_of_lt_of_le (hstep s hguard) (Nat.le_of_lt_succ hfuel)
      rw [loop_of_guard hguard]
      exact ih hless
    · exact ⟨s, loop_of_not_guard hguard fuel⟩

/-- **Invariance.** What holds at the start and is preserved by every round holds at the
    end. -/
theorem loop_invariant (P : S → Prop) (hstep : ∀ s, guard s → P s → P (body s)) {fuel : ℕ}
    {s s' : S} (h : loop guard body fuel s = some s') (hs : P s) : P s' := by
  induction fuel generalizing s with
  | zero => cases h
  | succ fuel ih =>
    by_cases hguard : guard s
    · rw [loop_of_guard hguard] at h
      exact ih h (hstep s hguard hs)
    · rw [loop_of_not_guard hguard] at h
      cases h
      exact hs

/-- **Exit.** The guard is false at the end. -/
theorem guard_of_loop {fuel : ℕ} {s s' : S} (h : loop guard body fuel s = some s') :
    ¬ guard s' := by
  induction fuel generalizing s with
  | zero => cases h
  | succ fuel ih =>
    by_cases hguard : guard s
    · rw [loop_of_guard hguard] at h
      exact ih h
    · rw [loop_of_not_guard hguard] at h
      cases h
      exact hguard

/-! ### Counted loops -/

/-- `for (k = 0; k < n; k++)`. -/
def count (body : ℕ → S → Option S) : (n : ℕ) → S → Option S
  | 0, s => some s
  | n + 1, s => (count body n s).bind (body n)

/-- **Invariance.** -/
theorem count_keeps {body : ℕ → S → Option S} {Inv : ℕ → S → Prop} {n : ℕ}
    (hstep : ∀ k < n, ∀ s, Inv k s → ∃ s', body k s = some s' ∧ Inv (k + 1) s') {s : S}
    (h : Inv 0 s) : ∃ s', count body n s = some s' ∧ Inv n s' := by
  induction n with
  | zero => exact ⟨s, rfl, h⟩
  | succ n ih =>
    obtain ⟨s₁, hrun, hn⟩ := ih fun k hk => hstep k (Nat.lt_succ_of_lt hk)
    obtain ⟨s', hs', hnext⟩ := hstep n (Nat.lt_succ_self n) s₁ hn
    refine ⟨s', ?_, hnext⟩
    rw [count, hrun]
    exact hs'

theorem count_inv {body : ℕ → S → Option S} (P : S → Prop)
    (hkeep : ∀ k s s', P s → body k s = some s' → P s') {n : ℕ} {s s' : S} (h : P s)
    (hrun : count body n s = some s') : P s' := by
  induction n generalizing s' with
  | zero =>
    cases hrun
    exact h
  | succ n ih =>
    obtain ⟨s₁, hs₁, hlast⟩ := Option.bind_eq_some_iff.mp hrun
    exact hkeep n s₁ s' (ih hs₁) hlast

/-- **No result.** A round that has none where the invariant holds. -/
theorem count_eq_none {body : ℕ → S → Option S} (P : S → Prop)
    (hkeep : ∀ k s s', P s → body k s = some s' → P s') {k n : ℕ} (hk : k < n)
    (hbody : ∀ s, P s → body k s = none) {s : S} (h : P s) : count body n s = none := by
  induction n with
  | zero => exact absurd hk (Nat.not_lt_zero k)
  | succ n ih =>
    rw [count]
    by_cases hn : k = n
    · cases hrun : count body n s with
      | none => rfl
      | some s' => exact hn ▸ hbody s' (count_inv P hkeep h hrun)
    · rw [ih (by omega)]
      rfl

end While
