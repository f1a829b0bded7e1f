import Mathlib.Data.Int.Notation
import Mathlib.Data.Nat.Notation
import Mathlib.Tactic.ByContra
import Mathlib.Tactic.Push

namespace Sole

/-!
# The only index of a kind

Of the indices below `n`, `At P n i` says that `i` is the only one that satisfies `P`, and
`Answer P n r` that `r` is this index, or -1 when there is none or more than one.

A search that looks up each index in turn, and where a lookup fails sees what the one before
has left, sees `carried own failed stale` in place of `own`; `stale` is what is seen if the
first lookup fails.  `harmless_iff` says when its answer is right all the same.
-/

/-- Index `i` is the only one below `n` that satisfies `P`. -/
def At (P : ℕ → Prop) (n i : ℕ) : Prop := i < n ∧ P i ∧ ∀ j < n, P j → j = i

/-- The only index below `n` that satisfies `P`, or -1. -/
def Answer (P : ℕ → Prop) (n : ℕ) (r : ℤ) : Prop :=
  (∃ i, At P n i ∧ r = i) ∨ ((¬ ∃ i, At P n i) ∧ r = -1)

variable {P Q : ℕ → Prop} {n i : ℕ} {r s : ℤ}

theorem At.unique {j : ℕ} (hi : At P n i) (hj : At P n j) : i = j := hj.2.2 i hi.1 hi.2.1

/-- There is one answer. -/
theorem Answer.unique (hr : Answer P n r) (hs : Answer P n s) : r = s := by
  rcases hr with ⟨i, hi, rfl⟩ | ⟨hr, rfl⟩ <;> rcases hs with ⟨j, hj, rfl⟩ | ⟨hs, rfl⟩
  · rw [hi.unique hj]
  · exact absurd ⟨i, hi⟩ hs
  · exact absurd ⟨j, hj⟩ hr
  · rfl

/-- The answer is the same for two predicates that have the same only index. -/
theorem Answer.congr (h : ∀ i, At P n i ↔ At Q n i) (hr : Answer P n r) : Answer Q n r := by
  simpa only [Answer, h] using hr

/-- Two predicates with the same answer have the same only index. -/
theorem Answer.at_iff (hP : Answer P n r) (hQ : Answer Q n r) (i : ℕ) : At P n i ↔ At Q n i := by
  have hne : ∀ k : ℕ, (k : ℤ) ≠ -1 := by omega
  rcases hP with ⟨j, hj, rfl⟩ | ⟨hP, rfl⟩ <;> rcases hQ with ⟨k, hk, heq⟩ | ⟨hQ, heq⟩
  · obtain rfl : j = k := by omega
    exact ⟨fun hi => hi.unique hj ▸ hk, fun hi => hi.unique hk ▸ hj⟩
  · exact absurd heq (hne j)
  · exact absurd heq.symm (hne k)
  · exact ⟨fun hi => absurd ⟨i, hi⟩ hP, fun hi => absurd ⟨i, hi⟩ hQ⟩

/-! ### One index more -/

theorem at_succ_of_not (hn : ¬ P n) : At P (n + 1) i ↔ At P n i := by
  constructor
  · rintro ⟨hlt, hi, hsole⟩
    have hne : i ≠ n := fun heq => hn (heq ▸ hi)
    exact ⟨by omega, hi, fun j hj => hsole j (by omega)⟩
  · rintro ⟨hlt, hi, hsole⟩
    refine ⟨by omega, hi, fun j hj hPj => ?_⟩
    have hne : j ≠ n := fun heq => hn (heq ▸ hPj)
    exact hsole j (by omega) hPj

/-- An index that does not satisfy `P` changes nothing. -/
theorem answer_succ_of_not (hn : ¬ P n) : Answer P (n + 1) r ↔ Answer P n r := by
  simp only [Answer, at_succ_of_not hn]

/-- The first index that satisfies `P` is the answer. -/
theorem answer_succ_of_first (hn : P n) (hfirst : ∀ j < n, ¬ P j) : Answer P (n + 1) n := by
  refine .inl ⟨n, ⟨Nat.lt_succ_self n, hn, fun j hj hPj => ?_⟩, rfl⟩
  by_contra hne
  exact hfirst j (by omega) hPj

/-- A second one leaves none. -/
theorem answer_succ_of_second (hn : P n) {j : ℕ} (hj : j < n) (hPj : P j) :
    Answer P (n + 1) (-1) := by
  refine .inr ⟨?_, rfl⟩
  rintro ⟨i, -, -, hsole⟩
  have hji := hsole j (by omega) hPj
  have hni := hsole n (Nat.lt_succ_self n) hn
  omega

/-! ### Lookups that fail -/

/-- What is seen at an index: its own, or after a failed lookup what was seen before. -/
def carried (own failed : ℕ → Prop) (stale : Prop) : ℕ → Prop
  | 0 => own 0 ∨ (failed 0 ∧ stale)
  | i + 1 => own (i + 1) ∨ (failed (i + 1) ∧ carried own failed stale i)

/-- What is seen before index `i`. -/
def before (own failed : ℕ → Prop) (stale : Prop) : ℕ → Prop
  | 0 => stale
  | i + 1 => carried own failed stale i

variable {own failed : ℕ → Prop}

theorem carried_iff {stale : Prop} :
    carried own failed stale i ↔ own i ∨ (failed i ∧ before own failed stale i) := by
  cases i <;> exact Iff.rfl

theorem carried_of_own {stale : Prop} (h : own i) : carried own failed stale i :=
  carried_iff.mpr (.inl h)

/-- The failed lookups do no harm: two indices are of the kind; or one is, and neither the
    first lookup nor the one behind it fails; or none is, and the first lookup does not fail,
    or fails together with the second. -/
inductive Harmless (own failed : ℕ → Prop) (n : ℕ) : Prop where
  | two (i j : ℕ) (hi : i < n) (hj : j < n) (hne : i ≠ j) (howni : own i) (hownj : own j)
  | one (i : ℕ) (hown : At own n i) (hfirst : ¬ failed 0) (hnext : i + 1 < n → ¬ failed (i + 1))
  | none (hown : ∀ i < n, ¬ own i) (hfirst : n = 0 ∨ ¬ failed 0 ∨ (1 < n ∧ failed 1))

/-- With two of the kind there is no answer either way. -/
theorem not_at_carried_of_two {stale : Prop} {j k : ℕ} (hj : j < n) (hk : k < n) (hne : j ≠ k)
    (hownj : own j) (hownk : own k) : ¬ At (carried own failed stale) n i := by
  rintro ⟨-, -, hsole⟩
  have hji := hsole j hj (carried_of_own hownj)
  have hki := hsole k hk (carried_of_own hownk)
  exact hne (hji.trans hki.symm)

/-- When the first lookup does not fail, and none behind an index of the kind does, nothing is
    carried. -/
theorem carried_iff_own {stale : Prop} (hfirst : ¬ failed 0)
    (hnext : ∀ i, i + 1 < n → own i → ¬ failed (i + 1)) (hi : i < n) :
    carried own failed stale i ↔ own i := by
  induction i with
  | zero => simp [carried, hfirst]
  | succ i ih =>
    rw [carried, ih (by omega)]
    constructor
    · rintro (hown | ⟨hfailed, hown⟩)
      · exact hown
      · exact absurd hfailed (hnext i hi hown)
    · exact .inl

theorem at_congr (h : ∀ j < n, P j ↔ Q j) : At P n i ↔ At Q n i := by
  constructor
  · rintro ⟨hi, hP, hsole⟩
    exact ⟨hi, (h i hi).mp hP, fun j hj hQ => hsole j hj ((h j hj).mpr hQ)⟩
  · rintro ⟨hi, hQ, hsole⟩
    exact ⟨hi, (h i hi).mpr hQ, fun j hj hP => hsole j hj ((h j hj).mp hP)⟩

/-- Harmless failures do not show. -/
theorem Harmless.at_iff (h : Harmless own failed n) (stale : Prop) (i : ℕ) :
    At (carried own failed stale) n i ↔ At own n i := by
  cases h with
  | two j k hj hk hne hownj hownk =>
    refine iff_of_false (not_at_carried_of_two hj hk hne hownj hownk) ?_
    rintro ⟨-, -, hsole⟩
    exact hne ((hsole j hj hownj).trans (hsole k hk hownk).symm)
  | one m hm hfirst hnext =>
    have hnext' : ∀ j, j + 1 < n → own j → ¬ failed (j + 1) := by
      intro j hj hown
      obtain rfl := hm.2.2 j (by omega) hown
      exact hnext hj
    exact at_congr fun j hj => carried_iff_own hfirst hnext' hj
  | none hown hfirst =>
    have hnone : ¬ At own n i := fun hi => hown i hi.1 hi.2.1
    refine iff_of_false (fun hi => ?_) hnone
    rcases hfirst with rfl | hfirst | ⟨hone, hsecond⟩
    · exact absurd hi.1 (Nat.not_lt_zero i)
    · -- nothing is seen at all
      have hnext : ∀ j, j + 1 < n → own j → ¬ failed (j + 1) :=
        fun j hj hownj => absurd hownj (hown j (by omega))
      exact hown i hi.1 ((carried_iff_own hfirst hnext hi.1).mp hi.2.1)
    · -- whatever is seen first is seen twice
      have hzero : carried own failed stale 0 := by
        clear hnone
        obtain ⟨hlt, hseen, -⟩ := hi
        induction i with
        | zero => exact hseen
        | succ i ih =>
          rcases hseen with hown' | ⟨-, hseen⟩
          · exact absurd hown' (hown _ hlt)
          · exact ih (by omega) hseen
      have htwo : carried own failed stale 1 := .inr ⟨hsecond, hzero⟩
      have h0 := hi.2.2 0 (by omega) hzero
      have h1 := hi.2.2 1 hone htwo
      omega

/-- **Harmless failures.** Whatever was there before, the answer is right exactly when the
    failed lookups are harmless. -/
theorem harmless_iff (hdisjoint : ∀ i, own i → ¬ failed i) :
    (∀ stale : Prop, ∀ i, At (carried own failed stale) n i ↔ At own n i) ↔
      Harmless own failed n := by
  refine ⟨fun h => ?_, fun h stale i => h.at_iff stale i⟩
  by_cases hnone : ∀ i < n, ¬ own i
  · -- none of the kind: the first failed lookup must not stay the only one
    refine .none hnone ?_
    by_contra hbad
    push Not at hbad
    obtain ⟨hn, hfirst, hsecond⟩ := hbad
    have hsole : At (carried own failed True) n 0 := by
      refine ⟨by omega, .inr ⟨hfirst, trivial⟩, fun j hj hseen => ?_⟩
      induction j with
      | zero => rfl
      | succ j ih =>
        rcases hseen with hown | ⟨hfailed, hseen⟩
        · exact absurd hown (hnone _ hj)
        · obtain rfl := ih (by omega) hseen
          exact absurd hfailed (hsecond hj)
    exact hnone 0 (by omega) ((h True 0).mp hsole).2.1
  · push Not at hnone
    obtain ⟨m, hm, hown⟩ := hnone
    by_cases hsole : ∀ j < n, own j → j = m
    · -- one of the kind: it must be the only one seen
      have hat : At own n m := ⟨hm, hown, hsole⟩
      have hseen : ∀ stale, At (carried own failed stale) n m := fun stale => (h stale m).mpr hat
      refine .one m hat (fun hfirst => ?_) (fun hlt hnext => ?_)
      · have hm0 := (hseen True).2.2 0 (by omega) (.inr ⟨hfirst, trivial⟩)
        exact hdisjoint m hown (hm0 ▸ hfirst)
      · have hm1 := (hseen True).2.2 (m + 1) hlt (.inr ⟨hnext, carried_of_own hown⟩)
        omega
    · push Not at hsole
      obtain ⟨j, hj, hownj, hne⟩ := hsole
      exact .two j m hj hm hne hownj hown

end Sole
