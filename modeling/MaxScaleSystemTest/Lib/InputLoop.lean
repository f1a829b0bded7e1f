import Mathlib.Data.List.Induction
import Mathlib.Order.Bounds.Basic
import Mathlib.Order.Nat

namespace InputLoop

/-!
# Loops driven by their environment

A loop whose every turn waits for one answer from outside (a reply of a server, the
result of a system call): `body s x` is what a turn does in state `s` when the answer
is `x`, either going round again (`.inl`) or leaving the loop (`.inr`).

* `run` feeds a list of answers to the loop.  A list that runs out leaves the loop
  `running`, so a finite list stands for what has been answered so far.
* `run_eq_ended_iff` and `running_history` are the inversion and the induction rule.
* `run_ended_iff_first` is the rule for loops whose exit is decided by a predicate on the
  answers: they end at the first answer that satisfies it.
* `StopsAt` reads the same on an infinite sequence of answers.
-/

variable {σ ι α : Type*}

/-- Where a loop stands after some answers: still running in a state, or ended with a
    result and the answers it has not taken. -/
inductive Status (σ ι α : Type*) where
  | running (s : σ)
  | ended (a : α) (rest : List ι)

variable (body : σ → ι → σ ⊕ α)

/-- Feed a list of answers to the loop. -/
def run : σ → List ι → Status σ ι α
  | s, [] => .running s
  | s, x :: xs =>
    match body s x with
    | .inl s' => run s' xs
    | .inr a => .ended a xs

@[simp] theorem run_nil (s : σ) : run body s [] = .running s := rfl

variable {body}

theorem run_cons_inl {s s' : σ} {x : ι} (h : body s x = .inl s') (xs : List ι) :
    run body s (x :: xs) = run body s' xs := by
  simp only [run, h]

theorem run_cons_inr {s : σ} {a : α} {x : ι} (h : body s x = .inr a) (xs : List ι) :
    run body s (x :: xs) = .ended a xs := by
  simp only [run, h]

/-- Answers that leave the loop running can be fed first. -/
theorem run_append_of_running {s s' : σ} {xs : List ι} (h : run body s xs = .running s')
    (ys : List ι) : run body s (xs ++ ys) = run body s' ys := by
  induction xs generalizing s with
  | nil =>
    cases h
    rfl
  | cons x xs ih =>
    rw [List.cons_append]
    cases hb : body s x with
    | inl t =>
      rw [run_cons_inl hb] at h ⊢
      exact ih h
    | inr a =>
      rw [run_cons_inr hb] at h
      cases h

/-- A loop that is running after some answers was running after every initial part of
    them. -/
theorem running_of_append {s s' : σ} {xs ys : List ι}
    (h : run body s (xs ++ ys) = .running s') :
    ∃ t, run body s xs = .running t ∧ run body t ys = .running s' := by
  induction xs generalizing s with
  | nil => exact ⟨s, rfl, h⟩
  | cons x xs ih =>
    rw [List.cons_append] at h
    cases hb : body s x with
    | inl t =>
      rw [run_cons_inl hb] at h ⊢
      exact ih h
    | inr a =>
      rw [run_cons_inr hb] at h
      cases h

/-- **Inversion.** A loop that has ended took some answers without leaving and left at the
    next one. -/
theorem run_eq_ended_iff {s : σ} {a : α} {xs rest : List ι} :
    run body s xs = .ended a rest ↔
      ∃ taken x s', xs = taken ++ x :: rest ∧ run body s taken = .running s' ∧
        body s' x = .inr a := by
  constructor
  · intro h
    induction xs generalizing s with
    | nil => cases h
    | cons x xs ih =>
      cases hb : body s x with
      | inl t =>
        -- the loop goes on, and ends at a later answer
        rw [run_cons_inl hb] at h
        obtain ⟨taken, y, s', rfl, hrun, hy⟩ := ih h
        exact ⟨x :: taken, y, s', rfl, by rw [run_cons_inl hb, hrun], hy⟩
      | inr b =>
        rw [run_cons_inr hb] at h
        cases h
        exact ⟨[], x, s, rfl, rfl, hb⟩
  · rintro ⟨taken, x, s', rfl, hrun, hx⟩
    rw [run_append_of_running hrun, run_cons_inr hx]

/-- **Run induction.** A relation between the answers taken and the state, true at the
    start and kept by every turn that goes round, holds while the loop is running. -/
theorem running_history {J : List ι → σ → Prop} {s s' : σ} {xs : List ι}
    (hinit : J [] s)
    (hstep : ∀ taken t x t', J taken t → body t x = .inl t' → J (taken ++ [x]) t')
    (h : run body s xs = .running s') : J xs s' := by
  induction xs using List.reverseRecOn generalizing s' with
  | nil =>
    cases h
    exact hinit
  | append_singleton xs x ih =>
    obtain ⟨t, ht, hx⟩ := running_of_append h
    cases hb : body t x with
    | inl t' =>
      rw [run_cons_inl hb] at hx
      cases hx
      exact hstep xs t x _ (ih ht) hb
    | inr a =>
      rw [run_cons_inr hb] at hx
      cases hx

/-! ### Loops that end at the first answer of a kind -/

section First

variable {J : List ι → σ → Prop} {stop : List ι → ι → Prop} {res : List ι → ι → α}

/-- What a turn does, told from the answers alone: `stop taken x` says that the loop is
    left at `x` after `taken`, and `res taken x` with which result. -/
def DecidedBy (body : σ → ι → σ ⊕ α) (J : List ι → σ → Prop) (stop : List ι → ι → Prop)
    (res : List ι → ι → α) : Prop :=
  ∀ taken t x, J taken t →
    (stop taken x ∧ body t x = .inr (res taken x)) ∨
      (¬ stop taken x ∧ ∃ t', body t x = .inl t' ∧ J (taken ++ [x]) t')

/-- No answer of `xs` lets the loop end. -/
def NeverStops (stop : List ι → ι → Prop) (xs : List ι) : Prop :=
  ∀ pre x post, xs = pre ++ x :: post → ¬ stop pre x

theorem neverStops_append_singleton {xs : List ι} {x : ι} :
    NeverStops stop (xs ++ [x]) ↔ NeverStops stop xs ∧ ¬ stop xs x := by
  constructor
  · intro h
    exact ⟨fun pre y post he => h pre y (post ++ [x]) (by rw [he]; simp), h xs x [] rfl⟩
  · rintro ⟨h, hx⟩ pre y post he
    -- the answer that stops is `x` itself, or stands in `xs` already
    rcases List.eq_nil_or_concat post with rfl | ⟨post', z, rfl⟩
    · obtain ⟨rfl, hyx⟩ := List.append_inj' he rfl
      cases hyx
      exact hx
    · rw [List.concat_eq_append, ← List.cons_append, ← List.append_assoc] at he
      obtain ⟨rfl, -⟩ := List.append_inj' he rfl
      exact h pre y post' rfl

/-- The loop is running exactly while no answer has stopped it. -/
theorem running_iff_neverStops {s : σ} (hinit : J [] s) (hd : DecidedBy body J stop res)
    (xs : List ι) : (∃ s', run body s xs = .running s' ∧ J xs s') ↔ NeverStops stop xs := by
  induction xs using List.reverseRecOn with
  | nil => simp [NeverStops, hinit]
  | append_singleton xs x ih =>
    rw [neverStops_append_singleton, ← ih]
    constructor
    · rintro ⟨s', hrun, -⟩
      obtain ⟨t, ht, hx⟩ := running_of_append hrun
      have hJ : J xs t := running_history hinit
        (fun taken u y u' hu hy => by
          rcases hd taken u y hu with ⟨-, hr⟩ | ⟨-, v, hl, hv⟩
          · rw [hy] at hr; cases hr
          · rw [hy] at hl; cases hl; exact hv) ht
      refine ⟨⟨t, ht, hJ⟩, ?_⟩
      intro hstop
      rcases hd xs t x hJ with ⟨-, hr⟩ | ⟨hn, -⟩
      · rw [run_cons_inr hr] at hx; cases hx
      · exact hn hstop
    · -- an answer that does not stop the loop keeps it running
      rintro ⟨⟨t, ht, hJ⟩, hn⟩
      rcases hd xs t x hJ with ⟨hstop, -⟩ | ⟨-, t', hl, hJ'⟩
      · exact absurd hstop hn
      · exact ⟨t', by rw [run_append_of_running ht, run_cons_inl hl, run_nil], hJ'⟩

/-- **First-stop rule.** A loop decided by `stop` ends at the first answer that `stop`
    accepts, with that answer's result. -/
theorem run_ended_iff_first {s : σ} (hinit : J [] s) (hd : DecidedBy body J stop res)
    {a : α} {xs rest : List ι} :
    run body s xs = .ended a rest ↔
      ∃ taken x, xs = taken ++ x :: rest ∧ NeverStops stop taken ∧ stop taken x ∧
        a = res taken x := by
  rw [run_eq_ended_iff]
  constructor
  · rintro ⟨taken, x, s', rfl, hrun, hx⟩
    have hJ : J taken s' := running_history hinit
      (fun pre u y u' hu hy => by
        rcases hd pre u y hu with ⟨-, hr⟩ | ⟨-, v, hl, hv⟩
        · rw [hy] at hr; cases hr
        · rw [hy] at hl; cases hl; exact hv) hrun
    refine ⟨taken, x, rfl, (running_iff_neverStops hinit hd taken).mp ⟨s', hrun, hJ⟩, ?_⟩
    rcases hd taken s' x hJ with ⟨hstop, hr⟩ | ⟨-, t, hl, -⟩
    · rw [hx] at hr; cases hr; exact ⟨hstop, rfl⟩
    · rw [hx] at hl; cases hl
  · -- no answer before the first stop ends the loop, so that it is running there
    rintro ⟨taken, x, rfl, hnever, hstop, rfl⟩
    obtain ⟨s', hrun, hJ⟩ := (running_iff_neverStops hinit hd taken).mpr hnever
    refine ⟨taken, x, s', rfl, hrun, ?_⟩
    rcases hd taken s' x hJ with ⟨-, hr⟩ | ⟨hn, -⟩
    · exact hr
    · exact absurd hstop hn

end First

/-! ### Infinite sequences of answers -/

/-- The first `n` answers of an infinite sequence. -/
def firstAnswers (xs : ℕ → ι) (n : ℕ) : List ι := (List.range n).map xs

theorem firstAnswers_succ (xs : ℕ → ι) (n : ℕ) :
    firstAnswers xs (n + 1) = firstAnswers xs n ++ [xs n] := by
  simp [firstAnswers, List.range_succ]

/-- The loop, fed the sequence `xs`, leaves with result `a` at answer number `n`. -/
def StopsAt (body : σ → ι → σ ⊕ α) (s : σ) (xs : ℕ → ι) (n : ℕ) (a : α) : Prop :=
  run body s (firstAnswers xs (n + 1)) = .ended a []

section First

variable {J : List ι → σ → Prop} {stop : List ι → ι → Prop} {res : List ι → ι → α}

theorem neverStops_firstAnswers (xs : ℕ → ι) (n : ℕ) :
    NeverStops stop (firstAnswers xs n) ↔ ∀ k < n, ¬ stop (firstAnswers xs k) (xs k) := by
  induction n with
  | zero => simp [NeverStops, firstAnswers]
  | succ n ih =>
    rw [firstAnswers_succ, neverStops_append_singleton, ih]
    constructor
    · rintro ⟨hlt, hn⟩ k hk
      rcases Nat.lt_succ_iff_lt_or_eq.mp hk with h | rfl
      · exact hlt k h
      · exact hn
    · exact fun h => ⟨fun k hk => h k (Nat.lt_succ_of_lt hk), h n (Nat.lt_succ_self n)⟩

/-- The first-stop rule on an infinite sequence. -/
theorem stopsAt_iff_first {s : σ} (hinit : J [] s) (hd : DecidedBy body J stop res)
    {xs : ℕ → ι} {n : ℕ} {a : α} :
    StopsAt body s xs n a ↔
      (∀ k < n, ¬ stop (firstAnswers xs k) (xs k)) ∧ stop (firstAnswers xs n) (xs n) ∧
        a = res (firstAnswers xs n) (xs n) := by
  rw [StopsAt, run_ended_iff_first hinit hd, ← neverStops_firstAnswers]
  constructor
  · rintro ⟨taken, x, hsplit, hnever, hstop, ha⟩
    rw [firstAnswers_succ] at hsplit
    obtain ⟨rfl, hx⟩ := List.append_inj' hsplit rfl
    cases hx
    exact ⟨hnever, hstop, ha⟩
  · rintro ⟨hnever, hstop, ha⟩
    exact ⟨firstAnswers xs n, xs n, firstAnswers_succ xs n, hnever, hstop, ha⟩

end First

/-- **Two tests stop at the same answers** exactly when the first answer that passes the one
    passes the other, and none passes the other before. -/
theorem isLeast_iff_isLeast_iff {p q : ℕ → Prop} :
    (∀ n, IsLeast {k | q k} n ↔ IsLeast {k | p k} n) ↔
      (∀ n, q n → ∃ k ≤ n, p k) ∧ ∀ n, IsLeast {k | p k} n → q n := by
  have hfind : ∀ {r : ℕ → Prop} {n}, r n → ∃ m ≤ n, IsLeast {k | r k} m := by
    classical
    intro r n hn
    have hleast : IsLeast {k | r k} (Nat.find ⟨n, hn⟩) := Nat.isLeast_find ⟨n, hn⟩
    exact ⟨_, hleast.2 hn, hleast⟩
  constructor
  · intro h
    refine ⟨fun n hn => ?_, fun n hn => ((h n).mpr hn).1⟩
    obtain ⟨m, hmn, hm⟩ := hfind hn
    exact ⟨m, hmn, ((h m).mp hm).1⟩
  · rintro ⟨hbefore, hfirst⟩ n
    constructor
    · rintro ⟨hn, hlow⟩
      obtain ⟨k, hkn, hk⟩ := hbefore n hn
      obtain ⟨m, hmk, hm⟩ := hfind hk
      -- the first answer passing `p` passes `q`, so it is not before `n`
      have hnm : n ≤ m := hlow (hfirst m hm)
      have heq : m = n := le_antisymm (le_trans hmk hkn) hnm
      exact heq ▸ hm
    · intro hn
      refine ⟨hfirst n hn, fun j hj => ?_⟩
      obtain ⟨k, hkj, hk⟩ := hbefore j hj
      exact le_trans (hn.2 hk) hkj

end InputLoop
