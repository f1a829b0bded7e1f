import Mathlib.Algebra.Order.BigOperators.Group.Finset
import Mathlib.Data.Prod.Lex
import MaxScaleSystemTest.Lib.Runs

namespace MaxScaleSystemTest.Load.ReadonlyStress

open Runs

/-!
# Threads that wait for a flag

The threads wait until `running` is set, and then run sessions of 100 queries until it is cleared.
`main` sets it when it has created the threads, and clears it, without looking at them, before it
joins them: a thread that has not seen the flag while it was set waits for ever.

* `Place`, `threadStep` — one statement of `query_thread`;
* `MainPlace`, `mainStep` — the statements of `main`;
* `Inv`, `inv_step` — what every step keeps;
* `Stuck`, `stuck_step` — a thread that has missed the flag;
* `helpful` — what can be done as long as none has;
* `stress_ends_iff` — when `main` can get to its end.
-/

/-- Where a thread stands in `query_thread`. -/
inductive Place where
  | idle
  | wait
  | test
  | query (i : ℕ)
  | close
  | ended
  deriving DecidableEq

/-- Where `main` stands. -/
inductive MainPlace where
  | create (i : ℕ)
  | start
  | load (i : ℕ)
  | join (i : ℕ)
  | done
  deriving DecidableEq

/-- The threads, their `iter`, and the results that they have added. -/
structure World where
  running : Bool
  place : ℕ → Place
  iter : ℕ → ℕ
  errors : ℕ
  main : MainPlace

/-- No thread has been created. -/
def created : World := ⟨false, fun _ => .idle, fun _ => 0, 0, .create 0⟩

/-- The numbers of threads and of rounds in which the master is blocked. -/
structure Setup where
  threads : ℕ
  iterations : ℕ

/-- Thread `i` goes on at another place. -/
def World.goto (w : World) (i : ℕ) (place : Place) : World :=
  { w with place := Function.update w.place i place }

/-- One statement of `query_thread`; `fails` is what a query does. -/
def threadStep (w : World) (i : ℕ) (fails : Bool) : World :=
  match w.place i with
  | .idle => w
  | .wait => if w.running then w.goto i .test else w
  | .test => w.goto i (if w.running then .query 0 else .ended)
  | .query k =>
    if k < 100 then
      { w with errors := w.errors + if fails then 1 else 0 }.goto i (.query (k + 1))
    else w.goto i .close
  | .close => { w with iter := Function.update w.iter i (w.iter i + 100) }.goto i .test
  | .ended => w

/-- One statement of `main`; a thread that has not ended is waited for. -/
def mainStep (s : Setup) (w : World) : World :=
  match w.main with
  | .create i =>
    if i < s.threads then { w.goto i .wait with main := .create (i + 1) }
    else { w with main := .start }
  | .start => { w with running := true, main := .load 0 }
  | .load i =>
    if i < s.iterations then { w with main := .load (i + 1) }
    else { w with running := false, main := .join 0 }
  | .join i =>
    if i < s.threads then if w.place i = .ended then { w with main := .join (i + 1) } else w
    else { w with main := .done }
  | .done => w

/-- Whose turn it is. -/
inductive Turn where
  | main
  | thread (i : ℕ) (fails : Bool)

/-- One statement of `main` or of one of its threads. -/
def step (s : Setup) (w : World) : Turn → World
  | .main => mainStep s w
  | .thread i fails => if i < s.threads then threadStep w i fails else w

/-! ### What holds throughout -/

/-- `main` has cleared the flag. -/
def Stopped : MainPlace → Prop
  | .join _ => True
  | .done => True
  | _ => False

/-- The threads that have been joined. -/
def Joined (s : Setup) (i : ℕ) : MainPlace → Prop
  | .join k => i < k
  | .done => i < s.threads
  | _ => False

/-- The threads that have been created. -/
def Created (i : ℕ) : MainPlace → Prop
  | .create k => i < k
  | _ => True

/-- The invariant. -/
structure Inv (s : Setup) (w : World) : Prop where
  running : ∀ k, w.main = .load k → w.running = true
  stopped : Stopped w.main → w.running = false
  created : ∀ i < s.threads, Created i w.main → w.place i ≠ .idle
  joined : ∀ i, Joined s i w.main → w.place i = .ended

variable {s : Setup} {w : World} {i : ℕ}

theorem inv_created (s : Setup) : Inv s created where
  running := nofun
  stopped := nofun
  created _ _ h := absurd h (Nat.not_lt_zero _)
  joined := nofun

/-- A statement of thread `i` changes the place of the thread, and no other. -/
theorem threadStep_cases (w : World) (i : ℕ) (fails : Bool) :
    ∃ place, (threadStep w i fails).place = Function.update w.place i place ∧
      (threadStep w i fails).running = w.running ∧ (threadStep w i fails).main = w.main ∧
      (place = .idle ↔ w.place i = .idle) ∧ (w.place i = .ended → place = .ended) ∧
      (w.running = false → w.place i = .wait → place = .wait) ∧
      (place = .wait → w.place i = .wait) := by
  have hstay : ∀ {place}, w.place i = place → w.place = Function.update w.place i place := by
    rintro place rfl
    exact (Function.update_eq_self i w.place).symm
  unfold threadStep
  cases hplace : w.place i with
  | idle => exact ⟨.idle, hstay hplace, rfl, rfl, by simp⟩
  | ended => exact ⟨.ended, hstay hplace, rfl, rfl, by simp⟩
  | test => exact ⟨_, rfl, rfl, rfl, by cases w.running <;> simp⟩
  | close => exact ⟨_, rfl, rfl, rfl, by simp⟩
  | wait =>
    cases hrunning : w.running with
    | true => exact ⟨.test, rfl, hrunning, rfl, by simp⟩
    | false => exact ⟨.wait, hstay hplace, hrunning, rfl, by simp⟩
  | query k =>
    dsimp only
    split
    · exact ⟨_, rfl, rfl, rfl, by simp⟩
    · exact ⟨_, rfl, rfl, rfl, by simp⟩

/-- A statement of a thread keeps the invariant. -/
theorem inv_threadStep (h : Inv s w) (i : ℕ) (fails : Bool) : Inv s (threadStep w i fails) := by
  obtain ⟨place, hplace, hrunning, hmain, hidle, hended, -, -⟩ := threadStep_cases w i fails
  refine ⟨?_, ?_, fun j hj hcreated => ?_, fun j hjoined => ?_⟩
  · rw [hrunning, hmain]
    exact h.running
  · rw [hrunning, hmain]
    exact h.stopped
  · rw [hmain] at hcreated
    have hold := h.created j hj hcreated
    rw [hplace]
    by_cases hji : j = i
    · subst hji
      rw [Function.update_self]
      exact mt hidle.mp hold
    · rw [Function.update_of_ne hji]
      exact hold
  · rw [hmain] at hjoined
    have hold := h.joined j hjoined
    rw [hplace]
    by_cases hji : j = i
    · subst hji
      rw [Function.update_self]
      exact hended hold
    · rw [Function.update_of_ne hji]
      exact hold

/-- A statement of `main` keeps the invariant. -/
theorem inv_mainStep (h : Inv s w) : Inv s (mainStep s w) := by
  have hcreated := h.created
  have hstopped := h.stopped
  have hjoined := h.joined
  unfold mainStep
  cases hmain : w.main with
  | create k =>
    rw [hmain] at hcreated
    dsimp only
    split
    · refine ⟨nofun, nofun, fun j hj hlt => ?_, nofun⟩
      show Function.update w.place k .wait j ≠ .idle
      by_cases hjk : j = k
      · rw [hjk, Function.update_self]
        nofun
      · rw [Function.update_of_ne hjk]
        exact hcreated j hj (Nat.lt_of_le_of_ne (Nat.le_of_lt_succ hlt) hjk)
    · next hall =>
      refine ⟨nofun, nofun, fun j hj _ => ?_, nofun⟩
      exact hcreated j hj (Nat.lt_of_lt_of_le hj (Nat.le_of_not_lt hall))
  | start =>
    rw [hmain] at hcreated
    exact ⟨fun _ _ => rfl, nofun, hcreated, nofun⟩
  | load k =>
    rw [hmain] at hcreated
    dsimp only
    split
    · exact ⟨fun _ _ => h.running k hmain, nofun, hcreated, nofun⟩
    · exact ⟨nofun, fun _ => rfl, hcreated, fun j hj => absurd hj (Nat.not_lt_zero j)⟩
  | join k =>
    rw [hmain] at hcreated hstopped hjoined
    dsimp only
    split
    · split
      · next hended =>
        refine ⟨nofun, fun _ => hstopped trivial, hcreated, fun j hj => ?_⟩
        rcases Nat.lt_succ_iff_lt_or_eq.mp hj with hlt | rfl
        · exact hjoined j hlt
        · exact hended
      · exact h
    · next hall =>
      refine ⟨nofun, fun _ => hstopped trivial, hcreated, fun j hj => hjoined j ?_⟩
      exact Nat.lt_of_lt_of_le hj (Nat.le_of_not_lt hall)
  | done => exact h

/-- **Step.** -/
theorem inv_step (turn : Turn) (h : Inv s w) : Inv s (step s w turn) := by
  cases turn with
  | main => exact inv_mainStep h
  | thread i fails =>
    rw [step]
    split
    · exact inv_threadStep h i fails
    · exact h

/-! ### A thread that has missed the flag -/

/-- A thread waits, and `main`, which has cleared the flag, has it to join. -/
structure Stuck (s : Setup) (i : ℕ) (w : World) : Prop where
  lt : i < s.threads
  running : w.running = false
  wait : w.place i = .wait
  main : ∃ k ≤ i, w.main = .join k

/-- It waits for ever. -/
theorem stuck_step (turn : Turn) (h : Stuck s i w) : Stuck s i (step s w turn) := by
  obtain ⟨k, hk, hmain⟩ := h.main
  cases turn with
  | main =>
    have hlt : k < s.threads := Nat.lt_of_le_of_lt hk h.lt
    rw [step, mainStep, hmain]
    dsimp only
    rw [if_pos hlt]
    split
    · next hended =>
      have hne : k ≠ i := by
        rintro rfl
        rw [h.wait] at hended
        cases hended
      exact ⟨h.lt, h.running, h.wait, k + 1, Nat.lt_of_le_of_ne hk hne, rfl⟩
    · exact h
  | thread j fails =>
    rw [step]
    split
    · obtain ⟨place, hplace, hrunning, hmain', -, -, hwait, -⟩ := threadStep_cases w j fails
      refine ⟨h.lt, hrunning.trans h.running, ?_, k, hk, hmain'.trans hmain⟩
      rw [hplace]
      by_cases hij : i = j
      · subst hij
        rw [Function.update_self]
        exact hwait h.running h.wait
      · rw [Function.update_of_ne hij]
        exact h.wait
    · exact h

/-! ### What can be done otherwise -/

/-- No thread has missed the flag. -/
def NoneLost (s : Setup) (w : World) : Prop :=
  Stopped w.main → ∀ i < s.threads, w.place i ≠ .wait

/-- The steps of a thread to its end when the flag is cleared, or to the flag while it is set. -/
def remaining : Place → ℕ
  | .query k => 100 - k + 3
  | .close => 2
  | .wait => 2
  | .test => 1
  | .idle => 0
  | .ended => 0

/-- The steps of `main`. -/
def left (s : Setup) : MainPlace → ℕ
  | .create i => s.threads - i + s.iterations + s.threads + 4
  | .start => s.iterations + s.threads + 3
  | .load i => s.iterations - i + s.threads + 2
  | .join i => s.threads - i + 1
  | .done => 0

/-- The steps of `main`, and those of the threads between two of them. -/
def rank (s : Setup) (w : World) : ℕ × ℕ :=
  (left s w.main, ∑ i ∈ Finset.range s.threads, remaining (w.place i))

/-- A helpful statement of `main`. -/
theorem rank_of_left {w' : World} (h : left s w'.main < left s w.main) :
    Prod.Lex (· < ·) (· < ·) (rank s w') (rank s w) := Prod.lex_def.mpr (.inl h)

/-- A helpful statement of a thread. -/
theorem rank_of_remaining {w' : World} {place : Place} (hi : i < s.threads)
    (hmain : w'.main = w.main) (hplace : w'.place = Function.update w.place i place)
    (hless : remaining place < remaining (w.place i)) :
    Prod.Lex (· < ·) (· < ·) (rank s w') (rank s w) := by
  refine Prod.lex_def.mpr (.inr ⟨congrArg (left s) hmain, ?_⟩)
  show ∑ j ∈ Finset.range s.threads, remaining (w'.place j) <
    ∑ j ∈ Finset.range s.threads, remaining (w.place j)
  rw [hplace]
  refine Finset.sum_lt_sum (fun j _ => ?_) ⟨i, Finset.mem_range.mpr hi, ?_⟩
  · by_cases hji : j = i
    · subst hji
      rw [Function.update_self]
      exact Nat.le_of_lt hless
    · rw [Function.update_of_ne hji]
  · rw [Function.update_self]
    exact hless

/-- A thread does not begin to wait. -/
theorem noneLost_threadStep (h : NoneLost s w) (i : ℕ) (fails : Bool) :
    NoneLost s (threadStep w i fails) := by
  obtain ⟨place, hplace, -, hmain, -, -, -, hwait⟩ := threadStep_cases w i fails
  intro hstopped j hj
  rw [hmain] at hstopped
  rw [hplace]
  by_cases hji : j = i
  · subst hji
    rw [Function.update_self]
    exact fun heq => h hstopped j hj (hwait heq)
  · rw [Function.update_of_ne hji]
    exact h hstopped j hj

/-- A thread that has seen the flag is on its way to the end when the flag is cleared. -/
theorem remaining_threadStep (hrunning : w.running = false) (hidle : w.place i ≠ .idle)
    (hwait : w.place i ≠ .wait) (hended : w.place i ≠ .ended) :
    ∃ place, (threadStep w i false).place = Function.update w.place i place ∧
      (threadStep w i false).main = w.main ∧ remaining place < remaining (w.place i) := by
  unfold threadStep
  cases hplace : w.place i with
  | idle => exact absurd hplace hidle
  | wait => exact absurd hplace hwait
  | ended => exact absurd hplace hended
  | close => exact ⟨.test, rfl, rfl, by decide⟩
  | test =>
    refine ⟨.ended, ?_, rfl, by decide⟩
    simp [hrunning, World.goto]
  | query k =>
    dsimp only
    split
    · refine ⟨.query (k + 1), rfl, rfl, ?_⟩
      simp only [remaining]
      omega
    · refine ⟨.close, rfl, rfl, ?_⟩
      simp only [remaining]
      omega

/-- **Progress.** As long as no thread has missed the flag, there is a helpful statement. -/
theorem helpful (h : Inv s w) (hnone : NoneLost s w) (hdone : w.main ≠ .done) :
    ∃ turn, NoneLost s (step s w turn) ∧
      Prod.Lex (· < ·) (· < ·) (rank s (step s w turn)) (rank s w) := by
  cases hmain : w.main with
  | done => exact absurd hmain hdone
  | create k =>
    refine ⟨.main, ?_, rank_of_left ?_⟩
    all_goals rw [step, mainStep, hmain]; dsimp only
    · split <;> exact nofun
    · split <;> simp only [left] <;> omega
  | start =>
    refine ⟨.main, ?_, rank_of_left ?_⟩
    all_goals rw [step, mainStep, hmain]; dsimp only
    · exact nofun
    · simp only [left]
      omega
  | load k =>
    by_cases hwaits : ∃ i < s.threads, w.place i = .wait
    · -- the flag is set, and the thread sees it
      obtain ⟨i, hi, hwait⟩ := hwaits
      have hstep : step s w (.thread i false) = w.goto i .test := by
        rw [step, if_pos hi, threadStep, hwait]
        dsimp only
        rw [if_pos (h.running k hmain)]
      refine ⟨.thread i false, ?_, ?_⟩
      · rw [step, if_pos hi]
        exact noneLost_threadStep hnone i false
      · rw [hstep]
        exact rank_of_remaining hi rfl rfl (by rw [hwait]; decide)
    · refine ⟨.main, ?_, rank_of_left ?_⟩
      all_goals rw [step, mainStep, hmain]; dsimp only
      · split
        · exact nofun
        · exact fun _ i hi hwait => hwaits ⟨i, hi, hwait⟩
      · split <;> simp only [left] <;> omega
  | join k =>
    have hstopped : Stopped w.main := by rw [hmain]; trivial
    by_cases hk : k < s.threads ∧ w.place k ≠ .ended
    · have hidle : w.place k ≠ .idle := h.created k hk.1 (by rw [hmain]; trivial)
      obtain ⟨place, hplace, hsame, hless⟩ := remaining_threadStep (h.stopped hstopped) hidle
        (hnone hstopped k hk.1) hk.2
      refine ⟨.thread k false, ?_, ?_⟩
      · rw [step, if_pos hk.1]
        exact noneLost_threadStep hnone k false
      · rw [step, if_pos hk.1]
        exact rank_of_remaining hk.1 hsame hplace hless
    · have hended : k < s.threads → w.place k = .ended := fun hlt => by
        by_contra hne
        exact hk ⟨hlt, hne⟩
      refine ⟨.main, ?_, rank_of_left ?_⟩
      all_goals rw [step, mainStep, hmain]; dsimp only
      · split
        · next hlt =>
          rw [if_pos (hended hlt)]
          exact fun _ => hnone hstopped
        · exact fun _ => hnone hstopped
      · split
        · next hlt =>
          rw [if_pos (hended hlt)]
          simp only [left]
          omega
        · simp only [left]
          omega

/-- A thread that has missed the flag is stuck. -/
theorem Inv.stuck {s : Setup} {w : World} (hinv : Inv s w) (hstopped : Stopped w.main) {i : ℕ}
    (hi : i < s.threads) (hwait : w.place i = .wait) : Stuck s i w := by
  have hnot : ¬ Joined s i w.main := by
    intro hjoined
    rw [hinv.joined i hjoined] at hwait
    cases hwait
  refine ⟨hi, hinv.stopped hstopped, hwait, ?_⟩
  cases hplace : w.main with
  | join k =>
    rw [hplace] at hnot
    exact ⟨k, Nat.le_of_not_lt hnot, rfl⟩
  | done =>
    rw [hplace] at hnot
    exact absurd hi hnot
  | create k => rw [hplace] at hstopped; cases hstopped
  | start => rw [hplace] at hstopped; cases hstopped
  | load k => rw [hplace] at hstopped; cases hstopped

/-- **A flag that is missed.** After any steps in any order `main` can get to its end exactly when
    it has not yet cleared the flag, or no thread waits for it.  A thread that still waits when the
    flag has been cleared does so in every continuation, and `main` never gets to its end. -/
theorem stress_ends_iff (s : Setup) (turns : List Turn) :
    ((∃ more, (run (step s) created (turns ++ more)).main = .done) ↔
        NoneLost s (run (step s) created turns)) ∧
      ∀ i < s.threads, Stopped (run (step s) created turns).main →
        (run (step s) created turns).place i = .wait →
          ∀ more, (run (step s) created (turns ++ more)).place i = .wait ∧
            (run (step s) created (turns ++ more)).main ≠ .done := by
  have hinv : Inv s (run (step s) created turns) :=
    run_invariant (fun _ turn h => inv_step turn h) (inv_created s) turns
  simp only [run_append]
  generalize run (step s) created turns = w at hinv
  have hlost : ∀ i < s.threads, Stopped w.main → w.place i = .wait →
      ∀ more, (run (step s) w more).place i = .wait ∧ (run (step s) w more).main ≠ .done := by
    intro i hi hstopped hwait more
    have hstuck : Stuck s i (run (step s) w more) :=
      run_invariant (fun _ turn h => stuck_step turn h) (hinv.stuck hstopped hi hwait) more
    obtain ⟨k, -, hjoin⟩ := hstuck.main
    exact ⟨hstuck.wait, by rw [hjoin]; nofun⟩
  refine ⟨⟨?_, fun hnone => ?_⟩, hlost⟩
  · rintro ⟨more, hdone⟩ hstopped i hi hwait
    exact (hlost i hi hstopped hwait more).2 hdone
  · have hwf : WellFounded (Prod.Lex (· < · : ℕ → ℕ → Prop) (· < · : ℕ → ℕ → Prop)) :=
      WellFounded.prod_lex Nat.lt_wfRel.wf Nat.lt_wfRel.wf
    have hstep : ∀ w, Inv s w ∧ NoneLost s w → ¬ w.main = .done →
        ∃ turn, (Inv s (step s w turn) ∧ NoneLost s (step s w turn)) ∧
          Prod.Lex (· < ·) (· < ·) (rank s (step s w turn)) (rank s w) := by
      rintro w ⟨h, hnone⟩ hdone
      obtain ⟨turn, hnext, hless⟩ := helpful h hnone hdone
      exact ⟨turn, ⟨inv_step turn h, hnext⟩, hless⟩
    exact exists_run_of_rank hwf (rank s) hstep ⟨hinv, hnone⟩

end MaxScaleSystemTest.Load.ReadonlyStress
