import MaxScaleSystemTest.Lib.Runs

namespace Countdown

open Runs

/-!
# A counter that one thread counts down

A thread tests a counter, waits, takes one off and tests again, until it finds the counter
spent.  Others set the counter at any time.  The thread takes one off in two steps, a load and
a store, so that a set can fall between them and be lost.

* `runThread_ended_iff`, `waits_of_ended` — when the thread ends if nobody sets the counter any
  more, and how often it has waited by then;
* `waitsLeft_set_iff` — a set whose time is not waited for fell between a load and a store;
* `Follows` — the counter against one that is counted down in a single step;
* `follows_step_iff` — a step keeps the two together exactly when a store finds the counter as it
  was loaded.
-/

/-- Where the thread is; `store v` is behind a load of `v`. -/
inductive Place where
  | test
  | wait
  | load
  | store (loaded : ℤ)
  | ended
  deriving DecidableEq

/-- The counter and the thread. -/
structure State where
  counter : ℤ
  place : Place
  deriving DecidableEq

/-- Someone sets the counter, or the thread takes a step. -/
inductive Op where
  | set (n : ℤ)
  | thread
  deriving DecidableEq

/-- One step of the thread. -/
def threadStep (s : State) : State :=
  match s.place with
  | .test => { s with place := if 0 < s.counter then .wait else .ended }
  | .wait => { s with place := .load }
  | .load => { s with place := .store s.counter }
  | .store v => ⟨v - 1, .test⟩
  | .ended => s

def step (s : State) : Op → State
  | .set n => { s with counter := n }
  | .thread => threadStep s

/-! ### The thread alone -/

/-- The thread takes `k` steps. -/
def runThread (s : State) (k : ℕ) : State := run step s (List.replicate k .thread)

@[simp] theorem runThread_zero (s : State) : runThread s 0 = s := rfl

@[simp] theorem runThread_succ (s : State) (k : ℕ) :
    runThread s (k + 1) = runThread (threadStep s) k := rfl

/-- How often the thread waits in `k` steps. -/
def waits (s : State) : ℕ → ℕ
  | 0 => 0
  | k + 1 => (if s.place = .wait then 1 else 0) + waits (threadStep s) k

/-- The waits that are left before the thread ends. -/
def waitsLeft (s : State) : ℕ :=
  match s.place with
  | .test => s.counter.toNat
  | .wait => 1 + (s.counter - 1).toNat
  | .load => (s.counter - 1).toNat
  | .store v => (v - 1).toNat
  | .ended => 0

/-- The steps that are left before the thread ends; a round has four. -/
def stepsLeft (s : State) : ℕ :=
  match s.place with
  | .test => 4 * s.counter.toNat + 1
  | .wait => 4 * (s.counter - 1).toNat + 4
  | .load => 4 * (s.counter - 1).toNat + 3
  | .store v => 4 * (v - 1).toNat + 2
  | .ended => 0

/-- Every step is one of them, and every wait. -/
theorem left_threadStep {s : State} (h : s.place ≠ .ended) :
    stepsLeft s = stepsLeft (threadStep s) + 1 ∧
      waitsLeft s = (if s.place = .wait then 1 else 0) + waitsLeft (threadStep s) := by
  obtain ⟨counter, place⟩ := s
  cases place with
  | test =>
    by_cases hpos : 0 < counter
    · simp only [stepsLeft, waitsLeft, threadStep, if_pos hpos, reduceCtorEq, if_false]
      omega
    · simp only [stepsLeft, waitsLeft, threadStep, if_neg hpos, reduceCtorEq, if_false]
      omega
  | wait => simp [stepsLeft, waitsLeft, threadStep]
  | load => simp [stepsLeft, waitsLeft, threadStep]
  | store v => simp [stepsLeft, waitsLeft, threadStep]
  | ended => exact absurd rfl h

theorem runThread_of_ended {s : State} (h : s.place = .ended) (k : ℕ) :
    runThread s k = s ∧ waits s k = 0 := by
  have hstep : threadStep s = s := by
    rw [threadStep, h]
  induction k with
  | zero => exact ⟨rfl, rfl⟩
  | succ k ih =>
    rw [runThread_succ, waits, hstep, ih.1, ih.2, h]
    exact ⟨rfl, rfl⟩

theorem place_eq_ended_iff (s : State) : s.place = .ended ↔ stepsLeft s = 0 := by
  obtain ⟨counter, place⟩ := s
  cases place <;> simp [stepsLeft]

/-- **Termination.** The thread ends with the last of the steps left to it. -/
theorem runThread_ended_iff (s : State) (k : ℕ) :
    (runThread s k).place = .ended ↔ stepsLeft s ≤ k := by
  induction k generalizing s with
  | zero => rw [runThread_zero, place_eq_ended_iff, Nat.le_zero]
  | succ k ih =>
    by_cases hended : s.place = .ended
    · have hzero : stepsLeft s = 0 := (place_eq_ended_iff s).mp hended
      rw [(runThread_of_ended hended (k + 1)).1]
      exact iff_of_true hended (by omega)
    · have hstep := (left_threadStep hended).1
      rw [runThread_succ, ih]
      omega

/-- **Waits.** When it ends it has waited as often as was left to it. -/
theorem waits_of_ended {s : State} {k : ℕ} (h : (runThread s k).place = .ended) :
    waits s k = waitsLeft s := by
  induction k generalizing s with
  | zero =>
    have hended : s.place = .ended := h
    simp [waits, waitsLeft, hended]
  | succ k ih =>
    by_cases hended : s.place = .ended
    · rw [(runThread_of_ended hended (k + 1)).2]
      simp [waitsLeft, hended]
    · have hrest : waits (threadStep s) k = waitsLeft (threadStep s) := ih h
      rw [waits, hrest, ← (left_threadStep hended).2]

/-- **A set that is waited for.** After a set to `n` the thread waits `n` times, or once less if
    the wait of its round is over already; unless the set fell between a load of something else
    and its store. -/
theorem waitsLeft_set_iff {s : State} (hended : s.place ≠ .ended) {n : ℤ} (hn : 2 ≤ n) :
    (n - 1 ≤ waitsLeft (step s (.set n)) ∧ waitsLeft (step s (.set n)) ≤ n) ↔
      ∀ v, s.place = .store v → n ≤ v ∧ v ≤ n + 1 := by
  obtain ⟨counter, place⟩ := s
  cases place with
  | test =>
    refine iff_of_true ?_ nofun
    simp only [waitsLeft, step]
    omega
  | wait =>
    refine iff_of_true ?_ nofun
    simp only [waitsLeft, step]
    omega
  | load =>
    refine iff_of_true ?_ nofun
    simp only [waitsLeft, step]
    omega
  | store v =>
    simp only [waitsLeft, step, Place.store.injEq, forall_eq']
    omega
  | ended => exact absurd rfl hended

/-! ### A counter that is counted down in one step -/

/-- What is left of the time, and where the thread is in its round. -/
structure Clock where
  left : ℤ
  place : Place
  deriving DecidableEq

/-- One is taken off where the thread stores. -/
def Clock.step (c : Clock) : Op → Clock
  | .set n => { c with left := n }
  | .thread =>
    match c.place with
    | .test => { c with place := if 0 < c.left then .wait else .ended }
    | .wait => { c with place := .load }
    | .load => { c with place := .store c.left }
    | .store _ => ⟨c.left - 1, .test⟩
    | .ended => c

/-- The counter stands at what is left of the time, and the thread is at the same place. -/
structure Follows (s : State) (c : Clock) : Prop where
  counter : s.counter = c.left
  place : s.place = c.place

/-- The store of this step, if it is one, finds the counter as it was loaded. -/
def Untouched (s : State) : Op → Prop
  | .set _ => True
  | .thread => ∀ v, s.place = .store v → s.counter = v

/-- One step. -/
theorem follows_step_iff {s : State} {c : Clock} (h : Follows s c) (op : Op) :
    Follows (step s op) (c.step op) ↔ Untouched s op := by
  obtain ⟨counter, place⟩ := s
  obtain ⟨left, place'⟩ := c
  obtain ⟨hcounter, hplace⟩ := h
  subst hcounter hplace
  cases op with
  | set n => exact iff_of_true ⟨rfl, rfl⟩ trivial
  | thread =>
    cases place with
    | test => exact iff_of_true ⟨rfl, rfl⟩ (by simp [Untouched])
    | wait => exact iff_of_true ⟨rfl, rfl⟩ (by simp [Untouched])
    | load => exact iff_of_true ⟨rfl, rfl⟩ (by simp [Untouched])
    | ended => exact iff_of_true ⟨rfl, rfl⟩ (by simp [Untouched])
    | store v =>
      show Follows ⟨v - 1, .test⟩ ⟨counter - 1, .test⟩ ↔ _
      constructor
      · rintro ⟨hcounter, -⟩ w hw
        cases hw
        show counter = v
        have heq : v - 1 = counter - 1 := hcounter
        omega
      · intro huntouched
        have heq : counter = v := huntouched v rfl
        exact ⟨by rw [heq], rfl⟩

end Countdown
