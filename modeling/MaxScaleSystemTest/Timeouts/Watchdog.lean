import MaxScaleSystemTest.Lib.Countdown

namespace MaxScaleSystemTest.Timeouts

open Countdown Runs

/-!
# The watchdog of a test

`timeout_thread` counts `timeout` down once a second and ends the process when it is spent;
the test sets it with `set_timeout` before something that may hang and puts it off with
`stop_timeout` behind.  Nothing keeps the thread and the test apart.

* `watchdog_on_time_iff` — when a test is ended at the time that it has set;
* `watchdog_atomic_iff` — when `timeout` is what the calls and the seconds make of it.
-/

/-- What `stop_timeout` and the constructor set, in seconds. -/
def NO_TIMEOUT : ℤ := 999999999

/-- The fields of `TestConnections` that the calls and the thread use, and the thread, whose place
    `ended` is behind its loop, where it ends the process. -/
structure Test where
  enableTimeouts : Bool
  timeout : ℤ
  thread : Place
  deriving DecidableEq

/-- The constructor sets `timeout` and creates the thread. -/
def create (enableTimeouts : Bool) : Test := ⟨enableTimeouts, NO_TIMEOUT, .test⟩

/-- `TestConnections::set_timeout`. -/
def setTimeout (t : Test) (timeoutSeconds : ℤ) : Test :=
  if t.enableTimeouts then { t with timeout := timeoutSeconds } else t

/-- `TestConnections::stop_timeout`. -/
def stopTimeout (t : Test) : Test := { t with timeout := NO_TIMEOUT }

/-- One step of `timeout_thread`; `Test->timeout--` is a load and a store. -/
def timeoutThread (t : Test) : Test :=
  match t.thread with
  | .test => if t.timeout > 0 then { t with thread := .wait } else { t with thread := .ended }
  -- `nanosleep`
  | .wait => { t with thread := .load }
  | .load => { t with thread := .store t.timeout }
  | .store v => { t with timeout := v - 1, thread := .test }
  | .ended => t

/-- What can happen next. -/
inductive Action where
  | setTimeout (timeoutSeconds : ℤ)
  | stopTimeout
  | thread
  deriving DecidableEq

def act (t : Test) : Action → Test
  | .setTimeout n => setTimeout t n
  | .stopTimeout => stopTimeout t
  | .thread => timeoutThread t

/-- The thread has left its loop: `exit(250)`. -/
def Test.Ended (t : Test) : Prop := t.thread = .ended

instance (t : Test) : Decidable t.Ended := inferInstanceAs (Decidable (_ = _))

/-! ### A counter that is counted down -/

/-- The counter and its thread. -/
def Test.countdown (t : Test) : State := ⟨t.timeout, t.thread⟩

/-- What an action is to the counter; a `set_timeout` without timeouts is nothing. -/
def Action.op (enableTimeouts : Bool) : Action → Option Op
  | .setTimeout n => if enableTimeouts then some (.set n) else none
  | .stopTimeout => some (.set NO_TIMEOUT)
  | .thread => some .thread

@[simp] theorem act_enableTimeouts (t : Test) (a : Action) :
    (act t a).enableTimeouts = t.enableTimeouts := by
  cases a with
  | setTimeout n =>
    show (setTimeout t n).enableTimeouts = _
    unfold setTimeout
    split <;> rfl
  | stopTimeout => rfl
  | thread =>
    show (timeoutThread t).enableTimeouts = _
    unfold timeoutThread
    split
    · split <;> rfl
    all_goals rfl

/-- **One action.** -/
theorem countdown_act (t : Test) (a : Action) :
    (act t a).countdown = ((a.op t.enableTimeouts).map (step t.countdown)).getD t.countdown := by
  obtain ⟨enableTimeouts, timeout, thread⟩ := t
  cases a with
  | setTimeout n => cases enableTimeouts <;> rfl
  | stopTimeout => rfl
  | thread =>
    show (timeoutThread _).countdown = threadStep _
    cases thread with
    | test => by_cases hpos : 0 < timeout <;>
        simp [timeoutThread, threadStep, Test.countdown, hpos]
    | wait => rfl
    | load => rfl
    | store v => rfl
    | ended => rfl

/-! ### Deadlines -/

/-- How often the thread sleeps during some actions. -/
def sleeps (t : Test) : List Action → ℕ
  | [] => 0
  | a :: acts => (if a = .thread ∧ t.thread = .wait then 1 else 0) + sleeps (act t a) acts

/-- The thread alone. -/
theorem run_replicate (t : Test) (k : ℕ) :
    (run act t (List.replicate k .thread)).countdown = runThread t.countdown k ∧
      sleeps t (List.replicate k .thread) = waits t.countdown k := by
  induction k generalizing t with
  | zero => exact ⟨rfl, rfl⟩
  | succ k ih =>
    have hact : (act t .thread).countdown = threadStep t.countdown := countdown_act t .thread
    obtain ⟨hrun, hsleeps⟩ := ih (act t .thread)
    rw [hact] at hrun hsleeps
    refine ⟨?_, ?_⟩
    · rw [List.replicate_succ, run_cons, hrun, runThread_succ]
    · rw [List.replicate_succ, sleeps, hsleeps, waits]
      by_cases hwait : t.thread = .wait <;> simp [Test.countdown, hwait]

/-- What a call stores in `timeout`. -/
def Action.stores (enableTimeouts : Bool) : Action → Option ℤ
  | .setTimeout n => if enableTimeouts then some n else none
  | .stopTimeout => some NO_TIMEOUT
  | .thread => none

theorem act_of_stores {t : Test} {call : Action} {n : ℤ}
    (h : call.stores t.enableTimeouts = some n) : act t call = { t with timeout := n } := by
  cases call with
  | setTimeout m =>
    by_cases henabled : t.enableTimeouts = true
    · have hm : m = n := by simpa [Action.stores, henabled] using h
      show setTimeout t m = _
      rw [setTimeout, if_pos henabled, hm]
    · simp [Action.stores, henabled] at h
  | stopTimeout =>
    have hn : NO_TIMEOUT = n := by simpa [Action.stores] using h
    rw [← hn]
    rfl
  | thread => simp [Action.stores] at h

theorem run_enableTimeouts (enableTimeouts : Bool) (acts : List Action) :
    (run act (create enableTimeouts) acts).enableTimeouts = enableTimeouts := by
  have hstep : ∀ (t : Test) (a : Action), t.enableTimeouts = enableTimeouts →
      (act t a).enableTimeouts = enableTimeouts :=
    fun t a ht => (act_enableTimeouts t a).trans ht
  exact run_invariant hstep rfl acts

/-- **Deadlines.** Whatever has happened before, if no call follows one that sets `timeout` to `n`
    the process is ended, and it is ended on time, that is after `n` sleeps of the thread or one
    less, unless the call fell into a `timeout--`: between the load of something other than `n`
    and `n + 1`, and its store. -/
theorem watchdog_on_time_iff (enableTimeouts : Bool) (before : List Action) (call : Action) (n : ℤ)
    (hn : 2 ≤ n) (hcall : call.stores enableTimeouts = some n)
    (halive : ¬ (run act (create enableTimeouts) before).Ended) :
    let t := run act (create enableTimeouts) before
    let after := fun k => run act (act t call) (List.replicate k .thread)
    let slept := fun k => sleeps (act t call) (List.replicate k .thread)
    (∃ k, (after k).Ended) ∧
      ∀ k, (after k).Ended →
        (n - 1 ≤ slept k ∧ slept k ≤ n ↔ ∀ v, t.thread = .store v → n ≤ v ∧ v ≤ n + 1) := by
  intro t after slept
  have henabled : t.enableTimeouts = enableTimeouts := run_enableTimeouts enableTimeouts before
  have hset : (act t call).countdown = step t.countdown (.set n) := by
    rw [act_of_stores (by rw [henabled]; exact hcall)]
    rfl
  have hended : ∀ k, (after k).Ended ↔ (runThread (step t.countdown (.set n)) k).place = .ended := by
    intro k
    rw [← hset, ← (run_replicate (act t call) k).1]
    rfl
  refine ⟨⟨stepsLeft (step t.countdown (.set n)), ?_⟩, fun k hk => ?_⟩
  · exact (hended _).mpr ((runThread_ended_iff _ _).mpr le_rfl)
  · have hslept : slept k = waitsLeft (step t.countdown (.set n)) := by
      show sleeps (act t call) _ = _
      rw [(run_replicate (act t call) k).2, hset]
      exact waits_of_ended ((hended k).mp hk)
    have hrunning : t.countdown.place ≠ .ended := halive
    rw [hslept]
    exact waitsLeft_set_iff hrunning hn

/-- The `set_timeout(300)` is lost in a `timeout--` of the last second. -/
def lostCall : List Action :=
  [.setTimeout 1, .thread, .thread, .thread]

theorem watchdog_on_time_lost :
    ¬ (run act (create true) lostCall).Ended ∧
      let t := run act (create true) lostCall
      let after := fun k => run act (act t (.setTimeout 300)) (List.replicate k .thread)
      let slept := fun k => sleeps (act t (.setTimeout 300)) (List.replicate k .thread)
      (∃ k, (after k).Ended) ∧
        ∀ k, (after k).Ended →
          (300 - 1 ≤ (slept k : ℤ) ∧ (slept k : ℤ) ≤ 300 ↔
            ∀ v, t.thread = .store v → 300 ≤ v ∧ v ≤ 300 + 1) :=
  ⟨by decide, watchdog_on_time_iff true lostCall (.setTimeout 300) 300 (by decide) rfl (by decide)⟩

/-! ### Seconds -/

/-- The clock that the calls set, with a second taken off in one step. -/
def tick (enableTimeouts : Bool) (c : Clock) (a : Action) : Clock :=
  ((a.op enableTimeouts).map c.step).getD c

/-- The clock when the thread is created. -/
def newClock : Clock := ⟨NO_TIMEOUT, .test⟩

/-- The store of this step, if it is one, finds `timeout` as it was loaded. -/
def Untouched (t : Test) : Action → Prop
  | .thread => ∀ v, t.thread = .store v → t.timeout = v
  | _ => True

/-- **Atomicity.** Throughout a run `timeout` is what the calls and the seconds make of it, and the
    thread goes by it, exactly when every `timeout--` stores over the value that it has loaded. -/
theorem watchdog_atomic_iff (enableTimeouts : Bool) (acts : List Action) :
    (∀ before, before <+: acts →
      (run act (create enableTimeouts) before).timeout =
          (run (tick enableTimeouts) newClock before).left ∧
        (run act (create enableTimeouts) before).thread =
          (run (tick enableTimeouts) newClock before).place) ↔
      StepsHold act Untouched (create enableTimeouts) acts := by
  have hstep : ∀ (t : Test) (c : Clock) (a : Action),
      t.enableTimeouts = enableTimeouts ∧ Follows t.countdown c →
        ((act t a).enableTimeouts = enableTimeouts ∧
          Follows (act t a).countdown (tick enableTimeouts c a) ↔ Untouched t a) := by
    rintro t c a ⟨rfl, hfollows⟩
    rw [act_enableTimeouts, countdown_act, tick, and_iff_right rfl]
    cases hop : a.op t.enableTimeouts with
    | none =>
      -- a call without timeouts
      refine iff_of_true hfollows ?_
      cases a with
      | thread => cases hop
      | setTimeout n => trivial
      | stopTimeout => trivial
    | some op =>
      show Follows (step t.countdown op) (c.step op) ↔ _
      rw [follows_step_iff hfollows]
      cases a with
      | thread =>
        cases hop
        rfl
      | setTimeout n =>
        obtain ⟨-, rfl⟩ : t.enableTimeouts = true ∧ Op.set n = op := by
          simpa [Action.op] using hop
        rfl
      | stopTimeout =>
        cases hop
        rfl
  have hstart : (create enableTimeouts).enableTimeouts = enableTimeouts ∧
      Follows (create enableTimeouts).countdown newClock := ⟨rfl, rfl, rfl⟩
  rw [← lockstep_iff act hstep hstart acts]
  refine forall₂_congr fun before _ => ?_
  have henabled := run_enableTimeouts enableTimeouts before
  constructor
  · rintro ⟨hcounter, hplace⟩
    exact ⟨henabled, hcounter, hplace⟩
  · rintro ⟨-, hcounter, hplace⟩
    exact ⟨hcounter, hplace⟩

end MaxScaleSystemTest.Timeouts
