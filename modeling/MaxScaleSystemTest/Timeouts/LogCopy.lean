import MaxScaleSystemTest.Lib.Countdown

namespace MaxScaleSystemTest.Timeouts.LogCopy

open Countdown Runs

/-!
# The periodic copies of the logs

`log_copy_thread` counts `log_copy_to_go` down once a second, starts it again from
`log_copy_interval` when it is spent and copies the logs.  `set_log_copy_interval` stores both, one
after the other; a test that stores `log_copy_interval` alone leaves the seconds to go as they are.

* `act` — one statement of the thread or of the test;
* `due_act` — the sleeps that are left before the next copy;
* `first_log_copy_iff` — when the first copy after a call comes at its time;
* `log_copies_periodic` — the copies that follow, when the test leaves the fields alone.
-/

/-- Where `log_copy_thread` is: in its inner loop, whose `ended` is behind the loop; with
    `log_copy_interval` loaded; or where it copies the logs. -/
inductive Place where
  | loop (p : Countdown.Place)
  | store (loaded : ℤ)
  | copy
  deriving DecidableEq

/-- The fields of `TestConnections` that the thread uses, the thread, and what a call of
    `set_log_copy_interval` has not yet stored in the second one. -/
structure Test where
  logCopyToGo : ℤ
  logCopyInterval : ℤ
  thread : Place
  pending : Option ℤ
  deriving DecidableEq

/-- The constructor calls `set_log_copy_interval(999999999)` and creates the thread. -/
def create : Test := ⟨999999999, 999999999, .loop .test, none⟩

/-- One step of `log_copy_thread`; `Test->log_copy_to_go--` is a load and a store. -/
def logCopyThread (t : Test) : Test :=
  match t.thread with
  | .loop .test =>
    if t.logCopyToGo > 0 then { t with thread := .loop .wait }
    else { t with thread := .loop .ended }
  -- `nanosleep`
  | .loop .wait => { t with thread := .loop .load }
  | .loop .load => { t with thread := .loop (.store t.logCopyToGo) }
  | .loop (.store v) => { t with logCopyToGo := v - 1, thread := .loop .test }
  | .loop .ended => { t with thread := .store t.logCopyInterval }
  | .store v => { t with logCopyToGo := v, thread := .copy }
  -- `copy_all_logs_periodic`
  | .copy => { t with thread := .loop .test }

/-- What can happen next: a call of `set_log_copy_interval`, with its first store, the second store
    of a call, `log_copy_interval = n` in the test, or a step of the thread. -/
inductive Action where
  | setLogCopyInterval (intervalSeconds : ℤ)
  | secondStore
  | assign (n : ℤ)
  | thread
  deriving DecidableEq

/-- The test does one thing after the other. -/
def act (t : Test) : Action → Test
  | .setLogCopyInterval n =>
    if t.pending = none then { t with logCopyToGo := n, pending := some n } else t
  | .secondStore =>
    match t.pending with
    | none => t
    | some n => { t with logCopyInterval := n, pending := none }
  | .assign n => if t.pending = none then { t with logCopyInterval := n } else t
  | .thread => logCopyThread t

/-- The thread is about to copy the logs. -/
def Test.Copying (t : Test) : Prop := t.thread = .copy

instance (t : Test) : Decidable t.Copying := inferInstanceAs (Decidable (_ = _))

/-- How often the thread sleeps during some actions. -/
def sleeps (t : Test) : List Action → ℕ
  | [] => 0
  | a :: acts => (if a = .thread ∧ t.thread = .loop .wait then 1 else 0) + sleeps (act t a) acts

/-- How often it copies the logs during some actions. -/
def copies (t : Test) : List Action → ℕ
  | [] => 0
  | a :: acts => (if a = .thread ∧ t.Copying then 1 else 0) + copies (act t a) acts

/-! ### The next copy -/

/-- The sleeps that are left before the next copy. -/
def Test.due (t : Test) : ℕ :=
  match t.thread with
  | .loop p => waitsLeft ⟨t.logCopyToGo, p⟩
  | .store _ => 0
  | .copy => 0

/-- The seconds from the next copy to the one behind it. -/
def Test.gap (t : Test) : ℤ :=
  match t.thread with
  | .loop _ => t.logCopyInterval
  | .store v => v
  | .copy => t.logCopyToGo

/-- A step of the inner loop. -/
theorem logCopyThread_loop {t : Test} {p : Countdown.Place} (hthread : t.thread = .loop p)
    (hp : p ≠ .ended) :
    let s := threadStep ⟨t.logCopyToGo, p⟩
    logCopyThread t = { t with logCopyToGo := s.counter, thread := .loop s.place } := by
  obtain ⟨toGo, interval, thread, pending⟩ := t
  obtain rfl : thread = .loop p := hthread
  cases p with
  | test => by_cases hpos : 0 < toGo <;> simp [logCopyThread, threadStep, hpos]
  | wait => rfl
  | load => rfl
  | store v => rfl
  | ended => exact absurd rfl hp

/-- **One step.** Until the thread copies the logs its sleeps are those that are left. -/
theorem due_logCopyThread {t : Test} (h : ¬ t.Copying) :
    t.due = (if t.thread = .loop .wait then 1 else 0) + (logCopyThread t).due ∧
      (logCopyThread t).gap = t.gap := by
  obtain ⟨toGo, interval, thread, pending⟩ := t
  cases thread with
  | loop p =>
    by_cases hp : p = .ended
    · subst hp
      exact ⟨rfl, rfl⟩
    · have hleft := (left_threadStep (s := ⟨toGo, p⟩) hp).2
      rw [logCopyThread_loop rfl hp]
      refine ⟨?_, rfl⟩
      show waitsLeft ⟨toGo, p⟩ = _ + waitsLeft (threadStep ⟨toGo, p⟩)
      rw [hleft]
      simp
  | store v => exact ⟨rfl, rfl⟩
  | copy => exact absurd rfl h

/-- No call of `set_log_copy_interval` starts. -/
def Action.NoCall (a : Action) : Prop := ∀ n, a ≠ .setLogCopyInterval n

/-- A store to `log_copy_interval` leaves the seconds to go as they are. -/
theorem act_of_store (t : Test) {a : Action} (hcall : a.NoCall) (hthread : a ≠ .thread) :
    (act t a).thread = t.thread ∧ (act t a).logCopyToGo = t.logCopyToGo := by
  cases a with
  | setLogCopyInterval n => exact absurd rfl (hcall n)
  | secondStore => cases hpending : t.pending <;> simp [act, hpending]
  | assign n => by_cases hpending : t.pending = none <;> simp [act, hpending]
  | thread => exact absurd rfl hthread

/-- **One action.** Without a call the sleeps until the next copy are those that are left. -/
theorem due_act {t : Test} {a : Action} (hcall : a.NoCall) (hcopy : ¬ (a = .thread ∧ t.Copying)) :
    t.due = (if a = .thread ∧ t.thread = .loop .wait then 1 else 0) + (act t a).due := by
  by_cases hthread : a = .thread
  · subst hthread
    have hcopying : ¬ t.Copying := fun h => hcopy ⟨rfl, h⟩
    have hdue := (due_logCopyThread hcopying).1
    simpa [act] using hdue
  · obtain ⟨hplace, htoGo⟩ := act_of_store t hcall hthread
    have hdue : (act t a).due = t.due := by
      rw [Test.due, Test.due, hplace, htoGo]
    simp [hthread, hdue]

theorem due_of_no_call {acts : List Action} {t : Test} (hcall : ∀ a ∈ acts, a.NoCall)
    (hcopies : copies t acts = 0) : t.due = sleeps t acts + (run act t acts).due := by
  induction acts generalizing t with
  | nil => exact (Nat.zero_add _).symm
  | cons a acts ih =>
    rw [List.forall_mem_cons] at hcall
    obtain ⟨hfirst, hrest⟩ := Nat.add_eq_zero_iff.mp hcopies
    have hcopy : ¬ (a = .thread ∧ t.Copying) := fun h => by simp [h] at hfirst
    rw [due_act hcall.1 hcopy, ih hcall.2 hrest, sleeps, run_cons, Nat.add_assoc]

/-- The steps of the thread up to its next copy. -/
def Test.stepsToCopy (t : Test) : ℕ :=
  match t.thread with
  | .loop p => stepsLeft ⟨t.logCopyToGo, p⟩ + 3
  | .store _ => 2
  | .copy => 1

theorem stepsToCopy_logCopyThread {t : Test} (h : ¬ t.Copying) :
    t.stepsToCopy = (logCopyThread t).stepsToCopy + 1 := by
  obtain ⟨toGo, interval, thread, pending⟩ := t
  cases thread with
  | loop p =>
    by_cases hp : p = .ended
    · subst hp
      rfl
    · have hleft := (left_threadStep (s := ⟨toGo, p⟩) hp).1
      rw [logCopyThread_loop rfl hp]
      show stepsLeft ⟨toGo, p⟩ + 3 = stepsLeft (threadStep ⟨toGo, p⟩) + 3 + 1
      omega
  | store v => rfl
  | copy => exact absurd rfl h

/-- **Progress.** However the stores fall, the next copy comes with the last of these steps. -/
theorem copies_pos {acts : List Action} {t : Test} (hcall : ∀ a ∈ acts, a.NoCall)
    (hsteps : t.stepsToCopy ≤ acts.count .thread) : 0 < copies t acts := by
  induction acts generalizing t with
  | nil =>
    have hpos : 0 < t.stepsToCopy := by
      unfold Test.stepsToCopy
      split <;> omega
    simp at hsteps
    omega
  | cons a acts ih =>
    rw [List.forall_mem_cons] at hcall
    by_cases hthread : a = .thread
    · subst hthread
      by_cases hcopying : t.Copying
      · simp only [copies, hcopying, and_self, if_true]
        omega
      · have hstep := stepsToCopy_logCopyThread hcopying
        rw [List.count_cons_self] at hsteps
        have hrest : 0 < copies (logCopyThread t) acts := ih hcall.2 (by omega)
        exact Nat.add_pos_right _ hrest
    · obtain ⟨hplace, htoGo⟩ := act_of_store t hcall.1 hthread
      have hsame : (act t a).stepsToCopy = t.stepsToCopy := by
        rw [Test.stepsToCopy, Test.stepsToCopy, hplace, htoGo]
      rw [List.count_cons_of_ne hthread] at hsteps
      have hrest : 0 < copies (act t a) acts := ih hcall.2 (by omega)
      exact Nat.add_pos_right _ hrest

/-- At the copy no sleep is left. -/
theorem due_of_copying {t : Test} (h : t.Copying) : t.due = 0 := by
  have hthread : t.thread = .copy := h
  rw [Test.due, hthread]

/-- The thread is in its inner loop, and has not loaded seconds other than `n` and `n + 1`. -/
def Test.Counts (t : Test) (n : ℤ) : Prop :=
  ∃ p, t.thread = .loop p ∧ p ≠ .ended ∧ ∀ v, p = .store v → n ≤ v ∧ v ≤ n + 1

/-- The sleeps that are left behind the first store of a call. -/
theorem due_set_iff (t : Test) {n : ℤ} (hn : 2 ≤ n) (pending : Option ℤ) :
    let called : Test := { t with logCopyToGo := n, pending := pending }
    n - 1 ≤ called.due ∧ called.due ≤ n ↔ t.Counts n := by
  obtain ⟨toGo, interval, thread, pending'⟩ := t
  cases thread with
  | loop p =>
    show n - 1 ≤ waitsLeft (step ⟨toGo, p⟩ (.set n)) ∧ waitsLeft (step ⟨toGo, p⟩ (.set n)) ≤ n ↔ _
    by_cases hp : p = .ended
    · subst hp
      refine iff_of_false (fun h => ?_) (by simp [Test.Counts])
      have hzero : waitsLeft (step ⟨toGo, .ended⟩ (.set n)) = 0 := rfl
      rw [hzero] at h
      omega
    · rw [waitsLeft_set_iff (s := ⟨toGo, p⟩) hp hn]
      simp [Test.Counts, hp]
  | store v =>
    refine iff_of_false (fun h => ?_) (by simp [Test.Counts])
    have hzero : n - 1 ≤ (0 : ℕ) := h.1
    omega
  | copy =>
    refine iff_of_false (fun h => ?_) (by simp [Test.Counts])
    have hzero : n - 1 ≤ (0 : ℕ) := h.1
    omega

/-- **First copy.** Whatever has happened before, when `set_log_copy_interval(n)` is called and no
    call follows, the logs are copied, however the second store of the call and other stores to
    `log_copy_interval` fall between the steps of the thread.  The first copy comes after `n`
    sleeps, or one less, unless the call finds the thread behind its inner loop, or between the
    load of something other than `n` and `n + 1`, and its store. -/
theorem first_log_copy_iff (before : List Action) (n : ℤ) (hn : 2 ≤ n)
    (hidle : (run act create before).pending = none) :
    let t := run act create before
    let called := act t (.setLogCopyInterval n)
    (∃ steps, ∀ acts : List Action, (∀ a ∈ acts, a.NoCall) → steps ≤ acts.count .thread →
      0 < copies called acts) ∧
    ∀ acts : List Action, (∀ a ∈ acts, a.NoCall) → copies called acts = 0 →
      (run act called acts).Copying →
        (n - 1 ≤ sleeps called acts ∧ sleeps called acts ≤ n ↔ t.Counts n) := by
  intro t called
  have hcalled : called = { t with logCopyToGo := n, pending := some n } := if_pos hidle
  refine ⟨⟨called.stepsToCopy, fun acts hcall hsteps => copies_pos hcall hsteps⟩, ?_⟩
  intro acts hcall hcopies hcopying
  have hslept : sleeps called acts = called.due := by
    rw [due_of_no_call hcall hcopies, due_of_copying hcopying, Nat.add_zero]
  rw [hslept, hcalled]
  exact due_set_iff t hn (some n)

/-- The thread has loaded the last second of an interval of one, and stores over the 300. -/
def lostCall : List Action :=
  [.setLogCopyInterval 1, .secondStore, .thread, .thread, .thread]

theorem first_log_copy_lost :
    (run act create lostCall).pending = none ∧
      let t := run act create lostCall
      let called := act t (.setLogCopyInterval 300)
      (∃ steps, ∀ acts : List Action, (∀ a ∈ acts, a.NoCall) → steps ≤ acts.count .thread →
        0 < copies called acts) ∧
      ∀ acts : List Action, (∀ a ∈ acts, a.NoCall) → copies called acts = 0 →
        (run act called acts).Copying →
          (300 - 1 ≤ (sleeps called acts : ℤ) ∧ (sleeps called acts : ℤ) ≤ 300 ↔ t.Counts 300) :=
  ⟨by decide, first_log_copy_iff lostCall 300 (by decide) (by decide)⟩

/-! ### Without a call -/

theorem due_le_sleeps {acts : List Action} {t : Test} (hcall : ∀ a ∈ acts, a.NoCall)
    (hcopies : 0 < copies t acts) : t.due ≤ sleeps t acts := by
  induction acts generalizing t with
  | nil => exact absurd hcopies (lt_irrefl 0)
  | cons a acts ih =>
    rw [List.forall_mem_cons] at hcall
    by_cases hcopy : a = .thread ∧ t.Copying
    · rw [due_of_copying hcopy.2]
      exact Nat.zero_le _
    · have hrest : 0 < copies (act t a) acts := by simpa [copies, hcopy] using hcopies
      rw [due_act hcall.1 hcopy, sleeps]
      exact Nat.add_le_add_left (ih hcall.2 hrest) _

/-- **Never.** A test that stores `log_copy_interval` and does not call `set_log_copy_interval`, as
    `rwsplit_readonly_stress` does, gets no copy of the logs for 999999999 seconds. -/
theorem no_log_copy_of_assign (acts : List Action) (hcall : ∀ a ∈ acts, a.NoCall)
    (hsleeps : sleeps create acts < 999999999) : copies create acts = 0 := by
  by_contra hcopies
  have hdue : create.due = 999999999 := rfl
  have hle := due_le_sleeps hcall (Nat.pos_of_ne_zero hcopies)
  omega

/-- A second after the store. -/
theorem no_log_copy_of_assign_300 :
    copies create [.assign 300, .thread, .thread, .thread, .thread] = 0 :=
  no_log_copy_of_assign [.assign 300, .thread, .thread, .thread, .thread]
    (by simp [Action.NoCall]) (by decide)

/-! ### The thread alone -/

/-- The thread takes `k` steps. -/
def alone (k : ℕ) : List Action := List.replicate k .thread

theorem alone_succ (k : ℕ) : alone (k + 1) = .thread :: alone k := List.replicate_succ

/-- The thread does not store `log_copy_interval`. -/
theorem logCopyInterval_logCopyThread (t : Test) :
    (logCopyThread t).logCopyInterval = t.logCopyInterval := by
  unfold logCopyThread
  split
  · split <;> rfl
  all_goals rfl

/-- The sleeps up to the copy behind `j` other ones. -/
def Test.dueAfter (t : Test) : ℕ → ℕ
  | 0 => t.due
  | j + 1 => t.due + t.gap.toNat + j * t.logCopyInterval.toNat

/-- A copy starts the seconds to go again. -/
theorem dueAfter_copying {t : Test} (h : t.Copying) (j : ℕ) :
    t.dueAfter (j + 1) = (logCopyThread t).dueAfter j := by
  obtain ⟨toGo, interval, thread, pending⟩ := t
  obtain rfl : thread = .copy := h
  cases j with
  | zero => simp [Test.dueAfter, Test.due, Test.gap, logCopyThread, waitsLeft]
  | succ j =>
    simp only [Test.dueAfter, Test.due, Test.gap, logCopyThread, waitsLeft]
    rw [Nat.succ_mul]
    omega

theorem dueAfter_not_copying {t : Test} (h : ¬ t.Copying) (j : ℕ) :
    t.dueAfter j =
      (if t.thread = .loop .wait then 1 else 0) + (logCopyThread t).dueAfter j := by
  obtain ⟨hdue, hgap⟩ := due_logCopyThread h
  cases j with
  | zero => exact hdue
  | succ j =>
    simp only [Test.dueAfter, hgap, logCopyInterval_logCopyThread]
    omega

/-- The sleeps at a copy. -/
theorem sleeps_of_copying {k : ℕ} {t : Test} (h : (run act t (alone k)).Copying) :
    sleeps t (alone k) = t.dueAfter (copies t (alone k)) := by
  induction k generalizing t with
  | zero =>
    have hcopying : t.Copying := h
    exact (due_of_copying hcopying).symm
  | succ k ih =>
    rw [alone_succ] at h ⊢
    have hrest : sleeps (logCopyThread t) (alone k) =
        (logCopyThread t).dueAfter (copies (logCopyThread t) (alone k)) := ih h
    by_cases hcopying : t.Copying
    · have hplace : t.thread = .copy := hcopying
      have hcopies : copies t (.thread :: alone k) = copies (logCopyThread t) (alone k) + 1 := by
        simp [copies, hcopying, act, Nat.add_comm]
      rw [hcopies, dueAfter_copying hcopying, ← hrest]
      simp [sleeps, hplace, act]
    · have hcopies : copies t (.thread :: alone k) = copies (logCopyThread t) (alone k) := by
        simp [copies, hcopying, act]
      rw [hcopies, dueAfter_not_copying hcopying, ← hrest]
      simp [sleeps, act]

/-- The thread gets to where it copies the logs. -/
theorem exists_of_copying {j : ℕ}
    (hcopy : ∀ t : Test, t.Copying →
      ∃ k, (run act t (alone k)).Copying ∧ copies t (alone k) = j) (t : Test) :
    ∃ k, (run act t (alone k)).Copying ∧ copies t (alone k) = j := by
  induction hsteps : t.stepsToCopy using Nat.strong_induction_on generalizing t with
  | _ n ih =>
    by_cases hcopying : t.Copying
    · exact hcopy t hcopying
    · have hless := stepsToCopy_logCopyThread hcopying
      obtain ⟨k, hk, hcopies⟩ := ih _ (by omega) (logCopyThread t) rfl
      refine ⟨k + 1, hk, ?_⟩
      rw [alone_succ]
      simpa [copies, hcopying, act] using hcopies

theorem exists_copying (j : ℕ) (t : Test) :
    ∃ k, (run act t (alone k)).Copying ∧ copies t (alone k) = j := by
  induction j generalizing t with
  | zero => exact exists_of_copying (fun t hcopying => ⟨0, hcopying, rfl⟩) t
  | succ j ih =>
    refine exists_of_copying (fun t hcopying => ?_) t
    obtain ⟨k, hk, hcopies⟩ := ih (logCopyThread t)
    refine ⟨k + 1, hk, ?_⟩
    rw [alone_succ, ← hcopies]
    simp [copies, hcopying, act, Nat.add_comm]

/-- **Period.** Whatever has happened before, when the test leaves the fields alone the logs are
    copied again and again.  From one copy to the next the thread sleeps `log_copy_interval` times,
    and not at all when it is negative; from the first one to the second as often as the interval
    says that it has loaded last. -/
theorem log_copies_periodic (before : List Action) :
    let t := run act create before
    (∀ j, ∃ k, (run act t (alone k)).Copying ∧ copies t (alone k) = j) ∧
      ∀ k k', (run act t (alone k)).Copying → (run act t (alone k')).Copying →
        copies t (alone k') = copies t (alone k) + 1 →
          (sleeps t (alone k') : ℤ) = sleeps t (alone k) +
            max (if copies t (alone k) = 0 then t.gap else t.logCopyInterval) 0 := by
  intro t
  refine ⟨fun j => exists_copying j t, fun k k' hk hk' hnext => ?_⟩
  rw [sleeps_of_copying hk, sleeps_of_copying hk', hnext]
  cases copies t (alone k) with
  | zero =>
    simp only [Test.dueAfter, if_true]
    omega
  | succ j =>
    simp only [Test.dueAfter, Nat.succ_ne_zero, if_false, Nat.succ_mul]
    omega

end MaxScaleSystemTest.Timeouts.LogCopy
