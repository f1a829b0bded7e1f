import Mathlib.Data.List.Basic
import Mathlib.Data.Nat.Notation
import Mathlib.Tactic.Common

namespace MaxScaleSystemTest.Nodes

/-!
# Repairing replication

`Mariadb_nodes::fix_replication` calls `check_replication` both as the guard of its retry
loop and as the verdict on a last attempt, and restarts or cleans up the nodes in between.

* `fixLoop` / `fixReplication` — the loop with its two counters, on the outcomes of the
  calls it makes; the calls are logged.
* `fixLoop_wrong_iff` — where the loop ends well on a check that failed.
* `fix_true_iff` — when `true` means that the last check succeeded.
-/

/-- The calls `fix_replication` makes. -/
inductive NodeCall where
  | checkReplication
  | checkNodes
  | unblockAllNodes
  | stopNodes
  | startReplication
  | closeConnections
  | cleanupDbNodes
  | flushHosts
  | sleep (seconds : ℕ)
  deriving DecidableEq

/-- The outcome of the `n`-th call of each kind, counted from 0; non-zero is a failure. -/
abbrev Outcomes := NodeCall → ℕ → Int

/-- The calls made so far with their outcomes, the latest first. -/
abbrev CallLog := List (NodeCall × Int)

/-- How often a call has been made. -/
def timesCalled (c : NodeCall) (log : CallLog) : ℕ := log.countP (·.1 = c)

/-- Make a call: its outcome, and the log with it. -/
def perform (env : Outcomes) (c : NodeCall) (log : CallLog) : Int × CallLog :=
  let outcome := env c (timesCalled c log)
  (outcome, (c, outcome) :: log)

/-- Make a call whose outcome is not looked at. -/
def call (env : Outcomes) (c : NodeCall) (log : CallLog) : CallLog := (perform env c log).2

/-- One attempt: stop the nodes unless it is the first, start replication, disconnect. -/
def attempt (env : Outcomes) (attempts : ℕ) (log : CallLog) : CallLog :=
  let log := if attempts ≠ 2 then call env .stopNodes log else log
  let log := call env .startReplication log
  call env .closeConnections log

/-- The last resort: clean up all nodes and start again. -/
def cleanup (env : Outcomes) (log : CallLog) : CallLog :=
  let log := call env .stopNodes log
  let log := call env .cleanupDbNodes log
  let log := call env (.sleep 30) log
  let log := call env .startReplication log
  call env (.sleep 30) log

/-- The `while` loop of `fix_replication`: `false` for the `return false` inside it, `true`
    when the loop is left through its guard. -/
def fixLoop (env : Outcomes) (attemptsWithCleanup attempts : ℕ) (log : CallLog) : Bool × CallLog :=
  let guard := perform env .checkReplication log
  -- the guard checks before it looks at the counter
  if _h : guard.1 ≠ 0 ∧ 0 < attempts then
    let log := attempt env attempts guard.2
    if attempts - 1 = 0 then
      let verdict := perform env .checkReplication log
      if verdict.1 ≠ 0 then
        if _hc : 0 < attemptsWithCleanup then
          fixLoop env (attemptsWithCleanup - 1) 2 (cleanup env verdict.2)
        else (false, verdict.2)
      -- back to the guard, which checks once more
      else fixLoop env attemptsWithCleanup (attempts - 1) verdict.2
    else fixLoop env attemptsWithCleanup (attempts - 1) log
  else (true, guard.2)
termination_by (attemptsWithCleanup, attempts)

/-- `Mariadb_nodes::fix_replication`. -/
def fixReplication (env : Outcomes) : Bool × CallLog :=
  let check := perform env .checkReplication []
  if check.1 ≠ 0 then
    let log := call env .unblockAllNodes check.2
    let nodes := perform env .checkNodes log
    if nodes.1 ≠ 0 then (false, nodes.2)
    else
      match fixLoop env 2 2 nodes.2 with
      | (false, log) => (false, log)
      | (true, log) => (true, call env .flushHosts log)
  else (true, check.2)

/-! ### The checks in a log -/

/-- The number of checks made. -/
def checks (log : CallLog) : ℕ := timesCalled .checkReplication log

/-- The outcome of the latest check. -/
def lastCheck (log : CallLog) : Option Int :=
  (log.find? (·.1 = .checkReplication)).map (·.2)

variable (env : Outcomes)

theorem perform_check_outcome (log : CallLog) :
    (perform env .checkReplication log).1 = env .checkReplication (checks log) := rfl

@[simp] theorem checks_perform_check (log : CallLog) :
    checks (perform env .checkReplication log).2 = checks log + 1 := by
  simp [checks, perform, timesCalled]

@[simp] theorem lastCheck_perform_check (log : CallLog) :
    lastCheck (perform env .checkReplication log).2 =
      some (env .checkReplication (checks log)) := by
  simp [lastCheck, perform, checks]

/-- Other calls leave the count of checks alone. -/
theorem checks_call {c : NodeCall} (hc : c ≠ .checkReplication) (log : CallLog) :
    checks (call env c log) = checks log := by
  simp [checks, call, perform, timesCalled, hc]

/-- Other calls leave the latest check alone. -/
theorem lastCheck_call {c : NodeCall} (hc : c ≠ .checkReplication) (log : CallLog) :
    lastCheck (call env c log) = lastCheck log := by
  simp [lastCheck, call, perform, hc]

@[simp] theorem checks_attempt (attempts : ℕ) (log : CallLog) :
    checks (attempt env attempts log) = checks log := by
  unfold attempt
  simp only [checks_call env (show NodeCall.closeConnections ≠ .checkReplication by decide),
    checks_call env (show NodeCall.startReplication ≠ .checkReplication by decide)]
  split
  · exact checks_call env (by decide) log
  · rfl

@[simp] theorem checks_cleanup (log : CallLog) : checks (cleanup env log) = checks log := by
  unfold cleanup
  simp only [checks_call env (show NodeCall.sleep 30 ≠ .checkReplication by decide),
    checks_call env (show NodeCall.startReplication ≠ .checkReplication by decide),
    checks_call env (show NodeCall.cleanupDbNodes ≠ .checkReplication by decide),
    checks_call env (show NodeCall.stopNodes ≠ .checkReplication by decide)]

/-! ### The loop -/

/-- A guard that succeeds, or that finds no attempt left, ends the loop. -/
theorem fixLoop_exit {c a : ℕ} {log : CallLog}
    (h : env .checkReplication (checks log) = 0 ∨ a = 0) :
    fixLoop env c a log = (true, (perform env .checkReplication log).2) := by
  rw [fixLoop, perform_check_outcome, dif_neg (by omega)]

/-- A failed guard spends the first of two attempts. -/
theorem fixLoop_two {c : ℕ} {log : CallLog} (h : env .checkReplication (checks log) ≠ 0) :
    fixLoop env c 2 log =
      fixLoop env c 1 (attempt env 2 (perform env .checkReplication log).2) := by
  rw [fixLoop, perform_check_outcome, dif_pos ⟨h, by omega⟩, if_neg (by omega)]

/-- The log after a failed guard, the last attempt and the verdict on it. -/
def verdictLog (log : CallLog) : CallLog :=
  (perform env .checkReplication (attempt env 1 (perform env .checkReplication log).2)).2

@[simp] theorem checks_verdictLog (log : CallLog) : checks (verdictLog env log) = checks log + 2 := by
  simp [verdictLog]

/-- The outcome of the verdict. -/
theorem verdict_outcome (log : CallLog) :
    (perform env .checkReplication (attempt env 1 (perform env .checkReplication log).2)).1 =
      env .checkReplication (checks log + 1) := by
  rw [perform_check_outcome, checks_attempt, checks_perform_check]

/-- A verdict that succeeds goes back to the guard without an attempt left. -/
theorem fixLoop_one_ok {c : ℕ} {log : CallLog} (hguard : env .checkReplication (checks log) ≠ 0)
    (hverdict : env .checkReplication (checks log + 1) = 0) :
    fixLoop env c 1 log = fixLoop env c 0 (verdictLog env log) := by
  rw [fixLoop, perform_check_outcome, dif_pos ⟨hguard, by omega⟩]
  dsimp only
  rw [if_pos (by omega), verdict_outcome, if_neg (not_not.mpr hverdict)]
  rfl

/-- A verdict that fails leads to a cleanup while there is one left. -/
theorem fixLoop_one_cleanup {c : ℕ} {log : CallLog}
    (hguard : env .checkReplication (checks log) ≠ 0)
    (hverdict : env .checkReplication (checks log + 1) ≠ 0) :
    fixLoop env (c + 1) 1 log = fixLoop env c 2 (cleanup env (verdictLog env log)) := by
  rw [fixLoop, perform_check_outcome, dif_pos ⟨hguard, by omega⟩]
  dsimp only
  rw [if_pos (by omega), verdict_outcome, if_pos hverdict, dif_pos (by omega)]
  rfl

/-- Without a cleanup left, a verdict that fails is final. -/
theorem fixLoop_one_giveUp {log : CallLog} (hguard : env .checkReplication (checks log) ≠ 0)
    (hverdict : env .checkReplication (checks log + 1) ≠ 0) :
    fixLoop env 0 1 log = (false, verdictLog env log) := by
  rw [fixLoop, perform_check_outcome, dif_pos ⟨hguard, by omega⟩]
  dsimp only
  rw [if_pos (by omega), verdict_outcome, if_pos hverdict, dif_neg (by omega)]
  rfl

/-! ### A wrong yes -/

/-- A result that says yes although the latest check failed. -/
def WrongTrue (r : Bool × CallLog) : Prop := r.1 = true ∧ lastCheck r.2 ≠ some 0

/-- After `k` complete rounds of failures, counted from check `n` on, the verdict succeeds
    and the guard right behind it fails. -/
def FlapsAt (n k : ℕ) : Prop :=
  (∀ j < 3 * k + 2, env .checkReplication (n + j) ≠ 0) ∧
    env .checkReplication (n + (3 * k + 2)) = 0 ∧ env .checkReplication (n + (3 * k + 3)) ≠ 0

/-- A loop left through its guard is wrong when that guard failed. -/
theorem wrongTrue_exit_iff {c a : ℕ} {log : CallLog}
    (h : env .checkReplication (checks log) = 0 ∨ a = 0) :
    WrongTrue (fixLoop env c a log) ↔ env .checkReplication (checks log) ≠ 0 := by
  rw [fixLoop_exit env h]
  simp [WrongTrue]

/-- A round of three failed checks moves the flapping point by one. -/
theorem flapsAt_succ_iff {n k : ℕ} (h0 : env .checkReplication n ≠ 0)
    (h1 : env .checkReplication (n + 1) ≠ 0) (h2 : env .checkReplication (n + 2) ≠ 0) :
    FlapsAt env n (k + 1) ↔ FlapsAt env (n + 3) k := by
  have hshift : ∀ m, n + (3 * (k + 1) + m) = n + 3 + (3 * k + m) := by
    intro m
    omega
  unfold FlapsAt
  rw [hshift 2, hshift 3]
  refine and_congr_left fun _ => ⟨fun h j hj => ?_, fun h j hj => ?_⟩
  · have hj' := h (j + 3) (by omega)
    rwa [show n + (j + 3) = n + 3 + j by omega] at hj'
  · -- the round itself, or a check of the later ones
    match j with
    | 0 => exact h0
    | 1 => exact h1
    | 2 => exact h2
    | j + 3 =>
      have hj' := h j (by omega)
      rwa [show n + 3 + j = n + (j + 3) by omega] at hj'

/-- A check of a round that succeeds decides where the outcomes can flap: nowhere when it is
    a guard, only at once when it is the verdict. -/
theorem flapsAt_of_zero {n j k : ℕ} (hj : j ≤ 2) (h : env .checkReplication (n + j) = 0)
    (hflap : FlapsAt env n k) : j = 2 ∧ k = 0 := by
  by_contra hne
  exact hflap.1 j (by omega) h

/-- A round in which a check succeeds ends the loop; the yes is wrong exactly when it was the
    verdict that succeeded and the next check fails. -/
theorem wrongTrue_of_round_ok {c : ℕ} {log : CallLog}
    (h : env .checkReplication (checks log) = 0 ∨ env .checkReplication (checks log + 1) = 0 ∨
      env .checkReplication (checks log + 2) = 0) :
    WrongTrue (fixLoop env c 2 log) ↔ ∃ k ≤ c, FlapsAt env (checks log) k := by
  by_cases h0 : env .checkReplication (checks log) = 0
  · -- the first guard succeeds
    rw [wrongTrue_exit_iff env (.inl h0)]
    refine iff_of_false (fun hne => hne h0) ?_
    rintro ⟨k, -, hflap⟩
    exact absurd (flapsAt_of_zero env (j := 0) (by omega) h0 hflap).1 (by omega)
  rw [fixLoop_two env h0]
  have hn : checks (attempt env 2 (perform env .checkReplication log).2) = checks log + 1 := by
    rw [checks_attempt, checks_perform_check]
  by_cases h1 : env .checkReplication (checks log + 1) = 0
  · -- the second guard succeeds
    rw [wrongTrue_exit_iff env (.inl (by rw [hn]; exact h1)), hn]
    refine iff_of_false (fun hne => hne h1) ?_
    rintro ⟨k, -, hflap⟩
    exact absurd (flapsAt_of_zero env (j := 1) (by omega) h1 hflap).1 (by omega)
  -- both guards fail and the verdict succeeds; the loop ends at its guard in any case
  have h2 : env .checkReplication (checks log + 2) = 0 := by
    rcases h with h | h | h
    · exact absurd h h0
    · exact absurd h h1
    · exact h
  rw [fixLoop_one_ok env (by rw [hn]; exact h1) (by rw [hn]; exact h2),
    wrongTrue_exit_iff env (.inr rfl), checks_verdictLog, hn]
  constructor
  · intro h3
    refine ⟨0, Nat.zero_le c, fun j hj => ?_, h2, h3⟩
    match j with
    | 0 => exact h0
    | 1 => exact h1
  · rintro ⟨k, -, hflap⟩
    obtain ⟨-, rfl⟩ := flapsAt_of_zero env (j := 2) (by omega) h2 hflap
    exact hflap.2.2

/-- **Where the loop goes wrong.** Entered with both attempts and `c` cleanups left, it ends
    well on a failed check exactly when the outcomes flap after at most `c` rounds. -/
theorem fixLoop_wrong_iff (c : ℕ) (log : CallLog) :
    WrongTrue (fixLoop env c 2 log) ↔ ∃ k ≤ c, FlapsAt env (checks log) k := by
  -- induction on the cleanups left: each failed verdict uses up one of them
  induction c generalizing log with
  | zero =>
    by_cases h : env .checkReplication (checks log) = 0 ∨
        env .checkReplication (checks log + 1) = 0 ∨ env .checkReplication (checks log + 2) = 0
    · exact wrongTrue_of_round_ok env h
    · simp only [not_or] at h
      obtain ⟨h0, h1, h2⟩ := h
      rw [fixLoop_two env h0, fixLoop_one_giveUp env (by simpa using h1) (by simpa using h2)]
      refine iff_of_false (fun hw => absurd hw.1 (by simp)) ?_
      rintro ⟨k, hk, hflap⟩
      obtain rfl : k = 0 := Nat.le_zero.mp hk
      exact h2 hflap.2.1
  | succ c ih =>
    by_cases h : env .checkReplication (checks log) = 0 ∨
        env .checkReplication (checks log + 1) = 0 ∨ env .checkReplication (checks log + 2) = 0
    · exact wrongTrue_of_round_ok env h
    · simp only [not_or] at h
      obtain ⟨h0, h1, h2⟩ := h
      rw [fixLoop_two env h0, fixLoop_one_cleanup env (by simpa using h1) (by simpa using h2), ih]
      simp only [checks_cleanup, checks_verdictLog, checks_attempt, checks_perform_check]
      rw [show checks log + 1 + 2 = checks log + 3 by omega]
      constructor
      · rintro ⟨k, hk, hflap⟩
        exact ⟨k + 1, by omega, (flapsAt_succ_iff env h0 h1 h2).mpr hflap⟩
      · rintro ⟨k, hk, hflap⟩
        match k with
        | 0 => exact absurd hflap.2.1 h2
        | k + 1 => exact ⟨k, by omega, (flapsAt_succ_iff env h0 h1 h2).mp hflap⟩

/-! ### The answer of `fix_replication` -/

/-- `true` is returned only on a latest check that succeeded. -/
def TrueMeansChecked : Prop :=
  (fixReplication env).1 = true → lastCheck (fixReplication env).2 = some 0

/-- The log with which `fix_replication` enters its loop. -/
def loopLog : CallLog :=
  (perform env .checkNodes (call env .unblockAllNodes (perform env .checkReplication []).2)).2

@[simp] theorem checks_loopLog : checks (loopLog env) = 1 := by
  rw [loopLog, ← call, checks_call env (by decide), checks_call env (by decide),
    checks_perform_check]
  rfl

theorem checkNodes_outcome :
    (perform env .checkNodes
      (call env .unblockAllNodes (perform env .checkReplication []).2)).1 = env .checkNodes 0 := rfl

/-- A first check that succeeds is all. -/
theorem fixReplication_of_ok (hcheck : env .checkReplication 0 = 0) :
    fixReplication env = (true, (perform env .checkReplication []).2) :=
  if_neg (not_not.mpr hcheck)

/-- With an unreachable node there are no repairs. -/
theorem fixReplication_of_unreachable (hcheck : env .checkReplication 0 ≠ 0)
    (hnodes : env .checkNodes 0 ≠ 0) : fixReplication env = (false, loopLog env) := by
  unfold fixReplication
  dsimp only
  rw [if_pos (show (perform env .checkReplication []).1 ≠ 0 from hcheck), checkNodes_outcome,
    if_pos hnodes]
  rfl

/-- Behind a failed first check and reachable nodes, the answer is the loop's. -/
theorem fixReplication_of_loop (hcheck : env .checkReplication 0 ≠ 0)
    (hnodes : env .checkNodes 0 = 0) {ok : Bool} {log : CallLog}
    (hloop : fixLoop env 2 2 (loopLog env) = (ok, log)) :
    fixReplication env = (ok, if ok then call env .flushHosts log else log) := by
  unfold loopLog at hloop
  unfold fixReplication
  dsimp only
  rw [if_pos (show (perform env .checkReplication []).1 ≠ 0 from hcheck), checkNodes_outcome,
    if_neg (not_not.mpr hnodes), hloop]
  cases ok <;> rfl

/-- So it is wrong where the loop is. -/
theorem trueMeansChecked_iff_loop (hcheck : env .checkReplication 0 ≠ 0)
    (hnodes : env .checkNodes 0 = 0) :
    TrueMeansChecked env ↔ ¬ WrongTrue (fixLoop env 2 2 (loopLog env)) := by
  unfold TrueMeansChecked
  cases hloop : fixLoop env 2 2 (loopLog env) with
  | mk ok log =>
    rw [fixReplication_of_loop env hcheck hnodes hloop]
    cases ok with
    | false => simp [WrongTrue]
    | true =>
      have hflush := lastCheck_call env (show NodeCall.flushHosts ≠ .checkReplication by decide)
      simp [WrongTrue, hflush]

/-- Flapping inside the loop, told by the number of the check that succeeds. -/
theorem flapsAt_one_iff (hcheck : env .checkReplication 0 ≠ 0) (k : ℕ) :
    FlapsAt env 1 k ↔
      (∀ j < 3 * (k + 1), env .checkReplication j ≠ 0) ∧
        env .checkReplication (3 * (k + 1)) = 0 ∧ env .checkReplication (3 * (k + 1) + 1) ≠ 0 := by
  unfold FlapsAt
  rw [show 1 + (3 * k + 2) = 3 * (k + 1) by omega, show 1 + (3 * k + 3) = 3 * (k + 1) + 1 by omega]
  refine and_congr_left fun _ => ⟨fun h j hj => ?_, fun h j hj => h (1 + j) (by omega)⟩
  match j with
  | 0 => exact hcheck
  | j + 1 =>
    have hj' := h j (by omega)
    rwa [Nat.add_comm] at hj'

/-- **When the answer can be trusted.** `true` means that the latest check succeeded exactly
    when it is not the case that the nodes are reachable and the outcomes of the checks,
    counted from 0, fail up to number 3, 6 or 9, succeed there and fail right behind. -/
theorem fix_true_iff :
    TrueMeansChecked env ↔
      ¬ (env .checkNodes 0 = 0 ∧ ∃ k, 1 ≤ k ∧ k ≤ 3 ∧
        (∀ j < 3 * k, env .checkReplication j ≠ 0) ∧
        env .checkReplication (3 * k) = 0 ∧ env .checkReplication (3 * k + 1) ≠ 0) := by
  by_cases hcheck : env .checkReplication 0 = 0
  · -- the first check succeeds and `fix_replication` returns at once
    refine iff_of_true ?_ ?_
    · intro _
      rw [fixReplication_of_ok env hcheck, lastCheck_perform_check]
      exact congrArg some hcheck
    · rintro ⟨-, k, hk, -, hfail, -⟩
      exact hfail 0 (by omega) hcheck
  by_cases hnodes : env .checkNodes 0 = 0
  · rw [trueMeansChecked_iff_loop env hcheck hnodes, fixLoop_wrong_iff, checks_loopLog, not_iff_not]
    constructor
    · rintro ⟨k, hk, hflap⟩
      exact ⟨hnodes, k + 1, by omega, by omega, (flapsAt_one_iff env hcheck k).mp hflap⟩
    · rintro ⟨-, k, hpos, hk, hflap⟩
      obtain ⟨k, rfl⟩ : ∃ k', k = k' + 1 := ⟨k - 1, by omega⟩
      exact ⟨k, by omega, (flapsAt_one_iff env hcheck k).mpr hflap⟩
  · -- a node is unreachable and the answer is `false`
    refine iff_of_true ?_ fun h => hnodes h.1
    intro htrue
    rw [fixReplication_of_unreachable env hcheck hnodes] at htrue
    cases htrue

/-- Replication that only looks repaired once: every check fails except number 3. -/
def flapping : Outcomes
  | .checkReplication, 3 => 0
  | .checkReplication, _ => 1
  | _, _ => 0

/-- `fix_replication` says yes and its latest check has failed. -/
theorem flapping_accepted : ¬ TrueMeansChecked flapping := by
  rw [trueMeansChecked_iff_loop flapping (by decide) rfl, fixLoop_wrong_iff, not_not, checks_loopLog]
  refine ⟨0, by decide, ?_, rfl, by decide⟩
  intro j hj
  match j with
  | 0 => decide
  | 1 => decide

end MaxScaleSystemTest.Nodes
