import MaxScaleSystemTest.Nodes.FixReplication
import Mathlib.Algebra.Ring.Nat
import Mathlib.Data.Prod.Lex

namespace MaxScaleSystemTest.Nodes

/-!
# The budget of `fix_replication`

The loop of `fix_replication` counts its attempts down and sets them back to 2 with each
cleanup, of which there are two.

* `fixTurn` — one turn of the loop;
* `fixTurn_decreases` — it decreases (cleanups left, attempts left) in lexicographic order;
* `cost_fixLoop_le` — what the calls of the loop cost at most, for any prices;
* `fix_replication_budget` — the bounds on the calls of `fix_replication`.
-/

/-- What one turn of the loop leads to: another turn with new counters, or the end. -/
inductive Turn where
  | again (attemptsWithCleanup attempts : ℕ) (log : CallLog)
  | done (answer : Bool) (log : CallLog)

/-- One turn of the `while` loop, from its guard to its end. -/
def fixTurn (env : Outcomes) (attemptsWithCleanup attempts : ℕ) (log : CallLog) : Turn :=
  let guard := perform env .checkReplication log
  if guard.1 ≠ 0 ∧ 0 < attempts then
    let log := attempt env attempts guard.2
    if attempts - 1 = 0 then
      let verdict := perform env .checkReplication log
      if verdict.1 ≠ 0 then
        if 0 < attemptsWithCleanup then
          .again (attemptsWithCleanup - 1) 2 (cleanup env verdict.2)
        else .done false verdict.2
      else .again attemptsWithCleanup (attempts - 1) verdict.2
    else .again attemptsWithCleanup (attempts - 1) log
  else .done true guard.2

variable (env : Outcomes)

/-- The loop takes one turn after the other. -/
theorem fixLoop_eq_turn (c a : ℕ) (log : CallLog) :
    fixLoop env c a log =
      match fixTurn env c a log with
      | .again c' a' log' => fixLoop env c' a' log'
      | .done answer log' => (answer, log') := by
  rw [fixLoop, fixTurn]
  dsimp only
  split_ifs <;> rfl

/-- What another turn can start with: an attempt spent, or a cleanup spent and the attempts
    set back to 2. -/
theorem fixTurn_again_cases {c a c' a' : ℕ} {log log' : CallLog}
    (h : fixTurn env c a log = .again c' a' log') :
    (c' = c ∧ a = a' + 1 ∧
        (log' = attempt env a (perform env .checkReplication log).2 ∨
          log' = (perform env .checkReplication
            (attempt env a (perform env .checkReplication log).2)).2)) ∨
      (c = c' + 1 ∧ a = 1 ∧ a' = 2 ∧
        log' = cleanup env (perform env .checkReplication
          (attempt env a (perform env .checkReplication log).2)).2) := by
  unfold fixTurn at h
  dsimp only at h
  split_ifs at h with hguard hlast hverdict hc
  · cases h
    exact .inr ⟨by omega, by omega, rfl, rfl⟩
  · cases h
    exact .inl ⟨rfl, by omega, .inr rfl⟩
  · cases h
    exact .inl ⟨rfl, by omega, .inl rfl⟩

/-- What the loop can end with: a guard, or a verdict behind the last attempt. -/
theorem fixTurn_done_cases {c a : ℕ} {log log' : CallLog} {answer : Bool}
    (h : fixTurn env c a log = .done answer log') :
    log' = (perform env .checkReplication log).2 ∨
      (a = 1 ∧ log' = (perform env .checkReplication
        (attempt env a (perform env .checkReplication log).2)).2) := by
  unfold fixTurn at h
  dsimp only at h
  split_ifs at h with hguard hlast hverdict hc
  · cases h
    exact .inr ⟨by omega, rfl⟩
  · cases h
    exact .inl rfl

/-- **The measure.** Every turn that is followed by another one decreases the pair (cleanups
    left, attempts left) in lexicographic order. -/
theorem fixTurn_decreases {c a c' a' : ℕ} {log log' : CallLog}
    (h : fixTurn env c a log = .again c' a' log') : toLex (c', a') < toLex (c, a) := by
  rw [Prod.Lex.toLex_lt_toLex]
  show c' < c ∨ c' = c ∧ a' < a
  rcases fixTurn_again_cases env h with ⟨hc, ha, -⟩ | ⟨hc, -, -, -⟩
  · exact .inr ⟨hc, by omega⟩
  · exact .inl (by omega)

/-! ### What the calls cost -/

/-- What the calls of a log cost, at a price for each kind of call. -/
def cost (price : NodeCall → ℕ) (log : CallLog) : ℕ := (log.map fun entry => price entry.1).sum

variable (price : NodeCall → ℕ)

@[simp] theorem cost_perform (c : NodeCall) (log : CallLog) :
    cost price (perform env c log).2 = price c + cost price log := rfl

@[simp] theorem cost_call (c : NodeCall) (log : CallLog) :
    cost price (call env c log) = price c + cost price log := rfl

/-- The number of calls is what they cost at the price 1. -/
theorem cost_one (log : CallLog) : cost (fun _ => 1) log = log.length := by
  unfold cost
  rw [List.map_const', List.sum_replicate_nat, Nat.mul_one]

/-- The number of calls of one kind is what they cost when the others are for free. -/
theorem cost_single (c : NodeCall) (log : CallLog) :
    cost (fun d => if d = c then 1 else 0) log = timesCalled c log := by
  induction log with
  | nil => rfl
  | cons entry log ih =>
    have hcost : cost (fun d => if d = c then 1 else 0) (entry :: log)
        = (if entry.1 = c then 1 else 0) + cost (fun d => if d = c then 1 else 0) log := rfl
    rw [hcost, ih, timesCalled, timesCalled, List.countP_cons, Nat.add_comm]
    simp

/-- An attempt with the check before it and the verdict behind it. -/
def attemptPrice : ℕ :=
  2 * price .checkReplication + price .stopNodes + price .startReplication + price .closeConnections

/-- A cleanup. -/
def cleanupPrice : ℕ :=
  price .stopNodes + price .cleanupDbNodes + 2 * price (.sleep 30) + price .startReplication

theorem cost_attempt_le (a : ℕ) (log : CallLog) :
    cost price (attempt env a log) + 2 * price .checkReplication
      ≤ cost price log + attemptPrice price := by
  unfold attempt attemptPrice
  dsimp only
  split_ifs <;> simp only [cost_call] <;> omega

theorem cost_cleanup (log : CallLog) :
    cost price (cleanup env log) = cost price log + cleanupPrice price := by
  unfold cleanup cleanupPrice
  simp only [cost_call]
  omega

/-- What the loop can cost with these counters: its attempts, for each cleanup the cleanup and
    two attempts more, and the guard that ends it. -/
def loopPrice (c a : ℕ) : ℕ :=
  price .checkReplication + a * attemptPrice price +
    c * (cleanupPrice price + 2 * attemptPrice price)

/-- **Step.** A turn costs no more than the counters go down. -/
theorem cost_fixTurn_again {c a c' a' : ℕ} {log log' : CallLog}
    (h : fixTurn env c a log = .again c' a' log') :
    cost price log' + loopPrice price c' a' ≤ cost price log + loopPrice price c a := by
  have hattempt := cost_attempt_le env price a (perform env .checkReplication log).2
  rw [cost_perform] at hattempt
  unfold loopPrice
  rcases fixTurn_again_cases env h with ⟨rfl, rfl, rfl | rfl⟩ | ⟨rfl, rfl, rfl, rfl⟩
  · rw [Nat.add_one_mul a']
    omega
  · rw [Nat.add_one_mul a', cost_perform]
    omega
  · rw [Nat.add_one_mul c', cost_cleanup, cost_perform]
    omega

theorem cost_fixTurn_done {c a : ℕ} {log log' : CallLog} {answer : Bool}
    (h : fixTurn env c a log = .done answer log') :
    cost price log' ≤ cost price log + loopPrice price c a := by
  unfold loopPrice
  rcases fixTurn_done_cases env h with rfl | ⟨rfl, rfl⟩
  · rw [cost_perform]
    omega
  · have hattempt := cost_attempt_le env price 1 (perform env .checkReplication log).2
    rw [cost_perform] at hattempt
    rw [cost_perform, Nat.one_mul]
    omega

/-- **Run.** The calls of the loop cost no more than its counters allow. -/
theorem cost_fixLoop_le (c a : ℕ) (log : CallLog) :
    cost price (fixLoop env c a log).2 ≤ cost price log + loopPrice price c a := by
  -- induction on the measure, as the loop itself
  induction hm : toLex (c, a) using WellFoundedLT.induction generalizing c a log with
  | ind m ih =>
    subst hm
    rw [fixLoop_eq_turn]
    cases hturn : fixTurn env c a log with
    | again c' a' log' =>
      have hrest := ih _ (fixTurn_decreases env hturn) c' a' log' rfl
      have hstep := cost_fixTurn_again env price hturn
      show cost price (fixLoop env c' a' log').2 ≤ _
      omega
    | done answer log' => exact cost_fixTurn_done env price hturn

/-- The calls of `fix_replication` around its loop. -/
theorem cost_fixReplication_le :
    cost price (fixReplication env).2 ≤
      price .checkReplication + price .unblockAllNodes + price .checkNodes + loopPrice price 2 2
        + price .flushHosts := by
  have hlog : cost price (loopLog env)
      = price .checkNodes + (price .unblockAllNodes + price .checkReplication) := rfl
  have hfirst : cost price (perform env .checkReplication []).2 = price .checkReplication := rfl
  by_cases hcheck : env .checkReplication 0 = 0
  · rw [fixReplication_of_ok env hcheck, hfirst]
    omega
  · by_cases hnodes : env .checkNodes 0 = 0
    · cases hend : fixLoop env 2 2 (loopLog env) with
      | mk ok log =>
        have hloop : cost price log ≤ cost price (loopLog env) + loopPrice price 2 2 := by
          have hrun := cost_fixLoop_le env price 2 2 (loopLog env)
          rw [hend] at hrun
          exact hrun
        rw [fixReplication_of_loop env hcheck hnodes hend]
        cases ok with
        | false =>
          show cost price log ≤ _
          omega
        | true =>
          show cost price (call env .flushHosts log) ≤ _
          rw [cost_call]
          omega
    · rw [fixReplication_of_unreachable env hcheck hnodes]
      show cost price (loopLog env) ≤ _
      omega

/-! ### The budget -/

/-- What `fix_replication` can spend on a sequence of outcomes, and why it comes to an end:
    its loop takes turns that decrease (cleanups left, attempts left). -/
structure WithinBudget : Prop where
  starts : timesCalled .startReplication (fixReplication env).2 ≤ 8
  cleanups : timesCalled .cleanupDbNodes (fixReplication env).2 ≤ 2
  calls : (fixReplication env).2.length ≤ 45
  turns : ∀ c a log, fixLoop env c a log =
    match fixTurn env c a log with
    | .again c' a' log' => fixLoop env c' a' log'
    | .done answer log' => (answer, log')
  decreases : ∀ c a c' a' log log',
    fixTurn env c a log = .again c' a' log' → toLex (c', a') < toLex (c, a)

/-- **The budget.** Whatever the outcomes of its calls, `fix_replication` starts replication
    at most 8 times, cleans up the nodes at most twice and makes at most 45 calls, by the
    decreasing pair of its counters. -/
theorem fix_replication_budget : WithinBudget env where
  starts := by
    have hcost := cost_fixReplication_le env fun d => if d = .startReplication then 1 else 0
    rw [cost_single] at hcost
    exact hcost
  cleanups := by
    have hcost := cost_fixReplication_le env fun d => if d = .cleanupDbNodes then 1 else 0
    rw [cost_single] at hcost
    exact hcost
  calls := by
    have hcost := cost_fixReplication_le env fun _ => 1
    rw [cost_one] at hcost
    exact hcost
  turns := fixLoop_eq_turn env
  decreases := fun _ _ _ _ _ _ => fixTurn_decreases env

end MaxScaleSystemTest.Nodes
