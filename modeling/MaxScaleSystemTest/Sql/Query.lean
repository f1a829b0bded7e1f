import MaxScaleSystemTest.Sql.Client

namespace MaxScaleSystemTest.Sql

open CString

/-!
# Running a query text

`execute_query1` and `execute_query_affected_rows` send a text and take all its results in
a do/while loop over `mysql_next_result`.

* `drainResults` — the loop, with what it does at each result as a parameter.
* `drainResults_conn` — it takes every result the server produces and leaves the connection
  idle.
* `execute_correct_iff` — the returned status is right exactly when no statement after the
  first fails: the loop ends the same way on "no more results" and on "the next statement
  failed".
-/

/-- The do/while loop over the results of a text: `visit` is done with the connection as it
    stands before each result is stored. -/
def drainResults {β : Type*} (visit : Mysql → β → β) (conn : Mysql) (b : β) : β × Mysql :=
  let next := mysqlNextResult (mysqlStoreResult conn).2
  if _hnext : next.1 = 0 then drainResults visit next.2 (visit conn b)
  else (visit conn b, next.2)
termination_by conn.pending.length
decreasing_by
  have hlt := mysqlNextResult_pending_lt _hnext
  rwa [mysqlStoreResult_pending] at hlt

/-- What a query helper returns: its status, the connection afterwards, what it printed. -/
structure QueryEnd where
  status : ℤ
  conn : Option Mysql
  stdout : Bytes

/-- `execute_query1`. -/
def executeQuery1 (conn : Option Mysql) (sql : Bytes) (silent : Bool) : QueryEnd :=
  match conn with
  | none => ⟨1, none, if silent then [] else ascii "Connection is broken\n"⟩
  | some conn =>
    let (rc, conn) := mysqlQuery conn sql
    if rc ≠ 0 then
      -- the text is printed with `%.60s`
      let message := ascii "Error: can't execute SQL-query: " ++ sql.take 60 ++ ascii "\n" ++
        conn.lastError ++ ascii "\n\n"
      ⟨1, some conn, if silent then [] else message⟩
    else
      -- whatever ended the loop, the status is 0
      let (_, conn) := drainResults (fun _ u => u) conn ()
      ⟨0, some conn, []⟩

/-- `execute_query_silent`. -/
def executeQuerySilent (conn : Option Mysql) (sql : Bytes) : QueryEnd :=
  executeQuery1 conn sql true

/-- `execute_query_affected_rows`; the last component is `*affected_rows` afterwards. -/
def executeQueryAffectedRows (conn : Option Mysql) (sql : Bytes) (affectedRows : UInt64) :
    QueryEnd × UInt64 :=
  match conn with
  | none => (⟨1, none, ascii "Connection is broken\n"⟩, affectedRows)
  | some conn =>
    let (rc, conn) := mysqlQuery conn sql
    if rc ≠ 0 then
      let message := ascii "Error: can't execute SQL-query: " ++ sql ++ ascii "\n" ++
        conn.lastError ++ ascii "\n\n"
      (⟨1, some conn, message⟩, affectedRows)
    else
      let (affectedRows, conn) := drainResults (fun c _ => mysqlAffectedRows c) conn affectedRows
      (⟨0, some conn, []⟩, affectedRows)

/-! ### The loop -/

section Drain

variable {β : Type*} (visit : Mysql → β → β)

/-- The loop ends when nothing is pending, and also when the next statement failed. -/
theorem drainResults_of_last {conn : Mysql} {r : OkResult} (b : β) (hcur : conn.current = some r)
    (hlast : ∀ r' rest, conn.pending ≠ .ok r' :: rest) :
    (drainResults visit conn b).2.Idle ∧
      (drainResults visit conn b).2.stored = conn.stored ++ [r] := by
  rw [drainResults]
  cases hp : conn.pending with
  | nil => simp [mysqlStoreResult, mysqlNextResult, hcur, hp, Mysql.Idle]
  | cons o rest =>
    cases o with
    | ok r' => exact absurd hp (hlast r' rest)
    | error msg => simp [mysqlStoreResult, mysqlNextResult, hcur, hp, Mysql.Idle]

/-- While a result follows, the loop goes on behind it. -/
theorem drainResults_of_next {conn : Mysql} {r r' : OkResult} {rest : List StmtOutcome} (b : β)
    (hcur : conn.current = some r) (hp : conn.pending = .ok r' :: rest) :
    drainResults visit conn b = drainResults visit
      { conn with current := some r', pending := rest, stored := conn.stored ++ [r] }
      (visit conn b) := by
  rw [drainResults]
  simp [mysqlStoreResult, mysqlNextResult, hcur, hp]

/-- **Every produced result is taken once, in order, and nothing is left.** -/
theorem drainResults_conn (conn : Mysql) {r : OkResult} (b : β) (hcur : conn.current = some r) :
    (drainResults visit conn b).2.Idle ∧
      (drainResults visit conn b).2.stored = conn.stored ++ r :: produced conn.pending := by
  -- induction on the outcomes still to be reported
  induction hp : conn.pending generalizing conn r b with
  | nil =>
    have h := drainResults_of_last visit b hcur (by simp [hp])
    simpa [produced] using h
  | cons o rest ih =>
    cases o with
    | error msg =>
      have h := drainResults_of_last visit b hcur (by simp [hp])
      simpa [produced] using h
    | ok r' =>
      rw [drainResults_of_next visit b hcur hp]
      have h := ih ⟨conn.answer, some r', rest, conn.stored ++ [r], conn.lastError⟩
        (visit conn b) rfl rfl
      simpa [produced, List.append_assoc] using h

/-- What is done at the results depends on them alone: the loop folds over all that are
    produced. -/
theorem drainResults_fold {f : OkResult → β → β}
    (hvisit : ∀ conn r, conn.current = some r → ∀ b, visit conn b = f r b) (conn : Mysql)
    {r : OkResult} (b : β) (hcur : conn.current = some r) :
    (drainResults visit conn b).1 =
      (r :: produced conn.pending).foldl (fun b r => f r b) b := by
  induction hp : conn.pending generalizing conn r b with
  | nil =>
    rw [drainResults]
    simp [mysqlStoreResult, mysqlNextResult, hcur, hp, produced, hvisit conn r hcur]
  | cons o rest ih =>
    cases o with
    | error msg =>
      rw [drainResults]
      simp [mysqlStoreResult, mysqlNextResult, hcur, hp, produced, hvisit conn r hcur]
    | ok r' =>
      rw [drainResults_of_next visit b hcur hp, hvisit conn r hcur]
      exact ih ⟨conn.answer, some r', rest, conn.stored ++ [r], conn.lastError⟩ (f r b) rfl rfl

end Drain

/-! ### What the status says -/

/-- The contract of a query helper on the text `sql`, whose statements have the outcomes
    `conn.answer sql`: status zero if and only if every statement succeeded, every result
    the server produced taken exactly once, nothing left behind. -/
def ExecutesText (conn : Mysql) (sql : Bytes) (e : QueryEnd) : Prop :=
  let script := (conn.answer sql).1 :: (conn.answer sql).2
  (e.status = 0 ↔ ∀ o ∈ script, o.Succeeded) ∧
    ∃ conn', e.conn = some conn' ∧ conn'.Idle ∧ conn'.stored = conn.stored ++ produced script

/-- The loops never miss a result, and the status tells how the first statement ended. -/
theorem executeQuery1_spec (conn : Mysql) (sql : Bytes) (silent : Bool) :
    ((executeQuery1 (some conn) sql silent).status = 0 ↔ (conn.answer sql).1.Succeeded) ∧
      ∃ conn', (executeQuery1 (some conn) sql silent).conn = some conn' ∧ conn'.Idle ∧
        conn'.stored = conn.stored ++ produced ((conn.answer sql).1 :: (conn.answer sql).2) := by
  rcases hans : conn.answer sql with ⟨first, rest⟩
  cases first with
  | error msg => simp [executeQuery1, mysqlQuery, hans, StmtOutcome.Succeeded, produced, Mysql.Idle]
  | ok r =>
    have hdrain := drainResults_conn (fun _ (u : Unit) => u)
      { conn with current := some r, pending := rest } () rfl
    simpa [executeQuery1, mysqlQuery, hans, StmtOutcome.Succeeded, produced] using hdrain

theorem executeQueryAffectedRows_spec (conn : Mysql) (sql : Bytes) (n : UInt64) :
    ((executeQueryAffectedRows (some conn) sql n).1.status = 0 ↔ (conn.answer sql).1.Succeeded) ∧
      ∃ conn', (executeQueryAffectedRows (some conn) sql n).1.conn = some conn' ∧ conn'.Idle ∧
        conn'.stored = conn.stored ++ produced ((conn.answer sql).1 :: (conn.answer sql).2) := by
  rcases hans : conn.answer sql with ⟨first, rest⟩
  cases first with
  | error msg =>
    simp [executeQueryAffectedRows, mysqlQuery, hans, StmtOutcome.Succeeded, produced, Mysql.Idle]
  | ok r =>
    have hdrain := drainResults_conn (fun c (_ : UInt64) => mysqlAffectedRows c)
      { conn with current := some r, pending := rest } n rfl
    simpa [executeQueryAffectedRows, mysqlQuery, hans, StmtOutcome.Succeeded, produced] using hdrain

/-- A helper whose status only tells how the first statement ended keeps its contract
    exactly when no later statement fails behind a first that succeeded. -/
theorem executesText_iff_of_first {conn : Mysql} {sql : Bytes} {e : QueryEnd}
    (hspec : (e.status = 0 ↔ (conn.answer sql).1.Succeeded) ∧
      ∃ conn', e.conn = some conn' ∧ conn'.Idle ∧
        conn'.stored = conn.stored ++ produced ((conn.answer sql).1 :: (conn.answer sql).2)) :
    ExecutesText conn sql e ↔
      ((conn.answer sql).1.Succeeded → ∀ o ∈ (conn.answer sql).2, o.Succeeded) := by
  obtain ⟨hstatus, hconn⟩ := hspec
  constructor
  · rintro ⟨hall, -⟩ hfirst o ho
    exact hall.mp (hstatus.mpr hfirst) o (List.mem_cons_of_mem _ ho)
  · -- the first outcome decides, since the others follow it
    intro hrest
    refine ⟨⟨fun h => ?_, fun h => ?_⟩, hconn⟩
    · have hfirst := hstatus.mp h
      exact List.forall_mem_cons.mpr ⟨hfirst, hrest hfirst⟩
    · exact hstatus.mpr (h _ (List.mem_cons_self ..))

/-- **Both helpers report failures of the first statement only.** They keep their contract
    exactly for the texts whose first statement fails or whose other statements all
    succeed. -/
theorem execute_correct_iff (conn : Mysql) (sql : Bytes) (silent : Bool) (n : UInt64) :
    (ExecutesText conn sql (executeQuery1 (some conn) sql silent) ↔
      ((conn.answer sql).1.Succeeded → ∀ o ∈ (conn.answer sql).2, o.Succeeded)) ∧
    (ExecutesText conn sql (executeQueryAffectedRows (some conn) sql n).1 ↔
      ((conn.answer sql).1.Succeeded → ∀ o ∈ (conn.answer sql).2, o.Succeeded)) :=
  ⟨executesText_iff_of_first (executeQuery1_spec conn sql silent),
    executesText_iff_of_first (executeQueryAffectedRows_spec conn sql n)⟩

/-- A connection on which `change master to …` succeeds and the `start slave` behind it
    fails. -/
def halfConfigured : Mysql where
  answer := fun _ => (.ok ⟨none, 0⟩,
    [.error (ascii "This operation requires a running slave")])
  current := none
  pending := []
  stored := []
  lastError := []

/-- The text of `setup_slave`, with its parameters filled in. -/
def setupSlave : Bytes :=
  ascii "change master to MASTER_HOST='192.168.122.105', MASTER_USER='repl', " ++
  ascii "MASTER_PASSWORD='repl', MASTER_LOG_FILE='mar-bin.000001', MASTER_LOG_POS=310, " ++
  ascii "MASTER_PORT=3306; start slave;"

/-- The failed `start slave` is reported as success. -/
theorem half_configured_succeeds :
    ¬ ExecutesText halfConfigured setupSlave (executeQuery1 (some halfConfigured) setupSlave true) ∧
    ¬ ExecutesText halfConfigured setupSlave
      (executeQueryAffectedRows (some halfConfigured) setupSlave 0).1 := by
  have hfirst : (halfConfigured.answer setupSlave).1.Succeeded := trivial
  have hsecond : ¬ ∀ o ∈ (halfConfigured.answer setupSlave).2, o.Succeeded := by
    intro h
    exact h _ (List.mem_singleton.mpr rfl)
  constructor
  · rintro ⟨hall, -⟩
    have hzero := (executeQuery1_spec halfConfigured setupSlave true).1.mpr hfirst
    exact hsecond fun o ho => hall.mp hzero o (List.mem_cons_of_mem _ ho)
  · rintro ⟨hall, -⟩
    have hzero := (executeQueryAffectedRows_spec halfConfigured setupSlave 0).1.mpr hfirst
    exact hsecond fun o ho => hall.mp hzero o (List.mem_cons_of_mem _ ho)

end MaxScaleSystemTest.Sql
