import MaxScaleSystemTest.Lib.CString

namespace MaxScaleSystemTest.Sql

open CString

/-!
# The MySQL client library, as the test code uses it

The library is not part of the repository; this file states what it documents.  A query
text may hold several statements (connections are opened with `CLIENT_MULTI_STATEMENTS`);
the server runs them in order and stops at the first that fails.  `mysql_query` reports the
first statement, `mysql_next_result` each further one: `0` when another result follows, `-1`
when there is none, `1` when the next statement failed.
-/

/-- A cell of a result set, `none` for SQL NULL. -/
abbrev Cell := Option Bytes

/-- A row, `MYSQL_ROW`. -/
abbrev Row := List Cell

/-- A stored result set, `MYSQL_RES`: every row has one cell for each field. -/
structure ResultSet where
  fields : List Bytes
  rows : List Row
  width : ∀ r ∈ rows, r.length = fields.length

/-- `mysql_fetch_row` on a result set nothing has been fetched from. -/
def ResultSet.firstRow (res : ResultSet) : Option Row := res.rows.head?

/-- What one `mysql_query` and `mysql_store_result` give. -/
inductive QueryReply where
  | failed
  | noResult
  | result (res : ResultSet)

/-! ### Multi-statement texts -/

/-- What a statement that succeeded reports. -/
structure OkResult where
  resultSet : Option ResultSet
  affectedRows : UInt64

/-- The outcome of one statement. -/
inductive StmtOutcome where
  | ok (r : OkResult)
  | error (message : Bytes)

/-- The statement succeeded. -/
def StmtOutcome.Succeeded : StmtOutcome → Prop
  | .ok _ => True
  | .error _ => False

/-- A connection, `MYSQL`.  `answer` is what the server makes of a query text (its first
    statement, then the others), `current` the result that can be stored, `pending` the
    outcomes not reported yet, `stored` the results taken so far. -/
structure Mysql where
  answer : Bytes → StmtOutcome × List StmtOutcome
  current : Option OkResult
  pending : List StmtOutcome
  stored : List OkResult
  lastError : Bytes

/-- `mysql_query`. -/
def mysqlQuery (conn : Mysql) (sql : Bytes) : ℤ × Mysql :=
  match conn.answer sql with
  | (.ok r, rest) => (0, { conn with current := some r, pending := rest })
  -- the server stops at a statement that fails, so nothing is pending behind it
  | (.error msg, _) => (1, { conn with current := none, pending := [], lastError := msg })

/-- `mysql_affected_rows`; a result set that is not stored yet counts as `-1`. -/
def mysqlAffectedRows (conn : Mysql) : UInt64 :=
  match conn.current with
  | some { resultSet := none, affectedRows } => affectedRows
  | _ => 0xFFFFFFFFFFFFFFFF

/-- `mysql_store_result` and `mysql_free_result`: the current result is taken. -/
def mysqlStoreResult (conn : Mysql) : Option ResultSet × Mysql :=
  match conn.current with
  | none => (none, conn)
  | some r => (r.resultSet, { conn with current := none, stored := conn.stored ++ [r] })

/-- `mysql_next_result`. -/
def mysqlNextResult (conn : Mysql) : ℤ × Mysql :=
  match conn.pending with
  | [] => (-1, conn)
  | .ok r :: rest => (0, { conn with current := some r, pending := rest })
  | .error msg :: _ => (1, { conn with current := none, pending := [], lastError := msg })

/-- The results the server produces for a list of statements: up to the first failure. -/
def produced : List StmtOutcome → List OkResult
  | .ok r :: rest => r :: produced rest
  | _ => []

/-- Nothing of the last query text is left to be read. -/
def Mysql.Idle (conn : Mysql) : Prop := conn.current = none ∧ conn.pending = []

theorem mysqlStoreResult_pending (conn : Mysql) :
    (mysqlStoreResult conn).2.pending = conn.pending := by
  unfold mysqlStoreResult
  split <;> rfl

/-- Every further result was pending. -/
theorem mysqlNextResult_pending_lt {conn : Mysql} (h : (mysqlNextResult conn).1 = 0) :
    (mysqlNextResult conn).2.pending.length < conn.pending.length := by
  unfold mysqlNextResult at h ⊢
  split at h
  · cases h
  · rename_i heq
    simp [heq]
  · cases h

end MaxScaleSystemTest.Sql
