import MaxScaleSystemTest.Lib.Decimal
import MaxScaleSystemTest.Sql.Query
import MaxScaleSystemTest.Verdict
import Mathlib.Algebra.BigOperators.Ring.Finset
import Mathlib.Algebra.Order.BigOperators.Group.List

namespace MaxScaleSystemTest.Sql

open CString CInt

/-!
# Counting the rows of all results

`execute_query_num_of_rows` stores the number of rows of each result of a query text in an
array of its caller, whose size it does not know.  `execute_query_count_rows` has room for
1024 results and adds the numbers up; `compare_expected` has room for 30 and compares them
with those expected, a query that fails being one without results.

* `executeQueryNumOfRows_spec` — what is stored in an array that is long enough;
* `executeQueryNumOfRows_of_full` — one that is not is left;
* `compareLoop_eq` — the comparison of two arrays;
* `count_rows_exact` — the three functions on results that fit.
-/

/-! ### The functions -/

/-- The number of rows of a result; a result without a result set has none. -/
def rowCount (r : OkResult) : ℕ :=
  match r.resultSet with
  | some res => res.rows.length
  | none => 0

/-- An array of `cap` numbers, and how many of them have been stored; `none` once a number has
    been stored outside the array. -/
abbrev Stored (cap : ℕ) := Option (Vector ℕ cap × ℕ)

/-- `num_of_rows[*i] = N; *i = *i + 1;`. -/
def storeNum {cap : ℕ} (n : ℕ) (stored : Stored cap) : Stored cap :=
  match stored with
  | some (numOfRows, i) => if h : i < cap then some (numOfRows.set i n h, i + 1) else none
  | none => none

/-- The body of the loop of `execute_query_num_of_rows`. -/
def storeRows {cap : ℕ} (conn : Mysql) (stored : Stored cap) : Stored cap :=
  let N :=
    match (mysqlStoreResult conn).1 with
    | some res => res.rows.length
    | none => 0
  storeNum N stored

/-- `execute_query_num_of_rows`, with `num_of_rows` and `*i` afterwards; `none` when a number is
    stored outside the array. -/
def executeQueryNumOfRows {cap : ℕ} (conn : Option Mysql) (sql : Bytes)
    (numOfRows : Vector ℕ cap) : Option (QueryEnd × Vector ℕ cap × ℕ) :=
  let text := sql ++ [nl]
  match conn with
  | none => some (⟨1, none, text ++ ascii "Connection is broken\n"⟩, numOfRows, 0)
  | some conn =>
    let (rc, conn) := mysqlQuery conn sql
    if rc ≠ 0 then
      let message := ascii "Error: can't execute SQL-query: " ++ sql ++ ascii "\n" ++
        conn.lastError ++ ascii "\n\n"
      some (⟨1, some conn, text ++ message⟩, numOfRows, 0)
    else
      let (stored, conn) := drainResults storeRows conn (some (numOfRows, 0))
      stored.map fun (numOfRows, i) => (⟨0, some conn, text⟩, numOfRows, i)

/-- `execute_query_count_rows`; `numOfRows` is what its uninitialised array holds. -/
def executeQueryCountRows (conn : Option Mysql) (sql : Bytes) (numOfRows : Vector ℕ 1024) :
    Option Int32 :=
  (executeQueryNumOfRows conn sql numOfRows).map fun (e, numOfRows, total) =>
    if e.status = 0 then
      -- `i < total && i < 1024`
      (numOfRows.toList.take total).foldl (fun rval n => rval + Int32.ofNat n) 0
    else -1

/-- The loop of `compare_expected` over the `left` indices from `j` on: the first index at which
    the numbers differ, with both of them; `none` when an index is outside an array. -/
def compareLoop (rows expRows : List ℕ) : (left j : ℕ) → Option (Option (ℕ × ℕ × ℕ))
  | 0, _ => some none
  | left + 1, j => do
    let row ← rows[j]?
    let expRow ← expRows[j]?
    if row ≠ expRow then some (some (j, row, expRow)) else compareLoop rows expRows left (j + 1)

/-- What a query is expected to give: `exp_i` numbers in an array that has as many at least. -/
structure Expected where
  expI : ℕ
  expRows : List ℕ
  expI_le : expI ≤ expRows.length

/-- `compare_expected`: its return value and the test object afterwards; `rows` is what its
    uninitialised array holds. -/
def compareExpected (elapsedTime : Bytes → Bytes) (t : TestConnections) (connRwsplit : Option Mysql)
    (sql : Bytes) (exp : Expected) (rows : Vector ℕ 30) : Option (ℤ × TestConnections) := do
  -- the return value is not looked at
  let (_, rows, i) ← executeQueryNumOfRows connRwsplit sql rows
  if i ≠ exp.expI then
    return (1, report elapsedTime t 1 (ascii "Number of result sets is %llu instead of %llu\n")
      (ascii "Number of result sets is " ++ Decimal.ofNat i ++ ascii " instead of " ++
        Decimal.ofNat exp.expI ++ [nl]))
  else
    match ← compareLoop rows.toList exp.expRows i 0 with
    | none => return (0, t)
    | some (j, row, expRow) =>
      return (1, report elapsedTime t 1
        (ascii "For result set %llu number of rows is %llu instead of %llu\n")
        (ascii "For result set " ++ Decimal.ofNat j ++ ascii " number of rows is " ++
          Decimal.ofNat row ++ ascii " instead of " ++ Decimal.ofNat expRow ++ [nl]))

/-! ### What is stored -/

/-- The results of a query text: none when it fails. -/
def resultsOf (conn : Option Mysql) (sql : Bytes) : List OkResult :=
  match conn with
  | none => []
  | some conn => produced ((conn.answer sql).1 :: (conn.answer sql).2)

/-- The query succeeds: there is a connection, and `mysql_query` returns 0. -/
def QuerySucceeds (conn : Option Mysql) (sql : Bytes) : Prop :=
  ∃ c ∈ conn, (c.answer sql).1.Succeeded

/-- The numbers of rows of the results. -/
def countsOf (conn : Option Mysql) (sql : Bytes) : List ℕ := (resultsOf conn sql).map rowCount

section

variable {cap : ℕ}

theorem storeRows_eq {conn : Mysql} {r : OkResult} (h : conn.current = some r)
    (stored : Stored cap) : storeRows conn stored = storeNum (rowCount r) stored := by
  rw [storeRows, mysqlStoreResult, h]
  rfl

/-- **The array.** Numbers for which there is room are stored one behind the other. -/
theorem foldl_storeNum (counts : List ℕ) {numOfRows : Vector ℕ cap} {i : ℕ}
    (hroom : i + counts.length ≤ cap) :
    ∃ after : Vector ℕ cap,
      counts.foldl (fun stored n => storeNum n stored) (some (numOfRows, i)) =
        some (after, i + counts.length) ∧
      after.toList.take (i + counts.length) = numOfRows.toList.take i ++ counts := by
  induction counts generalizing numOfRows i with
  | nil => exact ⟨numOfRows, rfl, by simp⟩
  | cons n counts ih =>
    rw [List.length_cons] at hroom
    have hlt : i < cap := by omega
    obtain ⟨after, hfold, hafter⟩ := @ih (numOfRows.set i n hlt) (i + 1) (by omega)
    have hcount : i + 1 + counts.length = i + (n :: counts).length := by
      rw [List.length_cons]
      omega
    rw [hcount] at hfold hafter
    refine ⟨after, ?_, ?_⟩
    · rw [List.foldl_cons, storeNum, dif_pos hlt]
      exact hfold
    · have hget : (numOfRows.toList.set i n)[i]? = some n := by
        rw [List.getElem?_set_self]
        simpa using hlt
      rw [hafter, Vector.toList_set, List.take_add_one, List.take_set_of_le (le_refl i), hget]
      simp

/-- Numbers for which there is no room are stored outside the array. -/
theorem foldl_storeNum_of_full {counts : List ℕ} {numOfRows : Vector ℕ cap} {i : ℕ} (hi : i ≤ cap)
    (hfull : cap < i + counts.length) :
    counts.foldl (fun stored n => storeNum n stored) (some (numOfRows, i)) = none := by
  have hnone : ∀ ns : List ℕ,
      ns.foldl (fun stored n => storeNum n stored) (none : Stored cap) = none := by
    intro ns
    induction ns with
    | nil => rfl
    | cons n ns ih => exact ih
  induction counts generalizing numOfRows i with
  | nil =>
    rw [List.length_nil] at hfull
    omega
  | cons n counts ih =>
    rw [List.length_cons] at hfull
    rw [List.foldl_cons, storeNum]
    by_cases hlt : i < cap
    · rw [dif_pos hlt]
      exact ih hlt (by omega)
    · rw [dif_neg hlt]
      exact hnone counts

/-- A query that succeeds stores the numbers of all results. -/
theorem executeQueryNumOfRows_of_ok {conn : Mysql} {sql : Bytes} {r : OkResult}
    {rest : List StmtOutcome} (hans : conn.answer sql = (.ok r, rest)) (numOfRows : Vector ℕ cap) :
    ∃ e, e.status = 0 ∧ executeQueryNumOfRows (some conn) sql numOfRows =
      ((countsOf (some conn) sql).foldl (fun stored n => storeNum n stored)
        (some (numOfRows, 0))).map fun (after, i) => (e, after, i) := by
  have hcounts : countsOf (some conn) sql = (r :: produced rest).map rowCount := by
    simp [countsOf, resultsOf, hans, produced]
  have hdrain := drainResults_fold storeRows
    (fun c r hcur (stored : Stored cap) => storeRows_eq hcur stored)
    { conn with current := some r, pending := rest } (some (numOfRows, 0)) rfl
  rw [hcounts, List.foldl_map, ← hdrain]
  simp only [executeQueryNumOfRows, mysqlQuery, hans, ne_eq, not_true_eq_false, if_false]
  exact ⟨_, rfl, rfl⟩

/-- **What is stored.** In an array that is long enough the number of rows of each result is
    stored at its index, and the status tells whether the query has succeeded. -/
theorem executeQueryNumOfRows_spec (conn : Option Mysql) (sql : Bytes) (numOfRows : Vector ℕ cap)
    (hroom : (countsOf conn sql).length ≤ cap) :
    ∃ e after, executeQueryNumOfRows conn sql numOfRows =
        some (e, after, (countsOf conn sql).length) ∧
      after.toList.take (countsOf conn sql).length = countsOf conn sql ∧
      (e.status = 0 ↔ QuerySucceeds conn sql) := by
  match conn with
  | none =>
    refine ⟨_, numOfRows, rfl, rfl, iff_of_false (by simp) ?_⟩
    rintro ⟨c, hc, -⟩
    cases hc
  | some conn =>
    rcases hans : conn.answer sql with ⟨first, rest⟩
    cases first with
    | error msg =>
      have hcounts : countsOf (some conn) sql = [] := by
        simp [countsOf, resultsOf, hans, produced]
      obtain ⟨e, he, hstatus⟩ : ∃ e, executeQueryNumOfRows (some conn) sql numOfRows =
          some (e, numOfRows, 0) ∧ e.status = 1 := by
        simp only [executeQueryNumOfRows, mysqlQuery, hans]
        exact ⟨_, rfl, rfl⟩
      rw [hcounts]
      refine ⟨e, numOfRows, he, rfl, iff_of_false (by simp [hstatus]) ?_⟩
      rintro ⟨c, hc, hfirst⟩
      cases hc
      rw [hans] at hfirst
      exact hfirst
    | ok r =>
      obtain ⟨e, hstatus, hrun⟩ := executeQueryNumOfRows_of_ok hans numOfRows
      obtain ⟨after, hfold, hafter⟩ :=
        @foldl_storeNum cap (countsOf (some conn) sql) numOfRows 0 (by omega)
      rw [hfold, Nat.zero_add, Option.map_some] at hrun
      rw [Nat.zero_add, List.take_zero, List.nil_append] at hafter
      refine ⟨e, after, hrun, hafter, iff_of_true hstatus ⟨conn, rfl, ?_⟩⟩
      rw [hans]
      trivial

/-- An array that is not long enough is left. -/
theorem executeQueryNumOfRows_of_full {conn : Option Mysql} {sql : Bytes}
    (hfull : cap < (countsOf conn sql).length) (numOfRows : Vector ℕ cap) :
    executeQueryNumOfRows conn sql numOfRows = none := by
  match conn with
  | none => exact absurd hfull (Nat.not_lt_zero cap)
  | some conn =>
    rcases hans : conn.answer sql with ⟨first, rest⟩
    cases first with
    | error msg =>
      have hcounts : countsOf (some conn) sql = [] := by
        simp [countsOf, resultsOf, hans, produced]
      rw [hcounts] at hfull
      exact absurd hfull (Nat.not_lt_zero cap)
    | ok r =>
      obtain ⟨e, -, hrun⟩ := executeQueryNumOfRows_of_ok hans numOfRows
      rw [hrun, foldl_storeNum_of_full (Nat.zero_le cap) (by omega), Option.map_none]

end

/-! ### The callers -/

/-- **The sum.** Numbers whose sum is an `int` are added up exactly. -/
theorem foldl_ofNat {counts : List ℕ} (h : counts.sum < 2 ^ 31) :
    counts.foldl (fun rval n => rval + Int32.ofNat n) 0 = Int32.ofNat counts.sum := by
  have hexact : ∀ n ∈ counts, (Int32.ofNat n).toInt = n := by
    intro n hn
    have hle : n ≤ counts.sum := List.le_sum_of_mem hn
    exact Int32.toInt_ofNat_of_lt (by omega)
  have hsum : ((counts.map Int32.ofNat).map Int32.toInt).sum = (counts.sum : ℤ) := by
    have hmap : (counts.map Int32.ofNat).map Int32.toInt = counts.map fun n : ℕ => (n : ℤ) := by
      rw [List.map_map]
      exact List.map_congr_left hexact
    rw [hmap, Nat.cast_list_sum]
  have hfold : (counts.map Int32.ofNat).foldl (· + ·) 0 = Int32.ofNat counts.sum := by
    rw [foldl_add_eq_iff, hsum, Int32.toInt_ofNat_of_lt h]
  rwa [List.foldl_map] at hfold

/-- **The comparison.** Over indices inside both arrays the loop finds no difference exactly when
    there is none. -/
theorem compareLoop_eq {rows expRows : List ℕ} (left j : ℕ) (hrows : j + left ≤ rows.length)
    (hexp : j + left ≤ expRows.length) :
    ∃ difference, compareLoop rows expRows left j = some difference ∧
      (difference = none ↔ (rows.drop j).take left = (expRows.drop j).take left) := by
  induction left generalizing j with
  | zero => exact ⟨none, rfl, by simp⟩
  | succ left ih =>
    have hj : j < rows.length := by omega
    have hj' : j < expRows.length := by omega
    rw [compareLoop, List.getElem?_eq_getElem hj, List.getElem?_eq_getElem hj',
      List.drop_eq_getElem_cons hj, List.drop_eq_getElem_cons hj', List.take_succ_cons,
      List.take_succ_cons]
    simp only [Option.bind_eq_bind, Option.bind_some]
    by_cases hne : rows[j] ≠ expRows[j]
    · rw [if_pos hne]
      refine ⟨some (j, rows[j], expRows[j]), rfl, iff_of_false nofun ?_⟩
      exact fun heq => hne (List.cons.inj heq).1
    · rw [if_neg hne]
      obtain ⟨difference, hloop, hiff⟩ := ih (j + 1) (by omega) (by omega)
      refine ⟨difference, hloop, hiff.trans ?_⟩
      rw [not_not.mp hne, List.cons.injEq]
      exact (and_iff_right rfl).symm

/-- The three functions are right on a query whose results fit: their numbers of rows are stored
    in order; their exact sum is returned if the query succeeds, and -1 only if it fails; and 0 is
    returned exactly when they are those expected. -/
structure CountsRows (conn : Option Mysql) (sql : Bytes) : Prop where
  stores : ∀ {cap : ℕ} (numOfRows : Vector ℕ cap), (countsOf conn sql).length ≤ cap →
    ∃ e after, executeQueryNumOfRows conn sql numOfRows =
        some (e, after, (countsOf conn sql).length) ∧
      ∀ j < (countsOf conn sql).length, after[j]? = (countsOf conn sql)[j]?
  counts : (countsOf conn sql).length ≤ 1024 → (countsOf conn sql).sum < 2 ^ 31 →
    ∀ numOfRows, ∃ rval, executeQueryCountRows conn sql numOfRows = some rval ∧
      (QuerySucceeds conn sql → rval.toInt = (countsOf conn sql).sum) ∧
      (rval = -1 → ¬ QuerySucceeds conn sql)
  compares : (countsOf conn sql).length ≤ 30 → ∀ elapsedTime t exp rows,
    ∃ ret t', compareExpected elapsedTime t conn sql exp rows = some (ret, t') ∧
      (ret = 0 ↔ countsOf conn sql = exp.expRows.take exp.expI)

/-- A sum below `2^31` is returned, and -1 only for a query that fails. -/
theorem executeQueryCountRows_exact {conn : Option Mysql} {sql : Bytes}
    (hroom : (countsOf conn sql).length ≤ 1024) (hsum : (countsOf conn sql).sum < 2 ^ 31)
    (numOfRows : Vector ℕ 1024) :
    ∃ rval, executeQueryCountRows conn sql numOfRows = some rval ∧
      (QuerySucceeds conn sql → rval.toInt = (countsOf conn sql).sum) ∧
      (rval = -1 → ¬ QuerySucceeds conn sql) := by
  obtain ⟨e, after, hrun, hafter, hstatus⟩ := executeQueryNumOfRows_spec conn sql numOfRows hroom
  have hexact : (Int32.ofNat (countsOf conn sql).sum).toInt = (countsOf conn sql).sum :=
    Int32.toInt_ofNat_of_lt hsum
  rw [executeQueryCountRows, hrun, Option.map_some]
  simp only [hafter, foldl_ofNat hsum]
  by_cases hsucceeds : QuerySucceeds conn sql
  · rw [if_pos (hstatus.mpr hsucceeds)]
    refine ⟨_, rfl, fun _ => hexact, fun hminus => ?_⟩
    -- a sum is not negative
    rw [hminus] at hexact
    have hneg : (-1 : Int32).toInt = -1 := rfl
    omega
  · rw [if_neg (mt hstatus.mp hsucceeds)]
    exact ⟨-1, rfl, fun h => absurd h hsucceeds, fun _ => hsucceeds⟩

/-- The counts are accepted exactly if they are the expected ones. -/
theorem compareExpected_exact {conn : Option Mysql} {sql : Bytes}
    (hroom : (countsOf conn sql).length ≤ 30) (elapsedTime : Bytes → Bytes) (t : TestConnections)
    (exp : Expected) (rows : Vector ℕ 30) :
    ∃ ret t', compareExpected elapsedTime t conn sql exp rows = some (ret, t') ∧
      (ret = 0 ↔ countsOf conn sql = exp.expRows.take exp.expI) := by
  obtain ⟨e, after, hrun, hafter, -⟩ := executeQueryNumOfRows_spec conn sql rows hroom
  simp only [compareExpected, hrun, Option.bind_eq_bind, Option.bind_some]
  by_cases hlen : (countsOf conn sql).length = exp.expI
  · rw [if_neg (not_not.mpr hlen)]
    have hafter' : (countsOf conn sql).length ≤ after.toList.length := by simpa using hroom
    have hexp : 0 + (countsOf conn sql).length ≤ exp.expRows.length := by
      rw [Nat.zero_add, hlen]
      exact exp.expI_le
    rw [← Nat.zero_add (countsOf conn sql).length] at hafter'
    obtain ⟨difference, hloop, hiff⟩ := compareLoop_eq (countsOf conn sql).length 0 hafter' hexp
    rw [hloop, Option.bind_some]
    rw [List.drop_zero, List.drop_zero, hafter, hlen] at hiff
    match difference with
    | none => exact ⟨0, t, rfl, iff_of_true rfl (hiff.mp rfl)⟩
    | some (j, row, expRow) =>
      refine ⟨1, _, rfl, iff_of_false one_ne_zero fun heq => ?_⟩
      cases hiff.mpr heq
  · rw [if_pos hlen]
    refine ⟨1, _, rfl, iff_of_false one_ne_zero fun heq => ?_⟩
    rw [heq, List.length_take, Nat.min_eq_left exp.expI_le] at hlen
    exact hlen rfl

/-- **Counting.** For every connection and every query the numbers of rows that fit are stored,
    added up and compared exactly. -/
theorem count_rows_exact (conn : Option Mysql) (sql : Bytes) : CountsRows conn sql where
  stores := by
    intro cap numOfRows hroom
    obtain ⟨e, after, hrun, hafter, -⟩ := executeQueryNumOfRows_spec conn sql numOfRows hroom
    refine ⟨e, after, hrun, fun j hj => ?_⟩
    rw [← Vector.getElem?_toList, ← hafter, List.getElem?_take_of_lt hj]
  counts hroom hsum numOfRows := executeQueryCountRows_exact hroom hsum numOfRows
  compares hroom elapsedTime t exp rows := compareExpected_exact hroom elapsedTime t exp rows

/-- A connection on which every query fails. -/
def failingConn : Mysql where
  answer := fun _ => (.error (ascii "No tables used"), [])
  current := none
  pending := []
  stored := []
  lastError := []

/-- No results are expected. -/
def expectNothing : Expected := ⟨0, [0], by decide⟩

/-- A connection on which every query has 31 results. -/
def manyConn : Mysql where
  answer := fun _ => (.ok ⟨none, 0⟩, List.replicate 30 (.ok ⟨none, 0⟩))
  current := none
  pending := []
  stored := []
  lastError := []

/-- A query that fails compares equal where no results are expected, and the array has no room
    for 31 results. -/
theorem compare_expected_failed :
    ¬ QuerySucceeds (some failingConn) (ascii "SELECT * FROM dual") ∧
      (compareExpected (fun _ => ascii "10.000000") ⟨0, []⟩ (some failingConn)
        (ascii "SELECT * FROM dual") expectNothing (Vector.replicate 30 0)).map Prod.fst = some 0 ∧
      QuerySucceeds (some manyConn) (ascii "CALL multi()") ∧
      compareExpected (fun _ => ascii "10.000000") ⟨0, []⟩ (some manyConn)
        (ascii "CALL multi()") expectNothing (Vector.replicate 30 0) = none := by
  have hmany : QuerySucceeds (some manyConn) (ascii "CALL multi()") := ⟨manyConn, rfl, trivial⟩
  refine ⟨?_, by decide +kernel, hmany, ?_⟩
  · rintro ⟨c, hc, hfirst⟩
    cases hc
    exact hfirst
  · rw [compareExpected, executeQueryNumOfRows_of_full (by decide +kernel)]
    rfl

end MaxScaleSystemTest.Sql
