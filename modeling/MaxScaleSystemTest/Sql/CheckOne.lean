import MaxScaleSystemTest.Lib.Decimal
import MaxScaleSystemTest.Sql.Query

namespace MaxScaleSystemTest.Sql.CheckOne

open CString

/-!
# `execute_query_check_one`

`execute_query_check_one` sends a query text up to three times, with a second in between, until
one of the results is a single row that begins with what is expected.  The replies may differ from
one attempt to the next.

* `checkResult` — what the inner loop does with a result, `checkLoop` — the attempts;
* `checkResult_foldl` — a result that is as expected is not forgotten;
* `check_one_iff` — which replies make the function return 0.
-/

/-! ### The function -/

/-- `row[0]`: the text of the cell, `none` for SQL NULL.  A row has a cell at least. -/
def firstCell (row : Row) : Cell := row.head?.join

/-- The body of the inner loop, with `r` and what has been printed. -/
def checkResult (expected : Bytes) (conn : Mysql) (acc : ℤ × Bytes) : ℤ × Bytes :=
  match (mysqlStoreResult conn).1 with
  | none => acc
  | some res =>
    match res.rows with
    | [row] =>
      match firstCell row with
      | some cell =>
        -- `strcmp`
        if cut cell = cut expected then
          (0, acc.2 ++ ascii "First field is '" ++ cut cell ++ ascii "' as expected\n")
        else
          (acc.1, acc.2 ++ ascii "First field is '" ++ cut cell ++ ascii ", but expected " ++
            cut expected ++ ascii "'\n")
      | none => (acc.1, acc.2 ++ ascii "First field is NULL\n")
    | rows => (acc.1, acc.2 ++ ascii "Number of rows is not 1, it is " ++
        Decimal.ofNat rows.length ++ [nl])

/-- The outer loop, with `left` attempts to go.  `answers i` is what the server makes of query
    texts at the attempt `i`. -/
def checkLoop (answers : ℕ → Bytes → StmtOutcome × List StmtOutcome) (sql expected : Bytes) :
    (left i : ℕ) → (r : ℤ) → (out : Bytes) → Mysql → QueryEnd
  | 0, _, r, out, conn => ⟨r, some conn, out⟩
  | left + 1, i, r, out, conn =>
    if r ≠ 0 then
      let (rc, conn) := mysqlQuery { conn with answer := answers i } sql
      if rc ≠ 0 then
        let message := ascii "Error: can't execute SQL-query: " ++ sql ++ ascii "\n" ++
          conn.lastError ++ ascii "\n\n"
        ⟨r, some conn, out ++ message⟩
      else
        let ((r, out), conn) := drainResults (checkResult expected) conn (r, out)
        checkLoop answers sql expected left (i + 1) r out conn
    else ⟨r, some conn, out⟩

/-- `execute_query_check_one`. -/
def executeQueryCheckOne (conn : Option Mysql)
    (answers : ℕ → Bytes → StmtOutcome × List StmtOutcome) (sql expected : Bytes) : QueryEnd :=
  match conn with
  | none => ⟨1, none, ascii "Connection is broken\n"⟩
  -- `n_attempts`
  | some conn => checkLoop answers sql expected 3 0 1 [] conn

/-! ### One attempt -/

/-- A single row that begins with what is expected. -/
def AsExpected (expected : Bytes) (r : OkResult) : Prop :=
  ∃ res row cell, r.resultSet = some res ∧ res.rows = [row] ∧ firstCell row = some cell ∧
    cut cell = cut expected

/-- The results of a query text. -/
def results (outcome : StmtOutcome × List StmtOutcome) : List OkResult :=
  produced (outcome.1 :: outcome.2)

/-- An attempt that shows what is expected. -/
def Shows (expected : Bytes) (outcome : StmtOutcome × List StmtOutcome) : Prop :=
  ∃ r ∈ results outcome, AsExpected expected r

/-- What is done at a result depends on the result alone. -/
def checked (expected : Bytes) (r : OkResult) (acc : ℤ × Bytes) : ℤ × Bytes :=
  checkResult expected ⟨fun _ => (.ok r, []), some r, [], [], []⟩ acc

theorem checkResult_eq (expected : Bytes) {conn : Mysql} {r : OkResult}
    (h : conn.current = some r) (acc : ℤ × Bytes) :
    checkResult expected conn acc = checked expected r acc := by
  rw [checked, checkResult, checkResult, mysqlStoreResult, h]
  rfl

/-- A result that is as expected sets `r` to 0. -/
theorem checked_of_asExpected {expected : Bytes} {r : OkResult} (h : AsExpected expected r)
    (acc : ℤ × Bytes) : (checked expected r acc).1 = 0 := by
  obtain ⟨res, row, cell, hset, hrows, hcell, hequal⟩ := h
  simp only [checked, checkResult, mysqlStoreResult, hset, hrows, hcell]
  rw [if_pos hequal]

/-- Any other result leaves it as it is. -/
theorem checked_of_not_asExpected {expected : Bytes} {r : OkResult} (h : ¬ AsExpected expected r)
    (acc : ℤ × Bytes) : (checked expected r acc).1 = acc.1 := by
  simp only [checked, checkResult, mysqlStoreResult]
  cases hset : r.resultSet with
  | none => rfl
  | some res =>
    simp only
    split
    · next row hrows =>
      cases hcell : firstCell row with
      | none => rfl
      | some cell =>
        have hdiffers : cut cell ≠ cut expected := fun hequal =>
          h ⟨res, row, cell, hset, hrows, hcell, hequal⟩
        simp only
        rw [if_neg hdiffers]
    · rfl

/-- A result that is as expected is not forgotten. -/
theorem checked_foldl (expected : Bytes) (rs : List OkResult) (acc : ℤ × Bytes) :
    (rs.foldl (fun acc r => checked expected r acc) acc).1 = 0 ↔
      acc.1 = 0 ∨ ∃ r ∈ rs, AsExpected expected r := by
  induction rs generalizing acc with
  | nil => simp
  | cons r rs ih =>
    rw [List.foldl_cons, ih, List.exists_mem_cons_iff]
    by_cases h : AsExpected expected r
    · simp [checked_of_asExpected h, h]
    · simp [checked_of_not_asExpected h, h]

/-- Other results leave `r` as it is. -/
theorem checked_foldl_of_forall {expected : Bytes} {rs : List OkResult}
    (h : ∀ r ∈ rs, ¬ AsExpected expected r) (acc : ℤ × Bytes) :
    (rs.foldl (fun acc r => checked expected r acc) acc).1 = acc.1 := by
  induction rs generalizing acc with
  | nil => rfl
  | cons r rs ih =>
    rw [List.forall_mem_cons] at h
    rw [List.foldl_cons, ih h.2, checked_of_not_asExpected h.1]

/-- **One attempt** whose query succeeds. -/
theorem attempt_spec (expected : Bytes) (conn : Mysql) {first : OkResult}
    {rest : List StmtOutcome} (out : Bytes) (hcurrent : conn.current = some first)
    (hpending : conn.pending = rest) :
    ∃ r out' conn', drainResults (checkResult expected) conn (1, out) = ((r, out'), conn') ∧
      conn'.Idle ∧ (r = 0 ∧ Shows expected (.ok first, rest) ∨
        r = 1 ∧ ¬ Shows expected (.ok first, rest)) := by
  have hfold := drainResults_fold (checkResult expected)
    (fun conn r hcur acc => checkResult_eq expected hcur acc) conn (1, out) hcurrent
  rw [hpending] at hfold
  obtain ⟨hidle, -⟩ := drainResults_conn (checkResult expected) conn (1, out) hcurrent
  rcases hdrain : drainResults (checkResult expected) conn (1, out) with ⟨⟨r, out'⟩, conn'⟩
  rw [hdrain] at hfold hidle
  refine ⟨r, out', conn', rfl, hidle, ?_⟩
  have hr : r = ((first :: produced rest).foldl (fun acc r => checked expected r acc) (1, out)).1 :=
    congrArg Prod.fst hfold
  rw [hr]
  by_cases hshows : Shows expected (.ok first, rest)
  · left
    exact ⟨(checked_foldl expected _ _).mpr (.inr hshows), hshows⟩
  · right
    refine ⟨checked_foldl_of_forall (fun r hr h => ?_) _, hshows⟩
    exact hshows ⟨r, hr, h⟩

/-! ### The attempts -/

/-- The attempts before the `k`-th one have been made, and this one shows what is expected. -/
def ShownAt (answers : ℕ → Bytes → StmtOutcome × List StmtOutcome) (sql expected : Bytes)
    (i k : ℕ) : Prop :=
  (∀ j ≤ k, (answers (i + j) sql).1.Succeeded) ∧ Shows expected (answers (i + k) sql)

section

variable {answers : ℕ → Bytes → StmtOutcome × List StmtOutcome} {sql expected : Bytes}

/-- A success ends the loop. -/
theorem checkLoop_zero (left i : ℕ) (out : Bytes) (conn : Mysql) :
    checkLoop answers sql expected left i 0 out conn = ⟨0, some conn, out⟩ := by
  cases left with
  | zero => rfl
  | succ left => exact if_neg fun h => h rfl

/-- What is shown behind the first attempt. -/
theorem shownAt_succ_iff (left i : ℕ) :
    (∃ k < left + 1, ShownAt answers sql expected i k) ↔ (answers i sql).1.Succeeded ∧
      (Shows expected (answers i sql) ∨ ∃ k < left, ShownAt answers sql expected (i + 1) k) := by
  have hshift : ∀ j, i + (j + 1) = i + 1 + j := fun j => by omega
  constructor
  · rintro ⟨k, hk, hsucceeded, hshows⟩
    refine ⟨hsucceeded 0 (Nat.zero_le k), ?_⟩
    cases k with
    | zero => exact .inl hshows
    | succ k =>
      refine .inr ⟨k, by omega, fun j hj => ?_, ?_⟩
      · rw [← hshift]
        exact hsucceeded (j + 1) (by omega)
      · rw [← hshift]
        exact hshows
  · rintro ⟨hfirst, hshows | ⟨k, hk, hsucceeded, hshows⟩⟩
    · refine ⟨0, by omega, fun j hj => ?_, hshows⟩
      rw [Nat.le_zero.mp hj]
      exact hfirst
    · refine ⟨k + 1, by omega, fun j hj => ?_, ?_⟩
      · cases j with
        | zero => exact hfirst
        | succ j =>
          rw [hshift]
          exact hsucceeded j (by omega)
      · rw [hshift]
        exact hshows

variable (answers sql expected) in
/-- **The loop.** -/
theorem checkLoop_spec (left i : ℕ) (out : Bytes) (conn : Mysql) (hidle : conn.Idle) :
    ∃ conn' out', conn'.Idle ∧
      (checkLoop answers sql expected left i 1 out conn = ⟨0, some conn', out'⟩ ∧
          (∃ k < left, ShownAt answers sql expected i k) ∨
        checkLoop answers sql expected left i 1 out conn = ⟨1, some conn', out'⟩ ∧
          ¬ ∃ k < left, ShownAt answers sql expected i k) := by
  induction left generalizing i out conn with
  | zero => exact ⟨conn, out, hidle, .inr ⟨rfl, by simp⟩⟩
  | succ left ih =>
    rw [shownAt_succ_iff]
    rw [checkLoop, if_pos one_ne_zero, mysqlQuery]
    rcases hanswer : answers i sql with ⟨first, rest⟩
    cases first with
    | error message =>
      simp only [hanswer, StmtOutcome.Succeeded, false_and, not_false_iff, and_false, false_or]
      exact ⟨_, _, ⟨rfl, rfl⟩, rfl, trivial⟩
    | ok first =>
      obtain ⟨r, out', conn', hdrain, hidle', hr⟩ := attempt_spec expected
        { conn with answer := answers i, current := some first, pending := rest } out rfl rfl
      simp only [hanswer, ne_eq, not_true_eq_false, if_false, hdrain, StmtOutcome.Succeeded,
        true_and]
      rcases hr with ⟨rfl, hshows⟩ | ⟨rfl, hshows⟩
      · exact ⟨conn', out', hidle', .inl ⟨checkLoop_zero left (i + 1) out' conn', .inl hshows⟩⟩
      · simp only [hshows, false_or]
        exact ih (i + 1) out' conn' hidle'

end

/-- **Three attempts.** The function returns 0 exactly when there is a connection and the query
    succeeds at every attempt up to one of the first three at which any of the results is as
    expected; what the other results of that attempt are does not matter.  Otherwise it returns 1,
    and in both cases nothing of the replies is left on the connection. -/
theorem check_one_iff (conn : Option Mysql) (hidle : ∀ c ∈ conn, c.Idle)
    (answers : ℕ → Bytes → StmtOutcome × List StmtOutcome) (sql expected : Bytes) :
    let e := executeQueryCheckOne conn answers sql expected
    (e.status = 0 ↔ conn.isSome ∧ ∃ k < 3, (∀ j ≤ k, (answers j sql).1.Succeeded) ∧
        Shows expected (answers k sql)) ∧
      (e.status = 0 ∨ e.status = 1) ∧ e.conn.isSome = conn.isSome ∧
        ∀ c ∈ e.conn, c.Idle := by
  intro e
  cases conn with
  | none =>
    have hstatus : e = ⟨1, none, ascii "Connection is broken\n"⟩ := rfl
    rw [hstatus]
    exact ⟨iff_of_false one_ne_zero fun h => (nomatch h.1), .inr rfl, rfl, nofun⟩
  | some conn =>
    have hshown : (∃ k < 3, ShownAt answers sql expected 0 k) ↔ (some conn).isSome ∧ ∃ k < 3,
        (∀ j ≤ k, (answers j sql).1.Succeeded) ∧ Shows expected (answers k sql) := by
      simp only [ShownAt, Nat.zero_add, Option.isSome_some, true_and]
    obtain ⟨conn', out', hidle', ⟨he, hk⟩ | ⟨he, hk⟩⟩ :=
      checkLoop_spec answers sql expected 3 0 [] conn (hidle conn rfl)
    · have hstatus : e = ⟨0, some conn', out'⟩ := he
      rw [hstatus]
      exact ⟨⟨fun _ => hshown.mp hk, fun _ => rfl⟩, .inl rfl, rfl,
        fun c hc => Option.some.inj hc ▸ hidle'⟩
    · have hstatus : e = ⟨1, some conn', out'⟩ := he
      rw [hstatus]
      refine ⟨⟨fun h => ?_, fun h => absurd (hshown.mpr h) hk⟩, .inr rfl, rfl,
        fun c hc => Option.some.inj hc ▸ hidle'⟩
      exact absurd h one_ne_zero

/-- The row has not been replicated at the first attempt, and is there at the second one. -/
theorem check_one_iff_second :
    let empty : ResultSet := ⟨[ascii "x1", ascii "fl"], [], nofun⟩
    let one : ResultSet := ⟨[ascii "x1", ascii "fl"], [[some (ascii "112"), some (ascii "10")]],
      by simp⟩
    let answers := fun (i : ℕ) (_ : Bytes) =>
      (StmtOutcome.ok ⟨some (if i = 0 then empty else one), 0⟩, ([] : List StmtOutcome))
    (executeQueryCheckOne (some ⟨answers 0, none, [], [], []⟩) answers
      (ascii "SELECT * FROM t1 WHERE fl=10") (ascii "112")).status = 0 := by
  intro empty one answers
  have hidle : ∀ c ∈ some (Mysql.mk (answers 0) none [] [] []), c.Idle :=
    fun c hc => Option.some.inj hc ▸ ⟨rfl, rfl⟩
  refine (check_one_iff _ hidle answers _ _).1.mpr ⟨rfl, ?_⟩
  refine ⟨1, by decide, fun j _ => trivial, ⟨some one, 0⟩, List.mem_singleton_self _, ?_⟩
  exact ⟨one, _, ascii "112", rfl, rfl, rfl, rfl⟩

end MaxScaleSystemTest.Sql.CheckOne
