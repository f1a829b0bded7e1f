import MaxScaleSystemTest.Lib.CInt
import MaxScaleSystemTest.Lib.Decimal
import MaxScaleSystemTest.Sql.Client

namespace MaxScaleSystemTest.Sql

open CString CInt

/-!
# Checking the rows of a reply

`execute_select_query_and_check` repeats a query, up to 100 times, until the reply has the
number of rows that is expected, and then compares the first cell of each row with the row's
number.

* `attempts_of_result`, `attempts_of_noResult` — one attempt;
* `attempts_of_match`, `attempts_of_mismatch` — the loop over the attempts;
* `checkRows_ofInt` — the loop over rows of printed numbers.
-/

/-- The variables of the loop over the attempts: `rows_from_select`, `res` and
    `test_result`. -/
structure Attempt where
  rowsFromSelect : ℕ
  res : Option ResultSet
  testResult : ℤ

section Attempts

variable {S : Type*} (query : S → QueryReply × S) (rows : ℕ)

/-- The loop over the attempts, of which `left` may still be made. -/
def attempts : (left : ℕ) → S → Attempt → Attempt × S
  | 0, s, a => (a, s)
  | left + 1, s, a =>
    if a.rowsFromSelect ≠ rows then
      match query s with
      | (.result res, s) =>
        attempts left s { a with rowsFromSelect := res.rows.length, res := some res }
      -- no result: the number of rows stays as it was
      | (_, s) => attempts left s { a with res := none, testResult := 1 }
    else (a, s)

/-- The scans of further cells of a row; `none` for a NULL cell, which `sscanf` is handed. -/
def scanCells : Row → (intRes : UInt64) → Option UInt64
  | [], intRes => some intRes
  | none :: _, _ => none
  | some text :: cells, intRes => scanCells cells ((Decimal.scanUnsigned text).getD intRes)

/-- The cells of row `row_i`: does the first hold its number?  With it the last number
    scanned, which stays in `int_res`. -/
def checkRow (row : Row) (rowI : ℕ) (intRes : UInt64) : Option (Bool × UInt64) :=
  match row with
  | [] => some (true, intRes)
  | none :: _ => none
  | some text :: cells =>
    let intRes := (Decimal.scanUnsigned text).getD intRes
    (scanCells cells intRes).map fun last => (intRes.toNat = rowI, last)

/-- The loop over the rows. -/
def checkRows : List Row → (rowI : ℕ) → (intRes : UInt64) → (testResult : ℤ) → Option ℤ
  | [], _, _, testResult => some testResult
  | row :: rows, rowI, intRes, testResult =>
    match checkRow row rowI intRes with
    | none => none
    | some (right, intRes) => checkRows rows (rowI + 1) intRes (if right then testResult else 1)

/-- `execute_select_query_and_check` on a connection that is open; `intRes` is what its
    uninitialised variable holds.  `none` when it reads through a NULL pointer. -/
def executeSelectQueryAndCheck (intRes : UInt64) (s : S) : Option (ℤ × S) :=
  let (a, s) := attempts query rows 100 s ⟨0, none, 0⟩
  if a.rowsFromSelect ≠ rows then some (1, s)
  else
    match a.res with
    -- with no rows expected the loop is skipped, and `res` is never set
    | none => none
    | some res =>
      let testResult := if res.fields.length ≠ 2 then 1 else a.testResult
      (checkRows res.rows 0 intRes testResult).map fun testResult => (testResult, s)

/-! ### The loop over the attempts -/

variable {query rows}

/-- After a reply with a result set the loop goes on with its number of rows. -/
theorem attempts_of_result {s : S} {a : Attempt} {res : ResultSet} (left : ℕ)
    (ha : a.rowsFromSelect ≠ rows) (hreply : (query s).1 = .result res) :
    attempts query rows (left + 1) s a = attempts query rows left (query s).2
      { a with rowsFromSelect := res.rows.length, res := some res } := by
  have hquery : query s = (.result res, (query s).2) := Prod.ext hreply rfl
  rw [attempts, if_pos ha, hquery]

/-- A reply without a result set is noted, and the loop goes on. -/
theorem attempts_of_noResult {s : S} {a : Attempt} (left : ℕ) (ha : a.rowsFromSelect ≠ rows)
    (hreply : ∀ res, (query s).1 ≠ .result res) :
    attempts query rows (left + 1) s a =
      attempts query rows left (query s).2 { a with res := none, testResult := 1 } := by
  rw [attempts, if_pos ha]
  match hquery : query s with
  | (.result res, s') => exact absurd (congrArg Prod.fst hquery) (hreply res)
  | (.failed, s') | (.noResult, s') => rfl

/-- A reply with the expected number of rows ends the loop. -/
theorem attempts_of_match {s : S} {a : Attempt} {res : ResultSet} (left : ℕ)
    (hreply : (query s).1 = .result res) (hrows : res.rows.length = rows)
    (ha : a.rowsFromSelect ≠ rows) :
    attempts query rows (left + 1) s a = (⟨rows, some res, a.testResult⟩, (query s).2) := by
  have hover : ∀ (b : Attempt) (s' : S), b.rowsFromSelect = rows →
      attempts query rows left s' b = (b, s') := by
    intro b s' hb
    match left with
    | 0 => rfl
    | left + 1 => rw [attempts, if_neg (not_not_intro hb)]
  rw [attempts_of_result left ha hreply, hover _ _ hrows, hrows]

/-- While no reply has the expected number of rows the loop goes on to its end. -/
theorem attempts_of_mismatch (P : S → Prop) (hstep : ∀ s, P s → P (query s).2)
    (hreply : ∀ s res, P s → (query s).1 = .result res → res.rows.length ≠ rows) (left : ℕ)
    {s : S} {a : Attempt} (hs : P s) (ha : a.rowsFromSelect ≠ rows) :
    (attempts query rows left s a).1.rowsFromSelect ≠ rows ∧
      P (attempts query rows left s a).2 := by
  induction left generalizing s a with
  | zero => exact ⟨ha, hs⟩
  | succ left ih =>
    by_cases hresult : ∃ res, (query s).1 = .result res
    · -- the rows are counted again, and are wrong again
      obtain ⟨res, hres⟩ := hresult
      rw [attempts_of_result left ha hres]
      exact ih (hstep s hs) (hreply s res hs hres)
    · rw [attempts_of_noResult left ha (not_exists.mp hresult)]
      exact ih (hstep s hs) ha

end Attempts

/-! ### The loop over the rows -/

/-- The cell that shows a value of type `int`. -/
def intCell (x : Option Int32) : Cell := x.map fun x => Decimal.ofInt x.toInt

/-- A printed `int` is scanned as itself, and is equal to a row number exactly if it is that
    number. -/
theorem scanUnsigned_toInt (x : Int32) :
    ∃ v, Decimal.scanUnsigned (Decimal.ofInt x.toInt) = some v ∧
      ∀ k < 2 ^ 31, v.toNat = k ↔ x = Int32.ofNat k := by
  have hlow := Int32.le_toInt x
  have hhigh := Int32.toInt_lt x
  obtain ⟨v, hscan, hv⟩ := Decimal.scanUnsigned_ofInt (z := x.toInt) (by omega)
  refine ⟨v, hscan, fun k hk => ?_⟩
  have hofNat : (Int32.ofNat k).toInt = k := Int32.toInt_ofNat_of_lt hk
  rw [← Int32.toInt_inj, hofNat]
  omega

/-- **Rows of printed numbers.** A NULL in the first column is fatal; otherwise the result
    shows whether the first column counts up from `rowI`. -/
theorem checkRows_ofInt (xs : List (Option Int32)) (fl : Int32) {rowI : ℕ} (intRes : UInt64)
    (testResult : ℤ) (hlen : rowI + xs.length ≤ 2 ^ 31) :
    checkRows (xs.map fun x => [intCell x, intCell (some fl)]) rowI intRes testResult =
      if none ∈ xs then none
      else some (if xs = (List.range' rowI xs.length).map (fun k => some (Int32.ofNat k))
        then testResult else 1) := by
  induction xs generalizing rowI intRes testResult with
  | nil => simp [checkRows]
  | cons x xs ih =>
    match x with
    | none => simp [checkRows, checkRow, intCell]
    | some x =>
      obtain ⟨v, hscan, hv⟩ := scanUnsigned_toInt x
      obtain ⟨w, hscan', -⟩ := scanUnsigned_toInt fl
      rw [List.length_cons] at hlen
      have hrow : checkRow [intCell (some x), intCell (some fl)] rowI intRes
          = some (decide (v.toNat = rowI), w) := by
        simp [checkRow, scanCells, intCell, hscan, hscan']
      have hx : v.toNat = rowI ↔ x = Int32.ofNat rowI := hv rowI (by omega)
      rw [List.map_cons, checkRows, hrow]
      show checkRows _ (rowI + 1) w _ = _
      rw [ih w _ (by omega), List.length_cons, List.range'_succ, List.map_cons]
      by_cases hnull : none ∈ xs
      · -- a later row is fatal
        rw [if_pos hnull, if_pos (List.mem_cons_of_mem _ hnull)]
      · have hnull' : none ∉ some x :: xs := by simp [hnull]
        rw [if_neg hnull, if_neg hnull']
        by_cases hright : x = Int32.ofNat rowI
        · have hv : v.toNat = rowI := hx.mpr hright
          simp [hv, hright]
        · have hv : ¬ v.toNat = rowI := fun h => hright (hx.mp h)
          simp [hv, hright]

end MaxScaleSystemTest.Sql
