import MaxScaleSystemTest.Lib.Decimal

namespace MaxScaleSystemTest.Sql

open CString

/-!
# The text of an INSERT

`create_insert_string` writes one tuple after the other, each with a comma behind it, and in
the end puts a semicolon over the last comma.  `parseInsert` reads such a text by the grammar
of the statement.

* `createInsertString_eq` — the text that is written;
* `parseInsert_createInsertString` — it reads as the rows asked for, in order;
* `create_insert_string_encodes` — both together, for at least one row.
-/

/-- `ins1`. -/
def ins1 : Bytes := ascii "INSERT INTO t1 (x1, fl) VALUES "

/-- The byte `,`. -/
def comma : UInt8 := 44

/-- The byte `;`. -/
def semicolon : UInt8 := 59

/-- One tuple. -/
def tuple (x1 fl : ℤ) : Bytes :=
  ascii "(" ++ Decimal.ofInt x1 ++ ascii ", " ++ Decimal.ofInt fl ++ ascii ")"

/-- What `sprintf` writes for `"(%d, %d),"`. -/
def rowText (x1 fl : ℤ) : Bytes := tuple x1 fl ++ [comma]

/-- The string being written, and where `wptr` points in it. -/
structure Writer where
  text : Bytes
  wptr : ℕ

/-- The body of the loop: `wptr` is moved to the end and a row is printed there. -/
def writeRow (fl : Int32) (w : Writer) (i : ℕ) : Writer where
  text := w.text ++ rowText i fl.toInt
  wptr := w.text.length

/-- The string when the loop is over. -/
def writeRows (N fl : Int32) : Writer :=
  (List.range N.toInt.toNat).foldl (writeRow fl) ⟨ins1, 0⟩

/-- `create_insert_string`; `none` would be a NULL result of `strrchr`. -/
def createInsertString (N fl : Int32) : Option Bytes :=
  let w := writeRows N fl
  (beforeLast (w.text.drop w.wptr) comma).map fun front => w.text.take w.wptr ++ front ++ [semicolon]

/-- The bytes of the buffer that `create_insert_string` uses, the NUL with them: the string is
    longest before the last comma is overwritten. -/
def bytesUsed (N fl : Int32) : ℕ := (writeRows N fl).text.length + 1

/-! ### The text -/

/-- The rows `(0, fl)` to `(n - 1, fl)`. -/
def firstRows (n : ℕ) (fl : ℤ) : List (ℤ × ℤ) := (List.range n).map fun i : ℕ => ((i : ℤ), fl)

/-- The text of some rows, each with a comma behind it. -/
def rowsText (rows : List (ℤ × ℤ)) : Bytes := rows.flatMap fun r => rowText r.1 r.2

theorem firstRows_succ (n : ℕ) (fl : ℤ) :
    firstRows (n + 1) fl = firstRows n fl ++ [((n : ℤ), fl)] := by
  rw [firstRows, List.range_succ, List.map_append]
  rfl

theorem rowsText_append (rows rows' : List (ℤ × ℤ)) :
    rowsText (rows ++ rows') = rowsText rows ++ rowsText rows' := List.flatMap_append

/-- The loop puts the rows behind each other and leaves `wptr` at the last one. -/
theorem foldl_writeRow (fl : Int32) (n : ℕ) :
    (List.range (n + 1)).foldl (writeRow fl) ⟨ins1, 0⟩ =
      { text := ins1 ++ rowsText (firstRows n fl.toInt) ++ rowText n fl.toInt
        wptr := (ins1 ++ rowsText (firstRows n fl.toInt)).length } := by
  induction n with
  | zero => rfl
  | succ n ih =>
    rw [List.range_succ, List.foldl_append, ih, firstRows_succ, rowsText_append]
    simp [writeRow, rowsText]

/-- The text without rows: the only comma is the one in the list of columns. -/
def noRowsText : Bytes := ascii "INSERT INTO t1 (x1;"

/-- **The text.** The rows, separated by commas, with a semicolon behind the last. -/
theorem createInsertString_eq (N fl : Int32) :
    createInsertString N fl = some (match N.toInt.toNat with
      | 0 => noRowsText
      | n + 1 => ins1 ++ (rowsText (firstRows n fl.toInt) ++ tuple n fl.toInt ++ [semicolon])) := by
  rw [createInsertString, writeRows]
  match N.toInt.toNat with
  | 0 =>
    show (beforeLast ins1 comma).map (fun front => [] ++ front ++ [semicolon])
      = some noRowsText
    decide +kernel
  | n + 1 =>
    rw [foldl_writeRow]
    simp only [List.drop_left, List.take_left]
    rw [rowText, beforeLast_append_singleton, Option.map_some]
    simp only [List.append_assoc]

/-! ### Reading it -/

/-- Take a fixed text off the front. -/
def expect (p s : Bytes) : Option Bytes := if p <+: s then some (s.drop p.length) else none

/-- A tuple at the front of a text, and what follows it. -/
def parseTuple (s : Bytes) : Option ((ℤ × ℤ) × Bytes) := do
  let s ← expect (ascii "(") s
  let (x1, s) ← Decimal.read s
  let s ← expect (ascii ", ") s
  let (fl, s) ← Decimal.read s
  let s ← expect (ascii ")") s
  return ((x1, fl), s)

/-- Tuples separated by commas, at most `fuel` of them, and a semicolon at the end. -/
def parseRows : (fuel : ℕ) → Bytes → Option (List (ℤ × ℤ))
  | 0, _ => none
  | fuel + 1, s => do
    let (row, s) ← parseTuple s
    if s = [semicolon] then return [row]
    let s ← expect [comma] s
    let rows ← parseRows fuel s
    return row :: rows

/-- The rows of an `INSERT INTO t1`, `none` for any other text. -/
def parseInsert (s : Bytes) : Option (List (ℤ × ℤ)) := do
  let s ← expect ins1 s
  parseRows s.length s

theorem expect_append (p s : Bytes) : expect p (p ++ s) = some s := by
  rw [expect, if_pos (List.prefix_append p s), List.drop_left]

/-- A tuple is read back. -/
theorem parseTuple_tuple (x1 fl : ℤ) (s : Bytes) :
    parseTuple (tuple x1 fl ++ s) = some ((x1, fl), s) := by
  have hx1 : Decimal.read (Decimal.ofInt x1 ++ (ascii ", " ++ (Decimal.ofInt fl ++ (ascii ")" ++ s))))
      = some (x1, ascii ", " ++ (Decimal.ofInt fl ++ (ascii ")" ++ s))) := by
    apply Decimal.read_ofInt
    rintro c ⟨⟩
    rfl
  have hfl : Decimal.read (Decimal.ofInt fl ++ (ascii ")" ++ s)) = some (fl, ascii ")" ++ s) := by
    apply Decimal.read_ofInt
    rintro c ⟨⟩
    rfl
  simp only [parseTuple, tuple, List.append_assoc, expect_append, hx1, hfl, Option.bind_eq_bind,
    Option.bind_some]
  rfl

/-- Rows that are written are read back. -/
theorem parseRows_rowsText (rows : List (ℤ × ℤ)) (x1 fl : ℤ) {fuel : ℕ}
    (hfuel : rows.length < fuel) :
    parseRows fuel (rowsText rows ++ tuple x1 fl ++ [semicolon]) = some (rows ++ [(x1, fl)]) := by
  induction rows generalizing fuel with
  | nil =>
    obtain ⟨fuel, rfl⟩ := Nat.exists_eq_add_one_of_ne_zero (Nat.ne_of_gt hfuel)
    show parseRows (fuel + 1) (tuple x1 fl ++ [semicolon]) = _
    simp [parseRows, parseTuple_tuple]
  | cons row rows ih =>
    obtain ⟨fuel, rfl⟩ := Nat.exists_eq_add_one_of_ne_zero (Nat.ne_of_gt (Nat.zero_lt_of_lt hfuel))
    have htext : rowsText (row :: rows) ++ tuple x1 fl ++ [semicolon]
        = tuple row.1 row.2 ++ ([comma] ++ (rowsText rows ++ tuple x1 fl ++ [semicolon])) := by
      simp [rowsText, rowText]
    -- a comma follows the row, so that it is not the last one
    have hnext : [comma] ++ (rowsText rows ++ tuple x1 fl ++ [semicolon]) ≠ [semicolon] := by
      intro heq
      exact absurd (List.cons.inj heq).1 (by decide)
    rw [htext, parseRows]
    simp only [parseTuple_tuple, Option.bind_eq_bind, Option.bind_some, hnext, if_false,
      expect_append, ih (Nat.lt_of_succ_lt_succ hfuel)]
    rfl

/-- A text of rows is not shorter than the number of rows. -/
theorem length_le_rowsText (rows : List (ℤ × ℤ)) : rows.length ≤ (rowsText rows).length := by
  induction rows with
  | nil => exact Nat.le_refl 0
  | cons row rows ih =>
    show rows.length + 1 ≤ (rowText row.1 row.2 ++ rowsText rows).length
    have hrow : 1 ≤ (rowText row.1 row.2).length := by simp [rowText]
    rw [List.length_append]
    omega

/-- **Round trip.** The text reads as the rows asked for; with none of them it is no
    statement at all. -/
theorem parseInsert_createInsertString (N fl : Int32) :
    (createInsertString N fl).bind parseInsert =
      if N.toInt.toNat = 0 then none else some (firstRows N.toInt.toNat fl.toInt) := by
  rw [createInsertString_eq, Option.bind_some]
  match N.toInt.toNat with
  | 0 =>
    show parseInsert noRowsText = none
    decide +kernel
  | n + 1 =>
    -- the length of the text is fuel enough
    have hfuel : (firstRows n fl.toInt).length
        < (rowsText (firstRows n fl.toInt) ++ tuple n fl.toInt ++ [semicolon]).length := by
      have hrows := length_le_rowsText (firstRows n fl.toInt)
      rw [List.length_append, List.length_append, List.length_singleton]
      omega
    rw [if_neg (Nat.succ_ne_zero n), firstRows_succ]
    show (expect ins1 (ins1 ++ _)).bind (fun s => parseRows s.length s) = _
    rw [expect_append, Option.bind_some]
    exact parseRows_rowsText _ n fl.toInt hfuel

/-! ### Only separators where they belong -/

/-- A tuple holds no semicolon. -/
theorem semicolon_not_mem_tuple (x1 fl : ℤ) : semicolon ∉ tuple x1 fl := by
  have hopen : semicolon ∉ ascii "(" := by decide
  have hmid : semicolon ∉ ascii ", " := by decide
  have hclose : semicolon ∉ ascii ")" := by decide
  have hdecimal : ∀ z : ℤ, semicolon ∉ Decimal.ofInt z := by
    intro z hmem
    have hnat : semicolon ∉ Decimal.ofNat z.natAbs := fun h =>
      absurd (Decimal.isdigit_of_mem_ofNat h) (by decide)
    unfold Decimal.ofInt at hmem
    split_ifs at hmem
    · rcases List.mem_cons.mp hmem with h | h
      · exact absurd h (by decide)
      · exact hnat h
    · exact hnat hmem
  unfold tuple
  simp only [List.mem_append, not_or]
  exact ⟨⟨⟨⟨hopen, hdecimal x1⟩, hmid⟩, hdecimal fl⟩, hclose⟩

/-- Nor do rows. -/
theorem semicolon_not_mem_rowsText (rows : List (ℤ × ℤ)) : semicolon ∉ rowsText rows := by
  intro hmem
  obtain ⟨row, -, hrow⟩ := List.mem_flatMap.mp hmem
  rcases List.mem_append.mp hrow with h | h
  · exact semicolon_not_mem_tuple _ _ h
  · exact absurd (List.mem_singleton.mp h) (by decide)

/-- The rows as the grammar of the statement writes them: separated by commas. -/
def separated : List (ℤ × ℤ) → Bytes
  | [] => []
  | [row] => tuple row.1 row.2
  | row :: rows => tuple row.1 row.2 ++ [comma] ++ separated rows

theorem separated_append_singleton (rows : List (ℤ × ℤ)) (row : ℤ × ℤ) :
    separated (rows ++ [row]) = rowsText rows ++ tuple row.1 row.2 := by
  induction rows with
  | nil => rfl
  | cons first rows ih =>
    have hrest : rowsText (first :: rows) = tuple first.1 first.2 ++ [comma] ++ rowsText rows := rfl
    rw [hrest, List.append_assoc, ← ih]
    cases rows <;> rfl

/-- **The encoding.** For at least one row the text is the `INSERT` of these rows: separated by
    commas, with one semicolon, at the end; and it reads as the rows `(0, fl)` to
    `(N - 1, fl)`. -/
theorem create_insert_string_encodes (N fl : Int32) (hN : 1 ≤ N.toInt) :
    ∃ text, createInsertString N fl = some text ∧
      parseInsert text = some (firstRows N.toInt.toNat fl.toInt) ∧
      text = ins1 ++ separated (firstRows N.toInt.toNat fl.toInt) ++ [semicolon] ∧
      text.count semicolon = 1 := by
  have htext := createInsertString_eq N fl
  have hread := parseInsert_createInsertString N fl
  obtain ⟨n, hn⟩ : ∃ n, N.toInt.toNat = n + 1 := ⟨N.toInt.toNat - 1, by omega⟩
  rw [hn] at htext hread ⊢
  rw [htext, Option.bind_some, if_neg (Nat.succ_ne_zero n)] at hread
  refine ⟨_, htext, hread, ?_, ?_⟩
  · rw [firstRows_succ, separated_append_singleton]
    simp only [List.append_assoc]
  · have hins : semicolon ∉ ins1 := by decide +kernel
    simp only [List.count_append, List.count_singleton_self,
      List.count_eq_zero_of_not_mem hins,
      List.count_eq_zero_of_not_mem (semicolon_not_mem_rowsText _),
      List.count_eq_zero_of_not_mem (semicolon_not_mem_tuple _ _)]

/-- Three rows with a negative `fl`. -/
theorem create_insert_string_encodes_three :
    1 ≤ (3 : Int32).toInt ∧
      ∃ text, createInsertString 3 (-5) = some text ∧
        parseInsert text = some (firstRows (3 : Int32).toInt.toNat (-5 : Int32).toInt) ∧
        text = ins1 ++ separated (firstRows (3 : Int32).toInt.toNat (-5 : Int32).toInt)
          ++ [semicolon] ∧
        text.count semicolon = 1 :=
  ⟨by decide, create_insert_string_encodes 3 (-5) (by decide)⟩

end MaxScaleSystemTest.Sql
