import MaxScaleSystemTest.Sql.Client

namespace MaxScaleSystemTest.Sql

open CString

/-!
# Reading one field of a reply

`find_field` looks for a column by part of its name and prints the cell of the first row
into the caller's buffer.  Its column index starts at 0 and is used whether the search has
set it or not, and its return value only tells whether a column was found.

* `findField_spec` — the four ways it goes on a result set;
* `find_field_answers_iff` — on which replies it does what its caller is told.
-/

/-- What `find_field` returns, and what the buffer `value` holds then. -/
structure FieldAnswer where
  ret : ℤ
  value : Bytes
  deriving DecidableEq

/-- Does the name of a column contain `field_name`? -/
def nameMatches (fieldName name : Bytes) : Bool := (strstr name fieldName).isSome

/-- The loop over `mysql_fetch_field`: the final `ret` and `filed_i`. -/
def fieldLoop (fieldName : Bytes) : List Bytes → (i filedI : ℕ) → (ret : ℤ) → ℤ × ℕ
  | [], _, filedI, ret => (ret, filedI)
  | name :: fields, i, filedI, ret =>
    if ret ≠ 0 then
      if nameMatches fieldName name then fieldLoop fieldName fields (i + 1) i 0
      else fieldLoop fieldName fields (i + 1) filedI ret
    else (ret, filedI)

/-- What `sprintf(value, "%s", row[i])` writes, `none` when it faults: the bytes of the cell up to
    the first NUL, into a buffer that is large enough.  `nullText` is what it makes of a NULL cell,
    which C leaves undefined: the C library may print `(null)`. -/
def printCell (nullText : Option Bytes) : Option Cell → Option Bytes
  | some (some text) => some (cut text)
  | some none => nullText
  | none => none

/-- `find_field`, on what the connection answers (`none` for a NULL connection) and what
    the caller's buffer holds; `none` when it faults. -/
def findField (nullText : Option Bytes) (conn : Option QueryReply) (fieldName value : Bytes) :
    Option FieldAnswer :=
  match conn with
  | none | some .failed | some .noResult => some ⟨1, value⟩
  | some (.result res) =>
    let (ret, filedI) := fieldLoop fieldName res.fields 0 0 1
    match res.firstRow with
    | none => some ⟨ret, value⟩
    | some row => (printCell nullText row[filedI]?).map fun text => ⟨ret, text⟩

/-! ### What the reply supplies -/

/-- The first column whose name contains `field_name`. -/
def firstMatch (fieldName : Bytes) (fields : List Bytes) : Option ℕ :=
  fields.findIdx? (nameMatches fieldName)

/-- The cell a reply supplies for a name, as a C string: the one in the first such column of the
    first row, unless it is NULL. -/
def suppliedCell (conn : Option QueryReply) (fieldName : Bytes) : Option Bytes :=
  match conn with
  | some (.result res) => do
    let k ← firstMatch fieldName res.fields
    let row ← res.firstRow
    let cell ← row[k]?
    cell.map cut
  | _ => none

/-- A cell is supplied exactly by a first row with a non-NULL cell in the first column
    whose name contains `field_name`. -/
theorem suppliedCell_eq_some_iff (res : ResultSet) (fieldName cell : Bytes) :
    suppliedCell (some (.result res)) fieldName = some cell ↔
      ∃ k row text, firstMatch fieldName res.fields = some k ∧ res.rows.head? = some row ∧
        row[k]? = some (some text) ∧ cut text = cell := by
  simp only [suppliedCell, ResultSet.firstRow, Option.bind_eq_bind, Option.bind_eq_some_iff,
    Option.map_eq_some_iff]
  grind

/-- The answer a caller counts on: 0 and the supplied cell, or something else than 0 and
    the buffer as it was. -/
def AnswersAsAsked (conn : Option QueryReply) (fieldName value : Bytes)
    (answer : Option FieldAnswer) : Prop :=
  ∃ a, answer = some a ∧
    match suppliedCell conn fieldName with
    | some cell => a.ret = 0 ∧ a.value = cell
    | none => a.ret ≠ 0 ∧ a.value = value

/-! ### The search loop -/

/-- A loop that has found its column is over. -/
theorem fieldLoop_found (fieldName : Bytes) (fields : List Bytes) (i filedI : ℕ) :
    fieldLoop fieldName fields i filedI 0 = (0, filedI) := by
  cases fields <;> simp [fieldLoop]

/-- The loop finds the first matching column, and leaves both variables alone without one. -/
theorem fieldLoop_eq (fieldName : Bytes) (fields : List Bytes) (i filedI : ℕ) :
    fieldLoop fieldName fields i filedI 1 =
      match firstMatch fieldName fields with
      | some k => (0, i + k)
      | none => (1, filedI) := by
  induction fields generalizing i with
  | nil => rfl
  | cons name fields ih =>
    have hfirst : firstMatch fieldName (name :: fields) =
        if nameMatches fieldName name then some 0
        else (firstMatch fieldName fields).map (· + 1) := List.findIdx?_cons
    rw [fieldLoop, if_pos one_ne_zero, hfirst]
    by_cases hname : nameMatches fieldName name
    · -- once found the loop is left
      rw [if_pos hname, if_pos hname, fieldLoop_found]
      rfl
    · rw [if_neg hname, if_neg hname, ih]
      cases firstMatch fieldName fields with
      | none => rfl
      | some k =>
        show ((0 : ℤ), i + 1 + k) = (0, i + (k + 1))
        rw [Nat.add_right_comm, Nat.add_assoc]

/-- What `find_field` does on a result set, by whether a column matches and a row exists.
    Without a matching column the first cell is printed all the same. -/
theorem findField_spec (nullText : Option Bytes) (res : ResultSet) (fieldName value : Bytes) :
    findField nullText (some (.result res)) fieldName value =
      match firstMatch fieldName res.fields, res.firstRow with
      | some _, none => some ⟨0, value⟩
      | none, none => some ⟨1, value⟩
      | some k, some row => (printCell nullText row[k]?).map fun text => ⟨0, text⟩
      | none, some row => (printCell nullText row[0]?).map fun text => ⟨1, text⟩ := by
  simp only [findField, fieldLoop_eq, Nat.zero_add]
  cases firstMatch fieldName res.fields <;> cases res.firstRow <;> rfl

/-- A supplied cell is found. -/
theorem findField_of_supplied (nullText : Option Bytes) {conn : Option QueryReply}
    {fieldName cell : Bytes} (value : Bytes) (h : suppliedCell conn fieldName = some cell) :
    findField nullText conn fieldName value = some ⟨0, cell⟩ := by
  match conn with
  | none | some .failed | some .noResult => cases h
  | some (.result res) =>
    obtain ⟨k, row, text, hmatch, hrow, hcell, rfl⟩ := (suppliedCell_eq_some_iff _ _ _).mp h
    have hrow : res.firstRow = some row := hrow
    rw [findField_spec, hmatch, hrow]
    show (printCell nullText row[k]?).map _ = _
    rw [hcell]
    rfl

/-! ### When the answer can be relied on -/

/-- On which replies, and which contents of the caller's buffer, `find_field` can be relied
    on: a matching column needs a row whose cell there is not NULL, and without one a row
    must show in its first cell what the buffer holds already. -/
def Reliable (nullText : Option Bytes) (conn : Option QueryReply) (fieldName value : Bytes) :
    Prop :=
  match conn with
  | some (.result res) =>
    match firstMatch fieldName res.fields, res.firstRow with
    | some k, some row => row[k]? ≠ some none
    | some _, none => False
    | none, some row =>
      (∃ text, row[0]? = some (some text) ∧ cut text = value) ∨
        (row[0]? = some none ∧ nullText = some value)
    | none, none => True
  | _ => True

/-- The first row has a cell in a matching column. -/
theorem exists_cell {res : ResultSet} {fieldName : Bytes} {k : ℕ} {row : Row}
    (hmatch : firstMatch fieldName res.fields = some k) (hrow : res.firstRow = some row) :
    ∃ cell, row[k]? = some cell := by
  have hmem : row ∈ res.rows := List.mem_of_mem_head? hrow
  have hk : k < res.fields.length := by
    have hfound := List.findIdx?_eq_some_iff_getElem.mp hmatch
    exact hfound.1
  have hlt : k < row.length := by rw [res.width row hmem]; exact hk
  exact ⟨row[k], List.getElem?_eq_getElem hlt⟩

/-- **Reliability.** `find_field` answers as its caller counts on exactly for the reliable
    replies. -/
theorem find_field_answers_iff (nullText : Option Bytes) (conn : Option QueryReply)
    (fieldName value : Bytes) :
    AnswersAsAsked conn fieldName value (findField nullText conn fieldName value) ↔
      Reliable nullText conn fieldName value := by
  match conn with
  | none | some .failed | some .noResult =>
    simp [AnswersAsAsked, suppliedCell, findField, Reliable]
  | some (.result res) =>
    rw [findField_spec]
    match hmatch : firstMatch fieldName res.fields, hrow : res.firstRow with
    | none, none => simp [AnswersAsAsked, suppliedCell, Reliable, hmatch, hrow]
    | some k, none => simp [AnswersAsAsked, suppliedCell, Reliable, hmatch, hrow]
    | none, some row =>
      -- no cell is supplied, and the first one of the row is printed
      simp only [AnswersAsAsked, suppliedCell, Reliable, hmatch, hrow]
      match row[0]? with
      | none => simp [printCell]
      | some none => simp [printCell]
      | some (some text) => simp [printCell]
    | some k, some row =>
      obtain ⟨cell, hcell⟩ := exists_cell hmatch hrow
      have hsupplied : suppliedCell (some (.result res)) fieldName = cell.map cut := by
        simp [suppliedCell, hmatch, hrow, hcell]
      simp only [AnswersAsAsked, hsupplied, Reliable, hmatch, hrow, hcell]
      match cell with
      | none => simp [printCell]
      | some text => simp [printCell]

/-- The reply to `show slave status` on a server that is no slave: all columns, no rows. -/
def emptySlaveStatus : ResultSet where
  fields := [ascii "Slave_IO_State", ascii "Master_Host", ascii "Master_User"]
  rows := []
  width := by simp

/-- On a server that is no slave `find_field` reports the master's host as found. -/
theorem find_field_without_row :
    ¬ AnswersAsAsked (some (.result emptySlaveStatus)) (ascii "Master_Host") (ascii "")
      (findField (some (ascii "(null)")) (some (.result emptySlaveStatus))
        (ascii "Master_Host") (ascii "")) := by
  have heval : findField (some (ascii "(null)")) (some (.result emptySlaveStatus))
      (ascii "Master_Host") (ascii "") = some ⟨0, ascii ""⟩ := by decide +kernel
  have hnone : suppliedCell (some (.result emptySlaveStatus)) (ascii "Master_Host") = none := by
    decide +kernel
  rw [heval]
  simp [AnswersAsAsked, hnone]

end MaxScaleSystemTest.Sql
