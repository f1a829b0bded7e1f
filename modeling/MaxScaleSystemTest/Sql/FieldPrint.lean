import MaxScaleSystemTest.Sql.FindField

namespace MaxScaleSystemTest.Sql

open CString

/-!
# Printing a field into a buffer

`find_field` prints into a buffer whose size it does not know.  What it prints does not depend
on whether a column was found: it is the cell of the first row in the first matching column, or
in the first column if none matches.

* `findFieldInto_of_defined`, `findFieldInto_of_undefined` — what a call comes to;
* `supplied_iff` — a cell is supplied where the column was found and something was printed.
-/

/-- `find_field` with a buffer of `capacity` bytes; `none` when it faults or writes behind it. -/
def findFieldInto (capacity : ℕ) (nullText : Option Bytes) (conn : Option QueryReply)
    (fieldName value : Bytes) : Option FieldAnswer :=
  (findField nullText conn fieldName value).filter fun answer => answer.value.length < capacity

/-- Is there a column whose name contains `field_name`? -/
def matched (conn : Option QueryReply) (fieldName : Bytes) : Bool :=
  match conn with
  | some (.result res) => (firstMatch fieldName res.fields).isSome
  | _ => false

/-- The cell `find_field` prints, if there is a row; the row may not have it. -/
def printedCell (conn : Option QueryReply) (fieldName : Bytes) : Option (Option Cell) :=
  match conn with
  | some (.result res) =>
    res.firstRow.map fun row => row[(firstMatch fieldName res.fields).getD 0]?
  | _ => none

/-- What `find_field` prints into the buffer. -/
inductive Printing where
  /-- The reply has no row, and the buffer stays as it was. -/
  | nothing
  | text (t : Bytes)
  /-- The cell is NULL or missing, or there is no room for it. -/
  | undefined
  deriving DecidableEq

/-- What printing a cell does. -/
def Printing.ofCell (capacity : ℕ) : Option Cell → Printing
  | some (some cell) => if (cut cell).length < capacity then .text (cut cell) else .undefined
  | _ => .undefined

/-- What the buffer holds then. -/
def Printing.fill (value : Bytes) : Printing → Bytes
  | .text t => t
  | _ => value

/-- What is printed of a reply. -/
def printing (capacity : ℕ) (conn : Option QueryReply) (fieldName : Bytes) : Printing :=
  (printedCell conn fieldName).elim .nothing (.ofCell capacity)

/-! ### What a call comes to -/

/-- `find_field` tells whether the column was found, and prints a cell or nothing. -/
theorem findField_eq (nullText : Option Bytes) (conn : Option QueryReply)
    (fieldName value : Bytes) :
    findField nullText conn fieldName value =
      ((printedCell conn fieldName).elim (some value) (printCell nullText)).map
        fun text => ⟨if matched conn fieldName then 0 else 1, text⟩ := by
  match conn with
  | none | some .failed | some .noResult => rfl
  | some (.result res) =>
    rw [findField_spec]
    unfold printedCell matched
    cases hmatch : firstMatch fieldName res.fields <;> cases hrow : res.firstRow <;>
      simp [hmatch, hrow]

theorem Printing.ofCell_eq_text_iff {capacity : ℕ} {cell : Option Cell} {t : Bytes} :
    ofCell capacity cell = .text t ↔
      (∃ u, cell = some (some u) ∧ cut u = t) ∧ t.length < capacity := by
  match cell with
  | none | some none => simp [ofCell]
  | some (some u) =>
    have hexists : (∃ v, some (some u) = some (some v) ∧ cut v = t) ↔ cut u = t :=
      ⟨fun ⟨_, hv, hcut⟩ => Option.some.inj (Option.some.inj hv) ▸ hcut, fun h => ⟨u, rfl, h⟩⟩
    rw [hexists, ofCell]
    by_cases hu : (cut u).length < capacity
    · rw [if_pos hu, Printing.text.injEq]
      exact ⟨fun h => ⟨h, h ▸ hu⟩, fun h => h.1⟩
    · rw [if_neg hu]
      exact iff_of_false nofun fun h => hu (h.1 ▸ h.2)

theorem printing_eq_nothing_iff {capacity : ℕ} {conn : Option QueryReply} {fieldName : Bytes} :
    printing capacity conn fieldName = .nothing ↔ printedCell conn fieldName = none := by
  unfold printing
  cases printedCell conn fieldName with
  | none => simp
  | some cell =>
    refine iff_of_false ?_ nofun
    show Printing.ofCell capacity cell ≠ .nothing
    unfold Printing.ofCell
    split
    · split <;> nofun
    · nofun

theorem printing_eq_text_iff {capacity : ℕ} {conn : Option QueryReply} {fieldName t : Bytes} :
    printing capacity conn fieldName = .text t ↔
      (∃ u, printedCell conn fieldName = some (some (some u)) ∧ cut u = t) ∧
        t.length < capacity := by
  unfold printing
  cases printedCell conn fieldName with
  | none => simp
  | some cell =>
    simp only [Option.elim_some, Printing.ofCell_eq_text_iff, Option.some.injEq]

theorem Printing.fill_eq_iff {value t : Bytes} (h : value ≠ t) (p : Printing) :
    p.fill value = t ↔ p = .text t := by
  cases p <;> simp [fill, h]

/-- What is left in the buffer fits. -/
theorem length_fill_lt {capacity : ℕ} {value : Bytes} (hvalue : value.length < capacity)
    (conn : Option QueryReply) (fieldName : Bytes) :
    ((printing capacity conn fieldName).fill value).length < capacity := by
  cases hprint : printing capacity conn fieldName with
  | nothing => exact hvalue
  | undefined => exact hvalue
  | text t => exact (printing_eq_text_iff.mp hprint).2

/-- **Defined.** A call that prints a text or nothing does the same whatever is undefined. -/
theorem findFieldInto_of_defined {capacity : ℕ} {conn : Option QueryReply}
    {fieldName value : Bytes} (hvalue : value.length < capacity)
    (h : printing capacity conn fieldName ≠ .undefined) (nullText : Option Bytes) :
    findFieldInto capacity nullText conn fieldName value =
      some ⟨if matched conn fieldName then 0 else 1,
        (printing capacity conn fieldName).fill value⟩ := by
  unfold findFieldInto
  rw [findField_eq]
  cases hprint : printing capacity conn fieldName with
  | undefined => exact absurd hprint h
  | nothing =>
    rw [printing_eq_nothing_iff.mp hprint]
    simp [Printing.fill, hvalue]
  | text t =>
    obtain ⟨⟨u, hcell, hu⟩, ht⟩ := printing_eq_text_iff.mp hprint
    rw [hcell]
    simp [printCell, Printing.fill, hu, ht]

/-- **Undefined.** Otherwise there is a choice under which it faults. -/
theorem findFieldInto_of_undefined {capacity : ℕ} {conn : Option QueryReply}
    {fieldName : Bytes} (h : printing capacity conn fieldName = .undefined) (value : Bytes) :
    findFieldInto capacity none conn fieldName value = none := by
  unfold findFieldInto
  rw [findField_eq]
  unfold printing at h
  match hcell : printedCell conn fieldName with
  | none => simp [hcell] at h
  | some none | some (some none) => simp [printCell]
  | some (some (some t)) =>
    -- a text that is not printed does not fit
    have ht : ¬ (cut t).length < capacity := by
      intro ht
      simp [hcell, Printing.ofCell, ht] at h
    simpa [printCell] using ht

/-! ### What is supplied -/

/-- A cell is supplied exactly if its column was found and it is the one that is printed. -/
theorem suppliedCell_iff_printedCell {conn : Option QueryReply} {fieldName t : Bytes} :
    suppliedCell conn fieldName = some t ↔
      matched conn fieldName = true ∧
        ∃ u, printedCell conn fieldName = some (some (some u)) ∧ cut u = t := by
  match conn with
  | none | some .failed | some .noResult => simp [suppliedCell, matched]
  | some (.result res) =>
    rw [suppliedCell_eq_some_iff]
    unfold matched printedCell ResultSet.firstRow
    cases hmatch : firstMatch fieldName res.fields <;> cases hrow : res.rows.head? <;>
      simp [hmatch, hrow]

/-- A supplied cell stands in a row of a column that was found. -/
theorem matched_of_supplied {conn : Option QueryReply} {fieldName t : Bytes} (capacity : ℕ)
    (h : suppliedCell conn fieldName = some t) :
    matched conn fieldName = true ∧ printing capacity conn fieldName ≠ .nothing := by
  obtain ⟨hmatched, u, hcell, -⟩ := suppliedCell_iff_printedCell.mp h
  refine ⟨hmatched, ?_⟩
  rw [Ne, printing_eq_nothing_iff, hcell]
  nofun

/-- A supplied cell that fits is printed. -/
theorem supplied_and_fits_iff {capacity : ℕ} {conn : Option QueryReply} {fieldName t : Bytes} :
    suppliedCell conn fieldName = some t ∧ t.length < capacity ↔
      matched conn fieldName = true ∧ printing capacity conn fieldName = .text t := by
  rw [suppliedCell_iff_printedCell, printing_eq_text_iff, and_assoc]

/-- **Supplied.** Where nothing undefined is printed, a cell is supplied exactly if its column
    was found and it is what was printed. -/
theorem supplied_iff {capacity : ℕ} {conn : Option QueryReply} {fieldName t : Bytes}
    (h : printing capacity conn fieldName ≠ .undefined) :
    suppliedCell conn fieldName = some t ↔
      matched conn fieldName = true ∧ printing capacity conn fieldName = .text t := by
  constructor
  · intro hcell
    obtain ⟨hmatched, hrow⟩ := matched_of_supplied capacity hcell
    cases hprint : printing capacity conn fieldName with
    | nothing => exact absurd hprint hrow
    | undefined => exact absurd hprint h
    | text u =>
      obtain ⟨hu, -⟩ := supplied_and_fits_iff.mpr ⟨hmatched, hprint⟩
      rw [hcell, Option.some.injEq] at hu
      exact ⟨hmatched, congrArg Printing.text hu.symm⟩
  · intro hprint
    exact (supplied_and_fits_iff.mpr hprint).1

end MaxScaleSystemTest.Sql
