import MaxScaleSystemTest.Lib.CString

namespace StringStream

open CString

/-!
# Extraction from a string stream

What `operator>>` of a `std::istringstream` does for an `int` and for a `char`: white space is
passed over, and from the first failure on nothing is extracted any more.  A number that is
no `int` fails, and stores the nearest `int`.

* `Numeral` — a text of decimal digits, and its value;
* `readInt_numeral`, `readChar_cons` — what is extracted from a text that starts as asked.
-/

/-- A stream: what has not been extracted, and whether an extraction has failed. -/
structure IStream where
  rest : Bytes
  failed : Bool
  deriving DecidableEq

/-- `std::istringstream str(text)`. -/
def IStream.ofText (text : Bytes) : IStream := ⟨text, false⟩

/-- `str >> n`: `n` afterwards, and the stream. -/
def readInt (str : IStream) (n : Int32) : Int32 × IStream :=
  if str.failed then (n, str)
  else
    match str.rest.dropWhile isspace with
    | [] => (n, ⟨[], true⟩)
    | text =>
      let (negative, digits) := splitSign text
      let rest := digits.dropWhile isdigit
      match digits.takeWhile isdigit with
      | [] => (0, ⟨rest, true⟩)
      | ds =>
        let value := if negative then -digitsValue ds else digitsValue ds
        if value < -2 ^ 31 then (Int32.minValue, ⟨rest, true⟩)
        else if 2 ^ 31 ≤ value then (Int32.maxValue, ⟨rest, true⟩)
        else (Int32.ofInt value, ⟨rest, false⟩)

/-- `str >> c`: the stream afterwards.  The character is not kept. -/
def readChar (str : IStream) : IStream :=
  if str.failed then str
  else
    match str.rest.dropWhile isspace with
    | [] => ⟨[], true⟩
    | _ :: rest => ⟨rest, false⟩

/-! ### Failed streams -/

@[simp] theorem readInt_failed (rest : Bytes) (n : Int32) :
    readInt ⟨rest, true⟩ n = (n, ⟨rest, true⟩) := rfl

@[simp] theorem readChar_failed (rest : Bytes) : readChar ⟨rest, true⟩ = ⟨rest, true⟩ := rfl

@[simp] theorem readInt_nil (n : Int32) : readInt ⟨[], false⟩ n = (n, ⟨[], true⟩) := rfl

@[simp] theorem readChar_nil : readChar ⟨[], false⟩ = ⟨[], true⟩ := rfl

/-- A character that is no white space is extracted. -/
theorem readChar_cons {c : UInt8} (hc : isspace c = false) (rest : Bytes) :
    readChar ⟨c :: rest, false⟩ = ⟨rest, false⟩ := by
  simp [readChar, hc]

/-! ### Numerals -/

/-- A text of decimal digits. -/
structure Numeral where
  digits : Bytes
  nonempty : digits ≠ []
  isdigit : ∀ c ∈ digits, CString.isdigit c = true

namespace Numeral

/-- The numeral with these digits. -/
def ofDigits (ds : Bytes) (hne : ds ≠ []) (hdigits : ds.all CString.isdigit = true) : Numeral :=
  ⟨ds, hne, List.all_eq_true.mp hdigits⟩

variable (n : Numeral)

/-- The number. -/
def value : ℕ := (digitsValue n.digits).toNat

theorem digitsValue_eq : digitsValue n.digits = n.value :=
  (Int.toNat_of_nonneg (digitsValue_nonneg n.isdigit)).symm

/-- The first digit. -/
theorem exists_eq_cons : ∃ d ds, n.digits = d :: ds ∧ CString.isdigit d = true := by
  obtain ⟨d, ds, hds⟩ := List.exists_cons_of_ne_nil n.nonempty
  exact ⟨d, ds, hds, n.isdigit d (hds ▸ List.mem_cons_self)⟩

end Numeral

/-- **Numbers.** A numeral that is an `int` is extracted, up to the first character that is no
    digit. -/
theorem readInt_numeral (n : Numeral) {rest : Bytes}
    (hrest : ∀ c ∈ rest.head?, isdigit c = false) (hvalue : n.value < 2 ^ 31) (old : Int32) :
    readInt ⟨n.digits ++ rest, false⟩ old = (Int32.ofNat n.value, ⟨rest, false⟩) := by
  obtain ⟨d, ds, hds, hdigit⟩ := n.exists_eq_cons
  obtain ⟨hspace, hminus, hplus⟩ := not_isspace_of_isdigit hdigit
  obtain ⟨htake, hdrop⟩ := span_digits n.isdigit hrest
  have hexact := n.digitsValue_eq
  rw [hds] at htake hdrop hexact
  rw [List.cons_append] at htake hdrop
  have htext : (d :: (ds ++ rest)).dropWhile isspace = d :: (ds ++ rest) :=
    List.dropWhile_cons_of_neg (by simp [hspace])
  have hsign : splitSign (d :: (ds ++ rest)) = (false, d :: (ds ++ rest)) := by
    unfold splitSign
    split
    · rename_i heq
      exact absurd (List.cons.inj heq).1 hminus
    · rename_i heq
      exact absurd (List.cons.inj heq).1 hplus
    · rfl
  have hlow : ¬ (n.value : ℤ) < -2 ^ 31 := by omega
  have hhigh : ¬ (2 ^ 31 : ℤ) ≤ n.value := by omega
  rw [hds, List.cons_append, readInt]
  simp only [Bool.false_eq_true, if_false, htext, hsign, htake, hdrop, hexact, if_neg hlow,
    if_neg hhigh]
  rfl

end StringStream
