import MaxScaleSystemTest.Lib.CString

namespace Hex

open CString

/-!
# Lower-case hexadecimal

Each byte is written as two digits, the high one first.  `encode` is a homomorphism for
concatenation (`encode_append`), and `decode` reads back what `encode` wrote
(`decode_encode`), so a hexadecimal text stands for one byte string only.
-/

/-- The digit of a value below 16. -/
def digit (n : ℕ) : UInt8 := if n < 10 then UInt8.ofNat (48 + n) else UInt8.ofNat (87 + n)

/-- The two digits of a byte. -/
def pair (b : UInt8) : Bytes := [digit (b.toNat / 16), digit (b.toNat % 16)]

/-- The lower-case hexadecimal text of a byte string. -/
def encode (bs : Bytes) : Bytes := bs.flatMap pair

/-- The value of a digit, `none` for any other character. -/
def value (c : UInt8) : Option ℕ :=
  if 48 ≤ c ∧ c ≤ 57 then some (c.toNat - 48)
  else if 97 ≤ c ∧ c ≤ 102 then some (c.toNat - 87)
  else none

/-- The bytes a hexadecimal text stands for, `none` for an odd length or another character. -/
def decode : Bytes → Option Bytes
  | [] => some []
  | [_] => none
  | hi :: lo :: rest => do
    let h ← value hi
    let l ← value lo
    let bs ← decode rest
    return UInt8.ofNat (16 * h + l) :: bs

@[simp] theorem encode_nil : encode [] = [] := rfl

@[simp] theorem encode_cons (b : UInt8) (bs : Bytes) : encode (b :: bs) = pair b ++ encode bs := rfl

/-- **Homomorphism.** The text of a concatenation is the concatenation of the texts. -/
theorem encode_append (xs ys : Bytes) : encode (xs ++ ys) = encode xs ++ encode ys :=
  List.flatMap_append

/-- Every byte takes two digits. -/
theorem length_encode (bs : Bytes) : (encode bs).length = bs.length * 2 := by
  induction bs with
  | nil => rfl
  | cons b bs ih =>
    rw [encode_cons, List.length_append, ih, List.length_cons, Nat.add_one_mul, Nat.add_comm]
    rfl

theorem value_digit : ∀ n < 16, value (digit n) = some n := by decide

/-- No digit is a NUL. -/
theorem digit_ne_zero : ∀ n < 16, digit n ≠ 0 := by decide

/-- A hexadecimal text holds no NUL. -/
theorem zero_not_mem_encode (bs : Bytes) : 0 ∉ encode bs := by
  intro hmem
  obtain ⟨b, -, hb⟩ := List.mem_flatMap.mp hmem
  have hbyte : b.toNat < 256 := b.toNat_lt
  have hhigh : digit (b.toNat / 16) ≠ 0 := digit_ne_zero _ (by omega)
  have hlow : digit (b.toNat % 16) ≠ 0 := digit_ne_zero _ (by omega)
  simp only [pair, List.mem_cons, List.not_mem_nil, or_false] at hb
  rcases hb with h | h
  · exact hhigh h.symm
  · exact hlow h.symm

/-- **Left inverse.** Decoding an encoded byte string gives it back. -/
theorem decode_encode (bs : Bytes) : decode (encode bs) = some bs := by
  induction bs with
  | nil => rfl
  | cons b bs ih =>
    have hbyte : b.toNat < 256 := b.toNat_lt
    have hhigh : value (digit (b.toNat / 16)) = some (b.toNat / 16) := value_digit _ (by omega)
    have hlow : value (digit (b.toNat % 16)) = some (b.toNat % 16) := value_digit _ (by omega)
    have hjoin : 16 * (b.toNat / 16) + b.toNat % 16 = b.toNat := by omega
    show decode (digit (b.toNat / 16) :: digit (b.toNat % 16) :: encode bs) = _
    rw [decode, hhigh, hlow, ih]
    show some (UInt8.ofNat (16 * (b.toNat / 16) + b.toNat % 16) :: bs) = _
    rw [hjoin, UInt8.ofNat_toNat]

end Hex
