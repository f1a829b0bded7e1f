import Mathlib.Data.Int.ModEq
import Mathlib.Algebra.BigOperators.Group.List.Basic
import Mathlib.Tactic.NormNum

namespace CInt

/-!
# C `int`s against the exact numbers

An `int` that is added to again and again wraps at 32 bits.  Whatever is later cut from it
by keeping the low byte only depends on the exact sum modulo 256, since 256 divides `2^32`.
An `unsigned int` that counts is returned as an `int`: it is right where the exact count is
right modulo `2^32` and small enough (`toInt32_ofNat_eq_iff`).  Where an overflow must not
happen, `SumsFit` says so of every sum on the way.
-/

/-- The low 8 bits of an `int`. -/
def lowByte (n : Int32) : UInt8 := n.toUInt32.toUInt8

/-- The low byte is zero exactly for the multiples of 256. -/
theorem lowByte_eq_zero_iff (n : Int32) : lowByte n = 0 ↔ (256 : ℤ) ∣ n.toInt := by
  have hbyte : lowByte n = 0 ↔ n.toUInt32.toNat % 256 = 0 := by
    rw [lowByte, ← UInt8.toNat_inj]
    simp
  have hint : n.toInt = (n.toUInt32.toNat : ℤ).bmod (2 ^ 32) := by
    rw [← Int32.toInt_toBitVec, BitVec.toInt_eq_toNat_bmod]
    rfl
  have hwrap : (256 : ℤ) ∣ (n.toUInt32.toNat : ℤ).bmod (2 ^ 32) - n.toUInt32.toNat :=
    dvd_trans (by norm_num) (Int.dvd_bmod_sub_self (m := 2 ^ 32))
  -- 256 divides the distance to the wrapped value
  rw [hbyte, hint]
  omega

/-- A running sum of `int`s agrees with the exact sum modulo `2^32`. -/
theorem foldl_add_modEq_wide (acc : Int32) (ns : List Int32) :
    (ns.foldl (· + ·) acc).toInt ≡ acc.toInt + (ns.map Int32.toInt).sum [ZMOD 2 ^ 32] := by
  induction ns generalizing acc with
  | nil => simp [Int.ModEq]
  | cons n ns ih =>
    have hhead : (acc + n).toInt ≡ acc.toInt + n.toInt [ZMOD 2 ^ 32] := by
      rw [Int32.toInt_add]
      exact Int.bmod_emod
    calc ((n :: ns).foldl (· + ·) acc).toInt
        ≡ (acc + n).toInt + (ns.map Int32.toInt).sum [ZMOD 2 ^ 32] := ih (acc + n)
      _ ≡ acc.toInt + n.toInt + (ns.map Int32.toInt).sum [ZMOD 2 ^ 32] := hhead.add_right _
      _ = acc.toInt + ((n :: ns).map Int32.toInt).sum := by
        rw [List.map_cons, List.sum_cons, add_assoc]

/-- Wrapping at 32 bits does not show modulo 256. -/
theorem foldl_add_modEq (acc : Int32) (ns : List Int32) :
    (ns.foldl (· + ·) acc).toInt ≡ acc.toInt + (ns.map Int32.toInt).sum [ZMOD 256] :=
  (foldl_add_modEq_wide acc ns).of_dvd (by norm_num)

/-- A running sum of `int`s is `m` exactly when the exact sum is `m` modulo `2^32`. -/
theorem foldl_add_eq_iff (ns : List Int32) (m : Int32) :
    ns.foldl (· + ·) 0 = m ↔ (ns.map Int32.toInt).sum ≡ m.toInt [ZMOD 2 ^ 32] := by
  have hsum := foldl_add_modEq_wide 0 ns
  rw [Int32.toInt_zero, zero_add] at hsum
  constructor
  · rintro rfl
    exact hsum.symm
  · intro h
    -- both are `int`s
    have hmod : (ns.foldl (· + ·) 0).toInt % 2 ^ 32 = m.toInt % 2 ^ 32 := hsum.trans h
    have hle := Int32.le_toInt (ns.foldl (· + ·) 0)
    have hlt := Int32.toInt_lt (ns.foldl (· + ·) 0)
    have hle' := Int32.le_toInt m
    have hlt' := Int32.toInt_lt m
    apply Int32.toInt_inj.mp
    omega

/-- A count kept in an `int` is zero exactly for the multiples of `2^32`. -/
theorem ofNat_eq_zero_iff (n : ℕ) : Int32.ofNat n = 0 ↔ 2 ^ 32 ∣ n := by
  have hint : (Int32.ofNat n).toInt = (n : ℤ).bmod (2 ^ 32) := Int32.toInt_ofNat'
  rw [← Int32.toInt_inj, hint, Int32.toInt_zero, Int.bmod_def]
  split <;> omega

/-- An `unsigned int` converted to `int` keeps the values below `2^31` only. -/
theorem toInt32_eq_iff (x : UInt32) (k : ℕ) : x.toInt32.toInt = k ↔ x.toNat = k ∧ k < 2 ^ 31 := by
  have hx : x.toNat < 2 ^ 32 := x.toNat_lt
  have hint : x.toInt32.toInt = (x.toNat : ℤ).bmod (2 ^ 32) := BitVec.toInt_eq_toNat_bmod _
  rw [hint, Int.bmod_def]
  split <;> omega

/-- A count kept in an `unsigned int` and returned as an `int` is `k` exactly when it is
    `k` modulo `2^32` and `k` is below `2^31`. -/
theorem toInt32_ofNat_eq_iff (c k : ℕ) :
    (UInt32.ofNat c).toInt32.toInt = k ↔ c ≡ k [MOD 2 ^ 32] ∧ k < 2 ^ 31 := by
  have hc : (UInt32.ofNat c).toNat = c % 2 ^ 32 := rfl
  rw [toInt32_eq_iff, hc, Nat.ModEq]
  omega

/-- The same with one taken off before the conversion. -/
theorem toInt32_ofNat_sub_one_eq_iff (c k : ℕ) :
    (UInt32.ofNat c - 1).toInt32.toInt = k ↔ c ≡ k + 1 [MOD 2 ^ 32] ∧ k < 2 ^ 31 := by
  have hc : (UInt32.ofNat c - 1).toNat = (2 ^ 32 - 1 + c % 2 ^ 32) % 2 ^ 32 :=
    UInt32.toNat_sub (UInt32.ofNat c) 1
  rw [toInt32_eq_iff, hc, Nat.ModEq]
  omega

/-- An `int` converted to `size_t`: a negative one wraps around. -/
def toSize (n : Int32) : UInt64 := n.toInt64.toUInt64

theorem toNat_toSize (n : Int32) : ((toSize n).toNat : ℤ) = n.toInt % 2 ^ 64 := by
  have hwide : n.toInt64.toInt = n.toInt := Int32.toInt_toInt64 n
  have hsize : n.toInt64.toInt = ((toSize n).toNat : ℤ).bmod (2 ^ 64) :=
    BitVec.toInt_eq_toNat_bmod _
  have hbound : (toSize n).toNat < 2 ^ 64 := (toSize n).toNat_lt
  rw [← hwide, hsize, Int.bmod_def]
  split <;> omega

/-! ### Sums that must not overflow -/

/-- The values of an `int`. -/
def InInt (n : ℤ) : Prop := -2 ^ 31 ≤ n ∧ n < 2 ^ 31

instance (n : ℤ) : Decidable (InInt n) := inferInstanceAs (Decidable (_ ∧ _))

/-- A wider number converted to `int`. -/
def cutInt (n : ℤ) : ℤ := n.bmod (2 ^ 32)

/-- A sum that starts with `acc` is an `int` after every number. -/
def SumsFit (acc : ℤ) : List ℤ → Prop
  | [] => True
  | n :: ns => InInt (acc + n) ∧ SumsFit (acc + n) ns

@[simp] theorem cutInt_zero : cutInt 0 = 0 := rfl

end CInt
