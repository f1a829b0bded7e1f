import MaxScaleSystemTest.Lib.CString
import Mathlib.Tactic.Ring

namespace Decimal

open CString

/-!
# Decimal text

`ofInt` is what `printf` writes for `%d`.  `read` takes a number off the front of a text,
and gets back what `ofInt` wrote when no digit follows it (`read_ofInt`).
-/

/-- The digit of a value below 10. -/
def digit (n : ℕ) : UInt8 := UInt8.ofNat (48 + n)

/-- The digits of `n`, of which there are at most `fuel`. -/
def digits : (fuel n : ℕ) → Bytes
  | 0, _ => []
  | fuel + 1, n => (if n < 10 then [] else digits fuel (n / 10)) ++ [digit (n % 10)]

/-- The decimal text of a natural number. -/
def ofNat (n : ℕ) : Bytes := digits (n + 1) n

/-- The byte `-`. -/
def minus : UInt8 := 45

/-- The decimal text of an integer. -/
def ofInt (z : ℤ) : Bytes := if z < 0 then minus :: ofNat z.natAbs else ofNat z.natAbs

/-- A number at the front of a text, without a sign, and what follows it. -/
def readNat (s : Bytes) : Option (ℤ × Bytes) :=
  match s.takeWhile isdigit with
  | [] => none
  | ds => some (digitsValue ds, s.dropWhile isdigit)

/-- An integer at the front of a text, and what follows it. -/
def read : Bytes → Option (ℤ × Bytes)
  | 45 :: s => (readNat s).map fun p => (-p.1, p.2)
  | s => readNat s

/-- What `sscanf(s, "%llu", &v)` stores, `none` when it finds no number and stores nothing. -/
def scanUnsigned (s : Bytes) : Option UInt64 :=
  let (negative, rest) := splitSign (s.dropWhile isspace)
  match rest.takeWhile isdigit with
  | [] => none
  | ds =>
    let value := UInt64.ofNat (min (digitsValue ds).toNat (2 ^ 64 - 1))
    some (if negative && (digitsValue ds).toNat < 2 ^ 64 then 0 - value else value)

/-! ### Single digits -/

theorem isdigit_digit : ∀ n < 10, isdigit (digit n) := by decide

theorem toNat_digit {n : ℕ} (h : n < 10) : (digit n).toNat = 48 + n := by
  show (48 + n) % 256 = 48 + n
  omega

/-! ### Natural numbers -/

theorem digitsValue_append_singleton (ds : Bytes) (d : UInt8) :
    digitsValue (ds ++ [d]) = 10 * digitsValue ds + (d.toNat - 48 : ℤ) := by
  rw [digitsValue, List.foldl_append]
  rfl

/-- With enough fuel the digits stand for the number. -/
theorem digitsValue_digits {fuel n : ℕ} (h : n < fuel) : digitsValue (digits fuel n) = n := by
  induction fuel generalizing n with
  | zero => exact absurd h (Nat.not_lt_zero n)
  | succ fuel ih =>
    have hlast : ((digit (n % 10)).toNat - 48 : ℤ) = (n % 10 : ℕ) := by
      rw [toNat_digit (Nat.mod_lt n (by decide))]
      push_cast
      ring
    rw [digits, digitsValue_append_singleton, hlast]
    by_cases hn : n < 10
    · rw [if_pos hn]
      show 10 * 0 + ((n % 10 : ℕ) : ℤ) = n
      omega
    · rw [if_neg hn, ih (by omega)]
      omega

/-- A text of digits only. -/
theorem isdigit_of_mem_digits {fuel n : ℕ} {c : UInt8} (h : c ∈ digits fuel n) : isdigit c := by
  induction fuel generalizing n with
  | zero => cases h
  | succ fuel ih =>
    rw [digits, List.mem_append] at h
    rcases h with h | h
    · by_cases hn : n < 10
      · rw [if_pos hn] at h
        cases h
      · rw [if_neg hn] at h
        exact ih h
    · rw [List.mem_singleton.mp h]
      exact isdigit_digit _ (Nat.mod_lt n (by decide))

theorem isdigit_of_mem_ofNat {n : ℕ} {c : UInt8} (h : c ∈ ofNat n) : isdigit c :=
  isdigit_of_mem_digits h

/-- A number has a digit at least. -/
theorem ofNat_ne_nil (n : ℕ) : ofNat n ≠ [] := by
  rw [ofNat, digits]
  simp

theorem digitsValue_ofNat (n : ℕ) : digitsValue (ofNat n) = n :=
  digitsValue_digits (Nat.lt_succ_self n)

/-- The digits of a text that starts with a number, when no digit follows it. -/
theorem readNat_ofNat (n : ℕ) {rest : Bytes} (hrest : ∀ c ∈ rest.head?, isdigit c = false) :
    readNat (ofNat n ++ rest) = some ((n : ℤ), rest) := by
  obtain ⟨htake, hdrop⟩ := span_digits (fun c hc => isdigit_of_mem_ofNat hc) hrest
  unfold readNat
  rw [htake, hdrop]
  split
  · exact absurd ‹_› (ofNat_ne_nil n)
  · rw [digitsValue_ofNat]

/-- Of two numbers the larger has no fewer digits. -/
theorem length_digits_mono {f g m n : ℕ} (hmn : m ≤ n) (hf : m < f) (hg : n < g) :
    (digits f m).length ≤ (digits g n).length := by
  induction f generalizing g m n with
  | zero => exact absurd hf (Nat.not_lt_zero m)
  | succ f ih =>
    match g with
    | 0 => exact absurd hg (Nat.not_lt_zero n)
    | g + 1 =>
      rw [digits, digits, List.length_append, List.length_append]
      apply Nat.add_le_add_right
      by_cases hm : m < 10
      · rw [if_pos hm]
        exact Nat.zero_le _
      · rw [if_neg hm, if_neg (by omega)]
        exact ih (Nat.div_le_div_right hmn) (by omega) (by omega)

theorem length_ofNat_mono {m n : ℕ} (h : m ≤ n) : (ofNat m).length ≤ (ofNat n).length :=
  length_digits_mono h (Nat.lt_succ_self m) (Nat.lt_succ_self n)

/-! ### Integers -/

/-- **Round trip.** Reading gives back the number that was written, when no digit follows. -/
theorem read_ofInt (z : ℤ) {rest : Bytes} (hrest : ∀ c ∈ rest.head?, isdigit c = false) :
    read (ofInt z ++ rest) = some (z, rest) := by
  have hread := readNat_ofNat z.natAbs hrest
  by_cases hz : z < 0
  · rw [ofInt, if_pos hz]
    show (readNat (ofNat z.natAbs ++ rest)).map _ = _
    rw [hread]
    have habs : -(z.natAbs : ℤ) = z := by omega
    rw [Option.map_some, habs]
  · have habs : (z.natAbs : ℤ) = z := by omega
    rw [ofInt, if_neg hz]
    obtain ⟨c, ds, hds⟩ := List.exists_cons_of_ne_nil (ofNat_ne_nil z.natAbs)
    -- the first character is a digit, so no sign is read
    have hc : isdigit c := isdigit_of_mem_ofNat (hds ▸ List.mem_cons_self)
    have hne : c ≠ 45 := by
      rintro rfl
      exact absurd hc (by decide)
    rw [hds, List.cons_append] at hread ⊢
    rw [read]
    · rw [hread, habs]
    · intro s heq
      exact hne (List.cons.inj heq).1

/-! ### Unsigned numbers -/

/-- A text of digits is one run of digits. -/
theorem takeWhile_ofNat (n : ℕ) : (ofNat n).takeWhile isdigit = ofNat n :=
  List.takeWhile_eq_self_iff.mpr fun _ hc => isdigit_of_mem_ofNat hc

/-- The first character of a natural number is neither a space nor a sign. -/
theorem ofNat_eq_cons (n : ℕ) :
    ∃ c ds, ofNat n = c :: ds ∧ isspace c = false ∧ c ≠ 45 ∧ c ≠ 43 := by
  obtain ⟨c, ds, hds⟩ := List.exists_cons_of_ne_nil (ofNat_ne_nil n)
  have hc : isdigit c := isdigit_of_mem_ofNat (hds ▸ List.mem_cons_self)
  exact ⟨c, ds, hds, not_isspace_of_isdigit hc⟩

/-- A number that was printed for `%d` is scanned as itself, a negative one modulo `2^64`. -/
theorem scanUnsigned_ofInt {z : ℤ} (h : z.natAbs < 2 ^ 64) :
    ∃ v, scanUnsigned (ofInt z) = some v ∧ (v.toNat : ℤ) = z % 2 ^ 64 := by
  obtain ⟨c, ds, hds, hspace, hminus, hplus⟩ := ofNat_eq_cons z.natAbs
  have htake := takeWhile_ofNat z.natAbs
  have hvalue : (digitsValue (c :: ds)).toNat = z.natAbs := by
    rw [← hds, digitsValue_ofNat]
    rfl
  rw [hds] at htake
  by_cases hz : z < 0
  · have htext : (ofInt z).dropWhile isspace = 45 :: c :: ds := by
      rw [ofInt, if_pos hz, hds]
      rfl
    -- `strtoull` negates the value that it has read
    refine ⟨0 - UInt64.ofNat z.natAbs, ?_, ?_⟩
    · simp only [scanUnsigned, htext, splitSign, htake, hvalue]
      simp [Nat.min_eq_left (Nat.le_of_lt_succ h)]
      intro hbig
      exact absurd h (Nat.not_lt.mpr hbig)
    · have hwrap : (0 - UInt64.ofNat z.natAbs).toNat = (2 ^ 64 - z.natAbs % 2 ^ 64 + 0) % 2 ^ 64 :=
        UInt64.toNat_sub 0 (UInt64.ofNat z.natAbs)
      rw [hwrap]
      omega
  · have hsign : splitSign (c :: ds) = (false, c :: ds) := by
      unfold splitSign
      split <;> simp_all
    have htext : (ofInt z).dropWhile isspace = c :: ds := by
      rw [ofInt, if_neg hz, hds, List.dropWhile_cons_of_neg (by simp [hspace])]
    refine ⟨UInt64.ofNat z.natAbs, ?_, ?_⟩
    · simp only [scanUnsigned, htext, hsign, htake, hvalue]
      simp [Nat.min_eq_left (Nat.le_of_lt_succ h)]
    · rw [UInt64.toNat_ofNat', Nat.mod_eq_of_lt h]
      omega

end Decimal
