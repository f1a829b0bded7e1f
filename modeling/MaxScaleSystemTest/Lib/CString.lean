import Mathlib.Data.List.Basic
import Mathlib.Data.List.TakeWhile
import Mathlib.Tactic.NormNum

namespace CString

/-!
# Byte strings and the C string functions

A C string is the list of its bytes before the NUL.  `strchr` and `atoi` follow the C
library; `atoi` is `(int) strtol(s, NULL, 10)`, which saturates at the limits of a 64-bit
`long` and is cut to 32 bits.
-/

/-- The bytes of a string, without a terminating NUL. -/
abbrev Bytes := List UInt8

/-- The bytes of an ASCII string literal. -/
def ascii (s : String) : Bytes := s.toList.map Char.toUInt8

/-- The newline byte. -/
def nl : UInt8 := 10

/-- The C string at the start of a memory area: its bytes before the first NUL. -/
def cut (s : Bytes) : Bytes := s.takeWhile (· ≠ 0)

theorem cut_of_not_mem {s : Bytes} (h : 0 ∉ s) : cut s = s :=
  List.takeWhile_eq_self_iff.mpr fun c hc => by
    have hne : c ≠ 0 := fun heq => h (heq ▸ hc)
    simpa using hne

/-- A NUL behind a string ends it. -/
theorem cut_append_zero (s t : Bytes) : cut (s ++ 0 :: t) = cut s := by
  induction s with
  | nil => rfl
  | cons c s ih =>
    by_cases hc : c = 0
    · subst hc
      rfl
    · have hcut : ∀ u : Bytes, cut (c :: u) = c :: cut u := by
        intro u
        simp [cut, hc]
      rw [List.cons_append, hcut, hcut, ih]

/-- Nothing behind a NUL belongs to the string. -/
theorem cut_append_of_mem {s : Bytes} (h : 0 ∈ s) (t : Bytes) : cut (s ++ t) = cut s := by
  obtain ⟨front, rest, rfl⟩ := List.append_of_mem h
  rw [List.append_assoc, List.cons_append, cut_append_zero, cut_append_zero]

/-- `strchr(s, c)`: the rest of `s` from the first `c` on, `none` for a NULL result. -/
def strchr (s : Bytes) (c : UInt8) : Option Bytes :=
  -- the terminating NUL, which is no part of `s`, is not searched for
  match s.dropWhile (· ≠ c) with
  | [] => none
  | t => some t

/-- `strstr(s, needle)`: the rest of `s` from the first `needle` on, `none` for a NULL
    result. -/
def strstr (s needle : Bytes) : Option Bytes :=
  if needle <+: s then some s
  else match s with
    | [] => none
    | _ :: s => strstr s needle

/-- `strstr` finds exactly the substrings. -/
theorem strstr_isSome_iff (s needle : Bytes) : (strstr s needle).isSome ↔ needle <:+: s := by
  induction s with
  | nil =>
    rw [strstr]
    split <;> simp_all
  | cons c s ih =>
    rw [strstr, List.infix_cons_iff]
    split
    · simp_all
    · rw [ih]
      simp_all

/-- `strstr` returns the rest of the string from the first place on where `needle` stands. -/
theorem strstr_eq_some_iff {s needle r : Bytes} :
    strstr s needle = some r ↔ ∃ front, s = front ++ r ∧ needle <+: r ∧
      ∀ k < front.length, ¬ needle <+: s.drop k := by
  induction s with
  | nil =>
    rw [strstr]
    split
    · constructor
      · rintro ⟨⟩
        exact ⟨[], rfl, ‹_›, nofun⟩
      · rintro ⟨front, hs, -, -⟩
        rw [(List.append_eq_nil_iff.mp hs.symm).2]
    · constructor
      · nofun
      · rintro ⟨front, hs, hr, -⟩
        rw [(List.append_eq_nil_iff.mp hs.symm).2] at hr
        exact absurd hr ‹_›
  | cons c s ih =>
    rw [strstr]
    by_cases hhere : needle <+: c :: s
    · rw [if_pos hhere]
      constructor
      · rintro ⟨⟩
        exact ⟨[], rfl, hhere, nofun⟩
      · -- nothing stands before the first place
        rintro ⟨front, hs, -, hfirst⟩
        match front with
        | [] => rw [hs, List.nil_append]
        | _ :: _ => exact absurd hhere (hfirst 0 (Nat.succ_pos _))
    · rw [if_neg hhere, ih]
      constructor
      · rintro ⟨front, rfl, hr, hfirst⟩
        refine ⟨c :: front, rfl, hr, fun k hk => ?_⟩
        match k with
        | 0 => exact hhere
        | k + 1 => exact hfirst k (Nat.lt_of_succ_lt_succ hk)
      · rintro ⟨front, hs, hr, hfirst⟩
        match front with
        | [] =>
          rw [List.nil_append] at hs
          exact absurd (hs ▸ hr) hhere
        | d :: front =>
          obtain ⟨rfl, rfl⟩ := List.cons.inj hs
          exact ⟨front, rfl, hr, fun k hk => hfirst (k + 1) (Nat.succ_lt_succ hk)⟩

/-- `strstr` returns the whole string exactly when it starts with `needle`. -/
theorem strstr_eq_self_iff {s needle : Bytes} : strstr s needle = some s ↔ needle <+: s := by
  rw [strstr_eq_some_iff]
  constructor
  · rintro ⟨front, -, hprefix, -⟩
    exact hprefix
  · exact fun h => ⟨[], rfl, h, nofun⟩

/-- `strchr` returns the rest of the string from the first `c` on. -/
theorem strchr_append_cons {front : Bytes} {c : UInt8} (h : c ∉ front) (rest : Bytes) :
    strchr (front ++ c :: rest) c = some (c :: rest) := by
  have hne : ∀ d ∈ front, decide (d ≠ c) = true := by
    intro d hd
    have hdc : d ≠ c := fun heq => h (heq ▸ hd)
    simpa using hdc
  have hdrop : (front ++ c :: rest).dropWhile (· ≠ c) = c :: rest := by
    rw [List.dropWhile_append_of_pos hne]
    simp
  rw [strchr, hdrop]

/-- `strchr` finds the first `c`, and nothing where there is none. -/
theorem strchr_eq_some_iff {s r : Bytes} {c : UInt8} :
    strchr s c = some r ↔ ∃ front rest, s = front ++ c :: rest ∧ c ∉ front ∧ r = c :: rest := by
  constructor
  · intro h
    have hmem : c ∈ s := by
      by_contra hno
      have hdrop : s.dropWhile (· ≠ c) = [] := by
        rw [List.dropWhile_eq_nil_iff]
        intro d hd
        have hne : d ≠ c := fun heq => hno (heq ▸ hd)
        simpa using hne
      rw [strchr, hdrop] at h
      cases h
    obtain ⟨front, rest, rfl, hfront⟩ := List.eq_append_cons_of_mem hmem
    rw [strchr_append_cons hfront, Option.some.injEq] at h
    exact ⟨front, rest, rfl, hfront, h.symm⟩
  · rintro ⟨front, rest, rfl, hfront, rfl⟩
    exact strchr_append_cons hfront rest

/-- What `strrchr(s, c)` cuts off the end: the part of `s` before the last `c`, `none` for a
    NULL result. -/
def beforeLast (s : Bytes) (c : UInt8) : Option Bytes :=
  match s.reverse.dropWhile (· ≠ c) with
  | [] => none
  | _ :: front => some front.reverse

/-- The part before the last `c` and that `c` start the string. -/
theorem prefix_of_beforeLast {s front : Bytes} {c : UInt8} (h : beforeLast s c = some front) :
    front ++ [c] <+: s := by
  unfold beforeLast at h
  split at h
  · cases h
  · rename_i d rest hrest
    cases h
    have hd : d = c := by
      have hfirst := List.head?_dropWhile_not (· ≠ c) s.reverse
      rw [hrest] at hfirst
      simpa using hfirst
    have hsuffix : d :: rest <:+ s.reverse := hrest ▸ List.dropWhile_suffix _
    have hprefix := List.reverse_prefix.mpr hsuffix
    rwa [List.reverse_cons, List.reverse_reverse, hd] at hprefix

/-- The last byte of a string is the last of its kind. -/
theorem beforeLast_append_singleton (s : Bytes) (c : UInt8) : beforeLast (s ++ [c]) c = some s := by
  rw [beforeLast, List.reverse_append]
  simp

/-- `isspace` in the C locale. -/
def isspace (c : UInt8) : Bool := c = 32 || (9 ≤ c && c ≤ 13)

/-- `isdigit`. -/
def isdigit (c : UInt8) : Bool := 48 ≤ c && c ≤ 57

/-- A digit is neither white space nor a sign. -/
theorem not_isspace_of_isdigit {c : UInt8} (h : isdigit c = true) :
    isspace c = false ∧ c ≠ 45 ∧ c ≠ 43 := by
  unfold isdigit at h
  unfold isspace
  grind

/-- The run of digits at the front of a text ends where no digit follows. -/
theorem span_digits {ds rest : Bytes} (hds : ∀ c ∈ ds, isdigit c = true)
    (hrest : ∀ c ∈ rest.head?, isdigit c = false) :
    (ds ++ rest).takeWhile isdigit = ds ∧ (ds ++ rest).dropWhile isdigit = rest := by
  rw [List.takeWhile_append_of_pos hds, List.dropWhile_append_of_pos hds]
  match rest with
  | [] => simp
  | c :: rest =>
    have hc : isdigit c = false := hrest c rfl
    simp [hc]

/-- The value of a run of decimal digits. -/
def digitsValue (ds : Bytes) : ℤ := ds.foldl (fun n d => 10 * n + (d.toNat - 48 : ℤ)) 0

/-- The sign and the digits that follow it: `true` for a minus sign. -/
def splitSign : Bytes → Bool × Bytes
  | 45 :: s => (true, s)
  | 43 :: s => (false, s)
  | s => (false, s)

/-- `strtol(s, NULL, 10)` with a 64-bit `long`. -/
def strtol (s : Bytes) : ℤ :=
  let (negative, rest) := splitSign (s.dropWhile isspace)
  let value := digitsValue (rest.takeWhile isdigit)
  max (-2 ^ 63) (min (2 ^ 63 - 1) (if negative then -value else value))

/-- `atoi(s)`: the `long` cut to a 32-bit `int`. -/
def atoi (s : Bytes) : ℤ := (strtol s).bmod (2 ^ 32)

/-- A run of digits stands for a natural number. -/
theorem digitsValue_nonneg {ds : Bytes} (hds : ∀ c ∈ ds, isdigit c = true) :
    0 ≤ digitsValue ds := by
  have hfold : ∀ n : ℤ, 0 ≤ n → 0 ≤ ds.foldl (fun n d => 10 * n + (d.toNat - 48 : ℤ)) n := by
    induction ds with
    | nil => exact fun n hn => hn
    | cons d ds ih =>
      intro n hn
      have hdigit : isdigit d = true := hds d (List.mem_cons_self ..)
      have hge : 48 ≤ d.toNat := by
        unfold isdigit at hdigit
        have hle : (48 : UInt8) ≤ d := by simp_all
        exact hle
      refine ih (fun c hc => hds c (List.mem_cons_of_mem d hc)) _ ?_
      show 0 ≤ 10 * n + (d.toNat - 48 : ℤ)
      omega
  exact hfold 0 (le_refl 0)

/-- There is no space in front of digits. -/
theorem dropWhile_isspace_of_digits {ds : Bytes} (hds : ∀ c ∈ ds, isdigit c = true) :
    ds.dropWhile isspace = ds := by
  cases ds with
  | nil => rfl
  | cons d ds =>
    have hd := (not_isspace_of_isdigit (hds d (List.mem_cons_self ..))).1
    rw [List.dropWhile_cons_of_neg (by simpa using hd)]

/-- There is no sign in front of digits. -/
theorem splitSign_of_digits {ds : Bytes} (hds : ∀ c ∈ ds, isdigit c = true) :
    splitSign ds = (false, ds) := by
  cases ds with
  | nil => rfl
  | cons d ds =>
    obtain ⟨-, hminus, hplus⟩ := not_isspace_of_isdigit (hds d (List.mem_cons_self ..))
    unfold splitSign
    split <;> simp_all

/-- `strtol` on nothing but digits saturates at the largest `long`. -/
theorem strtol_of_digits {ds : Bytes} (hds : ∀ c ∈ ds, isdigit c = true) :
    strtol ds = min (2 ^ 63 - 1) (digitsValue ds) := by
  have hnonneg := digitsValue_nonneg hds
  have hrun : ds.takeWhile isdigit = ds := List.takeWhile_eq_self_iff.mpr hds
  rw [strtol, dropWhile_isspace_of_digits hds, splitSign_of_digits hds]
  show max (-2 ^ 63) (min (2 ^ 63 - 1) (digitsValue (ds.takeWhile isdigit))) = _
  rw [hrun]
  omega

/-- **Range.** `atoi` gives the value of a run of digits exactly below `2^31`. -/
theorem atoi_eq_digitsValue_iff {ds : Bytes} (hds : ∀ c ∈ ds, isdigit c = true) :
    atoi ds = digitsValue ds ↔ digitsValue ds < 2 ^ 31 := by
  have hnonneg := digitsValue_nonneg hds
  rw [atoi, strtol_of_digits hds, Int.bmod_def]
  split <;> omega

/-- A run of digits that does not fit reads as something smaller. -/
theorem atoi_le_digitsValue {ds : Bytes} (hds : ∀ c ∈ ds, isdigit c = true) :
    atoi ds ≤ digitsValue ds := by
  have hnonneg := digitsValue_nonneg hds
  rw [atoi, strtol_of_digits hds, Int.bmod_def]
  split <;> omega

example : atoi (ascii "000002") = 2 := by decide
example : atoi (ascii " -17x") = -17 := by decide
example : (strchr (ascii "mar-bin.000002") 46).map List.tail = some (ascii "000002") := by decide

end CString
