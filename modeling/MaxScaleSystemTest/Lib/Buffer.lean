import MaxScaleSystemTest.Lib.CString

namespace CString

/-!
# Fixed-size byte buffers

A `Buffer cap` holds exactly `cap` bytes.  A store outside it is not a value: `set?`
returns `none` there, so a program that writes through `set?` shows its out-of-bounds
writes, and so does one that copies strings with `strcpy?`.
-/

/-- An array of `cap` bytes. -/
structure Buffer (cap : ℕ) where
  bytes : Bytes
  length_eq : bytes.length = cap

namespace Buffer

variable {cap : ℕ}

/-- A buffer of zero bytes. -/
def zero (cap : ℕ) : Buffer cap := ⟨List.replicate cap 0, List.length_replicate⟩

/-- Overwrite the front of the buffer with `src`. -/
def fill (b : Buffer cap) (src : Bytes) (h : src.length ≤ cap) : Buffer cap :=
  ⟨src ++ b.bytes.drop src.length, by rw [List.length_append, List.length_drop, b.length_eq]; omega⟩

/-- `b[i] = c`, `none` when `i` is outside the buffer. -/
def set? (b : Buffer cap) (i : ℕ) (c : UInt8) : Option (Buffer cap) :=
  if i < cap then some ⟨b.bytes.set i c, by rw [List.length_set, b.length_eq]⟩ else none

/-- `strcpy` to the place `i` of the buffer, `none` when it or the NUL gets outside. -/
def strcpy? (b : Buffer cap) (i : ℕ) : Bytes → Option (Buffer cap)
  | [] => b.set? i 0
  | c :: s => (b.set? i c).bind fun b => strcpy? b (i + 1) s

/-- The C string at the start of the buffer. -/
def cstring (b : Buffer cap) : Bytes := b.bytes.takeWhile (· ≠ 0)

theorem set?_eq_none_iff (b : Buffer cap) (i : ℕ) (c : UInt8) : b.set? i c = none ↔ cap ≤ i := by
  unfold set?
  split <;> simp <;> omega

/-- A store right behind a known front extends the front by the stored byte. -/
theorem take_set? {b b' : Buffer cap} {i : ℕ} {c : UInt8} (h : b.set? i c = some b') :
    b'.bytes.take (i + 1) = b.bytes.take i ++ [c] := by
  unfold set? at h
  split at h
  · rename_i hi
    cases h
    have hlen : i < b.bytes.length := by rw [b.length_eq]; exact hi
    rw [List.take_add_one, List.take_set_of_le (le_refl i)]
    simp [hlen]
  · cases h

/-- A copy right behind a known front extends the front by the string and its NUL. -/
theorem strcpy?_of_fits {b : Buffer cap} {i : ℕ} {s : Bytes} (h : i + s.length < cap) :
    ∃ b', b.strcpy? i s = some b' ∧
      b'.bytes.take (i + s.length + 1) = b.bytes.take i ++ s ++ [0] := by
  induction s generalizing b i with
  | nil =>
    obtain ⟨b', hb'⟩ := Option.ne_none_iff_exists'.mp
      (mt (set?_eq_none_iff b i 0).mp (Nat.not_le_of_lt h))
    exact ⟨b', hb', by rw [List.append_nil]; exact take_set? hb'⟩
  | cons c s ih =>
    rw [List.length_cons] at h
    obtain ⟨b₁, hb₁⟩ := Option.ne_none_iff_exists'.mp
      (mt (set?_eq_none_iff b i c).mp (by omega))
    obtain ⟨b', hb', htake⟩ := ih (b := b₁) (i := i + 1) (by omega)
    refine ⟨b', by rw [strcpy?, hb₁]; exact hb', ?_⟩
    have hlength : i + (c :: s).length + 1 = i + 1 + s.length + 1 := by
      rw [List.length_cons]
      omega
    rw [hlength, htake, take_set? hb₁, List.append_assoc, List.append_assoc, List.append_assoc]
    rfl

theorem strcpy?_eq_none {b : Buffer cap} {i : ℕ} {s : Bytes} (h : cap ≤ i + s.length) :
    b.strcpy? i s = none := by
  induction s generalizing b i with
  | nil => exact (set?_eq_none_iff b i 0).mpr h
  | cons c s ih =>
    rw [strcpy?]
    cases b.set? i c with
    | none => rfl
    | some b₁ => exact ih (by rw [List.length_cons] at h; omega)

/-- A string in front of a NUL, without it. -/
theorem take_of_take_succ {b : Buffer cap} {s : Bytes}
    (h : b.bytes.take (s.length + 1) = s ++ [0]) : b.bytes.take s.length = s := by
  have htake := congrArg (List.take s.length) h
  rwa [List.take_take, List.take_left, Nat.min_eq_left (Nat.le_succ _)] at htake

/-- The string in front of a NUL. -/
theorem cstring_of_take {b : Buffer cap} {s : Bytes} (h : b.bytes.take (s.length + 1) = s ++ [0])
    (hs : 0 ∉ s) : b.cstring = s := by
  have hbytes : b.bytes = s ++ 0 :: b.bytes.drop (s.length + 1) := by
    conv_lhs => rw [← List.take_append_drop (s.length + 1) b.bytes, h, List.append_assoc]
    rfl
  show cut b.bytes = s
  rw [hbytes, cut_append_zero, cut_of_not_mem hs]

/-- A NUL stored right behind the bytes of `fill` ends the C string there. -/
theorem cstring_fill_set? (b : Buffer cap) {src : Bytes} (h : src.length ≤ cap)
    (hlt : src.length < cap) :
    ∃ b', (b.fill src h).set? src.length 0 = some b' ∧ b'.cstring = src.takeWhile (· ≠ 0) := by
  unfold set?
  rw [if_pos hlt]
  refine ⟨_, rfl, ?_⟩
  show ((src ++ b.bytes.drop src.length).set src.length 0).takeWhile (· ≠ 0) = _
  have hdrop : b.bytes.drop src.length ≠ [] := by
    intro hnil
    have hlen := congrArg List.length hnil
    simp only [List.length_drop, b.length_eq, List.length_nil] at hlen
    omega
  obtain ⟨c, rest, hrest⟩ := List.exists_cons_of_ne_nil hdrop
  rw [hrest, List.set_append_right _ _ (le_refl _), Nat.sub_self, List.set_cons_zero,
    List.takeWhile_append]
  -- the string ends at the stored NUL, or at one that `src` contains
  by_cases hfull : (src.takeWhile (· ≠ 0)).length = src.length
  · have hsrc : src.takeWhile (· ≠ 0) = src := (List.takeWhile_prefix _).eq_of_length hfull
    rw [if_pos hfull, hsrc]
    simp
  · rw [if_neg hfull]

end Buffer

end CString
