import Mathlib.Data.List.Basic

namespace Delimited

/-!
# Delimited records

A list over any alphabet is, in one way only, a sequence of records each closed by the
delimiter, followed by an unfinished record.  `split` computes the decomposition and
`join_split` puts it together again.
-/

variable {α : Type*} [DecidableEq α]

/-- The complete records of a list, without their delimiters, and the unfinished rest. -/
def split (delim : α) : List α → List (List α) × List α
  | [] => ([], [])
  | b :: bs =>
    match split delim bs with
    | (records, rest) =>
      if b = delim then ([] :: records, rest)
      else match records with
        | [] => ([], b :: rest)
        | r :: rs => ((b :: r) :: rs, rest)

/-- The complete records of a list. -/
def records (delim : α) (l : List α) : List (List α) := (split delim l).1

/-- What follows the last delimiter of a list. -/
def unfinished (delim : α) (l : List α) : List α := (split delim l).2

/-- The list made of closed records and an unfinished one. -/
def join (delim : α) (rs : List (List α)) (rest : List α) : List α :=
  rs.flatMap (· ++ [delim]) ++ rest

omit [DecidableEq α] in
/-- Records may be put together in two steps. -/
theorem join_append (delim : α) (rs₁ rs₂ : List (List α)) (rest : List α) :
    join delim (rs₁ ++ rs₂) rest = join delim rs₁ (join delim rs₂ rest) := by
  simp [join]

/-- Splitting loses and invents nothing. -/
theorem join_split (delim : α) (l : List α) :
    join delim (records delim l) (unfinished delim l) = l := by
  induction l with
  | nil => rfl
  | cons b bs ih =>
    simp only [records, unfinished, split] at ih ⊢
    generalize split delim bs = p at ih ⊢
    obtain ⟨rs, rest⟩ := p
    by_cases hb : b = delim
    · -- a delimiter closes an empty record
      simp only [if_pos hb]
      rw [← ih, hb]
      simp [join]
    · -- any other element goes to the front of the next record
      simp only [if_neg hb]
      cases rs with
      | nil =>
        rw [← ih]
        simp [join]
      | cons r rs =>
        rw [← ih]
        simp [join]

/-- No complete record and no unfinished one contains the delimiter. -/
theorem delim_not_mem (delim : α) (l : List α) :
    (∀ r ∈ records delim l, delim ∉ r) ∧ delim ∉ unfinished delim l := by
  induction l with
  | nil => simp [records, unfinished, split]
  | cons b bs ih =>
    simp only [records, unfinished, split] at ih ⊢
    generalize split delim bs = p at ih ⊢
    obtain ⟨rs, rest⟩ := p
    by_cases hb : b = delim
    · simp only [if_pos hb]
      exact ⟨by simpa using ih.1, ih.2⟩
    · simp only [if_neg hb]
      have hne : delim ≠ b := fun h => hb h.symm
      -- the byte goes to the front of the first record, or of the unfinished one
      cases rs with
      | nil => exact ⟨by simp, by simp [hne, ih.2]⟩
      | cons r rs =>
        refine ⟨?_, ih.2⟩
        intro r' hr'
        rcases List.mem_cons.mp hr' with rfl | hmem
        · simp [hne, ih.1 r (by simp)]
        · exact ih.1 r' (by simp [hmem])

end Delimited
