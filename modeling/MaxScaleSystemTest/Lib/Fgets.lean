import Mathlib.Data.List.Basic
import Mathlib.Data.List.TakeWhile
import Mathlib.Data.Nat.Notation

namespace Fgets

/-!
# Reading a file line by line into a buffer

`read` takes a line with its delimiter, or as much of it as the buffer holds.  Taken again and
again it cuts a file into `pieces`; the lines of the file are their own notion.

* `read_spec` — one call against the first line of the file;
* `pieces_eq_lines` — the pieces are the lines when the buffer holds every line;
* `length_pieces_eq_iff` — there are as many pieces as lines only then;
* `pieces_eq_flatMap`, `length_filled_lines_le` — the same for buffers that hold every line up
  to its delimiter, where only the lines and pieces with something in them matter.
-/

variable {α : Type*} [DecidableEq α] (delim : α)

/-- What one call reads, what it leaves, and whether it met the end of the file. -/
structure Read (α : Type*) where
  text : List α
  rest : List α
  atEnd : Bool

/-- Read until the delimiter, the end, or `n` cells. -/
def read : (n : ℕ) → List α → Read α
  | 0, s => ⟨[], s, false⟩
  | _ + 1, [] => ⟨[], [], true⟩
  | n + 1, c :: s =>
    if c = delim then ⟨[c], s, false⟩
    else
      let more := read n s
      ⟨c :: more.text, more.rest, more.atEnd⟩

/-- The pieces of a file, as long as there is one, in at most `fuel` calls. -/
def pieces (n : ℕ) : (fuel : ℕ) → List α → List (List α)
  | 0, _ => []
  | fuel + 1, s =>
    if s = [] then [] else (read delim n s).text :: pieces n fuel (read delim n s).rest

/-- The lines of a file, each with its delimiter, which the last one may lack. -/
def lines : List α → List (List α)
  | [] => []
  | c :: s =>
    if c = delim then [c] :: lines s
    else
      match lines s with
      | [] => [[c]]
      | l :: ls => (c :: l) :: ls

variable {delim}

/-! ### One call -/

theorem read_nil (n : ℕ) : (read delim n []).text = [] ∧ (read delim n []).rest = [] := by
  cases n <;> exact ⟨rfl, rfl⟩

theorem read_of_delim (n : ℕ) (s : List α) :
    read delim (n + 1) (delim :: s) = ⟨[delim], s, false⟩ := by
  rw [read, if_pos rfl]

theorem read_of_ne {c : α} (h : c ≠ delim) (n : ℕ) (s : List α) :
    read delim (n + 1) (c :: s) =
      ⟨c :: (read delim n s).text, (read delim n s).rest, (read delim n s).atEnd⟩ := by
  rw [read, if_neg h]

/-- Reading loses and invents nothing. -/
theorem text_append_rest (delim : α) (n : ℕ) (s : List α) :
    (read delim n s).text ++ (read delim n s).rest = s := by
  induction n generalizing s with
  | zero => rfl
  | succ n ih =>
    match s with
    | [] => rfl
    | c :: s =>
      by_cases h : c = delim
      · rw [h, read_of_delim]
        rfl
      · rw [read_of_ne h]
        exact congrArg (c :: ·) (ih s)

theorem length_text_le (delim : α) (n : ℕ) (s : List α) : (read delim n s).text.length ≤ n := by
  induction n generalizing s with
  | zero => exact Nat.le_refl 0
  | succ n ih =>
    match s with
    | [] => exact Nat.zero_le _
    | c :: s =>
      by_cases h : c = delim
      · simp [h, read_of_delim]
      · simpa [read_of_ne h] using ih s

/-- As long as there is something to read, something is read. -/
theorem text_ne_nil (delim : α) {n : ℕ} (hn : 0 < n) {s : List α} (hs : s ≠ []) :
    (read delim n s).text ≠ [] := by
  obtain ⟨n, rfl⟩ := Nat.exists_eq_add_one_of_ne_zero (Nat.ne_of_gt hn)
  match s with
  | c :: s =>
    by_cases h : c = delim
    · simp [h, read_of_delim]
    · simp [read_of_ne h]

theorem length_rest_lt (delim : α) {n : ℕ} (hn : 0 < n) {s : List α} (hs : s ≠ []) :
    (read delim n s).rest.length < s.length := by
  have hlength := congrArg List.length (text_append_rest delim n s)
  have hpos := List.length_pos_iff.mpr (text_ne_nil delim hn hs)
  rw [List.length_append] at hlength
  omega

/-- What one call reads, told from where the first delimiter is. -/
theorem read_eq_take (delim : α) (n : ℕ) (s : List α) :
    (read delim n s).text = s.take (min n ((s.takeWhile (· ≠ delim)).length + 1)) ∧
      (read delim n s).rest = s.drop (min n ((s.takeWhile (· ≠ delim)).length + 1)) := by
  induction n generalizing s with
  | zero => simp [read]
  | succ n ih =>
    match s with
    | [] => simp [read]
    | c :: s =>
      by_cases h : c = delim
      · rw [h, read_of_delim]
        simp
      · obtain ⟨htext, hrest⟩ := ih s
        rw [read_of_ne h, htext, hrest]
        simp [h, Nat.add_min_add_right]

/-- Behind the end of a file nothing is left. -/
theorem rest_of_atEnd {n : ℕ} {s : List α} (h : (read delim n s).atEnd = true) :
    (read delim n s).rest = [] := by
  induction n generalizing s with
  | zero => cases h
  | succ n ih =>
    match s with
    | [] => rfl
    | c :: s =>
      by_cases hc : c = delim
      · rw [hc, read_of_delim] at h
        cases h
      · rw [read_of_ne hc] at h ⊢
        exact ih h

/-! ### Lines -/

theorem lines_of_delim (s : List α) : lines delim (delim :: s) = [delim] :: lines delim s := by
  rw [lines, if_pos rfl]

theorem lines_of_ne {c : α} (h : c ≠ delim) {s l : List α} {ls : List (List α)}
    (hs : lines delim s = l :: ls) : lines delim (c :: s) = (c :: l) :: ls := by
  rw [lines, if_neg h, hs]

/-- A file is its lines, one after the other. -/
theorem flatten_lines (delim : α) (s : List α) : (lines delim s).flatten = s := by
  induction s with
  | nil => rfl
  | cons c s ih =>
    by_cases h : c = delim
    · rw [h, lines_of_delim, List.flatten_cons, ih]
      rfl
    · cases hs : lines delim s with
      | nil =>
        rw [hs] at ih
        simp [lines, h, ← ih]
      | cons l ls =>
        rw [hs] at ih
        rw [lines_of_ne h hs, ← ih]
        rfl

theorem lines_ne_nil (delim : α) {s : List α} (h : s ≠ []) : lines delim s ≠ [] := by
  intro hlines
  have hflatten := flatten_lines delim s
  rw [hlines] at hflatten
  exact h hflatten.symm

theorem ne_nil_of_mem_lines {s l : List α} (h : l ∈ lines delim s) : l ≠ [] := by
  induction s generalizing l with
  | nil => cases h
  | cons c s ih =>
    by_cases hc : c = delim
    · rw [hc, lines_of_delim] at h
      rcases List.mem_cons.mp h with rfl | h
      · exact List.cons_ne_nil _ _
      · exact ih h
    · cases hs : lines delim s with
      | nil =>
        rw [lines, if_neg hc, hs] at h
        rw [List.mem_singleton.mp h]
        exact List.cons_ne_nil _ _
      | cons first ls =>
        rw [lines_of_ne hc hs] at h
        rcases List.mem_cons.mp h with rfl | h
        · exact List.cons_ne_nil _ _
        · exact ih (hs ▸ List.mem_cons_of_mem _ h)

/-- **One call.** It takes the first line if the buffer holds it, and else as much of it as the
    buffer holds, so that the rest becomes the first line. -/
theorem read_spec (delim : α) (n : ℕ) {s : List α} (hs : s ≠ []) : ∃ l ls, lines delim s = l :: ls ∧
    (l.length ≤ n → (read delim n s).text = l ∧ lines delim (read delim n s).rest = ls) ∧
    (n < l.length → lines delim (read delim n s).rest = l.drop n :: ls) := by
  induction n generalizing s with
  | zero =>
    obtain ⟨l, ls, hlines⟩ := List.exists_cons_of_ne_nil (lines_ne_nil delim hs)
    have hl : l ≠ [] := ne_nil_of_mem_lines (hlines ▸ List.mem_cons_self)
    have hpos := List.length_pos_iff.mpr hl
    exact ⟨l, ls, hlines, fun h => absurd h (by omega), fun _ => hlines⟩
  | succ n ih =>
    match s with
    | c :: s =>
      by_cases hc : c = delim
      · refine ⟨[delim], lines delim s, by rw [hc, lines_of_delim], fun _ => ?_, fun h => ?_⟩
        · rw [hc, read_of_delim]
          exact ⟨rfl, rfl⟩
        · simp at h
      · by_cases hs : s = []
        · subst hs
          refine ⟨[c], [], by simp [lines, hc], fun _ => ?_, fun h => ?_⟩
          · rw [read_of_ne hc, (read_nil n).1, (read_nil n).2]
            exact ⟨rfl, rfl⟩
          · simp at h
        · obtain ⟨l, ls, hlines, hshort, hlong⟩ := ih hs
          refine ⟨c :: l, ls, lines_of_ne hc hlines, fun h => ?_, fun h => ?_⟩
          · obtain ⟨htext, hrest⟩ := hshort (by simpa using h)
            rw [read_of_ne hc]
            exact ⟨congrArg (c :: ·) htext, hrest⟩
          · rw [read_of_ne hc]
            exact hlong (by simpa using h)

/-! ### All calls -/

variable {n : ℕ}

theorem pieces_nil (fuel : ℕ) : pieces delim n fuel [] = [] := by
  cases fuel <;> rfl

theorem pieces_of_ne_nil (fuel : ℕ) {s : List α} (hs : s ≠ []) :
    pieces delim n (fuel + 1) s =
      (read delim n s).text :: pieces delim n fuel (read delim n s).rest := by
  rw [pieces, if_neg hs]

theorem length_of_mem_pieces {fuel : ℕ} {s piece : List α} (h : piece ∈ pieces delim n fuel s) :
    piece.length ≤ n := by
  induction fuel generalizing s with
  | zero => cases h
  | succ fuel ih =>
    by_cases hs : s = []
    · rw [pieces, if_pos hs] at h
      cases h
    · rw [pieces_of_ne_nil fuel hs] at h
      rcases List.mem_cons.mp h with rfl | h
      · exact length_text_le delim n s
      · exact ih h

/-- The pieces put together are the file. -/
theorem flatten_pieces (hn : 0 < n) {fuel : ℕ} {s : List α} (hfuel : s.length ≤ fuel) :
    (pieces delim n fuel s).flatten = s := by
  induction fuel generalizing s with
  | zero =>
    rw [List.eq_nil_of_length_eq_zero (Nat.le_zero.mp hfuel)]
    rfl
  | succ fuel ih =>
    by_cases hs : s = []
    · rw [hs, pieces_nil, List.flatten_nil]
    · have hless := length_rest_lt delim hn hs
      rw [pieces_of_ne_nil fuel hs, List.flatten_cons, ih (by omega), text_append_rest]

/-- A piece of nothing but delimiters is a single one. -/
theorem piece_eq_singleton (hn : 0 < n) {fuel : ℕ} {s piece : List α}
    (h : piece ∈ pieces delim n fuel s) (hall : ∀ c ∈ piece, c = delim) : piece = [delim] := by
  induction fuel generalizing s with
  | zero => cases h
  | succ fuel ih =>
    match s with
    | [] => cases h
    | c :: s =>
      rw [pieces_of_ne_nil fuel (List.cons_ne_nil c s)] at h
      rcases List.mem_cons.mp h with rfl | h
      · obtain ⟨n, rfl⟩ := Nat.exists_eq_add_one_of_ne_zero (Nat.ne_of_gt hn)
        by_cases hc : c = delim
        · rw [hc, read_of_delim]
        · rw [read_of_ne hc] at hall
          exact absurd (hall c List.mem_cons_self) hc
      · exact ih h

/-- **Short lines.** When the buffer holds every line, the pieces are the lines. -/
theorem pieces_eq_lines (hn : 0 < n) {fuel : ℕ} {s : List α} (hfuel : s.length ≤ fuel)
    (hlines : ∀ l ∈ lines delim s, l.length ≤ n) : pieces delim n fuel s = lines delim s := by
  induction fuel generalizing s with
  | zero =>
    rw [List.eq_nil_of_length_eq_zero (Nat.le_zero.mp hfuel)]
    rfl
  | succ fuel ih =>
    by_cases hs : s = []
    · rw [hs]
      rfl
    · obtain ⟨l, ls, heq, hshort, -⟩ := read_spec delim n hs
      rw [heq, List.forall_mem_cons] at hlines
      obtain ⟨htext, hrest⟩ := hshort hlines.1
      have hless := length_rest_lt delim hn hs
      rw [pieces_of_ne_nil fuel hs, ih (by omega) (by rw [hrest]; exact hlines.2), htext, hrest,
        heq]

/-- There are at least as many pieces as lines, and more when a line does not fit. -/
theorem length_lines_le (hn : 0 < n) {fuel : ℕ} {s : List α} (hfuel : s.length ≤ fuel) :
    (lines delim s).length ≤ (pieces delim n fuel s).length ∧
      ((∃ l ∈ lines delim s, n < l.length) →
        (lines delim s).length < (pieces delim n fuel s).length) := by
  induction fuel generalizing s with
  | zero =>
    rw [List.eq_nil_of_length_eq_zero (Nat.le_zero.mp hfuel)]
    exact ⟨Nat.le_refl _, by simp [lines]⟩
  | succ fuel ih =>
    by_cases hs : s = []
    · rw [hs]
      exact ⟨Nat.le_refl _, by simp [lines]⟩
    · obtain ⟨l, ls, heq, hshort, hlong⟩ := read_spec delim n hs
      have hless := length_rest_lt delim hn hs
      obtain ⟨hle, hlt⟩ := ih (s := (read delim n s).rest) (by omega)
      rw [pieces_of_ne_nil fuel hs, heq, List.length_cons, List.length_cons]
      by_cases hl : l.length ≤ n
      · obtain ⟨-, hrest⟩ := hshort hl
        rw [hrest] at hle hlt
        refine ⟨by omega, fun ⟨l', hl', hover⟩ => ?_⟩
        rcases List.mem_cons.mp hl' with rfl | hl'
        · omega
        · exact Nat.succ_lt_succ (hlt ⟨l', hl', hover⟩)
      · have hrest := hlong (by omega)
        rw [hrest, List.length_cons] at hle
        exact ⟨by omega, fun _ => by omega⟩

/-- **Long lines.** There are as many pieces as lines only when the buffer holds every line. -/
theorem length_pieces_eq_iff (hn : 0 < n) {fuel : ℕ} {s : List α} (hfuel : s.length ≤ fuel) :
    (pieces delim n fuel s).length = (lines delim s).length ↔
      ∀ l ∈ lines delim s, l.length ≤ n := by
  refine ⟨fun h l hl => ?_, fun h => by rw [pieces_eq_lines hn hfuel h]⟩
  by_contra hover
  have hless := (length_lines_le hn hfuel).2 ⟨l, hl, by omega⟩
  omega

/-! ### Lines without their delimiter -/

/-- What is in a line: all of it up to the delimiter. -/
def content (delim : α) (l : List α) : List α := l.takeWhile (· ≠ delim)

/-- A line is its content, with the delimiter behind it or, at the end, without. -/
theorem line_eq_content {s l : List α} (h : l ∈ lines delim s) :
    l = content delim l ∨ l = content delim l ++ [delim] := by
  induction s generalizing l with
  | nil => cases h
  | cons c s ih =>
    by_cases hc : c = delim
    · rw [hc, lines_of_delim] at h
      rcases List.mem_cons.mp h with rfl | h
      · exact .inr (by simp [content])
      · exact ih h
    · have hcons : ∀ l, content delim (c :: l) = c :: content delim l := fun l =>
        List.takeWhile_cons_of_pos (by simpa using hc)
      cases hs : lines delim s with
      | nil =>
        rw [lines, if_neg hc, hs] at h
        rw [List.mem_singleton.mp h, hcons]
        exact .inl rfl
      | cons first ls =>
        rw [lines_of_ne hc hs] at h
        rcases List.mem_cons.mp h with rfl | h
        · rw [hcons]
          refine (ih (hs ▸ List.mem_cons_self)).imp (fun heq => ?_) (fun heq => ?_)
          · exact congrArg (c :: ·) heq
          · exact congrArg (c :: ·) heq
        · exact ih (hs ▸ List.mem_cons_of_mem _ h)

theorem delim_not_mem_content (delim : α) (l : List α) : delim ∉ content delim l := by
  intro h
  simpa using List.mem_takeWhile_imp h

/-- Only the line that is nothing but its delimiter has nothing in it. -/
theorem content_eq_nil_iff {s l : List α} (h : l ∈ lines delim s) :
    content delim l = [] ↔ l = [delim] := by
  constructor
  · intro hnil
    rcases line_eq_content h with heq | heq
    · exact absurd (heq.trans hnil) (ne_nil_of_mem_lines h)
    · rw [heq, hnil, List.nil_append]
  · rintro rfl
    simp [content]

/-- A line is longer than its content by its delimiter at most. -/
theorem length_line_le {s l : List α} (h : l ∈ lines delim s) :
    l.length ≤ (content delim l).length + 1 := by
  rcases line_eq_content h with heq | heq
  · have hlength := congrArg List.length heq
    omega
  · have hlength := congrArg List.length heq
    rw [List.length_append, List.length_singleton] at hlength
    omega

/-- What is read of a line that does not fit. -/
theorem text_of_long_line {s l : List α} {ls : List (List α)}
    (hlines : lines delim s = l :: ls) (hlong : n < l.length) :
    (read delim n s).text = l.take n := by
  have hs : s ≠ [] := by
    rintro rfl
    cases hlines
  obtain ⟨l', ls', heq, -, hover⟩ := read_spec delim n hs
  obtain ⟨rfl, rfl⟩ := List.cons.inj (hlines.symm.trans heq)
  -- the file is what is read and the lines that are left
  have hwhole : (read delim n s).text ++ (l.drop n ++ ls.flatten) = l ++ ls.flatten := by
    calc (read delim n s).text ++ (l.drop n ++ ls.flatten)
        = (read delim n s).text ++ (lines delim (read delim n s).rest).flatten := by
          rw [hover hlong, List.flatten_cons]
      _ = s := by rw [flatten_lines, text_append_rest]
      _ = l ++ ls.flatten := by rw [← List.flatten_cons, ← hlines, flatten_lines]
  have hline : (read delim n s).text ++ l.drop n = l := by
    rw [← List.append_assoc] at hwhole
    exact List.append_cancel_right hwhole
  have htake : (read delim n s).text ++ l.drop n = l.take n ++ l.drop n := by
    rw [hline, List.take_append_drop]
  exact List.append_cancel_right htake

/-- The pieces of a line that fits up to its delimiter. -/
def linePieces (n : ℕ) (l : List α) : List (List α) :=
  if l.length ≤ n then [l] else [l.take n, l.drop n]

/-- **Lines that fit up to their delimiter.** Such a line is one piece, or two the second of
    which is the delimiter. -/
theorem pieces_eq_flatMap (hn : 0 < n) {fuel : ℕ} {s : List α} (hfuel : s.length ≤ fuel)
    (hlines : ∀ l ∈ lines delim s, l.length ≤ n + 1) :
    pieces delim n fuel s = (lines delim s).flatMap (linePieces n) := by
  induction fuel generalizing s with
  | zero =>
    rw [List.eq_nil_of_length_eq_zero (Nat.le_zero.mp hfuel)]
    rfl
  | succ fuel ih =>
    by_cases hs : s = []
    · rw [hs]
      rfl
    · obtain ⟨l, ls, heq, hshort, hlong⟩ := read_spec delim n hs
      rw [heq, List.forall_mem_cons] at hlines
      have hless := length_rest_lt delim hn hs
      rw [pieces_of_ne_nil fuel hs, heq, List.flatMap_cons]
      by_cases hl : l.length ≤ n
      · obtain ⟨htext, hrest⟩ := hshort hl
        rw [ih (by omega) (by rw [hrest]; exact hlines.2), htext, hrest, linePieces, if_pos hl]
        rfl
      · have hrest := hlong (by omega)
        -- one cell is left of the line
        have hone : (l.drop n).length = 1 := by
          rw [List.length_drop]
          omega
        have hfits : ∀ l' ∈ l.drop n :: ls, l'.length ≤ n + 1 :=
          List.forall_mem_cons.mpr ⟨by omega, hlines.2⟩
        rw [ih (by omega) (by rw [hrest]; exact hfits), text_of_long_line heq (by omega), hrest,
          List.flatMap_cons, linePieces, if_pos (by omega), linePieces, if_neg hl]
        rfl

/-- Before its last cell there is no delimiter in a line. -/
theorem delim_not_mem_take {s l : List α} (h : l ∈ lines delim s) (hlong : n < l.length) :
    delim ∉ l.take n := by
  rcases line_eq_content h with heq | heq
  · rw [heq]
    exact fun hmem => delim_not_mem_content delim l (List.mem_of_mem_take hmem)
  · have hlength := congrArg List.length heq
    rw [List.length_append, List.length_singleton] at hlength
    rw [heq, List.take_append_of_le_length (by omega)]
    exact fun hmem => delim_not_mem_content delim l (List.mem_of_mem_take hmem)

/-- Behind what the buffer holds of a line there is more than the delimiter when its content
    does not fit. -/
theorem drop_ne_singleton {s l : List α} (h : l ∈ lines delim s)
    (hlong : n < (content delim l).length) : l.drop n ≠ [delim] := by
  intro hdrop
  have hlength : l.length = n + 1 := by
    have hone := congrArg List.length hdrop
    rw [List.length_drop, List.length_singleton] at hone
    omega
  rcases line_eq_content h with heq | heq
  · have hmem : delim ∈ l := List.mem_of_mem_drop (hdrop ▸ List.mem_singleton_self delim)
    exact delim_not_mem_content delim l (heq ▸ hmem)
  · have hcontent := congrArg List.length heq
    rw [List.length_append, List.length_singleton] at hcontent
    omega

theorem countP_filled_cons {l : List α} (h : l ≠ [delim]) (ls : List (List α)) :
    (l :: ls).countP (· ≠ [delim]) = ls.countP (· ≠ [delim]) + 1 :=
  List.countP_cons_of_pos (by simpa using h)

/-- There are at least as many pieces with something in them as lines, and more when what is in
    a line does not fit. -/
theorem length_filled_lines_le (hn : 0 < n) {fuel : ℕ} {s : List α} (hfuel : s.length ≤ fuel) :
    (lines delim s).countP (· ≠ [delim]) ≤ (pieces delim n fuel s).countP (· ≠ [delim]) ∧
      ((∃ l ∈ lines delim s, n < (content delim l).length) →
        (lines delim s).countP (· ≠ [delim]) < (pieces delim n fuel s).countP (· ≠ [delim])) := by
  induction fuel generalizing s with
  | zero =>
    rw [List.eq_nil_of_length_eq_zero (Nat.le_zero.mp hfuel)]
    exact ⟨Nat.le_refl _, by simp [lines]⟩
  | succ fuel ih =>
    by_cases hs : s = []
    · rw [hs]
      exact ⟨Nat.le_refl _, by simp [lines]⟩
    · obtain ⟨l, ls, heq, hshort, hlong⟩ := read_spec delim n hs
      have hless := length_rest_lt delim hn hs
      obtain ⟨hle, hlt⟩ := ih (s := (read delim n s).rest) (by omega)
      have hmem : l ∈ lines delim s := heq ▸ List.mem_cons_self
      have hcontent : (content delim l).length ≤ l.length := (List.takeWhile_prefix _).length_le
      rw [pieces_of_ne_nil fuel hs, heq]
      by_cases hl : l.length ≤ n
      · obtain ⟨htext, hrest⟩ := hshort hl
        rw [hrest] at hle hlt
        rw [htext, List.countP_cons, List.countP_cons]
        refine ⟨by omega, fun ⟨l', hl', hover⟩ => ?_⟩
        rcases List.mem_cons.mp hl' with rfl | hl'
        · omega
        · have hrec := hlt ⟨l', hl', hover⟩
          omega
      · have hrest := hlong (by omega)
        have hfilled : l.take n ≠ [delim] := by
          intro htake
          exact delim_not_mem_take hmem (by omega) (htake ▸ List.mem_singleton_self delim)
        have hline : l ≠ [delim] := by
          rintro rfl
          simp only [List.length_singleton] at hl
          omega
        rw [hrest] at hle
        rw [text_of_long_line heq (by omega), countP_filled_cons hfilled, countP_filled_cons hline]
        have hls : ls.countP (· ≠ [delim]) ≤ (l.drop n :: ls).countP (· ≠ [delim]) := by
          rw [List.countP_cons]
          exact Nat.le_add_right _ _
        refine ⟨by omega, fun ⟨l', hl', hover⟩ => ?_⟩
        rcases List.mem_cons.mp hl' with rfl | hl'
        · rw [countP_filled_cons (drop_ne_singleton hmem hover)] at hle
          omega
        · have hrec := hlt ⟨l', hrest ▸ List.mem_cons_of_mem _ hl', hover⟩
          rw [hrest] at hrec
          omega

end Fgets
