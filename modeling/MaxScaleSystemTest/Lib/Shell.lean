import MaxScaleSystemTest.Lib.CString

namespace Shell

open CString

/-!
# Words of a command line

A POSIX shell splits a line into words at unquoted blanks.  Between single quotes every character
stands for itself; between double quotes, and outside quotes, a backslash quotes the next one.
`words` is `none` for a line whose quotes are not closed, and for one with an operator, an
expansion or a pattern outside single quotes, which a shell does not hand on as it stands.

* `read` — one character;
* `words_cons` — a plain word with a blank behind it;
* `words_single_iff` — a text between single quotes is one word exactly when it has none itself;
* `words_pieces` — what becomes of plain words that are quoted inside a quoted text.
-/

def blank : UInt8 := 32
def tab : UInt8 := 9
def singleQuote : UInt8 := 39
def doubleQuote : UInt8 := 34
def backslash : UInt8 := 92

/-- The characters that are special between double quotes: the dollar sign and the backquote. -/
def expansions : Bytes := [36, 96]

/-- The characters that are special outside quotes, without blanks, quotes and the backslash. -/
def specials : Bytes := expansions ++ ascii "|&;<>()*?[]#~!" ++ [nl]

/-- How the next character is quoted. -/
inductive Mode where
  | plain
  | escape
  | single
  | double
  | doubleEscape
  deriving DecidableEq

/-- A line that is read: the words that are complete, and what there is of the current one. -/
structure Reading where
  mode : Mode
  word : Option Bytes
  ready : List Bytes

/-- Nothing has been read. -/
def Reading.start : Reading := ⟨.plain, none, []⟩

/-- Some characters more of the current word. -/
def Reading.push (r : Reading) (mode : Mode) (s : Bytes) : Reading :=
  { r with mode := mode, word := some (r.word.getD [] ++ s) }

/-- One character is read. -/
def read (r : Reading) (c : UInt8) : Option Reading :=
  match r.mode with
  | .plain =>
    if c = blank ∨ c = tab then some ⟨.plain, none, r.ready ++ r.word.toList⟩
    else if c = singleQuote then some (r.push .single [])
    else if c = doubleQuote then some (r.push .double [])
    else if c = backslash then some (r.push .escape [])
    else if c ∈ specials then none
    else some (r.push .plain [c])
  | .escape => if c = nl then none else some (r.push .plain [c])
  | .single => some (if c = singleQuote then r.push .plain [] else r.push .single [c])
  | .double =>
    if c = doubleQuote then some (r.push .plain [])
    else if c ∈ expansions then none
    else if c = backslash then some (r.push .doubleEscape [])
    else some (r.push .double [c])
  | .doubleEscape =>
    if c ∈ expansions ∨ c = doubleQuote ∨ c = backslash then some (r.push .double [c])
    else if c = nl then none
    else some (r.push .double [backslash, c])

/-- The line ends. -/
def Reading.finish (r : Reading) : Option (List Bytes) :=
  if r.mode = .plain then some (r.ready ++ r.word.toList) else none

/-- The words of the rest of a line. -/
def rest (r : Reading) (s : Bytes) : Option (List Bytes) := (s.foldlM read r).bind Reading.finish

/-- The words of a line. -/
def words (line : Bytes) : Option (List Bytes) := rest .start line

/-- A character that stands for itself outside quotes. -/
def Plain (c : UInt8) : Prop :=
  c ≠ blank ∧ c ≠ tab ∧ c ≠ singleQuote ∧ c ≠ doubleQuote ∧ c ≠ backslash ∧ c ∉ specials

instance : DecidablePred Plain := fun _ => inferInstanceAs (Decidable (_ ∧ _))

theorem forall_plain {w : Bytes} (h : w.all (fun c => Plain c) = true) : ∀ c ∈ w, Plain c := by
  simpa using h

/-! ### Reading -/

theorem rest_cons {r r' : Reading} {c : UInt8} (h : read r c = some r') (s : Bytes) :
    rest r (c :: s) = rest r' s := by
  rw [rest, List.foldlM_cons, h]
  rfl

theorem push_push (r : Reading) (mode mode' : Mode) (s t : Bytes) :
    (r.push mode s).push mode' t = r.push mode' (s ++ t) := by
  simp [Reading.push]

/-- A plain character. -/
theorem read_plain {r : Reading} (hmode : r.mode = .plain) {c : UInt8} (h : Plain c) :
    read r c = some (r.push .plain [c]) := by
  obtain ⟨hblank, htab, hsingle, hdouble, hbackslash, hspecial⟩ := h
  simp only [read, hmode]
  rw [if_neg (not_or.mpr ⟨hblank, htab⟩), if_neg hsingle, if_neg hdouble, if_neg hbackslash,
    if_neg hspecial]

/-- A plain word. -/
theorem rest_plain {r : Reading} (hmode : r.mode = .plain) {w : Bytes} (h : ∀ c ∈ w, Plain c)
    (hne : w ≠ []) (s : Bytes) : rest r (w ++ s) = rest (r.push .plain w) s := by
  induction w generalizing r with
  | nil => exact absurd rfl hne
  | cons c w ih =>
    rw [List.forall_mem_cons] at h
    rw [List.cons_append, rest_cons (read_plain hmode h.1)]
    by_cases hw : w = []
    · rw [hw, List.nil_append]
    · rw [ih (r := r.push .plain [c]) rfl h.2 hw, push_push]
      rfl

/-- A text without single quotes, behind one and up to the next one. -/
theorem rest_single {r : Reading} (hmode : r.mode = .single) {w : Bytes}
    (h : singleQuote ∉ w) (s : Bytes) :
    rest r (w ++ singleQuote :: s) = rest (r.push .plain w) s := by
  induction w generalizing r with
  | nil =>
    refine rest_cons ?_ s
    simp only [read, hmode]
    rfl
  | cons c w ih =>
    rw [List.mem_cons, not_or] at h
    have hread : read r c = some (r.push .single [c]) := by
      simp only [read, hmode]
      rw [if_neg (Ne.symm h.1)]
    rw [List.cons_append, rest_cons hread, ih (r := r.push .single [c]) rfl h.2, push_push]
    rfl

/-- A single quote outside quotes. -/
theorem rest_quote {r : Reading} (hmode : r.mode = .plain) (s : Bytes) :
    rest r (singleQuote :: s) = rest (r.push .single []) s := by
  refine rest_cons ?_ s
  simp only [read, hmode]
  rfl

/-- Words that are complete stay in front. -/
theorem rest_ready (mode : Mode) (word : Option Bytes) (ready : List Bytes) (s : Bytes) :
    rest ⟨mode, word, ready⟩ s = (rest ⟨mode, word, []⟩ s).map (ready ++ ·) := by
  have hread : ∀ (r : Reading) (c : UInt8),
      read { r with ready := ready ++ r.ready } c =
        (read r c).map fun r' => { r' with ready := ready ++ r'.ready } := by
    intro r c
    unfold read
    cases r.mode <;> dsimp only <;> (repeat' split) <;> simp [Reading.push]
  have hrest : ∀ (s : Bytes) (r : Reading),
      rest { r with ready := ready ++ r.ready } s = (rest r s).map (ready ++ ·) := by
    intro s
    induction s with
    | nil =>
      intro r
      show Reading.finish _ = (Reading.finish r).map _
      simp only [Reading.finish]
      split <;> simp
    | cons c s ih =>
      intro r
      cases hr : read r c with
      | none =>
        rw [rest, rest, List.foldlM_cons, List.foldlM_cons, hread, hr]
        rfl
      | some r' =>
        rw [rest_cons hr, rest_cons (by rw [hread, hr]; rfl)]
        exact ih r'
  simpa using hrest s ⟨mode, word, []⟩

/-- A plain word with a blank behind it. -/
theorem words_cons {w : Bytes} (hne : w ≠ []) (h : ∀ c ∈ w, Plain c) (s : Bytes) :
    words (w ++ blank :: s) = (words s).map (w :: ·) := by
  have hblank : read (Reading.start.push .plain w) blank = some ⟨.plain, none, [w]⟩ := rfl
  rw [words, rest_plain rfl h hne, rest_cons hblank, rest_ready]
  rfl

/-- Blanks in front of a word. -/
theorem words_blank (s : Bytes) : words (blank :: s) = words s := rest_cons rfl s

/-! ### A text between single quotes -/

/-- The characters of some words. -/
def total (ws : List Bytes) : ℕ := (ws.map List.length).sum

/-- A backslash waits for the next character. -/
def Mode.weight : Mode → ℕ
  | .escape => 1
  | .doubleEscape => 1
  | _ => 0

/-- The characters that have been read into words, with a backslash that waits. -/
def Reading.size (r : Reading) : ℕ :=
  total r.ready + (r.word.getD []).length + r.mode.weight

theorem size_push (r : Reading) (mode : Mode) (s : Bytes) :
    (r.push mode s).size + r.mode.weight = r.size + s.length + mode.weight := by
  simp only [Reading.size, Reading.push, Option.getD_some, List.length_append]
  omega

theorem total_ready (r : Reading) :
    total (r.ready ++ r.word.toList) = total r.ready + (r.word.getD []).length := by
  cases hword : r.word <;> simp [total]

/-- **One character.** It ends a word, or is read into one, which it makes longer by one character
    at most; a single quote outside quotes behind it makes no word longer. -/
theorem read_cases {r r' : Reading} {c : UInt8} (h : read r c = some r') :
    c ≠ singleQuote ∧ r' = ⟨.plain, none, r.ready ++ r.word.toList⟩ ∨
      ∃ mode s, r' = r.push mode s ∧ s.length + mode.weight ≤ r.mode.weight + 1 ∧
        (c = singleQuote → mode = .plain → s.length ≤ r.mode.weight) := by
  unfold read at h
  cases hmode : r.mode with
  | plain =>
    rw [hmode] at h
    dsimp only at h
    split at h
    · rename_i hblank
      refine .inl ⟨?_, (Option.some.inj h).symm⟩
      rintro rfl
      exact absurd hblank (by decide)
    split at h
    · exact .inr ⟨.single, [], (Option.some.inj h).symm, Nat.zero_le _, fun _ => nofun⟩
    rename_i hsingle
    split at h
    · exact .inr ⟨.double, [], (Option.some.inj h).symm, Nat.zero_le _, fun _ => nofun⟩
    split at h
    · exact .inr ⟨.escape, [], (Option.some.inj h).symm, le_rfl, fun _ => nofun⟩
    split at h
    · cases h
    · exact .inr ⟨.plain, [c], (Option.some.inj h).symm, le_rfl, fun heq => absurd heq hsingle⟩
  | escape =>
    rw [hmode] at h
    dsimp only at h
    split at h
    · cases h
    · exact .inr ⟨.plain, [c], (Option.some.inj h).symm, Nat.le_succ _, fun _ _ => le_rfl⟩
  | single =>
    rw [hmode] at h
    dsimp only at h
    split at h
    · exact .inr ⟨.plain, [], (Option.some.inj h).symm, Nat.zero_le _, fun _ _ => le_rfl⟩
    · exact .inr ⟨.single, [c], (Option.some.inj h).symm, le_rfl, fun _ => nofun⟩
  | double =>
    rw [hmode] at h
    dsimp only at h
    split at h
    · exact .inr ⟨.plain, [], (Option.some.inj h).symm, Nat.zero_le _, fun _ _ => le_rfl⟩
    split at h
    · cases h
    split at h
    · exact .inr ⟨.doubleEscape, [], (Option.some.inj h).symm, le_rfl, fun _ => nofun⟩
    · exact .inr ⟨.double, [c], (Option.some.inj h).symm, le_rfl, fun _ => nofun⟩
  | doubleEscape =>
    rw [hmode] at h
    dsimp only at h
    split at h
    · exact .inr ⟨.double, [c], (Option.some.inj h).symm, Nat.le_succ _, fun _ => nofun⟩
    split at h
    · cases h
    · exact .inr ⟨.double, [backslash, c], (Option.some.inj h).symm, le_rfl, fun _ => nofun⟩

theorem size_read {r r' : Reading} {c : UInt8} (h : read r c = some r') :
    r'.size ≤ r.size + 1 := by
  rcases read_cases h with ⟨-, rfl⟩ | ⟨mode, s, rfl, hlength, -⟩
  · have hready := total_ready r
    simp only [Reading.size, Mode.weight, Option.getD_none, List.length_nil]
    omega
  · have hsize := size_push r mode s
    omega

/-- A line that ends with a single quote: its words have at most the other characters. -/
theorem total_rest {r : Reading} {s : Bytes} {ws : List Bytes}
    (h : rest r (s ++ [singleQuote]) = some ws) : total ws ≤ r.size + s.length := by
  induction s generalizing r with
  | nil =>
    rw [List.nil_append, rest, List.foldlM_cons] at h
    cases hread : read r singleQuote with
    | none =>
      rw [hread] at h
      cases h
    | some r' =>
      rw [hread] at h
      have hfinish : r'.finish = some ws := h
      rw [Reading.finish] at hfinish
      split at hfinish
      · rename_i hplain
        rcases read_cases hread with ⟨hne, -⟩ | ⟨mode, s, rfl, -, hquote⟩
        · exact absurd rfl hne
        · obtain rfl : mode = .plain := hplain
          have hsize : _ = r.size + s.length + 0 := size_push r .plain s
          have hlength := hquote rfl rfl
          have hle : _ ≤ (r.push .plain s).size := Nat.le_add_right _ _
          rw [← Option.some.inj hfinish, total_ready, List.length_nil]
          omega
      · cases hfinish
  | cons c s ih =>
    cases hread : read r c with
    | none =>
      rw [List.cons_append, rest, List.foldlM_cons, hread] at h
      cases h
    | some r' =>
      rw [List.cons_append, rest_cons hread] at h
      have hrest := ih h
      have hsize := size_read hread
      rw [List.length_cons]
      omega

/-- **A quoted text.** A text between single quotes is one word, the text itself, exactly when
    there is no single quote in it. -/
theorem words_single_iff (w : Bytes) :
    words (singleQuote :: (w ++ [singleQuote])) = some [w] ↔ singleQuote ∉ w := by
  have hopen : ∀ s, words (singleQuote :: s) = rest (Reading.start.push .single []) s :=
    fun s => rest_quote rfl s
  constructor
  · intro h hmem
    -- behind the first single quote the line is one character longer than it may be
    obtain ⟨u, v, rfl, hu⟩ := List.eq_append_cons_of_mem hmem
    rw [hopen, List.append_assoc, List.cons_append, rest_single rfl hu, push_push] at h
    have hle := total_rest h
    have hsize : (Reading.start.push .plain ([] ++ u)).size + 0 = 0 + u.length + 0 :=
      size_push .start .plain ([] ++ u)
    simp only [total, List.map_cons, List.map_nil, List.sum_cons, List.sum_nil, List.length_append,
      List.length_cons] at hle
    omega
  · intro h
    rw [hopen, rest_single rfl h, push_push]
    rfl

/-- Plain words that are quoted inside a quoted text, with what stands in front of each. -/
def quotedPieces : List (Bytes × Bytes) → Bytes
  | [] => []
  | (front, w) :: pieces => front ++ singleQuote :: (w ++ singleQuote :: quotedPieces pieces)

/-- The same text without the quotes. -/
def barePieces (pieces : List (Bytes × Bytes)) : Bytes := pieces.flatMap fun p => p.1 ++ p.2

/-- **Quotes in a quoted text.** Plain words that are quoted inside it lose their quotes. -/
theorem words_pieces {pieces : List (Bytes × Bytes)} {last : Bytes}
    (hfront : ∀ p ∈ pieces, singleQuote ∉ p.1) (hplain : ∀ p ∈ pieces, ∀ c ∈ p.2, Plain c)
    (hlast : singleQuote ∉ last) :
    words (singleQuote :: (quotedPieces pieces ++ last ++ [singleQuote])) =
      some [barePieces pieces ++ last] := by
  have hrest : ∀ (pieces : List (Bytes × Bytes)) (r : Reading), r.mode = .single →
      (∀ p ∈ pieces, singleQuote ∉ p.1) → (∀ p ∈ pieces, ∀ c ∈ p.2, Plain c) →
      rest r (quotedPieces pieces ++ last ++ [singleQuote]) =
        rest (r.push .plain (barePieces pieces ++ last)) [] := by
    intro pieces
    induction pieces with
    | nil =>
      intro r hmode _ _
      exact rest_single hmode hlast []
    | cons p pieces ih =>
      intro r hmode hfront hplain
      rw [List.forall_mem_cons] at hfront hplain
      have hquoted : quotedPieces (p :: pieces) ++ last ++ [singleQuote] =
          p.1 ++ singleQuote :: (p.2 ++
            singleQuote :: (quotedPieces pieces ++ last ++ [singleQuote])) := by
        simp [quotedPieces]
      have hbare : barePieces (p :: pieces) ++ last =
          p.1 ++ p.2 ++ (barePieces pieces ++ last) := by
        simp [barePieces]
      rw [hquoted, rest_single hmode hfront.1]
      by_cases hempty : p.2 = []
      · rw [hempty, List.nil_append, rest_quote rfl, ih _ rfl hfront.2 hplain.2, push_push,
          push_push, hbare, hempty]
        simp
      · rw [rest_plain rfl hplain.1 hempty, rest_quote rfl, ih _ rfl hfront.2 hplain.2, push_push,
          push_push, push_push, hbare]
        simp
  rw [words, rest_quote rfl, hrest pieces _ rfl hfront hplain, push_push]
  rfl

end Shell
