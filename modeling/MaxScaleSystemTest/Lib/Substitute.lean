import Mathlib.Data.List.Count
import Mathlib.Data.List.Infix
import Mathlib.Logic.Function.Basic

namespace Substitute

/-!
# Names that are replaced in a text

A text with some of its names replaced is kept as `pieces`, letters and holes; a hole shows its
name or its value.  `replaceFirst` and `replaceAll` work on the text, and know nothing of holes.

* `replaceAll_render`, `replaceFirst_render` — a name is replaced in its holes, where it occurs
  nowhere else (`Sole`), and for the second one not twice;
* `sole_of_apart` — it occurs nowhere else when names are marked at both ends and stand apart
  from each other and from other marks.
-/

/-- A letter, or a hole for a name. -/
inductive Piece (α ι : Type*) where
  | letter (c : α)
  | hole (i : ι)
  deriving DecidableEq

variable {α ι : Type*}

/-- What a piece shows. -/
def Piece.text (fill : ι → List α) : Piece α ι → List α
  | .letter c => [c]
  | .hole i => fill i

/-- The text of some pieces. -/
def render (fill : ι → List α) (ts : List (Piece α ι)) : List α := ts.flatMap (Piece.text fill)

/-- `name k` occurs in the holes for `k` only. -/
def Sole (name fill : ι → List α) (ts : List (Piece α ι)) (k : ι) : Prop :=
  ∀ before after, render fill ts = before ++ name k ++ after →
    ∃ ts₁ ts₂, ts = ts₁ ++ .hole k :: ts₂ ∧ render fill ts₁ = before

section

variable [DecidableEq α]

/-- Replace the first occurrence. -/
def replaceFirst (pat new : List α) : List α → List α
  | [] => []
  | c :: s =>
    if pat <+: c :: s then new ++ (c :: s).drop pat.length else c :: replaceFirst pat new s

/-- Replace all occurrences, from the left, behind so many letters that have been dealt with. -/
def replaceFrom (pat new : List α) : (skip : ℕ) → List α → List α
  | _, [] => []
  | skip + 1, _ :: s => replaceFrom pat new skip s
  | 0, c :: s =>
    if pat <+: c :: s then new ++ replaceFrom pat new (pat.length - 1) s
    else c :: replaceFrom pat new 0 s

/-- Replace all occurrences. -/
def replaceAll (pat new : List α) (s : List α) : List α := replaceFrom pat new 0 s

/-- The pieces of a text, behind so many letters that have been dealt with. -/
def piecesFrom (name : ι → List α) (holes : List ι) : (skip : ℕ) → List α → List (Piece α ι)
  | _, [] => []
  | skip + 1, _ :: s => piecesFrom name holes skip s
  | 0, c :: s =>
    match holes.find? fun i => decide (name i <+: c :: s) with
    | some i => .hole i :: piecesFrom name holes ((name i).length - 1) s
    | none => .letter c :: piecesFrom name holes 0 s

/-- The pieces of a text: its names, from the left, and the letters between them. -/
def pieces (name : ι → List α) (holes : List ι) (s : List α) : List (Piece α ι) :=
  piecesFrom name holes 0 s

end

/-! ### Texts and pieces -/

section

variable {name fill : ι → List α} {ts : List (Piece α ι)} {k : ι}

@[simp] theorem render_nil (fill : ι → List α) : render fill ([] : List (Piece α ι)) = [] := rfl

@[simp] theorem render_cons (fill : ι → List α) (p : Piece α ι) (ts : List (Piece α ι)) :
    render fill (p :: ts) = p.text fill ++ render fill ts := List.flatMap_cons

@[simp] theorem render_append (fill : ι → List α) (ts ts' : List (Piece α ι)) :
    render fill (ts ++ ts') = render fill ts ++ render fill ts' := List.flatMap_append

theorem render_letters (fill : ι → List α) (w : List α) :
    render fill (w.map Piece.letter : List (Piece α ι)) = w := by
  induction w with
  | nil => rfl
  | cons c w ih => rw [List.map_cons, render_cons, ih, Piece.text, List.singleton_append]

/-- Only the holes of the text matter. -/
theorem render_congr {fill' : ι → List α} (h : ∀ i, .hole i ∈ ts → fill i = fill' i) :
    render fill ts = render fill' ts := by
  induction ts with
  | nil => rfl
  | cons p ts ih =>
    have htext : p.text fill = p.text fill' := by
      cases p with
      | letter c => rfl
      | hole i => exact h i List.mem_cons_self
    rw [render_cons, render_cons, htext, ih fun i hi => h i (List.mem_cons_of_mem p hi)]

/-- The piece in which a part of the text starts. -/
theorem exists_piece {before s : List α} (h : render fill ts = before ++ s) (hs : s ≠ []) :
    ∃ ts₁ p ts₂ u v, ts = ts₁ ++ p :: ts₂ ∧ before = render fill ts₁ ++ u ∧
      p.text fill = u ++ v ∧ v ≠ [] ∧ s = v ++ render fill ts₂ := by
  induction ts generalizing before with
  | nil => exact absurd (List.append_eq_nil_iff.mp h.symm).2 hs
  | cons p ts ih =>
    rw [render_cons] at h
    rcases List.append_eq_append_iff.mp h with ⟨rest, hbefore, hrest⟩ | ⟨v, htext, hv⟩
    · obtain ⟨ts₁, q, ts₂, u, v, rfl, rfl, hq, hv, hsplit⟩ := ih hrest
      refine ⟨p :: ts₁, q, ts₂, u, v, rfl, ?_, hq, hv, hsplit⟩
      rw [hbefore, render_cons, List.append_assoc]
    · by_cases hnil : v = []
      · -- it starts at the end of the piece, that is with the next one
        subst hnil
        rw [List.nil_append] at hv
        have hnext : render fill ts = [] ++ s := hv.symm
        obtain ⟨ts₁, q, ts₂, u, v, rfl, hu, hq, hv', hsplit⟩ := ih hnext
        rw [List.append_nil] at htext
        refine ⟨p :: ts₁, q, ts₂, u, v, rfl, ?_, hq, hv', hsplit⟩
        rw [render_cons, List.append_assoc, ← hu, List.append_nil, htext]
      · exact ⟨[], p, ts, before, v, rfl, rfl, htext, hnil, hv⟩

end

/-! ### Replacing -/

section

variable {pat s : List α}

/-- Where the pattern does not start, the text is passed over. -/
theorem passed_over {f : List α → List α}
    (hf : ∀ c s, ¬ pat <+: c :: s → f (c :: s) = c :: f s) {w : List α}
    (h : ∀ u v, w = u ++ v → v ≠ [] → ¬ pat <+: v ++ s) : f (w ++ s) = w ++ f s := by
  induction w with
  | nil => rfl
  | cons c w ih =>
    rw [List.cons_append, hf c (w ++ s) (h [] (c :: w) rfl (List.cons_ne_nil c w)),
      ih fun u v hw => h (c :: u) v (by rw [hw, List.cons_append])]
    rfl

variable [DecidableEq α]

theorem replaceFirst_append_self (hpat : pat ≠ []) (new s : List α) :
    replaceFirst pat new (pat ++ s) = new ++ s := by
  obtain ⟨c, rest, rfl⟩ := List.exists_cons_of_ne_nil hpat
  rw [List.cons_append, replaceFirst, ← List.cons_append, if_pos (List.prefix_append _ _),
    List.drop_left]

theorem replaceFirst_cons {c : α} (h : ¬ pat <+: c :: s) :
    replaceFirst pat new (c :: s) = c :: replaceFirst pat new s := if_neg h

/-- Letters that have been dealt with do not matter. -/
theorem replaceFrom_eq (pat new : List α) (skip : ℕ) (s : List α) :
    replaceFrom pat new skip s = replaceAll pat new (s.drop skip) := by
  induction s generalizing skip with
  | nil => cases skip <;> rfl
  | cons c s ih =>
    cases skip with
    | zero => rfl
    | succ skip => exact ih skip

theorem replaceAll_append_self (hpat : pat ≠ []) (new s : List α) :
    replaceAll pat new (pat ++ s) = new ++ replaceAll pat new s := by
  obtain ⟨c, rest, rfl⟩ := List.exists_cons_of_ne_nil hpat
  rw [List.cons_append, replaceAll, replaceFrom, ← List.cons_append,
    if_pos (List.prefix_append _ _), replaceFrom_eq, List.length_cons, Nat.add_sub_cancel,
    List.drop_left]

theorem replaceAll_cons {c : α} (h : ¬ pat <+: c :: s) :
    replaceAll pat new (c :: s) = c :: replaceAll pat new s := if_neg h

end

section

variable {name fill : ι → List α} {p : Piece α ι} {ts : List (Piece α ι)} {k : ι}

theorem Sole.tail (h : Sole name fill (p :: ts) k) (hk : fill k = name k) (hne : name k ≠ []) :
    Sole name fill ts k := by
  intro before after hsplit
  obtain ⟨ts₁, ts₂, hts, hbefore⟩ := h (p.text fill ++ before) after (by
    rw [render_cons, hsplit, List.append_assoc, List.append_assoc, List.append_assoc])
  cases ts₁ with
  | nil =>
    obtain ⟨rfl, -⟩ := List.cons.inj hts
    have hnil := (List.append_eq_nil_iff.mp hbefore.symm).1
    exact absurd (hk.symm.trans hnil) hne
  | cons q ts₁ =>
    obtain ⟨rfl, rfl⟩ := List.cons.inj hts
    rw [render_cons] at hbefore
    exact ⟨ts₁, ts₂, rfl, List.append_cancel_left hbefore⟩

/-- It does not start in another piece. -/
theorem Sole.not_within (h : Sole name fill (p :: ts) k) (hp : p ≠ .hole k) {u v : List α}
    (htext : p.text fill = u ++ v) (hv : v ≠ []) : ¬ name k <+: v ++ render fill ts := by
  rintro ⟨after, hafter⟩
  obtain ⟨ts₁, ts₂, hts, hu⟩ := h u after (by
    rw [render_cons, htext, List.append_assoc, ← hafter, List.append_assoc])
  cases ts₁ with
  | nil => exact hp (List.cons.inj hts).1
  | cons q ts₁ =>
    obtain ⟨rfl, -⟩ := List.cons.inj hts
    have hlength := congrArg List.length hu
    rw [render_cons, htext, List.length_append, List.length_append] at hlength
    have hpos := List.length_pos_iff.mpr hv
    omega

variable [DecidableEq ι]

/-- The text of a piece that is not for the name. -/
theorem text_update (hp : p ≠ .hole k) (new : List α) :
    p.text (Function.update fill k new) = p.text fill := by
  cases p with
  | letter c => rfl
  | hole i =>
    have hi : i ≠ k := fun heq => hp (heq ▸ rfl)
    exact Function.update_of_ne hi new fill

/-- Without a hole for the name its value does not matter. -/
theorem render_update (h : .hole k ∉ ts) (new : List α) :
    render (Function.update fill k new) ts = render fill ts := by
  apply render_congr
  intro i hi
  have hne : i ≠ k := fun heq => h (heq ▸ hi)
  exact Function.update_of_ne hne new fill

variable [DecidableEq α]

/-- **All.** Replacing a name that is in its holes only changes what they show. -/
theorem replaceAll_render (h : Sole name fill ts k) (hk : fill k = name k) (hne : name k ≠ [])
    (new : List α) :
    replaceAll (name k) new (render fill ts) = render (Function.update fill k new) ts := by
  induction ts with
  | nil => rfl
  | cons p ts ih =>
    rw [render_cons, render_cons]
    by_cases hp : p = .hole k
    · subst hp
      rw [Piece.text, Piece.text, hk, Function.update_self, replaceAll_append_self hne,
        ih (h.tail hk hne)]
    · have hpass : replaceAll (name k) new (p.text fill ++ render fill ts)
          = p.text fill ++ replaceAll (name k) new (render fill ts) :=
        passed_over (fun _ _ => replaceAll_cons) fun u v => h.not_within hp
      rw [hpass, ih (h.tail hk hne), text_update hp]

/-- **The first one.** So does replacing the first occurrence, if there is one hole at most. -/
theorem replaceFirst_render (h : Sole name fill ts k) (hk : fill k = name k) (hne : name k ≠ [])
    (honce : ts.count (.hole k) ≤ 1) (new : List α) :
    replaceFirst (name k) new (render fill ts) = render (Function.update fill k new) ts := by
  induction ts with
  | nil => rfl
  | cons p ts ih =>
    rw [render_cons, render_cons]
    by_cases hp : p = .hole k
    · subst hp
      rw [List.count_cons_self] at honce
      have hnone : (.hole k : Piece α ι) ∉ ts := List.count_eq_zero.mp (by omega)
      rw [Piece.text, Piece.text, hk, Function.update_self, replaceFirst_append_self hne,
        render_update hnone]
    · rw [List.count_cons_of_ne hp] at honce
      have hpass : replaceFirst (name k) new (p.text fill ++ render fill ts)
          = p.text fill ++ replaceFirst (name k) new (render fill ts) :=
        passed_over (fun _ _ => replaceFirst_cons) fun u v => h.not_within hp
      rw [hpass, ih (h.tail hk hne) honce, text_update hp]

end

/-! ### The pieces of a text -/

section

variable [DecidableEq α] {name : ι → List α} {holes : List ι}

theorem piecesFrom_eq (name : ι → List α) (holes : List ι) (skip : ℕ) (s : List α) :
    piecesFrom name holes skip s = pieces name holes (s.drop skip) := by
  induction s generalizing skip with
  | nil => cases skip <;> rfl
  | cons c s ih =>
    cases skip with
    | zero => rfl
    | succ skip => exact ih skip

/-- The first piece of a text is a name that it starts with, or else a letter. -/
theorem pieces_cases (hname : ∀ i ∈ holes, name i ≠ []) (c : α) (s : List α) :
    (∃ i ∈ holes, ∃ rest, c :: s = name i ++ rest ∧
      pieces name holes (c :: s) = .hole i :: pieces name holes rest) ∨
    ((∀ i ∈ holes, ¬ name i <+: c :: s) ∧
      pieces name holes (c :: s) = .letter c :: pieces name holes s) := by
  cases hfind : holes.find? fun i => decide (name i <+: c :: s) with
  | some i =>
    have hi := List.mem_of_find?_eq_some hfind
    have hstarts := List.find?_some hfind
    simp only [decide_eq_true_eq] at hstarts
    obtain ⟨rest, hrest⟩ := hstarts
    obtain ⟨d, more, hd⟩ := List.exists_cons_of_ne_nil (hname i hi)
    rw [hd, List.cons_append] at hrest
    obtain ⟨rfl, rfl⟩ := List.cons.inj hrest
    refine .inl ⟨i, hi, rest, by rw [hd, List.cons_append], ?_⟩
    rw [pieces, piecesFrom, hfind]
    simp only [hd, List.length_cons, Nat.add_sub_cancel]
    rw [piecesFrom_eq, List.drop_left]
  | none =>
    refine .inr ⟨fun i hi hstarts => ?_, ?_⟩
    · exact List.find?_eq_none.mp hfind i hi (decide_eq_true hstarts)
    · rw [pieces, piecesFrom, hfind]
      rfl

/-- **Induction** along the pieces of a text. -/
theorem pieces_induction (hname : ∀ i ∈ holes, name i ≠ [])
    {P : List α → List (Piece α ι) → Prop} (nil : P [] [])
    (hole : ∀ i ∈ holes, ∀ rest, P rest (pieces name holes rest) →
      P (name i ++ rest) (.hole i :: pieces name holes rest))
    (letter : ∀ c s, (∀ i ∈ holes, ¬ name i <+: c :: s) → P s (pieces name holes s) →
      P (c :: s) (.letter c :: pieces name holes s))
    (s : List α) : P s (pieces name holes s) := by
  induction hlength : s.length using Nat.strongRecOn generalizing s with
  | _ n ih =>
    cases s with
    | nil => exact nil
    | cons c s =>
      rcases pieces_cases hname c s with ⟨i, hi, rest, hs, hpieces⟩ | ⟨hnone, hpieces⟩
      · have hpos := List.length_pos_iff.mpr (hname i hi)
        have hless : rest.length < n := by
          rw [← hlength, hs, List.length_append]
          omega
        rw [hpieces, hs]
        exact hole i hi rest (ih _ hless rest rfl)
      · have hless : s.length < n := by
          rw [← hlength, List.length_cons]
          omega
        rw [hpieces]
        exact letter c s hnone (ih _ hless s rfl)

/-- The pieces show the text. -/
theorem render_pieces (hname : ∀ i ∈ holes, name i ≠ []) (s : List α) :
    render name (pieces name holes s) = s := by
  refine pieces_induction (P := fun s ts => render name ts = s) hname rfl ?_ ?_ s
  · intro i hi rest ih
    rw [render_cons, ih]
    rfl
  · intro c s hnone ih
    rw [render_cons, ih]
    rfl

/-- No name starts at a letter. -/
theorem not_prefix_of_letter (hname : ∀ i ∈ holes, name i ≠ []) {s : List α} {c : α}
    {ts₁ ts₂ : List (Piece α ι)} (h : pieces name holes s = ts₁ ++ .letter c :: ts₂) {i : ι}
    (hi : i ∈ holes) : ¬ name i <+: c :: render name ts₂ := by
  refine pieces_induction (P := fun _ ts => ∀ ts₁, ts = ts₁ ++ .letter c :: ts₂ →
    ¬ name i <+: c :: render name ts₂) hname ?_ ?_ ?_ s ts₁ h
  · intro ts₁ hts
    exact absurd hts.symm (by simp)
  · intro j hj rest ih ts₁ hts
    cases ts₁ with
    | nil => cases (List.cons.inj hts).1
    | cons q ts₁ => exact ih ts₁ (List.cons.inj hts).2
  · intro d s hnone ih ts₁ hts
    cases ts₁ with
    | nil =>
      obtain ⟨hd, hrest⟩ := List.cons.inj hts
      cases hd
      rw [← hrest, render_pieces hname]
      exact hnone i hi
    | cons q ts₁ => exact ih ts₁ (List.cons.inj hts).2

theorem mem_of_hole (hname : ∀ i ∈ holes, name i ≠ []) {s : List α} {i : ι}
    (h : .hole i ∈ pieces name holes s) : i ∈ holes := by
  refine pieces_induction (P := fun _ ts => .hole i ∈ ts → i ∈ holes) hname ?_ ?_ ?_ s h
  · exact fun hmem => absurd hmem List.not_mem_nil
  · intro j hj rest ih hmem
    rcases List.mem_cons.mp hmem with heq | hmem
    · cases heq
      exact hj
    · exact ih hmem
  · intro c s hnone ih hmem
    rcases List.mem_cons.mp hmem with heq | hmem
    · cases heq
    · exact ih hmem

end

/-! ### Names that stand apart -/

/-- A name with so many marks at both ends, and no mark between. -/
def Marked (mark : α) (n : ℕ) (s : List α) : Prop :=
  ∃ body, mark ∉ body ∧ s = List.replicate n mark ++ body ++ List.replicate n mark

/-- Up to the next separator there is no hole, and only such letters. -/
def Ahead (sep ok : α → Prop) : List (Piece α ι) → Prop
  | [] => True
  | .letter c :: ts => sep c ∨ ok c ∧ Ahead sep ok ts
  | .hole _ :: _ => False

/-- Between two holes, or a hole and a mark, there is a separator. -/
def Apart (mark : α) (sep : α → Prop) : List (Piece α ι) → Prop
  | [] => True
  | .letter c :: ts => (c = mark → Ahead sep (fun _ => True) ts) ∧ Apart mark sep ts
  | .hole _ :: ts => Ahead sep (· ≠ mark) ts ∧ Apart mark sep ts

instance decidableAhead (sep ok : α → Prop) [DecidablePred sep] [DecidablePred ok] :
    (ts : List (Piece α ι)) → Decidable (Ahead sep ok ts)
  | [] => inferInstanceAs (Decidable True)
  | .letter c :: ts =>
    have := decidableAhead sep ok ts
    inferInstanceAs (Decidable (sep c ∨ ok c ∧ Ahead sep ok ts))
  | .hole _ :: _ => inferInstanceAs (Decidable False)

instance decidableApart [DecidableEq α] (mark : α) (sep : α → Prop) [DecidablePred sep] :
    (ts : List (Piece α ι)) → Decidable (Apart mark sep ts)
  | [] => inferInstanceAs (Decidable True)
  | .letter c :: ts =>
    have := decidableApart mark sep ts
    inferInstanceAs (Decidable ((c = mark → Ahead sep (fun _ => True) ts) ∧ Apart mark sep ts))
  | .hole _ :: ts =>
    have := decidableApart mark sep ts
    inferInstanceAs (Decidable (Ahead sep (· ≠ mark) ts ∧ Apart mark sep ts))

section

variable {mark : α} {n : ℕ} {sep : α → Prop} {ts : List (Piece α ι)} {s t u v : List α}

theorem Apart.of_append {ts₁ ts₂ : List (Piece α ι)} (h : Apart mark sep (ts₁ ++ ts₂)) :
    Apart mark sep ts₂ := by
  induction ts₁ with
  | nil => exact h
  | cons p ts₁ ih =>
    cases p with
    | letter c => exact ih h.2
    | hole i => exact ih h.2

/-- Letters and then a separator: a text without separators does not reach behind it. -/
theorem Ahead.split {ok : α → Prop} (h : Ahead sep ok ts) : ∃ w rest,
    ts = w.map Piece.letter ++ rest ∧ (∀ c ∈ w, ok c) ∧
    ∀ (fill : ι → List α) (s : List α), (∀ c ∈ s, ¬ sep c) → s <+: w ++ render fill rest →
      s <+: w := by
  induction ts with
  | nil => exact ⟨[], [], rfl, by simp, fun fill s _ hs => hs⟩
  | cons p ts ih =>
    cases p with
    | hole i => exact h.elim
    | letter c =>
      rcases h with hc | ⟨hc, hrest⟩
      · refine ⟨[], .letter c :: ts, rfl, by simp, fun fill s hsep hs => ?_⟩
        cases s with
        | nil => exact List.nil_prefix
        | cons d s =>
          obtain ⟨rfl, -⟩ := List.cons_prefix_cons.mp hs
          exact absurd hc (hsep d List.mem_cons_self)
      · obtain ⟨w, rest, rfl, hw, hstarts⟩ := ih hrest
        refine ⟨c :: w, rest, rfl, List.forall_mem_cons.mpr ⟨hc, hw⟩, fun fill s hsep hs => ?_⟩
        cases s with
        | nil => exact List.nil_prefix
        | cons d s =>
          obtain ⟨rfl, htail⟩ := List.cons_prefix_cons.mp hs
          rw [List.cons_prefix_cons]
          exact ⟨rfl, hstarts fill s (fun c hc => hsep c (List.mem_cons_of_mem d hc)) htail⟩

theorem Marked.exists_cons (h : Marked mark n s) (hn : 0 < n) : ∃ rest, s = mark :: rest := by
  obtain ⟨body, -, rfl⟩ := h
  obtain ⟨n, rfl⟩ := Nat.exists_eq_add_one_of_ne_zero (Nat.ne_of_gt hn)
  exact ⟨_, by rw [List.replicate_succ, List.cons_append, List.cons_append]⟩

/-- The last letter of a name is a mark. -/
theorem Marked.mem_of_suffix (h : Marked mark n s) (hn : 0 < n) (hs : s = u ++ v)
    (hv : v ≠ []) : mark ∈ v := by
  obtain ⟨body, -, rfl⟩ := h
  obtain ⟨n, rfl⟩ := Nat.exists_eq_add_one_of_ne_zero (Nat.ne_of_gt hn)
  have hlast := congrArg List.getLast? hs
  rw [List.replicate_succ', ← List.append_assoc, List.getLast?_concat,
    List.getLast?_append_of_ne_nil u hv] at hlast
  exact List.mem_of_getLast? hlast.symm

/-- A name that starts with a letter consists of letters, whatever the holes show. -/
theorem starts_at_letter (hs : Marked mark n s) (hn : 0 < n) (hsep : ∀ c ∈ s, ¬ sep c) {c : α}
    (hahead : c = mark → Ahead sep (fun _ => True) ts) {fill : ι → List α}
    (h : s <+: c :: render fill ts) (fill' : ι → List α) : s <+: c :: render fill' ts := by
  obtain ⟨x, rfl⟩ := hs.exists_cons hn
  obtain ⟨rfl, hx⟩ := List.cons_prefix_cons.mp h
  obtain ⟨w, rest, rfl, -, hwithin⟩ := (hahead rfl).split
  rw [render_append, render_letters] at hx
  have hxw : x <+: w := hwithin fill x (fun c hc => hsep c (List.mem_cons_of_mem _ hc)) hx
  rw [render_append, render_letters, List.cons_prefix_cons]
  exact ⟨rfl, hxw.trans (List.prefix_append _ _)⟩

/-- A name that starts in a hole ends there, as it ends with a mark. -/
theorem ends_in_hole (hs : Marked mark n s) (hn : 0 < n) (hsep : ∀ c ∈ s, ¬ sep c)
    (hahead : Ahead sep (· ≠ mark) ts) {fill : ι → List α} {after : List α}
    (h : s ++ after = v ++ render fill ts) : s <+: v := by
  obtain ⟨w, rest, rfl, hw, hwithin⟩ := hahead.split
  rw [render_append, render_letters] at h
  rcases List.append_eq_append_iff.mp h with ⟨more, hv, -⟩ | ⟨x, hx, hrest⟩
  · exact ⟨more, hv.symm⟩
  · by_cases hnil : x = []
    · rw [hx, hnil, List.append_nil]
    · have hxw : x <+: w := by
        refine hwithin fill x (fun c hc => hsep c ?_) ⟨after, hrest.symm⟩
        rw [hx]
        exact List.mem_append_right _ hc
      have hmark : mark ∈ x := hs.mem_of_suffix hn hx hnil
      exact absurd rfl (hw mark (hxw.subset hmark))

variable [DecidableEq α]

theorem Marked.count_eq (h : Marked mark n s) : s.count mark = 2 * n := by
  obtain ⟨body, hbody, rfl⟩ := h
  rw [List.count_append, List.count_append, List.count_replicate_self,
    List.count_eq_zero.mpr hbody]
  omega

/-- A name does not start within another one. -/
theorem Marked.eq_of_starts (hs : Marked mark n s) (ht : Marked mark n t) (hn : 0 < n)
    (hsplit : t = u ++ v) (h : s <+: v) : u = [] ∧ s = t := by
  have hnone : mark ∉ u := by
    have hcount := congrArg (List.count mark) hsplit
    have hle := h.sublist.count_le mark
    rw [List.count_append, ht.count_eq] at hcount
    rw [hs.count_eq] at hle
    exact List.count_eq_zero.mp (by omega)
  have hu : u = [] := by
    obtain ⟨rest, hrest⟩ := ht.exists_cons hn
    cases u with
    | nil => rfl
    | cons c u =>
      rw [hrest, List.cons_append] at hsplit
      rw [← (List.cons.inj hsplit).1] at hnone
      exact absurd List.mem_cons_self hnone
  refine ⟨hu, ?_⟩
  rw [hu, List.nil_append] at hsplit
  obtain ⟨more, hmore⟩ := hsplit ▸ h
  obtain ⟨b, hb, rfl⟩ := hs
  obtain ⟨b', hb', rfl⟩ := ht
  obtain ⟨n, rfl⟩ := Nat.exists_eq_add_one_of_ne_zero (Nat.ne_of_gt hn)
  rw [List.append_assoc, List.append_assoc, List.append_assoc, List.append_cancel_left_eq,
    List.replicate_succ] at hmore
  -- both bodies end at the first mark
  have hbody : ∀ b : List α, mark ∉ b → ∀ rest, (b ++ mark :: rest).takeWhile (· ≠ mark) = b := by
    intro b hb rest
    have hall : ∀ c ∈ b, decide (c ≠ mark) = true := fun c hc =>
      decide_eq_true fun heq => hb (heq ▸ hc)
    rw [List.takeWhile_append_of_pos hall]
    simp
  have heq := congrArg (List.takeWhile (· ≠ mark)) hmore
  rw [List.cons_append, hbody b hb, hbody b' hb'] at heq
  rw [heq]

/-- **Names that stand apart.** Where each hole shows its name, or a value in which `name k` does
    not occur, there is no `name k` outside its holes. -/
theorem sole_of_apart {name fill : ι → List α} {holes : List ι} {k : ι} (hn : 0 < n)
    (hmarked : ∀ i ∈ holes, Marked mark n (name i)) (hsep : ∀ i ∈ holes, ∀ c ∈ name i, ¬ sep c)
    (hinj : ∀ i ∈ holes, name i = name k → i = k) (hk : k ∈ holes)
    (hfill : ∀ i ∈ holes, fill i = name i ∨ ¬ name k <:+: fill i)
    (hapart : Apart mark sep (pieces name holes s)) :
    Sole name fill (pieces name holes s) k := by
  have hname : ∀ i ∈ holes, name i ≠ [] := by
    intro i hi hnil
    obtain ⟨rest, hrest⟩ := (hmarked i hi).exists_cons hn
    rw [hnil] at hrest
    cases hrest
  intro before after h
  rw [List.append_assoc] at h
  obtain ⟨ts₁, p, ts₂, u, v, hts, rfl, htext, hv, hstart⟩ :=
    exists_piece h (List.append_ne_nil_of_left_ne_nil (hname k hk) after)
  have hhere : Apart mark sep (p :: ts₂) := (hts ▸ hapart).of_append
  cases p with
  | letter c =>
    -- then it would be a hole
    exfalso
    obtain rfl : v = [c] := by
      cases u with
      | nil => exact htext.symm
      | cons d u =>
        have htail := (List.cons.inj htext).2
        exact absurd (List.append_eq_nil_iff.mp htail.symm).2 hv
    refine not_prefix_of_letter hname hts hk ?_
    exact starts_at_letter (hmarked k hk) hn (hsep k hk) hhere.1 ⟨after, hstart⟩ name
  | hole j =>
    have hj : j ∈ holes := by
      apply mem_of_hole hname (s := s)
      rw [hts]
      exact List.mem_append_right _ List.mem_cons_self
    have hwithin : name k <+: v := ends_in_hole (hmarked k hk) hn (hsep k hk) hhere.1 hstart
    rcases hfill j hj with hshown | hvalue
    · rw [Piece.text, hshown] at htext
      obtain ⟨rfl, heq⟩ := (hmarked k hk).eq_of_starts (hmarked j hj) hn htext hwithin
      obtain rfl := hinj j hj heq.symm
      exact ⟨ts₁, _, hts, by rw [List.append_nil]⟩
    · -- a value does not hold the name
      exfalso
      apply hvalue
      rw [Piece.text] at htext
      rw [htext]
      exact hwithin.isInfix.trans (List.suffix_append u v).isInfix

end

end Substitute
