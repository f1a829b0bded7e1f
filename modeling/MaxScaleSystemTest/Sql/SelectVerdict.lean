import MaxScaleSystemTest.Sql.SelectCheck

namespace MaxScaleSystemTest.Sql

open CString

/-!
# The verdict on a sequence of replies

`execute_select_query_and_check` stops at the first reply with the expected number of rows,
whatever is in them, and never takes back the failure it has noted for an attempt without a
result set.

* `attempts_of_first` — the loop over the attempts stops at the first reply that matches;
* `checkRows_of_null`, `checkRows_eq_zero_iff` — the loop over the rows of that reply;
* `select_verdict_iff` — for which sequences of replies the verdict is right.
-/

/-! ### Replies -/

/-- The number a cell shows. -/
def cellNumber (cell : Cell) : Option UInt64 := cell.bind Decimal.scanUnsigned

/-- The first column of the rows counts up from `rowI`. -/
def CountsFrom (rowI : ℕ) (rows : List Row) : Prop :=
  ∀ i row, rows[i]? = some row →
    ∀ cell ∈ row.head?, (cellNumber cell).map UInt64.toNat = some (rowI + i)

/-- The reply has a result set with `rows` rows. -/
def Matches (rows : ℕ) (reply : QueryReply) : Prop :=
  ∃ res, reply = .result res ∧ res.rows.length = rows

/-- The reply has no result set. -/
def Resultless (reply : QueryReply) : Prop := ∀ res, reply ≠ .result res

theorem not_resultless_iff {reply : QueryReply} :
    ¬ Resultless reply ↔ ∃ res, reply = .result res := by
  simp only [Resultless, ne_eq, not_forall, not_not]

/-- The reply is right: it has `rows` rows of two columns, whose first column is 0, 1, … -/
def RightReply (rows : ℕ) (reply : QueryReply) : Prop :=
  ∃ res, reply = .result res ∧ res.rows.length = rows ∧ res.fields.length = 2 ∧
    CountsFrom 0 res.rows

/-- The `k`-th attempt gets `replies k`. -/
def nextReply (replies : ℕ → QueryReply) (k : ℕ) : QueryReply × ℕ := (replies k, k + 1)

/-! ### The loop over the attempts -/

section

variable {replies : ℕ → QueryReply} {rows : ℕ}

/-- **The attempts.** The loop stops at the first reply that matches; a failure is noted before
    it if there is a reply without a result set. -/
theorem attempts_of_first {left k m : ℕ} {a : Attempt} {res : ResultSet}
    (ha : a.rowsFromSelect ≠ rows) (hlt : m < left) (hreply : replies (k + m) = .result res)
    (hrows : res.rows.length = rows) (hfirst : ∀ j < m, ¬ Matches rows (replies (k + j))) :
    ∃ testResult, attempts (nextReply replies) rows left k a =
        (⟨rows, some res, testResult⟩, k + m + 1) ∧
      (testResult = 0 ↔ a.testResult = 0 ∧ ∀ j < m, ¬ Resultless (replies (k + j))) := by
  induction m generalizing left k a with
  | zero =>
    obtain ⟨left, rfl⟩ := Nat.exists_eq_add_of_lt hlt
    rw [Nat.zero_add]
    refine ⟨a.testResult, attempts_of_match left hreply hrows ha, ?_⟩
    simp
  | succ m ih =>
    obtain ⟨left, rfl⟩ := Nat.exists_eq_succ_of_ne_zero (Nat.ne_zero_of_lt hlt)
    have hhead : ¬ Matches rows (replies k) := hfirst 0 (Nat.succ_pos m)
    have hshift : ∀ j, k + 1 + j = k + (j + 1) := by omega
    have hfirst' : ∀ j < m, ¬ Matches rows (replies (k + 1 + j)) := by
      intro j hj
      rw [hshift]
      exact hfirst (j + 1) (Nat.succ_lt_succ hj)
    have hreply' : replies (k + 1 + m) = .result res := by rw [hshift, hreply]
    have hall : (∀ j < m + 1, ¬ Resultless (replies (k + j))) ↔
        ¬ Resultless (replies k) ∧ ∀ j < m, ¬ Resultless (replies (k + 1 + j)) := by
      simp only [hshift]
      exact Nat.forall_lt_succ_left
    rw [hall]
    by_cases hk : Resultless (replies k)
    · -- the failure is noted
      have hnext := @attempts_of_noResult ℕ (nextReply replies) rows k a left ha hk
      obtain ⟨testResult, hrun, hzero⟩ := @ih left (k + 1)
        { a with res := none, testResult := 1 } ha (by omega) hreply' hfirst'
      rw [hshift] at hrun
      refine ⟨testResult, hnext.trans hrun, ?_⟩
      rw [hzero]
      simp [hk]
    · -- the rows are counted, and the loop goes on
      obtain ⟨other, hother⟩ := not_resultless_iff.mp hk
      have hlen : other.rows.length ≠ rows := fun h => hhead ⟨other, hother, h⟩
      obtain ⟨testResult, hrun, hzero⟩ := @ih left (k + 1)
        { a with rowsFromSelect := other.rows.length, res := some other } hlen (by omega)
        hreply' hfirst'
      rw [hshift] at hrun
      refine ⟨testResult, (attempts_of_result left ha hother).trans hrun, ?_⟩
      rw [hzero]
      exact and_congr_right fun _ => (and_iff_right hk).symm

/-- Without a reply that matches the loop ends with another number of rows. -/
theorem attempts_of_none {left k : ℕ} {a : Attempt} (ha : a.rowsFromSelect ≠ rows)
    (hnone : ∀ j < left, ¬ Matches rows (replies (k + j))) :
    (attempts (nextReply replies) rows left k a).1.rowsFromSelect ≠ rows := by
  induction left generalizing k a with
  | zero => exact ha
  | succ left ih =>
    have hhead : ¬ Matches rows (replies k) := hnone 0 (Nat.succ_pos left)
    have hshift : ∀ j, k + 1 + j = k + (j + 1) := by omega
    have hnone' : ∀ j < left, ¬ Matches rows (replies (k + 1 + j)) := by
      intro j hj
      rw [hshift]
      exact hnone (j + 1) (Nat.succ_lt_succ hj)
    by_cases hk : Resultless (replies k)
    · have hnext := @attempts_of_noResult ℕ (nextReply replies) rows k a left ha hk
      rw [hnext]
      exact ih ha hnone'
    · obtain ⟨other, hother⟩ := not_resultless_iff.mp hk
      rw [attempts_of_result left ha hother]
      exact ih (fun h => hhead ⟨other, hother, h⟩) hnone'

end

/-! ### The loop over the rows -/

theorem scanCells_eq_none_iff {row : Row} {intRes : UInt64} :
    scanCells row intRes = none ↔ none ∈ row := by
  induction row generalizing intRes with
  | nil => simp [scanCells]
  | cons cell row ih =>
    cases cell with
    | none => simp [scanCells]
    | some text => simp [scanCells, ih]

/-- A NULL in a row is handed to `sscanf`. -/
theorem checkRow_eq_none_iff {row : Row} {rowI : ℕ} {intRes : UInt64} :
    checkRow row rowI intRes = none ↔ none ∈ row := by
  match row with
  | [] => simp [checkRow]
  | none :: cells => simp [checkRow]
  | some text :: cells => simp [checkRow, scanCells_eq_none_iff]

/-- A NULL in any row is fatal. -/
theorem checkRows_of_null {rows : List Row} {rowI : ℕ} {intRes : UInt64} {testResult : ℤ}
    (h : ∃ row ∈ rows, none ∈ row) : checkRows rows rowI intRes testResult = none := by
  induction rows generalizing rowI intRes testResult with
  | nil =>
    obtain ⟨row, hrow, -⟩ := h
    cases hrow
  | cons row rows ih =>
    unfold checkRows
    cases hcheck : checkRow row rowI intRes with
    | none => rfl
    | some r =>
      have hrow : none ∉ row := by
        rw [← checkRow_eq_none_iff, hcheck]
        exact Option.some_ne_none r
      obtain ⟨row', hmem, hnull⟩ := h
      rcases List.mem_cons.mp hmem with rfl | hmem
      · exact absurd hnull hrow
      · exact ih ⟨row', hmem, hnull⟩

/-- Each row starts with a cell that shows a number. -/
def Scannable (rows : List Row) : Prop := ∀ row ∈ rows, ∀ cell ∈ row.head?, (cellNumber cell).isSome

/-- The first cell of a row is compared with the number of the row. -/
theorem checkRow_right_iff {row : Row} {rowI : ℕ} {intRes last : UInt64} {right : Bool}
    (h : checkRow row rowI intRes = some (right, last))
    (hscan : ∀ cell ∈ row.head?, (cellNumber cell).isSome) :
    right = true ↔ ∀ cell ∈ row.head?, (cellNumber cell).map UInt64.toNat = some rowI := by
  match row with
  | [] =>
    cases h
    exact iff_of_true rfl nofun
  | none :: cells => cases h
  | some text :: cells =>
    obtain ⟨v, hv⟩ := Option.isSome_iff_exists.mp (hscan (some text) rfl)
    have hscanned : Decimal.scanUnsigned text = some v := hv
    simp only [checkRow, hscanned, Option.getD_some, Option.map_eq_some_iff, Prod.mk.injEq] at h
    obtain ⟨-, -, rfl, -⟩ := h
    simp [cellNumber, hscanned]

theorem countsFrom_cons {row : Row} {rows : List Row} {rowI : ℕ} :
    CountsFrom rowI (row :: rows) ↔
      (∀ cell ∈ row.head?, (cellNumber cell).map UInt64.toNat = some rowI) ∧
        CountsFrom (rowI + 1) rows := by
  have hshift : ∀ i, rowI + 1 + i = rowI + (i + 1) := by omega
  constructor
  · intro h
    refine ⟨h 0 row rfl, fun i row' hget => ?_⟩
    rw [hshift]
    exact h (i + 1) row' hget
  · rintro ⟨hhead, htail⟩ i row' hget
    match i with
    | 0 =>
      cases hget
      exact hhead
    | i + 1 =>
      rw [← hshift]
      exact htail i row' hget

/-- **The rows.** Without a NULL the loop comes to its end; where each row starts with a number,
    no failure is noted exactly when the first column counts up. -/
theorem checkRows_eq_zero_iff {rows : List Row} {rowI : ℕ} {intRes : UInt64} {testResult : ℤ}
    (hnull : ∀ row ∈ rows, none ∉ row) :
    ∃ final, checkRows rows rowI intRes testResult = some final ∧
      (Scannable rows → (final = 0 ↔ testResult = 0 ∧ CountsFrom rowI rows)) := by
  induction rows generalizing rowI intRes testResult with
  | nil => exact ⟨testResult, rfl, fun _ => by simp [CountsFrom]⟩
  | cons row rows ih =>
    obtain ⟨hrow, hnull'⟩ := List.forall_mem_cons.mp hnull
    obtain ⟨⟨right, intRes'⟩, hcheck⟩ : ∃ r, checkRow row rowI intRes = some r := by
      rw [← Option.isSome_iff_exists, Option.isSome_iff_ne_none]
      exact mt checkRow_eq_none_iff.mp hrow
    obtain ⟨final, hrun, hfinal⟩ :=
      @ih (rowI + 1) intRes' (if right then testResult else 1) hnull'
    refine ⟨final, ?_, fun hscan => ?_⟩
    · rw [checkRows, hcheck]
      exact hrun
    · obtain ⟨hhead, hscan'⟩ := List.forall_mem_cons.mp hscan
      -- the first cell is compared with the number of the row
      have hright : right = true ↔
          ∀ cell ∈ row.head?, (cellNumber cell).map UInt64.toNat = some rowI :=
        checkRow_right_iff hcheck hhead
      have hcons : CountsFrom rowI (row :: rows) ↔
          (∀ cell ∈ row.head?, (cellNumber cell).map UInt64.toNat = some rowI) ∧
            CountsFrom (rowI + 1) rows := countsFrom_cons
      rw [hfinal hscan', hcons, ← hright]
      cases right <;> simp

/-! ### The verdict -/

/-- `k` is the first of the attempts whose reply has the expected number of rows. -/
structure FirstMatch (replies : ℕ → QueryReply) (rows k : ℕ) : Prop where
  lt : k < 100
  hit : Matches rows (replies k)
  first : ∀ j < k, ¬ Matches rows (replies j)

/-- The loop over the attempts, from its start. -/
def allAttempts (replies : ℕ → QueryReply) (rows : ℕ) : Attempt × ℕ :=
  attempts (nextReply replies) rows 100 0 ⟨0, none, 0⟩

/-- The function returns 0 exactly when one of its attempts is answered right, and compares each
    row that it checks with a number that has been read from this row. -/
structure VerdictRight (replies : ℕ → QueryReply) (rows : ℕ) (intRes : UInt64) : Prop where
  verdict : ∃ r k, executeSelectQueryAndCheck (nextReply replies) rows intRes 0 = some (r, k) ∧
    (r = 0 ↔ ∃ k < 100, RightReply rows (replies k))
  current : ∀ res, (allAttempts replies rows).1.rowsFromSelect = rows →
    (allAttempts replies rows).1.res = some res → Scannable res.rows

section

variable {replies : ℕ → QueryReply} {rows : ℕ}

theorem RightReply.hit {reply : QueryReply} (h : RightReply rows reply) : Matches rows reply := by
  obtain ⟨res, hreply, hrows, -, -⟩ := h
  exact ⟨res, hreply, hrows⟩

/-- There is one first match at most. -/
theorem FirstMatch.unique {k k' : ℕ} (hk : FirstMatch replies rows k)
    (hk' : FirstMatch replies rows k') : k' = k := by
  rcases Nat.lt_trichotomy k' k with hlt | heq | hlt
  · exact absurd hk'.hit (hk.first k' hlt)
  · exact heq
  · exact absurd hk.hit (hk'.first k hlt)

theorem FirstMatch.length_eq {k : ℕ} (hk : FirstMatch replies rows k) {res : ResultSet}
    (hres : replies k = .result res) : res.rows.length = rows := by
  obtain ⟨other, hother, hlen⟩ := hk.hit
  rw [hres] at hother
  cases hother
  exact hlen

/-- A reply that matches is right when its columns and numbers are. -/
theorem rightReply_iff {reply : QueryReply} {res : ResultSet} (hres : reply = .result res)
    (hlen : res.rows.length = rows) :
    RightReply rows reply ↔ res.fields.length = 2 ∧ CountsFrom 0 res.rows := by
  refine ⟨?_, fun h => ⟨res, hres, hlen, h.1, h.2⟩⟩
  rintro ⟨other, hother, -, hfields, hcounts⟩
  rw [hres] at hother
  cases hother
  exact ⟨hfields, hcounts⟩

/-- If no attempt is the first to match, none matches. -/
theorem not_matches_of_none (h : ∀ k, ¬ FirstMatch replies rows k) :
    ∀ k < 100, ¬ Matches rows (replies k) := by
  intro k
  induction k using Nat.strong_induction_on with
  | h k ih =>
    intro hlt hmatch
    exact h k ⟨hlt, hmatch, fun j hj => ih j hj (hj.trans hlt)⟩

/-- With no rows expected the function uses a result set that it does not have. -/
theorem execute_of_zero (intRes : UInt64) :
    executeSelectQueryAndCheck (nextReply replies) 0 intRes 0 = none := rfl

/-- Without a reply that matches the function returns 1. -/
theorem execute_of_none (hrows : rows ≠ 0) (h : ∀ k, ¬ FirstMatch replies rows k)
    (intRes : UInt64) :
    executeSelectQueryAndCheck (nextReply replies) rows intRes 0 =
      some (1, (allAttempts replies rows).2) := by
  have hnone : (allAttempts replies rows).1.rowsFromSelect ≠ rows := by
    refine attempts_of_none (Ne.symm hrows) fun j hj => ?_
    rw [Nat.zero_add]
    exact not_matches_of_none h j hj
  exact if_pos hnone

/-- **The first match.** The function checks the rows of the first reply that matches. -/
theorem execute_of_first (hrows : rows ≠ 0) {k : ℕ} (hk : FirstMatch replies rows k)
    {res : ResultSet} (hres : replies k = .result res) (intRes : UInt64) :
    (∃ testResult, allAttempts replies rows = (⟨rows, some res, testResult⟩, k + 1)) ∧
      ∃ testResult, executeSelectQueryAndCheck (nextReply replies) rows intRes 0 =
          (checkRows res.rows 0 intRes testResult).map (fun testResult => (testResult, k + 1)) ∧
        (testResult = 0 ↔ res.fields.length = 2 ∧ ∀ j < k, ¬ Resultless (replies j)) := by
  obtain ⟨testResult, hrun, hzero⟩ := @attempts_of_first replies rows 100 0 k ⟨0, none, 0⟩ res
    (Ne.symm hrows) hk.lt (by rw [Nat.zero_add, hres]) (hk.length_eq hres)
    (fun j hj => by rw [Nat.zero_add]; exact hk.first j hj)
  simp only [Nat.zero_add, true_and] at hrun hzero
  refine ⟨⟨testResult, hrun⟩, if res.fields.length ≠ 2 then 1 else testResult, ?_, ?_⟩
  · rw [executeSelectQueryAndCheck, hrun]
    exact if_neg (not_not.mpr rfl)
  · by_cases hfields : res.fields.length = 2
    · rw [if_neg (not_not.mpr hfields), hzero]
      exact (and_iff_right hfields).symm
    · rw [if_pos hfields]
      exact iff_of_false one_ne_zero fun h => hfields h.1

/-- Without a reply that matches the verdict is right. -/
theorem verdictRight_of_none (hrows : rows ≠ 0) (h : ∀ k, ¬ FirstMatch replies rows k)
    (intRes : UInt64) : VerdictRight replies rows intRes where
  verdict := by
    have hwrong : ∀ k < 100, ¬ RightReply rows (replies k) :=
      fun k hk hright => not_matches_of_none h k hk hright.hit
    refine ⟨1, _, execute_of_none hrows h intRes, iff_of_false one_ne_zero ?_⟩
    rintro ⟨k, hk, hright⟩
    exact hwrong k hk hright
  current := by
    intro res hmatch
    refine absurd hmatch (attempts_of_none (Ne.symm hrows) fun j hj => ?_)
    rw [Nat.zero_add]
    exact not_matches_of_none h j hj

/-- With a first reply that matches, the verdict depends on the rows of this reply and on the
    attempts before it. -/
theorem verdictRight_iff_of_first (hrows : rows ≠ 0) {k : ℕ} (hk : FirstMatch replies rows k)
    {res : ResultSet} (hres : replies k = .result res) (intRes : UInt64) :
    VerdictRight replies rows intRes ↔
      (∀ row ∈ res.rows, none ∉ row) ∧ Scannable res.rows ∧
        ((RightReply rows (replies k) ∧ ∀ j < k, ¬ Resultless (replies j)) ∨
          ∀ j < 100, ¬ RightReply rows (replies j)) := by
  obtain ⟨⟨noted, hall⟩, testResult, hrun, hzero⟩ := execute_of_first hrows hk hres intRes
  have hright : RightReply rows (replies k) ↔ res.fields.length = 2 ∧ CountsFrom 0 res.rows :=
    rightReply_iff hres (hk.length_eq hres)
  constructor
  · intro h
    obtain ⟨r, s, hexec, hiff⟩ := h.verdict
    have hscan : Scannable res.rows := h.current res (by rw [hall]) (by rw [hall])
    have hnull : ∀ row ∈ res.rows, none ∉ row := by
      intro row hrow hmem
      rw [hrun, checkRows_of_null ⟨row, hrow, hmem⟩] at hexec
      cases hexec
    obtain ⟨final, hcheck, hfinal⟩ := @checkRows_eq_zero_iff res.rows 0 intRes testResult hnull
    rw [hrun, hcheck, Option.map_some, Option.some.injEq, Prod.mk.injEq] at hexec
    refine ⟨hnull, hscan, ?_⟩
    by_cases hnone : ∀ j < 100, ¬ RightReply rows (replies j)
    · exact .inr hnone
    · push Not at hnone
      have hr : final = 0 := hexec.1.trans (hiff.mpr hnone)
      obtain ⟨htest, hcounts⟩ := (hfinal hscan).mp hr
      obtain ⟨hfields, hbefore⟩ := hzero.mp htest
      exact .inl ⟨hright.mpr ⟨hfields, hcounts⟩, hbefore⟩
  · rintro ⟨hnull, hscan, hcases⟩
    obtain ⟨final, hcheck, hfinal⟩ := @checkRows_eq_zero_iff res.rows 0 intRes testResult hnull
    refine ⟨⟨final, k + 1, ?_, ?_⟩, ?_⟩
    · rw [hrun, hcheck, Option.map_some]
    · rw [hfinal hscan, hzero]
      rcases hcases with ⟨hk', hbefore⟩ | hnone
      · obtain ⟨hfields, hcounts⟩ := hright.mp hk'
        exact iff_of_true ⟨⟨hfields, hbefore⟩, hcounts⟩ ⟨k, hk.lt, hk'⟩
      · refine iff_of_false (fun hgood => ?_) fun ⟨j, hj, hj'⟩ => hnone j hj hj'
        exact hnone k hk.lt (hright.mpr ⟨hgood.1.1, hgood.2⟩)
    · intro res' _ hres'
      rw [hall] at hres'
      cases hres'
      exact hscan

/-- **The verdict.** It is right exactly when rows are expected, and the first reply with as many
    rows, if there is one, has no NULL, a number in front of each row, and either is right itself
    and comes after replies with a result set only, or no reply at all is right. -/
theorem select_verdict_iff (replies : ℕ → QueryReply) (rows : ℕ) (intRes : UInt64) :
    VerdictRight replies rows intRes ↔
      rows ≠ 0 ∧ ∀ k res, FirstMatch replies rows k → replies k = .result res →
        (∀ row ∈ res.rows, none ∉ row) ∧ Scannable res.rows ∧
          ((RightReply rows (replies k) ∧ ∀ j < k, ¬ Resultless (replies j)) ∨
            ∀ j < 100, ¬ RightReply rows (replies j)) := by
  by_cases hrows : rows = 0
  · subst hrows
    refine iff_of_false (fun h => ?_) fun h => h.1 rfl
    obtain ⟨r, k, hrun, -⟩ := h.verdict
    rw [execute_of_zero] at hrun
    cases hrun
  by_cases hfirst : ∃ k, FirstMatch replies rows k
  · obtain ⟨k, hk⟩ := hfirst
    obtain ⟨res, hres, -⟩ := hk.hit
    have hverdict := verdictRight_iff_of_first hrows hk hres intRes
    constructor
    · intro h
      refine ⟨hrows, fun k' res' hk' hres' => ?_⟩
      -- this is the same reply
      obtain rfl := hk.unique hk'
      rw [hres] at hres'
      cases hres'
      exact hverdict.mp h
    · rintro ⟨-, h⟩
      exact hverdict.mpr (h k res hk hres)
  · have hnone : ∀ k, ¬ FirstMatch replies rows k := not_exists.mp hfirst
    exact iff_of_true (verdictRight_of_none hrows hnone intRes)
      ⟨hrows, fun k res hk _ => absurd hk (hnone k)⟩

end

/-- A result set with one row `0, 1`. -/
def oneRow : ResultSet :=
  ⟨[ascii "x1", ascii "fl"], [[some (ascii "0"), some (ascii "1")]], by decide⟩

/-- The first attempt fails, and from then on the reply is right. -/
def transientFailure : ℕ → QueryReply
  | 0 => .failed
  | _ + 1 => .result oneRow

/-- The failure is not taken back. -/
theorem select_verdict_transient :
    RightReply 1 (transientFailure 1) ∧
      executeSelectQueryAndCheck (nextReply transientFailure) 1 0 0 = some (1, 2) ∧
      ¬ VerdictRight transientFailure 1 0 := by
  have hright : RightReply 1 (transientFailure 1) := by
    refine ⟨oneRow, rfl, rfl, rfl, fun i row hget cell hcell => ?_⟩
    match i with
    | 0 =>
      cases hget
      cases hcell
      decide
    | i + 1 => cases hget
  have hrun : executeSelectQueryAndCheck (nextReply transientFailure) 1 0 0 = some (1, 2) := by
    rfl
  refine ⟨hright, hrun, fun h => ?_⟩
  obtain ⟨r, k, hexec, hiff⟩ := h.verdict
  rw [hrun] at hexec
  cases hexec
  exact absurd (hiff.mpr ⟨1, by decide, hright⟩) one_ne_zero

end MaxScaleSystemTest.Sql
