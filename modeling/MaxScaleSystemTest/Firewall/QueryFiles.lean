import MaxScaleSystemTest.Lib.Fgets
import MaxScaleSystemTest.Lib.Printf
import MaxScaleSystemTest.Lib.Settled
import MaxScaleSystemTest.Verdict
import Mathlib.Algebra.Order.BigOperators.Group.List

namespace MaxScaleSystemTest.Firewall

open CString Printf

/-!
# Queries read from a file

The firewall tests read a file with `fgets`, pass every line of more than one byte to
`execute_query`, which takes it for a format, and count the answers they do not expect.

* `queryLoop_eq_some_iff` — what a loop submits and counts;
* `fileQueries` — the queries of a file, whatever pieces `fgets` cuts it into;
* `submitted_iff` — when the loop submits these and nothing else;
* `firewall_failures_counted_iff` — `read_and_execute_queries` counts the queries the firewall
  lets through exactly when they all reach the server and every query that fails does so
  because of the firewall.
-/

/-- What the server answers to a query text. -/
inductive Outcome where
  | accepted
  | rejected (errno : ℕ)
  deriving DecidableEq

/-- What `execute_query` returns. -/
def Outcome.rc : Outcome → ℤ
  | .accepted => 0
  | .rejected _ => 1

/-- What `mysql_errno` gives then. -/
def Outcome.errno : Outcome → ℕ
  | .accepted => 0
  | .rejected errno => errno

/-- The error number of a query the firewall rejects. -/
def accessDenied : ℕ := 1141

/-- Where a loop stands: `local_result`, and the texts submitted so far. -/
structure QueryRun where
  localResult : ℕ
  sent : List Bytes

/-- The largest `int`. -/
def intMax : ℕ := 2 ^ 31 - 1

/-- `local_result++`, which must not overflow. -/
def increment (n : ℕ) : Option ℕ := if n < intMax then some (n + 1) else none

/-- What the calls of `fgets(sql, sizeof(sql), file)` read, one after the other. -/
def filePieces (file : Bytes) : List Bytes := Fgets.pieces nl 4095 file.length file

section Loops

-- which answers are counted, and the answers to the queries in turn
variable (counted : Outcome → Bool) (outcome : ℕ → Outcome)

/-- One query, `execute_query(conn, sql)` with what is made of the answer. -/
def submit (run : QueryRun) (sql : Bytes) : Option QueryRun := do
  let text ← message sql
  let localResult ←
    if counted (outcome run.sent.length) then increment run.localResult else some run.localResult
  return ⟨localResult, run.sent ++ [text]⟩

/-- One round: `if (strlen(sql) > 1)`. -/
def queryRound (run : QueryRun) (sql : Bytes) : Option QueryRun :=
  if 1 < (cut sql).length then submit counted outcome run (cut sql) else some run

/-- `while (fgets(sql, sizeof(sql), file))`. -/
def queryLoop (file : Bytes) (run : QueryRun) : Option QueryRun :=
  (filePieces file).foldlM (queryRound counted outcome) run

end Loops

/-- The loop of `read_and_execute_queries` over an open file. -/
def executeQueries (expected : ℤ) (outcome : ℕ → Outcome) (file : Bytes) : Option QueryRun :=
  queryLoop (fun o => o.rc ≠ expected && (expected = 1 || o.errno = accessDenied)) outcome file
    ⟨0, []⟩

/-- `read_and_execute_queries`; `file` is what the file holds, `none` if it cannot be opened. -/
def readAndExecuteQueries (elapsedTime : Bytes → Bytes) (t : TestConnections) (filename : Bytes)
    (file : Option Bytes) (expected : ℤ) (outcome : ℕ → Outcome) :
    Option (TestConnections × QueryRun) :=
  match file with
  | none =>
    let t := report elapsedTime t 1 (ascii "Error opening file '%s'\n")
      (ascii "Error opening file '" ++ filename ++ ascii "'\n")
    some (t, ⟨0, []⟩)
  | some file => (executeQueries expected outcome file).map fun run => (t, run)

/-! ### What a loop does -/

/-- What the loop passes to `execute_query`, one text after the other. -/
def queries (file : Bytes) : List Bytes :=
  ((filePieces file).map cut).filter fun sql => 1 < sql.length

/-- The answers to a number of queries, `sent` of which have been answered before. -/
def answers (outcome : ℕ → Outcome) (sent number : ℕ) : List Outcome :=
  (List.range' sent number).map outcome

section Loops

variable {counted : Outcome → Bool} {outcome : ℕ → Outcome}

/-- The rounds that submit something. -/
theorem foldlM_queryRound (sqls : List Bytes) (run : QueryRun) :
    sqls.foldlM (queryRound counted outcome) run =
      ((sqls.map cut).filter fun sql => 1 < sql.length).foldlM (submit counted outcome) run := by
  induction sqls generalizing run with
  | nil => rfl
  | cons sql sqls ih =>
    by_cases h : 1 < (cut sql).length
    · rw [List.foldlM_cons, queryRound, if_pos h, List.map_cons,
        List.filter_cons_of_pos (by simpa using h), List.foldlM_cons]
      exact bind_congr ih
    · rw [List.foldlM_cons, queryRound, if_neg h, List.map_cons,
        List.filter_cons_of_neg (by simpa using h)]
      exact ih run

theorem answers_succ (sent number : ℕ) :
    answers outcome sent (number + 1) = outcome sent :: answers outcome (sent + 1) number := rfl

/-- **One query.** It is submitted as its format makes it, and its answer is counted, as long as
    the count stays an `int`. -/
theorem submit_eq_some_iff {run run' : QueryRun} {sql : Bytes} (hrun : run.localResult ≤ intMax) :
    submit counted outcome run sql = some run' ↔
      ∃ text, message sql = some text ∧
        run.localResult + [outcome run.sent.length].countP counted ≤ intMax ∧
        run' = ⟨run.localResult + [outcome run.sent.length].countP counted,
          run.sent ++ [text]⟩ := by
  unfold submit
  cases message sql with
  | none => simp
  | some text =>
    by_cases hcount : counted (outcome run.sent.length) = true
    · by_cases hmax : run.localResult < intMax
      · simp [hcount, increment, hmax, Nat.succ_le_of_lt hmax, eq_comm]
      · have hover : ¬ run.localResult + 1 ≤ intMax := by omega
        simp [hcount, increment, hmax, hover]
    · simp [hcount, hrun, eq_comm]

/-- **All queries.** The run goes through when every text is a format without arguments and the
    count stays an `int`. -/
theorem foldlM_submit_eq_some_iff {sqls : List Bytes} {run run' : QueryRun}
    (hrun : run.localResult ≤ intMax) :
    sqls.foldlM (submit counted outcome) run = some run' ↔
      ∃ texts, sqls.mapM message = some texts ∧
        run.localResult + (answers outcome run.sent.length sqls.length).countP counted ≤ intMax ∧
        run' = ⟨run.localResult + (answers outcome run.sent.length sqls.length).countP counted,
          run.sent ++ texts⟩ := by
  induction sqls generalizing run with
  | nil => simp [answers, hrun, eq_comm]
  | cons sql sqls ih =>
    have hhead : ∀ n, [outcome run.sent.length].countP counted + n
        = n + if counted (outcome run.sent.length) = true then 1 else 0 := by
      intro n
      simp [List.countP_cons, Nat.add_comm]
    rw [List.foldlM_cons, List.mapM_cons, List.length_cons, answers_succ, List.countP_cons,
      ← hhead]
    simp only [Option.bind_eq_bind, Option.bind_eq_some_iff, submit_eq_some_iff hrun]
    constructor
    · rintro ⟨mid, ⟨text, htext, hmid, rfl⟩, hrest⟩
      obtain ⟨texts, htexts, hmax, rfl⟩ := (ih hmid).mp hrest
      simp only [List.length_append, List.length_singleton] at hmax ⊢
      exact ⟨text :: texts, ⟨text, htext, texts, htexts, rfl⟩, by omega, by simp [Nat.add_assoc]⟩
    · rintro ⟨_, ⟨text, htext, texts, htexts, ⟨⟩⟩, hmax, rfl⟩
      have hmid : run.localResult + [outcome run.sent.length].countP counted ≤ intMax := by omega
      refine ⟨_, ⟨text, htext, hmid, rfl⟩, (ih hmid).mpr ⟨texts, htexts, ?_, ?_⟩⟩
      · simp only [List.length_append, List.length_singleton]
        omega
      · simp [Nat.add_assoc]

/-- What a loop submits and counts. -/
theorem queryLoop_eq_some_iff {file : Bytes} (run : QueryRun) {run' : QueryRun}
    (hrun : run.localResult ≤ intMax) :
    queryLoop counted outcome file run = some run' ↔
      ∃ texts, (queries file).mapM message = some texts ∧
        run.localResult + (answers outcome run.sent.length (queries file).length).countP counted
          ≤ intMax ∧
        run' = ⟨run.localResult
            + (answers outcome run.sent.length (queries file).length).countP counted,
          run.sent ++ texts⟩ := by
  rw [queryLoop, foldlM_queryRound]
  exact foldlM_submit_eq_some_iff hrun

end Loops

/-! ### Texts -/

/-- What is read fits the buffer. -/
theorem length_of_mem_queries {file sql : Bytes} (h : sql ∈ queries file) : sql.length ≤ 4095 := by
  obtain ⟨piece, hpiece, rfl⟩ := List.mem_map.mp (List.mem_filter.mp h).1
  exact (List.takeWhile_prefix _).length_le.trans (Fgets.length_of_mem_pieces hpiece)

/-- A query is a text for the server when it is a format without arguments. -/
theorem message_of_mem_queries {file sql : Bytes} (h : sql ∈ queries file) :
    message sql = noArguments sql :=
  message_of_length_lt (by have := length_of_mem_queries h; omega)

/-! ### The queries of a file -/

/-- The queries of a file: what is in its lines, where there is anything. -/
def fileQueries (file : Bytes) : List Bytes :=
  ((Fgets.lines nl file).map (Fgets.content nl)).filter (· ≠ [])

/-- The text is what the query makes as a format, with a newline behind it or without. -/
def Sends (query text : Bytes) : Prop :=
  noArguments query = some text ∨ noArguments (query ++ [nl]) = some text

/-- Every query of a file gets to the server, and nothing else does: each is a format without
    arguments and fits the buffer, no NUL cuts one short, and none is a single byte at the end
    of the file. -/
structure Submittable (file : Bytes) : Prop where
  format : ∀ query ∈ fileQueries file, (noArguments query).isSome
  fits : ∀ query ∈ fileQueries file, query.length ≤ 4095
  nulFree : 0 ∉ file
  noSingle : ∀ line ∈ Fgets.lines nl file, line.length = 1 → line = [nl]

/-- The bytes of a text other than newlines. -/
def weight (s : Bytes) : ℕ := s.countP (· ≠ nl)

theorem isSome_of_sends {query text : Bytes} (h : Sends query text) :
    (noArguments query).isSome := by
  rcases h with h | h
  · rw [h]
    rfl
  · rw [← isSome_noArguments_append (show nl ≠ percent by decide), h]
    rfl

theorem length_content_le_of_fits {file : Bytes}
    (h : ∀ query ∈ fileQueries file, query.length ≤ 4095) :
    ∀ line ∈ Fgets.lines nl file, (Fgets.content nl line).length ≤ 4095 := by
  intro line hline
  by_cases hnil : Fgets.content nl line = []
  · simp [hnil]
  · exact h _ (List.mem_filter.mpr ⟨List.mem_map_of_mem hline, by simpa using hnil⟩)

/-- The queries of a file have all its bytes but the newlines. -/
theorem sum_weight_fileQueries (file : Bytes) :
    ((fileQueries file).map weight).sum = weight file := by
  have hline : ∀ line ∈ Fgets.lines nl file, weight (Fgets.content nl line) = weight line := by
    intro line hline
    rcases Fgets.line_eq_content hline with heq | heq
    · rw [← heq]
    · conv_rhs => rw [heq]
      simp [weight]
  calc ((fileQueries file).map weight).sum
      = (((Fgets.lines nl file).map (Fgets.content nl)).map weight).sum := by
        rw [fileQueries]
        generalize (Fgets.lines nl file).map (Fgets.content nl) = contents
        induction contents with
        | nil => rfl
        | cons q contents ih =>
          by_cases hq : q = []
          · simpa [hq, weight] using ih
          · rw [List.filter_cons_of_pos (by simpa using hq), List.map_cons, List.sum_cons, ih,
              List.map_cons, List.sum_cons]
    _ = ((Fgets.lines nl file).map weight).sum := by
        rw [List.map_map]
        exact congrArg List.sum (List.map_congr_left hline)
    _ = weight file := by
        conv_rhs => rw [← Fgets.flatten_lines nl file]
        rw [weight, List.countP_flatten]
        rfl

/-- What a piece brings to the queries. -/
theorem sum_weight_queries (file : Bytes) :
    ((queries file).map weight).sum =
      ((filePieces file).map fun piece =>
        if 1 < (cut piece).length then weight (cut piece) else 0).sum := by
  rw [queries]
  induction filePieces file with
  | nil => rfl
  | cons piece pieces ih =>
    by_cases h : 1 < (cut piece).length
    · simp [h, ih]
    · simp [h, ih]

/-- The bytes lost of a piece: none when it is passed on as a whole. -/
theorem weight_passed_le (piece : Bytes) :
    (if 1 < (cut piece).length then weight (cut piece) else 0) ≤ weight piece := by
  split
  · exact (List.takeWhile_prefix _).sublist.countP_le
  · exact Nat.zero_le _

/-- Nothing is lost of a piece exactly if it is a lone newline or passed on as a whole. -/
theorem piece_of_weight_eq {file piece : Bytes} (hmem : piece ∈ filePieces file)
    (h : (if 1 < (cut piece).length then weight (cut piece) else 0) = weight piece) :
    piece = [nl] ∨ 1 < piece.length ∧ 0 ∉ piece := by
  by_cases hlong : 1 < (cut piece).length
  · rw [if_pos hlong] at h
    refine .inr ⟨hlong.trans_le (List.takeWhile_prefix _).length_le, fun hzero => ?_⟩
    -- a NUL that cuts the piece is a byte that is lost
    have hsplit : piece = cut piece ++ piece.dropWhile (· ≠ 0) :=
      (List.takeWhile_append_dropWhile).symm
    have hlost : 0 ∈ piece.dropWhile (· ≠ 0) := by
      rw [hsplit, List.mem_append] at hzero
      refine hzero.resolve_left fun hcut => ?_
      simpa using List.mem_takeWhile_imp hcut
    have hpos : 0 < weight (piece.dropWhile (· ≠ 0)) :=
      List.countP_pos_iff.mpr ⟨0, hlost, by decide⟩
    have hsum : weight piece = weight (cut piece) + weight (piece.dropWhile (· ≠ 0)) := by
      conv_lhs => rw [hsplit]
      exact List.countP_append
    omega
  · rw [if_neg hlong] at h
    left
    apply Fgets.piece_eq_singleton (by decide) hmem
    intro c hc
    have hnone := List.countP_eq_zero.mp h.symm c hc
    simpa using hnone

/-- Two lists whose members give the same sum, each of the one no more than that of the other,
    agree member by member. -/
theorem eq_of_sum_eq {α : Type*} {f g : α → ℕ} {l : List α} (hle : ∀ x ∈ l, f x ≤ g x)
    (h : (l.map f).sum = (l.map g).sum) : ∀ x ∈ l, f x = g x := by
  induction l with
  | nil => nofun
  | cons y l ih =>
    obtain ⟨hy, hl⟩ := List.forall_mem_cons.mp hle
    have hsum : (l.map f).sum ≤ (l.map g).sum := List.sum_le_sum hl
    rw [List.map_cons, List.map_cons, List.sum_cons, List.sum_cons] at h
    exact List.forall_mem_cons.mpr ⟨by omega, ih hl (by omega)⟩

section Submitted

variable {file : Bytes} {texts : List Bytes}

/-- What is passed on is, query for query, what is in the file. -/
theorem queries_eq_fileQueries (htexts : (queries file).mapM message = some texts)
    (hsends : List.Forall₂ Sends (fileQueries file) texts) :
    List.Forall₂ (fun sql query => sql = query ∨ sql = query ++ [nl]) (queries file)
      (fileQueries file) := by
  have hmessages := Settled.mapM_eq_some_iff.mp htexts
  have hjoin : ∀ {sqls texts qs : List Bytes},
      List.Forall₂ (fun sql text => message sql = some text) sqls texts →
      List.Forall₂ Sends qs texts →
      List.Forall₂ (fun sql query => sql = query ∨ sql = query ++ [nl]) sqls qs := by
    intro sqls texts qs hm hs
    induction hm generalizing qs with
    | nil =>
      cases hs
      exact .nil
    | cons hmessage _ ih =>
      cases hs with
      | cons hsend hrest =>
        have hsql := (Option.filter_eq_some_iff.mp hmessage).1
        exact .cons (hsend.imp (noArguments_injective hsql) (noArguments_injective hsql)) (ih hrest)
  exact hjoin hmessages hsends

/-- Nothing of the file is lost. -/
theorem pieces_of_sends (htexts : (queries file).mapM message = some texts)
    (hsends : List.Forall₂ Sends (fileQueries file) texts) :
    ∀ piece ∈ filePieces file, piece = [nl] ∨ 1 < piece.length ∧ 0 ∉ piece := by
  have hpairs := queries_eq_fileQueries htexts hsends
  have hweights : (queries file).map weight = (fileQueries file).map weight := by
    rw [← List.forall₂_eq_eq_eq, List.forall₂_map_left_iff, List.forall₂_map_right_iff]
    refine hpairs.imp fun sql query h => ?_
    rcases h with rfl | rfl
    · rfl
    · simp [weight]
  have hsum : ((filePieces file).map fun piece =>
      if 1 < (cut piece).length then weight (cut piece) else 0).sum
        = ((filePieces file).map weight).sum := by
    rw [← sum_weight_queries, hweights, sum_weight_fileQueries]
    have hfile : (filePieces file).flatten = file :=
      Fgets.flatten_pieces (by decide) (Nat.le_refl _)
    conv_lhs => rw [← hfile]
    rw [weight, List.countP_flatten]
    rfl
  intro piece hmem
  exact piece_of_weight_eq hmem (eq_of_sum_eq (fun p _ => weight_passed_le p) hsum piece hmem)

/-- As many texts are passed on as there are pieces with something in them. -/
theorem length_queries (h : ∀ piece ∈ filePieces file,
    piece = [nl] ∨ 1 < piece.length ∧ 0 ∉ piece) :
    (queries file).length = (filePieces file).countP (· ≠ [nl]) := by
  rw [queries, ← List.countP_eq_length_filter, List.countP_map]
  refine List.countP_congr fun piece hmem => ?_
  rcases h piece hmem with rfl | ⟨hlong, hstring⟩
  · decide
  · have hne : piece ≠ [nl] := by
      rintro rfl
      exact absurd hlong (by decide)
    simp [cut_of_not_mem hstring, hlong, hne]

theorem length_fileQueries (file : Bytes) :
    (fileQueries file).length = (Fgets.lines nl file).countP (· ≠ [nl]) := by
  rw [fileQueries, ← List.countP_eq_length_filter, List.countP_map]
  refine List.countP_congr fun line hmem => ?_
  have hnil := Fgets.content_eq_nil_iff hmem
  simp [hnil]

/-- **Necessary.** Where the texts are the queries of the file, the file is submittable. -/
theorem submittable_of_sends (htexts : (queries file).mapM message = some texts)
    (hsends : List.Forall₂ Sends (fileQueries file) texts) : Submittable file := by
  have hpieces := pieces_of_sends htexts hsends
  have hformat : ∀ query ∈ fileQueries file, (noArguments query).isSome :=
    ((List.forall₂_and_left _ _).mp (hsends.imp fun _ _ h => ⟨isSome_of_sends h, h⟩)).1
  -- a line that does not fit would be passed on in several texts
  have hfits : ∀ line ∈ Fgets.lines nl file, (Fgets.content nl line).length ≤ 4095 := by
    intro line hline
    by_contra hover
    have hmore := (Fgets.length_filled_lines_le (n := 4095) (by decide) (Nat.le_refl file.length)).2
      ⟨line, hline, by omega⟩
    have hsame := (queries_eq_fileQueries htexts hsends).length_eq
    rw [length_queries hpieces, length_fileQueries, filePieces] at hsame
    omega
  refine ⟨hformat, fun query hquery => ?_, fun hzero => ?_, fun line hline hone => ?_⟩
  · obtain ⟨line, hline, rfl⟩ := List.mem_map.mp (List.mem_filter.mp hquery).1
    exact hfits line hline
  · have hfile : (filePieces file).flatten = file :=
      Fgets.flatten_pieces (by decide) (Nat.le_refl _)
    rw [← hfile, List.mem_flatten] at hzero
    obtain ⟨piece, hmem, hzero⟩ := hzero
    rcases hpieces piece hmem with rfl | ⟨-, hstring⟩
    · exact absurd hzero (by decide)
    · exact hstring hzero
  · have hmem : line ∈ filePieces file := by
      rw [filePieces, Fgets.pieces_eq_flatMap (by decide) (Nat.le_refl _) fun l hl =>
        (Fgets.length_line_le hl).trans (Nat.succ_le_succ (hfits l hl)), List.mem_flatMap]
      exact ⟨line, hline, by simp [Fgets.linePieces, hone]⟩
    exact (hpieces line hmem).resolve_right fun h => by omega

/-- What is passed on of a submittable file: of each line with something in it what the buffer
    holds. -/
theorem queries_of_submittable (h : Submittable file) :
    queries file =
      ((Fgets.lines nl file).filter fun line => Fgets.content nl line ≠ []).map
        (List.take 4095) := by
  have hfits := length_content_le_of_fits h.fits
  have hlines : ∀ line ∈ Fgets.lines nl file, line.length ≤ 4095 + 1 := fun line hline =>
    (Fgets.length_line_le hline).trans (Nat.succ_le_succ (hfits line hline))
  have hpieces : filePieces file = (Fgets.lines nl file).flatMap (Fgets.linePieces 4095) :=
    Fgets.pieces_eq_flatMap (by decide) (Nat.le_refl _) hlines
  have hcut : (filePieces file).map cut = filePieces file := by
    rw [List.map_congr_left (g := id), List.map_id]
    intro piece hmem
    have hfile : (filePieces file).flatten = file :=
      Fgets.flatten_pieces (by decide) (Nat.le_refl _)
    apply cut_of_not_mem
    intro hzero
    exact h.nulFree (hfile ▸ List.mem_flatten.mpr ⟨piece, hmem, hzero⟩)
  rw [queries, hcut, hpieces]
  have hline : ∀ line ∈ Fgets.lines nl file,
      (Fgets.linePieces 4095 line).filter (fun sql => 1 < sql.length)
        = if Fgets.content nl line ≠ [] then [line.take 4095] else [] := by
    intro line hmem
    have hle := hlines line hmem
    by_cases hnil : Fgets.content nl line = []
    · rw [(Fgets.content_eq_nil_iff hmem).mp hnil]
      decide
    · have hlong : 1 < line.length := by
        by_contra hshort
        have hpos := List.length_pos_iff.mpr (Fgets.ne_nil_of_mem_lines hmem)
        have hone := h.noSingle line hmem (by omega)
        exact hnil ((Fgets.content_eq_nil_iff hmem).mpr hone)
      rw [if_pos hnil, Fgets.linePieces]
      split
      · rename_i hroom
        rw [List.take_of_length_le hroom, List.filter_cons_of_pos (by simpa using hlong),
          List.filter_nil]
      · -- the newline that is left over is not passed on
        have htake : 1 < (line.take 4095).length := by
          rw [List.length_take]
          omega
        have hdrop : ¬ 1 < (line.drop 4095).length := by
          rw [List.length_drop]
          omega
        rw [List.filter_cons_of_pos (by simpa using htake),
          List.filter_cons_of_neg (by simpa using hdrop), List.filter_nil]
  clear hcut hpieces hlines hfits
  generalize Fgets.lines nl file = lines at hline
  induction lines with
  | nil => rfl
  | cons line lines ih =>
    obtain ⟨hfirst, hrest⟩ := List.forall_mem_cons.mp hline
    rw [List.flatMap_cons, List.filter_append, hfirst, ih hrest]
    by_cases hnil : Fgets.content nl line = []
    · rw [if_neg (not_not.mpr hnil), List.filter_cons_of_neg (by simpa using hnil), List.nil_append]
    · rw [if_pos hnil, List.filter_cons_of_pos (by simpa using hnil)]
      rfl

end Submitted

/-- **What is submitted.** The texts that the loop submits are the queries of the file exactly
    when the file is submittable. -/
theorem submitted_iff (file : Bytes) :
    (∃ texts, (queries file).mapM message = some texts ∧
      List.Forall₂ Sends (fileQueries file) texts) ↔ Submittable file := by
  refine ⟨fun ⟨texts, htexts, hsends⟩ => submittable_of_sends htexts hsends, fun h => ?_⟩
  have hqueries := queries_of_submittable h
  have hfile : fileQueries file = ((Fgets.lines nl file).filter
      fun line => Fgets.content nl line ≠ []).map (Fgets.content nl) := by
    rw [fileQueries, List.filter_map]
    rfl
  -- what the buffer holds of a line is its query, with the newline or without
  have hread : ∀ line ∈ (Fgets.lines nl file).filter (fun line => Fgets.content nl line ≠ []),
      line.take 4095 = Fgets.content nl line ∨
        line.take 4095 = Fgets.content nl line ++ [nl] := by
    intro line hmem
    have hline := (List.mem_filter.mp hmem).1
    have hfits := length_content_le_of_fits h.fits line hline
    rcases Fgets.line_eq_content hline with heq | heq
    · rw [← heq] at hfits ⊢
      exact .inl (List.take_of_length_le hfits)
    · generalize Fgets.content nl line = content at hfits heq
      subst heq
      by_cases hroom : content.length = 4095
      · exact .inl (by rw [← hroom, List.take_left])
      · refine .inr (List.take_of_length_le ?_)
        rw [List.length_append, List.length_singleton]
        omega
  have hformat : ∀ sql ∈ queries file, (message sql).isSome := by
    intro sql hsql
    rw [message_of_mem_queries hsql]
    rw [hqueries] at hsql
    obtain ⟨line, hmem, rfl⟩ := List.mem_map.mp hsql
    have hsome := h.format (Fgets.content nl line) (hfile ▸ List.mem_map_of_mem hmem)
    rcases hread line hmem with heq | heq
    · rw [heq]
      exact hsome
    · rw [heq, isSome_noArguments_append (by decide)]
      exact hsome
  obtain ⟨texts, htexts⟩ := Settled.exists_mapM_iff.mpr hformat
  refine ⟨texts, htexts, ?_⟩
  have hmessages := Settled.mapM_eq_some_iff.mp htexts
  rw [hqueries, List.forall₂_map_left_iff] at hmessages
  rw [hfile, List.forall₂_map_left_iff]
  refine ((List.forall₂_and_left _ _).mpr ⟨hread, hmessages⟩).imp fun line text hboth => ?_
  obtain ⟨hline, hmessage⟩ := hboth
  have htext := (Option.filter_eq_some_iff.mp hmessage).1
  rcases hline with heq | heq
  · exact .inl (heq ▸ htext)
  · exact .inr (heq ▸ htext)

/-! ### What is counted -/

/-- What a file of queries is for: the queries should pass, or the firewall should deny them. -/
inductive Expectation where
  | pass
  | denial

/-- The parameter `expected`. -/
def Expectation.value : Expectation → ℤ
  | .pass => 0
  | .denial => 1

/-- An answer is a failure if the firewall has denied what should pass, or not denied what it
    should deny. -/
def Expectation.failure : Expectation → Outcome → Bool
  | .pass, o => o = .rejected accessDenied
  | .denial, o => o ≠ .rejected accessDenied

/-- The answers to the queries of a file. -/
def fileAnswers (outcome : ℕ → Outcome) (file : Bytes) : List Outcome :=
  answers outcome 0 (fileQueries file).length

/-- `read_and_execute_queries` submits the queries of the file, one after the other, and returns
    the number of failures among the answers to them. -/
def CountsFailures (expected : Expectation) (outcome : ℕ → Outcome) (file : Bytes) : Prop :=
  ∀ elapsedTime t filename, ∃ run,
    readAndExecuteQueries elapsedTime t filename (some file) expected.value outcome
      = some (t, run) ∧
    List.Forall₂ Sends (fileQueries file) run.sent ∧
    run.localResult = (fileAnswers outcome file).countP expected.failure

/-- The answers `read_and_execute_queries` counts. -/
def counted (expected : Expectation) (o : Outcome) : Bool :=
  o.rc ≠ expected.value && (expected.value = 1 || o.errno = accessDenied)

/-- The code counts failures only, and misses the queries that should be denied and fail for
    another reason. -/
theorem counted_iff (expected : Expectation) (o : Outcome) :
    counted expected o ↔ expected.failure o ∧
      (expected = .denial → ∀ errno, o = .rejected errno → errno = accessDenied) := by
  match expected, o with
  | .pass, .accepted => simp [counted, Expectation.failure, Expectation.value, Outcome.rc]
  | .pass, .rejected errno =>
    by_cases h : errno = accessDenied <;>
      simp [counted, Expectation.failure, Expectation.value, Outcome.rc, Outcome.errno, h]
  | .denial, .accepted => simp [counted, Expectation.failure, Expectation.value, Outcome.rc]
  | .denial, .rejected errno =>
    by_cases h : errno = accessDenied <;>
      simp [counted, Expectation.failure, Expectation.value, Outcome.rc, h]

/-- Of two kinds, one of which is part of the other, there are as many when they are the same. -/
theorem countP_eq_countP_iff {α : Type*} {p q : α → Bool} (hpq : ∀ x, p x → q x) (l : List α) :
    l.countP p = l.countP q ↔ ∀ x ∈ l, q x → p x := by
  have hboth : l.countP p = (l.filter q).countP p := by
    rw [List.countP_filter]
    exact List.countP_congr fun x _ => by simpa using hpq x
  rw [hboth, List.countP_eq_length_filter (p := q), List.countP_eq_length]
  simp [List.mem_filter]

/-- As many answers are counted as there are failures when none of them is missed. -/
theorem countP_counted_iff (expected : Expectation) (answers : List Outcome) :
    answers.countP (counted expected) = answers.countP expected.failure ↔
      (expected = .denial → ∀ errno, .rejected errno ∈ answers → errno = accessDenied) := by
  rw [countP_eq_countP_iff fun o h => ((counted_iff expected o).mp h).1]
  constructor
  · intro h hdenial errno hmem
    subst hdenial
    by_contra hother
    have hfailure : Expectation.denial.failure (.rejected errno) := by
      simp [Expectation.failure, hother]
    exact hother (((counted_iff _ _).mp (h _ hmem hfailure)).2 rfl errno rfl)
  · rintro h o ho hfailure
    exact (counted_iff expected o).mpr
      ⟨hfailure, fun hdenial errno heq => h hdenial errno (heq ▸ ho)⟩

/-- What `read_and_execute_queries` does with a file it can open. -/
theorem countsFailures_iff_queryLoop (expected : Expectation) (outcome : ℕ → Outcome)
    (file : Bytes) :
    CountsFailures expected outcome file ↔
      ∃ run, queryLoop (counted expected) outcome file ⟨0, []⟩ = some run ∧
        List.Forall₂ Sends (fileQueries file) run.sent ∧
        run.localResult = (fileAnswers outcome file).countP expected.failure := by
  have hopen : ∀ elapsedTime t filename run,
      readAndExecuteQueries elapsedTime t filename (some file) expected.value outcome
        = some (t, run) ↔ queryLoop (counted expected) outcome file ⟨0, []⟩ = some run := by
    intro elapsedTime t filename run
    show Option.map _ (queryLoop (counted expected) outcome file ⟨0, []⟩) = _ ↔ _
    simp [Option.map_eq_some_iff]
  simp only [CountsFailures, hopen]
  exact ⟨fun h => h id ⟨0, []⟩ [], fun h _ _ _ => h⟩

/-- As many answers are taken as there are queries. -/
theorem length_queries_of_sends {file : Bytes} {texts : List Bytes}
    (htexts : (queries file).mapM message = some texts)
    (hsends : List.Forall₂ Sends (fileQueries file) texts) :
    (queries file).length = (fileQueries file).length :=
  (queries_eq_fileQueries htexts hsends).length_eq

/-- **The count.** The queries of the file are submitted, and their failures counted, exactly when
    the file is submittable, the number of failures is an `int`, and no query that the firewall
    should deny fails for another reason. -/
theorem firewall_failures_counted_iff (expected : Expectation) (outcome : ℕ → Outcome)
    (file : Bytes) :
    CountsFailures expected outcome file ↔
      Submittable file ∧ (fileAnswers outcome file).countP expected.failure ≤ intMax ∧
      (expected = .denial → ∀ errno, .rejected errno ∈ fileAnswers outcome file →
        errno = accessDenied) := by
  rw [countsFailures_iff_queryLoop, ← countP_counted_iff, ← submitted_iff]
  simp only [queryLoop_eq_some_iff ⟨0, []⟩ (Nat.zero_le intMax), Nat.zero_add, List.nil_append,
    List.length_nil]
  constructor
  · rintro ⟨run, ⟨texts, htexts, hmax, rfl⟩, hsends, hcount⟩
    rw [length_queries_of_sends htexts hsends] at hmax hcount
    exact ⟨⟨texts, htexts, hsends⟩, hcount ▸ hmax, hcount⟩
  · rintro ⟨⟨texts, htexts, hsends⟩, hmax, hcount⟩
    rw [length_queries_of_sends htexts hsends]
    exact ⟨_, ⟨texts, htexts, hcount ▸ hmax, rfl⟩, hsends, hcount⟩

/-- A query that should be denied and has an error in its syntax. -/
def exampleDenyFile : Bytes := ascii "select * form t1\n"

/-- It fails with errno 1064, and is not counted. -/
theorem other_error_passes_for_denial :
    ¬ CountsFailures .denial (fun _ => .rejected 1064) exampleDenyFile := by
  rw [firewall_failures_counted_iff]
  rintro ⟨-, -, h⟩
  have hmem : .rejected 1064 ∈ fileAnswers (fun _ => .rejected 1064) exampleDenyFile := by
    decide +kernel
  exact absurd (h rfl 1064 hmem) (by decide)

end MaxScaleSystemTest.Firewall
