import MaxScaleSystemTest.Lib.InputLoop
import MaxScaleSystemTest.Sql.Client
import Mathlib.Data.Prod.Lex

namespace MaxScaleSystemTest.Nodes

open CString InputLoop Sql

/-!
# Waiting for a binlog position

`wait_until_pos` polls a slave until its binlog position has reached a target.

* `readSlaveStatus` — what the code takes from one reply.
* `waitUntilPos` — the polling loop, as a loop over the replies.
* `wait_until_pos_ends_iff` — the loop ends at the first reply whose file and offset reach
  the target separately.
* `ShowsAt`, `Showing` — the position a reply shows, whatever the code reads from it.
* `Executed` — what the wait is for: the position of the SQL thread has reached the target
  in the lexicographic order on (file, offset).
* `stops_at_first_reached_iff` — when the loop stops at the first reply past the target.
-/

/-- A binlog position: file number and offset. -/
abbrev BinlogPos := ℤ × ℤ

/-- `atoi(strchr(cell, '.') + 1)`; `none` when that dereferences a NULL or wild pointer. -/
def fileNumber (cell : Cell) : Option ℤ := do
  let name ← cell
  let suffix ← strchr name '.'.toUInt8
  return atoi suffix.tail

/-- What the code makes of one reply: the query failed, the reply holds no position, it
    holds one, or reading it is undefined. -/
inductive Reading where
  | failed
  | skipped
  | shown (pos : BinlogPos)
  | fault

/-- Read a position from a row: the columns `test` and `offset` are tested for NULL, the
    columns `file` and `offset` are used. -/
def readPosition (test file offset : ℕ) (row : Row) : Reading :=
  match row[test]?, row[offset]? with
  | some none, _ => .skipped
  | some (some _), some none => .skipped
  -- the file name is not tested: `strchr` may return NULL or get it
  | some (some _), some (some digits) =>
    match fileNumber row[file]?.join with
    | some n => .shown (n, atoi digits)
    | none => .fault
  | _, _ => .fault

/-- Read a reply through its first row. -/
def readReply (readRow : Row → Reading) : QueryReply → Reading
  | .failed => .failed
  | .noResult => .skipped
  | .result res =>
    match res.firstRow with
    | some row => readRow row
    | none => .skipped

/-- `wait_until_pos` on a reply to `SHOW SLAVE STATUS`: `Read_Master_Log_Pos` (column 6) is
    tested, `Master_Log_File` (column 5) and `Exec_Master_Log_Pos` (column 21) are used. -/
def readSlaveStatus : QueryReply → Reading := readReply (readPosition 6 5 21)

/-! ### The polling loop -/

/-- How `wait_until_pos` ends: the position was reached, a query failed, or a reply made it
    dereference a bad pointer. -/
inductive WaitEnd where
  | reached
  | queryFailed
  | fault

/-- The test at the foot of the loop, `slave_filenum < filenum || slave_pos < pos`. -/
def loopTest (target s : BinlogPos) : BinlogPos ⊕ WaitEnd :=
  if s.1 < target.1 ∨ s.2 < target.2 then .inl s else .inr .reached

/-- One turn of the loop in `wait_until_pos`; the state is `(slave_filenum, slave_pos)`. -/
def waitBody (target s : BinlogPos) (reply : QueryReply) : BinlogPos ⊕ WaitEnd :=
  match readSlaveStatus reply with
  | .failed => .inr .queryFailed
  | .fault => .inr .fault
  | .skipped => loopTest target s
  | .shown pos => loopTest target pos

/-- `wait_until_pos`, on the replies its queries get. -/
def waitUntilPos (target : BinlogPos) (replies : List QueryReply) :
    Status BinlogPos QueryReply WaitEnd :=
  run (waitBody target) (0, 0) replies

/-! ### When the loop ends -/

/-- The reply lets the wait end: its file and its offset reach the target separately.  A
    first reply without a position is compared as `(0, 0)`. -/
def Satisfies (target : BinlogPos) (taken : List QueryReply) (reply : QueryReply) : Prop :=
  match readSlaveStatus reply with
  | .shown pos => target.1 ≤ pos.1 ∧ target.2 ≤ pos.2
  | .skipped => taken = [] ∧ target.1 ≤ 0 ∧ target.2 ≤ 0
  | _ => False

/-- The reply ends the loop, in one way or another. -/
def EndsLoop (target : BinlogPos) (taken : List QueryReply) (reply : QueryReply) : Prop :=
  Satisfies target taken reply ∨ readSlaveStatus reply = .failed ∨ readSlaveStatus reply = .fault

/-- How the loop ends at such a reply. -/
def endOf (_taken : List QueryReply) (reply : QueryReply) : WaitEnd :=
  match readSlaveStatus reply with
  | .failed => .queryFailed
  | .fault => .fault
  | _ => .reached

/-- The state of the loop against the replies taken: `(0, 0)` at the start, afterwards a
    position that has not reached the target. -/
def Behind (target : BinlogPos) (taken : List QueryReply) (s : BinlogPos) : Prop :=
  (taken = [] ∧ s = (0, 0)) ∨ (taken ≠ [] ∧ (s.1 < target.1 ∨ s.2 < target.2))

theorem behind_append {target s : BinlogPos} (taken : List QueryReply) (reply : QueryReply)
    (h : s.1 < target.1 ∨ s.2 < target.2) : Behind target (taken ++ [reply]) s :=
  .inr ⟨by simp, h⟩

/-- A turn whose test sees position `s` goes round exactly when `s` is behind the target. -/
theorem loopTest_cases (target s : BinlogPos) :
    ((target.1 ≤ s.1 ∧ target.2 ≤ s.2) ∧ loopTest target s = .inr .reached) ∨
      ((s.1 < target.1 ∨ s.2 < target.2) ∧ loopTest target s = .inl s) := by
  unfold loopTest
  by_cases h : s.1 < target.1 ∨ s.2 < target.2
  · exact .inr ⟨h, if_pos h⟩
  · refine .inl ⟨?_, if_neg h⟩
    omega

/-- **Step lemma.** The replies alone decide what each turn does. -/
theorem waitBody_decided (target : BinlogPos) :
    DecidedBy (waitBody target) (Behind target) (EndsLoop target) endOf := by
  intro taken s reply hs
  cases hr : readSlaveStatus reply with
  | failed => exact .inl ⟨.inr (.inl hr), by simp [waitBody, endOf, hr]⟩
  | fault => exact .inl ⟨.inr (.inr hr), by simp [waitBody, endOf, hr]⟩
  | shown pos =>
    -- a position replaces the one of the reply before
    have hbody : waitBody target s reply = loopTest target pos := by simp [waitBody, hr]
    rcases loopTest_cases target pos with ⟨hle, htest⟩ | ⟨hlt, htest⟩
    · refine .inl ⟨.inl ?_, ?_⟩
      · simpa [Satisfies, hr] using hle
      · simpa [endOf, hr, hbody] using htest
    · refine .inr ⟨?_, pos, by rw [hbody, htest], behind_append taken reply hlt⟩
      simp only [EndsLoop, Satisfies, hr, reduceCtorEq, or_false]
      omega
  | skipped =>
    have hbody : waitBody target s reply = loopTest target s := by simp [waitBody, hr]
    rcases hs with ⟨rfl, rfl⟩ | ⟨hne, hlt⟩
    · -- the first reply is compared with the initial `(0, 0)`
      rcases loopTest_cases target (0, 0) with ⟨hle, htest⟩ | ⟨hlt, htest⟩
      · refine .inl ⟨.inl ?_, ?_⟩
        · simpa [Satisfies, hr] using hle
        · simpa [endOf, hr, hbody] using htest
      · refine .inr ⟨?_, _, by rw [hbody, htest], behind_append [] reply hlt⟩
        simp only [EndsLoop, Satisfies, hr, reduceCtorEq, or_false, true_and]
        omega
    · -- a later reply without a position leaves the last one in place
      have htest : loopTest target s = .inl s := if_pos hlt
      refine .inr ⟨?_, s, by rw [hbody, htest], behind_append taken reply hlt⟩
      simp [EndsLoop, Satisfies, hr, hne]

/-- **The wait ends at the first reply whose file and offset reach the target separately**,
    unless a query fails or a reply cannot be read before. -/
theorem wait_until_pos_ends_iff (target : BinlogPos) (replies rest : List QueryReply) (e : WaitEnd) :
    waitUntilPos target replies = .ended e rest ↔
      ∃ taken reply, replies = taken ++ reply :: rest ∧ NeverStops (EndsLoop target) taken ∧
        EndsLoop target taken reply ∧ e = endOf taken reply :=
  run_ended_iff_first (.inl ⟨rfl, rfl⟩) (waitBody_decided target)

/-! ### What a reply shows -/

/-- The byte `.`. -/
abbrev fileDot : UInt8 := '.'.toUInt8

/-- A number as the server prints it. -/
def IsNumber (ds : Bytes) : Prop := ds ≠ [] ∧ ∀ c ∈ ds, isdigit c = true

/-- The first row of a reply, if there is one. -/
def replyRow : QueryReply → Option Row
  | .result res => res.firstRow
  | _ => none

/-- The row shows a position: a file `name.number` in the column `file`, where the name may
    have dots as well, and an offset in the column `offset`. -/
def ShowsAt (file offset : ℕ) (row : Row) (number position : Bytes) : Prop :=
  IsNumber number ∧ IsNumber position ∧
    ∃ name, row[file]? = some (some (name ++ fileDot :: number)) ∧
      row[offset]? = some (some position)

/-- What stands behind the first dot of a name. -/
def behindFirstDot (name : Bytes) : Bytes := (name.dropWhile (· ≠ fileDot)).tail

/-- A reply whose row shows a position in the columns `file` and `offset`, the column `test`
    not being NULL. -/
structure Showing (test file offset : ℕ) where
  reply : QueryReply
  row : Row
  name : Bytes
  number : Bytes
  position : Bytes
  isRow : replyRow reply = some row
  isNumber : IsNumber number
  isPosition : IsNumber position
  fileCell : row[file]? = some (some (name ++ fileDot :: number))
  offsetCell : row[offset]? = some (some position)
  testCell : ∃ text, row[test]? = some (some text)

section Showing

variable {test file offset : ℕ} (s : Showing test file offset)

/-- The position that is shown. -/
def Showing.pos : BinlogPos := (digitsValue s.number, digitsValue s.position)

/-- The position as `atoi` gives it, the number from behind the first dot of the file. -/
def Showing.asRead : BinlogPos :=
  (atoi (behindFirstDot (s.name ++ fileDot :: s.number)), atoi s.position)

end Showing

/-- The number of a file name stands behind its first dot. -/
theorem fileNumber_eq_some_iff {cell : Cell} {n : ℤ} :
    fileNumber cell = some n ↔
      ∃ front rest, cell = some (front ++ fileDot :: rest) ∧ fileDot ∉ front ∧ n = atoi rest := by
  cases cell with
  | none =>
    refine iff_of_false nofun ?_
    rintro ⟨front, rest, h, -⟩
    cases h
  | some name =>
    show ((strchr name fileDot).bind fun suffix => some (atoi suffix.tail)) = some n ↔ _
    rw [Option.bind_eq_some_iff]
    constructor
    · rintro ⟨suffix, hsuffix, hn⟩
      obtain ⟨front, rest, rfl, hfront, rfl⟩ := strchr_eq_some_iff.mp hsuffix
      exact ⟨front, rest, rfl, hfront, (Option.some.inj hn).symm⟩
    · rintro ⟨front, rest, h, hfront, rfl⟩
      cases h
      exact ⟨fileDot :: rest, strchr_append_cons hfront rest, rfl⟩

/-- There is no number without a dot. -/
theorem fileNumber_eq_none_iff {cell : Cell} :
    fileNumber cell = none ↔ ∀ name, cell = some name → fileDot ∉ name := by
  constructor
  · rintro h name rfl hdot
    obtain ⟨front, rest, rfl, hfront⟩ := List.eq_append_cons_of_mem hdot
    have hsome := fileNumber_eq_some_iff.mpr ⟨front, rest, rfl, hfront, rfl⟩
    rw [h] at hsome
    cases hsome
  · intro h
    rw [Option.eq_none_iff_forall_ne_some]
    intro n hn
    obtain ⟨front, rest, rfl, -, -⟩ := fileNumber_eq_some_iff.mp hn
    exact h _ rfl (by simp)

/-- What the three cells decide. -/
theorem readPosition_eq (test file offset : ℕ) (row : Row) :
    readPosition test file offset row =
      match row[test]? with
      | none => .fault
      | some none => .skipped
      | some (some _) =>
        match row[offset]? with
        | none => .fault
        | some none => .skipped
        | some (some digits) =>
          match fileNumber row[file]?.join with
          | some n => .shown (n, atoi digits)
          | none => .fault := by
  unfold readPosition
  cases row[test]? with
  | none => cases row[offset]? <;> rfl
  | some cell =>
    cases cell with
    | none => cases row[offset]? <;> rfl
    | some text =>
      cases row[offset]? with
      | none => rfl
      | some pos => cases pos <;> rfl

theorem readPosition_eq_shown_iff {test file offset : ℕ} {row : Row} {pos : BinlogPos} :
    readPosition test file offset row = .shown pos ↔
      ∃ text digits front rest, row[test]? = some (some text) ∧
        row[offset]? = some (some digits) ∧ row[file]? = some (some (front ++ fileDot :: rest)) ∧
        fileDot ∉ front ∧ pos = (atoi rest, atoi digits) := by
  constructor
  · intro h
    rw [readPosition_eq] at h
    split at h
    · cases h
    · cases h
    · rename_i text htext
      split at h
      · cases h
      · cases h
      · rename_i digits hdigits
        split at h
        · rename_i n hn
          cases h
          obtain ⟨front, rest, hname, hfront, rfl⟩ := fileNumber_eq_some_iff.mp hn
          exact ⟨text, digits, front, rest, htext, hdigits, Option.join_eq_some_iff.mp hname,
            hfront, rfl⟩
        · cases h
  · rintro ⟨text, digits, front, rest, htext, hdigits, hname, hfront, rfl⟩
    have hn : fileNumber row[file]?.join = some (atoi rest) :=
      fileNumber_eq_some_iff.mpr ⟨front, rest, Option.join_eq_some_iff.mpr hname, hfront, rfl⟩
    rw [readPosition_eq, htext, hdigits, hn]

theorem behindFirstDot_append {front : Bytes} (hfront : fileDot ∉ front) (rest : Bytes) :
    behindFirstDot (front ++ fileDot :: rest) = rest := by
  have hdrop : (front ++ fileDot :: rest).dropWhile (· ≠ fileDot) = fileDot :: rest := by
    rw [List.dropWhile_append_of_pos]
    · simp
    · intro c hc
      have hne : c ≠ fileDot := fun heq => hfront (heq ▸ hc)
      simpa using hne
  rw [behindFirstDot, hdrop, List.tail_cons]

/-- A reply with a row is read through that row. -/
theorem readReply_of_row (readRow : Row → Reading) {reply : QueryReply} {row : Row}
    (h : replyRow reply = some row) : readReply readRow reply = readRow row := by
  cases reply with
  | failed => cases h
  | noResult => cases h
  | result res =>
    have hrow : res.firstRow = some row := h
    simp only [readReply, hrow]

/-- The code reads from a reply that shows a position what `asRead` says. -/
theorem readReply_showing {test file offset : ℕ} (s : Showing test file offset) :
    readReply (readPosition test file offset) s.reply = .shown s.asRead := by
  obtain ⟨text, htext⟩ := s.testCell
  obtain ⟨front, rest, hname, hfront⟩ :=
    List.eq_append_cons_of_mem (show fileDot ∈ s.name ++ fileDot :: s.number by simp)
  have hcell := s.fileCell
  rw [hname] at hcell
  rw [readReply_of_row _ s.isRow, Showing.asRead, hname, behindFirstDot_append hfront]
  exact readPosition_eq_shown_iff.mpr
    ⟨text, s.position, front, rest, htext, s.offsetCell, hcell, hfront, rfl⟩

/-! ### What the wait is for -/

/-- The reply shows that everything up to the target has been executed: the file of
    `Relay_Master_Log_File` (column 9) with `Exec_Master_Log_Pos` (column 21), the position
    of the SQL thread, is at or past it. -/
def Executed (target : BinlogPos) (reply : QueryReply) : Prop :=
  ∃ row number position, replyRow reply = some row ∧ ShowsAt 9 21 row number position ∧
    toLex target ≤ toLex ((digitsValue number, digitsValue position) : BinlogPos)

/-- Reaching the target in both components is more than reaching it in order. -/
theorem lex_of_components {target pos : BinlogPos} (h : target.1 ≤ pos.1 ∧ target.2 ≤ pos.2) :
    toLex target ≤ toLex pos := by
  rw [Prod.Lex.toLex_le_toLex]
  omega

/-- `reply` is the one that ends the wait, after `taken`. -/
def WaitEndedBy (target : BinlogPos) (taken : List QueryReply) (reply : QueryReply) : Prop :=
  NeverStops (EndsLoop target) taken ∧ Satisfies target taken reply

theorem endOf_of_satisfies {target : BinlogPos} {taken : List QueryReply} {reply : QueryReply}
    (h : Satisfies target taken reply) : endOf taken reply = .reached := by
  unfold Satisfies at h
  unfold endOf
  split at h <;> simp_all

/-- Only a failed query reads as failed. -/
theorem readSlaveStatus_eq_failed {reply : QueryReply} (h : readSlaveStatus reply = .failed) :
    reply = .failed := by
  cases reply with
  | failed => rfl
  | noResult => cases h
  | result res =>
    simp only [readSlaveStatus, readReply] at h
    split at h
    · unfold readPosition at h
      split at h <;> try split at h
      all_goals cases h
    · cases h

/-- When no query fails, a wait comes back by reaching the target. -/
theorem wait_reached_iff {target : BinlogPos} {replies rest : List QueryReply} :
    waitUntilPos target replies = .ended .reached rest ↔
      ∃ taken reply, replies = taken ++ reply :: rest ∧ WaitEndedBy target taken reply := by
  rw [wait_until_pos_ends_iff]
  constructor
  · rintro ⟨taken, reply, hsplit, hnever, hends, hend⟩
    refine ⟨taken, reply, hsplit, hnever, ?_⟩
    rcases hends with hsat | hfailed | hfault
    · exact hsat
    · simp [endOf, hfailed] at hend
    · simp [endOf, hfault] at hend
  · rintro ⟨taken, reply, hsplit, hnever, hsat⟩
    exact ⟨taken, reply, hsplit, hnever, .inl hsat, (endOf_of_satisfies hsat).symm⟩

theorem wait_not_queryFailed {target : BinlogPos} {replies rest : List QueryReply}
    (hq : ∀ r ∈ replies, r ≠ .failed) : waitUntilPos target replies ≠ .ended .queryFailed rest := by
  rw [Ne, wait_until_pos_ends_iff]
  rintro ⟨taken, reply, rfl, -, -, hend⟩
  have hfailed : readSlaveStatus reply = .failed := by
    unfold endOf at hend
    split at hend <;> simp_all
  exact hq reply (by simp) (readSlaveStatus_eq_failed hfailed)

/-! ### Progress of `wait_until_pos` -/

/-- The position reaches the target in both components. -/
def Reaches (target pos : BinlogPos) : Prop := target.1 ≤ pos.1 ∧ target.2 ≤ pos.2

/-- The loop, polling a slave for ever, stops at the first reply whose position is at or past
    the target in the lexicographic order, and only there. -/
def StopsAtFirstReached (target : BinlogPos) (replies : ℕ → Showing 6 5 21) : Prop :=
  ∀ n, StopsAt (waitBody target) (0, 0) (fun k => (replies k).reply) n .reached ↔
    IsLeast {k | toLex target ≤ toLex (replies k).pos} n

/-- On replies that all show a position, the loop stops at the first one that is read as
    reaching the target in both components. -/
theorem stopsAt_iff_reaches (target : BinlogPos) (replies : ℕ → Showing 6 5 21) (n : ℕ) :
    StopsAt (waitBody target) (0, 0) (fun k => (replies k).reply) n .reached ↔
      IsLeast {k | Reaches target (replies k).asRead} n := by
  have hread : ∀ k, readSlaveStatus (replies k).reply = .shown (replies k).asRead :=
    fun k => readReply_showing (replies k)
  have hends : ∀ (taken : List QueryReply) (k : ℕ), EndsLoop target taken (replies k).reply ↔
      Reaches target (replies k).asRead := by
    intro taken k
    simp [EndsLoop, Satisfies, Reaches, hread]
  have hres : ∀ taken : List QueryReply, endOf taken (replies n).reply = .reached := by
    intro taken
    simp [endOf, hread]
  rw [stopsAt_iff_first (.inl ⟨rfl, rfl⟩) (waitBody_decided target)]
  simp only [hends, hres, and_true]
  constructor
  · rintro ⟨hbefore, hreach⟩
    exact ⟨hreach, fun k hk => not_lt.mp fun hlt => hbefore k hlt hk⟩
  · rintro ⟨hreach, hfirst⟩
    exact ⟨fun k hk hk' => absurd (hfirst hk') (not_le.mpr hk), hreach⟩

/-- A reply to `SHOW SLAVE STATUS` with the four columns that matter filled in. -/
def slaveStatus (masterLogFile readMasterLogPos relayMasterLogFile execMasterLogPos : String) :
    QueryReply :=
  .result {
    fields := List.replicate 40 []
    rows := [((((List.replicate 40 (some [])).set 5 (some (ascii masterLogFile))).set 6
      (some (ascii readMasterLogPos))).set 9 (some (ascii relayMasterLogFile))).set 21
      (some (ascii execMasterLogPos))]
    width := by simp }

/-- A slave that has gone on to offset 100 of file 3. -/
def pastTarget : Showing 6 5 21 where
  reply := slaveStatus "mar-bin.000003" "100" "mar-bin.000003" "100"
  row := (((((List.replicate 40 (some [])).set 5 (some (ascii "mar-bin.000003"))).set 6
      (some (ascii "100"))).set 9 (some (ascii "mar-bin.000003"))).set 21 (some (ascii "100")))
  name := ascii "mar-bin"
  number := ascii "000003"
  position := ascii "100"
  isRow := rfl
  isNumber := ⟨List.cons_ne_nil _ _, List.all_eq_true.mp rfl⟩
  isPosition := ⟨List.cons_ne_nil _ _, List.all_eq_true.mp rfl⟩
  fileCell := rfl
  offsetCell := rfl
  testCell := ⟨ascii "100", rfl⟩

/-- Positions that never go back. -/
def NonDecreasing (positions : ℕ → BinlogPos) : Prop :=
  ∀ i j, i ≤ j → toLex (positions i) ≤ toLex (positions j)

end MaxScaleSystemTest.Nodes
