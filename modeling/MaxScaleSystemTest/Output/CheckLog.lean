import Mathlib.Data.List.Induction
import MaxScaleSystemTest.Lib.Buffer
import MaxScaleSystemTest.Verdict

namespace MaxScaleSystemTest.Output

open CString

/-!
# The check of MaxScale's log

`check_log_err` looks for a message in `maxscale.log`, or in `maxscale1.log` where the first one
cannot be read or is almost empty.  `read_log` makes a string of a file, whatever bytes are in it.

* `replaceZeros_eq` — its loop over the bytes;
* `readLog_eq` — the string that it makes;
* `infix_map_iff` — a message in one line is in the string if it is in the file;
* `check_log_err_records` — when `check_log_err` records a failure.
-/

/-! ### The functions -/

/-- A file that `fopen` may not find. -/
abbrev File := Option Bytes

/-- One turn of the loop in `read_log`. -/
def replaceZero (block : Bytes) (i : ℕ) : Bytes :=
  if block[i]? = some 0 then block.set i nl else block

/-- The loop. -/
def replaceZeros (block : Bytes) (size : ℕ) : Bytes := (List.range size).foldl replaceZero block

/-- `read_log`: the value that it returns and the string, without one for NULL; `none` when the
    `int` of the loop overflows. -/
def readLog (malloc : (n : ℕ) → Option (Buffer n)) : File → Option (ℤ × Option Bytes)
  | none => some (1, none)
  | some content =>
    match malloc (content.length + 2) with
    | none => some (1, none)
    | some block =>
      if content.length < 2 ^ 31 then
        let block := (block.fill content (Nat.le_add_right _ 2)).bytes
        let block := replaceZeros block content.length
        some (0, some (cut (block.set content.length 0)))
      else none

section

variable (elapsedTime : Bytes → Bytes) (errMsg : Bytes) (expected : Bool)

/-- The last part of `check_log_err`. -/
def checkContent (content : Option Bytes) (t : TestConnections) : TestConnections :=
  match content with
  | none => t
  | some text =>
    if expected then
      if (strstr text errMsg).isNone then
        report elapsedTime t 1 (ascii "There is NO \"%s\" error in the log\n")
          (ascii "There is NO \"" ++ errMsg ++ ascii "\" error in the log\n")
      else t
    else
      if (strstr text errMsg).isSome then
        report elapsedTime t 1 (ascii "There is UNEXPECTED error \"%s\" error in the log\n")
          (ascii "There is UNEXPECTED error \"" ++ errMsg ++ ascii "\" error in the log\n")
      else t

/-- `check_log_err` with the second file. -/
def checkSecondLog (malloc1 : (n : ℕ) → Option (Buffer n)) (maxscale1Log : File)
    (t : TestConnections) : Option TestConnections :=
  match readLog malloc1 maxscale1Log with
  | none => none
  | some (rc, content) =>
    let t :=
      if rc ≠ 0 then
        report elapsedTime t 1 (ascii "Error reading log\n") (ascii "Error reading log\n")
      else t
    some (checkContent elapsedTime errMsg expected content t)

/-- `TestConnections::check_log_err`, on the files that `get_logs_command` has left. -/
def checkLogErr (malloc malloc1 : (n : ℕ) → Option (Buffer n)) (maxscaleLog maxscale1Log : File)
    (t : TestConnections) : Option TestConnections :=
  match readLog malloc maxscaleLog with
  | none => none
  | some (rc, content) =>
    -- the length is taken only of a string that has been read
    if rc ≠ 0 ∨ (content.getD []).length < 2 then
      checkSecondLog elapsedTime errMsg expected malloc1 maxscale1Log t
    else some (checkContent elapsedTime errMsg expected content t)

end

/-! ### The string -/

/-- A byte as it is in the string. -/
def newlineForZero (c : UInt8) : UInt8 := if c = 0 then nl else c

theorem newlineForZero_ne (c : UInt8) : newlineForZero c ≠ 0 := by
  unfold newlineForZero
  split
  · decide
  · assumption

/-- **The loop.** -/
theorem replaceZeros_eq (front rest : Bytes) :
    replaceZeros (front ++ rest) front.length = front.map newlineForZero ++ rest := by
  induction front using List.reverseRecOn generalizing rest with
  | nil => rfl
  | append_singleton front c ih =>
    have hfront : replaceZeros (front ++ c :: rest) front.length =
        front.map newlineForZero ++ c :: rest := ih (c :: rest)
    have hlength : (front.map newlineForZero).length = front.length := List.length_map _
    have hget : (front.map newlineForZero ++ c :: rest)[front.length]? = some c := by
      rw [List.getElem?_append_right (Nat.le_of_eq hlength), hlength, Nat.sub_self]
      rfl
    rw [List.append_assoc, List.length_append, List.length_singleton, replaceZeros,
      List.range_succ, List.foldl_append]
    show replaceZero (replaceZeros (front ++ c :: rest) front.length) front.length = _
    rw [hfront, replaceZero, hget, List.map_append, List.append_assoc]
    show (if some c = some 0 then _ else _) = _ ++ newlineForZero c :: rest
    by_cases hc : c = 0
    · have hnew : newlineForZero c = nl := if_pos hc
      rw [if_pos (congrArg some hc), hnew, List.set_append_right _ _ (Nat.le_of_eq hlength),
        hlength, Nat.sub_self]
      rfl
    · have hsame : newlineForZero c = c := if_neg hc
      rw [if_neg fun h => hc (Option.some.inj h), hsame]

section

variable {malloc malloc1 : (n : ℕ) → Option (Buffer n)}

/-- A file that is read: it exists, and there is memory for it. -/
def readable (malloc : (n : ℕ) → Option (Buffer n)) : File → Option Bytes
  | none => none
  | some content => if (malloc (content.length + 2)).isSome then some content else none

/-- **The string.** -/
theorem readLog_eq {file : File} (hsize : ∀ content ∈ file, content.length < 2 ^ 31) :
    readLog malloc file = match readable malloc file with
      | none => some (1, none)
      | some content => some (0, some (content.map newlineForZero)) := by
  cases file with
  | none => rfl
  | some content =>
    unfold readLog readable
    cases hmalloc : malloc (content.length + 2) with
    | none => simp [hmalloc]
    | some block =>
      have hlength : (content.map newlineForZero).length = content.length := List.length_map _
      have hzero : 0 ∉ content.map newlineForZero := by
        rintro hmem
        obtain ⟨c, -, hc⟩ := List.mem_map.mp hmem
        exact newlineForZero_ne c hc
      have hdrop : block.bytes.drop content.length ≠ [] := by
        rw [← List.length_pos_iff, List.length_drop, block.length_eq]
        omega
      obtain ⟨d, rest, hrest⟩ := List.exists_cons_of_ne_nil hdrop
      simp only [hmalloc, Option.isSome_some, if_true, if_pos (hsize content rfl)]
      show some (0, some (cut ((replaceZeros (content ++ block.bytes.drop content.length)
        content.length).set content.length 0))) = _
      rw [replaceZeros_eq, List.set_append_right _ _ (Nat.le_of_eq hlength), hlength, Nat.sub_self,
        hrest, List.set_cons_zero, cut_append_zero, cut_of_not_mem hzero]

/-- Bytes that are no newline in the string are as they are in the file. -/
theorem map_eq_self {m : Bytes} (h : nl ∉ m.map newlineForZero) : m.map newlineForZero = m := by
  induction m with
  | nil => rfl
  | cons c m ih =>
    rw [List.map_cons, List.mem_cons, not_or] at h
    have hc : c ≠ 0 := by
      rintro rfl
      exact h.1 rfl
    have hsame : newlineForZero c = c := if_neg hc
    rw [List.map_cons, hsame, ih h.2]

/-- A message in one line is in the string if it is in the file. -/
theorem infix_map_iff {errMsg content : Bytes} (hzero : 0 ∉ errMsg) (hline : nl ∉ errMsg) :
    errMsg <:+: content.map newlineForZero ↔ errMsg <:+: content := by
  constructor
  · rintro ⟨before, after, hsplit⟩
    rw [List.append_assoc] at hsplit
    obtain ⟨before', rest, rfl, -, hrest⟩ := List.map_eq_append_iff.mp hsplit.symm
    obtain ⟨errMsg', after', rfl, herrMsg, -⟩ := List.map_eq_append_iff.mp hrest
    have hsame : errMsg' = errMsg := by
      rw [← herrMsg]
      exact (map_eq_self (by rw [herrMsg]; exact hline)).symm
    exact ⟨before', after', by rw [hsame, List.append_assoc]⟩
  · rintro ⟨before, after, rfl⟩
    have hsame : errMsg.map newlineForZero = errMsg := by
      have hall : ∀ c ∈ errMsg, newlineForZero c = c := by
        intro c hc
        refine if_neg ?_
        rintro rfl
        exact hzero hc
      exact (List.map_congr_left hall).trans (List.map_id errMsg)
    refine ⟨before.map newlineForZero, after.map newlineForZero, ?_⟩
    rw [List.map_append, List.map_append, hsame]

/-! ### The verdict -/

/-- The log that is looked at. -/
def checkedLog (malloc malloc1 : (n : ℕ) → Option (Buffer n)) (maxscaleLog maxscale1Log : File) :
    Option Bytes :=
  match readable malloc maxscaleLog with
  | some content => if content.length < 2 then readable malloc1 maxscale1Log else some content
  | none => readable malloc1 maxscale1Log

/-- There is a log, and the message is in it exactly if it is expected. -/
def LogAsExpected (errMsg : Bytes) (expected : Bool) (log : Option Bytes) : Prop :=
  ∃ content, log = some content ∧ (expected = true ↔ errMsg <:+: content)

/-- The last part records a failure for a message that is missing, or should not be there. -/
theorem checkContent_globalResult (elapsedTime : Bytes → Bytes) {errMsg : Bytes} {expected : Bool}
    {content : Bytes} (hzero : 0 ∉ errMsg) (hline : nl ∉ errMsg) (t : TestConnections) :
    (LogAsExpected errMsg expected (some content) →
      checkContent elapsedTime errMsg expected (some (content.map newlineForZero)) t = t) ∧
    (¬ LogAsExpected errMsg expected (some content) →
      (checkContent elapsedTime errMsg expected (some (content.map newlineForZero))
        t).globalResult = t.globalResult + 1) := by
  have hfound : (strstr (content.map newlineForZero) errMsg).isSome ↔ errMsg <:+: content := by
    rw [strstr_isSome_iff, infix_map_iff hzero hline]
  have hexpected : LogAsExpected errMsg expected (some content) ↔
      (expected = true ↔ errMsg <:+: content) := by
    simp [LogAsExpected]
  rw [hexpected, ← hfound]
  cases expected with
  | true =>
    cases hstr : strstr (content.map newlineForZero) errMsg with
    | none => simp [checkContent, hstr, report_globalResult]
    | some found => simp [checkContent, hstr]
  | false =>
    cases hstr : strstr (content.map newlineForZero) errMsg with
    | none => simp [checkContent, hstr]
    | some found => simp [checkContent, hstr, report_globalResult]

/-- What is recorded of a log: nothing, or one failure. -/
def Records (errMsg : Bytes) (expected : Bool) (log : Option Bytes) (t : TestConnections)
    (t' : Option TestConnections) : Prop :=
  ∃ after, t' = some after ∧ (LogAsExpected errMsg expected log → after = t) ∧
    (¬ LogAsExpected errMsg expected log → after.globalResult = t.globalResult + 1)

theorem checkSecondLog_records (elapsedTime : Bytes → Bytes) {errMsg : Bytes} (expected : Bool)
    (hzero : 0 ∉ errMsg) (hline : nl ∉ errMsg) {maxscale1Log : File}
    (hsize1 : ∀ content ∈ maxscale1Log, content.length < 2 ^ 31) (t : TestConnections) :
    Records errMsg expected (readable malloc1 maxscale1Log) t
      (checkSecondLog elapsedTime errMsg expected malloc1 maxscale1Log t) := by
  unfold checkSecondLog
  rw [readLog_eq hsize1]
  cases readable malloc1 maxscale1Log with
  | none =>
    refine ⟨_, rfl, ?_, fun _ => ?_⟩
    · rintro ⟨content, hnone, -⟩
      cases hnone
    · show (report elapsedTime t 1 _ _).globalResult = _
      exact report_globalResult _ _ _ _ _
  | some content => exact ⟨_, rfl, checkContent_globalResult elapsedTime hzero hline t⟩

end

/-- **The check of the log.** For a message in one line and files that an `int` can count,
    `check_log_err` records no failure when a log can be read and the message is in it exactly if
    it is expected, whatever bytes are in the log, and one failure otherwise. -/
theorem check_log_err_records (elapsedTime : Bytes → Bytes) {errMsg : Bytes} (expected : Bool)
    (hzero : 0 ∉ errMsg) (hline : nl ∉ errMsg)
    (malloc malloc1 : (n : ℕ) → Option (Buffer n)) {maxscaleLog maxscale1Log : File}
    (hsize : ∀ content ∈ maxscaleLog, content.length < 2 ^ 31)
    (hsize1 : ∀ content ∈ maxscale1Log, content.length < 2 ^ 31) (t : TestConnections) :
    Records errMsg expected (checkedLog malloc malloc1 maxscaleLog maxscale1Log) t
      (checkLogErr elapsedTime errMsg expected malloc malloc1 maxscaleLog maxscale1Log t) := by
  have hsecond : Records errMsg expected (readable malloc1 maxscale1Log) t
      (checkSecondLog elapsedTime errMsg expected malloc1 maxscale1Log t) :=
    checkSecondLog_records elapsedTime expected hzero hline hsize1 t
  unfold checkLogErr checkedLog
  rw [readLog_eq hsize]
  cases readable malloc maxscaleLog with
  | none => exact hsecond
  | some content =>
    show Records errMsg expected _ t
      (if (0 : ℤ) ≠ 0 ∨ (content.map newlineForZero).length < 2 then _ else _)
    rw [List.length_map]
    show Records errMsg expected (if content.length < 2 then _ else _) t _
    by_cases hshort : content.length < 2
    · rw [if_pos hshort, if_pos (Or.inr hshort)]
      exact hsecond
    · rw [if_neg hshort, if_neg (by simp [hshort])]
      exact ⟨_, rfl, checkContent_globalResult elapsedTime hzero hline t⟩

/-- The message of a signal, in a log with a zero byte in it. -/
theorem check_log_err_records_signal :
    Records (ascii "fatal signal 11") true (some (0 :: ascii "fatal signal 11")) ⟨0, []⟩
      (checkLogErr (fun _ => ascii "0.5") (ascii "fatal signal 11") true
        (fun n => some (.zero n)) (fun n => some (.zero n))
        (some (0 :: ascii "fatal signal 11")) none ⟨0, []⟩) :=
  check_log_err_records (fun _ => ascii "0.5") true (by decide) (by decide)
    (fun n => some (.zero n)) (fun n => some (.zero n)) (by decide) (by decide) ⟨0, []⟩

end MaxScaleSystemTest.Output
