import MaxScaleSystemTest.Lib.Decimal
import MaxScaleSystemTest.Lib.Fgets
import MaxScaleSystemTest.Lib.Scan
import MaxScaleSystemTest.Sql.Query
import Mathlib.Data.List.DropRight

namespace MaxScaleSystemTest.Sql

open CString

/-!
# Queries taken from a file, a line a call

`execute_query_from_file` reads a line into a buffer, erases the white space at its end in
place, and looks for something to submit behind the white space at its start.

* `executeQueryFromFile_blank` — a blank line sends the erasing loop out of the buffer;
* `executeQueryFromFile_text` — of any other the text is submitted with its leading white space;
* `readAll_spec` — the calls until the end of the file;
* `submitsLines_iff` — they submit the trimmed lines exactly when every line fits the buffer
  and starts with something to submit.
-/

/-- An open file: what is left to be read, whether its end was met, and, if reading fails
    there, `errno` with its text. -/
structure InputFile where
  rest : Bytes
  eof : Bool
  failure : Option (ℤ × Bytes)

/-- `fgets(buf, 4096, file)`: what is read, `none` for a null pointer. -/
def InputFile.fgets (file : InputFile) : Option Bytes × InputFile :=
  let r := Fgets.read nl 4095 file.rest
  if r.atEnd then
    match file.failure with
    | some _ => (none, { file with rest := r.rest })
    | none =>
      (if r.text = [] then none else some r.text, { file with rest := r.rest, eof := true })
  else (some r.text, { file with rest := r.rest })

/-- The 4096 bytes of `buf`, as they happen to be when the function starts. -/
structure LineBuffer where
  cells : Bytes
  size : cells.length = 4096

/-- The buffer with a text and the byte that ends it written to its start. -/
def LineBuffer.write (buf : LineBuffer) (text : Bytes) : Bytes :=
  text ++ 0 :: buf.cells.drop (text.length + 1)

/-- One call: what it returned, the connection afterwards, what it printed, and the text it
    passed to `execute_query1`. -/
structure FileCall where
  rc : ℤ
  conn : Option Mysql
  stdout : Bytes
  submitted : Option Bytes

/-- The text a line gives once white space has been erased, `some none` if there is none; `none`
    stands for an access outside the buffer. -/
def lineText (buf : Bytes) : Option (Option Bytes) := do
  let nul ← Scan.forward (· = 0) buf 0
  -- `strchr(buf, '\0') - 1` points before the buffer if it holds the empty string
  let last ← if nul = 0 then none else some (nul - 1)
  let buf ← Scan.eraseBack isspace 0 buf last
  let ptr ← Scan.forward (fun c => !isspace c) buf 0
  let c ← buf[ptr]?
  -- what is found at `ptr` decides, but `buf` is submitted
  return if c ≠ 0 then some (cut buf) else none

/-- `execute_query_from_file`. -/
def executeQueryFromFile (buf : LineBuffer) (conn : Option Mysql) (file : InputFile) :
    Option (FileCall × InputFile) :=
  match file.fgets with
  | (some text, file) =>
    (lineText (buf.write text)).map fun
      | some sql =>
        let query := executeQuery1 conn sql false
        (⟨query.status, query.conn, query.stdout, some sql⟩, file)
      | none => (⟨-1, conn, [], none⟩, file)
  | (none, file) =>
    match file.eof, file.failure with
    | false, some (errno, text) =>
      let message := ascii "Failed to read file: " ++ Decimal.ofInt errno ++ ascii ", " ++ text
      some (⟨1, conn, message, none⟩, file)
    | _, _ => some (⟨-1, conn, [], none⟩, file)

/-- `while (!feof(file)) execute_query_from_file(conn, file);`, the buffer of each call being
    what the stack held. -/
def readAll (stack : ℕ → LineBuffer) : (fuel : ℕ) → (conn : Option Mysql) → InputFile →
    Option (List FileCall)
  | 0, _, _ => none
  | fuel + 1, conn, file =>
    if file.eof then some []
    else do
      let (call, file) ← executeQueryFromFile (stack fuel) conn file
      let calls ← readAll stack fuel call.conn file
      return call :: calls

/-- A file that has just been opened, and whose end can be reached. -/
def openFile (content : Bytes) : InputFile := ⟨content, false, none⟩

/-! ### One line -/

/-- There is nothing but white space. -/
def Blank (line : Bytes) : Prop := ∀ c ∈ line, isspace c = true

/-- A line without the white space at its end. -/
def trimEnd (line : Bytes) : Bytes := line.rdropWhile isspace

/-- What is not blank has a last byte that is no white space. -/
theorem exists_trimEnd {line : Bytes} (h : ¬ Blank line) : ∃ front c spaces,
    line = front ++ c :: spaces ∧ isspace c = false ∧ Blank spaces ∧
      trimEnd line = front ++ [c] := by
  have hne : trimEnd line ≠ [] := fun hnil => h (List.rdropWhile_eq_nil_iff.mp hnil)
  have hsplit : trimEnd line ++ line.rtakeWhile isspace = line := List.rdropWhile_append_rtakeWhile
  have hlast : ¬ isspace ((trimEnd line).getLast hne) := List.rdropWhile_last_not isspace line hne
  have hfront := List.dropLast_append_getLast hne
  refine ⟨(trimEnd line).dropLast, (trimEnd line).getLast hne, line.rtakeWhile isspace, ?_,
    by simpa using hlast, fun d hd => List.mem_rtakeWhile_imp hd, hfront.symm⟩
  rw [List.append_cons, hfront, hsplit]

/-- `strchr(buf, '\0')` finds the end of what has been read. -/
theorem forward_nul {text : Bytes} (hnul : 0 ∉ text) (tail : Bytes) :
    Scan.forward (fun c => decide (c = 0)) (text ++ 0 :: tail) 0 = some text.length := by
  have hfound : Scan.forward (fun c => decide (c = 0)) (text ++ 0 :: tail) 0
      = some (0 + text.length) := by
    apply Scan.forward_of_split (c := 0) rfl
    · intro d hd
      exact decide_eq_false fun hzero => hnul (hzero ▸ hd)
    · rfl
  rw [hfound, Nat.zero_add]

/-- **A text.** What has been read is submitted without the white space at its end. -/
theorem lineText_of_not_blank {text : Bytes} (hnul : 0 ∉ text) (h : ¬ Blank text) (tail : Bytes) :
    lineText (text ++ 0 :: tail) = some (some (trimEnd text)) := by
  obtain ⟨front, c, spaces, rfl, hc, hspaces, htrim⟩ := exists_trimEnd h
  have hlength : (front ++ c :: spaces).length = front.length + spaces.length + 1 := by
    rw [List.length_append, List.length_cons, Nat.add_assoc]
  -- the buffer once the white space at the end is erased: NULs follow the text
  obtain ⟨zeros, hzeros⟩ : ∃ zeros, List.replicate spaces.length 0 ++ 0 :: tail
      = (0 : UInt8) :: zeros := by
    cases spaces with
    | nil => exact ⟨tail, rfl⟩
    | cons d spaces => exact ⟨_, rfl⟩
  have herase : Scan.eraseBack isspace 0 (front ++ c :: spaces ++ 0 :: tail)
      (front.length + spaces.length) = some (front ++ [c] ++ 0 :: zeros) := by
    rw [← hzeros, List.append_assoc, List.append_assoc]
    exact Scan.eraseBack_of_split front hc spaces (0 :: tail) hspaces
  have hbody : 0 ∉ front ++ [c] := fun hmem => hnul (by
    rw [List.append_cons]
    exact List.mem_append_left _ hmem)
  -- something is found behind the white space at the start
  obtain ⟨lead, rest, hlead, hblank, hrest⟩ := Scan.exists_span isspace (front ++ [c])
  cases rest with
  | nil =>
    have hmem : c ∈ lead := by
      rw [List.append_nil] at hlead
      exact hlead ▸ List.mem_append_right front List.mem_cons_self
    rw [hblank c hmem] at hc
    cases hc
  | cons d rest =>
    have hd : d ≠ 0 := fun hzero => hbody (hlead ▸ by simp [hzero])
    have hfind : Scan.forward (fun c => !isspace c) (front ++ [c] ++ 0 :: zeros) 0
        = some (0 + lead.length) := by
      apply Scan.forward_of_split (c := d)
      · rw [List.drop_zero, hlead, List.append_assoc]
        rfl
      · intro e he
        rw [hblank e he]
        rfl
      · rw [hrest d rfl]
        rfl
    have hcell : (front ++ [c] ++ 0 :: zeros)[0 + lead.length]? = some d := by
      rw [hlead, Nat.zero_add]
      simp
    rw [lineText, forward_nul hnul, hlength]
    simp only [Option.bind_eq_bind, Option.bind_some, Nat.succ_ne_zero, if_false,
      Nat.add_sub_cancel, herase, hfind, hcell]
    rw [if_pos hd, cut_append_zero, cut_of_not_mem hbody, htrim]
    rfl

/-- **A blank line.** The loop that erases white space leaves the buffer. -/
theorem lineText_of_blank {text : Bytes} (hnul : 0 ∉ text) (hne : text ≠ []) (h : Blank text)
    (tail : Bytes) : lineText (text ++ 0 :: tail) = none := by
  match text with
  | c :: erased =>
    have herase : Scan.eraseBack isspace 0 (c :: erased ++ 0 :: tail) erased.length = none :=
      Scan.eraseBack_of_forall h (0 :: tail)
    rw [lineText, forward_nul hnul, List.length_cons]
    simp only [Option.bind_eq_bind, Option.bind_some, Nat.succ_ne_zero, if_false,
      Nat.add_sub_cancel, herase, Option.bind_none]

/-! ### One call -/

/-- A connection stays one, and `-1` is not among the results. -/
theorem executeQuery1_some (conn : Mysql) (sql : Bytes) (silent : Bool) :
    (executeQuery1 (some conn) sql silent).status ≠ -1 ∧
      ∃ conn', (executeQuery1 (some conn) sql silent).conn = some conn' := by
  obtain ⟨-, conn', hconn, -⟩ := executeQuery1_spec conn sql silent
  refine ⟨?_, conn', hconn⟩
  unfold executeQuery1
  split
  · simp
  · simp only
    split <;> simp

/-- The call at the end of the file submits nothing. -/
theorem executeQueryFromFile_end (buf : LineBuffer) (conn : Option Mysql) :
    executeQueryFromFile buf conn (openFile []) =
      some (⟨-1, conn, [], none⟩, ⟨[], true, none⟩) := rfl

/-- What `fgets` reads as long as there is something left. -/
theorem fgets_openFile {content : Bytes} (h : content ≠ []) :
    (openFile content).fgets = (some (Fgets.read nl 4095 content).text,
      ⟨(Fgets.read nl 4095 content).rest, (Fgets.read nl 4095 content).atEnd, none⟩) := by
  have htext := Fgets.text_ne_nil nl (n := 4095) (by decide) h
  unfold InputFile.fgets openFile
  simp only [if_neg htext]
  split
  · rename_i hend
    rw [hend]
  · rename_i hend
    rw [Bool.not_eq_true] at hend
    rw [hend]

section Calls

variable {content : Bytes} (buf : LineBuffer) (conn : Mysql)

/-- What a call reads holds no NUL if the file holds none. -/
theorem nul_not_mem_text (hnul : 0 ∉ content) : 0 ∉ (Fgets.read nl 4095 content).text := by
  intro hmem
  apply hnul
  rw [← Fgets.text_append_rest nl 4095 content]
  exact List.mem_append_left _ hmem

/-- A call that reads a blank line faults. -/
theorem executeQueryFromFile_blank (hnul : 0 ∉ content) (hne : content ≠ [])
    (h : Blank (Fgets.read nl 4095 content).text) :
    executeQueryFromFile buf (some conn) (openFile content) = none := by
  have htext := Fgets.text_ne_nil nl (n := 4095) (by decide) hne
  rw [executeQueryFromFile, fgets_openFile hne]
  simp only [LineBuffer.write, lineText_of_blank (nul_not_mem_text hnul) htext h, Option.map_none]

/-- A call that reads another line submits it without the white space at its end. -/
theorem executeQueryFromFile_text (hnul : 0 ∉ content) (hne : content ≠ [])
    (h : ¬ Blank (Fgets.read nl 4095 content).text) :
    ∃ call conn', executeQueryFromFile buf (some conn) (openFile content) = some (call,
        ⟨(Fgets.read nl 4095 content).rest, (Fgets.read nl 4095 content).atEnd, none⟩) ∧
      call.conn = some conn' ∧ call.rc ≠ -1 ∧
      call.submitted = some (trimEnd (Fgets.read nl 4095 content).text) := by
  generalize hread : Fgets.read nl 4095 content = r at h
  obtain ⟨hstatus, conn', hconn⟩ := executeQuery1_some conn (trimEnd r.text) false
  have htext : 0 ∉ r.text := hread ▸ nul_not_mem_text hnul
  refine ⟨⟨(executeQuery1 (some conn) (trimEnd r.text) false).status, some conn',
    (executeQuery1 (some conn) (trimEnd r.text) false).stdout, some (trimEnd r.text)⟩, conn', ?_,
    rfl, hstatus, rfl⟩
  rw [executeQueryFromFile, fgets_openFile hne, hread]
  simp only [LineBuffer.write, lineText_of_not_blank htext h, Option.map_some, hconn]

end Calls

/-! ### All calls -/

/-- The calls submit the texts, and return `-1` exactly when they submit nothing. -/
structure Submits (calls : List FileCall) (texts : List Bytes) : Prop where
  texts : calls.filterMap (·.submitted) = texts
  codes : ∀ call ∈ calls, call.rc = -1 ↔ call.submitted = none

/-- A call that submits a text, before others. -/
theorem Submits.cons {call : FileCall} {calls : List FileCall} {text : Bytes} {texts : List Bytes}
    (hsubmitted : call.submitted = some text) (hrc : call.rc ≠ -1) (h : Submits calls texts) :
    Submits (call :: calls) (text :: texts) where
  texts := by rw [List.filterMap_cons_some hsubmitted, h.texts]
  codes := List.forall_mem_cons.mpr ⟨iff_of_false hrc (by simp [hsubmitted]), h.codes⟩

/-- What follows a call. -/
theorem readAll_of_call {stack : ℕ → LineBuffer} {fuel : ℕ} {conn : Mysql} {content : Bytes}
    {call : FileCall} {file : InputFile}
    (h : executeQueryFromFile (stack fuel) (some conn) (openFile content) = some (call, file)) :
    readAll stack (fuel + 1) (some conn) (openFile content)
      = (readAll stack fuel call.conn file).map (call :: ·) := by
  rw [readAll, if_neg (by simp [openFile]), h]
  show (readAll stack fuel call.conn file).bind (fun calls => some (call :: calls)) = _
  rw [Option.map_eq_bind]
  rfl

/-- A file whose end was met is not read any further. -/
theorem readAll_of_eof (stack : ℕ → LineBuffer) (fuel : ℕ) (conn : Option Mysql)
    {file : InputFile} (h : file.eof = true) : readAll stack (fuel + 1) conn file = some [] := by
  rw [readAll, if_pos h]

/-- Of an empty file one call finds the end. -/
theorem readAll_nil (stack : ℕ → LineBuffer) (fuel : ℕ) (conn : Mysql) :
    ∃ calls, readAll stack (fuel + 2) (some conn) (openFile []) = some calls ∧
      Submits calls [] := by
  refine ⟨[⟨-1, some conn, [], none⟩], ?_, rfl, by simp⟩
  rw [readAll_of_call (executeQueryFromFile_end _ _), readAll_of_eof _ _ _ rfl]
  rfl

/-- **All calls.** They fault when a piece of the file is blank, and submit else every piece
    without the white space at its end. -/
theorem readAll_spec (stack : ℕ → LineBuffer) {content : Bytes} (hnul : 0 ∉ content) {n fuel : ℕ}
    (hn : content.length ≤ n) (hfuel : content.length ≤ fuel) (conn : Mysql) :
    ((∃ piece ∈ Fgets.pieces nl 4095 n content, Blank piece) →
      readAll stack (fuel + 2) (some conn) (openFile content) = none) ∧
    ((∀ piece ∈ Fgets.pieces nl 4095 n content, ¬ Blank piece) →
      ∃ calls, readAll stack (fuel + 2) (some conn) (openFile content) = some calls ∧
        Submits calls ((Fgets.pieces nl 4095 n content).map trimEnd)) := by
  induction n generalizing content fuel conn with
  | zero =>
    rw [List.eq_nil_of_length_eq_zero (Nat.le_zero.mp hn)]
    exact ⟨by simp [Fgets.pieces], fun _ => readAll_nil stack fuel conn⟩
  | succ n ih =>
    by_cases hne : content = []
    · subst hne
      exact ⟨by simp [Fgets.pieces], fun _ => readAll_nil stack fuel conn⟩
    have hless := Fgets.length_rest_lt nl (n := 4095) (by decide) hne
    have hsplit := Fgets.text_append_rest nl 4095 content
    obtain ⟨fuel, rfl⟩ := Nat.exists_eq_add_one_of_ne_zero (n := fuel) (by omega)
    rw [Fgets.pieces_of_ne_nil n hne, List.forall_mem_cons, List.map_cons]
    have hblank := executeQueryFromFile_blank (stack (fuel + 2)) conn hnul hne
    have htext := executeQueryFromFile_text (stack (fuel + 2)) conn hnul hne
    have hend : (Fgets.read nl 4095 content).atEnd = true →
      (Fgets.read nl 4095 content).rest = [] := Fgets.rest_of_atEnd
    generalize Fgets.read nl 4095 content = r at *
    by_cases hfirst : Blank r.text
    · refine ⟨fun _ => ?_, fun h => absurd hfirst h.1⟩
      rw [readAll, if_neg (by simp [openFile]), hblank hfirst]
      rfl
    obtain ⟨call, conn', hcall, hconn, hrc, hsubmitted⟩ := htext hfirst
    have hnulRest : 0 ∉ r.rest := fun hmem => hnul (hsplit ▸ List.mem_append_right _ hmem)
    have hrest : ((∃ piece ∈ Fgets.pieces nl 4095 n r.rest, Blank piece) →
        readAll stack (fuel + 2) (some conn') ⟨r.rest, r.atEnd, none⟩ = none) ∧
      ((∀ piece ∈ Fgets.pieces nl 4095 n r.rest, ¬ Blank piece) →
        ∃ calls, readAll stack (fuel + 2) (some conn') ⟨r.rest, r.atEnd, none⟩ = some calls ∧
          Submits calls ((Fgets.pieces nl 4095 n r.rest).map trimEnd)) := by
      cases hatEnd : r.atEnd with
      | false => exact ih hnulRest (by omega) (by omega) conn'
      | true =>
        rw [hend hatEnd, Fgets.pieces_nil]
        exact ⟨by simp, fun _ => ⟨[], readAll_of_eof stack _ _ rfl, rfl, by simp⟩⟩
    rw [readAll_of_call hcall, hconn]
    refine ⟨?_, fun hpieces => ?_⟩
    · rintro ⟨piece, hpiece, hblank⟩
      rcases List.mem_cons.mp hpiece with rfl | hpiece
      · exact absurd hblank hfirst
      · rw [hrest.1 ⟨piece, hpiece, hblank⟩]
        rfl
    · obtain ⟨calls, hcalls, hsubmits⟩ := hrest.2 hpieces.2
      exact ⟨call :: calls, by rw [hcalls]; rfl, hsubmits.cons hsubmitted hrc⟩

/-! ### Lines -/

/-- A file without NULs. -/
structure TextFile where
  content : Bytes
  nulFree : 0 ∉ content

/-- A line without the white space on both its sides. -/
def trim (line : Bytes) : Bytes := (trimEnd line).dropWhile isspace

/-- The lines of a file that are not blank, trimmed. -/
def trimmedLines (file : TextFile) : List Bytes :=
  ((Fgets.lines nl file.content).filter fun line => !line.all isspace).map trim

/-- Called until the end of the file, `execute_query_from_file` submits every line that is not
    blank, trimmed on both sides, once and in order, returns `-1` exactly for the calls that
    submit nothing, and stays inside its buffer, whatever that holds at first. -/
def SubmitsLines (file : TextFile) : Prop :=
  ∀ (stack : ℕ → LineBuffer) (conn : Mysql) (fuel : ℕ), file.content.length + 2 ≤ fuel →
    ∃ calls, readAll stack fuel (some conn) (openFile file.content) = some calls ∧
      Submits calls (trimmedLines file)

/-- Every line fits the buffer and starts with something else than white space. -/
def WellFormed (file : TextFile) : Prop :=
  ∀ line ∈ Fgets.lines nl file.content, line.length ≤ 4095 ∧ ∀ c ∈ line.head?, isspace c = false

/-- Only white space at the start of a line makes a difference. -/
theorem trimEnd_eq_trim_iff {line : Bytes} (h : ¬ Blank line) :
    trimEnd line = trim line ↔ ∀ c ∈ line.head?, isspace c = false := by
  obtain ⟨rest, hrest⟩ := List.rdropWhile_prefix isspace (l := line)
  have hne : trimEnd line ≠ [] := fun hnil => h (List.rdropWhile_eq_nil_iff.mp hnil)
  obtain ⟨c, body, hbody⟩ := List.exists_cons_of_ne_nil hne
  have hhead : line.head? = some c := by
    rw [← hrest]
    show (trimEnd line ++ rest).head? = some c
    rw [hbody]
    rfl
  rw [trim, hbody, hhead, List.dropWhile_cons]
  cases hc : isspace c with
  | false => simp [hc]
  | true =>
    refine iff_of_false (fun heq => ?_) (by simp [hc])
    have hlength := congrArg List.length heq
    have hle := (List.dropWhile_sublist isspace (l := body)).length_le
    simp only [if_true, List.length_cons] at hlength
    omega

theorem not_blank_of_mem_lines {content line : Bytes} (hmem : line ∈ Fgets.lines nl content)
    (h : ∀ c ∈ line.head?, isspace c = false) : ¬ Blank line := by
  obtain ⟨c, rest, rfl⟩ := List.exists_cons_of_ne_nil (Fgets.ne_nil_of_mem_lines hmem)
  intro hblank
  have hc := h c rfl
  rw [hblank c List.mem_cons_self] at hc
  cases hc

/-- The lines that are not blank, when none is. -/
theorem trimmedLines_of_not_blank {file : TextFile}
    (h : ∀ line ∈ Fgets.lines nl file.content, ¬ Blank line) :
    trimmedLines file = (Fgets.lines nl file.content).map trim := by
  rw [trimmedLines, List.filter_eq_self.mpr]
  intro line hline
  simpa [Blank] using h line hline

/-- As many trimmed lines as pieces: then the buffer holds every line. -/
theorem short_of_trimmedLines {file : TextFile}
    (h : (trimmedLines file).length
      = (Fgets.pieces nl 4095 file.content.length file.content).length) :
    ∀ line ∈ Fgets.lines nl file.content, line.length ≤ 4095 := by
  have hle : (trimmedLines file).length ≤ (Fgets.lines nl file.content).length := by
    rw [trimmedLines, List.length_map]
    exact List.length_filter_le _ _
  have hpieces : (Fgets.lines nl file.content).length
      ≤ (Fgets.pieces nl 4095 file.content.length file.content).length :=
    (Fgets.length_lines_le (by decide) (Nat.le_refl _)).1
  exact (Fgets.length_pieces_eq_iff (by decide) (Nat.le_refl _)).mp (by omega)

/-- **Lines.** The calls submit the trimmed lines and stay inside the buffer exactly when every
    line fits the buffer and starts with something else than white space. -/
theorem query_lines_submitted_iff (file : TextFile) : SubmitsLines file ↔ WellFormed file := by
  constructor
  · intro h
    have hspec := readAll_spec (fun _ => ⟨List.replicate 4096 0, List.length_replicate⟩)
      file.nulFree (Nat.le_refl _) (Nat.le_refl _) halfConfigured
    obtain ⟨calls, hcalls, hsubmits⟩ := h (fun _ => ⟨List.replicate 4096 0, List.length_replicate⟩)
      halfConfigured _ (Nat.le_refl _)
    by_cases hblank : ∃ piece ∈ Fgets.pieces nl 4095 file.content.length file.content, Blank piece
    · rw [hspec.1 hblank] at hcalls
      cases hcalls
    replace hblank := fun piece hpiece hb => hblank ⟨piece, hpiece, hb⟩
    obtain ⟨calls', hcalls', hsubmits'⟩ := hspec.2 hblank
    obtain rfl : calls = calls' := Option.some.inj (hcalls.symm.trans hcalls')
    have htexts := hsubmits'.texts.symm.trans hsubmits.texts
    have hshort := short_of_trimmedLines (by rw [← htexts, List.length_map])
    -- the pieces are the lines, and none of them is blank
    rw [Fgets.pieces_eq_lines (by decide) (Nat.le_refl _) hshort] at hblank htexts
    rw [trimmedLines_of_not_blank hblank, List.map_inj_left] at htexts
    intro line hline
    exact ⟨hshort line hline, (trimEnd_eq_trim_iff (hblank line hline)).mp (htexts line hline)⟩
  · intro h stack conn fuel hfuel
    have hblank : ∀ line ∈ Fgets.lines nl file.content, ¬ Blank line := fun line hline =>
      not_blank_of_mem_lines hline (h line hline).2
    have htexts : (Fgets.lines nl file.content).map trimEnd = trimmedLines file := by
      rw [trimmedLines_of_not_blank hblank, List.map_inj_left]
      exact fun line hline => (trimEnd_eq_trim_iff (hblank line hline)).mpr (h line hline).2
    obtain ⟨fuel, rfl⟩ := Nat.exists_eq_add_of_le' (Nat.le_trans (Nat.le_add_left 2 _) hfuel)
    have hspec := (readAll_spec stack file.nulFree (Nat.le_refl _)
      (Nat.le_of_add_le_add_right hfuel) conn).2
    rw [Fgets.pieces_eq_lines (by decide) (Nat.le_refl _) fun line hline => (h line hline).1,
      htexts] at hspec
    exact hspec hblank

/-- Two queries with an empty line between them, and one that is indented. -/
def exampleQueryFile : TextFile where
  content := ascii "select 1;\n\n  select 2;\n"
  nulFree := by decide +kernel

/-- The empty line makes the function read the byte before its buffer. -/
theorem blank_line_leaves_buffer : ¬ SubmitsLines exampleQueryFile := by
  rw [query_lines_submitted_iff]
  intro h
  have hline : [nl] ∈ Fgets.lines nl exampleQueryFile.content := by decide +kernel
  exact absurd ((h _ hline).2 nl rfl) (by decide)

end MaxScaleSystemTest.Sql
