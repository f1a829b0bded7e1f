import MaxScaleSystemTest.Lib.Blocks
import MaxScaleSystemTest.Maxinfo.JsonRecord
import MaxScaleSystemTest.Sql.T1
import MaxScaleSystemTest.Verdict

namespace MaxScaleSystemTest.Avro

open Blocks CString Maxinfo Sql.T1

/-!
# The check of the Avro file

The test reads what `maxavrocheck` prints line by line and counts along: `16` rows with `fl` 0,
`256` with `fl` 1 and so on.  It does not look whether a line could be read, and at the end it
only asks for the block it stands in.

* `checkLoop_outcome` — what the loop makes of a list of lines;
* `generated_iff` — the lines of the rows that `insert_into_t1` generates;
* `avro_check_iff` — which lists are accepted if and only if they are those.
-/

/-! ### The check -/

/-- The variables of the loop. -/
structure Counters where
  x1Exp : ℕ
  flExp : ℕ
  x : ℕ

/-- What follows a line that is as expected; `none` when `x` is no `int` any more. -/
def Counters.next (e : Counters) : Option Counters :=
  if e.x1Exp + 1 ≥ e.x then
    if e.x * 16 < 2 ^ 31 then some ⟨0, e.flExp + 1, e.x * 16⟩ else none
  else some ⟨e.x1Exp + 1, e.flExp, e.x⟩

section

variable (jsonLoads : Bytes → Except JsonError JsonDocument) (elapsedTime : Bytes → Bytes)
  (garbage : Int32) (junk : ℕ → Int64 × Int64)

/-- The loop, from line `n` on.  `garbage` stands for a missing `return`, and `junk n` for what
    the uninitialised `x1` and `fl` of line `n` hold. -/
def checkLoop : List Bytes → (n : ℕ) → Counters → TestConnections →
    Option (Counters × TestConnections)
  | [], _, e, t => some (e, t)
  | line :: lines, n, e, t => do
    -- the value returned is not looked at
    let o ← getXFlFromJson jsonLoads garbage line (junk n).1 (junk n).2
    if o.x1.toInt ≠ e.x1Exp ∨ o.fl.toInt ≠ e.flExp then
      return (e, report elapsedTime t 1 (ascii "Output:x1 %lld, fl %lld, Expected: x1 %d, fl %d")
        (ascii "Output:x1 " ++ Decimal.ofInt o.x1.toInt ++ ascii ", fl " ++
          Decimal.ofInt o.fl.toInt ++ ascii ", Expected: x1 " ++ Decimal.ofNat e.x1Exp ++
          ascii ", fl " ++ Decimal.ofNat e.flExp))
    else
      let e ← e.next
      checkLoop lines (n + 1) e t

/-- The loop and the test behind it. -/
def avroCheck (lines : List Bytes) (t : TestConnections) : Option TestConnections :=
  (checkLoop jsonLoads elapsedTime garbage junk lines 0 ⟨0, 0, 16⟩ t).map fun (e, t) =>
    if e.flExp ≠ 3 then
      report elapsedTime t 1 (ascii "not enough lines in avrocheck output\n")
        (ascii "not enough lines in avrocheck output\n")
    else t

end

/-! ### Counting -/

/-- The number of rows of block `b`. -/
def rowsOf (b : ℕ) : ℕ := 16 ^ (b + 1)

theorem rowsOf_pos (b : ℕ) : 0 < rowsOf b := Nat.pow_pos (by decide)

/-- The variables at line `n`. -/
def countersAt (n : ℕ) : Counters :=
  ⟨(position rowsOf n).1, (position rowsOf n).2, rowsOf (position rowsOf n).2⟩

/-- The lines before the end of the seventh block, at which `x` overflows. -/
def overflowLine : ℕ := start rowsOf 7

theorem overflowLine_eq : overflowLine = 286331152 := rfl

theorem start_three : start rowsOf 3 = 4368 := rfl

/-- The variables count through the blocks, up to the seventh. -/
theorem next_countersAt {n : ℕ} (hn : n < overflowLine) :
    (countersAt n).next = if n + 1 < overflowLine then some (countersAt (n + 1)) else none := by
  obtain ⟨b, k, hk, rfl⟩ := exists_start_add rowsOf_pos n
  have hmono := start_strictMono rowsOf_pos
  have hb : b < 7 := by
    by_contra hge
    have hle : start rowsOf 7 ≤ start rowsOf b := hmono.monotone (Nat.le_of_not_lt hge)
    unfold overflowLine at hn
    omega
  have hsize : rowsOf (b + 1) = rowsOf b * 16 := rfl
  unfold Counters.next
  by_cases hlast : k + 1 < rowsOf b
  · have hbefore : start rowsOf b + k + 1 < overflowLine := by
      have hle : start rowsOf (b + 1) ≤ start rowsOf 7 := hmono.monotone hb
      rw [start_succ] at hle
      unfold overflowLine
      omega
    have hpos : position rowsOf (start rowsOf b + k + 1) = (k + 1, b) :=
      position_start_add rowsOf_pos hlast
    simp only [countersAt, position_start_add rowsOf_pos hk, hpos, if_pos hbefore]
    exact if_neg (Nat.not_le.mpr hlast)
  · -- the last row of block `b`
    have hnext : start rowsOf b + k + 1 = start rowsOf (b + 1) := by
      rw [start_succ]
      omega
    have hpos : position rowsOf (start rowsOf b + k + 1) = (0, b + 1) := by
      rw [hnext]
      exact position_start_add rowsOf_pos (rowsOf_pos (b + 1))
    have hint : rowsOf b * 16 < 2 ^ 31 ↔ start rowsOf b + k + 1 < overflowLine := by
      rw [hnext, overflowLine, hmono.lt_iff_lt, ← hsize, rowsOf]
      constructor
      · intro hlt
        by_contra hge
        obtain rfl : b = 6 := by omega
        exact absurd hlt (by decide)
      · intro hlt
        have hle : 16 ^ (b + 1 + 1) ≤ 16 ^ 7 := Nat.pow_le_pow_right (by decide) (by omega)
        exact hle.trans_lt (by decide)
    simp only [countersAt, position_start_add rowsOf_pos hk, hpos, ← hint, hsize]
    exact if_pos (Nat.le_of_not_lt hlast)

/-! ### The loop -/

section

variable (jsonLoads : Bytes → Except JsonError JsonDocument) (junk : ℕ → Int64 × Int64)

/-- What line `n` leaves in `x1` and `fl` is as expected. -/
def Passes (n : ℕ) (line : Bytes) : Prop :=
  ((lineX1 jsonLoads line).getD (junk n).1).toInt = (position rowsOf n).1 ∧
    (((lineRow jsonLoads line).map Prod.snd).getD (junk n).2).toInt = (position rowsOf n).2

/-- What becomes of the loop over lines from line `n` on: all of them pass, or one is the first
    that does not, or they go on past the seventh block. -/
inductive LoopOutcome (lines : List Bytes) (n : ℕ) (t : TestConnections) :
    Option (Counters × TestConnections) → Prop where
  | all (hpass : ∀ j line, lines[j]? = some line → Passes jsonLoads junk (n + j) line)
      (hend : n + lines.length < overflowLine) :
      LoopOutcome lines n t (some (countersAt (n + lines.length), t))
  | stopped (m : ℕ) (line : Bytes) (t' : TestConnections) (hline : lines[m]? = some line)
      (hfail : ¬ Passes jsonLoads junk (n + m) line) (hend : n + m < overflowLine)
      (hreport : t'.globalResult = t.globalResult + 1) :
      LoopOutcome lines n t (some (countersAt (n + m), t'))
  | overflow (hpass : ∀ j, n + j < overflowLine →
        ∃ line, lines[j]? = some line ∧ Passes jsonLoads junk (n + j) line) :
      LoopOutcome lines n t none

variable {jsonLoads junk}

/-- A line that passes stands before the others. -/
theorem LoopOutcome.cons {line : Bytes} {lines : List Bytes} {n : ℕ} {t : TestConnections}
    {run : Option (Counters × TestConnections)} (hline : Passes jsonLoads junk n line)
    (h : LoopOutcome jsonLoads junk lines (n + 1) t run) :
    LoopOutcome jsonLoads junk (line :: lines) n t run := by
  have hsucc : ∀ j, n + 1 + j = n + (j + 1) := fun j => by omega
  cases h with
  | all hpass hend =>
    rw [hsucc] at hend ⊢
    refine .all (fun j l hj => ?_) hend
    cases j with
    | zero =>
      cases hj
      exact hline
    | succ j => exact hsucc j ▸ hpass j l hj
  | stopped m l t' hl hfail hend hreport =>
    rw [hsucc] at hfail hend ⊢
    exact .stopped (m + 1) l t' hl hfail hend hreport
  | overflow hpass =>
    refine .overflow fun j hj => ?_
    cases j with
    | zero => exact ⟨line, rfl, hline⟩
    | succ j =>
      rw [← hsucc] at hj ⊢
      exact hpass j hj

/-- **The loop.** -/
theorem checkLoop_outcome (elapsedTime : Bytes → Bytes) (garbage : Int32) (lines : List Bytes)
    {n : ℕ} (hn : n < overflowLine) (t : TestConnections) :
    LoopOutcome jsonLoads junk lines n t
      (checkLoop jsonLoads elapsedTime garbage junk lines n (countersAt n) t) := by
  induction lines generalizing n with
  | nil => exact .all nofun hn
  | cons line lines ih =>
    obtain ⟨o, hread, hx, hfl⟩ :=
      getXFlFromJson_leaves jsonLoads garbage line (junk n).1 (junk n).2
    rw [checkLoop, hread, Option.bind_eq_bind, Option.bind_some]
    by_cases hpass : Passes jsonLoads junk n line
    · have hsame : ¬ (o.x1.toInt ≠ (countersAt n).x1Exp ∨ o.fl.toInt ≠ (countersAt n).flExp) := by
        rw [hx, hfl]
        push Not
        exact hpass
      rw [if_neg hsame, next_countersAt hn]
      by_cases hlast : n + 1 < overflowLine
      · rw [if_pos hlast]
        exact (ih hlast).cons hpass
      · rw [if_neg hlast]
        refine .overflow fun j hj => ?_
        obtain rfl : j = 0 := by omega
        exact ⟨line, rfl, hpass⟩
    · have hdiffers : o.x1.toInt ≠ (countersAt n).x1Exp ∨ o.fl.toInt ≠ (countersAt n).flExp := by
        rw [hx, hfl]
        exact not_and_or.mp hpass
      rw [if_pos hdiffers]
      exact .stopped 0 line _ rfl hpass hn (report_globalResult ..)

/-- What becomes of the whole check: it accepts only when all lines pass and the next one would
    be in the fourth block. -/
inductive CheckOutcome (jsonLoads : Bytes → Except JsonError JsonDocument)
    (junk : ℕ → Int64 × Int64) (lines : List Bytes) (t : TestConnections) :
    Option TestConnections → Prop where
  | all (t' : TestConnections)
      (hpass : ∀ n line, lines[n]? = some line → Passes jsonLoads junk n line)
      (hend : lines.length < overflowLine)
      (hresult : t'.globalResult = t.globalResult ↔ 4368 ≤ lines.length ∧ lines.length < 69904) :
      CheckOutcome jsonLoads junk lines t (some t')
  | stopped (n : ℕ) (line : Bytes) (t' : TestConnections) (hline : lines[n]? = some line)
      (hfail : ¬ Passes jsonLoads junk n line) (hend : n < overflowLine)
      (hresult : t'.globalResult ≠ t.globalResult) :
      CheckOutcome jsonLoads junk lines t (some t')
  | overflow (hpass : ∀ n < overflowLine,
        ∃ line, lines[n]? = some line ∧ Passes jsonLoads junk n line) :
      CheckOutcome jsonLoads junk lines t none

/-- **The check.** -/
theorem avroCheck_outcome (jsonLoads : Bytes → Except JsonError JsonDocument)
    (junk : ℕ → Int64 × Int64) (elapsedTime : Bytes → Bytes) (garbage : Int32)
    (lines : List Bytes) (t : TestConnections) :
    CheckOutcome jsonLoads junk lines t
      (avroCheck jsonLoads elapsedTime garbage junk lines t) := by
  have houtcome : LoopOutcome jsonLoads junk lines 0 t
      (checkLoop jsonLoads elapsedTime garbage junk lines 0 ⟨0, 0, 16⟩ t) :=
    checkLoop_outcome elapsedTime garbage lines (by decide) t
  have hone : ∀ r : Int32, r + 1 ≠ r ∧ r + 1 + 1 ≠ r := fun r => ⟨by grind, by grind⟩
  unfold avroCheck
  generalize checkLoop jsonLoads elapsedTime garbage junk lines 0 ⟨0, 0, 16⟩ t = run at houtcome ⊢
  cases houtcome with
  | all hpass hend =>
    simp only [Nat.zero_add] at hpass hend ⊢
    refine .all _ hpass hend ?_
    have hblock : (countersAt lines.length).flExp = 3 ↔
        4368 ≤ lines.length ∧ lines.length < 69904 := position_snd_eq_iff rowsOf_pos
    rw [← hblock]
    by_cases hthree : (countersAt lines.length).flExp = 3
    · simp [hthree]
    · simp [hthree, report_globalResult, (hone t.globalResult).1]
  | stopped m line t' hline hfail hend hreport =>
    simp only [Nat.zero_add] at hfail hend ⊢
    refine .stopped m line _ hline hfail hend ?_
    by_cases hthree : (countersAt m).flExp = 3
    · simp [hthree, hreport, (hone t.globalResult).1]
    · simp [hthree, report_globalResult, hreport, (hone t.globalResult).2]
  | overflow hpass =>
    simp only [Nat.zero_add] at hpass
    exact .overflow hpass

end

/-! ### The generated rows -/

/-- The integers of a row, as they stand in its record. -/
def rowRecord (r : T1Row) : Option (Int64 × Int64) := do
  let x ← r.x1
  let f ← r.fl
  return (x.toInt64, f.toInt64)

/-- The rows that `insert_into_t1(3)` puts into a new table. -/
def generatedRows : List T1Row := (List.range 3).flatMap block

/-- They are what any server has in the table then. -/
theorem insertIntoT1_generated (db : Database) {cache : Sql.InsertCache} (h : CacheReached cache)
    {s : db.State} (ht : db.t1 s = some []) :
    ∃ cache' s', insertIntoT1 db cache 3 s = some (0, cache', s') ∧
      db.t1 s' = some generatedRows := by
  obtain ⟨cache', s', hrun, ht'⟩ :=
    insertLoop_run db 3 (i := 0) (by decide) (cacheRight_of_reached h) ht 0
  refine ⟨cache', s', hrun, ?_⟩
  rw [ht', List.nil_append, generatedRows, List.range_eq_range']

/-- The lines are the records of those rows. -/
def Generated (jsonLoads : Bytes → Except JsonError JsonDocument) (lines : List Bytes) : Prop :=
  lines.map (lineRow jsonLoads) = generatedRows.map rowRecord

/-- The record of the row a cell stands for. -/
def cellRecord (p : ℕ × ℕ) : Option (Int64 × Int64) :=
  rowRecord ⟨some (Int32.ofNat p.1), some (Int32.ofNat p.2)⟩

theorem map_rowRecord_generatedRows :
    generatedRows.map rowRecord =
      (List.range 4368).map fun n => cellRecord (position rowsOf n) := by
  have hcells : generatedRows.map rowRecord = (positions rowsOf 3).map cellRecord := by
    unfold generatedRows positions
    rw [List.map_flatMap, List.map_flatMap]
    congr 1
    funext b
    rw [block, List.map_map, List.map_map]
    rfl
  rw [hcells, positions_eq_map rowsOf_pos, List.map_map, start_three]
  rfl

/-- **The generated rows.** Each line is the record of the row that is counted to it. -/
theorem generated_iff {jsonLoads : Bytes → Except JsonError JsonDocument} {lines : List Bytes} :
    Generated jsonLoads lines ↔ lines.length = 4368 ∧
      ∀ n line, lines[n]? = some line →
        lineRow jsonLoads line = cellRecord (position rowsOf n) := by
  unfold Generated
  rw [map_rowRecord_generatedRows]
  constructor
  · intro h
    have hlength : lines.length = 4368 := by simpa using congrArg List.length h
    refine ⟨hlength, fun n line hline => ?_⟩
    have hn : n < 4368 := hlength ▸ (List.getElem?_eq_some_iff.mp hline).1
    have hcell := congrArg (fun l => l[n]?) h
    simpa [hline, hn] using hcell
  · rintro ⟨hlength, hrow⟩
    apply List.ext_getElem (by simp [hlength])
    intro n hn _
    rw [List.length_map] at hn
    simpa using hrow n _ (List.getElem?_eq_getElem hn)

/-! ### Lines that may pass -/

/-- A line has an integer that is not the one of the row `p`: in `x1`, or as a row in `fl`. -/
def Differs (jsonLoads : Bytes → Except JsonError JsonDocument) (line : Bytes)
    (p : ℕ × ℕ) : Prop :=
  (∃ x, lineX1 jsonLoads line = some x ∧ x.toInt ≠ p.1) ∨
    ∃ x f, lineRow jsonLoads line = some (x, f) ∧ f.toInt ≠ p.2

/-- What the uninitialised variables hold when it looks like the row that is expected. -/
def expectedJunk (n : ℕ) : Int64 × Int64 :=
  (Int64.ofNat (position rowsOf n).1, Int64.ofNat (position rowsOf n).2)

/-- The numbers up to the seventh block are small. -/
theorem position_lt {n : ℕ} (hn : n < overflowLine) :
    (position rowsOf n).1 < 2 ^ 28 ∧ (position rowsOf n).2 < 7 := by
  have hmono := start_strictMono rowsOf_pos
  have hblock : (position rowsOf n).2 < 7 := by
    by_contra hge
    obtain ⟨hle, -⟩ := (position_snd_eq_iff rowsOf_pos).mp (Eq.refl (position rowsOf n).2)
    have hseven : start rowsOf 7 ≤ start rowsOf (position rowsOf n).2 :=
      hmono.monotone (Nat.le_of_not_lt hge)
    unfold overflowLine at hn
    omega
  have hsize : rowsOf (position rowsOf n).2 ≤ 16 ^ 7 := Nat.pow_le_pow_right (by decide) hblock
  exact ⟨(fst_lt_size rowsOf_pos n).trans_le hsize, hblock⟩

section

variable {jsonLoads : Bytes → Except JsonError JsonDocument}

/-- A line that passes does not differ. -/
theorem not_differs_of_passes {junk : ℕ → Int64 × Int64} {n : ℕ} {line : Bytes}
    (h : Passes jsonLoads junk n line) : ¬ Differs jsonLoads line (position rowsOf n) := by
  obtain ⟨hx, hf⟩ := h
  rintro (⟨x, hline, hne⟩ | ⟨x, f, hline, hne⟩)
  · rw [hline, Option.getD_some] at hx
    exact hne hx
  · rw [hline, Option.map_some, Option.getD_some] at hf
    exact hne hf

/-- A line that does not differ passes for some values in the variables. -/
theorem passes_of_not_differs {n : ℕ} (hn : n < overflowLine) {line : Bytes}
    (h : ¬ Differs jsonLoads line (position rowsOf n)) : Passes jsonLoads expectedJunk n line := by
  obtain ⟨hx1, hfl⟩ := not_or.mp h
  obtain ⟨hfst, hsnd⟩ := position_lt hn
  constructor
  · cases hline : lineX1 jsonLoads line with
    | none => exact Int64.toInt_ofNat_of_lt (by omega)
    | some x =>
      by_contra hne
      exact hx1 ⟨x, hline, hne⟩
  · cases hline : lineRow jsonLoads line with
    | none => exact Int64.toInt_ofNat_of_lt (by omega)
    | some row =>
      by_contra hne
      exact hfl ⟨row.1, row.2, hline, hne⟩

/-- The record of the row that is expected passes whatever the variables hold. -/
theorem passes_of_record {junk : ℕ → Int64 × Int64} {n : ℕ} (hn : n < overflowLine)
    {line : Bytes} (h : lineRow jsonLoads line = cellRecord (position rowsOf n)) :
    Passes jsonLoads junk n line := by
  obtain ⟨hfst, hsnd⟩ := position_lt hn
  have hrow : lineRow jsonLoads line = some ((Int32.ofNat (position rowsOf n).1).toInt64,
      (Int32.ofNat (position rowsOf n).2).toInt64) := h
  constructor
  · rw [lineX1_of_lineRow hrow, Option.getD_some, Int32.toInt_toInt64]
    exact Int32.toInt_ofNat_of_lt (by omega)
  · rw [hrow, Option.map_some, Option.getD_some, Int32.toInt_toInt64]
    exact Int32.toInt_ofNat_of_lt (by omega)

/-! ### Which lists are checked right -/

variable (jsonLoads) (elapsedTime : Bytes → Bytes)

/-- Whatever the uninitialised variables hold, the check comes to its end, and it records no
    failure if and only if the lines are those of the generated rows. -/
def ChecksRight (lines : List Bytes) (t : TestConnections) : Prop :=
  ∀ garbage junk, ∃ t', avroCheck jsonLoads elapsedTime garbage junk lines t = some t' ∧
    (t'.globalResult = t.globalResult ↔ Generated jsonLoads lines)

/-- **Which lists are checked right.** Those of the generated rows, and those that a line with
    another integer gives away, or that are too short or so long that a fifth block begins. -/
theorem avro_check_iff (lines : List Bytes) (t : TestConnections) :
    ChecksRight jsonLoads elapsedTime lines t ↔
      Generated jsonLoads lines ∨
        (∃ n < overflowLine, ∃ line, lines[n]? = some line ∧
          Differs jsonLoads line (position rowsOf n)) ∨
        lines.length < 4368 ∨ (69904 ≤ lines.length ∧ lines.length < overflowLine) := by
  constructor
  · intro h
    obtain ⟨t', hrun, hright⟩ := h 0 expectedJunk
    have houtcome := avroCheck_outcome jsonLoads expectedJunk elapsedTime 0 lines t
    rw [hrun] at houtcome
    cases houtcome with
    | all _ hpass hend hresult =>
      rw [hresult] at hright
      by_cases hlength : 4368 ≤ lines.length ∧ lines.length < 69904
      · exact .inl (hright.mp hlength)
      · exact .inr (.inr (by omega))
    | stopped n line _ hline hfail hend hresult =>
      refine .inr (.inl ⟨n, hend, line, hline, ?_⟩)
      by_contra hsame
      exact hfail (passes_of_not_differs hend hsame)
  · intro h garbage junk
    have hrecord : Generated jsonLoads lines → lines.length = 4368 ∧
        ∀ n line, lines[n]? = some line → Passes jsonLoads junk n line := by
      intro hgenerated
      obtain ⟨hlength, hrow⟩ := generated_iff.mp hgenerated
      refine ⟨hlength, fun n line hline => ?_⟩
      have hn : n < lines.length := (List.getElem?_eq_some_iff.mp hline).1
      exact passes_of_record (by rw [overflowLine_eq]; omega) (hrow n line hline)
    have houtcome := avroCheck_outcome jsonLoads junk elapsedTime garbage lines t
    generalize avroCheck jsonLoads elapsedTime garbage junk lines t = run at houtcome ⊢
    cases houtcome with
    | all t' hpass hend hresult =>
      refine ⟨t', rfl, hresult.trans ⟨fun hlength => ?_, fun hgenerated => ?_⟩⟩
      · obtain hgenerated | ⟨n, -, line, hline, hdiffers⟩ | hlong := h
        · exact hgenerated
        · exact absurd hdiffers (not_differs_of_passes (hpass n line hline))
        · omega
      · have hlength := (hrecord hgenerated).1
        omega
    | stopped n line t' hline hfail hend hresult =>
      refine ⟨t', rfl, iff_of_false hresult fun hgenerated => ?_⟩
      exact hfail ((hrecord hgenerated).2 n line hline)
    | overflow hpass =>
      -- as many lines as that are none of the lists
      exfalso
      obtain ⟨last, hlast, -⟩ := hpass 286331151 (by decide)
      have hlength : 286331151 < lines.length := (List.getElem?_eq_some_iff.mp hlast).1
      rw [overflowLine_eq] at h
      obtain hgenerated | ⟨n, hn, line, hline, hdiffers⟩ | hlong := h
      · have hlength' := (hrecord hgenerated).1
        omega
      · obtain ⟨line', hline', hpass'⟩ := hpass n hn
        rw [hline] at hline'
        cases hline'
        exact not_differs_of_passes hpass' hdiffers
      · omega

end

/-! ### A list with an extra row -/

/-- The text of a row. -/
def recordLine (p : ℕ × ℕ) : Bytes :=
  ascii "\x7b\"x1\": " ++ (Decimal.ofNat p.1 ++ (ascii ", \"fl\": " ++ (Decimal.ofNat p.2 ++
    ascii "\x7d")))

/-- The numbers in such a text. -/
def readRecord (line : Bytes) : Option (ℤ × ℤ) := do
  let line ← line.dropPrefix? (ascii "\x7b\"x1\": ")
  let (x, line) ← Decimal.readNat line
  let line ← line.dropPrefix? (ascii ", \"fl\": ")
  let (f, line) ← Decimal.readNat line
  if line = ascii "\x7d" then some (x, f) else none

/-- `json_loads` on such texts. -/
def recordLoads (line : Bytes) : Except JsonError JsonDocument :=
  match readRecord line with
  | some (x, f) => .ok (recordDocument (Int64.ofInt x) (Int64.ofInt f))
  | none => .error ⟨1, ascii "invalid token"⟩

theorem readRecord_recordLine (p : ℕ × ℕ) :
    readRecord (recordLine p) = some ((p.1 : ℤ), (p.2 : ℤ)) := by
  have hdrop : ∀ front rest : Bytes, (front ++ rest).dropPrefix? front = some rest :=
    fun front rest => List.dropPrefix?_eq_some_iff.mpr ⟨front, rfl, beq_self_eq_true front⟩
  have hfirst : Decimal.readNat (Decimal.ofNat p.1 ++ (ascii ", \"fl\": " ++
      (Decimal.ofNat p.2 ++ ascii "\x7d"))) = some ((p.1 : ℤ), ascii ", \"fl\": " ++
        (Decimal.ofNat p.2 ++ ascii "\x7d")) := by
    apply Decimal.readNat_ofNat
    intro c hc
    cases hc
    rfl
  have hsecond : Decimal.readNat (Decimal.ofNat p.2 ++ ascii "\x7d")
      = some ((p.2 : ℤ), ascii "\x7d") := by
    apply Decimal.readNat_ofNat
    intro c hc
    cases hc
    rfl
  simp [readRecord, recordLine, hdrop, hfirst, hsecond]

theorem lineRow_recordLine (p : ℕ × ℕ) :
    lineRow recordLoads (recordLine p) = some (Int64.ofInt p.1, Int64.ofInt p.2) := by
  have hload : recordLoads (recordLine p)
      = .ok (recordDocument (Int64.ofInt p.1) (Int64.ofInt p.2)) := by
    rw [recordLoads, readRecord_recordLine]
  rw [lineRow, hload]
  exact recordDocument_row ..

/-- The generated rows and one more, `(0, 3)`. -/
def extraRowLines : List Bytes := (List.range 4369).map fun n => recordLine (position rowsOf n)

/-- The extra row is accepted. -/
theorem extra_row_accepted : ¬ ChecksRight recordLoads (fun _ => []) extraRowLines ⟨0, []⟩ := by
  have hlength : extraRowLines.length = 4369 := by simp [extraRowLines]
  rw [avro_check_iff, hlength]
  rintro (hgenerated | ⟨n, hn, line, hline, hdiffers⟩ | hlong)
  · have hshort := (generated_iff.mp hgenerated).1
    omega
  · -- every line has the numbers that are counted to it
    have hline' : recordLine (position rowsOf n) = line := by
      obtain ⟨hm, hmn⟩ := List.getElem?_eq_some_iff.mp hline
      rw [← hmn]
      simp [extraRowLines]
    obtain ⟨hfst, hsnd⟩ := position_lt hn
    have hrow := lineRow_recordLine (position rowsOf n)
    rw [hline'] at hrow
    rcases hdiffers with ⟨x, hx, hne⟩ | ⟨x, f, hf, hne⟩
    · rw [lineX1_of_lineRow hrow] at hx
      cases hx
      exact hne (Int64.toInt_ofNat_of_lt (by omega))
    · rw [hrow] at hf
      cases hf
      exact hne (Int64.toInt_ofNat_of_lt (by omega))
  · omega

end MaxScaleSystemTest.Avro
