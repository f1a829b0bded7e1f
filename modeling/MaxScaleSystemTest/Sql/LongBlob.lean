import MaxScaleSystemTest.Lib.Buffer
import MaxScaleSystemTest.Lib.Decimal
import MaxScaleSystemTest.Lib.Words
import Mathlib.Data.Vector.Basic

namespace MaxScaleSystemTest.Sql.LongBlob

open CString Words While

/-!
# Long blobs

`test_longblob` inserts rows of numbered words, each in pieces, and `check_longblob_data` counts
through the words of every row that it fetches.  All rows are fetched into one buffer, and their
lengths are not looked at, so that a row that has lost its end is not told from a whole one.

* `testLongblob_eq` — the words that are written;
* `checkLongblobData_spec` — when nothing is reported;
* `longblob_round_trip_iff` — what is written is accepted, and what differs from it reported,
  exactly when the total fits the counter of the check and the rows have not just been cut off.

The statements succeed and memory can be had.
-/

/-! ### The functions -/

/-- The parameters of the two functions; the sizes are in words. -/
structure Params where
  chunkSize : ℕ
  chunks : ℕ
  rows : ℕ
  chunkSize_lt : chunkSize < 2 ^ 64
  chunks_lt : chunks < 2 ^ 31
  rows_lt : rows < 2 ^ 31

namespace Params

variable (p : Params)

/-- `size * sizeof(unsigned long)`. -/
def chunkBytes : ℕ := p.chunkSize * 8 % 2 ^ 64

/-- `chunk_size * chunks`. -/
def total : ℕ := p.chunkSize * p.chunks % 2 ^ 64

/-- `chunk_size * chunks * sizeof(long int)`. -/
def totalBytes : ℕ := p.total * 8 % 2 ^ 64

end Params

/-- Fill the block with chunk `i` and send it. -/
def sendChunk (p : Params) (i : ℕ) (st : Bytes × List Bytes) : Option (Bytes × List Bytes) := do
  let data ← count (fun j data => store data j (j + i * p.chunkSize)) p.chunkSize st.1
  return (data, st.2 ++ [data.take p.chunkBytes])

/-- One row of `test_longblob`: what the server makes of the pieces that are sent, where `data` is
    the block from `malloc`.  Without any piece the parameter is sent that has not been set. -/
def insertRow (p : Params) (data : Buffer p.chunkBytes) : Option Bytes :=
  if p.chunks = 0 then none
  else do
    let (_, sent) ← count (sendChunk p) p.chunks (data.bytes, [])
    return sent.flatten

/-- `test_longblob`: the values in the table afterwards. -/
def testLongblob (p : Params) (data : ℕ → Buffer p.chunkBytes) : Option (List Bytes) :=
  count (fun k stored => do return stored ++ [← insertRow p (data k)]) p.rows []

/-- A row of the table. -/
structure Row where
  id : ℕ
  b : Bytes

/-- The rows with these values, as `AUTO_INCREMENT` numbers them behind the last id. -/
def tableFrom (last : ℕ) : List Bytes → List Row
  | [] => []
  | b :: bs => ⟨last + 1, b⟩ :: tableFrom (last + 1) bs

/-- `mysql_stmt_fetch` with a buffer for a blob, as the client library documents it: the value is
    copied to the front of the buffer.  One that does not fit gives `MYSQL_DATA_TRUNCATED`. -/
structure Fetch where
  copy : Bytes → Bytes → Option Bytes
  of_fits : ∀ buffer value, value.length ≤ buffer.length →
    copy buffer value = some (value ++ buffer.drop value.length)
  of_long : ∀ buffer value, buffer.length < value.length → copy buffer value = none

/-- The state of the loop over the rows: `data`, `row`, and the texts of `add_result`. -/
structure Check where
  data : Bytes
  row : ℕ
  results : List Bytes

/-- The body of the loop over the words, and its `y++`, which must give an `int`. -/
def checkWord (data : Bytes) (y : ℕ) (results : List Bytes) : Option (List Bytes) := do
  let word ← load data y
  let results := if word ≠ y then results ++ [ascii "Data is wrong!\n"] else results
  if y + 1 < 2 ^ 31 then some results else none

/-- The body of the loop over the rows. -/
def checkRow (p : Params) (st : Check) (r : Row) (data : Bytes) : Option Check := do
  let results :=
    if r.id ≠ st.row + 1 then
      st.results ++ [ascii "id field is wrong! Expected " ++ Decimal.ofNat (st.row + 1) ++
        ascii ", but it is " ++ Decimal.ofNat r.id ++ [nl]]
    else st.results
  let results ← count (checkWord data) p.total results
  return ⟨data, st.row + 1, results⟩

/-- `while (!mysql_stmt_fetch(stmt))`, on the rows that are left. -/
def fetchRows (fetch : Fetch) (p : Params) : List Row → Check → Option Check
  | [], st => some st
  | r :: rs, st =>
    match fetch.copy st.data r.b with
    | none => some st
    | some data => do
      let st ← checkRow p st r data
      fetchRows fetch p rs st

/-- `check_longblob_data`: the texts it reports, where `data` is the block from `malloc`.  There is
    no `return` at the end, and nobody uses the value. -/
def checkLongblobData (fetch : Fetch) (p : Params) (data : Buffer p.totalBytes)
    (table : List Row) : Option (List Bytes) := do
  let st ← fetchRows fetch p table ⟨data.bytes, 0, []⟩
  if st.row ≠ p.rows then
    return st.results ++ [ascii "Wrong number of rows in the table! Expected " ++
      Decimal.ofNat p.rows ++ ascii ", but it is " ++ Decimal.ofNat st.row ++ [nl]]
  else return st.results

/-! ### What the functions should do -/

/-- Whatever the blocks from `malloc` hold, what is written is accepted, and rows that are stored
    instead are reported when they differ. -/
def RoundTrip (fetch : Fetch) (p : Params) (stored : List.Vector Bytes p.rows) : Prop :=
  ∀ heap : ℕ → Buffer p.chunkBytes, ∃ written, testLongblob p heap = some written ∧
    ∀ data : Buffer p.totalBytes,
      checkLongblobData fetch p data (tableFrom 0 written) = some [] ∧
      (stored.toList ≠ written →
        ∃ results, checkLongblobData fetch p data (tableFrom 0 stored.toList) = some results ∧
          results ≠ [])

/-- The words of a row. -/
def Params.rowBytes (p : Params) : Bytes := encode (List.range (p.chunkSize * p.chunks))

/-- Every row is the front of a written one, and one of them is not whole. -/
def OnlyCutOff (p : Params) (stored : List.Vector Bytes p.rows) : Prop :=
  (∀ b ∈ stored.toList, b <+: p.rowBytes) ∧ ∃ b ∈ stored.toList, b ≠ p.rowBytes

/-! ### What is written -/

section

variable {p : Params}

/-- The words of the chunks in front of chunk `i`, and those of the chunk. -/
theorem encode_chunks (size i : ℕ) :
    encode (List.range (size * i)) ++ encode ((List.range size).map fun j => j + i * size)
      = encode (List.range (size * (i + 1))) := by
  have hshift : ((List.range size).map fun j => j + i * size)
      = (List.range size).map (size * i + ·) := by
    apply List.map_congr_left
    intro j _
    rw [Nat.mul_comm i size, Nat.add_comm]
  rw [hshift, ← encode_append, ← List.range_add, ← Nat.mul_succ]

theorem chunkBytes_eq (h : p.chunkSize * 8 < 2 ^ 64) : p.chunkBytes = 8 * p.chunkSize := by
  rw [Params.chunkBytes, Nat.mod_eq_of_lt h, Nat.mul_comm]

/-- **A chunk.** Its words fill the block. -/
theorem sendChunk_eq (h : p.chunkSize * 8 < 2 ^ 64) {data : Bytes}
    (hdata : data.length = p.chunkBytes) (i : ℕ) (sent : List Bytes) :
    sendChunk p i (data, sent) = some
      (encode ((List.range p.chunkSize).map fun j => j + i * p.chunkSize),
        sent ++ [encode ((List.range p.chunkSize).map fun j => j + i * p.chunkSize)]) := by
  have hroom : 8 * p.chunkSize ≤ data.length := by rw [hdata, chunkBytes_eq h]
  have hnil : data.drop (8 * p.chunkSize) = [] := by
    rw [List.drop_eq_nil_iff, hdata, chunkBytes_eq h]
  have hfill := fill_eq (fun j => j + i * p.chunkSize) hroom
  rw [hnil, List.append_nil] at hfill
  have hwhole : (encode ((List.range p.chunkSize).map fun j => j + i * p.chunkSize)).take
      p.chunkBytes = encode ((List.range p.chunkSize).map fun j => j + i * p.chunkSize) := by
    rw [List.take_of_length_le]
    rw [length_encode_range, chunkBytes_eq h]
  rw [sendChunk, hfill]
  simp only [Option.bind_eq_bind, Option.bind_some, hwhole]
  rfl

/-- **A row.** The pieces make up its words. -/
theorem insertRow_eq (hchunks : 0 < p.chunks) (h : p.chunkSize * 8 < 2 ^ 64)
    (data : Buffer p.chunkBytes) : insertRow p data = some p.rowBytes := by
  have hstep : ∀ i < p.chunks, ∀ st : Bytes × List Bytes,
      st.1.length = p.chunkBytes ∧ st.2.flatten = encode (List.range (p.chunkSize * i)) →
      ∃ st', sendChunk p i st = some st' ∧ st'.1.length = p.chunkBytes ∧
        st'.2.flatten = encode (List.range (p.chunkSize * (i + 1))) := by
    rintro i - ⟨block, sent⟩ ⟨hblock, hsent⟩
    refine ⟨_, sendChunk_eq h hblock i sent, ?_, ?_⟩
    · rw [length_encode_range, chunkBytes_eq h]
    · rw [List.flatten_append, List.flatten_singleton, hsent, encode_chunks]
  obtain ⟨st, hrun, -, hsent⟩ := count_keeps hstep (s := (data.bytes, []))
    ⟨data.length_eq, by simp [encode]⟩
  rw [insertRow, if_neg (Nat.ne_of_gt hchunks), hrun]
  simp only [Option.bind_eq_bind, Option.bind_some, hsent]
  rfl

/-- A block that is too small for its chunk. -/
theorem insertRow_of_wrap (h : 2 ^ 64 ≤ p.chunkSize * 8) (data : Buffer p.chunkBytes) :
    insertRow p data = none := by
  have hsmall : p.chunkBytes < 2 ^ 64 := Nat.mod_lt _ (by norm_num)
  have hfill : ∀ i (st : Bytes × List Bytes), st.1.length = p.chunkBytes →
      sendChunk p i st = none := by
    intro i st hst
    have hstuck : count (fun j data => store data j (j + i * p.chunkSize)) p.chunkSize st.1
        = none := by
      refine count_eq_none (fun mem => mem.length = p.chunkBytes)
        (fun k mem mem' hmem hstore => (length_store hstore).trans hmem)
        (k := p.chunkSize - 1) (by omega) (fun mem hmem => ?_) hst
      rw [store_eq_none_iff, hmem]
      omega
    rw [sendChunk, hstuck]
    rfl
  unfold insertRow
  split
  · rfl
  · have hkeep : ∀ k (st st' : Bytes × List Bytes), st.1.length = p.chunkBytes →
        sendChunk p k st = some st' → st'.1.length = p.chunkBytes := by
      intro k st st' hst hsend
      rw [hfill k st hst] at hsend
      cases hsend
    rw [count_eq_none _ hkeep (k := 0) (by omega) (hfill 0) data.length_eq]
    rfl

/-- **The table.** All rows hold the words, or there is none. -/
theorem testLongblob_eq (hchunks : 0 < p.chunks) (h : p.chunkSize * 8 < 2 ^ 64)
    (heap : ℕ → Buffer p.chunkBytes) :
    testLongblob p heap = some (List.replicate p.rows p.rowBytes) := by
  have hstep : ∀ k < p.rows, ∀ stored, stored = List.replicate k p.rowBytes →
      ∃ stored', (do return stored ++ [← insertRow p (heap k)]) = some stored' ∧
        stored' = List.replicate (k + 1) p.rowBytes := by
    rintro k - stored rfl
    refine ⟨_, ?_, List.replicate_succ'.symm⟩
    rw [insertRow_eq hchunks h]
    rfl
  obtain ⟨stored, hrun, rfl⟩ := count_keeps hstep (s := []) rfl
  exact hrun

theorem testLongblob_of_rows (hrows : p.rows = 0) (heap : ℕ → Buffer p.chunkBytes) :
    testLongblob p heap = some [] := by
  rw [testLongblob, hrows]
  rfl

/-- What is written where the function comes to its end with a row. -/
theorem of_testLongblob (hrows : 0 < p.rows) {heap : ℕ → Buffer p.chunkBytes}
    {written : List Bytes} (h : testLongblob p heap = some written) :
    0 < p.chunks ∧ p.chunkSize * 8 < 2 ^ 64 := by
  have hinsert : insertRow p (heap 0) ≠ none := by
    intro hnone
    rw [testLongblob, count_eq_none (fun _ => True) (fun _ _ _ _ _ => trivial) hrows
      (fun s _ => by rw [hnone]; rfl) trivial] at h
    cases h
  refine ⟨?_, ?_⟩
  · by_contra hchunks
    exact hinsert (if_pos (by omega))
  · by_contra hwrap
    exact hinsert (insertRow_of_wrap (by omega) (heap 0))

end

/-! ### What is checked -/

section

variable {p : Params} {fetch : Fetch} {data : Bytes} {stored : List Bytes}

/-- **The words.** Nothing is reported exactly when the buffer starts with the numbers. -/
theorem checkWords_spec {n : ℕ} (hn : n < 2 ^ 31) (hdata : 8 * n ≤ data.length)
    (results : List Bytes) : ∃ results', count (checkWord data) n results = some results' ∧
      results <+: results' ∧ (results' = results ↔ encode (List.range n) <+: data) := by
  have hstep : ∀ k < n, ∀ found, (results <+: found ∧
      (found = results ↔ ∀ y < k, load data y = some y)) →
      ∃ found', checkWord data k found = some found' ∧ results <+: found' ∧
        (found' = results ↔ ∀ y < k + 1, load data y = some y) := by
    rintro k hk found ⟨hfront, hfound⟩
    have hroom : 8 * k + 8 ≤ data.length := by omega
    have hload : load data k = some (ofBytes ((data.drop (8 * k)).take 8)) := if_pos hroom
    have hint : k + 1 < 2 ^ 31 := by omega
    rw [checkWord, hload]
    simp only [Option.bind_eq_bind, Option.bind_some, if_pos hint, Nat.forall_lt_succ_right, hload]
    by_cases hword : ofBytes ((data.drop (8 * k)).take 8) = k
    · rw [if_neg (not_not.mpr hword)]
      exact ⟨found, rfl, hfront, by simp [hfound, hword]⟩
    · rw [if_pos hword]
      refine ⟨_, rfl, hfront.trans (List.prefix_append _ _), ?_⟩
      constructor
      · intro heq
        have hlength := hfront.length_le
        rw [← heq, List.length_append, List.length_singleton] at hlength
        omega
      · rintro ⟨-, hk⟩
        exact absurd (Option.some.inj hk) hword
  obtain ⟨results', hrun, hfront, hiff⟩ := count_keeps hstep (s := results)
    ⟨List.prefix_refl _, by simp⟩
  have hloads := loads_iff (f := id) (n := n) (fun i hi => by simp; omega) hdata
  rw [List.map_id] at hloads
  exact ⟨results', hrun, hfront, hiff.trans hloads⟩

/-- What can be stored in the rows and is not noticed, with what the buffer holds. -/
def Unnoticed (row : Bytes) : Bytes → List Bytes → Prop
  | _, [] => True
  | data, b :: bs =>
    b.length ≤ data.length ∧ b ++ data.drop b.length = row ∧ Unnoticed row row bs

theorem length_rowBytes (p : Params) : p.rowBytes.length = 8 * (p.chunkSize * p.chunks) := by
  rw [Params.rowBytes, length_encode, List.length_range]

theorem total_eq (hN : p.chunkSize * p.chunks < 2 ^ 31) :
    p.total = p.chunkSize * p.chunks ∧ p.totalBytes = 8 * (p.chunkSize * p.chunks) := by
  have htotal : p.total = p.chunkSize * p.chunks := Nat.mod_eq_of_lt (by omega)
  refine ⟨htotal, ?_⟩
  rw [Params.totalBytes, htotal]
  omega

/-- **A row.** Nothing is reported exactly when the buffer holds its words. -/
theorem checkRow_spec (hN : p.chunkSize * p.chunks < 2 ^ 31) (hdata : data.length = p.totalBytes)
    (st : Check) (b : Bytes) :
    ∃ results, checkRow p st ⟨st.row + 1, b⟩ data = some ⟨data, st.row + 1, results⟩ ∧
      st.results <+: results ∧ (results = st.results ↔ data = p.rowBytes) := by
  obtain ⟨htotal, hbytes⟩ := total_eq hN
  have hroom : 8 * (p.chunkSize * p.chunks) ≤ data.length := by omega
  obtain ⟨results, hwords, hfront, hiff⟩ := checkWords_spec hN hroom st.results
  refine ⟨results, ?_, hfront, ?_⟩
  · simp only [checkRow, htotal, hwords, ne_eq, not_true_eq_false, if_false, Option.bind_eq_bind,
      Option.bind_some, Option.pure_def]
  · rw [hiff]
    constructor
    · intro h
      exact (h.eq_of_length (by rw [hdata, hbytes, ← length_rowBytes]; rfl)).symm
    · rintro rfl
      exact List.prefix_refl _

/-- **The rows.** They are all read without a report exactly when nothing is noticed. -/
theorem fetchRows_spec (fetch : Fetch) (stored : List Bytes)
    (hN : p.chunkSize * p.chunks < 2 ^ 31) {st : Check} (hdata : st.data.length = p.totalBytes) :
    ∃ st', fetchRows fetch p (tableFrom st.row stored) st = some st' ∧
      st.results <+: st'.results ∧
      (st'.results = st.results ∧ st'.row = st.row + stored.length ↔
        Unnoticed p.rowBytes st.data stored) := by
  induction stored generalizing st with
  | nil => exact ⟨st, rfl, List.prefix_refl _, by simp [Unnoticed]⟩
  | cons b bs ih =>
    rw [tableFrom, fetchRows, Unnoticed]
    by_cases hfits : b.length ≤ st.data.length
    · rw [fetch.of_fits _ _ hfits]
      have hlength : (b ++ st.data.drop b.length).length = p.totalBytes := by
        rw [List.length_append, List.length_drop]
        omega
      generalize b ++ st.data.drop b.length = data at *
      obtain ⟨results, hcheck, hfirst, hwhole⟩ := checkRow_spec hN hlength st b
      have hnext : (⟨data, st.row + 1, results⟩ : Check).data.length = p.totalBytes := hlength
      obtain ⟨st', hrun, hrest, hmore⟩ := ih hnext
      refine ⟨st', ?_, hfirst.trans hrest, ?_⟩
      · simp only [hcheck, Option.bind_eq_bind, Option.bind_some]
        exact hrun
      · constructor
        · rintro ⟨hresults, hrow⟩
          have hsame : results = st.results := by
            rw [hresults] at hrest
            exact hrest.eq_of_length_le hfirst.length_le
          have hdata : data = p.rowBytes := hwhole.mp hsame
          refine ⟨hfits, hdata, hdata ▸ hmore.mp ⟨hresults.trans hsame.symm, ?_⟩⟩
          show st'.row = st.row + 1 + bs.length
          rw [hrow, List.length_cons]
          omega
        · rintro ⟨-, rfl, hunnoticed⟩
          obtain ⟨hresults, hrow⟩ := hmore.mpr hunnoticed
          refine ⟨hresults.trans (hwhole.mpr rfl), hrow.trans ?_⟩
          show st.row + 1 + bs.length = _
          rw [List.length_cons]
          omega
    · rw [fetch.of_long _ _ (Nat.lt_of_not_le hfits)]
      refine ⟨st, rfl, List.prefix_refl _, ?_⟩
      simp [hfits]

/-- **The check.** It comes to its end, and reports nothing exactly when nothing is noticed. -/
theorem checkLongblobData_spec (fetch : Fetch) (hN : p.chunkSize * p.chunks < 2 ^ 31)
    (data : Buffer p.totalBytes) (hrows : stored.length = p.rows) :
    ∃ results, checkLongblobData fetch p data (tableFrom 0 stored) = some results ∧
      (results = [] ↔ Unnoticed p.rowBytes data.bytes stored) := by
  have hstart : (⟨data.bytes, 0, []⟩ : Check).data.length = p.totalBytes := data.length_eq
  obtain ⟨st, hrun, -, hiff⟩ := fetchRows_spec fetch stored hN hstart
  rw [Nat.zero_add, hrows] at hiff
  rw [checkLongblobData, hrun, ← hiff]
  simp only [Option.bind_eq_bind, Option.bind_some]
  by_cases hrow : st.row = p.rows
  · rw [if_neg (not_not.mpr hrow)]
    exact ⟨_, rfl, by simp [hrow]⟩
  · rw [if_pos hrow]
    exact ⟨_, rfl, by simp [hrow]⟩

/-- What is not noticed are fronts of the row. -/
theorem Unnoticed.front {row : Bytes} (h : Unnoticed row data stored) :
    ∀ b ∈ stored, b <+: row := by
  induction stored generalizing data with
  | nil => exact fun b hb => absurd hb List.not_mem_nil
  | cons b bs ih =>
    obtain ⟨-, hrow, hrest⟩ := h
    rw [List.forall_mem_cons]
    exact ⟨hrow ▸ List.prefix_append _ _, ih hrest⟩

/-- In a buffer that holds the row already they are not noticed. -/
theorem unnoticed_of_fronts {row : Bytes} (h : ∀ b ∈ stored, b <+: row) :
    Unnoticed row row stored := by
  induction stored with
  | nil => trivial
  | cons b bs ih =>
    rw [List.forall_mem_cons] at h
    obtain ⟨rest, rfl⟩ := h.1
    refine ⟨h.1.length_le, ?_, ih h.2⟩
    rw [List.drop_left]

/-- Whole rows are right. -/
theorem unnoticed_replicate {row : Bytes} (h : data.length = row.length) (n : ℕ) :
    Unnoticed row data (List.replicate n row) := by
  cases n with
  | zero => trivial
  | succ n =>
    refine ⟨h.ge, ?_, unnoticed_of_fronts fun b hb => ?_⟩
    · rw [List.drop_eq_nil_of_le h.le, List.append_nil]
    · rw [List.eq_of_mem_replicate hb]

/-- A check of rows that have been written reports nothing only where their words can be counted
    in an `int`. -/
theorem lt_of_quiet (hrows : 0 < p.rows) (data : Buffer p.totalBytes)
    (h : checkLongblobData fetch p data (tableFrom 0 (List.replicate p.rows p.rowBytes))
      = some []) : p.chunkSize * p.chunks < 2 ^ 31 := by
  obtain ⟨n, hn⟩ := Nat.exists_eq_add_one_of_ne_zero (Nat.ne_of_gt hrows)
  have hlength := length_rowBytes p
  rw [checkLongblobData, hn, List.replicate_succ, tableFrom, fetchRows] at h
  by_cases hfits : p.rowBytes.length ≤ data.bytes.length
  · have hsmall : p.totalBytes < 2 ^ 64 := Nat.mod_lt _ (by norm_num)
    have htotal : p.total = p.chunkSize * p.chunks := by
      rw [hlength, data.length_eq] at hfits
      exact Nat.mod_eq_of_lt (by omega)
    by_contra hN
    -- the counter cannot get past the largest `int`
    have hstuck : ∀ results, count (checkWord (p.rowBytes ++ data.bytes.drop p.rowBytes.length))
        p.total results = none := by
      intro results
      refine count_eq_none (fun _ => True) (fun _ _ _ _ _ => trivial) (k := 2 ^ 31 - 1)
        (by omega) (fun found _ => ?_) trivial
      rw [checkWord]
      cases load (p.rowBytes ++ data.bytes.drop p.rowBytes.length) (2 ^ 31 - 1) <;> rfl
    rw [fetch.of_fits _ _ hfits] at h
    simp only [checkRow, hstuck, Option.bind_eq_bind, Option.bind_none] at h
    cases h
  · rw [fetch.of_long _ _ (Nat.lt_of_not_le hfits)] at h
    simp only [Option.bind_eq_bind, Option.bind_some, if_pos (Nat.succ_ne_zero n).symm,
      Option.pure_def, Option.some.injEq] at h
    simp at h

end

/-! ### The round trip -/

section

variable {fetch : Fetch} {p : Params} {stored : List.Vector Bytes p.rows}

theorem roundTrip_of_no_rows (hrows : p.rows = 0) : RoundTrip fetch p stored := by
  intro heap
  refine ⟨[], testLongblob_of_rows hrows heap, fun data => ⟨?_, fun hdiffer => ?_⟩⟩
  · simp [checkLongblobData, tableFrom, fetchRows, hrows]
  · have hcount : stored.toList.length = p.rows := stored.2
    exact absurd (List.eq_nil_of_length_eq_zero (hcount.trans hrows)) hdiffer

theorem roundTrip_of_not_cutOff (hchunks : 0 < p.chunks) (hN : p.chunkSize * p.chunks < 2 ^ 31)
    (hcut : ¬ OnlyCutOff p stored) : RoundTrip fetch p stored := by
  intro heap
  have hwrap : p.chunkSize * 8 < 2 ^ 64 := by
    have := Nat.le_mul_of_pos_right p.chunkSize hchunks
    omega
  have hcount : stored.toList.length = p.rows := stored.2
  refine ⟨_, testLongblob_eq hchunks hwrap heap, fun data => ⟨?_, fun hdiffer => ?_⟩⟩
  · obtain ⟨results, hrun, hiff⟩ := checkLongblobData_spec fetch hN data
      (List.length_replicate (n := p.rows) (a := p.rowBytes))
    rw [hrun, hiff.mpr (unnoticed_replicate _ p.rows)]
    rw [data.length_eq, length_rowBytes, (total_eq hN).2]
  · obtain ⟨results, hrun, hiff⟩ := checkLongblobData_spec fetch hN data hcount
    refine ⟨results, hrun, fun hquiet => hcut ⟨(hiff.mp hquiet).front, ?_⟩⟩
    by_contra hwhole
    refine hdiffer (List.eq_replicate_iff.mpr ⟨hcount, fun b hb => ?_⟩)
    by_contra hne
    exact hwhole ⟨b, hb, hne⟩

/-- With a row there are chunks, and the checks are right for rows of words. -/
theorem RoundTrip.checks (h : RoundTrip fetch p stored) (hrows : 0 < p.rows) :
    0 < p.chunks ∧ ∀ data : Buffer p.totalBytes,
      checkLongblobData fetch p data (tableFrom 0 (List.replicate p.rows p.rowBytes)) = some [] ∧
      (stored.toList ≠ List.replicate p.rows p.rowBytes →
        ∃ results, checkLongblobData fetch p data (tableFrom 0 stored.toList) = some results ∧
          results ≠ []) := by
  have heap : ℕ → Buffer p.chunkBytes := fun _ => .zero _
  obtain ⟨written, hwritten, hcheck⟩ := h heap
  obtain ⟨hchunks, hwrap⟩ := of_testLongblob hrows hwritten
  rw [testLongblob_eq hchunks hwrap heap, Option.some.injEq] at hwritten
  rw [hwritten]
  exact ⟨hchunks, hcheck⟩

/-- Rows that have only been cut off are not reported when the buffer holds the row already. -/
theorem RoundTrip.not_cutOff (h : RoundTrip fetch p stored) (hrows : 0 < p.rows)
    (hN : p.chunkSize * p.chunks < 2 ^ 31) : ¬ OnlyCutOff p stored := by
  rintro ⟨hfronts, b, hb, hne⟩
  have hdiffer : stored.toList ≠ List.replicate p.rows p.rowBytes := by
    intro heq
    rw [heq] at hb
    exact hne (List.eq_of_mem_replicate hb)
  have hbytes : p.rowBytes.length = p.totalBytes := by rw [length_rowBytes, (total_eq hN).2]
  have hcount : stored.toList.length = p.rows := stored.2
  obtain ⟨results, hrun, hreported⟩ := ((h.checks hrows).2 ⟨p.rowBytes, hbytes⟩).2 hdiffer
  obtain ⟨results', hrun', hiff⟩ := checkLongblobData_spec fetch hN ⟨p.rowBytes, hbytes⟩ hcount
  rw [hrun, Option.some.injEq] at hrun'
  exact hreported (hrun' ▸ hiff.mpr (unnoticed_of_fronts hfronts))

end

/-- **Round trip.** What is written is accepted, and other rows are reported, exactly when there is
    no row; or there are chunks, their words can be counted in an `int`, and the rows are not
    fronts of the written ones of which some are not whole. -/
theorem longblob_round_trip_iff (fetch : Fetch) (p : Params) (stored : List.Vector Bytes p.rows) :
    RoundTrip fetch p stored ↔
      p.rows = 0 ∨ 0 < p.chunks ∧ p.chunkSize * p.chunks < 2 ^ 31 ∧ ¬ OnlyCutOff p stored := by
  constructor
  · intro h
    rcases Nat.eq_zero_or_pos p.rows with hrows | hrows
    · exact .inl hrows
    · obtain ⟨hchunks, hcheck⟩ := h.checks hrows
      have hN := lt_of_quiet hrows (.zero _) (hcheck (.zero _)).1
      exact .inr ⟨hchunks, hN, h.not_cutOff hrows hN⟩
  · rintro (hrows | ⟨hchunks, hN, hcut⟩)
    · exact roundTrip_of_no_rows hrows
    · exact roundTrip_of_not_cutOff hchunks hN hcut

/-- A client library that does what is documented. -/
def documentedFetch : Fetch where
  copy buffer value :=
    if value.length ≤ buffer.length then some (value ++ buffer.drop value.length) else none
  of_fits _ _ h := if_pos h
  of_long _ _ h := if_neg (Nat.not_le_of_lt h)

/-- Two rows of one word, of which the second one has been lost. -/
theorem lost_row_accepted :
    ¬ RoundTrip documentedFetch ⟨1, 1, 2, by decide, by decide, by decide⟩
      ⟨[encode [0], []], rfl⟩ := by
  intro h
  obtain ⟨written, hwritten, hcheck⟩ := h fun _ => .zero _
  cases hwritten
  obtain ⟨results, hrun, hreported⟩ := (hcheck (.zero _)).2 (by decide)
  cases hrun
  exact hreported rfl

end MaxScaleSystemTest.Sql.LongBlob
