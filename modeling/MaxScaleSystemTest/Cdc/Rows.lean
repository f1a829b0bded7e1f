import MaxScaleSystemTest.Cdc.Connection
import MaxScaleSystemTest.Lib.Delimited

namespace MaxScaleSystemTest.Cdc

open CString SystemCalls Delimited

/-!
# The rows of the stream

`readRow` reads byte by byte up to a newline.  On a stream that fails it is a correct
reader of newline-terminated records; at the end of the stream, where `read` returns 0, it
treats the byte that happens to be in its local variable as data.

* `readRows_records` — successive calls return the records of the stream, in order;
* `rows_framed_iff` — the call behind the last record returns false exactly on streams that
  end with an error.
-/

/-- How a stream ends: `read` returns 0 from then on, or fails. -/
inductive Ending where
  | closed
  | failed (errno : Errno) (not_interrupted : errno ≠ EINTR)

/-- What `read` returns at the end. -/
def Ending.answer : Ending → ReadResult 1
  | .closed => .data [] (Nat.zero_le 1)
  | .failed e _ => .error e

/-- What `read` returns for one byte of the stream. -/
def byteRead (b : UInt8) : ReadResult 1 := .data [b] (le_refl 1)

/-- The reads of `s` deliver `stream`, with interruptions anywhere, and then the ending
    `n` times. -/
def Delivers (stream : Bytes) (ending : Ending) (n : ℕ) (s : Session 1) : Prop :=
  answers ReadResult.interrupted s.script.reads =
    stream.map byteRead ++ List.replicate n ending.answer

/-- `k` successive calls of `readRow` on fresh strings; `slots j` is the local variable of
    the `j`-th call. -/
def readRows (sys : Platform) (slots : ℕ → ℕ → UInt8) :
    ℕ → Session 1 → Except Halt (List (Bool × Bytes) × Session 1)
  | 0, s => .ok ([], s)
  | k + 1, s => do
    let (ok, dest, s) ← readRow sys (slots 0) [] s
    let (rows, s) ← readRows sys (fun j => slots (j + 1)) k s
    return ((ok, dest) :: rows, s)

/-- Reading rows of a stream gives its records, and then says that there are no more. -/
structure FramesRows (sys : Platform) (slots : ℕ → ℕ → UInt8) (stream : Bytes)
    (ending : Ending) : Prop where
  /-- The first calls return the first records. -/
  rows : ∀ k ≤ (records nl stream).length, ∀ n s, Delivers stream ending n s →
    ∃ s', readRows sys slots k s = .ok (((records nl stream).take k).map (true, ·), s')
  /-- The call behind the last record comes back and returns false, once the stream has
      shown its end often enough. -/
  ends : ∃ enough, ∀ n ≥ enough, ∀ s s', Delivers stream ending n s →
    readRows sys slots (records nl stream).length s =
        .ok ((records nl stream).map (true, ·), s') →
      ∃ dest s'', readRow sys (slots (records nl stream).length) [] s' = .ok (false, dest, s'')

/-! ### One call -/

section Loop

variable (slot : ℕ → UInt8) (dest : Bytes) {reads rest : List (ReadResult 1)}

/-- One turn of the loop on a byte of the stream. -/
theorem readRowLoop_of_byte {b : UInt8} (h : nointrRead reads = some (byteRead b, rest)) :
    readRowLoop slot dest reads =
      if b = nl then .row dest rest
      else readRowLoop (fun i => slot (i + 1)) (dest ++ [b]) rest := by
  rw [readRowLoop]
  split
  · rename_i hnone
    rw [h] at hnone
    cases hnone
  · rename_i hsome
    rw [h] at hsome
    cases hsome
  · rename_i hsome
    rw [h] at hsome
    cases hsome
    rfl

/-- One turn of the loop on a failed read. -/
theorem readRowLoop_of_error {e : Errno} (h : nointrRead reads = some (.error e, rest)) :
    readRowLoop slot dest reads = .failed e dest rest := by
  rw [readRowLoop]
  split
  · rename_i hnone
    rw [h] at hnone
    cases hnone
  · rename_i hsome
    rw [h] at hsome
    cases hsome
    rfl
  · rename_i hsome
    rw [h] at hsome
    cases hsome

/-- The loop collects a record and stops behind its newline. -/
theorem readRowLoop_record {r more : Bytes} {tail : List (ReadResult 1)} (hr : nl ∉ r)
    (hans : answers ReadResult.interrupted reads = (r ++ nl :: more).map byteRead ++ tail) :
    ∃ rest, readRowLoop slot dest reads = .row (dest ++ r) rest ∧
      answers ReadResult.interrupted rest = more.map byteRead ++ tail := by
  -- induction on the bytes of the record that are still to come
  induction r generalizing slot dest reads with
  | nil =>
    obtain ⟨rest, hretry, hrest⟩ := retry_of_answers hans
    refine ⟨rest, ?_, hrest⟩
    rw [readRowLoop_of_byte slot dest hretry, if_pos rfl, List.append_nil]
  | cons b r ih =>
    obtain ⟨rest, hretry, hrest⟩ := retry_of_answers hans
    have hb : b ≠ nl := fun h => hr (by simp [h])
    obtain ⟨rest', hloop, hrest'⟩ := ih (fun i => slot (i + 1)) (dest ++ [b])
      (fun h => hr (List.mem_cons_of_mem _ h)) hrest
    refine ⟨rest', ?_, hrest'⟩
    rw [readRowLoop_of_byte slot dest hretry, if_neg hb, hloop, List.append_assoc]
    rfl

/-- The loop collects an unfinished record up to the error behind it. -/
theorem readRowLoop_unfinished {u : Bytes} {e : Errno} {tail : List (ReadResult 1)} (hu : nl ∉ u)
    (hans : answers ReadResult.interrupted reads = u.map byteRead ++ .error e :: tail) :
    ∃ rest, readRowLoop slot dest reads = .failed e (dest ++ u) rest := by
  induction u generalizing slot dest reads with
  | nil =>
    obtain ⟨rest, hretry, hrest⟩ := retry_of_answers hans
    refine ⟨rest, ?_⟩
    rw [readRowLoop_of_error slot dest hretry, List.append_nil]
  | cons b u ih =>
    obtain ⟨rest, hretry, hrest⟩ := retry_of_answers hans
    have hb : b ≠ nl := fun h => hu (by simp [h])
    obtain ⟨rest', hloop⟩ := ih (fun i => slot (i + 1)) (dest ++ [b])
      (fun h => hu (List.mem_cons_of_mem _ h)) hrest
    refine ⟨rest', ?_⟩
    rw [readRowLoop_of_byte slot dest hretry, if_neg hb, hloop, List.append_assoc]
    rfl

variable {slot dest}

/-- The loop fails on a failed read only. -/
theorem error_mem_of_readRowLoop_failed {e : Errno} {dest' : Bytes}
    (h : readRowLoop slot dest reads = .failed e dest' rest) :
    .error e ∈ answers ReadResult.interrupted reads := by
  fun_induction readRowLoop slot dest reads with
  | case1 slot dest reads hnone => cases h
  | case2 slot dest reads e' rest' hsome =>
    cases h
    rw [(retry_eq_some hsome).1]
    exact List.mem_cons_self ..
  | case3 slot dest reads bs hbs rest' hsome buf hbuf => cases h
  | case4 slot dest reads bs hbs rest' hsome buf hbuf ih =>
    -- one more turn, on what the first read has left
    rw [(retry_eq_some hsome).1]
    exact List.mem_cons_of_mem _ (ih h)

end Loop

/-! ### Successive calls -/

section Rows

variable (sys : Platform) (slots : ℕ → ℕ → UInt8)

/-- One call appends the next record to its string. -/
theorem readRow_record (slot : ℕ → UInt8) (dest : Bytes) {s : Session 1} {r more : Bytes}
    {tail : List (ReadResult 1)} (hr : nl ∉ r)
    (hans : answers ReadResult.interrupted s.script.reads =
      (r ++ nl :: more).map byteRead ++ tail) :
    ∃ s', readRow sys slot dest s = .ok (true, dest ++ r, s') ∧
      answers ReadResult.interrupted s'.script.reads = more.map byteRead ++ tail := by
  obtain ⟨rest, hloop, hrest⟩ := readRowLoop_record slot dest hr hans
  refine ⟨s.setReads rest, ?_, hrest⟩
  rw [readRow, hloop]

/-- **Successive calls return the records of the stream.** No byte is lost, duplicated or
    invented, and what follows the records is left in the socket. -/
theorem readRows_records {rs : List Bytes} {more : Bytes} {tail : List (ReadResult 1)}
    {s : Session 1} (hrs : ∀ r ∈ rs, nl ∉ r)
    (hans : answers ReadResult.interrupted s.script.reads =
      (join nl rs more).map byteRead ++ tail) :
    ∃ s', readRows sys slots rs.length s = .ok (rs.map (true, ·), s') ∧
      answers ReadResult.interrupted s'.script.reads = more.map byteRead ++ tail := by
  induction rs generalizing slots s with
  | nil => exact ⟨s, rfl, hans⟩
  | cons r rs ih =>
    have hcons : join nl (r :: rs) more = r ++ nl :: join nl rs more := by simp [join]
    rw [hcons] at hans
    -- the first call takes the first record and its delimiter
    obtain ⟨s₁, hrow, hleft⟩ :=
      readRow_record sys (slots 0) [] (hrs r (by simp)) hans
    rw [List.nil_append] at hrow
    obtain ⟨s₂, hrows, hrest⟩ := ih (fun j => slots (j + 1))
      (fun r' hr' => hrs r' (List.mem_cons_of_mem _ hr')) hleft
    refine ⟨s₂, ?_, hrest⟩
    simp only [List.length_cons, readRows, hrow, bind, Except.bind, hrows, pure, Except.pure,
      List.map_cons]

/-- The calls on a delivered stream, for as many records as it has. -/
theorem readRows_of_delivers {stream : Bytes} {ending : Ending} {n k : ℕ} {s : Session 1}
    (hk : k ≤ (records nl stream).length) (h : Delivers stream ending n s) :
    ∃ s', readRows sys slots k s = .ok (((records nl stream).take k).map (true, ·), s') ∧
      answers ReadResult.interrupted s'.script.reads =
        (join nl ((records nl stream).drop k) (unfinished nl stream)).map byteRead ++
          List.replicate n ending.answer := by
  have hclean : ∀ r ∈ (records nl stream).take k, nl ∉ r :=
    fun r hr => (delim_not_mem nl stream).1 r (List.mem_of_mem_take hr)
  have hlen : ((records nl stream).take k).length = k := List.length_take_of_le hk
  have hans : answers ReadResult.interrupted s.script.reads =
      (join nl ((records nl stream).take k)
        (join nl ((records nl stream).drop k) (unfinished nl stream))).map byteRead ++
          List.replicate n ending.answer := by
    rw [← join_append, List.take_append_drop, join_split]
    exact h
  have hrows := readRows_records sys slots hclean hans
  rwa [hlen] at hrows

end Rows

/-! ### The end of the stream -/

/-- Only a failed read makes `readRow` return false. -/
theorem error_mem_of_readRow_false {sys : Platform} {slot : ℕ → UInt8} {dest dest' : Bytes}
    {s s' : Session 1} (h : readRow sys slot dest s = .ok (false, dest', s')) :
    ∃ e, .error e ∈ answers ReadResult.interrupted s.script.reads := by
  rw [readRow] at h
  split at h
  · cases h
  · cases h
  · rename_i e dest'' reads hloop
    exact ⟨e, error_mem_of_readRowLoop_failed hloop⟩

/-- Behind the last record an error makes `readRow` return false, with the bytes of the
    unfinished record. -/
theorem readRow_unfinished (sys : Platform) (slot : ℕ → UInt8) {s : Session 1} {u : Bytes}
    {e : Errno} {tail : List (ReadResult 1)} (hu : nl ∉ u)
    (hans : answers ReadResult.interrupted s.script.reads = u.map byteRead ++ .error e :: tail) :
    ∃ s', readRow sys slot [] s = .ok (false, u, s') := by
  obtain ⟨rest, hloop⟩ := readRowLoop_unfinished slot [] hu hans
  refine ⟨(s.setReads rest).fail (ascii "Failed to read row: " ++ sys.strerror e), ?_⟩
  rw [readRow, hloop]
  rfl

/-- Reads without interruptions that deliver a stream. -/
def plainReads (stream : Bytes) (ending : Ending) (n : ℕ) : List (ReadResult 1) :=
  stream.map byteRead ++ List.replicate n ending.answer

theorem answers_plainReads (stream : Bytes) (ending : Ending) (n : ℕ) :
    answers ReadResult.interrupted (plainReads stream ending n) =
      plainReads stream ending n := by
  refine List.filter_eq_self.mpr fun r hr => ?_
  rcases List.mem_append.mp hr with hr | hr
  · obtain ⟨b, -, rfl⟩ := List.mem_map.mp hr
    rfl
  · rw [List.eq_of_mem_replicate hr]
    cases ending with
    | closed => rfl
    | failed e he => simp [Ending.answer, ReadResult.interrupted, he]

/-- On a closed stream no call returns false, however often the end shows. -/
theorem readRow_ne_false_of_closed {sys : Platform} {slot : ℕ → UInt8} {s : Session 1}
    {u : Bytes} {n : ℕ}
    (hans : answers ReadResult.interrupted s.script.reads =
      u.map byteRead ++ List.replicate n Ending.closed.answer) (dest dest' : Bytes)
    (s' : Session 1) : readRow sys slot dest s ≠ .ok (false, dest', s') := by
  intro h
  obtain ⟨e, he⟩ := error_mem_of_readRow_false h
  rw [hans] at he
  rcases List.mem_append.mp he with hbyte | hend
  · obtain ⟨b, -, hb⟩ := List.mem_map.mp hbyte
    cases hb
  · cases List.eq_of_mem_replicate hend

/-- A closed stream is never framed: deliver it without interruptions, and its end as often
    as is asked for. -/
theorem not_framesRows_closed (sys : Platform) (slots : ℕ → ℕ → UInt8) (stream : Bytes) :
    ¬ FramesRows sys slots stream .closed := by
  intro hframes
  obtain ⟨enough, hends⟩ := hframes.ends
  let s : Session 1 :=
    ⟨Connection.new [] 0 [] [] 0, ⟨.ok 0, .ok (), [], plainReads stream .closed enough⟩, []⟩
  have hs : Delivers stream .closed enough s := answers_plainReads stream .closed enough
  obtain ⟨s', hrows, hleft⟩ := readRows_of_delivers sys slots (le_refl _) hs
  rw [List.take_length] at hrows
  rw [List.drop_length] at hleft
  obtain ⟨dest, s'', hrow⟩ := hends enough (le_refl _) s s' hs hrows
  exact readRow_ne_false_of_closed hleft _ _ _ hrow

/-- **The end of the stream is not noticed.** Rows are framed as they should be exactly on
    streams that end with an error. -/
theorem rows_framed_iff (sys : Platform) (slots : ℕ → ℕ → UInt8) (stream : Bytes)
    (ending : Ending) :
    FramesRows sys slots stream ending ↔ ending ≠ .closed := by
  constructor
  · intro hframes hclosed
    subst hclosed
    exact not_framesRows_closed sys slots stream hframes
  · intro hne
    refine ⟨fun k hk n s hs => ?_, 1, fun n hn s s' hs hrows => ?_⟩
    · obtain ⟨s', hrows, -⟩ := readRows_of_delivers sys slots hk hs
      exact ⟨s', hrows⟩
    · -- all records taken, the unfinished one and the error are left
      obtain ⟨s₁, hrows₁, hleft⟩ :=
        readRows_of_delivers sys slots (le_refl _) hs
      rw [List.take_length, hrows] at hrows₁
      cases hrows₁
      rw [List.drop_length] at hleft
      cases ending with
      | closed => exact absurd rfl hne
      | failed e he =>
        obtain ⟨m, rfl⟩ : ∃ m, n = m + 1 := ⟨n - 1, by omega⟩
        have hlast : answers ReadResult.interrupted s'.script.reads =
            (unfinished nl stream).map byteRead ++
              .error e :: List.replicate m (.error e) := hleft
        obtain ⟨s'', hrow⟩ := readRow_unfinished sys _ (delim_not_mem nl stream).2 hlast
        exact ⟨_, s'', hrow⟩

/-- A server that closes the connection without a word is never reported. -/
theorem closed_stream_not_reported : ¬ FramesRows examplePlatform (fun _ _ => 0) [] .closed :=
  not_framesRows_closed examplePlatform (fun _ _ => 0) []

end MaxScaleSystemTest.Cdc
