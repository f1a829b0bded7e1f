import MaxScaleSystemTest.Lib.Buffer
import MaxScaleSystemTest.Lib.Fgets
import MaxScaleSystemTest.Lib.Growing
import MaxScaleSystemTest.Lib.Runs
import MaxScaleSystemTest.Maxadmin.Param

namespace MaxScaleSystemTest.Output

open CString Growing Runs

/-!
# The output of a command

Four functions read in pieces: into a buffer on the stack, from there with `strcat` behind what
they have, in a block that grows before every piece.  With `fgets` it grows by the size of the
buffer, with `recv` by the length of the piece.

* `fgetsStep_keeps`, `recvStep_keeps` — one piece;
* `fgetsLoop_keeps`, `recvLoop_keeps` — all of them;
* `output_accumulates` — what the functions return, and that it always fits;
* `sshMaxscaleOutput_refines` — `ssh_maxscale_output` with its block makes of a whole output what
  `Maxadmin.sshMaxscaleOutput` does without one.

Allocations are taken to succeed.
-/

/-! ### The functions -/

/-- The buffer on the stack, and the block with the result. -/
structure Loop (size : ℕ) where
  buffer : Buffer size
  held : Growth

/-- The string in the block. -/
def Loop.string {size : ℕ} (st : Loop size) : Bytes := cut st.held.mem

/-- What `pclose` returns: `WIFEXITED` with a status, or not. -/
inductive Closed where
  | exited (status : ℤ)
  | killed

/-- The exit code that `ssh_node_output` stores. -/
def Closed.exitCode : Closed → ℤ
  | .exited status => status
  | .killed => 256

/-- What `execute_cmd` returns. -/
def Closed.returned : Closed → ℤ
  | .exited status => status
  | .killed => -1

/-- What `popen` gives: a null pointer, or a pipe whose output `fgets` reads in these pieces. -/
inductive Pipe where
  | failed
  | opened (chunks : List Bytes) (closed : Closed)

/-- `BUFSIZ` of the C library. -/
def bufsiz : ℕ := 8192

section

variable (junk : ℕ → ℕ → UInt8)

/-- `fgets(buffer, size, output)` has read a piece, and the loop appends it: `none` when
    something is written outside the buffer or the block. -/
def fgetsStep (size : ℕ) (st : Loop size) (chunk : Bytes) : Option (Loop size) :=
  if h : chunk.length ≤ size then do
    let buffer ← (st.buffer.fill chunk h).set? chunk.length 0
    let held ← grow junk size buffer.cstring st.held
    return ⟨buffer, held⟩
  else none

/-- `while (fgets(buffer, sizeof(buffer), output))`, from the `calloc` on. -/
def fgetsLoop (size : ℕ) (buffer : Buffer size) (chunks : List Bytes) : Option (Loop size) :=
  tryRun (fgetsStep junk size) ⟨buffer, ⟨calloc size, size⟩⟩ chunks

/-- `ssh_maxscale_output`; `some none` is the null pointer. -/
def sshMaxscaleOutput (messageLen : ℤ) (buffer : Buffer 1024) (pipe : Pipe) :
    Option (Option Bytes) :=
  if messageLen < 0 then some none
  else
    match pipe with
    | .failed => some none
    | .opened chunks _ => do
      let st ← fgetsLoop junk 1024 buffer chunks
      return some st.string

/-- `ssh_node_output`, with what `exit_code` points to. -/
def sshNodeOutput (buffer : Buffer 1024) (pipe : Pipe) (exitCode : ℤ) :
    Option (Option Bytes × ℤ) :=
  match pipe with
  | .failed => some (none, exitCode)
  | .opened chunks closed => do
    let st ← fgetsLoop junk 1024 buffer chunks
    return (some st.string, closed.exitCode)

/-- `execute_cmd`: what it returns, and what `res` points to. -/
def executeCmd (buffer : Buffer 10240) (pipe : Pipe) (res : Option Bytes) :
    Option (ℤ × Option Bytes) :=
  match pipe with
  | .failed => some (-1, res)
  | .opened chunks closed => do
    let st ← fgetsLoop junk 10240 buffer chunks
    return (closed.returned, some st.string)

/-- `recv(sock, buf, BUFSIZ, ...)` has read a piece, and the loop appends it and clears the
    buffer.  There is no NUL behind the piece but the one that was there before. -/
def recvStep (st : Loop (bufsiz + 1)) (chunk : Bytes) : Option (Loop (bufsiz + 1)) :=
  if h : chunk.length ≤ bufsiz then do
    let buf := st.buffer.fill chunk (Nat.le_succ_of_le h)
    let held ← if 0 ∈ buf.bytes then grow junk chunk.length buf.cstring st.held else none
    return ⟨buf.fill (List.replicate chunk.length 0) (by simpa using Nat.le_succ_of_le h), held⟩
  else none

/-- The loop of `read_sc` and `get_maxinfo`, from the first `memset` on: the block has one byte
    less than `rsize`. -/
def recvLoop (chunks : List Bytes) : Option (Loop (bufsiz + 1)) :=
  tryRun (recvStep junk) ⟨.zero _, ⟨calloc bufsiz, bufsiz + 1⟩⟩ chunks

/-- `read_sc`. -/
def readSc (chunks : List Bytes) : Option Bytes := (recvLoop junk chunks).map Loop.string

/-- The end of `get_maxinfo`, where the page has been read: the result, `none` for a null pointer,
    and the text of `add_result` if there is one. -/
def pageContent (result : Bytes) : Option Bytes × Option Bytes :=
  match strstr result (ascii "[") with
  | none => (none, some (ascii "Content not found\n"))
  | some content => (some content, none)

/-- `get_maxinfo` once the query has been sent; `last` is what the last `recv` returns. -/
def getMaxinfo (chunks : List Bytes) (last : ℤ) : Option (Option Bytes × Option Bytes) := do
  let st ← recvLoop junk chunks
  if last < 0 then return (none, some (ascii "Error receiving data\n"))
  else return pageContent st.string

end

/-! ### What the functions should do -/

/-- An output without NULs, and how it is read in pieces into a buffer, where each of them is
    followed by a NUL. -/
structure Chunked (size : ℕ) where
  chunks : List Bytes
  ne_nil : ∀ chunk ∈ chunks, chunk ≠ []
  nulFree : ∀ chunk ∈ chunks, 0 ∉ chunk
  length_lt : ∀ chunk ∈ chunks, chunk.length < size

/-- The whole output. -/
def Chunked.text {size : ℕ} (out : Chunked size) : Bytes := out.chunks.flatten

/-- After each piece the block holds the pieces so far, and they fit with a NUL in what has been
    allocated. -/
def FitsAtEachStep {size : ℕ} (loop : List Bytes → Option (Loop size)) (chunks : List Bytes) :
    Prop :=
  ∀ front, front <+: chunks → ∃ st, loop front = some st ∧ st.string = front.flatten ∧
    front.flatten.length + 1 ≤ st.held.mem.length

/-! ### One piece -/

section

variable {junk : ℕ → ℕ → UInt8} {size : ℕ} {text chunk : Bytes}

/-- `calloc` gives the empty string. -/
theorem holds_calloc {rsize : ℕ} (hpos : 0 < size) (hle : size ≤ rsize) :
    Holds [] ⟨calloc size, rsize⟩ := by
  obtain ⟨n, rfl⟩ := Nat.exists_eq_add_one_of_ne_zero (Nat.ne_of_gt hpos)
  refine ⟨List.mem_replicate.mpr ⟨Nat.succ_ne_zero n, rfl⟩, rfl, ?_, ?_⟩
  · exact Nat.le_trans (Nat.le_add_left 1 n) hle
  · rwa [calloc, List.length_replicate]

theorem length_cut_le (s : Bytes) : (cut s).length ≤ s.length := (List.takeWhile_prefix _).length_le

/-- A piece from `fgets` is put behind the text. -/
theorem fgetsStep_keeps {st : Loop size} (h : Holds text st.held) (hlt : chunk.length < size) :
    ∃ st', fgetsStep junk size st chunk = some st' ∧ Holds (text ++ cut chunk) st'.held := by
  obtain ⟨buffer, hset, hstring⟩ := st.buffer.cstring_fill_set? hlt.le hlt
  have hcut : buffer.cstring = cut chunk := hstring
  have hle : (cut chunk).length ≤ size := (length_cut_le chunk).trans hlt.le
  obtain ⟨held, hgrow, hheld, -⟩ := grow_holds junk h (not_mem_cut chunk) hle
  refine ⟨⟨buffer, held⟩, ?_, hheld⟩
  rw [fgetsStep, dif_pos hlt.le, hset]
  simp only [Option.bind_eq_bind, Option.bind_some, hcut, hgrow]
  rfl

/-- A piece from `recv` is put behind the text, as the buffer has been cleared; and it is cleared
    again. -/
theorem recvStep_keeps {st : Loop (bufsiz + 1)} (h : Holds text st.held)
    (hzero : st.buffer.bytes = List.replicate (bufsiz + 1) 0) (hle : chunk.length ≤ bufsiz) :
    ∃ st', recvStep junk st chunk = some st' ∧ Holds (text ++ cut chunk) st'.held ∧
      st'.buffer.bytes = List.replicate (bufsiz + 1) 0 := by
  have hroom : bufsiz + 1 - chunk.length = bufsiz - chunk.length + 1 := by omega
  have hbytes : (st.buffer.fill chunk (Nat.le_succ_of_le hle)).bytes
      = chunk ++ 0 :: List.replicate (bufsiz - chunk.length) 0 := by
    show chunk ++ st.buffer.bytes.drop chunk.length = _
    rw [hzero, List.drop_replicate, hroom, List.replicate_succ]
  have hcut : (st.buffer.fill chunk (Nat.le_succ_of_le hle)).cstring = cut chunk := by
    show cut (st.buffer.fill chunk (Nat.le_succ_of_le hle)).bytes = _
    rw [hbytes, cut_append_zero]
  have hterm : 0 ∈ (st.buffer.fill chunk (Nat.le_succ_of_le hle)).bytes := by
    rw [hbytes]
    exact List.mem_append_right _ List.mem_cons_self
  obtain ⟨held, hgrow, hheld, -⟩ :=
    grow_holds junk h (not_mem_cut chunk) (length_cut_le chunk)
  refine ⟨⟨(st.buffer.fill chunk (Nat.le_succ_of_le hle)).fill (List.replicate chunk.length 0)
    (by simpa using Nat.le_succ_of_le hle), held⟩, ?_, hheld, ?_⟩
  · rw [recvStep, dif_pos hle]
    simp only [if_pos hterm, hcut, hgrow]
    rfl
  · show List.replicate chunk.length 0 ++ List.drop (List.replicate chunk.length 0).length
      (st.buffer.fill chunk (Nat.le_succ_of_le hle)).bytes = _
    rw [hbytes, List.length_replicate, List.drop_left, ← List.replicate_succ, ← hroom,
      List.replicate_append_replicate]
    congr 1
    omega

/-! ### All pieces -/

/-- The text of some pieces, of which each ends at its first NUL. -/
def textOf (chunks : List Bytes) : Bytes := (chunks.map cut).flatten

theorem textOf_append_singleton (chunks : List Bytes) (chunk : Bytes) :
    textOf (chunks ++ [chunk]) = textOf chunks ++ cut chunk := by
  simp [textOf]

/-- Without NULs it is what has been read. -/
theorem textOf_eq_flatten {chunks : List Bytes} (h : ∀ chunk ∈ chunks, 0 ∉ chunk) :
    textOf chunks = chunks.flatten := by
  have hcut : chunks.map cut = chunks := by
    rw [List.map_congr_left fun chunk hchunk => cut_of_not_mem (h chunk hchunk)]
    exact List.map_id chunks
  rw [textOf, hcut]

/-- **`fgets`.** Whatever is read, the block holds it. -/
theorem fgetsLoop_keeps (junk : ℕ → ℕ → UInt8) (buffer : Buffer size) {chunks : List Bytes} (hpos : 0 < size)
    (hlt : ∀ chunk ∈ chunks, chunk.length < size) :
    ∃ st, fgetsLoop junk size buffer chunks = some st ∧ Holds (textOf chunks) st.held := by
  have hstep : ∀ before (st : Loop size) chunk, Holds (textOf before) st.held →
      chunk.length < size → ∃ st', fgetsStep junk size st chunk = some st' ∧
        Holds (textOf (before ++ [chunk])) st'.held := by
    intro before st chunk h hlt
    rw [textOf_append_singleton]
    exact fgetsStep_keeps h hlt
  have hstart : Holds (textOf []) ⟨calloc size, size⟩ := holds_calloc hpos (Nat.le_refl size)
  exact tryRun_keeps hstep hstart hlt

/-- **`recv`.** Whatever is received, the block holds it. -/
theorem recvLoop_keeps {chunks : List Bytes} (hle : ∀ chunk ∈ chunks, chunk.length ≤ bufsiz) :
    ∃ st, recvLoop junk chunks = some st ∧ Holds (textOf chunks) st.held := by
  have hstep : ∀ before (st : Loop (bufsiz + 1)) chunk,
      Holds (textOf before) st.held ∧ st.buffer.bytes = List.replicate (bufsiz + 1) 0 →
      chunk.length ≤ bufsiz → ∃ st', recvStep junk st chunk = some st' ∧
        Holds (textOf (before ++ [chunk])) st'.held ∧
        st'.buffer.bytes = List.replicate (bufsiz + 1) 0 := by
    intro before st chunk ⟨h, hzero⟩ hle
    rw [textOf_append_singleton]
    exact recvStep_keeps h hzero hle
  have hstart : Holds (textOf []) ⟨calloc bufsiz, bufsiz + 1⟩ :=
    holds_calloc (by decide) (Nat.le_succ bufsiz)
  obtain ⟨st, hrun, hheld, -⟩ :=
    tryRun_keeps hstep (s := ⟨.zero _, ⟨calloc bufsiz, bufsiz + 1⟩⟩) ⟨hstart, rfl⟩ hle
  exact ⟨st, hrun, hheld⟩

/-- A loop that holds what it has read, whatever that is, always has room for it. -/
theorem fitsAtEachStep (loop : List Bytes → Option (Loop size)) (out : Chunked size)
    (hloop : ∀ chunks : List Bytes, (∀ chunk ∈ chunks, chunk.length < size) →
      ∃ st, loop chunks = some st ∧ Holds (textOf chunks) st.held) :
    FitsAtEachStep loop out.chunks := by
  intro front hfront
  have hsub : ∀ chunk ∈ front, chunk ∈ out.chunks := fun _ hchunk => hfront.subset hchunk
  obtain ⟨st, hrun, hheld⟩ :=
    hloop front fun chunk hchunk => out.length_lt chunk (hsub chunk hchunk)
  rw [textOf_eq_flatten fun chunk hchunk => out.nulFree chunk (hsub chunk hchunk)] at hheld
  refine ⟨st, hrun, hheld.cut_eq, ?_⟩
  rw [← hheld.cut_eq]
  exact length_cut_lt hheld.terminated

/-- The string at the end is the whole output. -/
theorem FitsAtEachStep.whole {loop : List Bytes → Option (Loop size)} {out : Chunked size}
    (h : FitsAtEachStep loop out.chunks) :
    ∃ st, loop out.chunks = some st ∧ st.string = out.text := by
  obtain ⟨st, hrun, hstring, -⟩ := h out.chunks (List.prefix_refl _)
  exact ⟨st, hrun, hstring⟩

end

/-! ### The four functions -/

/-- **Accumulation.** Each function returns the concatenation of the pieces, and after every
    piece they fit, with their NUL, in what has been allocated.  `get_maxinfo` goes on to take
    what there is from the first bracket on. -/
theorem output_accumulates (junk : ℕ → ℕ → UInt8) :
    (∀ (buffer : Buffer 1024) (out : Chunked 1024) (closed : Closed),
      FitsAtEachStep (fgetsLoop junk 1024 buffer) out.chunks ∧
      (∀ messageLen : ℕ, sshMaxscaleOutput junk messageLen buffer (.opened out.chunks closed)
        = some (some out.text)) ∧
      (∀ exitCode, sshNodeOutput junk buffer (.opened out.chunks closed) exitCode
        = some (some out.text, closed.exitCode))) ∧
    (∀ (buffer : Buffer 10240) (out : Chunked 10240) (closed : Closed),
      FitsAtEachStep (fgetsLoop junk 10240 buffer) out.chunks ∧
      ∀ res, executeCmd junk buffer (.opened out.chunks closed) res
        = some (closed.returned, some out.text)) ∧
    (∀ out : Chunked (bufsiz + 1),
      FitsAtEachStep (recvLoop junk) out.chunks ∧
      readSc junk out.chunks = some out.text ∧
      getMaxinfo junk out.chunks 0 = some (pageContent out.text)) := by
  refine ⟨fun buffer out closed => ?_, fun buffer out closed => ?_, fun out => ?_⟩
  · have hfits := fitsAtEachStep (fgetsLoop junk 1024 buffer) out fun _ =>
      fgetsLoop_keeps junk buffer (by decide)
    obtain ⟨st, hrun, hstring⟩ := hfits.whole
    refine ⟨hfits, fun messageLen => ?_, fun exitCode => ?_⟩
    · rw [sshMaxscaleOutput, if_neg (by omega)]
      simp only [hrun, Option.bind_eq_bind, Option.bind_some, Option.pure_def, hstring]
    · simp only [sshNodeOutput, hrun, Option.bind_eq_bind, Option.bind_some, Option.pure_def,
        hstring]
  · have hfits := fitsAtEachStep (fgetsLoop junk 10240 buffer) out fun _ =>
      fgetsLoop_keeps junk buffer (by decide)
    obtain ⟨st, hrun, hstring⟩ := hfits.whole
    refine ⟨hfits, fun res => ?_⟩
    simp only [executeCmd, hrun, Option.bind_eq_bind, Option.bind_some, Option.pure_def, hstring]
  · have hfits := fitsAtEachStep (recvLoop junk) out fun _ hlt =>
      recvLoop_keeps fun chunk hchunk => Nat.le_of_lt_succ (hlt chunk hchunk)
    obtain ⟨st, hrun, hstring⟩ := hfits.whole
    refine ⟨hfits, ?_, ?_⟩
    · rw [readSc, hrun, Option.map_some, hstring]
    · simp only [getMaxinfo, hrun, Option.bind_eq_bind, Option.bind_some, hstring]
      rfl

/-! ### A whole output -/

/-- `Maxadmin.fgets` is the same call. -/
theorem fgets_eq (s : Bytes) :
    Maxadmin.fgets s = ((Fgets.read nl 1023 s).text, (Fgets.read nl 1023 s).rest) := by
  obtain ⟨htext, hrest⟩ := Fgets.read_eq_take nl 1023 s
  rw [htext, hrest]
  rfl

theorem outputLoop_eq (fuel : ℕ) (s : Bytes) :
    Maxadmin.outputLoop fuel s = textOf (Fgets.pieces nl 1023 fuel s) := by
  induction fuel generalizing s with
  | zero => rfl
  | succ fuel ih =>
    rw [Maxadmin.outputLoop, Fgets.pieces]
    split
    · rfl
    · rw [ih, fgets_eq]
      rfl

/-- **Refinement.** Of any output, with NULs or without, the loop with the buffer and the block makes
    the string that is put together from its pieces. -/
theorem sshMaxscaleOutput_refines (junk : ℕ → ℕ → UInt8) (messageLen : ℕ) (buffer : Buffer 1024)
    (printed : Bytes) (closed : Closed) :
    sshMaxscaleOutput junk messageLen buffer
        (.opened (Fgets.pieces nl 1023 printed.length printed) closed)
      = some (some (Maxadmin.sshMaxscaleOutput printed)) := by
  have hlt : ∀ chunk ∈ Fgets.pieces nl 1023 printed.length printed, chunk.length < 1024 :=
    fun chunk hchunk => Nat.lt_succ_of_le (Fgets.length_of_mem_pieces hchunk)
  obtain ⟨st, hrun, hheld⟩ := fgetsLoop_keeps junk buffer (by decide) hlt
  have hstring : st.string = Maxadmin.sshMaxscaleOutput printed :=
    hheld.cut_eq.trans (outputLoop_eq printed.length printed).symm
  rw [sshMaxscaleOutput, if_neg (by omega)]
  simp only [hrun, Option.bind_eq_bind, Option.bind_some, Option.pure_def, hstring]

end MaxScaleSystemTest.Output
