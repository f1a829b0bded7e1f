import MaxScaleSystemTest.Cdc.Connection

namespace MaxScaleSystemTest.Cdc

open CString SystemCalls

/-!
# The handshakes and the segmentation of the reply

`doAuth` and `doRegistration` read once and compare the front of the buffer with
`OK_RESPONSE`, however many bytes that read has delivered.  What they ought to depend on
is the server's response, `serverResponse`, and not how the socket splits it.

* `handshake_segmentation_iff` — they do so exactly when the first read that answers is
  long enough to decide and, where it fills the buffer, is no refusal;
* `split_approval_misjudged` — an approval in two pieces, and a refusal of exactly 1024
  bytes.
-/

/-- The server's response to the request of a handshake: what the socket delivers up to
    the end of the stream or an error, nothing when the request did not go out. -/
def serverResponse (s : Session READBUF_SIZE) : Bytes :=
  match s.firstWrite with
  | some (.accepted _) => received s.script.reads
  | _ => []

/-- A handshake, by the contents of the stack under its buffer. -/
abbrev HandshakeCall := Buffer READBUF_SIZE → Except Halt (Bool × Session READBUF_SIZE)

/-- The call came back and reports success. -/
def Approves (r : Except Halt (Bool × Session READBUF_SIZE)) : Prop := ∃ s', r = .ok (true, s')

/-- What a handshake promises of a response that may come in any number of pieces. -/
structure SegmentationFree (call : HandshakeCall) (response : Bytes) : Prop where
  /-- Success says that the response begins with `OK_RESPONSE`. -/
  decides : ∀ stack, Approves (call stack) ↔ OK_RESPONSE <+: response
  /-- Bytes that were not received have no influence. -/
  received_only : ∀ stack stack', call stack = call stack'
  /-- No byte is written outside the buffer. -/
  in_bounds : ∀ stack, call stack ≠ .error .outOfBounds

/-- If the request goes out and a read answers it, the bytes of that one read are not a
    proper prefix of `OK_RESPONSE` (the empty read at the end of the stream is one), and
    begin with it where they fill the buffer. -/
def FirstReadDecides (s : Session READBUF_SIZE) : Prop :=
  ∀ n bs hbs, s.firstWrite = some (.accepted n) → s.firstRead = some (.data bs hbs) →
    (bs <+: OK_RESPONSE → bs = OK_RESPONSE) ∧
      (bs.length = READBUF_SIZE → OK_RESPONSE <+: bs)

/-! ### Two stacks under a short answer -/

/-- A stack left over from an earlier approved handshake. -/
def staleStack : Buffer READBUF_SIZE := (Buffer.zero READBUF_SIZE).fill OK_RESPONSE (by decide)

/-- On the stale stack a short read of the front of `OK_RESPONSE` looks like all of it. -/
theorem ok_prefix_fill_staleStack {bs : Bytes} (hpre : bs <+: OK_RESPONSE)
    (hbs : bs.length ≤ READBUF_SIZE) : OK_RESPONSE <+: (staleStack.fill bs hbs).bytes := by
  obtain ⟨rest, hrest⟩ := hpre
  show OK_RESPONSE <+: bs ++ (OK_RESPONSE ++ _).drop bs.length
  rw [← hrest, List.append_assoc bs rest, List.drop_left, ← List.append_assoc]
  exact List.prefix_append ..

/-- On a stack of zeros it does not. -/
theorem not_ok_prefix_fill_zero {bs : Bytes} (hpre : bs <+: OK_RESPONSE) (hne : bs ≠ OK_RESPONSE)
    (hbs : bs.length ≤ READBUF_SIZE) :
    ¬ OK_RESPONSE <+: ((Buffer.zero READBUF_SIZE).fill bs hbs).bytes := by
  intro hok
  obtain ⟨rest, hrest⟩ := hpre
  have hok : OK_RESPONSE <+: bs ++ (List.replicate READBUF_SIZE 0).drop bs.length := hok
  rw [← hrest, List.prefix_append_right_inj, List.drop_replicate] at hok
  cases rest with
  | nil => exact hne (by simpa using hrest)
  | cons c rest =>
    -- the byte behind `bs` would be a zero of the stack
    have hzero : c = 0 := List.eq_of_mem_replicate (hok.subset (List.mem_cons_self ..))
    have hmem : (0 : UInt8) ∈ OK_RESPONSE := by rw [← hrest, hzero]; simp
    exact absurd hmem (by decide)

/-! ### When the first read decides -/

section Handshake

variable {sys : Platform} {msg writeFailed readFailed refused : Bytes} {s : Session READBUF_SIZE}

/-- Without an answer there is no response and no success. -/
theorem segmentationFree_of_unanswered
    (h : ∀ n bs hbs, s.firstWrite = some (.accepted n) → s.firstRead ≠ some (.data bs hbs)) :
    SegmentationFree (fun stack => handshake sys msg writeFailed readFailed refused stack s)
      (serverResponse s) := by
  obtain ⟨r, hcall, hr⟩ := handshake_of_unanswered sys msg writeFailed
    readFailed refused h
  have hresponse : serverResponse s = [] := by
    unfold serverResponse
    split
    · rename_i n hw
      exact received_eq_nil fun bs hbs => h n bs hbs hw
    · rfl
  -- the handshake blocks or returns false
  have hnot : ¬ Approves r := by
    rintro ⟨s', hs'⟩
    rcases hr with rfl | ⟨s'', rfl⟩ <;> cases hs'
  refine ⟨fun stack => ?_, fun stack stack' => ?_, fun stack => ?_⟩
  · show Approves (handshake ..) ↔ _
    rw [hcall, hresponse]
    exact ⟨fun h => absurd h hnot, fun h => absurd h (by decide)⟩
  · show handshake .. = handshake ..
    rw [hcall, hcall]
  · show handshake .. ≠ _
    rw [hcall]
    rcases hr with rfl | ⟨s'', rfl⟩ <;> exact fun h => by cases h

/-- The first answer is the front of the response. -/
theorem prefix_serverResponse {n : ℕ} {bs : Bytes} {hbs : bs.length ≤ READBUF_SIZE}
    (hw : s.firstWrite = some (.accepted n)) (hr : s.firstRead = some (.data bs hbs)) :
    bs <+: serverResponse s := by
  have hreceived : serverResponse s = received s.script.reads := by rw [serverResponse, hw]
  rw [hreceived]
  exact prefix_received hr

/-- A list that `bs` begins, begins with `OK_RESPONSE` exactly when `bs` does, unless `bs`
    is too short to tell. -/
theorem ok_prefix_iff {bs l : Bytes} (hlong : bs <+: OK_RESPONSE → bs = OK_RESPONSE)
    (hl : bs <+: l) : OK_RESPONSE <+: l ↔ OK_RESPONSE <+: bs := by
  refine ⟨fun hok => ?_, fun hok => hok.trans hl⟩
  rcases List.prefix_or_prefix_of_prefix hok hl with hpre | hpre
  · exact hpre
  · have hsame : bs = OK_RESPONSE := hlong hpre
    subst hsame
    exact List.prefix_refl _

/-- An answer that decides, and does not overflow the buffer, is used as it should be. -/
theorem segmentationFree_of_answered {n : ℕ} {bs : Bytes} {hbs : bs.length ≤ READBUF_SIZE}
    (hw : s.firstWrite = some (.accepted n)) (hr : s.firstRead = some (.data bs hbs))
    (hlong : bs <+: OK_RESPONSE → bs = OK_RESPONSE)
    (hfull : bs.length = READBUF_SIZE → OK_RESPONSE <+: bs) :
    SegmentationFree (fun stack => handshake sys msg writeFailed readFailed refused stack s)
      (serverResponse s) := by
  obtain ⟨writes, reads, hcall⟩ := handshake_of_answered sys msg writeFailed
    readFailed refused hw hr
  have hresponse := ok_prefix_iff hlong (prefix_serverResponse hw hr)
  -- what the stack held behind the answer does not matter
  have hfill : ∀ stack : Buffer READBUF_SIZE,
      (OK_RESPONSE <+: (stack.fill bs hbs).bytes ↔ OK_RESPONSE <+: bs) :=
    fun stack => ok_prefix_iff hlong (List.prefix_append ..)
  refine ⟨fun stack => ?_, fun stack stack' => ?_, fun stack => ?_⟩
  · show Approves (handshake ..) ↔ _
    rw [hcall, hresponse]
    simp only [hfill]
    by_cases hok : OK_RESPONSE <+: bs
    · rw [if_pos hok]
      exact ⟨fun _ => hok, fun _ => ⟨_, rfl⟩⟩
    · have hlt : bs.length ≠ READBUF_SIZE := fun h => hok (hfull h)
      rw [if_neg hok, if_neg hlt]
      refine ⟨fun h => ?_, fun h => absurd h hok⟩
      obtain ⟨s', h⟩ := h
      cases h
  · show handshake .. = handshake ..
    rw [hcall, hcall]
    simp only [hfill]
  · show handshake .. ≠ _
    rw [hcall]
    simp only [hfill]
    by_cases hok : OK_RESPONSE <+: bs
    · rw [if_pos hok]
      exact fun h => by cases h
    · have hlt : bs.length ≠ READBUF_SIZE := fun h => hok (hfull h)
      rw [if_neg hok, if_neg hlt]
      exact fun h => by cases h

/-- What the shared body does, it does exactly when the first read decides. -/
theorem segmentationFree_iff :
    SegmentationFree (fun stack => handshake sys msg writeFailed readFailed refused stack s)
      (serverResponse s) ↔ FirstReadDecides s := by
  constructor
  · intro hfree n bs hbs hw hr
    obtain ⟨writes, reads, hcall⟩ := handshake_of_answered sys msg writeFailed
      readFailed refused hw hr
    constructor
    · intro hpre
      by_contra hne
      -- the stale stack approves, the zero stack does not
      have hsame := hfree.received_only staleStack (Buffer.zero READBUF_SIZE)
      have hstale := ok_prefix_fill_staleStack hpre hbs
      have hzero := not_ok_prefix_fill_zero hpre hne hbs
      simp only [hcall, if_pos hstale, if_neg hzero] at hsame
      split at hsame <;> cases hsame
    · intro hfull
      by_contra hok
      have hin := hfree.in_bounds staleStack
      have hfill : (staleStack.fill bs hbs).bytes = bs := by
        show bs ++ staleStack.bytes.drop bs.length = bs
        rw [List.drop_eq_nil_of_le (by rw [staleStack.length_eq, hfull]), List.append_nil]
      simp only [hcall, hfill, if_neg hok, if_pos hfull] at hin
      exact hin rfl
  · intro hdecides
    by_cases h : ∃ n bs hbs, s.firstWrite = some (.accepted n) ∧ s.firstRead = some (.data bs hbs)
    · obtain ⟨n, bs, hbs, hw, hr⟩ := h
      obtain ⟨hlong, hfull⟩ := hdecides n bs hbs hw hr
      exact segmentationFree_of_answered hw hr hlong hfull
    · apply segmentationFree_of_unanswered
      exact fun n bs hbs hw hr => h ⟨n, bs, hbs, hw, hr⟩

end Handshake

/-- **Neither handshake waits for its whole reply.** Authentication and registration depend
    on the response alone, and stay within their buffer, exactly when the first read that
    answers decides by itself and is not a refusal of the size of the buffer. -/
theorem handshake_segmentation_iff (sys : Platform) (s : Session READBUF_SIZE) :
    (SegmentationFree (fun stack => doAuth sys stack s) (serverResponse s) ↔
      FirstReadDecides s) ∧
    (SegmentationFree (fun stack => doRegistration sys stack s) (serverResponse s) ↔
      FirstReadDecides s) :=
  ⟨segmentationFree_iff, segmentationFree_iff⟩

/-- An object that has just connected, for given results of its `read`s. -/
def connected (reads : List (ReadResult READBUF_SIZE)) : Session READBUF_SIZE where
  conn := { Connection.new (ascii "192.168.122.104") 4001 (ascii "skysql") (ascii "skysql")
              CDC_REQUEST_TYPE_JSON with fd := 5 }
  script := ⟨.ok 5, .ok (), [.accepted 54], reads⟩
  events := [.opened 5]

/-- The reply `OK` and a newline, in two pieces. -/
def splitApproval : Session READBUF_SIZE :=
  connected [.data (ascii "O") (by decide), .data (ascii "K\n") (by decide)]

/-- A refusal of exactly 1024 bytes. -/
def fullRefusal : Session READBUF_SIZE :=
  connected [.data (List.replicate READBUF_SIZE 69) List.length_replicate.le]

/-- The split approval depends on the stack, and the refusal overflows the buffer. -/
theorem split_approval_misjudged :
    serverResponse splitApproval = OK_RESPONSE ∧
    ¬ SegmentationFree (fun stack => doAuth examplePlatform stack splitApproval)
      (serverResponse splitApproval) ∧
    ¬ SegmentationFree (fun stack => doRegistration examplePlatform stack fullRefusal)
      (serverResponse fullRefusal) := by
  refine ⟨by decide, fun h => ?_, fun h => ?_⟩
  · have hfirst := (segmentationFree_iff.mp h 54 (ascii "O") (by decide) (by decide) rfl).1
    exact absurd (hfirst (by decide)) (by decide)
  · have hfull := (segmentationFree_iff.mp h 54 _ List.length_replicate.le (by decide) rfl).2
    have hok : OK_RESPONSE <+: List.replicate READBUF_SIZE 69 := hfull List.length_replicate
    have hmem : ∀ c ∈ OK_RESPONSE, c = 69 := fun c hc => List.eq_of_mem_replicate (hok.subset hc)
    exact absurd hmem (by decide)

end MaxScaleSystemTest.Cdc
