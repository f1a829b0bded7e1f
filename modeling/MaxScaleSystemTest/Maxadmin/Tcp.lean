import MaxScaleSystemTest.Lib.Scan
import MaxScaleSystemTest.Maxadmin.Replies

namespace MaxScaleSystemTest.Maxadmin

open CString SystemCalls InputLoop

/-!
# Searching the replies of MaxAdmin

`get_maxadmin_param_tcp` has `sendCommand` write a reply into a buffer on its stack, looks for
a parameter in it and copies the rest of the line.  `sendCommand` does not know the size of
the buffer and writes no NUL behind the reply.

* `response` — what is stored of a reply, told from what the `read`s return;
* `run_response` — the decoder stores it, or leaves the buffer;
* `tcp_safe_iff` — which replies are stored and searched within bounds.
-/

/-! ### The caller -/

/-- The loop that copies the value, which starts behind the parameter: where it ends. -/
def valueEnd (mem : Bytes) (start : ℕ) : Option ℕ := Scan.forward (fun c => c = nl) mem start

/-- Where the value of the parameter starts, which `strstr` has found in the text of `mem`. -/
def valueStart (mem param found : Bytes) : ℕ := (cut mem).length - found.length + param.length

/-- `get_maxadmin_param_tcp` behind its `sendCommand`, which has left `mem` in the buffer: the
    return value and what is written to `result`; `none` when a pointer leaves the buffer. -/
def getMaxadminParamTcp (mem param : Bytes) : Option (ℤ × Bytes) :=
  -- a text without a NUL behind it is no string for `strstr`
  if 0 ∈ mem then
    match strstr (cut mem) param with
    | none => some (1, [])
    | some found => do
      let start := valueStart mem param found
      let stop ← valueEnd mem start
      return (0, (mem.drop start).take (stop - start))
  else none

example : getMaxadminParamTcp (ascii "Status: Running\nOK" ++ [0]) (ascii "Status:") =
    some (0, ascii " Running") := by decide +kernel

/-! ### What is stored -/

instance (before bs : Bytes) : Decidable (EndsReply before bs) :=
  decidable_of_iff (bs ≠ [] ∧ OK <:+ before ++ bs ∧
      atLineStart ((before ++ bs).take ((before ++ bs).length - OK.length)) = true) <| by
    apply and_congr_right
    intro _
    constructor
    · rintro ⟨⟨q, hq⟩, hstart⟩
      rw [← hq, List.length_append, Nat.add_sub_cancel, List.take_left] at hstart
      exact ⟨q, hq.symm, hstart⟩
    · rintro ⟨q, hq, hstart⟩
      refine ⟨⟨q, hq.symm⟩, ?_⟩
      rwa [hq, List.length_append, Nat.add_sub_cancel, List.take_left]

/-- What `sendCommand` stores of a reply with enough room, and whether it returns, when it has
    read `before` already. -/
def response : (before : Bytes) → List (ReadResult 80) → Bytes × Bool
  | before, [] => (copied before, false)
  | before, .error _ :: _ => (copied before, true)
  | before, .data bs _ :: reads =>
    if bs = [] then (copied before, true)
    else if EndsReply before bs then
      ((before ++ bs).take ((before ++ bs).length - OK.length), true)
    else response (before ++ bs) reads

/-- A reply that ends is stored without its terminator. -/
theorem response_of_endsReply {before bs : Bytes} (h : EndsReply before bs) (hle : bs.length ≤ 80)
    (reads : List (ReadResult 80)) :
    ∃ text, response before (.data bs hle :: reads) = (text, true) ∧ text ++ OK = before ++ bs ∧
      atLineStart text = true := by
  obtain ⟨hne, q, hq, hstart⟩ := h
  refine ⟨q, ?_, hq.symm, hstart⟩
  rw [response, if_neg hne, if_pos ⟨hne, q, hq, hstart⟩, hq, List.length_append,
    Nat.add_sub_cancel, List.take_left]

theorem response_of_goes {before bs : Bytes} (hne : bs ≠ []) (h : ¬ EndsReply before bs)
    (hle : bs.length ≤ 80) (reads : List (ReadResult 80)) :
    response before (.data bs hle :: reads) = response (before ++ bs) reads := by
  rw [response, if_neg hne, if_neg h]

/-- What has been copied of a part of a reply is not more than of the whole. -/
theorem copied_length_mono {front whole : Bytes} (h : front <+: whole) :
    (copied front).length ≤ (copied whole).length := by
  have hle : (copied front).length ≤ front.length := by
    unfold copied
    split <;> simp
  have hlast : whole.length - 1 ≤ (copied whole).length := by
    unfold copied
    split <;> simp
  rcases h.length_le.eq_or_lt with heq | hlt
  · rw [h.eq_of_length heq]
  · omega

/-- What is stored in the end is not less than what has been copied before. -/
theorem copied_le_response (before : Bytes) (reads : List (ReadResult 80)) :
    (copied before).length ≤ (response before reads).1.length := by
  induction reads generalizing before with
  | nil => exact le_refl _
  | cons r reads ih =>
    match r with
    | .error e => exact le_refl _
    | .data bs hle =>
      by_cases hne : bs = []
      · subst hne
        exact le_refl _
      · by_cases hends : EndsReply before bs
        · obtain ⟨text, htext, hsplit, hstart⟩ := response_of_endsReply hends hle reads
          rw [htext]
          apply copied_length_le hstart
          · rw [hsplit]
            exact List.prefix_append before bs
          · rw [hsplit]
            intro hsame
            exact hne (List.append_right_eq_self.mp hsame.symm)
        · rw [response_of_goes hne hends]
          exact (copied_length_mono (List.prefix_append before bs)).trans (ih _)

section

variable {cap : ℕ}

/-- What has been copied has fit. -/
theorem copied_le_cap {d : Decoder cap} {before : Bytes} (hd : Decoded d before) :
    (copied before).length ≤ cap := by
  rw [← hd.front, List.length_take, d.buf.length_eq]
  exact Nat.min_le_right d.k cap

/-- **The whole reply.** `sendCommand` leaves the buffer when what is to be stored does not fit;
    otherwise it returns with the text at the front of the buffer, or reads on. -/
theorem run_response {d : Decoder cap} {before : Bytes} (hd : Decoded d before)
    (reads : List (ReadResult 80)) :
    (cap < (response before reads).1.length ∧
        ∃ rest, run readBody d reads = .ended .outOfBounds rest) ∨
      ((response before reads).1.length ≤ cap ∧ (response before reads).2 = false ∧
        ∃ d', run readBody d reads = .running d') ∨
      ((response before reads).1.length ≤ cap ∧ (response before reads).2 = true ∧
        ∃ rc d' rest, run readBody d reads = .ended (.returned rc d') rest ∧
          d'.k = (response before reads).1.length ∧
          d'.buf.bytes.take d'.k = (response before reads).1) := by
  induction reads generalizing d before with
  | nil => exact .inr (.inl ⟨copied_le_cap hd, rfl, d, rfl⟩)
  | cons r reads ih =>
    match r with
    | .error e => exact .inr (.inr ⟨copied_le_cap hd, rfl, 0, d, reads, rfl, hd.cursor, hd.front⟩)
    | .data [] hle =>
      exact .inr (.inr ⟨copied_le_cap hd, rfl, 0, d, reads, rfl, hd.cursor, hd.front⟩)
    | .data (b :: bs) hle =>
      have hne : b :: bs ≠ [] := List.cons_ne_nil b bs
      have hbody : readBody d (.data (b :: bs) hle) = decodeChunk d (b :: bs) := rfl
      rcases decodeChunk_cases hd (b :: bs) with
        ⟨d', hchunk, hends, hsplit, hk⟩ | ⟨⟨d', hchunk, hd'⟩, hgoes⟩ |
          ⟨hchunk, front, hfront, hcap, hproper⟩
      · -- the piece ends the reply
        obtain ⟨text, htext, hsplit', -⟩ := response_of_endsReply hends hle reads
        have hstored : d'.buf.bytes.take d'.k = text :=
          List.append_cancel_right (hsplit.trans hsplit'.symm)
        rw [hstored] at hk
        have hfits : text.length ≤ cap := by
          rw [← hstored, List.length_take, d'.buf.length_eq]
          exact Nat.min_le_right d'.k cap
        rw [htext]
        exact .inr (.inr ⟨hfits, rfl, 1, d', reads, run_cons_inr (hbody.trans hchunk) reads, hk,
          hstored⟩)
      · -- the piece is decoded
        rw [run_cons_inl (hbody.trans hchunk), response_of_goes hne hgoes]
        exact ih hd'
      · -- the piece does not fit, and what is stored in the end is not less
        refine .inl ⟨hcap.trans_le ?_, reads, run_cons_inr (hbody.trans hchunk) reads⟩
        have hpre : before ++ front <+: before ++ b :: bs :=
          (List.prefix_append_right_inj before).mpr hfront
        by_cases hends : EndsReply before (b :: bs)
        · obtain ⟨text, htext, hsplit, hstart⟩ := response_of_endsReply hends hle reads
          rw [htext]
          apply copied_length_le hstart
          · rw [hsplit]
            exact hpre
          · rw [hsplit]
            intro hsame
            exact hproper ⟨List.append_cancel_left hsame, hends⟩
        · rw [response_of_goes hne hends]
          exact (copied_length_mono hpre).trans (copied_le_response _ _)

/-! ### What is left of the buffer -/

/-- Behind what has been stored the buffer is as it was. -/
structure Keeps (d d' : Decoder cap) : Prop where
  le : d.k ≤ d'.k
  drop_eq : d'.buf.bytes.drop d'.k = d.buf.bytes.drop d'.k

theorem Keeps.refl (d : Decoder cap) : Keeps d d := ⟨le_refl _, rfl⟩

theorem Keeps.trans {d₁ d₂ d₃ : Decoder cap} (h₁ : Keeps d₁ d₂) (h₂ : Keeps d₂ d₃) :
    Keeps d₁ d₃ where
  le := h₁.le.trans h₂.le
  drop_eq := by
    obtain ⟨m, hm⟩ := Nat.exists_eq_add_of_le h₂.le
    calc d₃.buf.bytes.drop d₃.k = (d₂.buf.bytes.drop d₂.k).drop m := by
          rw [h₂.drop_eq, hm, List.drop_drop]
      _ = d₁.buf.bytes.drop d₃.k := by rw [h₁.drop_eq, List.drop_drop, ← hm]

/-- The decoder after a step, when it goes on or returns. -/
def decoderOf : Decoder cap ⊕ CommandEnd cap → Option (Decoder cap)
  | .inl d => some d
  | .inr (.returned _ d) => some d
  | .inr .outOfBounds => none

theorem keeps_of_copy {newline : Newline} {cs : Bytes} {d : Decoder cap} :
    ∀ d' ∈ decoderOf (d.copy newline cs), Keeps d d' := by
  induction cs generalizing d with
  | nil =>
    intro d' hd'
    cases hd'
    exact ⟨le_refl _, rfl⟩
  | cons c cs ih =>
    intro d' hd'
    unfold Decoder.copy Decoder.put at hd'
    cases hset : d.buf.set? d.k c with
    | none =>
      rw [hset] at hd'
      cases hd'
    | some buf =>
      rw [hset] at hd'
      have hput : Keeps d ⟨d.newline, d.k + 1, buf⟩ := by
        refine ⟨Nat.le_succ d.k, ?_⟩
        unfold Buffer.set? at hset
        split at hset
        · cases hset
          exact List.drop_set_of_lt (Nat.lt_succ_self d.k)
        · cases hset
      exact hput.trans (ih d' hd')

theorem keeps_of_decodeByte {d : Decoder cap} {c : UInt8} {last : Bool} :
    ∀ d' ∈ decoderOf (decodeByte d c last), Keeps d d' := by
  intro d' hd'
  unfold decodeByte at hd'
  split at hd'
  · cases hd'
    exact ⟨le_refl _, rfl⟩
  · split at hd'
    · cases hd'
      exact Keeps.refl d
    · split at hd'
      · exact keeps_of_copy d' hd'
      · split at hd'
        · exact keeps_of_copy d' hd'
        · exact keeps_of_copy d' hd'

theorem keeps_of_decodeChunk {d : Decoder cap} {bs : Bytes} :
    ∀ d' ∈ decoderOf (decodeChunk d bs), Keeps d d' := by
  induction bs generalizing d with
  | nil =>
    intro d' hd'
    cases hd'
    exact Keeps.refl d
  | cons c cs ih =>
    intro d' hd'
    unfold decodeChunk at hd'
    cases hbyte : decodeByte d c cs.isEmpty with
    | inl t =>
      rw [hbyte] at hd'
      have ht : Keeps d t := keeps_of_decodeByte t (by rw [hbyte]; rfl)
      exact ht.trans (ih d' hd')
    | inr e =>
      rw [hbyte] at hd'
      exact keeps_of_decodeByte d' (by rw [hbyte]; exact hd')

theorem keeps_of_readBody {d : Decoder cap} {r : ReadResult 80} :
    ∀ d' ∈ decoderOf (readBody d r), Keeps d d' := by
  intro d' hd'
  match r with
  | .error e =>
    cases hd'
    exact Keeps.refl d
  | .data [] hle =>
    cases hd'
    exact Keeps.refl d
  | .data (c :: cs) hle => exact keeps_of_decodeChunk d' hd'

/-- **The rest of the buffer.** `sendCommand` writes to the front of the buffer only. -/
theorem keeps_of_returned {d d' : Decoder cap} {reads rest : List (ReadResult 80)} {rc : ℤ}
    (h : run readBody d reads = .ended (.returned rc d') rest) : Keeps d d' := by
  obtain ⟨taken, x, t, -, htaken, hx⟩ := run_eq_ended_iff.mp h
  have ht : Keeps d t := by
    refine running_history (J := fun _ t => Keeps d t) (Keeps.refl d) ?_ htaken
    intro _ t x t' hkeeps hbody
    exact hkeeps.trans (keeps_of_readBody t' (by rw [hbody]; rfl))
  exact ht.trans (keeps_of_readBody d' (by rw [hx]; rfl))

end

/-! ### Safety -/

/-- `sendCommand` does not leave the buffer; when it has returned, there is a NUL in the buffer,
    and if the parameter is found, its value ends within what has been received. -/
structure TcpSafe (param : Bytes)
    (status : Status (Decoder BUF_SIZE) (ReadResult 80) (CommandEnd BUF_SIZE)) : Prop where
  in_buffer : ∀ rest, status ≠ .ended .outOfBounds rest
  terminated : ∀ rc d rest, status = .ended (.returned rc d) rest → 0 ∈ d.buf.bytes
  in_reply : ∀ rc d rest found, status = .ended (.returned rc d) rest →
    strstr (cut d.buf.bytes) param = some found →
      ∃ stop < d.k, valueEnd d.buf.bytes (valueStart d.buf.bytes param found) = some stop

/-- A reply that is stored and searched within bounds: it fits, and if it is over, it has a NUL
    in it, and a newline behind the parameter if that is found before the NUL. -/
structure SafeReply (param : Bytes) (reads : List (ReadResult 80)) : Prop where
  fits : (response [] reads).1.length ≤ BUF_SIZE
  terminated : (response [] reads).2 = true → 0 ∈ (response [] reads).1
  newline : (response [] reads).2 = true → ∀ found,
    strstr (cut (response [] reads).1) param = some found →
      nl ∈ (response [] reads).1.drop (valueStart (response [] reads).1 param found)

/-- The value ends within a text in front of the memory exactly when there is a newline behind
    its start. -/
theorem valueEnd_iff {text tail : Bytes} {start : ℕ} :
    (∃ stop < text.length, valueEnd (text ++ tail) start = some stop) ↔ nl ∈ text.drop start := by
  constructor
  · rintro ⟨stop, hlt, hstop⟩
    obtain ⟨k, c, rfl, hc, heq⟩ := Scan.forward_eq_some hstop
    obtain rfl : c = nl := by simpa using heq
    rw [List.getElem?_drop, List.getElem?_append_left hlt, ← List.getElem?_drop] at hc
    exact List.mem_of_getElem? hc
  · intro h
    have hlen : start < text.length := by
      by_contra hge
      rw [List.drop_eq_nil_of_le (by omega)] at h
      cases h
    -- the first newline behind the start
    obtain ⟨passed, rest, hsplit, hpassed⟩ := List.eq_append_cons_of_mem h
    have hmem : (text ++ tail).drop start = passed ++ nl :: (rest ++ tail) := by
      rw [List.drop_append_of_le_length hlen.le, hsplit]
      simp
    refine ⟨start + passed.length, ?_, ?_⟩
    · have hcount := congrArg List.length hsplit
      simp only [List.length_drop, List.length_append, List.length_cons] at hcount
      omega
    · apply Scan.forward_of_split hmem
      · intro c hc
        have hne : c ≠ nl := fun heq => hpassed (heq ▸ hc)
        simpa using hne
      · rfl

/-- A buffer without a NUL. -/
def onesBuffer : Buffer BUF_SIZE := ⟨List.replicate BUF_SIZE 1, List.length_replicate⟩

section

variable {param : Bytes} {reads : List (ReadResult 80)}

/-- In a buffer without a NUL only safe replies are stored and searched within bounds. -/
theorem safeReply_of_onesBuffer
    (h : TcpSafe param (run readBody ⟨.yes, 0, onesBuffer⟩ reads)) : SafeReply param reads := by
  rcases run_response (decoded_start onesBuffer) reads with
    ⟨-, rest, hrun⟩ | ⟨hfits, hover, -⟩ | ⟨hfits, -, rc, d, rest, hrun, hk, htext⟩
  · exact absurd hrun (h.in_buffer rest)
  · refine ⟨hfits, fun hover' => ?_, fun hover' => ?_⟩ <;> rw [hover] at hover' <;> cases hover'
  · have hkeeps := (keeps_of_returned hrun).drop_eq
    have hsplit : d.buf.bytes = (response [] reads).1 ++ onesBuffer.bytes.drop d.k := by
      rw [← htext, ← hkeeps, List.take_append_drop]
    have hzero : 0 ∈ (response [] reads).1 := by
      have hmem := h.terminated rc d rest hrun
      rw [hsplit, List.mem_append] at hmem
      rcases hmem with hmem | hmem
      · exact hmem
      · -- the rest of the buffer has no NUL
        have hone := List.eq_of_mem_replicate (List.mem_of_mem_drop hmem)
        cases hone
    refine ⟨hfits, fun _ => hzero, fun _ found hfound => ?_⟩
    have hcut : cut d.buf.bytes = cut (response [] reads).1 := by
      rw [hsplit, cut_append_of_mem hzero]
    rw [← hcut] at hfound
    obtain ⟨stop, hlt, hstop⟩ := h.in_reply rc d rest found hrun hfound
    rw [valueStart, hcut, hsplit] at hstop
    rw [hk] at hlt
    exact valueEnd_iff.mp ⟨stop, hlt, hstop⟩

/-- Safe replies are stored and searched within bounds, whatever the buffer holds. -/
theorem tcpSafe_of_safeReply (h : SafeReply param reads) (buf : Buffer BUF_SIZE) :
    TcpSafe param (run readBody ⟨.yes, 0, buf⟩ reads) := by
  rcases run_response (decoded_start buf) reads with
    ⟨hcap, -⟩ | ⟨-, -, d, hrun⟩ | ⟨-, hover, rc, d, rest, hrun, hk, htext⟩
  · exact absurd h.fits (Nat.not_le.mpr hcap)
  · rw [hrun]
    exact ⟨nofun, nofun, nofun⟩
  · obtain ⟨tail, hsplit⟩ : ∃ tail, d.buf.bytes = (response [] reads).1 ++ tail :=
      ⟨d.buf.bytes.drop d.k, by rw [← htext, List.take_append_drop]⟩
    have hzero := h.terminated hover
    have hcut : cut d.buf.bytes = cut (response [] reads).1 := by
      rw [hsplit, cut_append_of_mem hzero]
    rw [hrun]
    refine ⟨nofun, ?_, ?_⟩
    · rintro rc d rest ⟨⟩
      rw [hsplit]
      exact List.mem_append_left _ hzero
    · rintro rc d rest found ⟨⟩ hfound
      rw [hcut] at hfound
      rw [hk, valueStart, hcut, hsplit]
      exact valueEnd_iff.mpr (h.newline hover found hfound)

end

/-- **Safety.** Whatever the uninitialised buffer holds, the reply is stored and searched within
    bounds exactly when the command could be written and the reply is a safe one. -/
theorem tcp_safe_iff (send : Bytes → WriteResult) (cmd param : Bytes)
    (reads : List (ReadResult 80)) :
    (∀ buf : Buffer BUF_SIZE, TcpSafe param (sendCommand send cmd buf reads)) ↔
      (∃ n, send cmd = .accepted n) ∧ SafeReply param reads := by
  match hsend : send cmd with
  | .error e =>
    -- nothing has been read
    refine iff_of_false (fun h => ?_) (fun ⟨⟨n, hn⟩, _⟩ => by cases hn)
    have hzero := (h onesBuffer).terminated 0 ⟨.yes, 0, onesBuffer⟩ reads
      (by simp only [sendCommand, hsend])
    have hone := List.eq_of_mem_replicate hzero
    cases hone
  | .accepted n =>
    have hrun : ∀ buf : Buffer BUF_SIZE,
        sendCommand send cmd buf reads = run readBody ⟨.yes, 0, buf⟩ reads := by
      intro buf
      simp only [sendCommand, hsend]
    simp only [hrun]
    constructor
    · exact fun h => ⟨⟨n, rfl⟩, safeReply_of_onesBuffer (h onesBuffer)⟩
    · exact fun h => tcpSafe_of_safeReply h.2

/-- A short reply of one line. -/
def plainReads : List (ReadResult 80) := [.data (ascii "Status: Running\nOK") (by decide)]

/-- There is no NUL behind the reply. -/
theorem tcp_not_safe_plain :
    ¬ TcpSafe (ascii "Status") (sendCommand (fun _ => .accepted 12) (ascii "show servers")
      onesBuffer plainReads) := by
  intro h
  have hover : (response [] plainReads).2 = true := by decide +kernel
  have hzero := (safeReply_of_onesBuffer h).terminated hover
  exact absurd hzero (by decide +kernel)

end MaxScaleSystemTest.Maxadmin
