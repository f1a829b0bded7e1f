import MaxScaleSystemTest.Lib.Delimited
import MaxScaleSystemTest.Maxadmin.SendCommand

namespace MaxScaleSystemTest.Maxadmin

open CString SystemCalls InputLoop

/-!
# Whole replies of MaxAdmin

A reply is a payload of lines with the terminator behind it, split into the pieces that the
`read`s of `sendCommand` deliver.

* `decoded_of_running`, `running_of_fits` — the pieces read so far, while the reply goes on;
* `decodes_iff` — which replies are decoded, for which ways of splitting them;
* `replies_misread` — two replies that are not.
-/

/-! ### Replies -/

/-- What one `read` delivers of a reply. -/
structure Chunk where
  bytes : Bytes
  nonempty : bytes ≠ []
  le_size : bytes.length ≤ 80

/-- The result of that `read`. -/
def Chunk.read (c : Chunk) : ReadResult 80 := .data c.bytes c.le_size

/-- The bytes of some pieces. -/
def bytesOf (chunks : List Chunk) : Bytes := chunks.flatMap Chunk.bytes

@[simp] theorem bytesOf_append (cs₁ cs₂ : List Chunk) :
    bytesOf (cs₁ ++ cs₂) = bytesOf cs₁ ++ bytesOf cs₂ := List.flatMap_append

theorem bytesOf_cons (c : Chunk) (cs : List Chunk) : bytesOf (c :: cs) = c.bytes ++ bytesOf cs :=
  List.flatMap_cons

/-- Pieces are not empty. -/
theorem eq_nil_of_bytesOf {cs : List Chunk} (h : bytesOf cs = []) : cs = [] := by
  cases cs with
  | nil => rfl
  | cons c cs =>
    rw [bytesOf_cons, List.append_eq_nil_iff] at h
    exact absurd h.1 c.nonempty

@[simp] theorem bytesOf_singleton (c : Chunk) : bytesOf [c] = c.bytes := by simp [bytesOf]

/-- A reply that fits into the buffer: a payload of whole lines, none of them `OK`, and the
    terminator behind it, split into pieces. -/
structure Reply (cap : ℕ) where
  payload : Bytes
  terminated : payload = [] ∨ payload.getLast? = some nl
  no_terminator : OK ∉ Delimited.records nl payload
  fits : payload.length ≤ cap
  chunks : List Chunk
  split : bytesOf chunks = payload ++ OK

/-- The results of the `read`s of a reply. -/
def Reply.reads {cap : ℕ} (r : Reply cap) : List (ReadResult 80) := r.chunks.map Chunk.read

/-- `sendCommand` has returned 1, and has written the payload to the front of the buffer and
    nothing else. -/
def DecodesTo {cap : ℕ} (status : Status (Decoder cap) (ReadResult 80) (CommandEnd cap))
    (payload : Bytes) : Prop :=
  ∃ d rest, status = .ended (.returned 1 d) rest ∧ d.k = payload.length ∧
    d.buf.bytes.take d.k = payload

section Replies

variable {cap : ℕ}

theorem readBody_read (d : Decoder cap) (c : Chunk) : readBody d c.read = decodeChunk d c.bytes := by
  obtain ⟨bytes, hne, hle⟩ := c
  cases bytes with
  | nil => exact absurd rfl hne
  | cons b bs => rfl

/-- Before the first byte. -/
theorem decoded_start (buf : Buffer cap) : Decoded ⟨.yes, 0, buf⟩ [] := ⟨rfl, rfl, rfl⟩

/-- The piece `c` behind the pieces `cs` ends the reply. -/
def EndsAt (cs : List Chunk) (c : Chunk) : Prop := EndsReply (bytesOf cs) c.bytes

/-- **Run lemma.** While `sendCommand` reads, it has decoded what it has read, and no piece
    has ended the reply. -/
theorem decoded_of_running {d₀ d : Decoder cap} {chunks : List Chunk} (hd₀ : Decoded d₀ [])
    (h : run readBody d₀ (chunks.map Chunk.read) = .running d) :
    Decoded d (bytesOf chunks) ∧ NeverStops EndsAt chunks := by
  induction chunks using List.reverseRecOn generalizing d with
  | nil =>
    cases h
    exact ⟨hd₀, by simp [NeverStops]⟩
  | append_singleton cs c ih =>
    rw [List.map_append] at h
    obtain ⟨t, ht, hc⟩ := running_of_append h
    obtain ⟨hdt, hnever⟩ := ih ht
    have hbody : readBody t c.read = decodeChunk t c.bytes := readBody_read t c
    rw [neverStops_append_singleton, bytesOf_append, bytesOf_singleton]
    -- the piece ends the reply, is decoded, or does not fit: the loop runs on in one case
    rcases decodeChunk_cases hdt c.bytes with
      ⟨d', hchunk, -⟩ | ⟨⟨d', hchunk, hd'⟩, hgoes⟩ | ⟨hchunk, -⟩
    · rw [List.map_singleton, run_cons_inr (hbody.trans hchunk)] at hc
      cases hc
    · rw [List.map_singleton, run_cons_inl (hbody.trans hchunk)] at hc
      cases hc
      exact ⟨hd', hnever, hgoes⟩
    · rw [List.map_singleton, run_cons_inr (hbody.trans hchunk)] at hc
      cases hc

/-- Pieces that do not end the reply, and fit, are decoded. -/
theorem running_of_fits {d₀ : Decoder cap} {chunks : List Chunk} (hd₀ : Decoded d₀ [])
    (hnever : NeverStops EndsAt chunks)
    (hfits : ∀ front, front <+: bytesOf chunks → (copied front).length ≤ cap) :
    ∃ d, run readBody d₀ (chunks.map Chunk.read) = .running d ∧ Decoded d (bytesOf chunks) := by
  induction chunks using List.reverseRecOn with
  | nil => exact ⟨d₀, rfl, hd₀⟩
  | append_singleton cs c ih =>
    rw [bytesOf_append, bytesOf_singleton] at hfits ⊢
    obtain ⟨hnever, hgoes⟩ := neverStops_append_singleton.mp hnever
    obtain ⟨t, ht, hdt⟩ := ih hnever
      (fun front hfront => hfits front (hfront.trans (List.prefix_append ..)))
    have hbody : readBody t c.read = decodeChunk t c.bytes := readBody_read t c
    rcases decodeChunk_cases hdt c.bytes with
      ⟨d', -, hends, -⟩ | ⟨⟨d', hchunk, hd'⟩, -⟩ | ⟨-, front, hfront, hcap, -⟩
    · exact absurd hends hgoes
    · refine ⟨d', ?_, hd'⟩
      rw [List.map_append, run_append_of_running ht, List.map_singleton,
        run_cons_inl (hbody.trans hchunk), run_nil]
    · have hle := hfits _ ((List.prefix_append_right_inj (bytesOf cs)).mpr hfront)
      omega

/-- Of a reply whose terminator stands at the start of a line, nothing before the last byte
    needs more room than the payload. -/
theorem copied_length_le {payload front : Bytes} (hstart : atLineStart payload = true)
    (h : front <+: payload ++ OK) (hne : front ≠ payload ++ OK) :
    (copied front).length ≤ payload.length := by
  have hsplit : payload ++ OK = payload ++ [letterO] ++ [letterK] := by simp [OK]
  rw [hsplit] at h hne
  have hle : ∀ l : Bytes, (copied l).length ≤ l.length := by
    intro l
    rw [copied]
    split
    · simp
    · exact le_refl _
  -- the front is all but the `K`, with the `O` held back, or is part of the payload
  rcases List.prefix_concat_iff.mp h with hall | h
  · exact absurd hall hne
  · rcases List.prefix_concat_iff.mp h with rfl | h
    · rw [copied, behindO_concat, hstart]
      simp
    · exact (hle front).trans h.length_le

/-- No piece before the last one ends with an `OK` at the start of a line. -/
def EndsOnlyLast (chunks : List Chunk) : Prop :=
  ∀ before c after, chunks = before ++ c :: after → EndsAt before c → after = []

/-- Pieces of which the last one may end the reply. -/
theorem endsOnlyLast_concat {cs : List Chunk} {c : Chunk} :
    EndsOnlyLast (cs ++ [c]) ↔ NeverStops EndsAt cs := by
  constructor
  · intro h pre x post hcs hends
    have hnil := h pre x (post ++ [c]) (by rw [hcs]; simp) hends
    simp at hnil
  · intro h before x after hsplit hends
    by_contra hne
    obtain ⟨after', z, rfl⟩ := List.eq_nil_or_concat after |>.resolve_left hne
    rw [List.concat_eq_append, ← List.cons_append, ← List.append_assoc] at hsplit
    obtain ⟨hcs, -⟩ := List.append_inj' hsplit rfl
    exact h before x after' hcs hends

/-- If the payload is decoded, the terminator stood at the start of a line, and the loop was
    running until the last piece. -/
theorem cond_of_decodes {d₀ d : Decoder cap} {payload : Bytes} {chunks : List Chunk}
    {rest : List (ReadResult 80)} (hd₀ : Decoded d₀ []) (hsplit : bytesOf chunks = payload ++ OK)
    (hended : run readBody d₀ (chunks.map Chunk.read) = .ended (.returned 1 d) rest)
    (htext : d.buf.bytes.take d.k = payload) :
    atLineStart payload = true ∧ EndsOnlyLast chunks := by
  obtain ⟨taken, x, t, hreads, htaken, hx⟩ := run_eq_ended_iff.mp hended
  obtain ⟨cs, tail, rfl, rfl, htail⟩ := List.map_eq_append_iff.mp hreads
  obtain ⟨c, after, rfl, rfl, rfl⟩ := List.map_eq_cons_iff.mp htail
  obtain ⟨hdt, hnever⟩ := decoded_of_running hd₀ htaken
  rw [readBody_read] at hx
  rcases decodeChunk_cases hdt c.bytes with
    ⟨d', hchunk, ⟨-, q, hq, hline⟩, htext', -⟩ | ⟨⟨d', hchunk, -⟩, -⟩ | ⟨hchunk, -⟩
  · rw [hchunk] at hx
    cases hx
    -- the piece that ended the reply is the last one
    have hread : payload ++ OK = bytesOf cs ++ c.bytes := by rw [← htext', htext]
    have hpayload : q = payload := List.append_cancel_right (hq.symm.trans hread.symm)
    have hall : bytesOf cs ++ c.bytes ++ bytesOf after = bytesOf cs ++ c.bytes := by
      calc bytesOf cs ++ c.bytes ++ bytesOf after = bytesOf (cs ++ c :: after) := by
            rw [bytesOf_append, bytesOf_cons, List.append_assoc]
        _ = bytesOf cs ++ c.bytes := by rw [hsplit, hread]
    have hafter : after = [] := eq_nil_of_bytesOf (List.append_right_eq_self.mp hall)
    subst hafter
    exact ⟨by rw [← hpayload, hline], endsOnlyLast_concat.mpr hnever⟩
  · rw [hchunk] at hx
    cases hx
  · rw [hchunk] at hx
    cases hx

/-- A terminator at the start of a line, and no end before it, decode the payload. -/
theorem decodes_of_cond {d₀ : Decoder cap} {payload : Bytes} {cs : List Chunk} {c : Chunk}
    (hd₀ : Decoded d₀ []) (hbytes : bytesOf cs ++ c.bytes = payload ++ OK)
    (hcap : payload.length ≤ cap) (hline : atLineStart payload = true)
    (hnever : NeverStops EndsAt cs) :
    DecodesTo (run readBody d₀ ((cs ++ [c]).map Chunk.read)) payload := by
  -- there is room for what is copied on the way
  have hroom : ∀ front, front <+: bytesOf cs ++ c.bytes → front ≠ bytesOf cs ++ c.bytes →
      (copied front).length ≤ cap := by
    intro front hfront hproper
    rw [hbytes] at hfront hproper
    exact (copied_length_le hline hfront hproper).trans hcap
  have hfits : ∀ front, front <+: bytesOf cs → (copied front).length ≤ cap := by
    intro front hfront
    apply hroom front (hfront.trans (List.prefix_append ..))
    rintro rfl
    have hlen := hfront.length_le
    rw [List.length_append] at hlen
    exact c.nonempty (List.eq_nil_of_length_eq_zero (by omega))
  -- everything but the last piece leaves the loop running, and the last piece ends it
  obtain ⟨t, ht, hdt⟩ := running_of_fits hd₀ hnever hfits
  have hends : EndsReply (bytesOf cs) c.bytes := ⟨c.nonempty, payload, hbytes, hline⟩
  rcases decodeChunk_cases hdt c.bytes with
    ⟨d, hchunk, -, htext, hk⟩ | ⟨-, hgoes⟩ | ⟨-, front, hfront, hfull, hproper⟩
  · have hpayload : d.buf.bytes.take d.k = payload :=
      List.append_cancel_right (htext.trans hbytes)
    refine ⟨d, [], ?_, by rw [hk, hpayload], hpayload⟩
    rw [List.map_append, run_append_of_running ht]
    exact run_cons_inr ((readBody_read t c).trans hchunk) []
  · exact absurd hends hgoes
  · have hle : (copied (bytesOf cs ++ front)).length ≤ cap := by
      apply hroom _ ((List.prefix_append_right_inj (bytesOf cs)).mpr hfront)
      intro hsame
      exact hproper ⟨List.append_cancel_left hsame, hends⟩
    omega

/-- **Which replies are decoded.** `sendCommand` returns 1 with the payload in the buffer
    exactly when the terminator stands at what it takes for the start of a line, and no
    piece before the last ends with an `OK` at the start of a line. -/
theorem decodes_iff (buf : Buffer cap) (cmd : Bytes) (n : ℕ) (r : Reply cap) :
    DecodesTo (sendCommand (fun _ => .accepted n) cmd buf r.reads) r.payload ↔
      atLineStart r.payload = true ∧ EndsOnlyLast r.chunks := by
  show DecodesTo (run readBody ⟨.yes, 0, buf⟩ (r.chunks.map Chunk.read)) r.payload ↔ _
  have hstart := decoded_start buf
  constructor
  · intro hdec
    obtain ⟨d, rest, hended, -, htext⟩ := hdec
    exact cond_of_decodes hstart r.split hended htext
  · intro hcond
    obtain ⟨hline, hlast⟩ := hcond
    -- the reply has at least the terminator, so there is a last piece
    have hne : r.chunks ≠ [] := by
      intro hnil
      have hbytes := r.split
      rw [hnil] at hbytes
      exact absurd hbytes.symm (by simp [OK, bytesOf])
    obtain ⟨cs, c, hchunks⟩ := List.eq_nil_or_concat r.chunks |>.resolve_left hne
    rw [List.concat_eq_append] at hchunks
    have hbytes : bytesOf cs ++ c.bytes = r.payload ++ OK := by
      rw [← r.split, hchunks, bytesOf_append, bytesOf_singleton]
    rw [hchunks] at hlast ⊢
    exact decodes_of_cond hstart hbytes r.fits hline (endsOnlyLast_concat.mp hlast)

end Replies

/-- The size of the callers' buffers. -/
abbrev BUF_SIZE : ℕ := 10240

/-- A reply whose only line is an `O`, in one piece. -/
def lineO : Reply BUF_SIZE where
  payload := ascii "O\n"
  terminated := by decide
  no_terminator := by decide
  fits := by decide
  chunks := [⟨ascii "O\nOK", by decide, by decide⟩]
  split := by decide

/-- A line that starts with `OK`, in two pieces. -/
def lineOKAY : Reply BUF_SIZE where
  payload := ascii "OKAY\n"
  terminated := by decide
  no_terminator := by decide
  fits := by decide
  chunks := [⟨ascii "OK", by decide, by decide⟩, ⟨ascii "AY\nOK", by decide, by decide⟩]
  split := by decide

/-- Behind a line `O` the terminator is not noticed, and a piece that ends behind the first
    two letters of `OKAY` is taken for it. -/
theorem replies_misread :
    ¬ DecodesTo (sendCommand (fun _ => .accepted 12) (ascii "show servers") (Buffer.zero BUF_SIZE)
        lineO.reads) lineO.payload ∧
    ¬ DecodesTo (sendCommand (fun _ => .accepted 12) (ascii "show servers") (Buffer.zero BUF_SIZE)
        lineOKAY.reads) lineOKAY.payload := by
  refine ⟨fun h => ?_, fun h => ?_⟩
  · obtain ⟨d, rest, hended, -⟩ := h
    cases hended
  · obtain ⟨d, rest, hended, hk, -⟩ := h
    cases hended
    cases hk

end MaxScaleSystemTest.Maxadmin
