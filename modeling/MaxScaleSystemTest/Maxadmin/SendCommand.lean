import MaxScaleSystemTest.Lib.Buffer
import MaxScaleSystemTest.Lib.InputLoop
import MaxScaleSystemTest.Lib.SystemCalls

namespace MaxScaleSystemTest.Maxadmin

open CString SystemCalls InputLoop

/-!
# Decoding the replies of MaxAdmin

`sendCommand` reads a reply in pieces of up to 80 bytes and copies it into `buf` until a
line `OK` ends it.  It takes the text `OK` for the end where a piece ends with it, behind
something that looks like the start of a line.

* `atLineStart` — what looks like the start of a line to the decoder, told from the bytes
  before it alone;
* `Decoded` — the state of the decoder behind the bytes it has read;
* `decodeByte_cases`, `decodeChunk_cases` — what one byte and one piece do.
-/

/-- The variable `newline`: 0, 1 at the start of a line, 2 behind an `O` there. -/
inductive Newline where
  | no
  | yes
  | afterO
  deriving DecidableEq

/-- The local variables of `sendCommand` that outlive a piece, with the caller's buffer. -/
structure Decoder (cap : ℕ) where
  newline : Newline
  k : ℕ
  buf : Buffer cap

/-- How `sendCommand` ends: with a return value, or by writing outside the buffer. -/
inductive CommandEnd (cap : ℕ) where
  | returned (rc : ℤ) (d : Decoder cap)
  | outOfBounds

/-- The byte `O`. -/
def letterO : UInt8 := 79

/-- The byte `K`. -/
def letterK : UInt8 := 75

/-- `'\n'` or `'\r'`. -/
def isNewline (c : UInt8) : Bool := c = 10 || c = 13

section Decoder

variable {cap : ℕ}

/-- `buf[k] = c; k++`. -/
def Decoder.put (d : Decoder cap) (c : UInt8) : Option (Decoder cap) :=
  (d.buf.set? d.k c).map fun buf => { d with k := d.k + 1, buf := buf }

/-- Copy one byte after the other, then set `newline`. -/
def Decoder.copy (newline : Newline) : Bytes → Decoder cap → Decoder cap ⊕ CommandEnd cap
  | [], d => .inl { d with newline := newline }
  | c :: cs, d =>
    match d.put c with
    | none => .inr .outOfBounds
    | some d => d.copy newline cs

/-- The body of the inner loop of `sendCommand`; `last` is `j == i - 1`. -/
def decodeByte (d : Decoder cap) (c : UInt8) (last : Bool) : Decoder cap ⊕ CommandEnd cap :=
  if d.newline = .yes ∧ c = letterO then .inl { d with newline := .afterO }
  else if d.newline = .afterO ∧ c = letterK ∧ last = true then .inr (.returned 1 d)
  -- a newline behind an `O` counts as any other byte
  else if d.newline = .afterO then d.copy .no [letterO, c]
  else if isNewline c then d.copy .yes [c]
  else d.copy .no [c]

/-- The inner loop, over the bytes of one piece. -/
def decodeChunk (d : Decoder cap) : Bytes → Decoder cap ⊕ CommandEnd cap
  | [] => .inl d
  | c :: cs =>
    match decodeByte d c cs.isEmpty with
    | .inl d => decodeChunk d cs
    | .inr e => .inr e

/-- The body of the outer loop, on the result of its `read`. -/
def readBody (d : Decoder cap) : ReadResult 80 → Decoder cap ⊕ CommandEnd cap
  | .error _ => .inr (.returned 0 d)
  | .data [] _ => .inr (.returned 0 d)
  | .data (c :: cs) _ => decodeChunk d (c :: cs)

/-- `sendCommand(so, cmd, buf)`: `send` is the answer of the socket to the bytes offered to
    it, `reads` what the `read`s return. -/
def sendCommand (send : Bytes → WriteResult) (cmd : Bytes) (buf : Buffer cap)
    (reads : List (ReadResult 80)) : Status (Decoder cap) (ReadResult 80) (CommandEnd cap) :=
  let start : Decoder cap := ⟨.yes, 0, buf⟩
  match send cmd with
  | .error _ => .ended (.returned 0 start) reads
  | .accepted _ => run readBody start reads

end Decoder

/-! ### The state, told from the bytes read -/

/-- `atLineStart` on the bytes before, the last one first. -/
def lineStartRev : Bytes → Bool
  | [] => true
  | [c] => isNewline c
  | c :: b :: before => isNewline c && !(b == letterO && lineStartRev before)

/-- The bytes before lead to the start of a line: the reply begins there, or there is a
    newline or carriage return, but not one right behind an `O` at the start of a line. -/
def atLineStart (before : Bytes) : Bool := lineStartRev before.reverse

/-- The bytes before end with an `O` at the start of a line. -/
def behindO (before : Bytes) : Bool :=
  before.getLast? == some letterO && atLineStart before.dropLast

@[simp] theorem behindO_concat (before : Bytes) (c : UInt8) :
    behindO (before ++ [c]) = (c == letterO && atLineStart before) := by
  simp [behindO]

@[simp] theorem atLineStart_concat (before : Bytes) (c : UInt8) :
    atLineStart (before ++ [c]) = (isNewline c && !behindO before) := by
  rcases List.eq_nil_or_concat before with rfl | ⟨before, b, rfl⟩
  · simp [atLineStart, lineStartRev, behindO]
  · rw [List.concat_eq_append, behindO_concat]
    simp [atLineStart, lineStartRev]

/-- The start of a line is not behind an `O`. -/
theorem behindO_eq_false {before : Bytes} (h : atLineStart before = true) :
    behindO before = false := by
  rcases List.eq_nil_or_concat before with rfl | ⟨before, b, rfl⟩
  · rfl
  · rw [List.concat_eq_append] at h ⊢
    rw [atLineStart_concat, Bool.and_eq_true] at h
    have hne : b ≠ letterO := by
      rintro rfl
      exact absurd h.1 (by decide)
    simp [hne]

/-- The value of `newline` behind the bytes before. -/
def newlineOf (before : Bytes) : Newline :=
  if atLineStart before then .yes else if behindO before then .afterO else .no

/-- What has been copied: everything, except an `O` at the start of a line, which waits for
    the byte behind it. -/
def copied (before : Bytes) : Bytes := if behindO before then before.dropLast else before

/-- The decoder has read the bytes `before`, and not returned. -/
structure Decoded {cap : ℕ} (d : Decoder cap) (before : Bytes) : Prop where
  newline : d.newline = newlineOf before
  cursor : d.k = (copied before).length
  front : d.buf.bytes.take d.k = copied before

/-- The terminator. -/
def OK : Bytes := [letterO, letterK]

/-- Reading `bs` behind `before` ends the reply: the piece ends with `OK`, which stands at
    the start of a line. -/
def EndsReply (before bs : Bytes) : Prop :=
  bs ≠ [] ∧ ∃ q, before ++ bs = q ++ OK ∧ atLineStart q = true

theorem newlineOf_eq_yes {before : Bytes} : newlineOf before = .yes ↔ atLineStart before = true := by
  unfold newlineOf
  by_cases h₁ : atLineStart before = true <;> by_cases h₂ : behindO before = true <;> simp [h₁, h₂]

theorem newlineOf_eq_afterO {before : Bytes} : newlineOf before = .afterO ↔ behindO before = true := by
  unfold newlineOf
  by_cases h₁ : atLineStart before = true
  · simp [h₁, behindO_eq_false h₁]
  · by_cases h₂ : behindO before = true <;> simp [h₁, h₂]

/-- Behind an `O` the copy lacks that `O`. -/
theorem copied_append_letterO {before : Bytes} (h : behindO before = true) :
    copied before ++ [letterO] = before ∧ atLineStart (copied before) = true := by
  rw [copied, if_pos h]
  rw [behindO, Bool.and_eq_true, beq_iff_eq] at h
  exact ⟨List.dropLast_append_getLast? letterO h.1, h.2⟩

/-- One more byte ends the reply exactly when it is a `K` behind such an `O`. -/
theorem endsReply_singleton {before : Bytes} {c : UInt8} :
    EndsReply before [c] ↔ behindO before = true ∧ c = letterK := by
  constructor
  · intro h
    obtain ⟨-, q, hq, hstart⟩ := h
    have hsplit : before ++ [c] = (q ++ [letterO]) ++ [letterK] := by rw [hq]; simp [OK]
    obtain ⟨hbefore, hc⟩ := List.append_inj' hsplit rfl
    refine ⟨?_, by simpa using hc⟩
    rw [hbefore, behindO_concat, hstart]
    decide
  · intro h
    obtain ⟨hbehind, rfl⟩ := h
    obtain ⟨hO, hstart⟩ := copied_append_letterO hbehind
    refine ⟨by simp, copied before, ?_, hstart⟩
    calc before ++ [letterK] = (copied before ++ [letterO]) ++ [letterK] := by rw [hO]
      _ = copied before ++ OK := by simp [OK]

/-- Whether a longer piece ends the reply is up to the bytes behind its first one. -/
theorem endsReply_cons {before cs : Bytes} {c : UInt8} (hcs : cs ≠ []) :
    EndsReply before (c :: cs) ↔ EndsReply (before ++ [c]) cs := by
  have hassoc : before ++ c :: cs = before ++ [c] ++ cs := by simp
  rw [EndsReply, EndsReply, hassoc]
  simp [hcs]

/-! ### One byte -/

section Steps

variable {cap : ℕ} {d d' : Decoder cap}

/-- Copying either succeeds or runs out of the buffer. -/
theorem copy_cases (newline : Newline) (cs : Bytes) (d : Decoder cap) :
    (∃ d', d.copy newline cs = .inl d' ∧ d'.newline = newline ∧ d'.k = d.k + cs.length ∧
        d'.buf.bytes.take d'.k = d.buf.bytes.take d.k ++ cs) ∨
      (d.copy newline cs = .inr .outOfBounds ∧ cap < d.k + cs.length) := by
  induction cs generalizing d with
  | nil => exact .inl ⟨_, rfl, rfl, rfl, by simp⟩
  | cons c cs ih =>
    rw [Decoder.copy, Decoder.put]
    match hset : d.buf.set? d.k c with
    | none =>
      -- the buffer ends here, whatever else is to be copied
      have hcap : cap ≤ d.k := (Buffer.set?_eq_none_iff ..).mp hset
      exact .inr ⟨rfl, by simp only [List.length_cons]; omega⟩
    | some buf =>
      have hfront := Buffer.take_set? hset
      simp only [Option.map_some]
      rcases ih ⟨d.newline, d.k + 1, buf⟩ with ⟨d', hcopy, hnewline, hk, htext⟩ | ⟨hcopy, hcap⟩
      · refine .inl ⟨d', hcopy, hnewline, ?_, ?_⟩
        · simp only [hk, List.length_cons]
          omega
        · rw [htext, hfront, List.append_assoc]
          rfl
      · refine .inr ⟨hcopy, ?_⟩
        simp only [List.length_cons] at hcap ⊢
        omega

/-- A copy that brings the text up to date leaves the decoder where the bytes say. -/
theorem copy_decoded {before : Bytes} {c : UInt8} {cs : Bytes} {newline : Newline}
    (hd : Decoded d before) (hcs : copied before ++ cs = before ++ [c])
    (hc : copied (before ++ [c]) = before ++ [c]) (hnewline : newline = newlineOf (before ++ [c])) :
    (∃ d', d.copy newline cs = .inl d' ∧ Decoded d' (before ++ [c])) ∨
      (d.copy newline cs = .inr .outOfBounds ∧ cap < (copied (before ++ [c])).length) := by
  have hlen : d.k + cs.length = (before ++ [c]).length := by
    rw [hd.cursor, ← hcs, List.length_append]
  rcases copy_cases newline cs d with ⟨d', hcopy, hnew, hk, htext⟩ | ⟨hcopy, hcap⟩
  · refine .inl ⟨d', hcopy, ?_, ?_, ?_⟩
    · rw [hnew, hnewline]
    · rw [hk, hc, hlen]
    · rw [htext, hd.front, hcs, hc]
  · exact .inr ⟨hcopy, by rw [hc]; omega⟩

/-- A byte that is copied as it comes. -/
theorem decodeByte_plain {before : Bytes} (hd : Decoded d before) {c : UInt8} {last : Bool}
    (hbehind : behindO before = false) (hc : ¬ (c = letterO ∧ atLineStart before = true)) :
    (∃ d', decodeByte d c last = .inl d' ∧ Decoded d' (before ++ [c])) ∨
      (decodeByte d c last = .inr .outOfBounds ∧ cap < (copied (before ++ [c])).length) := by
  have hnot : behindO (before ++ [c]) = false := by
    rw [behindO_concat]
    by_cases hO : c = letterO
    · have hstart : atLineStart before = false := by simpa [hO] using hc
      simp [hstart]
    · simp [hO]
  have hcopied : copied before ++ [c] = before ++ [c] := by rw [copied, hbehind]; rfl
  have hcopied' : copied (before ++ [c]) = before ++ [c] := by rw [copied, hnot]; rfl
  have hnewline : newlineOf (before ++ [c]) = if isNewline c then .yes else .no := by
    rw [newlineOf, hnot, atLineStart_concat, hbehind]
    simp
  -- of the branches of the decoder only the last two are open
  have hyes : ¬ (d.newline = .yes ∧ c = letterO) := by
    rw [hd.newline, newlineOf_eq_yes]
    exact fun h => hc ⟨h.2, h.1⟩
  have hafter : ¬ d.newline = .afterO := by
    rw [hd.newline, newlineOf_eq_afterO, hbehind]
    decide
  rw [decodeByte, if_neg hyes, if_neg (fun h => hafter h.1), if_neg hafter]
  by_cases hnl : isNewline c = true
  · rw [if_pos hnl]
    apply copy_decoded hd hcopied hcopied'
    rw [hnewline, if_pos hnl]
  · rw [if_neg hnl]
    apply copy_decoded hd hcopied hcopied'
    rw [hnewline, if_neg hnl]

/-- An `O` at the start of a line is held back. -/
theorem decodeByte_letterO {before : Bytes} (hd : Decoded d before) {last : Bool}
    (hstart : atLineStart before = true) :
    ∃ d', decodeByte d letterO last = .inl d' ∧ Decoded d' (before ++ [letterO]) := by
  have hyes : d.newline = .yes := by rw [hd.newline, newlineOf_eq_yes.mpr hstart]
  have hbehind : behindO (before ++ [letterO]) = true := by
    rw [behindO_concat, hstart]
    rfl
  have hsame : copied (before ++ [letterO]) = copied before := by
    rw [copied, if_pos hbehind, List.dropLast_concat, copied, behindO_eq_false hstart]
    rfl
  refine ⟨{ d with newline := .afterO }, ?_, ?_, ?_, ?_⟩
  · rw [decodeByte, if_pos ⟨hyes, rfl⟩]
  · show Newline.afterO = newlineOf (before ++ [letterO])
    rw [newlineOf_eq_afterO.mpr hbehind]
  · rw [hsame]
    exact hd.cursor
  · rw [hsame]
    exact hd.front

/-- Behind an `O` that is held back, a `K` at the end of a piece ends the reply; any other
    byte is copied together with the `O`. -/
theorem decodeByte_afterO {before : Bytes} (hd : Decoded d before) (c : UInt8) (last : Bool)
    (hbehind : behindO before = true) :
    (decodeByte d c last = .inr (.returned 1 d) ∧ last = true ∧ EndsReply before [c]) ∨
      (((∃ d', decodeByte d c last = .inl d' ∧ Decoded d' (before ++ [c])) ∨
          (decodeByte d c last = .inr .outOfBounds ∧ cap < (copied (before ++ [c])).length)) ∧
        ¬ (last = true ∧ EndsReply before [c])) := by
  have hafter : d.newline = .afterO := by rw [hd.newline, newlineOf_eq_afterO.mpr hbehind]
  have hyes : ¬ (d.newline = .yes ∧ c = letterO) := by
    rw [hafter]
    exact fun h => absurd h.1 (by decide)
  have hstart : atLineStart before = false := by
    by_contra h
    rw [behindO_eq_false (by simpa using h)] at hbehind
    cases hbehind
  rw [decodeByte, if_neg hyes]
  by_cases hend : last = true ∧ EndsReply before [c]
  · have hK : c = letterK := (endsReply_singleton.mp hend.2).2
    exact .inl ⟨if_pos ⟨hafter, hK, hend.1⟩, hend⟩
  · have hK : ¬ (d.newline = .afterO ∧ c = letterK ∧ last = true) :=
      fun h => hend ⟨h.2.2, endsReply_singleton.mpr ⟨hbehind, h.2.1⟩⟩
    have hnot : behindO (before ++ [c]) = false := by
      rw [behindO_concat, hstart, Bool.and_false]
    have hcopied : copied before ++ [letterO, c] = before ++ [c] := by
      calc copied before ++ [letterO, c] = (copied before ++ [letterO]) ++ [c] := by simp
        _ = before ++ [c] := by rw [(copied_append_letterO hbehind).1]
    -- the byte leaves the decoder inside a line, a newline as well
    have hnewline : Newline.no = newlineOf (before ++ [c]) := by
      rw [newlineOf, hnot, atLineStart_concat, hbehind]
      simp
    rw [if_neg hK, if_pos hafter]
    exact .inr ⟨copy_decoded hd hcopied (by rw [copied, hnot]; rfl) hnewline, hend⟩

/-- **Step lemma.** A byte ends the reply, is decoded, or does not fit. -/
theorem decodeByte_cases {before : Bytes} (hd : Decoded d before) (c : UInt8) (last : Bool) :
    (decodeByte d c last = .inr (.returned 1 d) ∧ last = true ∧ EndsReply before [c]) ∨
      (((∃ d', decodeByte d c last = .inl d' ∧ Decoded d' (before ++ [c])) ∨
          (decodeByte d c last = .inr .outOfBounds ∧ cap < (copied (before ++ [c])).length)) ∧
        ¬ (last = true ∧ EndsReply before [c])) := by
  by_cases hbehind : behindO before = true
  · exact decodeByte_afterO hd c last hbehind
  · have hends : ¬ (last = true ∧ EndsReply before [c]) := by
      rw [endsReply_singleton]
      exact fun h => hbehind h.2.1
    refine .inr ⟨?_, hends⟩
    by_cases hheld : c = letterO ∧ atLineStart before = true
    · obtain ⟨rfl, hstart⟩ := hheld
      exact .inl (decodeByte_letterO hd hstart)
    · exact decodeByte_plain hd (by simpa using hbehind) hheld

/-! ### One piece -/

/-- **The pieces.** A piece ends the reply, is decoded, or does not fit. -/
theorem decodeChunk_cases {before : Bytes} (hd : Decoded d before) (bs : Bytes) :
    (∃ d', decodeChunk d bs = .inr (.returned 1 d') ∧ EndsReply before bs ∧
        d'.buf.bytes.take d'.k ++ OK = before ++ bs ∧
        d'.k = (d'.buf.bytes.take d'.k).length) ∨
      ((∃ d', decodeChunk d bs = .inl d' ∧ Decoded d' (before ++ bs)) ∧ ¬ EndsReply before bs) ∨
      (decodeChunk d bs = .inr .outOfBounds ∧
        ∃ front, front <+: bs ∧ cap < (copied (before ++ front)).length ∧
          ¬ (front = bs ∧ EndsReply before bs)) := by
  -- induction on the bytes of the piece that are still to come
  induction bs generalizing d before with
  | nil =>
    refine .inr (.inl ⟨⟨d, rfl, ?_⟩, fun h => h.1 rfl⟩)
    rwa [List.append_nil]
  | cons c cs ih =>
    have hassoc : before ++ c :: cs = before ++ [c] ++ cs := by simp
    rw [decodeChunk]
    -- the inner loop may return at the last byte only
    rcases decodeByte_cases hd c cs.isEmpty with
      ⟨hbyte, hlast, hends⟩ | ⟨⟨d₁, hbyte, hd₁⟩ | ⟨hbyte, hcap⟩, hgoes⟩
    · obtain rfl := List.isEmpty_iff.mp hlast
      obtain ⟨hbehind, rfl⟩ := endsReply_singleton.mp hends
      refine .inl ⟨d, by rw [hbyte], hends, ?_, by rw [hd.front, hd.cursor]⟩
      calc d.buf.bytes.take d.k ++ OK = (copied before ++ [letterO]) ++ [letterK] := by
            rw [hd.front]
            simp [OK]
        _ = before ++ [letterK] := by rw [(copied_append_letterO hbehind).1]
    · rw [hbyte]
      dsimp only
      rw [hassoc]
      have hlater : EndsReply before (c :: cs) → EndsReply (before ++ [c]) cs := by
        intro hends
        by_cases hcs : cs = []
        · subst hcs
          exact absurd ⟨rfl, hends⟩ hgoes
        · exact (endsReply_cons hcs).mp hends
      rcases ih hd₁ with
        ⟨d', hrest, hends, htext⟩ | ⟨hrest, hgoes'⟩ | ⟨hrest, front, hfront, hcap, hgoes'⟩
      · exact .inl ⟨d', hrest, (endsReply_cons hends.1).mpr hends, htext⟩
      · exact .inr (.inl ⟨hrest, fun hends => hgoes' (hlater hends)⟩)
      · refine .inr (.inr ⟨hrest, c :: front, ?_, ?_, ?_⟩)
        · exact List.cons_prefix_cons.mpr ⟨rfl, hfront⟩
        · simpa using hcap
        · intro hall
          obtain ⟨hsame, hends⟩ := hall
          exact hgoes' ⟨(List.cons.inj hsame).2, hlater hends⟩
    · refine .inr (.inr ⟨by rw [hbyte], [c], ?_, hcap, ?_⟩)
      · exact List.cons_prefix_cons.mpr ⟨rfl, List.nil_prefix⟩
      · intro hall
        obtain ⟨hsame, hends⟩ := hall
        obtain rfl := (List.cons.inj hsame).2
        exact hgoes ⟨rfl, hends⟩

end Steps

end MaxScaleSystemTest.Maxadmin
