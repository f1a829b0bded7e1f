import MaxScaleSystemTest.Lib.CString

namespace SystemCalls

open CString

/-!
# Results of system calls

What POSIX promises of `read` and `write` on a stream socket: a `read` of `size` bytes
delivers at most `size` bytes, none of them at the end of the stream, or fails; a `write`
takes some of the bytes offered, or fails.  A program under study is given the list of the
results its successive calls get.

`retry` is the usual loop around an interruptible call, and `answers` the results it lets
through.
-/

/-- An `errno` value. -/
abbrev Errno := ℕ

/-- The call was interrupted by a signal. -/
def EINTR : Errno := 4

/-- The result of `read(fd, dest, size)`: the bytes delivered, or an error. -/
inductive ReadResult (size : ℕ) where
  | data (bs : Bytes) (le_size : bs.length ≤ size)
  | error (errno : Errno)
  deriving DecidableEq

/-- The result of `write`: how many of the bytes offered were taken, or an error. -/
inductive WriteResult where
  | accepted (n : ℕ)
  | error (errno : Errno)
  deriving DecidableEq

/-- The call failed with `EINTR`. -/
def ReadResult.interrupted {size : ℕ} : ReadResult size → Bool
  | .data _ _ => false
  | .error e => e == EINTR

/-- The call failed with `EINTR`. -/
def WriteResult.interrupted : WriteResult → Bool
  | .accepted _ => false
  | .error e => e == EINTR

/-! ### Repeating interrupted calls -/

section Retry

variable {ρ : Type*} (interrupted : ρ → Bool)

/-- Repeat a call while it is interrupted; `none` when every result is an interruption,
    that is when the call has not come back yet. -/
def retry : List ρ → Option (ρ × List ρ)
  | [] => none
  | r :: rs => if interrupted r then retry rs else some (r, rs)

/-- The results that are no interruptions. -/
def answers (rs : List ρ) : List ρ := rs.filter (fun r => !interrupted r)

/-- The first result that is no interruption. -/
def firstAnswer (rs : List ρ) : Option ρ := rs.find? (fun r => !interrupted r)

variable {interrupted}

theorem firstAnswer_cons (r : ρ) (rs : List ρ) :
    firstAnswer interrupted (r :: rs) =
      if interrupted r then firstAnswer interrupted rs else some r := by
  by_cases hr : interrupted r <;> simp [firstAnswer, hr]

/-- A repeated call returns the first answer. -/
theorem retry_fst (rs : List ρ) :
    (retry interrupted rs).map Prod.fst = firstAnswer interrupted rs := by
  induction rs with
  | nil => rfl
  | cons r rs ih =>
    show (if interrupted r then retry interrupted rs else some (r, rs)).map Prod.fst = _
    rw [firstAnswer_cons]
    by_cases hr : interrupted r
    · -- an interruption is passed over on both sides
      rw [if_pos hr, if_pos hr, ih]
    · rw [if_neg hr, if_neg hr]
      rfl

theorem retry_of_firstAnswer {rs : List ρ} {r : ρ} (h : firstAnswer interrupted rs = some r) :
    ∃ rest, retry interrupted rs = some (r, rest) := by
  rw [← retry_fst, Option.map_eq_some_iff] at h
  obtain ⟨⟨r', rest⟩, hretry, hr⟩ := h
  exact ⟨rest, by rw [hretry, ← hr]⟩

theorem retry_of_no_answer {rs : List ρ} (h : firstAnswer interrupted rs = none) :
    retry interrupted rs = none := by
  rw [← retry_fst] at h
  exact Option.map_eq_none_iff.mp h

theorem retry_eq_none_iff {rs : List ρ} : retry interrupted rs = none ↔ answers interrupted rs = [] := by
  induction rs with
  | nil => simp [retry, answers]
  | cons r rs ih =>
    simp only [answers] at ih
    by_cases hr : interrupted r <;> simp [retry, answers, hr, ih]

/-- `retry` returns the first answer and leaves the others. -/
theorem retry_eq_some {rs rest : List ρ} {r : ρ} (h : retry interrupted rs = some (r, rest)) :
    answers interrupted rs = r :: answers interrupted rest ∧ rest.length < rs.length := by
  induction rs with
  | nil => simp [retry] at h
  | cons x rs ih =>
    by_cases hx : interrupted x
    · rw [retry, if_pos hx] at h
      obtain ⟨hans, hlen⟩ := ih h
      refine ⟨?_, by simp only [List.length_cons]; omega⟩
      simpa [answers, hx] using hans
    · rw [retry, if_neg hx] at h
      cases h
      exact ⟨by simp [answers, hx], by simp⟩

/-- A first answer is what `retry` returns. -/
theorem retry_of_answers {rs more : List ρ} {r : ρ} (h : answers interrupted rs = r :: more) :
    ∃ rest, retry interrupted rs = some (r, rest) ∧ answers interrupted rest = more := by
  cases hr : retry interrupted rs with
  | none =>
    rw [retry_eq_none_iff, h] at hr
    cases hr
  | some p =>
    obtain ⟨x, rest⟩ := p
    have hans := (retry_eq_some hr).1
    rw [h] at hans
    cases hans
    exact ⟨rest, rfl, rfl⟩

end Retry

/-! ### The bytes a sequence of reads delivers -/

/-- All bytes delivered up to the end of the stream or the first error. -/
def received {size : ℕ} : List (ReadResult size) → Bytes
  | [] => []
  | .error e :: rs => if e = EINTR then received rs else []
  -- the end of the stream
  | .data [] _ :: _ => []
  | .data (b :: bs) _ :: rs => b :: bs ++ received rs

/-- What the first answering read delivers comes first. -/
theorem prefix_received {size : ℕ} {reads : List (ReadResult size)} {bs : Bytes}
    {hbs : bs.length ≤ size}
    (h : firstAnswer ReadResult.interrupted reads = some (.data bs hbs)) :
    bs <+: received reads := by
  induction reads with
  | nil => cases h
  | cons r rs ih =>
    rw [firstAnswer_cons] at h
    match r with
    | .error e =>
      -- an error in front of the first answer is an interruption
      by_cases he : e = EINTR
      · have htail : firstAnswer ReadResult.interrupted rs = some (.data bs hbs) := by
          simpa [ReadResult.interrupted, he] using h
        simpa only [received, he, if_true] using ih htail
      · simp [ReadResult.interrupted, he] at h
    | .data bs' hbs' =>
      have heq : bs' = bs := by simpa [ReadResult.interrupted] using h
      subst heq
      cases bs' with
      | nil => exact List.nil_prefix
      | cons b bs => exact List.prefix_append ..

/-- Nothing is received when the first answering read fails or no read answers. -/
theorem received_eq_nil {size : ℕ} {reads : List (ReadResult size)}
    (h : ∀ bs hbs, firstAnswer ReadResult.interrupted reads ≠ some (.data bs hbs)) :
    received reads = [] := by
  induction reads with
  | nil => rfl
  | cons r rs ih =>
    match r with
    | .error e =>
      show (if e = EINTR then received rs else []) = []
      by_cases he : e = EINTR
      · have htail : ∀ bs hbs, firstAnswer ReadResult.interrupted rs ≠ some (.data bs hbs) := by
          simpa [firstAnswer_cons, ReadResult.interrupted, he] using h
        rw [if_pos he, ih htail]
      · rw [if_neg he]
    | .data bs hbs => exact absurd (by simp [firstAnswer_cons, ReadResult.interrupted]) (h bs hbs)

end SystemCalls
