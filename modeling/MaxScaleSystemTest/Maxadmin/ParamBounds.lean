import MaxScaleSystemTest.Maxadmin.Param
import Mathlib.Data.List.DropRight

namespace MaxScaleSystemTest.Maxadmin

open CString

/-!
# Malformed output of `maxadmin`

The scans of `get_maxadmin_param` are stopped by a blank, a newline and a byte that is no
white space.  An output that names the parameter but has no value on its line lacks one of
them, or lets an empty string through, in front of which `check_maxadmin_param` reads.

* `malformed_or_line` — the kinds of malformed outputs are all there are;
* `getMaxadminParam_of_found` — an output with the name is never reported as a failure;
* `param_in_bounds_iff` — on which outputs both functions stay in bounds.
-/

/-! ### What a command prints -/

theorem zero_not_mem_outputLoop (fuel : ℕ) (s : Bytes) : 0 ∉ outputLoop fuel s := by
  induction fuel generalizing s with
  | zero => nofun
  | succ fuel ih =>
    unfold outputLoop
    split
    · nofun
    · rw [List.mem_append, not_or]
      refine ⟨fun h => ?_, ih _⟩
      have hne := List.mem_takeWhile_imp h
      simp at hne

/-- The output is a C string. -/
theorem zero_not_mem_sshMaxscaleOutput (printed : Bytes) : 0 ∉ sshMaxscaleOutput printed :=
  zero_not_mem_outputLoop _ printed

/-- The pieces are put together again. -/
theorem outputLoop_of_not_mem {fuel : ℕ} {s : Bytes} (hfuel : s.length ≤ fuel) (h : 0 ∉ s) :
    outputLoop fuel s = s := by
  induction fuel generalizing s with
  | zero => rw [List.eq_nil_of_length_eq_zero (Nat.le_zero.mp hfuel), outputLoop]
  | succ fuel ih =>
    unfold outputLoop
    by_cases hs : s = []
    · rw [if_pos hs, hs]
    · -- every piece has a byte at least
      have hpos : 0 < s.length := List.length_pos_iff.mpr hs
      have hpiece : 0 ∉ (fgets s).1 := fun hmem => h (List.mem_of_mem_take hmem)
      have hrest : 0 ∉ (fgets s).2 := fun hmem => h (List.mem_of_mem_drop hmem)
      have hlen : (fgets s).2.length ≤ fuel := by
        simp only [fgets, List.length_drop]
        omega
      rw [if_neg hs, cut_of_not_mem hpiece, ih hlen hrest]
      exact List.take_append_drop _ s

/-- Text is handed over as it was printed. -/
theorem sshMaxscaleOutput_of_not_mem {printed : Bytes} (h : 0 ∉ printed) :
    sshMaxscaleOutput printed = printed :=
  outputLoop_of_not_mem (le_refl _) h

/-! ### Malformed outputs -/

/-- The name occurs, but there is no blank behind it, no newline behind it, or nothing but
    blanks between its word and the end of the line. -/
inductive Malformed (param output : Bytes) : Prop where
  | noBlank (after : Bytes) (first : strstr output param = some (param ++ after))
      (hsolid : ∀ c ∈ after, isspace c = false)
  | noNewline (after : Bytes) (first : strstr output param = some (param ++ after))
      (hline : nl ∉ after)
  | noValue (word blanks rest : Bytes)
      (first : strstr output param = some (param ++ (word ++ (blanks ++ nl :: rest))))
      (hword : ∀ c ∈ word, isspace c = false) (hblanks : ∀ c ∈ blanks, isBlank c = true)

/-- White space within a line is blank. -/
theorem isBlank_of_isspace {line : Bytes} (hline : nl ∉ line) {c : UInt8} (hc : c ∈ line)
    (hspace : isspace c = true) : isBlank c = true := by
  have hne : c ≠ nl := fun heq => hline (heq ▸ hc)
  simp [isBlank, hspace, hne]

/-- A line behind a word is all blank, or has a value in it. -/
theorem blank_or_value {body : Bytes} (hline : nl ∉ body) :
    (∀ c ∈ body, isBlank c = true) ∨
      ∃ blanks value trailing, body = blanks ++ (value ++ trailing) ∧
        (∀ c ∈ blanks, isBlank c = true) ∧ (∀ c ∈ trailing, isBlank c = true) ∧
        (∃ c ∈ value.head?, isspace c = false) ∧ ∃ c ∈ value.getLast?, isspace c = false := by
  obtain ⟨blanks, tail, rfl, hblanks, htail⟩ := Scan.exists_span isspace body
  have hblank : ∀ c ∈ blanks, isBlank c = true := fun c hc =>
    isBlank_of_isspace hline (List.mem_append_left _ hc) (hblanks c hc)
  match htail' : tail with
  | [] => exact .inl (by simpa using hblank)
  | c :: cs =>
    -- the value goes on to the last byte that is no white space
    have hc : isspace c = false := htail c rfl
    have hne : (c :: cs).rdropWhile isspace ≠ [] := by
      intro hnil
      have hall := List.rdropWhile_eq_nil_iff.mp hnil c List.mem_cons_self
      rw [hc] at hall
      cases hall
    have hsplit := List.rdropWhile_append_rtakeWhile (p := isspace) (l := c :: cs)
    refine .inr ⟨blanks, (c :: cs).rdropWhile isspace, (c :: cs).rtakeWhile isspace,
      by rw [hsplit], hblank, fun d hd => ?_, ⟨c, ?_, hc⟩, ?_⟩
    · have hmem : d ∈ c :: cs := (List.rtakeWhile_suffix isspace (c :: cs)).mem hd
      exact isBlank_of_isspace hline (List.mem_append_right _ hmem) (List.mem_rtakeWhile_imp hd)
    · obtain ⟨d, ds, hds⟩ := List.exists_cons_of_ne_nil hne
      rw [hds, List.cons_append] at hsplit
      rw [hds, (List.cons.inj hsplit).1]
      rfl
    · refine ⟨_, List.getLast?_eq_some_getLast hne, ?_⟩
      simpa using List.rdropWhile_last_not isspace (c :: cs) hne

/-- **The kinds.** An output with the name in it is malformed, or has a value on the line. -/
theorem malformed_or_line {param output found : Bytes} (h : strstr output param = some found) :
    Malformed param output ∨ ∃ p : ParamLine param, p.output = output := by
  obtain ⟨front, rfl, hprefix, -⟩ := strstr_eq_some_iff.mp h
  obtain ⟨after, rfl⟩ := hprefix
  by_cases hnl : nl ∈ after
  · obtain ⟨line, rest, rfl, hline⟩ := List.eq_append_cons_of_mem hnl
    obtain ⟨word, body, rfl, hword, hbody⟩ := Scan.exists_span (fun c => !isspace c) line
    have hword' : ∀ c ∈ word, isspace c = false := fun c hc => by simpa using hword c hc
    have hbody' : nl ∉ body := fun hmem => hline (List.mem_append_right _ hmem)
    rcases blank_or_value hbody' with hblank | ⟨blanks, value, trailing, rfl, hblanks, htrailing,
      hhead, hlast⟩
    · exact .inl (.noValue word body rest (by simpa using h) hword' hblank)
    · -- the word ends before the value, so that there is a blank between them
      have hne : blanks ≠ [] := by
        rintro rfl
        obtain ⟨c, hc, hspace⟩ := hhead
        have hfirst : (value ++ trailing).head? = some c := by
          rw [List.head?_append, Option.mem_def.mp hc, Option.some_or]
        have hstop := hbody c hfirst
        simp [hspace] at hstop
      have hvalue : nl ∉ value := fun hmem => hbody' (by simp [hmem])
      refine .inr ⟨⟨front, word, blanks, value, trailing, rest, hword', hblanks, hne, hhead, hlast,
        hvalue, htrailing, by simpa using h⟩, ?_⟩
      simp [ParamLine.output, ParamLine.after]
  · exact .inl (.noNewline after h hnl)

/-- A byte that is white space is in no word. -/
theorem not_mem_of_solid {word : Bytes} (hword : ∀ c ∈ word, isspace c = false) {c : UInt8}
    (hc : isspace c = true) : c ∉ word := by
  intro hmem
  rw [hword c hmem] at hc
  cases hc

/-- What stands behind the name up to a newline is the whole line. -/
theorem ParamLine.line_of_after {param : Bytes} (p : ParamLine param) {line rest : Bytes}
    (hline : nl ∉ line) (h : line ++ nl :: rest = p.after) :
    line = p.word ++ (p.blanks ++ (p.value ++ p.trailing)) := by
  have hown : nl ∉ p.word ++ (p.blanks ++ (p.value ++ p.trailing)) := by
    rw [List.mem_append, not_or]
    exact ⟨not_mem_of_solid p.word_solid (by decide), p.nl_not_mem_line⟩
  have hsplit : line ++ nl :: rest
      = (p.word ++ (p.blanks ++ (p.value ++ p.trailing))) ++ nl :: p.rest := by
    simpa [ParamLine.after] using h
  -- both newlines are the first of the text
  have hfound := strchr_append_cons hline rest
  rw [hsplit, strchr_append_cons hown p.rest, Option.some.injEq] at hfound
  rw [hfound] at hsplit
  exact List.append_cancel_right hsplit

/-- The line is more than a word and blanks. -/
theorem ParamLine.line_ne {param : Bytes} (p : ParamLine param) {word blanks : Bytes}
    (hword : ∀ c ∈ word, isspace c = false) (hblanks : ∀ c ∈ blanks, isBlank c = true) :
    word ++ blanks ≠ p.word ++ (p.blanks ++ (p.value ++ p.trailing)) := by
  intro hlines
  obtain ⟨d, hd, hsolid⟩ := p.value_head
  -- behind the word there are blanks on one side, and a byte that is none on the other
  obtain ⟨b, bs, hb⟩ := List.exists_cons_of_ne_nil p.blanks_ne_nil
  have hstop : isspace b = true := p.isspace_of_mem_blanks (hb ▸ List.mem_cons_self)
  have hdrop := congrArg (List.dropWhile fun c => !isspace c) hlines
  rw [List.dropWhile_append_of_pos fun c hc => by simp [hword c hc],
    List.dropWhile_append_of_pos fun c hc => by simp [p.word_solid c hc], hb, List.cons_append,
    List.dropWhile_cons_of_neg (by simp [hstop])] at hdrop
  have hmem : d ∈ blanks.dropWhile fun c => !isspace c := by
    rw [hdrop]
    simp [List.mem_of_mem_head? hd]
  have hblank := hblanks d ((List.dropWhile_suffix _).mem hmem)
  simp [isBlank, hsolid] at hblank

/-- A line with a value is not malformed. -/
theorem not_malformed {param : Bytes} (p : ParamLine param) : ¬ Malformed param p.output := by
  have hafter : ∀ after, strstr p.output param = some (param ++ after) → after = p.after := by
    intro after h
    rw [p.strstr_output, Option.some.injEq] at h
    exact (List.append_cancel_left h).symm
  intro h
  cases h with
  | noBlank after first hall =>
    obtain rfl := hafter after first
    exact not_mem_of_solid hall (show isspace nl = true by decide) (by simp [ParamLine.after])
  | noNewline after first hline =>
    obtain rfl := hafter after first
    exact hline (by simp [ParamLine.after])
  | noValue word blanks rest first hword hblanks =>
    have hsame : word ++ (blanks ++ nl :: rest) = p.after := hafter _ first
    rw [← List.append_assoc] at hsame
    have hnl : nl ∉ word ++ blanks := by
      have hblank : isBlank nl = false := by decide
      rw [List.mem_append, not_or]
      refine ⟨not_mem_of_solid hword (by decide), fun hmem => ?_⟩
      rw [hblanks nl hmem] at hblank
      cases hblank
    exact p.line_ne hword hblanks (p.line_of_after hnl hsame)

/-! ### Bounds -/

/-- Where the name occurs, `get_maxadmin_param` either returns 0 or leaves its bounds. -/
theorem getMaxadminParam_of_found {output param found : Bytes}
    (h : strstr output param = some found) {cap : ℕ} {result text : Bytes} {rc : ℤ}
    (hget : getMaxadminParam (some output) param cap result = some (rc, text)) : rc = 0 := by
  simp only [getMaxadminParam, Option.bind_eq_bind, Option.bind_some, h,
    Option.bind_eq_some_iff] at hget
  obtain ⟨x, -, y, -, line, -, mem, -, hcopy⟩ := hget
  obtain ⟨-, hcopy⟩ := Option.ite_none_right_eq_some.mp hcopy
  exact (congrArg Prod.fst (Option.some.inj hcopy)).symm

/-- Without the name both functions report a failure. -/
theorem getMaxadminParam_of_not_found {output param : Bytes} (h : strstr output param = none)
    (cap : ℕ) (result value : Bytes) :
    getMaxadminParam (some output) param cap result = some (1, result) ∧
      checkMaxadminParam (some output) param value = some 1 := by
  have hget : ∀ cap result, getMaxadminParam (some output) param cap result = some (1, result) := by
    intro cap result
    simp only [getMaxadminParam, Option.bind_eq_bind, Option.bind_some, h]
  refine ⟨hget cap result, ?_⟩
  simp only [checkMaxadminParam, Option.bind_eq_bind, hget, Option.bind_some]
  rfl

/-- What the scans see behind the name. -/
theorem drop_of_found {output param after : Bytes}
    (h : strstr output param = some (param ++ after)) :
    (output ++ [0]).drop (output.length - (param ++ after).length + param.length) =
      after ++ [0] := by
  obtain ⟨front, rfl, -, -⟩ := strstr_eq_some_iff.mp h
  have hlen : (front ++ (param ++ after)).length - (param ++ after).length + param.length =
      (front ++ param).length := by
    simp only [List.length_append]
    omega
  have hsplit : front ++ (param ++ after) ++ [0] = (front ++ param) ++ (after ++ [0]) := by simp
  rw [hlen, hsplit, List.drop_left]

/-- Without white space behind the name the first scan leaves the output. -/
theorem getMaxadminParam_of_noBlank {output param after : Bytes}
    (h : strstr output param = some (param ++ after)) (hsolid : ∀ c ∈ after, isspace c = false)
    (cap : ℕ) (result : Bytes) : getMaxadminParam (some output) param cap result = none := by
  have hscan : Scan.forward isspace (output ++ [0])
      (output.length - (param ++ after).length + param.length) = none := by
    rw [Scan.forward_eq_none_iff, drop_of_found h]
    intro c hc
    rcases List.mem_append.mp hc with hc | hc
    · exact hsolid c hc
    · rw [List.mem_singleton.mp hc]
      rfl
  simp only [getMaxadminParam, Option.bind_eq_bind, Option.bind_some, h, hscan, Option.bind_none]

/-- Without a newline behind the name there is no end of the line. -/
theorem getMaxadminParam_of_noNewline {output param after : Bytes}
    (h : strstr output param = some (param ++ after)) (hline : nl ∉ after) (cap : ℕ)
    (result : Bytes) : getMaxadminParam (some output) param cap result = none := by
  obtain ⟨word, tail, rfl, hword, htail⟩ := Scan.exists_span (fun c => !isspace c) after
  have hsolid : ∀ c ∈ word, isspace c = false := fun c hc => by simpa using hword c hc
  match tail with
  | [] => exact getMaxadminParam_of_noBlank h (by simpa using hsolid) cap result
  | c :: cs =>
    have hspace : isspace c = true := by simpa using htail c rfl
    obtain ⟨front, rfl, -, -⟩ := strstr_eq_some_iff.mp h
    have hnone : strchr (c :: cs) nl = none := by
      have hdrop : (c :: cs).dropWhile (· ≠ nl) = [] := by
        rw [List.dropWhile_eq_nil_iff]
        intro d hd
        have hne : d ≠ nl := fun heq => hline (List.mem_append_right _ (heq ▸ hd))
        simpa using hne
      rw [strchr, hdrop]
    rw [getMaxadminParam_of_name h hsolid ⟨c, rfl, hspace⟩, hnone]
    rfl

/-- From a line with nothing but blanks behind the name the empty string is copied. -/
theorem getMaxadminParam_of_noValue {output param word blanks rest : Bytes}
    (hparam : ∃ c ∈ param.getLast?, isspace c = false)
    (first : strstr output param = some (param ++ (word ++ (blanks ++ nl :: rest))))
    (hword : ∀ c ∈ word, isspace c = false) (hblanks : ∀ c ∈ blanks, isBlank c = true)
    {cap : ℕ} (hcap : 0 < cap) (result : Bytes) :
    getMaxadminParam (some output) param cap result = some (0, []) := by
  have hspace : ∀ c ∈ blanks, isspace c = true := fun c hc =>
    (Bool.and_eq_true _ _ ▸ hblanks c hc).1
  have hline : nl ∉ [] ++ blanks := by
    intro hmem
    exact absurd (hblanks nl hmem) (by decide)
  have hhead : ∃ c ∈ ([] ++ (blanks ++ nl :: rest)).head?, isspace c = true := by
    cases blanks with
    | nil => exact ⟨nl, rfl, rfl⟩
    | cons b blanks => exact ⟨b, rfl, hspace b List.mem_cons_self⟩
  obtain ⟨front, rfl, -, -⟩ := strstr_eq_some_iff.mp first
  -- the name and its word end with a byte that is no white space
  have hlast : ∃ c ∈ (front ++ (param ++ (word ++ []))).getLast?, isspace c = false := by
    rcases List.eq_nil_or_concat word with rfl | ⟨init, c, rfl⟩
    · obtain ⟨c, hc, hsolid⟩ := hparam
      exact ⟨c, by simp [Option.mem_def.mp hc], hsolid⟩
    · exact ⟨c, by simp, hword c (by simp)⟩
  rw [← List.nil_append (blanks ++ nl :: rest),
    getMaxadminParam_of_kept first hword hhead hline hspace hlast cap result]
  exact if_pos hcap

/-- Where the name occurs, what is copied is empty or starts with white space. -/
theorem getMaxadminParam_head {output param found : Bytes} (hstring : 0 ∉ output)
    (hparam : ∃ c ∈ param.getLast?, isspace c = false) (hfound : strstr output param = some found)
    {cap : ℕ} (hcap : 0 < cap) {result text : Bytes} {rc : ℤ}
    (hget : getMaxadminParam (some output) param cap result = some (rc, text)) :
    ∀ c ∈ text.head?, isspace c = true := by
  rcases malformed_or_line hfound with hmalformed | ⟨p, rfl⟩
  · cases hmalformed with
    | noBlank after first hsolid =>
      rw [getMaxadminParam_of_noBlank first hsolid] at hget
      cases hget
    | noNewline after first hline =>
      rw [getMaxadminParam_of_noNewline first hline] at hget
      cases hget
    | noValue word blanks rest first hword hblanks =>
      rw [getMaxadminParam_of_noValue hparam first hword hblanks hcap] at hget
      cases hget
      exact nofun
  · rw [getMaxadminParam_of_text p (p.zero_not_mem_value hstring)] at hget
    obtain ⟨-, hget⟩ := Option.ite_none_right_eq_some.mp hget
    cases hget
    obtain ⟨b, hb, hspace⟩ := p.exists_head_blank p.value
    intro c hc
    rw [Option.mem_unique hc hb]
    exact hspace

/-- Both functions stay inside the output and their buffers, and report a failure on malformed
    output. -/
structure StaysInBounds (output param value : Bytes) (cap : ℕ) (result : Bytes) : Prop where
  get : ∃ rc text, getMaxadminParam (some output) param cap result = some (rc, text) ∧
    (Malformed param output → rc ≠ 0)
  check : ∃ rc, checkMaxadminParam (some output) param value = some rc ∧
    (Malformed param output → rc ≠ 0)

/-- **Bounds.** The functions stay in bounds exactly on outputs that do not have the name, or
    have a value on its line that fits into the buffers together with the blanks before it. -/
theorem param_in_bounds_iff (printed param value : Bytes) (cap : ℕ) (result : Bytes) :
    StaysInBounds (sshMaxscaleOutput printed) param value cap result ↔
      ¬ param <:+: sshMaxscaleOutput printed ∨
        ∃ p : ParamLine param, p.output = sshMaxscaleOutput printed ∧
          (p.blanks ++ p.value).length < min cap 1024 := by
  have hstring := zero_not_mem_sshMaxscaleOutput printed
  generalize sshMaxscaleOutput printed = output at hstring
  rw [← strstr_isSome_iff]
  match hfound : strstr output param with
  | none =>
    -- no name, no pointers
    obtain ⟨hget, hcheck⟩ := getMaxadminParam_of_not_found hfound cap result value
    refine iff_of_true ⟨⟨1, result, hget, fun _ => one_ne_zero⟩, 1, hcheck, fun _ => one_ne_zero⟩ ?_
    exact .inl Bool.false_ne_true
  | some found =>
    constructor
    · intro h
      obtain ⟨rc, text, hget, hreport⟩ := h.get
      have hzero := getMaxadminParam_of_found hfound hget
      rcases malformed_or_line hfound with hmalformed | ⟨p, rfl⟩
      · exact absurd hzero (hreport hmalformed)
      · have hvalue : 0 ∉ p.value := p.zero_not_mem_value hstring
        obtain ⟨rc', hcheck, -⟩ := h.check
        -- either buffer has had room
        refine .inr ⟨p, rfl, lt_min ?_ ?_⟩
        · rw [getMaxadminParam_of_text p hvalue] at hget
          exact (Option.ite_none_right_eq_some.mp hget).1
        · simp only [checkMaxadminParam, Option.bind_eq_bind, Option.bind_eq_some_iff] at hcheck
          obtain ⟨⟨rc₁, text₁⟩, hget₁, -⟩ := hcheck
          rw [getMaxadminParam_of_text p hvalue] at hget₁
          exact (Option.ite_none_right_eq_some.mp hget₁).1
    · rintro (habsent | ⟨p, rfl, hroom⟩)
      · exact absurd rfl habsent
      · obtain ⟨hcap, hsize⟩ := lt_min_iff.mp hroom
        have hvalue : 0 ∉ p.value := p.zero_not_mem_value hstring
        have hgood : ¬ Malformed param p.output := not_malformed p
        refine ⟨⟨0, p.blanks ++ p.value, ?_, fun h => absurd h hgood⟩, _,
          checkMaxadminParam_of_line p hvalue hsize value, fun h => absurd h hgood⟩
        rw [getMaxadminParam_of_text p hvalue, if_pos hcap]

/-- A line that ends behind the name. -/
theorem param_not_in_bounds_empty :
    ¬ StaysInBounds (sshMaxscaleOutput (ascii "\tStatus:\n")) (ascii "Status") (ascii "Running") 256
      [] := by
  intro h
  obtain ⟨rc, hcheck, -⟩ := h.check
  have hfault : checkMaxadminParam (some (sshMaxscaleOutput (ascii "\tStatus:\n"))) (ascii "Status")
      (ascii "Running") = none := by
    decide +kernel
  rw [hfault] at hcheck
  cases hcheck

end MaxScaleSystemTest.Maxadmin
