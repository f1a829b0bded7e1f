import MaxScaleSystemTest.Lib.CString
import MaxScaleSystemTest.Lib.Scan

namespace MaxScaleSystemTest.Maxadmin

open CString

/-!
# Reading a parameter from the output of `maxadmin`

`get_maxadmin_param` looks for a name in the output of a command and copies the rest of its
line.  Of its two scans behind the name, the one past the word and the one past the blanks,
the second has the test of the first, so that it stops where it starts and the blanks are
copied too.

* `getMaxadminParam_of_line` — what is copied from a line with a name and a value;
* `get_maxadmin_param_never` — it is never the value alone;
* `checkMaxadminParam_of_line` — `check_maxadmin_param` cuts the blanks off again.
-/

/-! ### The functions -/

/-- `fgets(buffer, 1024, output)`: a line, or 1023 bytes of it, and what is left. -/
def fgets (s : Bytes) : Bytes × Bytes :=
  let n := min 1023 ((s.takeWhile (· ≠ nl)).length + 1)
  (s.take n, s.drop n)

/-- The loop of `ssh_maxscale_output` over the pieces that `fgets` gives, of which there are
    at most `fuel`. -/
def outputLoop : (fuel : ℕ) → Bytes → Bytes
  | 0, _ => []
  | fuel + 1, s =>
    -- `strcat` stops at a NUL in the piece
    if s = [] then [] else cut (fgets s).1 ++ outputLoop fuel (fgets s).2

/-- `ssh_maxscale_output`: the string it makes of what the command prints. -/
def sshMaxscaleOutput (printed : Bytes) : Bytes := outputLoop printed.length printed

/-- `get_maxadmin_param`, on the output of the command (`none` for a NULL pointer) and a
    buffer of `cap` bytes that holds the string `result`: the return value and the string in
    the buffer afterwards, `none` when a pointer is used outside the output or the buffer. -/
def getMaxadminParam (output : Option Bytes) (param : Bytes) (cap : ℕ) (result : Bytes) :
    Option (ℤ × Bytes) := do
  let buf ← output
  match strstr buf param with
  | none => some (1, result)
  | some found =>
    let mem := buf ++ [0]
    let x := buf.length - found.length + param.length
    -- the rest of the name
    let x ← Scan.forward isspace mem x
    -- leading whitespace, with the same test
    let x ← Scan.forward isspace mem x
    let line ← strchr (buf.drop x) nl
    let mem ← Scan.eraseBack isspace 0 mem (buf.length - line.length)
    let value := cut (mem.drop x)
    if value.length < cap then some (0, value) else none

/-- `check_maxadmin_param`; the string in its buffer is only read when `get_maxadmin_param`
    has written it. -/
def checkMaxadminParam (output : Option Bytes) (param value : Bytes) : Option ℤ := do
  let (rc, result) ← getMaxadminParam output param 1024 []
  if rc = 0 then
    match result.length with
    | 0 => none
    | last + 1 =>
      let mem ← Scan.eraseBack isspace 0 (result ++ [0]) last
      let start ← Scan.forward (fun c => !isspace c) mem 0
      return if cut (mem.drop start) = value then 0 else 1
  else return 1

/-! ### What is copied -/

section

variable {front param word tail : Bytes}

/-- Both scans behind the name stop at the white space behind its word. -/
theorem getMaxadminParam_of_name
    (first : strstr (front ++ (param ++ (word ++ tail))) param = some (param ++ (word ++ tail)))
    (hword : ∀ c ∈ word, isspace c = false) (htail : ∃ c ∈ tail.head?, isspace c = true)
    (cap : ℕ) (result : Bytes) :
    let buf := front ++ (param ++ (word ++ tail))
    getMaxadminParam (some buf) param cap result =
      (strchr tail nl).bind fun line =>
        (Scan.eraseBack isspace 0 (buf ++ [0]) (buf.length - line.length)).bind fun mem =>
          let value := cut (mem.drop (front ++ (param ++ word)).length)
          if value.length < cap then some (0, value) else none := by
  intro buf
  obtain ⟨c, hc, hspace⟩ := htail
  obtain ⟨cs, htail⟩ := List.head?_eq_some_iff.mp (Option.mem_def.mp hc)
  have hx : buf.length - (param ++ (word ++ tail)).length + param.length =
      (front ++ param).length := by
    simp only [buf, List.length_append]
    omega
  have hname : (buf ++ [0]).drop (front ++ param).length = word ++ c :: (cs ++ [0]) := by
    have hsplit : buf ++ [0] = (front ++ param) ++ (word ++ c :: (cs ++ [0])) := by
      simp [buf, htail]
    rw [hsplit, List.drop_left]
  have hblank : (buf ++ [0]).drop (front ++ (param ++ word)).length = [] ++ c :: (cs ++ [0]) := by
    have hsplit : buf ++ [0] = (front ++ (param ++ word)) ++ ([] ++ c :: (cs ++ [0])) := by
      simp [buf, htail]
    rw [hsplit, List.drop_left]
  have hline : buf.drop (front ++ (param ++ word)).length = tail := by
    have hsplit : buf = (front ++ (param ++ word)) ++ tail := by simp [buf]
    rw [hsplit, List.drop_left]
  have hfirst : Scan.forward isspace (buf ++ [0]) (front ++ param).length =
      some (front ++ (param ++ word)).length := by
    rw [Scan.forward_of_split hname hword hspace]
    simp [Nat.add_assoc]
  -- the second scan has the same test, so that it does not move
  have hsecond : Scan.forward isspace (buf ++ [0]) (front ++ (param ++ word)).length =
      some (front ++ (param ++ word)).length :=
    Scan.forward_of_split hblank nofun hspace
  have hfound : strstr buf param = some (param ++ (word ++ tail)) := first
  simp only [getMaxadminParam, Option.bind_eq_bind, Option.bind_some, hfound, hx, hfirst, hsecond,
    hline]

/-- **What is copied.** Of a line whose white space at the end is behind a byte that is none, the
    part between the word of the name and that white space is copied, if there is room. -/
theorem getMaxadminParam_of_kept {kept erased rest : Bytes}
    (first : strstr (front ++ (param ++ (word ++ (kept ++ (erased ++ nl :: rest))))) param =
      some (param ++ (word ++ (kept ++ (erased ++ nl :: rest)))))
    (hword : ∀ c ∈ word, isspace c = false)
    (hhead : ∃ c ∈ (kept ++ (erased ++ nl :: rest)).head?, isspace c = true)
    (hline : nl ∉ kept ++ erased) (herased : ∀ c ∈ erased, isspace c = true)
    (hlast : ∃ c ∈ (front ++ (param ++ (word ++ kept))).getLast?, isspace c = false)
    (cap : ℕ) (result : Bytes) :
    getMaxadminParam (some (front ++ (param ++ (word ++ (kept ++ (erased ++ nl :: rest))))))
        param cap result =
      if (cut kept).length < cap then some (0, cut kept) else none := by
  have hstrchr : strchr (kept ++ (erased ++ nl :: rest)) nl = some (nl :: rest) := by
    rw [← List.append_assoc]
    exact strchr_append_cons hline rest
  obtain ⟨c, hc, hsolid⟩ := hlast
  obtain ⟨init, hinit⟩ := List.getLast?_eq_some_iff.mp (Option.mem_def.mp hc)
  let buf := front ++ (param ++ (word ++ (kept ++ (erased ++ nl :: rest))))
  have herased' : ∀ d ∈ erased ++ [nl], isspace d = true := by
    intro d hd
    rcases List.mem_append.mp hd with hd | hd
    · exact herased d hd
    · rw [List.mem_singleton.mp hd]
      rfl
  have hassoc : ∀ t : Bytes,
      front ++ (param ++ (word ++ (kept ++ t))) = init ++ c :: t := by
    intro t
    have happend := congrArg (· ++ t) hinit
    simpa using happend
  have hmem : buf ++ [0] = init ++ c :: ((erased ++ [nl]) ++ (rest ++ [0])) := by
    have hbuf := hassoc (erased ++ nl :: rest)
    simp only [buf, hbuf]
    simp
  have hlen : buf.length - (nl :: rest).length = init.length + (erased ++ [nl]).length := by
    have hbuf : buf = init ++ c :: (erased ++ nl :: rest) := hassoc _
    simp only [hbuf, List.length_append, List.length_cons, List.length_nil]
    omega
  have hzeros : List.replicate (erased ++ [nl]).length (0 : UInt8) =
      0 :: List.replicate erased.length 0 := by
    rw [List.length_append]
    rfl
  -- the newline and the white space before it become NULs
  have herase : Scan.eraseBack isspace 0 (buf ++ [0]) (buf.length - (nl :: rest).length) =
      some ((front ++ (param ++ word)) ++
        (kept ++ 0 :: (List.replicate erased.length 0 ++ (rest ++ [0])))) := by
    rw [hlen, hmem, Scan.eraseBack_of_split init hsolid _ _ herased', hzeros]
    have hback := hassoc (0 :: (List.replicate erased.length 0 ++ (rest ++ [0])))
    simpa using hback.symm
  rw [getMaxadminParam_of_name first hword hhead, hstrchr]
  show (Scan.eraseBack isspace 0 (buf ++ [0]) (buf.length - (nl :: rest).length)).bind _ = _
  rw [herase]
  simp only [Option.bind_some, List.drop_left, cut_append_zero]

end

/-! ### Lines with a value -/

/-- A blank: white space within a line. -/
def isBlank (c : UInt8) : Bool := isspace c && c ≠ nl

/-- An output whose first occurrence of `param` is in a line of the form: `param`, the rest of
    its word, blanks, a value, perhaps more blanks, and a newline. -/
structure ParamLine (param : Bytes) where
  front : Bytes
  word : Bytes
  blanks : Bytes
  value : Bytes
  trailing : Bytes
  rest : Bytes
  word_solid : ∀ c ∈ word, isspace c = false
  blanks_blank : ∀ c ∈ blanks, isBlank c = true
  blanks_ne_nil : blanks ≠ []
  value_head : ∃ c ∈ value.head?, isspace c = false
  value_last : ∃ c ∈ value.getLast?, isspace c = false
  value_line : nl ∉ value
  trailing_blank : ∀ c ∈ trailing, isBlank c = true
  first : strstr (front ++ (param ++ (word ++ (blanks ++ (value ++ (trailing ++ nl :: rest))))))
    param = some (param ++ (word ++ (blanks ++ (value ++ (trailing ++ nl :: rest)))))

namespace ParamLine

variable {param : Bytes} (p : ParamLine param)

/-- What stands behind the name. -/
def after : Bytes := p.word ++ (p.blanks ++ (p.value ++ (p.trailing ++ nl :: p.rest)))

/-- The whole output. -/
def output : Bytes := p.front ++ (param ++ p.after)

theorem strstr_output : strstr p.output param = some (param ++ p.after) := p.first

theorem zero_not_mem_value (h : 0 ∉ p.output) : 0 ∉ p.value := by
  intro hmem
  exact h (by simp [output, after, hmem])

/-- The value ends with a byte that is no white space. -/
theorem exists_value_eq : ∃ init c, p.value = init ++ [c] ∧ isspace c = false := by
  obtain ⟨c, hc, hspace⟩ := p.value_last
  exact ⟨p.value.dropLast, c, (List.dropLast_append_getLast? c hc).symm, hspace⟩

theorem isspace_of_mem_blanks {c : UInt8} (h : c ∈ p.blanks) : isspace c = true :=
  (Bool.and_eq_true _ _ ▸ p.blanks_blank c h).1

theorem isspace_of_mem_trailing {c : UInt8} (h : c ∈ p.trailing) : isspace c = true :=
  (Bool.and_eq_true _ _ ▸ p.trailing_blank c h).1

/-- There is no newline before the one that ends the line. -/
theorem nl_not_mem_line : nl ∉ p.blanks ++ (p.value ++ p.trailing) := by
  have hblank : isBlank nl = false := by decide
  simp only [List.mem_append, not_or]
  refine ⟨fun h => ?_, p.value_line, fun h => ?_⟩
  · exact absurd (p.blanks_blank nl h) (by simp [hblank])
  · exact absurd (p.trailing_blank nl h) (by simp [hblank])

/-- Blanks are no NULs. -/
theorem cut_blanks_value : cut (p.blanks ++ p.value) = p.blanks ++ cut p.value := by
  apply List.takeWhile_append_of_pos
  intro c hc
  have hne : c ≠ 0 := by
    rintro rfl
    exact absurd (p.isspace_of_mem_blanks hc) (by decide)
  simpa using hne

/-- The line starts with a blank. -/
theorem exists_head_blank (s : Bytes) : ∃ c ∈ (p.blanks ++ s).head?, isspace c = true := by
  obtain ⟨b, blanks, hb⟩ := List.exists_cons_of_ne_nil p.blanks_ne_nil
  refine ⟨b, ?_, p.isspace_of_mem_blanks (hb ▸ List.mem_cons_self)⟩
  rw [hb]
  rfl

end ParamLine

section

variable {param : Bytes} (p : ParamLine param)

/-- From a line with a name and a value the blanks are copied together with the value. -/
theorem getMaxadminParam_of_line (cap : ℕ) (result : Bytes) :
    getMaxadminParam (some p.output) param cap result =
      if (p.blanks ++ cut p.value).length < cap then some (0, p.blanks ++ cut p.value)
      else none := by
  obtain ⟨init, c, hvalue, hc⟩ := p.exists_value_eq
  have hline : nl ∉ p.blanks ++ p.value ++ p.trailing := by
    rw [List.append_assoc]
    exact p.nl_not_mem_line
  have hassoc : ∀ s : Bytes, p.blanks ++ (p.value ++ s) = p.blanks ++ p.value ++ s :=
    fun s => (List.append_assoc ..).symm
  have hfirst := p.first
  simp only [hassoc] at hfirst
  rw [ParamLine.output, ParamLine.after, hassoc, getMaxadminParam_of_kept hfirst p.word_solid
    (by rw [List.append_assoc]; exact p.exists_head_blank _) hline
    (fun d hd => p.isspace_of_mem_trailing hd) ⟨c, by simp [hvalue], hc⟩, p.cut_blanks_value]

/-- From a line of text, when there is no NUL in the value. -/
theorem getMaxadminParam_of_text (hvalue : 0 ∉ p.value) (cap : ℕ) (result : Bytes) :
    getMaxadminParam (some p.output) param cap result =
      if (p.blanks ++ p.value).length < cap then some (0, p.blanks ++ p.value) else none := by
  rw [getMaxadminParam_of_line, cut_of_not_mem hvalue]

/-- The value alone has been written. -/
def ExtractsValue (cap : ℕ) (result : Bytes) : Prop :=
  getMaxadminParam (some p.output) param cap result = some (0, p.value)

/-- **Never the value alone.** Whatever blanks stand between the name and the value, they are
    written too. -/
theorem get_maxadmin_param_never (cap : ℕ) (result : Bytes) : ¬ ExtractsValue p cap result := by
  intro h
  rw [ExtractsValue, getMaxadminParam_of_line] at h
  obtain ⟨b, blanks, hb⟩ := List.exists_cons_of_ne_nil p.blanks_ne_nil
  obtain ⟨c, hc, hspace⟩ := p.value_head
  have hblank : isspace b = true := p.isspace_of_mem_blanks (hb ▸ List.mem_cons_self)
  obtain ⟨-, h⟩ := Option.ite_none_right_eq_some.mp h
  have hvalue : p.blanks ++ cut p.value = p.value := congrArg Prod.snd (Option.some.inj h)
  -- the first byte would have to be a blank and none
  rw [← hvalue, hb, List.cons_append, List.head?_cons, Option.mem_some_iff] at hc
  rw [hc, hspace] at hblank
  cases hblank

/-! ### What `check_maxadmin_param` makes of it -/

/-- **The check.** `check_maxadmin_param` passes over the blanks and compares the value. -/
theorem checkMaxadminParam_of_line (hvalue : 0 ∉ p.value)
    (hroom : (p.blanks ++ p.value).length < 1024) (value : Bytes) :
    checkMaxadminParam (some p.output) param value = some (if p.value = value then 0 else 1) := by
  have hget : getMaxadminParam (some p.output) param 1024 [] = some (0, p.blanks ++ p.value) := by
    rw [getMaxadminParam_of_text p hvalue, if_pos hroom]
  obtain ⟨init, c, hlast, hc⟩ := p.exists_value_eq
  obtain ⟨d, hd, hspace⟩ := p.value_head
  obtain ⟨tail, hhead⟩ := List.head?_eq_some_iff.mp (Option.mem_def.mp hd)
  have hlen : (p.blanks ++ p.value).length = (p.blanks ++ init).length + 1 := by
    rw [hlast]
    simp [Nat.add_assoc]
  have hcell : (p.blanks ++ p.value ++ [0])[(p.blanks ++ init).length]? = some c := by
    have hsplit : p.blanks ++ p.value ++ [0] = (p.blanks ++ init) ++ c :: [0] := by simp [hlast]
    rw [hsplit, List.getElem?_append_right (le_refl _), Nat.sub_self]
    rfl
  have hstart : Scan.forward (fun c => !isspace c) (p.blanks ++ p.value ++ [0]) 0 =
      some p.blanks.length := by
    have hsplit : (p.blanks ++ p.value ++ [0]).drop 0 = p.blanks ++ d :: (tail ++ [0]) := by
      simp [hhead]
    rw [Scan.forward_of_split hsplit (fun b hb => by simp [p.isspace_of_mem_blanks hb])
      (by simp [hspace]), Nat.zero_add]
  have htext : cut ((p.blanks ++ p.value ++ [0]).drop p.blanks.length) = p.value := by
    rw [List.append_assoc, List.drop_left]
    have hne : ∀ b ∈ p.value, decide (b ≠ 0) = true := by
      intro b hb
      have hb0 : b ≠ 0 := fun heq => hvalue (heq ▸ hb)
      simpa using hb0
    rw [cut, List.takeWhile_append_of_pos hne]
    simp
  simp only [checkMaxadminParam, Option.bind_eq_bind, hget, Option.bind_some, if_true, hlen,
    Scan.eraseBack_of_stop hcell hc, hstart, htext]
  rfl

end

/-- A line of `show server` with the status of a server. -/
def statusLine : ParamLine (ascii "Status") where
  front :=
    ascii "Server 0x1c4d6a0 (server1)\n\tServer:                              192.168.122.105\n\t"
  word := ascii ":"
  blanks := ascii "                              "
  value := ascii "Master, Running"
  trailing := []
  rest := ascii "\tProtocol:                            MySQLBackend\n"
  word_solid := fun c hc => Bool.eq_false_iff.mpr (List.any_eq_false.mp rfl c hc)
  blanks_blank := List.all_eq_true.mp rfl
  blanks_ne_nil := by decide
  value_head := ⟨77, rfl, rfl⟩
  value_last := ⟨103, rfl, rfl⟩
  value_line := by decide
  trailing_blank := nofun
  first := by decide +kernel

/-- The status is handed over with thirty blanks before it. -/
theorem get_maxadmin_param_padded :
    getMaxadminParam (some statusLine.output) (ascii "Status") 1024 [] =
        some (0, ascii "                              Master, Running") ∧
      ¬ ExtractsValue statusLine 1024 [] := by
  have hget : getMaxadminParam (some statusLine.output) (ascii "Status") 1024 [] =
      some (0, ascii "                              Master, Running") := by
    rw [getMaxadminParam_of_line]
    decide +kernel
  refine ⟨hget, fun h => ?_⟩
  rw [ExtractsValue, hget] at h
  exact absurd h (by decide +kernel)

end MaxScaleSystemTest.Maxadmin
