import MaxScaleSystemTest.Lib.CString

namespace Printf

open CString

/-!
# Formats without arguments

A text that is passed as a `printf` format with nothing behind it: `%%` stands for a percent
sign, and any other conversion takes an argument that is not there.

* `noArguments_eq_self_iff` — only a text without percent signs stays what it is;
* `message_eq_self_iff` — and the variadic helpers pass it on if its length is an `int` with
  one to spare.
-/

/-- `%`. -/
def percent : UInt8 := 37

/-- The text of a format when no arguments are passed, `none` where it would take one. -/
def noArguments : Bytes → Option Bytes
  | [] => some []
  | [c] => if c = percent then none else some [c]
  | c :: d :: s =>
    if c ≠ percent then (noArguments (d :: s)).map (c :: ·)
    else if d = percent then (noArguments s).map (percent :: ·)
    else none

/-- What a variadic helper makes of a format without arguments: `vsnprintf` gives the length,
    an `int`, and writes into a buffer of one byte more, for which the stack is taken to be large
    enough. -/
def message (format : Bytes) : Option Bytes :=
  (noArguments format).filter fun text => text.length < 2 ^ 31 - 1

theorem noArguments_of_not_mem {s : Bytes} (h : percent ∉ s) : noArguments s = some s := by
  fun_induction noArguments s with
  | case1 => rfl
  | case2 => exact absurd List.mem_cons_self h
  | case3 c hc => rfl
  | case4 c d s hc ih => rw [ih fun hmem => h (List.mem_cons_of_mem c hmem), Option.map_some]
  | case5 c s hc ih => exact absurd (List.mem_cons_of_mem c List.mem_cons_self) h
  | case6 c d s hc hd => exact absurd (not_not.mp hc ▸ List.mem_cons_self) h

/-- A text never gets longer, and one with a percent sign gets shorter. -/
theorem length_noArguments {s text : Bytes} (h : noArguments s = some text) :
    text.length ≤ s.length ∧ (percent ∈ s → text.length < s.length) := by
  fun_induction noArguments s generalizing text with
  | case1 =>
    cases h
    exact ⟨Nat.le_refl 0, nofun⟩
  | case2 => cases h
  | case3 c hc =>
    cases h
    exact ⟨Nat.le_refl 1, fun hmem => absurd (List.mem_singleton.mp hmem).symm hc⟩
  | case4 c d s hc ih =>
    obtain ⟨rest, hrest, rfl⟩ := Option.map_eq_some_iff.mp h
    obtain ⟨hle, hlt⟩ := ih hrest
    refine ⟨Nat.succ_le_succ hle, fun hmem => Nat.succ_lt_succ (hlt ?_)⟩
    exact (List.mem_cons.mp hmem).resolve_left (Ne.symm hc)
  | case5 c s hc ih =>
    obtain ⟨rest, hrest, rfl⟩ := Option.map_eq_some_iff.mp h
    have hle := (ih hrest).1
    simp only [List.length_cons]
    exact ⟨by omega, fun _ => by omega⟩
  | case6 c d s hc hd => cases h

/-- **Verbatim.** A text stays what it is exactly when there is no percent sign in it. -/
theorem noArguments_eq_self_iff {s : Bytes} : noArguments s = some s ↔ percent ∉ s := by
  refine ⟨fun h hmem => ?_, noArguments_of_not_mem⟩
  exact Nat.lt_irrefl _ ((length_noArguments h).2 hmem)

/-- The format that gives a text: every percent sign twice. -/
def escape (text : Bytes) : Bytes :=
  text.flatMap fun c => if c = percent then [percent, percent] else [c]

/-- A text comes from one format only. -/
theorem eq_escape_of_noArguments {s text : Bytes} (h : noArguments s = some text) :
    s = escape text := by
  fun_induction noArguments s generalizing text with
  | case1 =>
    cases h
    rfl
  | case2 => cases h
  | case3 c hc =>
    cases h
    simp [escape, hc]
  | case4 c d s hc ih =>
    obtain ⟨rest, hrest, rfl⟩ := Option.map_eq_some_iff.mp h
    rw [ih hrest]
    simp [escape, hc]
  | case5 c s hc ih =>
    obtain ⟨rest, hrest, rfl⟩ := Option.map_eq_some_iff.mp h
    rw [ih hrest, not_not.mp hc]
    simp [escape]
  | case6 c d s hc hd => cases h

/-- Two formats that give the same text are the same. -/
theorem noArguments_injective {s s' text : Bytes} (h : noArguments s = some text)
    (h' : noArguments s' = some text) : s = s' :=
  (eq_escape_of_noArguments h).trans (eq_escape_of_noArguments h').symm

/-- A character that starts no conversion changes nothing behind a format. -/
theorem isSome_noArguments_append {c : UInt8} (hc : c ≠ percent) (s : Bytes) :
    (noArguments (s ++ [c])).isSome = (noArguments s).isSome := by
  fun_induction noArguments s with
  | case1 => simp [noArguments, hc]
  | case2 => simp [noArguments, hc]
  | case3 d hd => simp [noArguments, hc, hd]
  | case4 d e s hd ih =>
    rw [List.cons_append, List.cons_append, noArguments, if_pos hd, Option.isSome_map,
      Option.isSome_map, ← ih]
    rfl
  | case5 d s hd ih =>
    rw [List.cons_append, List.cons_append, noArguments, if_neg hd, if_pos rfl, Option.isSome_map,
      Option.isSome_map, ← ih]
  | case6 d e s hd he =>
    rw [List.cons_append, List.cons_append, noArguments, if_neg hd, if_neg he]

theorem length_message {s text : Bytes} (h : message s = some text) : text.length ≤ s.length :=
  (length_noArguments (Option.filter_eq_some_iff.mp h).1).1

theorem message_eq_self_iff {s : Bytes} :
    message s = some s ↔ percent ∉ s ∧ s.length < 2 ^ 31 - 1 := by
  rw [message, Option.filter_eq_some_iff, noArguments_eq_self_iff, decide_eq_true_iff]

/-- A text that is short enough is passed on as its format makes it. -/
theorem message_of_length_lt {s : Bytes} (h : s.length < 2 ^ 31 - 1) :
    message s = noArguments s := by
  unfold message
  cases htext : noArguments s with
  | none => rfl
  | some text =>
    have hle := (length_noArguments htext).1
    exact Option.filter_some_pos (decide_eq_true (by omega))

end Printf
