import MaxScaleSystemTest.Lib.CString

namespace Growing

open CString

/-!
# Buffers that grow

A text is put together in allocated memory, which `realloc` makes larger before `strcat` puts
the next piece behind what there is.  A block is the list of its bytes; a `strcat` that finds no
NUL or writes behind the block gives `none`.

* `strcat_of_room` — what `strcat` does when there is room;
* `grow_holds` — a block that grows by the length of a piece or more has room for it.
-/

/-- `calloc`. -/
def calloc (size : ℕ) : Bytes := List.replicate size 0

/-- `realloc`; new bytes hold `junk`, which depends on the size. -/
def realloc (junk : ℕ → ℕ → UInt8) (mem : Bytes) (size : ℕ) : Bytes :=
  mem.take size ++ (List.range (size - mem.length)).map (junk size)

/-- `strcat(mem, s)` with a C string `s`. -/
def strcat (mem s : Bytes) : Option Bytes :=
  let text := cut mem
  if 0 ∈ mem ∧ text.length + s.length + 1 ≤ mem.length then
    some (text ++ s ++ 0 :: mem.drop (text.length + s.length + 1))
  else none

/-- A block and the variable that keeps its size. -/
structure Growth where
  mem : Bytes
  rsize : ℕ

/-- `mem = realloc(mem, inc + rsize); rsize += inc; strcat(mem, s);`. -/
def grow (junk : ℕ → ℕ → UInt8) (inc : ℕ) (s : Bytes) (g : Growth) : Option Growth :=
  (strcat (realloc junk g.mem (inc + g.rsize)) s).map fun mem => ⟨mem, g.rsize + inc⟩

/-- The block holds a text with its NUL; it is not larger than `rsize`, which has room for both. -/
structure Holds (text : Bytes) (g : Growth) : Prop where
  terminated : 0 ∈ g.mem
  cut_eq : cut g.mem = text
  room : text.length + 1 ≤ g.rsize
  le : g.mem.length ≤ g.rsize

section

variable {mem s text : Bytes} {g : Growth}

theorem length_realloc (junk : ℕ → ℕ → UInt8) (mem : Bytes) (size : ℕ) :
    (realloc junk mem size).length = size := by
  rw [realloc, List.length_append, List.length_take, List.length_map, List.length_range]
  omega

/-- A block that is not made smaller keeps what it holds. -/
theorem realloc_of_le (junk : ℕ → ℕ → UInt8) {size : ℕ} (h : mem.length ≤ size) :
    ∃ rest, realloc junk mem size = mem ++ rest := by
  rw [realloc, List.take_of_length_le h]
  exact ⟨_, rfl⟩

theorem length_cut_lt (h : 0 ∈ mem) : (cut mem).length < mem.length := by
  obtain ⟨front, rest, rfl⟩ := List.append_of_mem h
  rw [cut_append_zero, List.length_append, List.length_cons]
  have hle : (cut front).length ≤ front.length := (List.takeWhile_prefix _).length_le
  omega

theorem not_mem_cut (mem : Bytes) : 0 ∉ cut mem := by
  intro h
  have hne := List.mem_takeWhile_imp h
  simp at hne

/-- With room for it, the string is put behind the text. -/
theorem strcat_of_room (hterm : 0 ∈ mem) (hs : 0 ∉ s)
    (hroom : (cut mem).length + s.length + 1 ≤ mem.length) :
    ∃ mem', strcat mem s = some mem' ∧ 0 ∈ mem' ∧ cut mem' = cut mem ++ s ∧
      mem'.length = mem.length := by
  refine ⟨_, if_pos ⟨hterm, hroom⟩, by simp, ?_, ?_⟩
  · rw [cut_append_zero]
    apply cut_of_not_mem
    rw [List.mem_append, not_or]
    exact ⟨not_mem_cut mem, hs⟩
  · simp only [List.length_append, List.length_cons, List.length_drop]
    omega

/-- **A piece.** A block that grows by at least its length has room for it. -/
theorem grow_holds (junk : ℕ → ℕ → UInt8) (h : Holds text g) (hs : 0 ∉ s) {inc : ℕ} (hinc : s.length ≤ inc) :
    ∃ g', grow junk inc s g = some g' ∧ Holds (text ++ s) g' ∧ g'.mem.length = g'.rsize ∧
      g'.rsize = g.rsize + inc := by
  obtain ⟨rest, hrealloc⟩ := realloc_of_le junk (h.le.trans (Nat.le_add_left g.rsize inc))
  have hlength := length_realloc junk g.mem (inc + g.rsize)
  have hterm : 0 ∈ realloc junk g.mem (inc + g.rsize) := by
    rw [hrealloc]
    exact List.mem_append_left _ h.terminated
  have hcut : cut (realloc junk g.mem (inc + g.rsize)) = text := by
    rw [hrealloc, cut_append_of_mem h.terminated, h.cut_eq]
  have hroom : (cut (realloc junk g.mem (inc + g.rsize))).length + s.length + 1
      ≤ (realloc junk g.mem (inc + g.rsize)).length := by
    have := h.room
    rw [hcut, hlength]
    omega
  obtain ⟨mem', hstrcat, hterm', hcut', hlength'⟩ := strcat_of_room hterm hs hroom
  have hsize : mem'.length = g.rsize + inc := by
    rw [hlength', hlength, Nat.add_comm]
  refine ⟨⟨mem', g.rsize + inc⟩, by rw [grow, hstrcat]; rfl, ⟨hterm', ?_, ?_, hsize.le⟩, hsize, rfl⟩
  · rw [hcut', hcut]
  · have := h.room
    simp only [List.length_append]
    omega

end

end Growing
