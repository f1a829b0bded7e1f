import MaxScaleSystemTest.Lib.Buffer
import MaxScaleSystemTest.Lib.While

namespace MaxScaleSystemTest.Sql.EventSize

open CString While

/-!
# Events of a given size

`create_event_size` writes an INSERT with a value that is so long that the event in the binary log
gets the size that is asked for.  `different_packet_size` sends such INSERTs, with sizes around
one, two and three times `0x0ffffff`.

* `createEventSize_of_le`, `createEventSize_eq_none` — the text, and when there is none;
* `create_event_size_text` — both together;
* `different_packet_size_below` — the statements that are sent.
-/

/-- `prefix`. -/
def eventPrefix : Bytes := ascii "insert into test.large_event values (1, '"

/-- `postfix`. -/
def eventPostfix : Bytes := ascii "');"

/-- The byte `a`. -/
def letter : UInt8 := 97

/-- `create_event_size`, which writes to a block of `size + 1` bytes from `malloc`; `none` when it
    writes outside. -/
def createEventSize (size : UInt64) (event : Buffer (size + 1).toNat) :
    Option (Buffer (size + 1).toNat) := do
  let event ← event.strcpy? 0 eventPrefix
  let max := size - 55 - 45
  let event ← count (fun i event => event.set? (i + eventPrefix.length) letter) max.toNat event
  event.strcpy? (max.toNat + eventPrefix.length) eventPostfix

/-- `range`, as `different_packet_size` sets it for its range number `i`. -/
def range (smoke : Bool) (i : ℕ) : ℕ :=
  if i = 2 then 10 else if smoke then 20 else 50

/-- The sizes of range number `i`: from `range_min` on, and below `range_max`. -/
def sizes (smoke : Bool) (i : ℕ) : List ℕ :=
  List.range' (0x0ffffff * (i + 1) - range smoke i) (2 * range smoke i)

/-- The INSERT of a value of `n` letters. -/
def eventText (n : ℕ) : Bytes := eventPrefix ++ List.replicate n letter ++ eventPostfix

/-! ### The text -/

variable {size : UInt64}

theorem length_eventPrefix : eventPrefix.length = 41 := by decide

theorem length_eventPostfix : eventPostfix.length = 3 := by decide

theorem length_eventText (n : ℕ) : (eventText n).length = n + 44 := by
  simp only [eventText, List.length_append, List.length_replicate, length_eventPrefix,
    length_eventPostfix]
  omega

theorem zero_notMem_eventText (n : ℕ) : 0 ∉ eventText n := by
  have hprefix : (0 : UInt8) ∉ eventPrefix := by decide
  have hpostfix : (0 : UInt8) ∉ eventPostfix := by decide
  have hletters : (0 : UInt8) ∉ List.replicate n letter := by
    intro hmem
    cases List.eq_of_mem_replicate hmem
  simp [eventText, hprefix, hpostfix, hletters]

/-- The number of letters. -/
theorem toNat_max (h : 100 ≤ size.toNat) : (size - 55 - 45).toNat = size.toNat - 100 := by
  have hlt := size.toNat_lt
  simp only [UInt64.toNat_sub, UInt64.reduceToNat]
  omega

theorem lt_toNat_max (h : size.toNat < 100) : size.toNat + 1 < (size - 55 - 45).toNat := by
  simp only [UInt64.toNat_sub, UInt64.reduceToNat]
  omega

/-- The size of the block. -/
theorem toNat_succ (h : size.toNat + 1 < 2 ^ 64) : (size + 1).toNat = size.toNat + 1 := by
  simp only [UInt64.toNat_add, UInt64.reduceToNat]
  omega

/-- Every letter stands behind what has been written before. -/
theorem count_letters {cap n : ℕ} {front : Bytes} {b : Buffer cap}
    (hb : b.bytes.take front.length = front) (hn : n + front.length ≤ cap) :
    ∃ b', count (fun i event => event.set? (i + front.length) letter) n b = some b' ∧
      b'.bytes.take (n + front.length) = front ++ List.replicate n letter := by
  have hstart : b.bytes.take (0 + front.length) = front ++ List.replicate 0 letter := by
    rw [Nat.zero_add, hb, List.replicate_zero, List.append_nil]
  have hstep : ∀ k < n, ∀ event : Buffer cap,
      event.bytes.take (k + front.length) = front ++ List.replicate k letter →
        ∃ event', event.set? (k + front.length) letter = some event' ∧
          event'.bytes.take (k + 1 + front.length) = front ++ List.replicate (k + 1) letter := by
    intro k hk event hevent
    obtain ⟨event', hevent'⟩ := Option.ne_none_iff_exists'.mp
      (mt (Buffer.set?_eq_none_iff event (k + front.length) letter).mp (by omega))
    refine ⟨event', hevent', ?_⟩
    have htake := Buffer.take_set? hevent'
    rw [hevent, List.append_assoc, ← List.replicate_succ'] at htake
    rw [Nat.add_right_comm, htake]
  exact count_keeps hstep hstart

/-- **The text.** -/
theorem createEventSize_of_le (h : 100 ≤ size.toNat) (hlt : size.toNat + 1 < 2 ^ 64)
    (memory : Buffer (size + 1).toNat) :
    ∃ event, createEventSize size memory = some event ∧
      event.cstring = eventText (size.toNat - 100) := by
  have hcap := toNat_succ hlt
  have hlength := length_eventPrefix
  obtain ⟨b₁, hb₁, htake₁⟩ := Buffer.strcpy?_of_fits (b := memory) (i := 0) (s := eventPrefix)
    (by omega)
  rw [Nat.zero_add, List.take_zero, List.nil_append] at htake₁
  obtain ⟨b₂, hb₂, htake₂⟩ := count_letters (n := size.toNat - 100)
    (Buffer.take_of_take_succ htake₁) (by omega)
  obtain ⟨b₃, hb₃, htake₃⟩ := Buffer.strcpy?_of_fits (b := b₂)
    (i := size.toNat - 100 + eventPrefix.length) (s := eventPostfix)
    (by rw [length_eventPostfix]; omega)
  refine ⟨b₃, ?_, Buffer.cstring_of_take ?_ (zero_notMem_eventText _)⟩
  · simp only [createEventSize, hb₁, toNat_max h, Option.bind_eq_bind, Option.bind_some, hb₂, hb₃]
  · have hend : (eventText (size.toNat - 100)).length + 1 =
        size.toNat - 100 + eventPrefix.length + eventPostfix.length + 1 := by
      rw [length_eventText, length_eventPrefix, length_eventPostfix]
    rw [hend, htake₃, htake₂, eventText]

/-- **No text.** -/
theorem createEventSize_eq_none (h : ¬ (100 ≤ size.toNat ∧ size.toNat + 1 < 2 ^ 64))
    (memory : Buffer (size + 1).toNat) : createEventSize size memory = none := by
  rw [createEventSize]
  by_cases hlt : size.toNat + 1 < 2 ^ 64
  · have hcap := toNat_succ hlt
    have hmax : size.toNat + 1 < (size - 55 - 45).toNat := lt_toNat_max (by omega)
    cases memory.strcpy? 0 eventPrefix with
    | none => rfl
    | some b₁ =>
      -- the loop writes behind the block
      have hnone : count (fun i (event : Buffer (size + 1).toNat) =>
          event.set? (i + eventPrefix.length) letter) (size - 55 - 45).toNat b₁ = none := by
        refine count_eq_none (fun _ => True) (fun _ _ _ _ _ => trivial) hmax
          (fun event _ => (Buffer.set?_eq_none_iff _ _ _).mpr ?_) trivial
        omega
      simp only [Option.bind_eq_bind, Option.bind_some, hnone, Option.bind_none]
  · -- the block has no bytes
    have hcap : (size + 1).toNat = 0 := by
      have hsize := size.toNat_lt
      simp only [UInt64.toNat_add, UInt64.reduceToNat]
      omega
    rw [Buffer.strcpy?_eq_none (by rw [hcap]; exact Nat.zero_le _)]
    rfl

/-- **An INSERT of any size.** With sizes from 100 on, but the last one, the text is one INSERT of
    `size - 100` letters; with any other size `create_event_size` writes outside its block. -/
theorem create_event_size_text (size : UInt64) (memory : Buffer (size + 1).toNat) :
    (createEventSize size memory).map Buffer.cstring =
      if 100 ≤ size.toNat ∧ size.toNat + 1 < 2 ^ 64 then some (eventText (size.toNat - 100))
      else none := by
  split
  · next h =>
    obtain ⟨event, hevent, htext⟩ := createEventSize_of_le h.1 h.2 memory
    rw [hevent, Option.map_some, htext]
  · next h => rw [createEventSize_eq_none h memory, Option.map_none]

/-! ### The statements that are sent -/

theorem range_le (smoke : Bool) (i : ℕ) : range smoke i ≤ 50 := by
  unfold range
  split
  · omega
  · split <;> omega

/-- **Sizes around a limit.** Every statement that `different_packet_size` sends is made without a
    write outside its block; the statements of range number `i`, with the byte of the command, have
    up to 105 bytes less than `i + 1` times `0x0ffffff`, and none of them reaches it. -/
theorem different_packet_size_below (smoke : Bool) {i j : ℕ} (hi : i < 3) (hj : j ∈ sizes smoke i)
    (memory : Buffer (UInt64.ofNat j + 1).toNat) :
    ∃ event, createEventSize (UInt64.ofNat j) memory = some event ∧
      event.cstring = eventText (j - 100) ∧
      0x0ffffff * (i + 1) ≤ event.cstring.length + 1 + 105 ∧
      event.cstring.length + 1 < 0x0ffffff * (i + 1) := by
  have hrange := range_le smoke i
  obtain ⟨hmin, hmax⟩ := List.mem_range'_1.mp hj
  have hsize : (UInt64.ofNat j).toNat = j := UInt64.toNat_ofNat_of_lt' (by
    show j < 2 ^ 64
    omega)
  obtain ⟨event, hevent, htext⟩ := createEventSize_of_le (by omega) (by omega) memory
  rw [hsize] at htext
  refine ⟨event, hevent, htext, ?_, ?_⟩
  · rw [htext, length_eventText]
    omega
  · rw [htext, length_eventText]
    omega

/-- A size right below the first limit. -/
theorem different_packet_size_below_first :
    ∃ event, createEventSize (UInt64.ofNat 0x0fffff0) (Buffer.zero _) = some event ∧
      event.cstring = eventText (0x0fffff0 - 100) ∧
      0x0ffffff * (0 + 1) ≤ event.cstring.length + 1 + 105 ∧
      event.cstring.length + 1 < 0x0ffffff * (0 + 1) :=
  different_packet_size_below true (by decide) (List.mem_range'_1.mpr (by decide)) (Buffer.zero _)

end MaxScaleSystemTest.Sql.EventSize
