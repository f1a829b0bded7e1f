import MaxScaleSystemTest.Lib.While
import Mathlib.Algebra.Group.Nat.Defs
import Mathlib.Data.List.Basic
import Mathlib.Data.List.Infix
import Mathlib.Tactic.NormNum

namespace Words

/-!
# Memory as machine words

A block of memory is a list of bytes.  The word with number `i` are the 8 bytes from `8 * i` on,
the lowest first; `store` and `load` are `none` outside the block.

* `fill_eq` — a loop that stores the first words;
* `loads_iff` — a block starts with some words exactly when they can be read from it.
-/

/-- The `n` low bytes of a number. -/
def toBytes : (n : ℕ) → ℕ → List UInt8
  | 0, _ => []
  | n + 1, v => UInt8.ofNat v :: toBytes n (v / 256)

/-- The number with these bytes. -/
def ofBytes : List UInt8 → ℕ
  | [] => 0
  | c :: s => c.toNat + 256 * ofBytes s

/-- Words, one after the other. -/
def encode (ws : List ℕ) : List UInt8 := ws.flatMap (toBytes 8)

/-- `mem[i]`. -/
def load (mem : List UInt8) (i : ℕ) : Option ℕ :=
  if 8 * i + 8 ≤ mem.length then some (ofBytes ((mem.drop (8 * i)).take 8)) else none

/-- `mem[i] = v`, of which the low 64 bits are kept. -/
def store (mem : List UInt8) (i v : ℕ) : Option (List UInt8) :=
  if 8 * i + 8 ≤ mem.length then
    some (mem.take (8 * i) ++ toBytes 8 v ++ mem.drop (8 * i + 8))
  else none

/-! ### One word -/

@[simp] theorem length_toBytes (n v : ℕ) : (toBytes n v).length = n := by
  induction n generalizing v with
  | zero => rfl
  | succ n ih => rw [toBytes, List.length_cons, ih]

/-- The bytes of a number that fits stand for it. -/
theorem ofBytes_toBytes {n v : ℕ} (h : v < 256 ^ n) : ofBytes (toBytes n v) = v := by
  induction n generalizing v with
  | zero =>
    rw [pow_zero, Nat.lt_one_iff] at h
    exact h.symm
  | succ n ih =>
    have hrest : v / 256 < 256 ^ n := by
      rw [Nat.div_lt_iff_lt_mul (by norm_num), ← pow_succ]
      exact h
    have hlow : (UInt8.ofNat v).toNat = v % 256 := rfl
    rw [toBytes, ofBytes, ih hrest, hlow]
    exact Nat.mod_add_div v 256

theorem toBytes_ofBytes (s : List UInt8) : toBytes s.length (ofBytes s) = s := by
  induction s with
  | nil => rfl
  | cons c s ih =>
    have hc : c.toNat < 256 := c.toNat_lt
    have hlow : UInt8.ofNat (c.toNat + 256 * ofBytes s) = c := by
      apply UInt8.toNat_inj.mp
      show (c.toNat + 256 * ofBytes s) % 256 = c.toNat
      omega
    have hrest : (c.toNat + 256 * ofBytes s) / 256 = ofBytes s := by omega
    rw [List.length_cons, toBytes, ofBytes, hlow, hrest, ih]

theorem length_encode (ws : List ℕ) : (encode ws).length = 8 * ws.length := by
  induction ws with
  | nil => rfl
  | cons w ws ih =>
    rw [encode, List.flatMap_cons, List.length_append, length_toBytes, ← encode, ih,
      List.length_cons]
    omega

theorem encode_append (ws ws' : List ℕ) : encode (ws ++ ws') = encode ws ++ encode ws' :=
  List.flatMap_append

/-- The words in front of a store stay, and so do those behind it. -/
theorem store_append {front mem : List UInt8} {i : ℕ} (hfront : front.length = 8 * i)
    (hmem : 8 ≤ mem.length) (v : ℕ) :
    store (front ++ mem) i v = some (front ++ toBytes 8 v ++ mem.drop 8) := by
  have hroom : 8 * i + 8 ≤ (front ++ mem).length := by
    rw [List.length_append]
    omega
  rw [store, if_pos hroom, ← hfront, List.take_left, List.drop_append, Nat.add_sub_cancel_left,
    List.drop_eq_nil_of_le (Nat.le_add_right _ 8), List.nil_append]

theorem length_store {mem mem' : List UInt8} {i v : ℕ} (h : store mem i v = some mem') :
    mem'.length = mem.length := by
  unfold store at h
  split at h
  · cases h
    simp only [List.length_append, List.length_take, List.length_drop, length_toBytes]
    omega
  · cases h

theorem store_eq_none_iff (mem : List UInt8) (i v : ℕ) :
    store mem i v = none ↔ mem.length < 8 * i + 8 := by
  unfold store
  split <;> simp <;> omega

/-- A word that fits is read where its bytes are. -/
theorem load_append_iff {front s mem : List UInt8} {i v : ℕ} (hfront : front.length = 8 * i)
    (hs : s.length = 8) (hv : v < 256 ^ 8) :
    load (front ++ s ++ mem) i = some v ↔ s = toBytes 8 v := by
  have hroom : 8 * i + 8 ≤ (front ++ s ++ mem).length := by
    rw [List.length_append, List.length_append]
    omega
  have htake : ((front ++ s ++ mem).drop (8 * i)).take 8 = s := by
    rw [← hfront, List.append_assoc, List.drop_left, ← hs, List.take_left]
  rw [load, if_pos hroom, htake, Option.some.injEq]
  constructor
  · rintro rfl
    rw [← hs, toBytes_ofBytes]
  · rintro rfl
    exact ofBytes_toBytes hv

/-! ### Many words -/

theorem encode_range_succ (f : ℕ → ℕ) (n : ℕ) :
    encode ((List.range (n + 1)).map f) = encode ((List.range n).map f) ++ toBytes 8 (f n) := by
  rw [List.range_succ, List.map_append, encode_append]
  simp [encode]

theorem length_encode_range (f : ℕ → ℕ) (n : ℕ) :
    (encode ((List.range n).map f)).length = 8 * n := by
  rw [length_encode, List.length_map, List.length_range]

/-- Words stored one after the other fill the front of a block. -/
theorem fill_eq (f : ℕ → ℕ) {mem : List UInt8} {n : ℕ} (h : 8 * n ≤ mem.length) :
    While.count (fun j mem => store mem j (f j)) n mem
      = some (encode ((List.range n).map f) ++ mem.drop (8 * n)) := by
  have hstep : ∀ k < n, ∀ mem', mem' = encode ((List.range k).map f) ++ mem.drop (8 * k) →
      ∃ mem'', store mem' k (f k) = some mem'' ∧
        mem'' = encode ((List.range (k + 1)).map f) ++ mem.drop (8 * (k + 1)) := by
    rintro k hk mem' rfl
    have hroom : 8 ≤ (mem.drop (8 * k)).length := by
      rw [List.length_drop]
      omega
    refine ⟨_, store_append (length_encode_range f k) hroom (f k), ?_⟩
    rw [encode_range_succ, List.drop_drop, Nat.mul_succ]
  obtain ⟨mem', hrun, rfl⟩ := While.count_keeps hstep rfl
  exact hrun

/-- Words that can be read are those at the front of the block. -/
theorem loads_iff {f : ℕ → ℕ} {mem : List UInt8} {n : ℕ} (hf : ∀ i < n, f i < 256 ^ 8)
    (h : 8 * n ≤ mem.length) :
    (∀ i < n, load mem i = some (f i)) ↔ encode ((List.range n).map f) <+: mem := by
  induction n with
  | zero => simp [encode]
  | succ n ih =>
    rw [Nat.forall_lt_succ_right] at hf
    rw [Nat.forall_lt_succ_right, ih hf.1 (by omega), encode_range_succ]
    constructor
    · rintro ⟨⟨rest, rfl⟩, hload⟩
      have hrest : 8 ≤ rest.length := by
        rw [List.length_append, length_encode_range] at h
        omega
      rw [← List.take_append_drop 8 rest, ← List.append_assoc,
        load_append_iff (length_encode_range f n) (List.length_take_of_le hrest) hf.2] at hload
      rw [List.prefix_append_right_inj, ← hload]
      exact List.take_prefix 8 rest
    · rintro ⟨rest, rfl⟩
      refine ⟨?_, ?_⟩
      · rw [List.append_assoc]
        exact List.prefix_append _ _
      · exact (load_append_iff (length_encode_range f n) (length_toBytes 8 _) hf.2).mpr rfl

end Words
