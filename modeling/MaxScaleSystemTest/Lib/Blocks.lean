import Mathlib.Data.List.Basic
import Mathlib.Order.Monotone.Basic
import Mathlib.Order.Nat

namespace Blocks

/-!
# Counting through blocks

Blocks of given sizes are counted through one cell after the other by a pair of numbers: the
cell within the block, and the block.

* `position_start_add` — the pair after a number of steps;
* `position_snd_eq_iff` — how many steps lead to which block;
* `positions_eq_map` — the steps go through the cells of all blocks in order.
-/

variable (size : ℕ → ℕ)

/-- The number of cells before block `b`. -/
def start : ℕ → ℕ
  | 0 => 0
  | b + 1 => start b + size b

/-- The next cell, which is the first of the next block when this one is full. -/
def next (p : ℕ × ℕ) : ℕ × ℕ := if p.1 + 1 ≥ size p.2 then (0, p.2 + 1) else (p.1 + 1, p.2)

/-- The cell after `n` steps. -/
def position : ℕ → ℕ × ℕ
  | 0 => (0, 0)
  | n + 1 => next size (position n)

/-- The cells of the first `m` blocks. -/
def positions (m : ℕ) : List (ℕ × ℕ) :=
  (List.range m).flatMap fun b => (List.range (size b)).map fun k => (k, b)

variable {size}

theorem start_succ (b : ℕ) : start size (b + 1) = start size b + size b := rfl

theorem next_of_lt {k b : ℕ} (h : k + 1 < size b) : next size (k, b) = (k + 1, b) :=
  if_neg (Nat.not_le.mpr h)

theorem next_of_le {k b : ℕ} (h : size b ≤ k + 1) : next size (k, b) = (0, b + 1) :=
  if_pos h

/-- A block that is not empty starts before the next one. -/
theorem start_strictMono (hpos : ∀ b, 0 < size b) : StrictMono (start size) := by
  apply strictMono_nat_of_lt_succ
  intro b
  exact Nat.lt_add_of_pos_right (hpos b)

/-- **The cell.** The steps behind the start of a block lead to its cells. -/
theorem position_start_add (hpos : ∀ b, 0 < size b) {b k : ℕ} (hk : k < size b) :
    position size (start size b + k) = (k, b) := by
  induction b generalizing k with
  | zero =>
    induction k with
    | zero => rfl
    | succ k ih =>
      rw [← Nat.add_assoc, position, ih (by omega), next_of_lt hk]
  | succ b ihb =>
    induction k with
    | zero =>
      -- the last cell of the block before leads to the first of this one
      obtain ⟨last, hlast⟩ := Nat.exists_eq_add_one_of_ne_zero (hpos b).ne'
      have hstart : start size (b + 1) + 0 = start size b + last + 1 := by
        rw [start_succ, hlast]
        omega
      rw [hstart, position, ihb (by omega), next_of_le hlast.le]
    | succ k ih =>
      rw [← Nat.add_assoc, position, ih (by omega), next_of_lt hk]

/-- Every number of steps leads into some block. -/
theorem exists_start_add (hpos : ∀ b, 0 < size b) (n : ℕ) :
    ∃ b k, k < size b ∧ n = start size b + k := by
  induction n with
  | zero => exact ⟨0, 0, hpos 0, rfl⟩
  | succ n ih =>
    obtain ⟨b, k, hk, rfl⟩ := ih
    by_cases hlast : k + 1 < size b
    · exact ⟨b, k + 1, hlast, by omega⟩
    · refine ⟨b + 1, 0, hpos (b + 1), ?_⟩
      rw [start_succ]
      omega

/-- **The block.** Block `b` is reached between its start and the start of the next one. -/
theorem position_snd_eq_iff (hpos : ∀ b, 0 < size b) {n b : ℕ} :
    (position size n).2 = b ↔ start size b ≤ n ∧ n < start size (b + 1) := by
  obtain ⟨c, k, hk, rfl⟩ := exists_start_add hpos n
  have hmono := (start_strictMono hpos).monotone
  rw [position_start_add hpos hk]
  constructor
  · intro h
    obtain rfl : c = b := h
    rw [start_succ]
    omega
  · rintro ⟨hle, hlt⟩
    show c = b
    by_contra hne
    rcases Nat.lt_or_gt_of_ne hne with hlow | hhigh
    · have hnext : start size (c + 1) ≤ start size b := hmono hlow
      rw [start_succ] at hnext
      omega
    · have hnext : start size (b + 1) ≤ start size c := hmono hhigh
      omega

theorem fst_lt_size (hpos : ∀ b, 0 < size b) (n : ℕ) :
    (position size n).1 < size (position size n).2 := by
  obtain ⟨b, k, hk, rfl⟩ := exists_start_add hpos n
  rw [position_start_add hpos hk]
  exact hk

/-- **The cells.** The steps go through all of them. -/
theorem positions_eq_map (hpos : ∀ b, 0 < size b) (m : ℕ) :
    positions size m = (List.range (start size m)).map (position size) := by
  induction m with
  | zero => rfl
  | succ m ih =>
    have hblock : (List.range (size m)).map (fun k => (k, m))
        = (List.range (size m)).map (position size ∘ fun k => start size m + k) := by
      apply List.map_congr_left
      intro k hk
      exact (position_start_add hpos (List.mem_range.mp hk)).symm
    unfold positions at ih ⊢
    rw [List.range_succ, List.flatMap_append, ih, start_succ, List.range_add, List.map_append,
      List.map_map, ← hblock, List.flatMap_singleton]

end Blocks
