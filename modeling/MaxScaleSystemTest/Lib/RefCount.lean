import Mathlib.Data.List.Count
import Mathlib.Data.List.Nodup
import Mathlib.Tactic.Common

namespace RefCount

/-!
# Reference counting

A heap of cells with counts, each cell owning the cells its value refers to.  `release` gives
a list of references back: a count goes down, and a cell whose last reference is given back is
freed, which gives back the references of its value.  Giving back a reference to a cell that
is not there is a fault.

* `Sound` — every count is the number of owners, the references held from outside counted in;
* `Sound.release` — what is held can be given back, and the heap stays sound;
* `eq_nil_of_sound` — a sound heap without cycles of which nothing is held is empty;
* `balanced_iff` — of a heap held by one reference the releases are balanced exactly when this
  reference is given back, once, and nothing else.
-/

/-- A cell. -/
structure Cell (α : Type*) where
  addr : ℕ
  count : ℕ
  value : α

/-- The cells that are allocated. -/
abbrev Heap (α : Type*) := List (Cell α)

variable {α : Type*}

/-- The cell at an address. -/
def find (h : Heap α) (a : ℕ) : Option (Cell α) := h.find? fun c => c.addr = a

/-- Free a cell. -/
def erase (h : Heap α) (a : ℕ) : Heap α := h.filter fun c => c.addr ≠ a

/-- Take one off the count of a cell. -/
def decrement (h : Heap α) (a : ℕ) : Heap α :=
  h.map fun c => if c.addr = a then { c with count := c.count - 1 } else c

theorem mem_of_find {h : Heap α} {a : ℕ} {c : Cell α} (hfind : find h a = some c) :
    c ∈ h ∧ c.addr = a := by
  have haddr := List.find?_some hfind
  exact ⟨List.mem_of_find?_eq_some hfind, by simpa using haddr⟩

theorem find_eq_none_iff {h : Heap α} {a : ℕ} : find h a = none ↔ ∀ c ∈ h, c.addr ≠ a := by
  unfold find
  simp

/-- Freeing a cell makes the heap smaller. -/
theorem length_erase_lt {h : Heap α} {a : ℕ} {c : Cell α} (hfind : find h a = some c) :
    (erase h a).length < h.length := by
  obtain ⟨hmem, haddr⟩ := mem_of_find hfind
  exact List.length_filter_lt_length_iff_exists.mpr ⟨c, hmem, by simpa using haddr⟩

variable (children : α → List ℕ)

/-- Give back some references; `none` when one of them is to a cell that is not there. -/
def release : List ℕ → Heap α → Option (Heap α)
  | [], h => some h
  | a :: pending, h =>
    match _hfind : find h a with
    | none => none
    | some c =>
      if c.count = 1 then release (children c.value ++ pending) (erase h a)
      else release pending (decrement h a)
termination_by pending h => (h.length, pending.length)
decreasing_by
  · exact Prod.Lex.left _ _ (length_erase_lt _hfind)
  · have hlength : (decrement h a).length = h.length := List.length_map ..
    rw [hlength]
    exact Prod.Lex.right _ (Nat.lt_succ_self _)

@[simp] theorem release_nil (h : Heap α) : release children [] h = some h := by
  rw [release]

theorem release_of_none {h : Heap α} {a : ℕ} (hfind : find h a = none) (pending : List ℕ) :
    release children (a :: pending) h = none := by
  rw [release]
  split
  · rfl
  · rename_i hsome
    rw [hfind] at hsome
    cases hsome

theorem release_of_some {h : Heap α} {a : ℕ} {c : Cell α} (hfind : find h a = some c)
    (pending : List ℕ) :
    release children (a :: pending) h =
      if c.count = 1 then release children (children c.value ++ pending) (erase h a)
      else release children pending (decrement h a) := by
  rw [release]
  split
  · rename_i hnone
    rw [hfind] at hnone
    cases hnone
  · rename_i hsome
    rw [hfind] at hsome
    cases hsome
    rfl

/-! ### Owners -/

/-- How often the values of the cells refer to an address. -/
def links (h : Heap α) (a : ℕ) : ℕ := (h.flatMap fun c => children c.value).count a

/-- How often an address is owned: by cells, and from outside. -/
def owners (h : Heap α) (held : List ℕ) (a : ℕ) : ℕ := links children h a + held.count a

/-- Every count is the number of owners, and what is owned is there. -/
structure Sound (h : Heap α) (held : List ℕ) : Prop where
  nodup : (h.map Cell.addr).Nodup
  counts : ∀ c ∈ h, c.count = owners children h held c.addr
  owned : ∀ c ∈ h, 0 < c.count
  live : ∀ a, 0 < owners children h held a → ∃ c ∈ h, c.addr = a

/-- Values refer to later addresses only. -/
def Acyclic (h : Heap α) : Prop := ∀ c ∈ h, ∀ b ∈ children c.value, c.addr < b

@[simp] theorem links_nil (a : ℕ) : links children [] a = 0 := rfl

@[simp] theorem links_cons (c : Cell α) (h : Heap α) (a : ℕ) :
    links children (c :: h) a = (children c.value).count a + links children h a := by
  rw [links, List.flatMap_cons, List.count_append, links]

/-- A freed cell leaves its links behind, to be given back. -/
theorem links_erase {h : Heap α} (hnodup : (h.map Cell.addr).Nodup) {c : Cell α} (hmem : c ∈ h)
    (b : ℕ) :
    links children h b = links children (erase h c.addr) b + (children c.value).count b := by
  induction h with
  | nil => cases hmem
  | cons d h ih =>
    rw [List.map_cons, List.nodup_cons] at hnodup
    obtain ⟨hfirst, hrest⟩ := hnodup
    unfold erase
    rcases List.mem_cons.mp hmem with rfl | hmem
    · -- no other cell has the address of the first one
      have hkeep : h.filter (fun d => d.addr ≠ c.addr) = h := by
        rw [List.filter_eq_self]
        intro d hd
        have hne : d.addr ≠ c.addr := fun heq => hfirst (heq ▸ List.mem_map_of_mem hd)
        simpa using hne
      rw [List.filter_cons_of_neg (by simp), hkeep, links_cons, Nat.add_comm]
    · have hne : d.addr ≠ c.addr := fun heq => hfirst (heq ▸ List.mem_map_of_mem hmem)
      have hstep := ih hrest hmem
      unfold erase at hstep
      rw [List.filter_cons_of_pos (by simpa using hne), links_cons, links_cons, hstep,
        Nat.add_assoc]

/-- A count that goes down does not change the links. -/
theorem links_decrement (h : Heap α) (a b : ℕ) :
    links children (decrement h a) b = links children h b := by
  have hvalue : ∀ c : Cell α, (if c.addr = a then { c with count := c.count - 1 } else c).value
      = c.value := by
    intro c
    split_ifs <;> rfl
  simp only [links, decrement, List.flatMap_map, hvalue]

theorem mem_erase {h : Heap α} {a : ℕ} {c : Cell α} : c ∈ erase h a ↔ c ∈ h ∧ c.addr ≠ a := by
  simp [erase]

variable {children}

/-- **Freeing keeps soundness.** The references of the freed cell are held instead of the one
    that was given back. -/
theorem Sound.erase {h : Heap α} {held : List ℕ} {a : ℕ} {c : Cell α}
    (hs : Sound children h (a :: held)) (hfind : find h a = some c) (hone : c.count = 1) :
    Sound children (RefCount.erase h a) (children c.value ++ held) := by
  obtain ⟨hmem, rfl⟩ := mem_of_find hfind
  have howners : ∀ b, owners children h (c.addr :: held) b
      = owners children (RefCount.erase h c.addr) (children c.value ++ held) b
        + if c.addr = b then 1 else 0 := by
    intro b
    simp only [owners, links_erase children hs.nodup hmem, List.count_append, List.count_cons,
      beq_iff_eq]
    omega
  -- the reference given back was the only one to the cell
  have hgone : owners children (RefCount.erase h c.addr) (children c.value ++ held) c.addr = 0 := by
    have hcount := hs.counts c hmem
    rw [howners, if_pos rfl, hone] at hcount
    omega
  refine ⟨?_, fun d hd => ?_, fun d hd => hs.owned d (mem_erase.mp hd).1, fun b hb => ?_⟩
  · exact hs.nodup.sublist (List.filter_sublist.map _)
  · obtain ⟨hd, hne⟩ := mem_erase.mp hd
    rw [hs.counts d hd, howners, if_neg (Ne.symm hne), Nat.add_zero]
  · obtain ⟨d, hd, rfl⟩ := hs.live b (by rw [howners]; omega)
    refine ⟨d, mem_erase.mpr ⟨hd, fun heq => ?_⟩, rfl⟩
    rw [heq, hgone] at hb
    omega

/-- Lowering a count keeps soundness. -/
theorem Sound.decrement {h : Heap α} {held : List ℕ} {a : ℕ} {c : Cell α}
    (hs : Sound children h (a :: held)) (hfind : find h a = some c) (hone : c.count ≠ 1) :
    Sound children (RefCount.decrement h a) held := by
  obtain ⟨hmem, rfl⟩ := mem_of_find hfind
  have howners : ∀ b, owners children h (c.addr :: held) b
      = owners children (RefCount.decrement h c.addr) held b + if c.addr = b then 1 else 0 := by
    intro b
    simp only [owners, links_decrement, List.count_cons, beq_iff_eq]
    omega
  have haddr : ∀ d : Cell α,
      (if d.addr = c.addr then { d with count := d.count - 1 } else d).addr = d.addr := by
    intro d
    split_ifs <;> rfl
  have hsame : ∀ d ∈ h, d.addr = c.addr → d = c := fun d hd heq =>
    List.inj_on_of_nodup_map hs.nodup hd hmem heq
  have hmap : (RefCount.decrement h c.addr).map Cell.addr = h.map Cell.addr := by
    unfold RefCount.decrement
    rw [List.map_map]
    exact List.map_congr_left fun d _ => haddr d
  refine ⟨hmap ▸ hs.nodup, fun d' hd' => ?_, fun d' hd' => ?_, fun b hb => ?_⟩
  · obtain ⟨d, hd, rfl⟩ := List.mem_map.mp hd'
    have hcount := hs.counts d hd
    rw [howners] at hcount
    rw [haddr]
    split_ifs with heq
    · rw [heq, if_pos rfl] at hcount
      rw [heq]
      show d.count - 1 = _
      omega
    · rw [if_neg (Ne.symm heq)] at hcount
      exact hcount
  · obtain ⟨d, hd, rfl⟩ := List.mem_map.mp hd'
    have hpos := hs.owned d hd
    split_ifs with heq
    · obtain rfl := hsame d hd heq
      show 0 < d.count - 1
      omega
    · exact hpos
  · obtain ⟨d, hd, rfl⟩ := hs.live b (by rw [howners]; omega)
    exact ⟨_, List.mem_map_of_mem hd, haddr d⟩

/-- **Giving back what is held.** It never faults, and leaves a sound heap. -/
theorem Sound.release {h : Heap α} {pending held : List ℕ}
    (hs : Sound children h (pending ++ held)) :
    ∃ h', RefCount.release children pending h = some h' ∧ Sound children h' held := by
  induction pending, h using RefCount.release.induct children with
  | case1 h => exact ⟨h, release_nil children h, hs⟩
  | case2 a pending h hnone =>
    have hheld : 0 < owners children h (a :: pending ++ held) a := by
      rw [owners, List.cons_append, List.count_cons_self]
      omega
    obtain ⟨c, hc, haddr⟩ := hs.live a hheld
    exact absurd haddr (find_eq_none_iff.mp hnone c hc)
  | case3 a pending h c hfind hone ih =>
    rw [List.cons_append] at hs
    have hrest := hs.erase hfind hone
    rw [← List.append_assoc] at hrest
    rw [release_of_some children hfind, if_pos hone]
    exact ih hrest
  | case4 a pending h c hfind hone ih =>
    rw [List.cons_append] at hs
    rw [release_of_some children hfind, if_neg hone]
    exact ih (hs.decrement hfind hone)

/-! ### Heaps without cycles -/

/-- What is left was there before, up to its count. -/
theorem mem_of_release {h h' : Heap α} {pending : List ℕ}
    (hrun : release children pending h = some h') :
    ∀ c' ∈ h', ∃ c ∈ h, c.addr = c'.addr ∧ c.value = c'.value := by
  induction pending, h using RefCount.release.induct children with
  | case1 h =>
    cases (release_nil children h).symm.trans hrun
    exact fun c' hc' => ⟨c', hc', rfl, rfl⟩
  | case2 a pending h hnone =>
    rw [release_of_none children hnone] at hrun
    cases hrun
  | case3 a pending h c hfind hone ih =>
    rw [release_of_some children hfind, if_pos hone] at hrun
    intro c' hc'
    obtain ⟨d, hd, hsame⟩ := ih hrun c' hc'
    exact ⟨d, (mem_erase.mp hd).1, hsame⟩
  | case4 a pending h c hfind hone ih =>
    rw [release_of_some children hfind, if_neg hone] at hrun
    intro c' hc'
    obtain ⟨d', hd', haddr, hvalue⟩ := ih hrun c' hc'
    obtain ⟨d, hd, rfl⟩ := List.mem_map.mp hd'
    refine ⟨d, hd, ?_, ?_⟩
    · rw [← haddr]
      split_ifs <;> rfl
    · rw [← hvalue]
      split_ifs <;> rfl

/-- Freeing makes no cycles. -/
theorem Acyclic.erase {h : Heap α} (hacyclic : Acyclic children h) (a : ℕ) :
    Acyclic children (RefCount.erase h a) := fun c hc => hacyclic c (mem_erase.mp hc).1

/-- Nor does lowering a count. -/
theorem Acyclic.decrement {h : Heap α} (hacyclic : Acyclic children h) (a : ℕ) :
    Acyclic children (RefCount.decrement h a) := by
  intro c hc
  obtain ⟨d, hd, rfl⟩ := List.mem_map.mp hc
  split_ifs <;> exact hacyclic d hd

/-- Giving back references to late addresses leaves the cells at earlier ones alone. -/
theorem mem_release_of_lt {h h' : Heap α} {pending : List ℕ} {n : ℕ}
    (hacyclic : Acyclic children h) (hlate : ∀ a ∈ pending, n ≤ a)
    (hrun : release children pending h = some h') : ∀ c ∈ h, c.addr < n → c ∈ h' := by
  induction pending, h using RefCount.release.induct children with
  | case1 h =>
    cases (release_nil children h).symm.trans hrun
    exact fun c hc _ => hc
  | case2 a pending h hnone =>
    rw [release_of_none children hnone] at hrun
    cases hrun
  | case3 a pending h c hfind hone ih =>
    rw [release_of_some children hfind, if_pos hone] at hrun
    obtain ⟨hmem, rfl⟩ := mem_of_find hfind
    have hle : n ≤ c.addr := hlate c.addr (List.mem_cons_self ..)
    intro d hd hlt
    refine ih (hacyclic.erase c.addr) (fun b hb => ?_) hrun d (mem_erase.mpr ⟨hd, by omega⟩) hlt
    rcases List.mem_append.mp hb with hb | hb
    · exact Nat.le_trans hle (Nat.le_of_lt (hacyclic c hmem b hb))
    · exact hlate b (List.mem_cons_of_mem _ hb)
  | case4 a pending h c hfind hone ih =>
    rw [release_of_some children hfind, if_neg hone] at hrun
    have hle : n ≤ a := hlate a (List.mem_cons_self ..)
    intro d hd hlt
    have hkept : d ∈ RefCount.decrement h a :=
      List.mem_map.mpr ⟨d, hd, if_neg (by omega)⟩
    exact ih (hacyclic.decrement a) (fun b hb => hlate b (List.mem_cons_of_mem _ hb)) hrun d hkept
      hlt

/-- An address that is linked to is linked to by a cell. -/
theorem exists_link {h : Heap α} {a : ℕ} (hlinks : 0 < links children h a) :
    ∃ d ∈ h, a ∈ children d.value :=
  List.mem_flatMap.mp (List.count_pos_iff.mp hlinks)

theorem links_pos {h : Heap α} {a : ℕ} {d : Cell α} (hd : d ∈ h) (ha : a ∈ children d.value) :
    0 < links children h a := List.count_pos_iff.mpr (List.mem_flatMap.mpr ⟨d, hd, ha⟩)

/-- **No leak.** Of a sound heap without cycles of which nothing is held nothing is left. -/
theorem eq_nil_of_sound {h : Heap α} (hs : Sound children h []) (hacyclic : Acyclic children h) :
    h = [] := by
  have hnone : ∀ n, ∀ c ∈ h, c.addr ≠ n := by
    intro n
    -- the owner of a cell has an earlier address
    induction n using Nat.strongRecOn with
    | ind n ih =>
      rintro c hc rfl
      have hpos := hs.owned c hc
      rw [hs.counts c hc, owners, List.count_nil, Nat.add_zero] at hpos
      obtain ⟨d, hd, hlink⟩ := exists_link hpos
      exact ih d.addr (hacyclic d hd c.addr hlink) d hd rfl
  exact List.eq_nil_iff_forall_not_mem.mpr fun c hc => hnone c.addr c hc rfl

/-! ### Balanced releases -/

/-- What is owned is there, and no count is below the number of owners. -/
def Covered (children : α → List ℕ) (h : Heap α) (held : List ℕ) : Prop :=
  ∀ a, 0 < owners children h held a → ∃ c ∈ h, c.addr = a ∧ owners children h held a ≤ c.count

/-- A sequence of releases by the owner of the references `held`: none of them faults, no
    count goes below its owners on the way, and nothing is left at the end. -/
structure Balanced (children : α → List ℕ) (h : Heap α) (held releases : List ℕ) : Prop where
  covered : ∀ done, done <+: releases →
    ∃ h', release children done h = some h' ∧ Covered children h' (held.diff done)
  freed : release children releases h = some []

theorem Sound.covered {h : Heap α} {held : List ℕ} (hs : Sound children h held) :
    Covered children h held := by
  intro a ha
  obtain ⟨c, hc, rfl⟩ := hs.live a ha
  exact ⟨c, hc, rfl, Nat.le_of_eq (hs.counts c hc).symm⟩

/-- Releases are made one after the other. -/
theorem release_cons (a : ℕ) (pending : List ℕ) (h : Heap α) :
    release children (a :: pending) h
      = (release children [a] h).bind (release children pending) := by
  have happend : ∀ first h, release children (first ++ pending) h
      = (release children first h).bind (release children pending) := by
    intro first h
    induction first, h using RefCount.release.induct children with
    | case1 h => rw [release_nil, List.nil_append, Option.bind_some]
    | case2 b first h hnone =>
      rw [List.cons_append, release_of_none children hnone, release_of_none children hnone]
      rfl
    | case3 b first h c hfind hone ih =>
      rw [List.cons_append, release_of_some children hfind, release_of_some children hfind,
        if_pos hone, if_pos hone, ← List.append_assoc, ih]
    | case4 b first h c hfind hone ih =>
      rw [List.cons_append, release_of_some children hfind, release_of_some children hfind,
        if_neg hone, if_neg hone, ih]
  exact happend [a] h

variable {h : Heap α} {root : ℕ}

/-- A held root is there. -/
theorem Sound.ne_nil (hs : Sound children h [root]) : h ≠ [] := by
  rintro rfl
  obtain ⟨c, hc, -⟩ := hs.live root (by simp [owners])
  cases hc

/-- Giving back the only reference that is held frees everything. -/
theorem release_root (hs : Sound children h [root]) (hacyclic : Acyclic children h) :
    release children [root] h = some [] := by
  have hheld : Sound children h ([root] ++ []) := hs
  obtain ⟨h', hrun, hs'⟩ := hheld.release
  have hacyclic' : Acyclic children h' := by
    intro c' hc' b hb
    obtain ⟨c, hc, haddr, hvalue⟩ := mem_of_release hrun c' hc'
    rw [← haddr]
    exact hacyclic c hc b (hvalue ▸ hb)
  rw [hrun, eq_nil_of_sound hs' hacyclic']

/-- Giving back a borrowed reference leaves a cell with more owners than its count, or an
    owner of a cell that is gone. -/
theorem not_covered_of_borrowed (hs : Sound children h [root]) (hacyclic : Acyclic children h)
    {a : ℕ} (hne : a ≠ root) {h' : Heap α} (hrun : release children [a] h = some h') :
    ¬ Covered children h' [root] := by
  intro hcovered
  have hheld : [root].count a = 0 := by simp [hne.symm]
  cases hfind : find h a with
  | none =>
    rw [release_of_none children hfind] at hrun
    cases hrun
  | some c =>
    obtain ⟨hmem, rfl⟩ := mem_of_find hfind
    have hcount := hs.counts c hmem
    have hpos := hs.owned c hmem
    rw [owners, hheld, Nat.add_zero] at hcount
    obtain ⟨d, hd, hlink⟩ := exists_link (hcount ▸ hpos)
    have hlt : d.addr < c.addr := hacyclic d hd c.addr hlink
    rw [release_of_some children hfind] at hrun
    split_ifs at hrun with hone
    · -- the cell is freed and its owner stays
      have hstays : d ∈ h' := by
        refine mem_release_of_lt (hacyclic.erase c.addr) (fun b hb => ?_) hrun d
          (mem_erase.mpr ⟨hd, by omega⟩) hlt
        rw [List.append_nil] at hb
        exact Nat.le_of_lt (hacyclic c hmem b hb)
      have hlinks := links_pos hstays hlink
      obtain ⟨c', hc', haddr, -⟩ := hcovered c.addr (by rw [owners]; omega)
      obtain ⟨e, he, haddr', -⟩ := mem_of_release hrun c' hc'
      exact (mem_erase.mp he).2 (haddr'.trans haddr)
    · -- the count goes down and the owners stay
      rw [release_nil, Option.some.injEq] at hrun
      subst hrun
      have howners : owners children (decrement h c.addr) [root] c.addr = c.count := by
        rw [owners, links_decrement, hheld, Nat.add_zero, hcount]
      obtain ⟨c', hc', haddr, hle⟩ := hcovered c.addr (by omega)
      obtain ⟨e, he, rfl⟩ := List.mem_map.mp hc'
      have heq : e.addr = c.addr := by
        rw [← haddr]
        split_ifs <;> rfl
      obtain rfl := List.inj_on_of_nodup_map hs.nodup he hmem heq
      rw [howners, if_pos rfl] at hle
      have hlower : e.count ≤ e.count - 1 := hle
      omega

/-- **Balance.** The releases of the owner of one reference are balanced exactly when it is
    given back once, and nothing else is. -/
theorem balanced_iff (hs : Sound children h [root]) (hacyclic : Acyclic children h)
    (releases : List ℕ) : Balanced children h [root] releases ↔ releases = [root] := by
  have hroot := release_root hs hacyclic
  constructor
  · rintro ⟨hcovered, hfreed⟩
    cases releases with
    | nil =>
      rw [release_nil, Option.some.injEq] at hfreed
      exact absurd hfreed hs.ne_nil
    | cons a releases =>
      obtain ⟨h', hrun, hcov⟩ := hcovered [a] (List.prefix_append [a] releases)
      by_cases hne : a = root
      · subst hne
        -- everything is gone, so nothing else can be given back
        rw [release_cons, hroot, Option.bind_some] at hfreed
        cases releases with
        | nil => rfl
        | cons b releases =>
          rw [release_of_none children rfl] at hfreed
          cases hfreed
      · have hdiff : [root].diff [a] = [root] := by simp [List.diff_cons, hne]
        rw [hdiff] at hcov
        exact absurd hcov (not_covered_of_borrowed hs hacyclic hne hrun)
  · rintro rfl
    refine ⟨fun done hdone => ?_, hroot⟩
    rcases List.prefix_cons_iff.mp hdone with rfl | ⟨rest, rfl, hrest⟩
    · exact ⟨h, release_nil children h, hs.covered⟩
    · rw [List.prefix_nil.mp hrest]
      refine ⟨[], hroot, fun a ha => absurd ha ?_⟩
      simp [owners]

end RefCount
