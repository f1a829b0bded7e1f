import MaxScaleSystemTest.Lib.CInt
import Mathlib.Data.List.Induction

namespace MaxScaleSystemTest.Nodes

open CInt

/-!
# Finding the connected slave

`find_connected_slave` and `find_connected_slave1` ask each node for the number of its
connections from MaxScale and keep the last node behind the first that has any.  They start
from -1 and print the address of the node they have found, whether or not there is one.

* `visited_visitNodes` — what the loop has done behind some nodes;
* `find_connected_slave_iff` — for which counts the functions are right.
-/

/-! ### The functions -/

/-- The local variables, `*global_result`, and the indices at which arrays of the node object
    have been used. -/
structure Search where
  allConn : Int32
  currentSlave : ℤ
  globalResult : Int32
  indexed : List ℤ

/-- The body of the loop, on the number of connections to a node and its index;
    `find_connected_slave1` does not check them. -/
def visitNode (checked : Bool) (s : Search) (node : Int32 × ℕ) : Search where
  allConn := s.allConn + node.1
  -- a count is taken for none only where it is 0
  currentSlave := if node.2 ≠ 0 ∧ node.1 ≠ 0 then node.2 else s.currentSlave
  globalResult := if checked ∧ node.2 = 0 ∧ node.1 ≠ 1 then 1 else s.globalResult
  indexed := s.indexed ++ [(node.2 : ℤ)]

/-- The loop. -/
def visitNodes (checked : Bool) (counts : List Int32) (globalResult : Int32) : Search :=
  counts.zipIdx.foldl (visitNode checked) ⟨0, -1, globalResult, []⟩

/-- `find_connected_slave(&global_result)`, on what `get_conn_num` returns for each node. -/
def findConnectedSlave (counts : List Int32) (globalResult : Int32) : Search :=
  let s := visitNodes true counts globalResult
  { s with
    globalResult := if s.allConn ≠ 2 then 1 else s.globalResult
    -- `IP[current_slave]` is printed
    indexed := s.indexed ++ [s.currentSlave] }

/-- `find_connected_slave1()`, which has no `global_result`. -/
def findConnectedSlave1 (counts : List Int32) : Search :=
  let s := visitNodes false counts 0
  { s with indexed := s.indexed ++ [s.currentSlave] }

/-! ### The loop -/

/-- `r` is the last node behind the first whose count is not 0, or -1. -/
inductive LastUsed (counts : List Int32) : ℤ → Prop where
  | node (i : ℕ) (n : Int32) (hi : i ≠ 0) (hget : counts[i]? = some n) (hn : n ≠ 0)
      (hlast : ∀ j > i, ∀ m ∈ counts[j]?, m = 0) : LastUsed counts i
  | none (h : ∀ i ≠ 0, ∀ n ∈ counts[i]?, n = 0) : LastUsed counts (-1)

/-- A node without connections changes nothing, and neither does the first one. -/
theorem LastUsed.concat_of_skip {counts : List Int32} {r : ℤ} (h : LastUsed counts r) {n : Int32}
    (hn : counts.length = 0 ∨ n = 0) : LastUsed (counts ++ [n]) r := by
  have hnew : ∀ i ≠ 0, ∀ m ∈ (counts ++ [n])[i]?, m ∈ counts[i]? ∨ m = 0 := by
    intro i hi m hm
    by_cases hlt : i < counts.length
    · rw [List.getElem?_append_left hlt] at hm
      exact .inl hm
    · rw [List.getElem?_append_right (Nat.le_of_not_lt hlt), List.getElem?_singleton] at hm
      split at hm
      · rename_i hzero
        rcases hn with hempty | rfl
        · omega
        · exact .inr (Option.mem_some_iff.mp hm).symm
      · cases hm
  cases h with
  | node i k hi hget hk hlast =>
    refine .node i k hi ?_ hk fun j hj m hm => ?_
    · rw [List.getElem?_append_left (List.getElem?_eq_some_iff.mp hget).1]
      exact hget
    · rcases hnew j (by omega) m hm with hm | hm
      · exact hlast j hj m hm
      · exact hm
  | none h =>
    refine .none fun i hi m hm => ?_
    rcases hnew i hi m hm with hm | hm
    · exact h i hi m hm
    · exact hm

/-- A node with connections is the last one. -/
theorem lastUsed_concat {counts : List Int32} {n : Int32} (hlen : counts.length ≠ 0) (hn : n ≠ 0) :
    LastUsed (counts ++ [n]) counts.length := by
  refine .node counts.length n hlen (by simp) hn fun j hj m hm => ?_
  have hbehind : (counts ++ [n])[j]? = Option.none := by
    rw [List.getElem?_eq_none_iff, List.length_append, List.length_singleton]
    omega
  rw [hbehind] at hm
  cases hm

/-- What the loop has done behind the nodes of `counts`. -/
structure Visited (checked : Bool) (globalResult : Int32) (counts : List Int32) (s : Search) :
    Prop where
  allConn : s.allConn = counts.foldl (· + ·) 0
  currentSlave : LastUsed counts s.currentSlave
  globalResult : s.globalResult =
    if checked ∧ ∃ n ∈ counts.head?, n ≠ 1 then 1 else globalResult
  indexed : s.indexed = counts.zipIdx.map fun node => (node.2 : ℤ)

/-- **Step lemma.** -/
theorem Visited.step {checked : Bool} {globalResult : Int32} {counts : List Int32} {s : Search}
    (h : Visited checked globalResult counts s) (n : Int32) :
    Visited checked globalResult (counts ++ [n]) (visitNode checked s (n, counts.length)) where
  allConn := by
    rw [List.foldl_append, visitNode, h.allConn]
    rfl
  currentSlave := by
    unfold visitNode
    by_cases hnode : counts.length ≠ 0 ∧ n ≠ 0
    · rw [if_pos hnode]
      exact lastUsed_concat hnode.1 hnode.2
    · rw [if_neg hnode]
      apply h.currentSlave.concat_of_skip
      by_contra hboth
      push Not at hboth
      exact hnode hboth
  globalResult := by
    rw [visitNode, h.globalResult]
    cases counts with
    | nil => simp
    | cons c counts => simp
  indexed := by
    rw [visitNode, h.indexed, List.zipIdx_append, List.map_append]
    simp

/-- **The loop.** -/
theorem visited_visitNodes (checked : Bool) (counts : List Int32) (globalResult : Int32) :
    Visited checked globalResult counts (visitNodes checked counts globalResult) := by
  induction counts using List.reverseRecOn with
  | nil => exact ⟨rfl, .none nofun, by simp [visitNodes], rfl⟩
  | append_singleton counts n ih =>
    have hlast : visitNodes checked (counts ++ [n]) globalResult =
        visitNode checked (visitNodes checked counts globalResult) (n, counts.length) := by
      rw [visitNodes, List.zipIdx_append, List.foldl_append]
      simp [visitNodes]
    rw [hlast]
    exact ih.step n

/-! ### When the functions are right -/

/-- The answer `r` is right: a node other than the first that has connections, or -1 when there
    is none. -/
inductive SlaveFound (counts : List Int32) : ℤ → Prop where
  | node (i : ℕ) (n : Int32) (hi : i ≠ 0) (hget : counts[i]? = some n) (hn : 0 < n.toInt) :
      SlaveFound counts i
  | none (h : ∀ i ≠ 0, ∀ n ∈ counts[i]?, n.toInt ≤ 0) : SlaveFound counts (-1)

/-- Both functions find the slave and use the arrays of the node object inside their bounds, and
    `*global_result` becomes 1 where the master has not one connection or there are not two
    connections in total. -/
structure FindsSlave (counts : List Int32) (globalResult : Int32) : Prop where
  slave : SlaveFound counts (findConnectedSlave counts globalResult).currentSlave
  slave1 : SlaveFound counts (findConnectedSlave1 counts).currentSlave
  result : (findConnectedSlave counts globalResult).globalResult =
    if counts.head? ≠ some 1 ∨ (counts.map Int32.toInt).sum ≠ 2 then 1 else globalResult
  bounds : ∀ i ∈ (findConnectedSlave counts globalResult).indexed ++
    (findConnectedSlave1 counts).indexed, 0 ≤ i ∧ i < counts.length

/-- There is a node behind the first that has connections, and behind it none whose count is
    not 0. -/
def SlaveConnected (counts : List Int32) : Prop :=
  ∃ i n, i ≠ 0 ∧ counts[i]? = some n ∧ 0 < n.toInt ∧ ∀ j > i, ∀ m ∈ counts[j]?, m = 0

/-- The exact sum is 2 where the `int` is. -/
def SumFits (counts : List Int32) : Prop :=
  counts.head? = some 1 → (counts.map Int32.toInt).sum ≡ 2 [ZMOD 2 ^ 32] →
    (counts.map Int32.toInt).sum = 2

section

variable {counts : List Int32}

/-- The last node that is used is told by the counts. -/
theorem LastUsed.unique {r s : ℤ} (hr : LastUsed counts r) (hs : LastUsed counts s) : r = s := by
  cases hr with
  | node i n hi hget hn hlast =>
    cases hs with
    | node j m hj hget' hm hlast' =>
      rcases Nat.lt_trichotomy i j with hlt | rfl | hlt
      · exact absurd (hlast j hlt m hget') hm
      · rfl
      · exact absurd (hlast' i hlt n hget) hn
    | none h => exact absurd (h i hi n hget) hn
  | none h =>
    cases hs with
    | node j m hj hget' hm hlast' => exact absurd (h j hj m hget') hm
    | none h' => rfl

theorem lastUsed_findConnectedSlave (globalResult : Int32) :
    LastUsed counts (findConnectedSlave counts globalResult).currentSlave :=
  (visited_visitNodes true counts globalResult).currentSlave

theorem lastUsed_findConnectedSlave1 : LastUsed counts (findConnectedSlave1 counts).currentSlave :=
  (visited_visitNodes false counts 0).currentSlave

/-- Both functions find the same node. -/
theorem findConnectedSlave1_eq (globalResult : Int32) :
    (findConnectedSlave1 counts).currentSlave =
      (findConnectedSlave counts globalResult).currentSlave :=
  lastUsed_findConnectedSlave1.unique (lastUsed_findConnectedSlave globalResult)

theorem findConnectedSlave_globalResult (globalResult : Int32) :
    (findConnectedSlave counts globalResult).globalResult =
      if counts.head? ≠ some 1 ∨ ¬ (counts.map Int32.toInt).sum ≡ 2 [ZMOD 2 ^ 32] then 1
      else globalResult := by
  have h := visited_visitNodes true counts globalResult
  have hsum : (visitNodes true counts globalResult).allConn = 2 ↔
      (counts.map Int32.toInt).sum ≡ 2 [ZMOD 2 ^ 32] := by
    rw [h.allConn]
    exact foldl_add_eq_iff counts 2
  show (if (visitNodes true counts globalResult).allConn ≠ 2 then 1
    else (visitNodes true counts globalResult).globalResult) = _
  by_cases htwo : (counts.map Int32.toInt).sum ≡ 2 [ZMOD 2 ^ 32]
  · rw [if_neg (not_not.mpr (hsum.mpr htwo)), h.globalResult]
    match counts with
    | [] => exact absurd htwo (by decide)
    | n :: counts => simp only [List.head?_cons, Option.mem_def, Option.some.injEq, exists_eq_left',
        true_and, htwo, not_true_eq_false, or_false, ne_eq]
  · rw [if_pos (mt hsum.mp htwo), if_pos (.inr htwo)]

/-- A slave that is found, and is a node, is connected. -/
theorem SlaveFound.connected {r : ℤ} (hfound : SlaveFound counts r) (hused : LastUsed counts r)
    (hr : 0 ≤ r) : SlaveConnected counts := by
  cases hused with
  | node i n hi hget hn hlast =>
    generalize hir : (i : ℤ) = r at hfound
    cases hfound with
    | node j m hj hget' hm =>
      obtain rfl : i = j := by omega
      exact ⟨i, m, hi, hget', hm, hlast⟩
    | none hnone => omega
  | none hnone => omega

/-- The arrays are used at the index of every node, and at the one found. -/
theorem mem_indexed_iff {checked : Bool} {globalResult : Int32} {s : Search}
    (h : Visited checked globalResult counts s) {i : ℤ} :
    i ∈ s.indexed ++ [s.currentSlave] ↔ (0 ≤ i ∧ i < counts.length) ∨ i = s.currentSlave := by
  rw [List.mem_append, List.mem_singleton, h.indexed, List.mem_map]
  apply or_congr_left
  constructor
  · rintro ⟨⟨n, k⟩, hmem, rfl⟩
    obtain ⟨-, hlt, -⟩ := List.mem_zipIdx hmem
    exact ⟨Int.natCast_nonneg k, by simpa using hlt⟩
  · rintro ⟨hle, hlt⟩
    obtain ⟨k, rfl⟩ := Int.eq_ofNat_of_zero_le hle
    have hk : k < counts.length := by omega
    exact ⟨(counts[k], k), List.mk_mem_zipIdx_iff_getElem?.mpr (List.getElem?_eq_getElem hk), rfl⟩

end

/-- **The connected slave.** Both functions are right exactly where a node with connections is
    the last one whose count is not 0, and the `int` that sums up the counts does not pass for 2
    where their sum is not. -/
theorem find_connected_slave_iff (counts : List Int32) :
    (∀ globalResult, FindsSlave counts globalResult) ↔ SlaveConnected counts ∧ SumFits counts := by
  constructor
  · intro h
    refine ⟨?_, fun hhead hsum => ?_⟩
    · -- the slave is used as an index
      have hindexed := (mem_indexed_iff (visited_visitNodes true counts 0)).mpr (.inr rfl)
      have hrange := (h 0).bounds _ (List.mem_append_left _ hindexed)
      exact (h 0).slave.connected (lastUsed_findConnectedSlave 0) hrange.1
    · -- `*global_result` stays as it was
      have hresult := (h 0).result
      rw [findConnectedSlave_globalResult, if_neg (not_or.mpr ⟨not_not.mpr hhead,
        not_not.mpr hsum⟩)] at hresult
      by_contra hne
      rw [if_pos (.inr hne)] at hresult
      exact absurd hresult (by decide)
  · rintro ⟨⟨i, n, hi, hget, hn, hlast⟩, hsum⟩ globalResult
    have hne : n ≠ 0 := by
      rintro rfl
      exact absurd hn (by decide)
    have hused : LastUsed counts i := .node i n hi hget hne hlast
    have hslave : (findConnectedSlave counts globalResult).currentSlave = i :=
      (lastUsed_findConnectedSlave globalResult).unique hused
    have hslave1 : (findConnectedSlave1 counts).currentSlave = i :=
      (findConnectedSlave1_eq globalResult).trans hslave
    have hlt : i < counts.length := (List.getElem?_eq_some_iff.mp hget).1
    have hfound : SlaveFound counts i := .node i n hi hget hn
    refine ⟨hslave ▸ hfound, hslave1 ▸ hfound, ?_, ?_⟩
    · rw [findConnectedSlave_globalResult]
      apply if_congr _ rfl rfl
      by_cases hhead : counts.head? = some 1
      · have htwo : (counts.map Int32.toInt).sum ≡ 2 [ZMOD 2 ^ 32] ↔
            (counts.map Int32.toInt).sum = 2 := by
          refine ⟨hsum hhead, fun heq => ?_⟩
          rw [heq]
        simp only [hhead, ne_eq, not_true_eq_false, false_or, htwo]
      · exact iff_of_true (.inl hhead) (.inl hhead)
    · intro j hj
      have hbound : ∀ {checked g} {s : Search}, Visited checked g counts s → s.currentSlave = i →
          j ∈ s.indexed ++ [s.currentSlave] → 0 ≤ j ∧ j < counts.length := by
        intro checked g s hs heq hmem
        rcases (mem_indexed_iff hs).mp hmem with hrange | rfl
        · exact hrange
        · omega
      rcases List.mem_append.mp hj with hj | hj
      · exact hbound (visited_visitNodes true counts globalResult) hslave hj
      · exact hbound (visited_visitNodes false counts 0) hslave1 hj

/-- With connections to the master only, the array of the addresses is used at -1. -/
theorem find_connected_slave_none :
    (findConnectedSlave [2, 0] 0).indexed = [0, 1, -1] ∧ ¬ FindsSlave [2, 0] 0 := by
  have hindexed : (findConnectedSlave [2, 0] 0).indexed = [0, 1, -1] := by decide
  refine ⟨hindexed, fun h => ?_⟩
  have hrange := h.bounds (-1) (by rw [hindexed]; decide)
  omega

end MaxScaleSystemTest.Nodes
