import MaxScaleSystemTest.Nodes.CheckReplication
import MaxScaleSystemTest.Nodes.ReadEnv

namespace MaxScaleSystemTest.Nodes

open CString Settled Sql
open ReadEnv (scanInt number IsInt)

/-!
# Checking a Galera cluster

`check_galera` asks the nodes for their versions, then opens a connection to each and compares the
size of the cluster that it shows with the number of nodes.  It goes on to the next node whatever
it has found.  Where a reply has no row, or no number in it, an `int` is compared that nothing has
set.

* `checkGaleraNode_settles` — which replies a node may give, and when it passes;
* `galeraLoop_of_clean`, `galeraLoop_of_unclean` — the loop over the nodes;
* `check_galera_iff` — when the verdict is right.
-/

/-- A node: what `get_versions` meets there, how `open_conn` leaves a connection of its own, and
    the reply to the `SHOW STATUS` of that one. -/
structure GaleraNode where
  versionReply : VersionReply
  version_lt : versionReply.version.length < VERSION_SIZE
  link : Link
  sizeReply : QueryReply

/-! ### The function -/

/-- The body of the loop of `check_galera`: is `res1` set to 1?  `clusterSize` is what the
    uninitialised variable holds. -/
def checkGaleraNode (nullText : Option Bytes) (N : ℕ) (clusterSize : ℤ) (node : GaleraNode) :
    Option Bool :=
  if node.link ≠ .up then some true
  else do
    let answer ← findFieldInto STR_SIZE nullText (some node.sizeReply) (ascii "Value") (ascii "")
    if answer.ret ≠ 0 then some true
    else (scanInt answer.value clusterSize).map fun size : ℤ => decide (size ≠ N)

/-- The loop of `check_galera` from node `i` on: the final `res1`. -/
def galeraLoop (nullText : Option Bytes) (clusterSize : ℕ → ℤ) (N : ℕ) :
    (i : ℕ) → List GaleraNode → (res1 : ℤ) → Option ℤ
  | _, [], res1 => some res1
  | i, node :: nodes, res1 => do
    let bad ← checkGaleraNode nullText N (clusterSize i) node
    galeraLoop nullText clusterSize N (i + 1) nodes (if bad then 1 else res1)

/-- `Galera_nodes::check_galera`, behind its `connect`; `none` when it faults or writes behind a
    buffer. -/
def checkGalera (nullText : Option Bytes) (clusterSize : ℕ → ℤ) (nodes : List GaleraNode) :
    Option ℤ := do
  let versions ← getVersions nullText (nodes.map GaleraNode.versionReply)
  galeraLoop nullText clusterSize nodes.length 0 nodes versions.localResult

/-! ### Right verdicts -/

/-- The node reports a version, can be connected to and shows the size of the cluster. -/
structure GaleraNode.Healthy (N : ℕ) (node : GaleraNode) : Prop where
  version : ∃ text, suppliedCell node.versionReply.conn (ascii "@@version") = some text
  connected : node.link = .up
  size : ∃ text, suppliedCell (some node.sizeReply) (ascii "Value") = some text ∧
    number text = some (N : ℤ)

/-- `check_galera` returns 0 exactly when all nodes are healthy, whatever is undefined. -/
def GaleraVerdictRight (nodes : List GaleraNode) : Prop :=
  ∀ nullText clusterSize, ∃ res, checkGalera nullText clusterSize nodes = some res ∧
    (res = 0 ↔ ∀ node ∈ nodes, node.Healthy nodes.length)

/-- What is printed of the size. -/
def GaleraNode.printsSize (node : GaleraNode) : Printing :=
  printing STR_SIZE (some node.sizeReply) (ascii "Value")

/-- The column of the size is there. -/
def GaleraNode.hasSize (node : GaleraNode) : Bool :=
  matched (some node.sizeReply) (ascii "Value")

/-- The number that is scanned, if there is one. -/
def GaleraNode.sizeShown (node : GaleraNode) : Option ℤ := number (node.printsSize.fill (ascii ""))

/-- Of a node that is connected, the size can be printed, and is an `int` if it is scanned. -/
def GaleraNode.SizeClean (node : GaleraNode) : Prop :=
  node.link = .up → node.printsSize ≠ .undefined ∧
    (node.hasSize = true → ∀ n ∈ node.sizeShown, IsInt n)

/-- The node passes when the uninitialised variable holds `clusterSize`. -/
def GaleraNode.Passes (N : ℕ) (clusterSize : ℤ) (node : GaleraNode) : Prop :=
  node.link = .up ∧ node.hasSize = true ∧ node.sizeShown.getD clusterSize = N

/-- What is compared has been read from a reply. -/
structure GaleraNode.Supplied (node : GaleraNode) : Prop where
  version : node.versionReply.prints ≠ .nothing
  size : node.sizeShown ≠ none

/-- All versions and sizes can be read, and if every node may pass, what is compared has been read
    from a reply. -/
structure GaleraReliable (nodes : List GaleraNode) : Prop where
  versions : ∀ node ∈ nodes, node.versionReply.prints ≠ .undefined
  sizes : ∀ node ∈ nodes, node.SizeClean
  supplied : (∀ node ∈ nodes, node.versionReply.hasColumn = true ∧
    node.Passes nodes.length nodes.length) → ∀ node ∈ nodes, node.Supplied

/-! ### The nodes -/

/-- What a connected node comes to, if the size can be printed. -/
theorem checkGaleraNode_of_defined {node : GaleraNode} (hup : node.link = .up)
    (hdefined : node.printsSize ≠ .undefined) (nullText : Option Bytes) (N : ℕ) (clusterSize : ℤ) :
    checkGaleraNode nullText N clusterSize node =
      if node.hasSize = true then
        (scanInt (node.printsSize.fill (ascii "")) clusterSize).map
          fun size : ℤ => decide (size ≠ N)
      else some true := by
  have hroom : (ascii "").length < STR_SIZE := by decide
  have hprint := findFieldInto_of_defined hroom hdefined nullText
  unfold checkGaleraNode
  rw [if_neg (not_not.mpr hup), hprint, Option.bind_eq_bind, Option.bind_some,
    ← GaleraNode.hasSize, ← GaleraNode.printsSize]
  cases node.hasSize <;> rfl

/-- **One node.** -/
theorem checkGaleraNode_settles (N : ℕ) (clusterSize : ℤ) (node : GaleraNode) :
    Settles none (fun nullText => checkGaleraNode nullText N clusterSize node) (· = false)
      node.SizeClean (node.Passes N clusterSize) := by
  by_cases hup : node.link = .up
  swap
  · have hrun : ∀ nullText, checkGaleraNode nullText N clusterSize node = some true :=
      fun nullText => if_pos hup
    simp only [hrun]
    exact (Settles.pure none true (· = false)).congr (iff_of_true trivial fun h => absurd h hup)
      (iff_of_false (by decide) fun h => hup h.1)
  constructor
  · intro hclean nullText
    obtain ⟨hdefined, hint⟩ := hclean hup
    rw [checkGaleraNode_of_defined hup hdefined]
    by_cases hsize : node.hasSize = true
    · rw [if_pos hsize]
      unfold scanInt
      have hpasses : node.Passes N clusterSize ↔ node.sizeShown.getD clusterSize = N :=
        ⟨fun h => h.2.2, fun h => ⟨hup, hsize, h⟩⟩
      rw [hpasses, GaleraNode.sizeShown]
      cases hshown : number (node.printsSize.fill (ascii "")) with
      | none => exact ⟨decide (clusterSize ≠ N), rfl, by simp⟩
      | some n =>
        have hn : IsInt n := hint hsize n hshown
        exact ⟨decide (n ≠ N), by simp [hn], by simp⟩
    · rw [if_neg hsize]
      exact ⟨true, rfl, iff_of_false (by decide) fun h => hsize h.2.1⟩
  · intro hunclean
    obtain ⟨-, hsize⟩ := Classical.not_imp.mp hunclean
    by_cases hdefined : node.printsSize = .undefined
    · have hfault := findFieldInto_of_undefined hdefined (ascii "")
      unfold checkGaleraNode
      rw [if_neg (not_not.mpr hup), hfault]
      rfl
    · obtain ⟨hfound, n, hshown, hn⟩ : node.hasSize = true ∧
          ∃ n, node.sizeShown = some n ∧ ¬ IsInt n := by
        simpa [hdefined] using hsize
      rw [GaleraNode.sizeShown] at hshown
      rw [checkGaleraNode_of_defined hup hdefined, if_pos hfound]
      unfold scanInt
      rw [hshown]
      simp [hn]

/-! ### The loop -/

/-- Every node from node `i` on passes. -/
def AllPass (clusterSize : ℕ → ℤ) (N : ℕ) : (i : ℕ) → List GaleraNode → Prop
  | _, [] => True
  | i, node :: nodes => node.Passes N (clusterSize i) ∧ AllPass clusterSize N (i + 1) nodes

/-- The result is 0 if it has been and all nodes pass. -/
theorem galeraLoop_of_clean {nodes : List GaleraNode} (hclean : ∀ node ∈ nodes, node.SizeClean)
    (nullText : Option Bytes) (clusterSize : ℕ → ℤ) (N i : ℕ) (res1 : ℤ) :
    ∃ res, galeraLoop nullText clusterSize N i nodes res1 = some res ∧
      (res = 0 ↔ res1 = 0 ∧ AllPass clusterSize N i nodes) := by
  induction nodes generalizing i res1 with
  | nil => exact ⟨res1, rfl, (and_iff_left trivial).symm⟩
  | cons node nodes ih =>
    rw [List.forall_mem_cons] at hclean
    obtain ⟨bad, hbad, hpass⟩ :=
      (checkGaleraNode_settles N (clusterSize i) node).answers hclean.1 nullText
    obtain ⟨res, hres, hiff⟩ := ih hclean.2 (i + 1) (if bad then 1 else res1)
    have hrun : checkGaleraNode nullText N (clusterSize i) node = some bad := hbad
    refine ⟨res, ?_, ?_⟩
    · rw [galeraLoop, hrun]
      exact hres
    · rw [hiff, AllPass, ← hpass]
      cases bad <;> simp

/-- A node whose size cannot be read makes it fault. -/
theorem galeraLoop_of_unclean {nodes : List GaleraNode} {node : GaleraNode} (hnode : node ∈ nodes)
    (hunclean : ¬ node.SizeClean) (clusterSize : ℕ → ℤ) (N i : ℕ) (res1 : ℤ) :
    galeraLoop none clusterSize N i nodes res1 = none := by
  induction nodes generalizing i res1 with
  | nil => exact absurd hnode List.not_mem_nil
  | cons first nodes ih =>
    rw [galeraLoop, Option.bind_eq_bind]
    rcases List.mem_cons.mp hnode with rfl | hrest
    · have hfault : checkGaleraNode none N (clusterSize i) node = none :=
        (checkGaleraNode_settles N (clusterSize i) node).faults hunclean
      rw [hfault]
      rfl
    · cases checkGaleraNode none N (clusterSize i) first with
      | none => rfl
      | some bad => exact ih hrest (i + 1) _

/-- All nodes pass with a variable that happens to hold the number of nodes, if they do with any. -/
theorem allPass_mono {clusterSize : ℕ → ℤ} {N i : ℕ} {nodes : List GaleraNode}
    (h : AllPass clusterSize N i nodes) : ∀ node ∈ nodes, node.Passes N N := by
  induction nodes generalizing i with
  | nil => exact fun node hnode => absurd hnode List.not_mem_nil
  | cons node nodes ih =>
    obtain ⟨⟨hup, hsize, hshown⟩, hrest⟩ := h
    refine List.forall_mem_cons.mpr ⟨⟨hup, hsize, ?_⟩, ih hrest⟩
    cases hn : node.sizeShown with
    | none => rfl
    | some n => simpa [hn] using hshown

theorem allPass_of_forall {clusterSize : ℕ → ℤ} {N i : ℕ} {nodes : List GaleraNode}
    (h : ∀ node ∈ nodes, ∀ j, node.Passes N (clusterSize j)) : AllPass clusterSize N i nodes := by
  induction nodes generalizing i with
  | nil => trivial
  | cons node nodes ih =>
    rw [List.forall_mem_cons] at h
    exact ⟨h.1 i, ih h.2⟩

/-! ### The verdict -/

section

variable {node : GaleraNode} {N : ℕ}

/-- A healthy node passes, whatever is undefined. -/
theorem GaleraNode.Healthy.passes (h : node.Healthy N) (hclean : node.SizeClean) :
    node.versionReply.hasColumn = true ∧ ∀ clusterSize, node.Passes N clusterSize := by
  obtain ⟨version, hversion⟩ := h.version
  obtain ⟨text, htext, hnumber⟩ := h.size
  obtain ⟨hsize, hprint⟩ := (supplied_iff (hclean h.connected).1).mp htext
  refine ⟨(matched_of_supplied VERSION_SIZE hversion).1, fun clusterSize => ?_⟩
  refine ⟨h.connected, hsize, ?_⟩
  have hshown : node.sizeShown = some (N : ℤ) := by
    rw [GaleraNode.sizeShown, GaleraNode.printsSize, hprint]
    exact hnumber
  rw [hshown]
  rfl

/-- And what is compared of it has been read from a reply. -/
theorem GaleraNode.Healthy.supplied (h : node.Healthy N) (hclean : node.SizeClean) :
    node.Supplied := by
  obtain ⟨version, hversion⟩ := h.version
  obtain ⟨text, htext, hnumber⟩ := h.size
  obtain ⟨-, hprint⟩ := (supplied_iff (hclean h.connected).1).mp htext
  refine ⟨(matched_of_supplied VERSION_SIZE hversion).2, ?_⟩
  rw [GaleraNode.sizeShown, GaleraNode.printsSize, hprint]
  show number text ≠ none
  rw [hnumber]
  nofun

/-- A node that passes on what replies have supplied is healthy. -/
theorem healthy_of_supplied (hdefined : node.versionReply.prints ≠ .undefined)
    (hclean : node.SizeClean) (hversion : node.versionReply.hasColumn = true)
    (hpasses : node.Passes N N) (h : node.Supplied) : node.Healthy N := by
  obtain ⟨hup, hsize, hshown⟩ := hpasses
  refine ⟨?_, hup, ?_⟩
  · cases hprint : node.versionReply.prints with
    | nothing => exact absurd hprint h.version
    | undefined => exact absurd hprint hdefined
    | text text => exact ⟨text, (supplied_and_fits_iff.mpr ⟨hversion, hprint⟩).1⟩
  · have hnumber := h.size
    rw [GaleraNode.sizeShown] at hshown hnumber
    cases hprint : node.printsSize with
    | nothing =>
      rw [hprint] at hnumber
      exact absurd (by decide) hnumber
    | undefined => exact absurd hprint (hclean hup).1
    | text text =>
      rw [hprint] at hshown hnumber
      refine ⟨text, (supplied_and_fits_iff.mpr ⟨hsize, hprint⟩).1, ?_⟩
      obtain ⟨n, hn⟩ := Option.ne_none_iff_exists'.mp hnumber
      have htext : number text = some n := hn
      rw [hn] at hshown
      have heq : n = N := hshown
      rw [htext, heq]

end

/-- The whole function. -/
theorem checkGalera_of_clean {nodes : List GaleraNode}
    (hversions : ∀ node ∈ nodes, node.versionReply.prints ≠ .undefined)
    (hsizes : ∀ node ∈ nodes, node.SizeClean) (nullText : Option Bytes) (clusterSize : ℕ → ℤ) :
    ∃ res, checkGalera nullText clusterSize nodes = some res ∧
      (res = 0 ↔ (∀ node ∈ nodes, node.versionReply.hasColumn = true) ∧
        AllPass clusterSize nodes.length 0 nodes) := by
  obtain ⟨versions, hrun, hcolumns, -⟩ := getVersions_of_defined GaleraNode.versionReply nullText
    (fun node _ => node.version_lt) hversions
  obtain ⟨res, hres, hiff⟩ :=
    galeraLoop_of_clean hsizes nullText clusterSize nodes.length 0 versions.localResult
  refine ⟨res, ?_, hiff.trans (and_congr_left fun _ => hcolumns)⟩
  rw [checkGalera, hrun]
  exact hres

/-- **Verdict.** `check_galera` returns 0 exactly when all nodes are healthy, whatever the
    uninitialised variable holds and a NULL is printed as, if and only if the versions and sizes can
    be read and no verdict of 0 rests on something that no reply has supplied. -/
theorem check_galera_iff (nodes : List GaleraNode) :
    GaleraVerdictRight nodes ↔ GaleraReliable nodes := by
  constructor
  · intro hright
    have hversions : ∀ node ∈ nodes, node.versionReply.prints ≠ .undefined := by
      intro node hnode hundefined
      obtain ⟨res, hrun, -⟩ := hright none fun _ => 0
      rw [checkGalera, getVersions_of_undefined GaleraNode.versionReply hnode hundefined] at hrun
      cases hrun
    have hsizes : ∀ node ∈ nodes, node.SizeClean := by
      intro node hnode
      by_contra hunclean
      obtain ⟨res, hrun, -⟩ := hright none fun _ => 0
      obtain ⟨versions, hversion, -⟩ := getVersions_of_defined GaleraNode.versionReply none
        (fun node _ => node.version_lt) hversions
      rw [checkGalera, hversion, Option.bind_eq_bind, Option.bind_some,
        galeraLoop_of_unclean hnode hunclean] at hrun
      cases hrun
    refine ⟨hversions, hsizes, fun hall => ?_⟩
    -- a variable that holds the number of nodes lets all of them pass
    obtain ⟨res, hrun, hhealthy⟩ := hright none fun _ => nodes.length
    obtain ⟨res', hrun', hpass⟩ := checkGalera_of_clean hversions hsizes none fun _ => nodes.length
    obtain rfl : res = res' := Option.some.inj (hrun.symm.trans hrun')
    have hzero : res = 0 := hpass.mpr ⟨fun node hnode => (hall node hnode).1,
      allPass_of_forall fun node hnode _ => (hall node hnode).2⟩
    exact fun node hnode => (hhealthy.mp hzero node hnode).supplied (hsizes node hnode)
  · intro hreliable nullText clusterSize
    obtain ⟨res, hrun, hpass⟩ :=
      checkGalera_of_clean hreliable.versions hreliable.sizes nullText clusterSize
    refine ⟨res, hrun, hpass.trans ?_⟩
    constructor
    · rintro ⟨hcolumns, hall⟩ node hnode
      have hpasses := allPass_mono hall
      have hsupplied := hreliable.supplied fun n hn => ⟨hcolumns n hn, hpasses n hn⟩
      exact healthy_of_supplied (hreliable.versions node hnode) (hreliable.sizes node hnode)
        (hcolumns node hnode) (hpasses node hnode) (hsupplied node hnode)
    · intro hhealthy
      have hpasses : ∀ node ∈ nodes, node.versionReply.hasColumn = true ∧
          ∀ size, node.Passes nodes.length size :=
        fun node hnode => (hhealthy node hnode).passes (hreliable.sizes node hnode)
      exact ⟨fun node hnode => (hpasses node hnode).1,
        allPass_of_forall fun node hnode j => (hpasses node hnode).2 (clusterSize j)⟩

end MaxScaleSystemTest.Nodes
