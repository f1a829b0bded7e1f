import MaxScaleSystemTest.Lib.Settled
import MaxScaleSystemTest.Lib.StringStream
import MaxScaleSystemTest.Sql.FindField

namespace MaxScaleSystemTest.Nodes

open CString Settled Sql StringStream

/-!
# The versions of the nodes

`Mariadb_nodes::get_versions` asks each node for its version and cuts it down to the number
and to the major version.  The major version is cut by position: behind three characters in
a version 5, behind four in a version 10, and not at all in any other.

* `getVersions_of_supplied` — what is made of the versions of the nodes;
* `splitsMajor_iff` — where the cut is in the right place;
* `get_versions_iff` — which versions are split right.
-/

/-! ### The function -/

/-- The size of each of `version[i]`, `version_number[i]` and `version_major[i]`. -/
abbrev VERSION_SIZE : ℕ := 256

/-- A node: what it answers to `SELECT @@version`, and what `version[i]` holds before. -/
structure VersionReply where
  conn : Option QueryReply
  version : Bytes

/-- The strings in `version[i]`, `version_number[i]` and `version_major[i]`. -/
structure NodeVersion where
  version : Bytes
  versionNumber : Bytes
  versionMajor : Bytes
  deriving DecidableEq

/-- `version_number[i]`: the version up to a dash. -/
def cutNumber (version : Bytes) : Bytes :=
  match strchr version (45 : UInt8) with
  | some str => version.take (version.length - str.length)
  | none => version

/-- `if (strstr(major, front) == major) { major[n] = 0; }`. -/
def cutMajorAt (front : Bytes) (n : ℕ) (major : Bytes) : Bytes :=
  if strstr major front = some major then major.take n else major

/-- `version_major[i]`. -/
def cutMajor (versionNumber : Bytes) : Bytes :=
  cutMajorAt (ascii "10.") 4 (cutMajorAt (ascii "5.") 3 versionNumber)

/-- The body of the first loop of `get_versions`: what `find_field` returns, and the strings;
    `none` when it faults or writes behind `version[i]`. -/
def fillVersion (nullText : Option Bytes) (node : VersionReply) : Option (ℤ × NodeVersion) := do
  let answer ← findField nullText node.conn (ascii "@@version") node.version
  if answer.value.length < VERSION_SIZE then
    let versionNumber := cutNumber answer.value
    some (answer.ret, ⟨answer.value, versionNumber, cutMajor versionNumber⟩)
  else none

/-- What `get_versions` returns, and what it leaves in the node object. -/
structure Versions where
  localResult : ℤ
  nodes : List NodeVersion
  v51 : Bool

/-- `Mariadb_nodes::get_versions`. -/
def getVersions (nullText : Option Bytes) (nodes : List VersionReply) : Option Versions := do
  let filled ← nodes.mapM (fillVersion nullText)
  let versions := filled.map Prod.snd
  return {
    localResult := (filled.map Prod.fst).sum
    nodes := versions
    v51 := versions.any fun node => node.versionMajor = ascii "5.1" }

/-! ### Versions that are supplied -/

/-- What is made of the version of one node. -/
def NodeVersion.ofText (text : Bytes) : NodeVersion :=
  ⟨text, cutNumber text, cutMajor (cutNumber text)⟩

section

variable {ι : Type*} (nullText : Option Bytes) {reply : ι → VersionReply} {text : ι → Bytes}

/-- **One node.** The version it supplies is split if there is room for it. -/
theorem fillVersion_of_supplied {node : ι}
    (h : suppliedCell (reply node).conn (ascii "@@version") = some (text node)) :
    fillVersion nullText (reply node) =
      if (text node).length < VERSION_SIZE then some (0, NodeVersion.ofText (text node))
      else none := by
  rw [fillVersion, findField_of_supplied nullText (reply node).version h, Option.bind_eq_bind,
    Option.bind_some]
  rfl

/-- The loop over the nodes. -/
theorem mapM_fillVersion {nodes : List ι}
    (h : ∀ node, suppliedCell (reply node).conn (ascii "@@version") = some (text node)) :
    (nodes.map reply).mapM (fillVersion nullText) =
      if ∀ node ∈ nodes, (text node).length < VERSION_SIZE then
        some (nodes.map fun node => (0, NodeVersion.ofText (text node)))
      else none := by
  rw [List.mapM_map]
  split
  · rename_i hroom
    apply mapM_of_forall
    intro node hnode
    show fillVersion nullText (reply node) = _
    rw [fillVersion_of_supplied nullText (h node), if_pos (hroom node hnode)]
  · rename_i hroom
    obtain ⟨node, hnode, hlong⟩ : ∃ node ∈ nodes, ¬ (text node).length < VERSION_SIZE := by
      simpa using hroom
    apply mapM_of_mem hnode
    show fillVersion nullText (reply node) = _
    rw [fillVersion_of_supplied nullText (h node), if_neg hlong]

/-- **All nodes.** What `get_versions` leaves in the node object, if there is room for all
    versions. -/
theorem getVersions_of_supplied {nodes : List ι}
    (h : ∀ node, suppliedCell (reply node).conn (ascii "@@version") = some (text node)) :
    getVersions nullText (nodes.map reply) =
      if ∀ node ∈ nodes, (text node).length < VERSION_SIZE then
        some {
          localResult := 0
          nodes := nodes.map fun node => NodeVersion.ofText (text node)
          v51 := nodes.any fun node => cutMajor (cutNumber (text node)) = ascii "5.1" }
      else none := by
  rw [getVersions, mapM_fillVersion nullText h]
  split
  · simp [NodeVersion.ofText, Function.comp_def]
  · rfl

end

/-! ### The versions reported -/

/-- The byte `.`. -/
def dot : UInt8 := 46

/-- The byte `-`. -/
def dash : UInt8 := 45

/-- A version `a.b.c-suffix`. -/
structure VersionText where
  a : Numeral
  b : Numeral
  c : Numeral
  suffix : Bytes

namespace VersionText

/-- `a.b`. -/
def major (v : VersionText) : Bytes := v.a.digits ++ dot :: v.b.digits

/-- `a.b.c`. -/
def number (v : VersionText) : Bytes := v.major ++ dot :: v.c.digits

/-- `a.b.c-suffix`. -/
def text (v : VersionText) : Bytes := v.number ++ dash :: v.suffix

end VersionText

/-- A node that reports a version. -/
structure Reporting where
  reply : VersionReply
  version : VersionText
  supplied : suppliedCell reply.conn (ascii "@@version") = some version.text

/-! ### The number -/

/-- There is no dash in a number. -/
theorem dash_not_mem_number (v : VersionText) : dash ∉ v.number := by
  have hdigits : ∀ n : Numeral, dash ∉ n.digits := by
    intro n hmem
    exact absurd (n.isdigit dash hmem) (by decide)
  have hne : dash ≠ dot := by decide
  simp [VersionText.number, VersionText.major, hdigits, hne]

/-- The number is cut in the right place. -/
theorem cutNumber_text (v : VersionText) : cutNumber v.text = v.number := by
  have hfound : strchr v.text dash = some (dash :: v.suffix) :=
    strchr_append_cons (dash_not_mem_number v) v.suffix
  have hlen : v.text.length - (dash :: v.suffix).length = v.number.length := by
    rw [VersionText.text, List.length_append, Nat.add_sub_cancel]
  show (match strchr v.text dash with
    | some str => v.text.take (v.text.length - str.length)
    | none => v.text) = v.number
  rw [hfound]
  show v.text.take (v.text.length - (dash :: v.suffix).length) = v.number
  rw [hlen, VersionText.text, List.take_left]

/-! ### The major version -/

/-- A version starts with a number and a dot exactly when this is its first number. -/
theorem prefix_number_iff (v : VersionText) {ds : Bytes} (hds : ∀ c ∈ ds, isdigit c = true) :
    ds ++ [dot] <+: v.number ↔ v.a.digits = ds := by
  have hdot : ∀ rest : Bytes, ∀ c ∈ (dot :: rest).head?, isdigit c = false := by
    rintro rest c ⟨⟩
    rfl
  constructor
  · rintro ⟨rest, hrest⟩
    -- both sides start with the same run of digits
    have hsplit : ds ++ dot :: rest = v.a.digits ++ dot :: (v.b.digits ++ dot :: v.c.digits) := by
      simpa [VersionText.number, VersionText.major] using hrest
    have hspan := congrArg (List.takeWhile isdigit) hsplit
    rw [(span_digits hds (hdot _)).1, (span_digits v.a.isdigit (hdot _)).1] at hspan
    exact hspan.symm
  · rintro rfl
    exact ⟨v.b.digits ++ dot :: v.c.digits, by simp [VersionText.number, VersionText.major]⟩

theorem cutMajorAt_of_prefix {front major : Bytes} (h : front <+: major) (n : ℕ) :
    cutMajorAt front n major = major.take n := if_pos (strstr_eq_self_iff.mpr h)

theorem cutMajorAt_of_not_prefix {front major : Bytes} (h : ¬ front <+: major) (n : ℕ) :
    cutMajorAt front n major = major := if_neg (mt strstr_eq_self_iff.mp h)

/-- The cut is made behind three characters, behind four, or not at all. -/
theorem cutMajor_number (v : VersionText) :
    cutMajor v.number =
      if v.a.digits = ascii "5" then v.number.take 3
      else if v.a.digits = ascii "10" then v.number.take 4 else v.number := by
  have hfive : ascii "5." <+: v.number ↔ v.a.digits = ascii "5" :=
    @prefix_number_iff v (ascii "5") (List.all_eq_true.mp rfl)
  have hten : ascii "10." <+: v.number ↔ v.a.digits = ascii "10" :=
    @prefix_number_iff v (ascii "10") (List.all_eq_true.mp rfl)
  unfold cutMajor
  by_cases h5 : v.a.digits = ascii "5"
  · -- what has been cut does not start with the other number
    have hother : ¬ ascii "10." <+: v.number.take 3 := by
      intro h
      have h10 := hten.mp (h.trans (List.take_prefix 3 v.number))
      rw [h5] at h10
      exact absurd h10 (by decide)
    rw [if_pos h5, cutMajorAt_of_prefix (hfive.mpr h5), cutMajorAt_of_not_prefix hother]
  · rw [if_neg h5, cutMajorAt_of_not_prefix (mt hfive.mp h5)]
    by_cases h10 : v.a.digits = ascii "10"
    · rw [if_pos h10, cutMajorAt_of_prefix (hten.mpr h10)]
    · rw [if_neg h10, cutMajorAt_of_not_prefix (mt hten.mp h10)]

/-- A number is longer than its major version. -/
theorem length_number (v : VersionText) : v.major.length < v.number.length := by
  rw [VersionText.number, List.length_append, List.length_cons]
  omega

/-- A cut behind `n` characters gives the major version exactly when it has `n`. -/
theorem take_number_iff (v : VersionText) (n : ℕ) :
    v.number.take n = v.major ↔ v.major.length = n := by
  constructor
  · intro h
    have hlen := congrArg List.length h
    have hlonger := length_number v
    rw [List.length_take] at hlen
    omega
  · rintro rfl
    rw [VersionText.number, List.take_left]

/-- The first two numbers of a version for which the cut is made in the right place. -/
def CutRight (v : VersionText) : Prop :=
  (v.a.digits = ascii "5" ∨ v.a.digits = ascii "10") ∧ v.b.digits.length = 1

/-- **The cut.** The major version is right exactly in versions 5 and 10 whose second number has
    one digit. -/
theorem splitsMajor_iff (v : VersionText) : cutMajor v.number = v.major ↔ CutRight v := by
  have hlen : v.major.length = v.a.digits.length + 1 + v.b.digits.length := by
    rw [VersionText.major, List.length_append, List.length_cons]
    omega
  rw [cutMajor_number, CutRight]
  by_cases h5 : v.a.digits = ascii "5"
  · have hfive : v.a.digits.length = 1 := by rw [h5]; rfl
    rw [if_pos h5, take_number_iff, hlen, hfive]
    constructor
    · exact fun h => ⟨.inl h5, by omega⟩
    · exact fun h => by omega
  · rw [if_neg h5]
    by_cases h10 : v.a.digits = ascii "10"
    · have hten : v.a.digits.length = 2 := by rw [h10]; rfl
      rw [if_pos h10, take_number_iff, hlen, hten]
      constructor
      · exact fun h => ⟨.inr h10, by omega⟩
      · exact fun h => by omega
    · rw [if_neg h10]
      refine iff_of_false (fun h => ?_) fun h => h.1.elim h5 h10
      have hlonger := length_number v
      rw [h] at hlonger
      exact absurd hlonger (lt_irrefl _)

/-! ### All nodes -/

/-- `get_versions` splits the versions of all nodes, and tells whether one of them is a 5.1. -/
def SplitsVersions (nullText : Option Bytes) (nodes : List Reporting) : Prop :=
  ∃ versions, getVersions nullText (nodes.map Reporting.reply) = some versions ∧
    versions.nodes.map NodeVersion.versionNumber = nodes.map (fun node => node.version.number) ∧
    versions.nodes.map NodeVersion.versionMajor = nodes.map (fun node => node.version.major) ∧
    (versions.v51 = true ↔ ∃ node ∈ nodes, node.version.major = ascii "5.1")

/-- **Versions.** The versions of all nodes are split right exactly when they fit, and each of
    them is a version 5 or 10 whose second number has one digit. -/
theorem get_versions_iff (nullText : Option Bytes) (nodes : List Reporting) :
    SplitsVersions nullText nodes ↔
      ∀ node ∈ nodes, node.version.text.length < VERSION_SIZE ∧ CutRight node.version := by
  rw [SplitsVersions, getVersions_of_supplied nullText Reporting.supplied]
  constructor
  · rintro ⟨versions, hrun, -, hmajor, -⟩
    obtain ⟨hroom, hrun⟩ := Option.ite_none_right_eq_some.mp hrun
    cases hrun
    intro node hnode
    rw [List.map_map] at hmajor
    have hcut : cutMajor (cutNumber node.version.text) = node.version.major :=
      List.map_inj_left.mp hmajor node hnode
    rw [cutNumber_text] at hcut
    exact ⟨hroom node hnode, (splitsMajor_iff node.version).mp hcut⟩
  · intro h
    have hroom : ∀ node ∈ nodes, node.version.text.length < VERSION_SIZE :=
      fun node hnode => (h node hnode).1
    have hcut : ∀ node ∈ nodes,
        cutMajor (cutNumber node.version.text) = node.version.major := by
      intro node hnode
      rw [cutNumber_text]
      exact (splitsMajor_iff node.version).mpr (h node hnode).2
    rw [if_pos hroom]
    refine ⟨_, rfl, ?_, ?_, ?_⟩
    · rw [List.map_map]
      exact List.map_inj_left.mpr fun node _ => cutNumber_text node.version
    · rw [List.map_map]
      exact List.map_inj_left.mpr hcut
    · rw [List.any_eq_true]
      constructor
      · rintro ⟨node, hnode, hmajor⟩
        rw [decide_eq_true_eq, hcut node hnode] at hmajor
        exact ⟨node, hnode, hmajor⟩
      · rintro ⟨node, hnode, hmajor⟩
        refine ⟨node, hnode, ?_⟩
        rw [decide_eq_true_eq, hcut node hnode]
        exact hmajor

/-- The version 10.11.2-MariaDB. -/
def version1011 : VersionText where
  a := .ofDigits (ascii "10") (by decide) rfl
  b := .ofDigits (ascii "11") (by decide) rfl
  c := .ofDigits (ascii "2") (by decide) rfl
  suffix := ascii "MariaDB"

/-- A node that reports it. -/
def reporting1011 : Reporting where
  reply := ⟨some (.result ⟨[ascii "@@version"], [[some version1011.text]], by decide⟩), []⟩
  version := version1011
  supplied := by decide +kernel

/-- Its major version becomes 10.1. -/
theorem get_versions_1011 :
    cutMajor version1011.number = ascii "10.1" ∧
      ¬ SplitsVersions (some (ascii "(null)")) [reporting1011] := by
  have hcut : cutMajor version1011.number = ascii "10.1" := by decide +kernel
  refine ⟨hcut, ?_⟩
  rintro ⟨versions, hrun, -, hmajor, -⟩
  rw [getVersions_of_supplied _ Reporting.supplied] at hrun
  obtain ⟨-, hrun⟩ := Option.ite_none_right_eq_some.mp hrun
  cases hrun
  exact absurd hmajor (by decide +kernel)

end MaxScaleSystemTest.Nodes
