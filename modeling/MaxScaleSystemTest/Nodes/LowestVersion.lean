import MaxScaleSystemTest.Nodes.Versions
import Mathlib.Data.Prod.Lex

namespace MaxScaleSystemTest.Nodes

open CString Sql StringStream

/-!
# The lowest version

`get_int_version` packs the three numbers of a version into one `int`, with two decimal places
for each of the last two.  `get_lowest_version` keeps the version with the lowest `int`, and a
test that requires a version is skipped when the lowest one is below it.

* `toInt_getIntVersion` — the `int` of a version with room for its numbers;
* `pack_lt_iff` — packing keeps the order;
* `lowestLoop_spec` — the search for the lowest version;
* `lowest_version_exact` — the three functions on versions that can be packed.
-/

/-! ### The functions -/

/-- `get_int_version`. -/
def getIntVersion (version : Bytes) : Int32 :=
  let (major, str) := readInt (IStream.ofText version) 0
  let str := readChar str
  let (minor, str) := readInt str 0
  let str := readChar str
  let (patch, _) := readInt str 0
  major * 10000 + minor * 100 + patch

/-- The loop of `get_lowest_version`. -/
def lowestLoop : List Bytes → (rval : Bytes) → (lowest : Int32) → Bytes
  | [], rval, _ => rval
  | version :: versions, rval, lowest =>
    let intVersion := getIntVersion version
    if lowest > intVersion then lowestLoop versions version intVersion
    else lowestLoop versions rval lowest

/-- `Mariadb_nodes::get_lowest_version`. -/
def getLowestVersion (nullText : Option Bytes) (nodes : List VersionReply) : Option Bytes :=
  -- the search starts from `INT_MAX`
  (getVersions nullText nodes).map fun versions =>
    lowestLoop (versions.nodes.map NodeVersion.version) [] Int32.maxValue

/-- One of the two version checks in the constructor of `TestConnections`: whether the test is
    skipped. -/
def isTooOld (nullText : Option Bytes) (required : Bytes) (nodes : List VersionReply) :
    Option Bool :=
  if required.length ≠ 0 then
    (getLowestVersion nullText nodes).map fun ver => getIntVersion ver < getIntVersion required
  else some false

/-- The version checks in the constructor: whether it exits with `exit(0)`. -/
def skipsTest (nullText : Option Bytes) (requiredReplVersion requiredGaleraVersion : Bytes)
    (repl galera : List VersionReply) : Option Bool := do
  if ← isTooOld nullText requiredReplVersion repl then return true
  else isTooOld nullText requiredGaleraVersion galera

/-! ### Versions -/

/-- The three numbers of a version, in lexicographic order. -/
abbrev Version := ℕ ×ₗ ℕ ×ₗ ℕ

namespace Version

/-- The version with these numbers. -/
def of (major minor patch : ℕ) : Version := toLex (major, toLex (minor, patch))

def major (v : Version) : ℕ := (ofLex v).1

def minor (v : Version) : ℕ := (ofLex (ofLex v).2).1

def patch (v : Version) : ℕ := (ofLex (ofLex v).2).2

/-- The number a version is packed into. -/
def pack (v : Version) : ℕ := v.major * 10000 + v.minor * 100 + v.patch

theorem lt_iff (v w : Version) :
    v < w ↔ v.major < w.major ∨ (v.major = w.major ∧
      (v.minor < w.minor ∨ (v.minor = w.minor ∧ v.patch < w.patch))) := by
  rw [Prod.Lex.lt_iff, Prod.Lex.lt_iff]
  rfl

end Version

/-- The texts of a version: `a.b.c` with perhaps a suffix, or `a.b`. -/
inductive IsText : Bytes → Version → Prop where
  | full (a b c : Numeral) (suffix : Bytes) (hsuffix : ∀ x ∈ suffix.head?, isdigit x = false) :
      IsText (a.digits ++ dot :: (b.digits ++ dot :: (c.digits ++ suffix)))
        (.of a.value b.value c.value)
  | short (a b : Numeral) : IsText (a.digits ++ dot :: b.digits) (.of a.value b.value 0)

/-- A version that can be packed: there are two decimal places for each of its last two numbers,
    and the result is below `INT_MAX`. -/
structure Packable where
  text : Bytes
  version : Version
  isText : IsText text version
  minor_le : version.minor ≤ 99
  patch_le : version.patch ≤ 99
  pack_lt : version.pack < 2 ^ 31 - 1

/-! ### Packing -/

/-- **The order.** Packing keeps the order of versions. -/
theorem pack_lt_iff (v w : Packable) : v.version.pack < w.version.pack ↔ v.version < w.version := by
  have hv := v.minor_le
  have hv' := v.patch_le
  have hw := w.minor_le
  have hw' := w.patch_le
  rw [Version.lt_iff, Version.pack, Version.pack]
  omega

/-- The sum that is packed, in `int`s. -/
theorem toInt_packed {a b c : ℕ} (h : a * 10000 + b * 100 + c < 2 ^ 31) :
    (Int32.ofNat a * 10000 + Int32.ofNat b * 100 + Int32.ofNat c).toInt =
      (a * 10000 + b * 100 + c : ℕ) := by
  have hofNat : Int32.ofNat a * 10000 + Int32.ofNat b * 100 + Int32.ofNat c =
      Int32.ofNat (a * 10000 + b * 100 + c) := by
    simp only [Int32.ofNat_add, Int32.ofNat_mul]
    rfl
  rw [hofNat, Int32.toInt_ofNat_of_lt h]

/-- **The number.** A version that can be packed is read number by number. -/
theorem toInt_getIntVersion (v : Packable) : (getIntVersion v.text).toInt = v.version.pack := by
  obtain ⟨text, version, isText, -, -, hpack⟩ := v
  have hdot : isspace dot = false := by decide
  have hstop : ∀ rest : Bytes, ∀ x ∈ (dot :: rest).head?, isdigit x = false := by
    rintro rest x ⟨⟩
    rfl
  cases isText with
  | full a b c suffix hsuffix =>
    have hbound : a.value * 10000 + b.value * 100 + c.value < 2 ^ 31 - 1 := hpack
    simp only [getIntVersion, IStream.ofText, readInt_numeral a (hstop _) (by omega),
      readChar_cons hdot, readInt_numeral b (hstop _) (by omega),
      readInt_numeral c hsuffix (by omega)]
    exact toInt_packed (by omega)
  | short a b =>
    have hbound : a.value * 10000 + b.value * 100 + 0 < 2 ^ 31 - 1 := hpack
    -- the third number is not there, and stays 0
    have hminor := @readInt_numeral b [] nofun (by omega) 0
    rw [List.append_nil] at hminor
    simp only [getIntVersion, IStream.ofText, readInt_numeral a (hstop _) (by omega),
      readChar_cons hdot, hminor, readChar_nil, readInt_failed]
    exact @toInt_packed a.value b.value 0 (by omega)

/-- `get_int_version` keeps the order of versions. -/
theorem getIntVersion_lt_iff (v w : Packable) :
    getIntVersion v.text < getIntVersion w.text ↔ v.version < w.version := by
  rw [Int32.lt_iff_toInt_lt, toInt_getIntVersion, toInt_getIntVersion, Nat.cast_lt, pack_lt_iff]

/-! ### The lowest version -/

/-- **The search.** The result is the lowest of the versions, if that is below where the search
    starts. -/
theorem lowestLoop_spec (versions : List Bytes) (rval : Bytes) (lowest : Int32) :
    (∃ v ∈ versions, lowestLoop versions rval lowest = v ∧
        (getIntVersion v).toInt < lowest.toInt ∧
        ∀ w ∈ versions, (getIntVersion v).toInt ≤ (getIntVersion w).toInt) ∨
      (lowestLoop versions rval lowest = rval ∧
        ∀ w ∈ versions, lowest.toInt ≤ (getIntVersion w).toInt) := by
  induction versions generalizing rval lowest with
  | nil => exact .inr ⟨rfl, nofun⟩
  | cons version versions ih =>
    unfold lowestLoop
    by_cases hlower : lowest > getIntVersion version
    · have hlt : (getIntVersion version).toInt < lowest.toInt := Int32.lt_iff_toInt_lt.mp hlower
      rw [if_pos hlower]
      -- the version is the lowest so far, or a later one is lower still
      rcases ih version (getIntVersion version) with ⟨v, hv, hloop, hbelow, hle⟩ | ⟨hloop, hle⟩
      · exact .inl ⟨v, List.mem_cons_of_mem _ hv, hloop, by omega,
          List.forall_mem_cons.mpr ⟨by omega, hle⟩⟩
      · exact .inl ⟨version, List.mem_cons_self, hloop, hlt,
          List.forall_mem_cons.mpr ⟨le_refl _, hle⟩⟩
    · have hge : lowest.toInt ≤ (getIntVersion version).toInt := by
        rw [gt_iff_lt, Int32.lt_iff_toInt_lt] at hlower
        omega
      rw [if_neg hlower]
      rcases ih rval lowest with ⟨v, hv, hloop, hbelow, hle⟩ | ⟨hloop, hle⟩
      · exact .inl ⟨v, List.mem_cons_of_mem _ hv, hloop, hbelow,
          List.forall_mem_cons.mpr ⟨by omega, hle⟩⟩
      · exact .inr ⟨hloop, List.forall_mem_cons.mpr ⟨hge, hle⟩⟩

/-- A node that reports a version that can be packed, and that there is room for. -/
structure PackableNode where
  reply : VersionReply
  packable : Packable
  supplied : suppliedCell reply.conn (ascii "@@version") = some packable.text
  fits : packable.text.length < VERSION_SIZE

/-- The replies of some nodes. -/
def repliesOf (nodes : List PackableNode) : List VersionReply := nodes.map PackableNode.reply

/-- `get_lowest_version` returns the lowest version of some nodes. -/
theorem getLowestVersion_of_nodes (nullText : Option Bytes) {nodes : List PackableNode}
    (hne : nodes ≠ []) :
    ∃ node ∈ nodes, getLowestVersion nullText (repliesOf nodes) = some node.packable.text ∧
      ∀ other ∈ nodes, node.packable.version ≤ other.packable.version := by
  have hversions : getLowestVersion nullText (repliesOf nodes) =
      some (lowestLoop (nodes.map fun node => node.packable.text) [] Int32.maxValue) := by
    rw [getLowestVersion, repliesOf, getVersions_of_supplied nullText PackableNode.supplied,
      if_pos fun node _ => node.fits, Option.map_some, List.map_map]
    rfl
  rw [hversions]
  rcases lowestLoop_spec (nodes.map fun node => node.packable.text) [] Int32.maxValue with
    ⟨v, hv, hloop, -, hle⟩ | ⟨-, hle⟩
  · obtain ⟨node, hnode, rfl⟩ := List.mem_map.mp hv
    refine ⟨node, hnode, congrArg some hloop, fun other hother => ?_⟩
    have hnot := hle _ (List.mem_map_of_mem hother)
    rw [← not_lt, ← getIntVersion_lt_iff, Int32.lt_iff_toInt_lt]
    omega
  · -- no packed version reaches `INT_MAX`
    obtain ⟨node, nodes, rfl⟩ := List.exists_cons_of_ne_nil hne
    have hmax := hle node.packable.text (List.mem_map_of_mem List.mem_cons_self)
    have hlt := node.packable.pack_lt
    rw [toInt_getIntVersion] at hmax
    have hvalue : Int32.maxValue.toInt = 2 ^ 31 - 1 := rfl
    omega

/-! ### The check -/

/-- The text of a version that is required, empty if none is. -/
def requiredText (required : Option Packable) : Bytes := (required.map Packable.text).getD []

/-- Some node is older than required. -/
def SomeOlder (required : Option Packable) (nodes : List PackableNode) : Prop :=
  ∃ v ∈ required, ∃ node ∈ nodes, node.packable.version < v.version

theorem text_ne_nil (v : Packable) : v.text ≠ [] := by
  obtain ⟨text, version, isText, -, -, -⟩ := v
  cases isText with
  | full a b c suffix hsuffix => simp
  | short a b => simp

/-- One check. -/
theorem isTooOld_of_nodes (nullText : Option Bytes) (required : Option Packable)
    {nodes : List PackableNode} (hne : nodes ≠ []) :
    ∃ tooOld, isTooOld nullText (requiredText required) (repliesOf nodes) = some tooOld ∧
      (tooOld = true ↔ SomeOlder required nodes) := by
  match required with
  | none => exact ⟨false, rfl, iff_of_false Bool.false_ne_true fun ⟨v, hv, _⟩ => by cases hv⟩
  | some v =>
    obtain ⟨node, hnode, hlowest, hle⟩ := getLowestVersion_of_nodes nullText hne
    have hlen : (requiredText (some v)).length ≠ 0 :=
      mt List.eq_nil_of_length_eq_zero (text_ne_nil v)
    rw [isTooOld, if_pos hlen, hlowest, Option.map_some]
    refine ⟨_, rfl, ?_⟩
    rw [decide_eq_true_eq]
    show getIntVersion node.packable.text < getIntVersion v.text ↔ _
    rw [getIntVersion_lt_iff]
    constructor
    · exact fun hlt => ⟨v, rfl, node, hnode, hlt⟩
    · rintro ⟨_, ⟨⟩, other, hother, hlt⟩
      exact (hle other hother).trans_lt hlt

/-- The order of versions is kept, the lowest version of the nodes is found, and the test is
    skipped exactly when some node is older than required. -/
structure ComparesVersions (nullText : Option Bytes) (repl galera : List PackableNode)
    (requiredRepl requiredGalera : Option Packable) : Prop where
  order : ∀ v w : Packable, getIntVersion v.text < getIntVersion w.text ↔ v.version < w.version
  lowest : ∃ node ∈ repl, getLowestVersion nullText (repliesOf repl) = some node.packable.text ∧
    ∀ other ∈ repl, node.packable.version ≤ other.packable.version
  skips : ∃ skip, skipsTest nullText (requiredText requiredRepl) (requiredText requiredGalera)
      (repliesOf repl) (repliesOf galera) = some skip ∧
    (skip = true ↔ SomeOlder requiredRepl repl ∨ SomeOlder requiredGalera galera)

/-- **Lowest versions.** On versions that can be packed the comparison, the search and the check
    are exact. -/
theorem lowest_version_exact (nullText : Option Bytes) {repl galera : List PackableNode}
    (hrepl : repl ≠ []) (hgalera : galera ≠ []) (requiredRepl requiredGalera : Option Packable) :
    ComparesVersions nullText repl galera requiredRepl requiredGalera where
  order := getIntVersion_lt_iff
  lowest := getLowestVersion_of_nodes nullText hrepl
  skips := by
    obtain ⟨replTooOld, hreplRun, hreplIff⟩ := isTooOld_of_nodes nullText requiredRepl hrepl
    obtain ⟨galeraTooOld, hgaleraRun, hgaleraIff⟩ :=
      isTooOld_of_nodes nullText requiredGalera hgalera
    rw [skipsTest, hreplRun]
    simp only [Option.bind_eq_bind, Option.bind_some, ← hreplIff, ← hgaleraIff]
    cases replTooOld with
    | true => exact ⟨true, rfl, by simp⟩
    | false => exact ⟨galeraTooOld, hgaleraRun, by simp⟩

theorem isText_1026 : IsText (ascii "10.2.6-MariaDB") (.of 10 2 6) :=
  .full (.ofDigits (ascii "10") (by decide) rfl) (.ofDigits (ascii "2") (by decide) rfl)
    (.ofDigits (ascii "6") (by decide) rfl) (ascii "-MariaDB") fun x hx => Option.some.inj hx ▸ rfl

/-- The version 10.2.6-MariaDB. -/
def version1026 : Packable where
  text := ascii "10.2.6-MariaDB"
  version := .of 10 2 6
  isText := isText_1026
  minor_le := by decide
  patch_le := by decide
  pack_lt := by decide

/-- A node that reports it. -/
def node1026 : PackableNode where
  reply := ⟨some (.result ⟨[ascii "@@version"], [[some version1026.text]], by decide⟩), []⟩
  packable := version1026
  supplied := by decide +kernel
  fits := by decide

theorem isText_103 : IsText (ascii "10.3") (.of 10 3 0) :=
  .short (.ofDigits (ascii "10") (by decide) rfl) (.ofDigits (ascii "3") (by decide) rfl)

/-- The version 10.3, without a third number. -/
def version103 : Packable where
  text := ascii "10.3"
  version := .of 10 3 0
  isText := isText_103
  minor_le := by decide
  patch_le := by decide
  pack_lt := by decide

/-- A node that reports it. -/
def node103 : PackableNode where
  reply := ⟨some (.result ⟨[ascii "@@version"], [[some version103.text]], by decide⟩), []⟩
  packable := version103
  supplied := by decide +kernel
  fits := by decide

/-- Two nodes against a version that the second one is too old for. -/
theorem lowest_version_1026 :
    ComparesVersions (some (ascii "(null)")) [node103, node1026] [node103, node1026]
      (some version103) none :=
  lowest_version_exact (some (ascii "(null)")) (List.cons_ne_nil node103 [node1026])
    (List.cons_ne_nil node103 [node1026]) (some version103) none

/-- What a node answers that reports a version. -/
def replyOf (text : Bytes) : VersionReply :=
  ⟨some (.result ⟨[ascii "@@version"], [[some text]], by simp⟩), []⟩

/-- The version 10.0.100 is older than 10.1.0, but is packed into the same number and not found. -/
theorem lowest_version_tie :
    IsText (ascii "10.0.100") (.of 10 0 100) ∧ IsText (ascii "10.1.0") (.of 10 1 0) ∧
      Version.of 10 0 100 < Version.of 10 1 0 ∧
      getIntVersion (ascii "10.0.100") = getIntVersion (ascii "10.1.0") ∧
      getLowestVersion (some (ascii "(null)"))
        [replyOf (ascii "10.1.0"), replyOf (ascii "10.0.100")] = some (ascii "10.1.0") := by
  refine ⟨?_, ?_, ?_, by decide +kernel, by decide +kernel⟩
  · exact .full (.ofDigits (ascii "10") (by decide) rfl) (.ofDigits (ascii "0") (by decide) rfl)
      (.ofDigits (ascii "100") (by decide) rfl) [] nofun
  · exact .full (.ofDigits (ascii "10") (by decide) rfl) (.ofDigits (ascii "1") (by decide) rfl)
      (.ofDigits (ascii "0") (by decide) rfl) [] nofun
  · rw [Version.lt_iff]
    decide

end MaxScaleSystemTest.Nodes
