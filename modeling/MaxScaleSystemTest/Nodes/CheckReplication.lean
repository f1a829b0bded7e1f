import MaxScaleSystemTest.Lib.Settled
import MaxScaleSystemTest.Nodes.Versions
import MaxScaleSystemTest.Sql.FieldPrint

namespace MaxScaleSystemTest.Nodes

open CString Settled Sql

/-!
# Checking the replication

`check_replication` connects to the nodes, asks them for their versions, and checks node 0 as
the master and every other node as a slave, up to the first that fails.  Each value it compares
is read by `find_field` into a buffer of its own.

* `getVersions_of_defined`, `getVersions_of_undefined` — the versions;
* `badSlaveThreadStatus_settles`, `slaves_settle`, `checkMasterNode_settles` — each check needs
  only some of the replies to be printable, and what it then decides.
-/

/-! ### The nodes -/

/-- How `connect` leaves a node: without a handle, with one that has an error, or connected. -/
inductive Link where
  | null
  | refused
  | up
  deriving DecidableEq

/-- The replies to the two tries of a query. -/
structure Tries where
  first : QueryReply
  second : QueryReply

/-- A node: its link, what `version[i]` holds before, and its replies to the queries, with two
    tries for each of the two slave threads. -/
structure ReplNode where
  link : Link
  version : Bytes
  version_lt : version.length < VERSION_SIZE
  versionReply : QueryReply
  slaveHosts : QueryReply
  slaveStatus : QueryReply
  readOnly : QueryReply
  io : Tries
  sql : Tries

/-- What a query gets from the node, `none` if it has no handle. -/
def ReplNode.ask (node : ReplNode) (reply : QueryReply) : Option QueryReply :=
  if node.link = .null then none else some reply

/-- What `get_versions` meets at the node. -/
def ReplNode.versionAsked (node : ReplNode) : VersionReply :=
  ⟨node.ask node.versionReply, node.version⟩

/-! ### The functions -/

/-- The size of `output` in `check_master_node`. -/
abbrev OUTPUT_SIZE : ℕ := 512

/-- The size of `str` in `bad_slave_thread_status`. -/
abbrev STR_SIZE : ℕ := 1024

/-- Does the reply to `SHOW SLAVE HOSTS` make `rval` false? -/
def wrongSlaveHosts (v51 : Bool) (N : ℕ) : QueryReply → Bool
  | .failed => true
  | .noResult => false
  | .result res =>
    let rows := Int32.ofNat res.rows.length
    rows ≠ Int32.ofNat N - 1 && !v51

/-- Does the reply to `SHOW SLAVE STATUS` make `rval` false? -/
def isSlave : QueryReply → Bool
  | .failed => true
  | .noResult => false
  | .result res => res.rows.length > 0

/-- `Mariadb_nodes::check_master_node`; `output` is what its uninitialised buffer holds. -/
def checkMasterNode (nullText : Option Bytes) (output : Bytes) (v51 : Bool) (N : ℕ)
    (node : ReplNode) : Option Bool := do
  let rval := !wrongSlaveHosts v51 N node.slaveHosts && !isSlave node.slaveStatus
  let answer ← findFieldInto OUTPUT_SIZE nullText (node.ask node.readOnly) (ascii "Value") output
  return rval && answer.value = ascii "OFF"

/-- The loop of `bad_slave_thread_status` over the replies to its tries: what `str` holds
    behind it. -/
def threadLoop (nullText : Option Bytes) (field : Bytes) :
    List (Option QueryReply) → (str : Bytes) → Option Bytes
  | [], str => some str
  | conn :: tries, str => do
    let answer ← findFieldInto STR_SIZE nullText conn field str
    if answer.ret ≠ 0 then some answer.value
    else if answer.value = ascii "Yes" ∨ answer.value = ascii "No" then some answer.value
    else threadLoop nullText field tries answer.value

/-- `bad_slave_thread_status`. -/
def badSlaveThreadStatus (nullText : Option Bytes) (node : ReplNode) (tries : Tries)
    (field : Bytes) : Option Bool := do
  let str ← threadLoop nullText field [node.ask tries.first, node.ask tries.second] (ascii "")
  return str ≠ ascii "Yes"

/-- The condition of the `else if` in `check_replication`. -/
def badSlave (nullText : Option Bytes) (node : ReplNode) : Option Bool := do
  if ← badSlaveThreadStatus nullText node node.io (ascii "Slave_IO_Running") then some true
  else badSlaveThreadStatus nullText node node.sql (ascii "Slave_SQL_Running")

/-- The loop of `check_replication` from node `i` on, entered with `res == 0`: the final
    `res`. -/
def checkLoop (nullText : Option Bytes) (output : Bytes) (v51 : Bool) (N : ℕ) :
    (i : ℕ) → List ReplNode → Option ℤ
  | _, [] => some 0
  | i, node :: nodes => do
    let bad ← if i = 0 then (checkMasterNode nullText output v51 N node).map not
      else badSlave nullText node
    if bad then some 1 else checkLoop nullText output v51 N (i + 1) nodes

/-- `Mariadb_nodes::check_replication`; `none` when it faults or writes behind a buffer. -/
def checkReplication (nullText : Option Bytes) (output : Bytes) (nodes : List ReplNode) :
    Option ℤ :=
  if nodes.any fun node => node.link = .refused then some 1
  else do
    let versions ← getVersions nullText (nodes.map ReplNode.versionAsked)
    if versions.localResult ≠ 0 then some versions.localResult
    else checkLoop nullText output versions.v51 nodes.length 0 nodes

/-! ### The versions -/

/-- What is printed of a version. -/
def VersionReply.prints (node : VersionReply) : Printing :=
  printing VERSION_SIZE node.conn (ascii "@@version")

/-- The column of the version is there. -/
def VersionReply.hasColumn (node : VersionReply) : Bool := matched node.conn (ascii "@@version")

/-- What `version[i]` holds behind `get_versions`. -/
def VersionReply.left (node : VersionReply) : Bytes := node.prints.fill node.version

theorem fillVersion_eq (nullText : Option Bytes) (node : VersionReply) :
    fillVersion nullText node =
      (findFieldInto VERSION_SIZE nullText node.conn (ascii "@@version") node.version).map
        fun answer => (answer.ret, NodeVersion.ofText answer.value) := by
  unfold fillVersion findFieldInto
  cases findField nullText node.conn (ascii "@@version") node.version with
  | none => rfl
  | some answer =>
    rw [Option.bind_eq_bind, Option.bind_some, Option.filter_some]
    by_cases h : answer.value.length < VERSION_SIZE
    · simp [h, NodeVersion.ofText]
    · simp [h]

section

variable {ι : Type*} (reply : ι → VersionReply) {nodes : List ι}

theorem mapM_fillVersion_of_defined (nullText : Option Bytes)
    (hroom : ∀ node ∈ nodes, (reply node).version.length < VERSION_SIZE)
    (h : ∀ node ∈ nodes, (reply node).prints ≠ .undefined) :
    (nodes.map reply).mapM (fillVersion nullText) =
      some (nodes.map fun node =>
        ((if (reply node).hasColumn then 0 else 1 : ℤ), NodeVersion.ofText (reply node).left)) := by
  rw [List.mapM_map]
  apply mapM_of_forall
  intro node hnode
  have hprint := findFieldInto_of_defined (hroom node hnode) (h node hnode) nullText
  show fillVersion nullText (reply node) = _
  rw [fillVersion_eq, hprint]
  rfl

/-- The return values of `find_field` add up to the number of nodes without the column. -/
theorem sum_missing (nodes : List ι) :
    (nodes.map fun node => if (reply node).hasColumn then (0 : ℤ) else 1).sum =
      (nodes.countP fun node => !(reply node).hasColumn : ℕ) := by
  induction nodes with
  | nil => rfl
  | cons node nodes ih =>
    rw [List.map_cons, List.sum_cons, ih, List.countP_cons]
    cases (reply node).hasColumn
    · simp [add_comm]
    · simp

/-- **The versions.** If all of them can be printed, `get_versions` counts the nodes without the
    column. -/
theorem getVersions_of_defined (nullText : Option Bytes)
    (hroom : ∀ node ∈ nodes, (reply node).version.length < VERSION_SIZE)
    (h : ∀ node ∈ nodes, (reply node).prints ≠ .undefined) :
    ∃ versions, getVersions nullText (nodes.map reply) = some versions ∧
      (versions.localResult = 0 ↔ ∀ node ∈ nodes, (reply node).hasColumn = true) ∧
      versions.v51 =
        nodes.any fun node => cutMajor (cutNumber (reply node).left) = ascii "5.1" := by
  unfold getVersions
  rw [mapM_fillVersion_of_defined reply nullText hroom h]
  refine ⟨_, rfl, ?_, ?_⟩
  · show ((nodes.map _).map Prod.fst).sum = 0 ↔ _
    rw [List.map_map]
    show (nodes.map fun node => if (reply node).hasColumn then (0 : ℤ) else 1).sum = 0 ↔ _
    rw [sum_missing, Int.natCast_eq_zero, List.countP_eq_zero]
    simp only [Bool.not_eq_true', Bool.not_eq_false]
  · simp [NodeVersion.ofText, Function.comp_def]

/-- A version that cannot be printed makes it fault. -/
theorem getVersions_of_undefined {node : ι} (hnode : node ∈ nodes)
    (h : (reply node).prints = .undefined) : getVersions none (nodes.map reply) = none := by
  have hfault : fillVersion none (reply node) = none := by
    have hprint := findFieldInto_of_undefined h (reply node).version
    rw [fillVersion_eq, hprint]
    rfl
  unfold getVersions
  rw [List.mapM_map, mapM_of_mem hnode hfault]
  rfl

end

/-- What is printed of the version of a node. -/
def ReplNode.printsVersion (node : ReplNode) : Printing :=
  printing VERSION_SIZE (node.ask node.versionReply) (ascii "@@version")

/-- The column of the version is there. -/
def ReplNode.hasVersion (node : ReplNode) : Bool :=
  matched (node.ask node.versionReply) (ascii "@@version")

/-- What `version[i]` holds behind `get_versions`. -/
def ReplNode.versionLeft (node : ReplNode) : Bytes := node.printsVersion.fill node.version

/-- `v51` behind `get_versions`. -/
def flag51 (nodes : List ReplNode) : Bool :=
  nodes.any fun node => cutMajor (cutNumber node.versionLeft) = ascii "5.1"

/-- The versions of the nodes. -/
theorem getVersions_repl {nodes : List ReplNode} (nullText : Option Bytes)
    (h : ∀ node ∈ nodes, node.printsVersion ≠ .undefined) :
    ∃ versions, getVersions nullText (nodes.map ReplNode.versionAsked) = some versions ∧
      (versions.localResult = 0 ↔ ∀ node ∈ nodes, node.hasVersion = true) ∧
      versions.v51 = flag51 nodes :=
  getVersions_of_defined ReplNode.versionAsked nullText (fun node _ => node.version_lt) h

/-! ### The slaves -/

section

variable (node : ReplNode) (tries : Tries) (field : Bytes)

/-- What is printed of a reply about a slave thread. -/
def ReplNode.prints (reply : QueryReply) : Printing := printing STR_SIZE (node.ask reply) field

/-- A reply behind which the loop tries again. -/
def ReplNode.Transient (reply : QueryReply) : Prop :=
  matched (node.ask reply) field = true ∧ node.prints field reply ≠ .text (ascii "Yes") ∧
    node.prints field reply ≠ .text (ascii "No")

/-- The replies about a thread can be printed up to where the loop stops. -/
def ReplNode.ThreadClean : Prop :=
  node.prints field tries.first ≠ .undefined ∧
    (node.Transient field tries.first → node.prints field tries.second ≠ .undefined)

/-- `Yes` is printed at the first try, or at the second behind one that found the column and did
    not print `No`. -/
def ReplNode.ThreadPasses : Prop :=
  node.prints field tries.first = .text (ascii "Yes") ∨
    (matched (node.ask tries.first) field = true ∧
      node.prints field tries.first ≠ .text (ascii "No") ∧
      node.prints field tries.second = .text (ascii "Yes"))

end

/-- One try. -/
theorem threadLoop_of_defined {node : ReplNode} {field str : Bytes} {reply : QueryReply}
    (hstr : str.length < STR_SIZE) (h : node.prints field reply ≠ .undefined)
    (nullText : Option Bytes) (tries : List (Option QueryReply)) :
    threadLoop nullText field (node.ask reply :: tries) str =
      if matched (node.ask reply) field = true ∧
          (node.prints field reply).fill str ≠ ascii "Yes" ∧
          (node.prints field reply).fill str ≠ ascii "No" then
        threadLoop nullText field tries ((node.prints field reply).fill str)
      else some ((node.prints field reply).fill str) := by
  have hprint := findFieldInto_of_defined hstr h nullText
  rw [threadLoop, hprint, Option.bind_eq_bind, Option.bind_some, ← ReplNode.prints]
  cases matched (node.ask reply) field with
  | false => simp
  | true =>
    by_cases hyes : (node.prints field reply).fill str = ascii "Yes"
    · simp [hyes]
    · by_cases hno : (node.prints field reply).fill str = ascii "No"
      · simp [hno]
      · simp [hyes, hno]

theorem threadLoop_of_undefined {node : ReplNode} {field str : Bytes} {reply : QueryReply}
    (h : node.prints field reply = .undefined) (tries : List (Option QueryReply)) :
    threadLoop none field (node.ask reply :: tries) str = none := by
  have hprint := findFieldInto_of_undefined h str
  rw [threadLoop, hprint]
  rfl

section

variable {node : ReplNode} {tries : Tries} {field : Bytes}

/-- The first try goes on to the second behind a transient value. -/
theorem goesOn_iff : (matched (node.ask tries.first) field = true ∧
      (node.prints field tries.first).fill (ascii "") ≠ ascii "Yes" ∧
      (node.prints field tries.first).fill (ascii "") ≠ ascii "No") ↔
    node.Transient field tries.first := by
  have hyes := (node.prints field tries.first).fill_eq_iff (show ascii "" ≠ ascii "Yes" by decide)
  have hno := (node.prints field tries.first).fill_eq_iff (show ascii "" ≠ ascii "No" by decide)
  rw [Ne, hyes, Ne, hno]
  rfl

theorem threadLoop_of_transient (hfirst : node.prints field tries.first ≠ .undefined)
    (h : node.Transient field tries.first) (nullText : Option Bytes) :
    threadLoop nullText field [node.ask tries.first, node.ask tries.second] (ascii "") =
      threadLoop nullText field [node.ask tries.second]
        ((node.prints field tries.first).fill (ascii "")) := by
  rw [threadLoop_of_defined (by decide) hfirst, if_pos (goesOn_iff.mpr h)]

theorem threadLoop_of_final (hfirst : node.prints field tries.first ≠ .undefined)
    (h : ¬ node.Transient field tries.first) (nullText : Option Bytes) :
    threadLoop nullText field [node.ask tries.first, node.ask tries.second] (ascii "") =
      some ((node.prints field tries.first).fill (ascii "")) := by
  rw [threadLoop_of_defined (by decide) hfirst, if_neg (mt goesOn_iff.mp h)]

/-- The last try decides whatever it finds. -/
theorem threadLoop_last {reply : QueryReply} {str : Bytes} (hstr : str.length < STR_SIZE)
    (h : node.prints field reply ≠ .undefined) (nullText : Option Bytes) :
    threadLoop nullText field [node.ask reply] str =
      some ((node.prints field reply).fill str) := by
  have hend : ∀ str, threadLoop nullText field [] str = some str := fun _ => rfl
  rw [threadLoop_of_defined hstr h, hend, ite_self]

theorem badSlaveThreadStatus_of_loop {nullText : Option Bytes} {str : Bytes}
    (h : threadLoop nullText field [node.ask tries.first, node.ask tries.second] (ascii "") =
      some str) :
    badSlaveThreadStatus nullText node tries field = some (decide (str ≠ ascii "Yes")) := by
  unfold badSlaveThreadStatus
  rw [h]
  rfl

end

/-- **One thread.** -/
theorem badSlaveThreadStatus_settles (node : ReplNode) (tries : Tries) (field : Bytes) :
    Settles none (fun nullText => badSlaveThreadStatus nullText node tries field) (· = false)
      (node.ThreadClean tries field) (node.ThreadPasses tries field) := by
  have hyes := (node.prints field tries.first).fill_eq_iff (show ascii "" ≠ ascii "Yes" by decide)
  constructor
  · rintro ⟨hfirst, hsecond⟩ nullText
    by_cases htransient : node.Transient field tries.first
    · have hfill : ((node.prints field tries.first).fill (ascii "")).length < STR_SIZE :=
        length_fill_lt (by decide) (node.ask tries.first) field
      have hloop := threadLoop_of_transient hfirst htransient nullText
      rw [threadLoop_last hfill (hsecond htransient)] at hloop
      refine ⟨_, badSlaveThreadStatus_of_loop hloop, ?_⟩
      -- what the buffer holds is not `Yes`, so the second reply must print it
      obtain ⟨hmatched, hnotYes, hnotNo⟩ := htransient
      rw [decide_eq_false_iff_not, not_not, ReplNode.ThreadPasses, or_iff_right hnotYes,
        and_iff_right hmatched, and_iff_right hnotNo]
      exact (node.prints field tries.second).fill_eq_iff (mt hyes.mp hnotYes)
    · have hloop := threadLoop_of_final hfirst htransient nullText
      refine ⟨_, badSlaveThreadStatus_of_loop hloop, ?_⟩
      rw [decide_eq_false_iff_not, not_not, hyes, ReplNode.ThreadPasses, iff_comm,
        or_iff_left_iff_imp]
      rintro ⟨hmatched, hnotNo, -⟩
      by_contra hnotYes
      exact htransient ⟨hmatched, hnotYes, hnotNo⟩
  · intro hunclean
    unfold badSlaveThreadStatus
    by_cases hfirst : node.prints field tries.first = .undefined
    · rw [threadLoop_of_undefined hfirst]
      rfl
    · obtain ⟨htransient, hsecond⟩ : node.Transient field tries.first ∧
          node.prints field tries.second = .undefined := by
        simpa [ReplNode.ThreadClean, hfirst] using hunclean
      rw [threadLoop_of_transient hfirst htransient, threadLoop_of_undefined hsecond]
      rfl

namespace ReplNode

/-- The replies about both threads can be printed as far as they are asked for. -/
def Clean (node : ReplNode) : Prop :=
  node.ThreadClean node.io (ascii "Slave_IO_Running") ∧
    (node.ThreadPasses node.io (ascii "Slave_IO_Running") →
      node.ThreadClean node.sql (ascii "Slave_SQL_Running"))

/-- Both threads pass. -/
def Passes (node : ReplNode) : Prop :=
  node.ThreadPasses node.io (ascii "Slave_IO_Running") ∧
    node.ThreadPasses node.sql (ascii "Slave_SQL_Running")

end ReplNode

/-- **One slave.** -/
theorem badSlave_settles (node : ReplNode) :
    Settles none (badSlave · node) (· = false) node.Clean node.Passes := by
  refine (badSlaveThreadStatus_settles node node.io (ascii "Slave_IO_Running")).andThen
    (badSlaveThreadStatus_settles node node.sql (ascii "Slave_SQL_Running"))
    (show ¬ true = false by decide) fun nullText => ?_
  unfold badSlave
  rw [Option.bind_eq_bind]
  congr 1
  funext bad
  cases bad <;> rfl

/-- The replies of the slaves can be printed up to the first that fails. -/
def ReachedClean : List ReplNode → Prop
  | [] => True
  | node :: nodes => node.Clean ∧ (node.Passes → ReachedClean nodes)

/-- **All slaves.** -/
theorem slaves_settle (output : Bytes) (v51 : Bool) (N i : ℕ) (slaves : List ReplNode) :
    Settles none (fun nullText => checkLoop nullText output v51 N (i + 1) slaves) (· = 0)
      (ReachedClean slaves) (∀ node ∈ slaves, node.Passes) := by
  induction slaves generalizing i with
  | nil => exact (Settles.pure none 0 (· = 0)).congr Iff.rfl (by simp)
  | cons node nodes ih =>
    rw [List.forall_mem_cons]
    refine (badSlave_settles node).andThen (ih (i + 1)) (show (1 : ℤ) ≠ 0 by decide)
      fun nullText => ?_
    rw [checkLoop, if_neg (Nat.succ_ne_zero i), Option.bind_eq_bind]
    congr 1
    funext bad
    cases bad <;> rfl

/-! ### The master -/

/-- What is printed of `read_only`. -/
def ReplNode.printsReadOnly (node : ReplNode) : Printing :=
  printing OUTPUT_SIZE (node.ask node.readOnly) (ascii "Value")

/-- The master passes, if its buffer holds `output` before. -/
def ReplNode.MasterPasses (v51 : Bool) (N : ℕ) (output : Bytes) (node : ReplNode) : Prop :=
  wrongSlaveHosts v51 N node.slaveHosts = false ∧ isSlave node.slaveStatus = false ∧
    node.printsReadOnly.fill output = ascii "OFF"

/-- **The master.** -/
theorem checkMasterNode_settles {output : Bytes} (hout : output.length < OUTPUT_SIZE)
    (v51 : Bool) (N : ℕ) (node : ReplNode) :
    Settles none (fun nullText => checkMasterNode nullText output v51 N node) (· = true)
      (node.printsReadOnly ≠ .undefined) (node.MasterPasses v51 N output) := by
  constructor
  · intro hdefined nullText
    unfold checkMasterNode
    rw [findFieldInto_of_defined hout hdefined]
    refine ⟨_, rfl, ?_⟩
    rw [Bool.and_eq_true, Bool.and_eq_true, Bool.not_eq_true', Bool.not_eq_true',
      decide_eq_true_eq, and_assoc]
    rfl
  · intro hundefined
    unfold checkMasterNode
    rw [findFieldInto_of_undefined (not_not.mp hundefined)]
    rfl

/-! ### The verdict -/

/-- The loop over all nodes. -/
theorem checkLoop_settles {output : Bytes} (hout : output.length < OUTPUT_SIZE) (v51 : Bool)
    (N : ℕ) (master : ReplNode) (slaves : List ReplNode) :
    Settles none (fun nullText => checkLoop nullText output v51 N 0 (master :: slaves)) (· = 0)
      (master.printsReadOnly ≠ .undefined ∧
        (master.MasterPasses v51 N output → ReachedClean slaves))
      (master.MasterPasses v51 N output ∧ ∀ node ∈ slaves, node.Passes) := by
  refine (checkMasterNode_settles hout v51 N master).andThen
    (slaves_settle output v51 N 0 slaves) (show (1 : ℤ) ≠ 0 by decide) fun nullText => ?_
  rw [checkLoop, if_pos rfl, Option.bind_eq_bind]
  cases checkMasterNode nullText output v51 N master with
  | none => rfl
  | some rval => cases rval <;> rfl

/-- **The whole run.** Unless a node has refused the connection, the versions must be printable,
    and behind them the checks that are made. -/
theorem checkReplication_settles {output : Bytes} (hout : output.length < OUTPUT_SIZE)
    (master : ReplNode) (slaves : List ReplNode) :
    Settles none (fun nullText => checkReplication nullText output (master :: slaves)) (· = 0)
      ((∃ node ∈ master :: slaves, node.link = .refused) ∨
        (∀ node ∈ master :: slaves, node.printsVersion ≠ .undefined) ∧
          ((∀ node ∈ master :: slaves, node.hasVersion = true) →
            master.printsReadOnly ≠ .undefined ∧
              (master.MasterPasses (flag51 (master :: slaves)) (master :: slaves).length output →
                ReachedClean slaves)))
      ((¬ ∃ node ∈ master :: slaves, node.link = .refused) ∧
        (∀ node ∈ master :: slaves, node.hasVersion = true) ∧
          master.MasterPasses (flag51 (master :: slaves)) (master :: slaves).length output ∧
            ∀ node ∈ slaves, node.Passes) := by
  have hloop := checkLoop_settles hout (flag51 (master :: slaves)) (master :: slaves).length master
    slaves
  generalize hnodes : master :: slaves = nodes at hloop ⊢
  have hany : (nodes.any fun node => node.link = .refused) = true ↔
      ∃ node ∈ nodes, node.link = .refused := by simp
  unfold checkReplication
  by_cases hrefused : ∃ node ∈ nodes, node.link = .refused
  · simp only [if_pos (hany.mpr hrefused)]
    exact (Settles.pure none (1 : ℤ) (· = 0)).congr (iff_of_true trivial (.inl hrefused))
      (iff_of_false one_ne_zero fun h => h.1 hrefused)
  · simp only [if_neg (mt hany.mp hrefused)]
    constructor
    · intro hclean nullText
      obtain ⟨hdefined, hchecks⟩ := hclean.resolve_left hrefused
      obtain ⟨versions, hrun, hres, hflag⟩ := getVersions_repl nullText hdefined
      rw [hrun, Option.bind_eq_bind, Option.bind_some, hflag, and_iff_right hrefused]
      by_cases hall : ∀ node ∈ nodes, node.hasVersion = true
      · rw [if_neg (not_not.mpr (hres.mpr hall)), and_iff_right hall]
        exact hloop.answers (hchecks hall) nullText
      · rw [if_pos (mt hres.mp hall)]
        exact ⟨_, rfl, iff_of_false (mt hres.mp hall) fun h => hall h.1⟩
    · intro hunclean
      by_cases hdefined : ∀ node ∈ nodes, node.printsVersion ≠ .undefined
      · obtain ⟨hall, hchecks⟩ := Classical.not_imp.mp fun hchecks =>
          hunclean (.inr ⟨hdefined, hchecks⟩)
        obtain ⟨versions, hrun, hres, hflag⟩ := getVersions_repl none hdefined
        rw [hrun, Option.bind_eq_bind, Option.bind_some, hflag,
          if_neg (not_not.mpr (hres.mpr hall))]
        exact hloop.faults hchecks
      · obtain ⟨node, hnode, hundefined⟩ : ∃ node ∈ nodes, node.printsVersion = .undefined := by
          simpa using hdefined
        rw [getVersions_of_undefined ReplNode.versionAsked hnode hundefined]
        rfl

end MaxScaleSystemTest.Nodes
