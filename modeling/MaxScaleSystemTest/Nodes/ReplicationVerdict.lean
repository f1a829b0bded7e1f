import MaxScaleSystemTest.Nodes.CheckReplication

namespace MaxScaleSystemTest.Nodes

open CString Settled Sql

/-!
# The verdict of `check_replication`

`check_replication` returns 0 on a healthy topology and on no other, except where it compares
something that no reply has supplied: a buffer left as it was because the reply has no row, the
first cell of a row without the column, a NULL.

* `thread_healthy_iff`, `master_healthy_iff` — a check against what is supplied;
* `healthy_iff` — all checks against what is supplied;
* `check_replication_iff` — when the verdict is right.
-/

/-! ### Healthy topologies -/

/-- The node reports a version. -/
def ReplNode.Reports (node : ReplNode) (text : Bytes) : Prop :=
  suppliedCell (node.ask node.versionReply) (ascii "@@version") = some text

/-- One of the nodes reports a 5.1. -/
def Reports51 (nodes : List ReplNode) : Prop :=
  ∃ node ∈ nodes, ∃ text, node.Reports text ∧ cutMajor (cutNumber text) = ascii "5.1"

/-- A slave thread is shown running at once, or behind one value other than `No`. -/
def ReplNode.ThreadRuns (node : ReplNode) (field : Bytes) (tries : Tries) : Prop :=
  suppliedCell (node.ask tries.first) field = some (ascii "Yes") ∨
    ∃ t, suppliedCell (node.ask tries.first) field = some t ∧ t ≠ ascii "No" ∧
      suppliedCell (node.ask tries.second) field = some (ascii "Yes")

/-- Both threads of a slave run. -/
structure HealthySlave (node : ReplNode) : Prop where
  io : node.ThreadRuns (ascii "Slave_IO_Running") node.io
  sql : node.ThreadRuns (ascii "Slave_SQL_Running") node.sql

/-- The master lists the other nodes, which is not required with a 5.1 among them, is no slave
    itself and can be written. -/
structure HealthyMaster (v51 : Prop) (N : ℕ) (node : ReplNode) : Prop where
  slaveHosts : v51 ∨ ∃ res, node.slaveHosts = .result res ∧ res.rows.length + 1 = N
  slaveStatus : ∃ res, node.slaveStatus = .result res ∧ res.rows = []
  readOnly : suppliedCell (node.ask node.readOnly) (ascii "Value") = some (ascii "OFF")

/-- Node 0 is the master of all other nodes. -/
structure Healthy (nodes : List ReplNode) : Prop where
  connected : ∀ node ∈ nodes, node.link = .up
  versions : ∀ node ∈ nodes, ∃ text, node.Reports text
  master : ∀ node ∈ nodes.head?, HealthyMaster (Reports51 nodes) nodes.length node
  slaves : ∀ node ∈ nodes.tail, HealthySlave node

/-- `check_replication` returns 0 exactly on a healthy topology, whatever is undefined. -/
def VerdictRight (nodes : List ReplNode) : Prop :=
  ∀ output, output.length < OUTPUT_SIZE → ∀ nullText,
    ∃ res, checkReplication nullText output nodes = some res ∧ (res = 0 ↔ Healthy nodes)

/-! ### When the verdict is right -/

/-- The master passes with some content of its uninitialised buffer. -/
def ReplNode.MayPass (v51 : Bool) (N : ℕ) (node : ReplNode) : Prop :=
  wrongSlaveHosts v51 N node.slaveHosts = false ∧ isSlave node.slaveStatus = false ∧
    (node.printsReadOnly = .text (ascii "OFF") ∨ node.printsReadOnly = .nothing)

/-- The first reply about a thread has its column and a row, and the second has the column if
    the first does not print `Yes`. -/
def ReplNode.ThreadSupplied (node : ReplNode) (field : Bytes) (tries : Tries) : Prop :=
  matched (node.ask tries.first) field = true ∧ node.prints field tries.first ≠ .nothing ∧
    (node.prints field tries.first = .text (ascii "Yes") ∨
      matched (node.ask tries.second) field = true)

/-- The replies about both threads have what is read from them. -/
def ReplNode.SlaveSupplied (node : ReplNode) : Prop :=
  node.ThreadSupplied (ascii "Slave_IO_Running") node.io ∧
    node.ThreadSupplied (ascii "Slave_SQL_Running") node.sql

/-- The replies of the master have what is read from them, and the number of slave hosts is the
    right one as a whole. -/
structure MasterSupplied (v51 : Bool) (N : ℕ) (node : ReplNode) : Prop where
  slaveHosts : v51 = true ∨ ∃ res, node.slaveHosts = .result res ∧ res.rows.length + 1 = N
  slaveStatus : node.slaveStatus ≠ .noResult
  readOnly : matched (node.ask node.readOnly) (ascii "Value") = true ∧
    node.printsReadOnly ≠ .nothing

/-- All replies have what is read from them. -/
structure AllSupplied (v51 : Bool) (master : ReplNode) (slaves : List ReplNode) : Prop where
  versions : ∀ node ∈ master :: slaves, node.printsVersion ≠ .nothing
  master : MasterSupplied v51 (slaves.length + 1) master
  slaves : ∀ node ∈ slaves, node.SlaveSupplied

/-- What the checks need: `read_only` can be printed, and the replies of the slaves up to the
    first that fails, if they are asked at all; nothing passes without having been supplied; and
    the slave hosts of a healthy master can be asked for. -/
structure ChecksReliable (v51 : Bool) (master : ReplNode) (slaves : List ReplNode) : Prop where
  readOnly : master.printsReadOnly ≠ .undefined
  reached : master.MayPass v51 (slaves.length + 1) → ReachedClean slaves
  supplied : master.MayPass v51 (slaves.length + 1) → (∀ node ∈ slaves, node.Passes) →
    AllSupplied v51 master slaves
  slaveHosts : Healthy (master :: slaves) → master.slaveHosts ≠ .failed

/-- A node has refused the connection; or all versions can be printed and, if all nodes have the
    column, the checks get what they need. -/
def VerdictReliable : List ReplNode → Prop
  | [] => True
  | master :: slaves =>
    (∃ node ∈ master :: slaves, node.link = .refused) ∨
      (∀ node ∈ master :: slaves, node.printsVersion ≠ .undefined) ∧
        ((∀ node ∈ master :: slaves, node.hasVersion = true) →
          ChecksReliable (flag51 (master :: slaves)) master slaves)

/-! ### The slaves -/

/-- **One thread.** -/
theorem thread_healthy_iff {node : ReplNode} {field : Bytes} {tries : Tries}
    (hclean : node.ThreadClean tries field) :
    node.ThreadPasses tries field ∧ node.ThreadSupplied field tries ↔
      node.ThreadRuns field tries := by
  obtain ⟨hfirst, hsecond⟩ := hclean
  have hsupplied : ∀ t, suppliedCell (node.ask tries.first) field = some t ↔
      matched (node.ask tries.first) field = true ∧ node.prints field tries.first = .text t :=
    fun t => supplied_iff hfirst
  constructor
  · rintro ⟨hpass, hmatched, hrow, hcolumn⟩
    by_cases hyes : node.prints field tries.first = .text (ascii "Yes")
    · exact .inl ((hsupplied _).mpr ⟨hmatched, hyes⟩)
    · obtain ⟨-, hno, hlast⟩ := hpass.resolve_left hyes
      have hmatched₂ := hcolumn.resolve_left hyes
      cases hprint : node.prints field tries.first with
      | nothing => exact absurd hprint hrow
      | undefined => exact absurd hprint hfirst
      | text t =>
        refine .inr ⟨t, (hsupplied t).mpr ⟨hmatched, hprint⟩, ?_, ?_⟩
        · rintro rfl
          exact hno hprint
        · exact (supplied_and_fits_iff.mpr ⟨hmatched₂, hlast⟩).1
  · rintro (hyes | ⟨t, ht, hno, hyes⟩)
    · obtain ⟨hmatched, hprint⟩ := (hsupplied _).mp hyes
      refine ⟨.inl hprint, hmatched, ?_, .inl hprint⟩
      rw [hprint]
      nofun
    · obtain ⟨hmatched, hprint⟩ := (hsupplied t).mp ht
      have hfits : (ascii "Yes").length < STR_SIZE := by decide
      obtain ⟨hmatched₂, hprint₂⟩ := supplied_and_fits_iff.mp ⟨hyes, hfits⟩
      refine ⟨.inr ⟨hmatched, ?_, hprint₂⟩, hmatched, ?_, .inr hmatched₂⟩
      · rw [hprint, Ne, Printing.text.injEq]
        exact hno
      · rw [hprint]
        nofun

/-- **One slave.** -/
theorem slave_healthy_iff {node : ReplNode} (hclean : node.Clean) :
    node.Passes ∧ node.SlaveSupplied ↔ HealthySlave node := by
  obtain ⟨hio, hsql⟩ := hclean
  constructor
  · rintro ⟨⟨hpass, hpass'⟩, hsupplied, hsupplied'⟩
    exact ⟨(thread_healthy_iff hio).mp ⟨hpass, hsupplied⟩,
      (thread_healthy_iff (hsql hpass)).mp ⟨hpass', hsupplied'⟩⟩
  · rintro ⟨hruns, hruns'⟩
    obtain ⟨hpass, hsupplied⟩ := (thread_healthy_iff hio).mpr hruns
    obtain ⟨hpass', hsupplied'⟩ := (thread_healthy_iff (hsql hpass)).mpr hruns'
    exact ⟨⟨hpass, hpass'⟩, hsupplied, hsupplied'⟩

/-- **All slaves.** -/
theorem slaves_healthy_iff {slaves : List ReplNode} (hclean : ReachedClean slaves) :
    (∀ node ∈ slaves, node.Passes) ∧ (∀ node ∈ slaves, node.SlaveSupplied) ↔
      ∀ node ∈ slaves, HealthySlave node := by
  induction slaves with
  | nil => simp
  | cons node nodes ih =>
    obtain ⟨hnode, hnodes⟩ := hclean
    simp only [List.forall_mem_cons]
    constructor
    · rintro ⟨⟨hpass, hpasses⟩, hsupplied, hsupplieds⟩
      exact ⟨(slave_healthy_iff hnode).mp ⟨hpass, hsupplied⟩,
        (ih (hnodes hpass)).mp ⟨hpasses, hsupplieds⟩⟩
    · rintro ⟨hhealthy, hhealthys⟩
      obtain ⟨hpass, hsupplied⟩ := (slave_healthy_iff hnode).mpr hhealthy
      obtain ⟨hpasses, hsupplieds⟩ := (ih (hnodes hpass)).mpr hhealthys
      exact ⟨⟨hpass, hpasses⟩, hsupplied, hsupplieds⟩

/-! ### The master -/

section

variable {node : ReplNode} {v51 : Bool} {N : ℕ}

/-- The master passes with a given buffer if it may pass, and the buffer holds `OFF` where
    nothing is printed into it. -/
theorem masterPasses_iff (hdefined : node.printsReadOnly ≠ .undefined) (output : Bytes) :
    node.MasterPasses v51 N output ↔
      node.MayPass v51 N ∧ (node.printsReadOnly = .nothing → output = ascii "OFF") := by
  unfold ReplNode.MasterPasses ReplNode.MayPass
  cases hprint : node.printsReadOnly with
  | undefined => exact absurd hprint hdefined
  | nothing => simp [Printing.fill, and_assoc]
  | text t => simp [Printing.fill]

/-- The right number of slave hosts is accepted. -/
theorem wrongSlaveHosts_of_count {res : ResultSet} (h : res.rows.length + 1 = N) :
    wrongSlaveHosts v51 N (.result res) = false := by
  have hcount : Int32.ofNat res.rows.length = Int32.ofNat N - 1 := by
    rw [← h, Int32.ofNat_add]
    exact (Int32.add_sub_cancel _ _).symm
  simp [wrongSlaveHosts, hcount]

/-- **The master.** -/
theorem master_healthy_iff {reports51 : Prop} (hflag : v51 = true ↔ reports51)
    (hdefined : node.printsReadOnly ≠ .undefined) :
    HealthyMaster reports51 N node ∧ node.slaveHosts ≠ .failed ↔
      node.MayPass v51 N ∧ MasterSupplied v51 N node := by
  have hreadOnly : suppliedCell (node.ask node.readOnly) (ascii "Value") = some (ascii "OFF") ↔
      matched (node.ask node.readOnly) (ascii "Value") = true ∧
        node.printsReadOnly = .text (ascii "OFF") := supplied_iff hdefined
  constructor
  · rintro ⟨⟨hhosts, ⟨status, hstatus, hrows⟩, hoff⟩, hasked⟩
    obtain ⟨hmatched, hprint⟩ := hreadOnly.mp hoff
    refine ⟨⟨?_, ?_, .inl hprint⟩, ⟨hhosts.imp_left hflag.mpr, ?_, hmatched, ?_⟩⟩
    · rcases hhosts with h51 | ⟨res, hres, hcount⟩
      · cases hreply : node.slaveHosts with
        | failed => exact absurd hreply hasked
        | noResult => rfl
        | result res => simp [wrongSlaveHosts, hflag.mpr h51]
      · rw [hres]
        exact wrongSlaveHosts_of_count hcount
    · rw [hstatus]
      simp [isSlave, hrows]
    · rw [hstatus]
      nofun
    · rw [hprint]
      nofun
  · rintro ⟨⟨hhosts, hstatus, hprint⟩, ⟨hcount, hresult, hmatched, hrow⟩⟩
    refine ⟨⟨hcount.imp_left hflag.mp, ?_, ?_⟩, ?_⟩
    · cases hreply : node.slaveStatus with
      | failed => simp [hreply, isSlave] at hstatus
      | noResult => exact absurd hreply hresult
      | result res => exact ⟨res, rfl, by simpa [hreply, isSlave] using hstatus⟩
    · exact hreadOnly.mpr ⟨hmatched, hprint.resolve_right hrow⟩
    · intro hfailed
      simp [hfailed, wrongSlaveHosts] at hhosts

end

/-! ### All nodes -/

/-- A node that has the column has a handle. -/
theorem link_ne_null {node : ReplNode} (h : node.hasVersion = true) : node.link ≠ .null := by
  intro hnull
  simp [ReplNode.hasVersion, ReplNode.ask, hnull, matched] at h

section

variable {nodes : List ReplNode}

/-- The versions are reported where every reply has a row. -/
theorem reports_iff (hdefined : ∀ node ∈ nodes, node.printsVersion ≠ .undefined)
    (hall : ∀ node ∈ nodes, node.hasVersion = true) :
    (∀ node ∈ nodes, ∃ text, node.Reports text) ↔
      ∀ node ∈ nodes, node.printsVersion ≠ .nothing := by
  refine forall₂_congr fun node hnode => ?_
  constructor
  · rintro ⟨text, htext⟩
    exact (matched_of_supplied VERSION_SIZE htext).2
  · intro hrow
    cases hprint : node.printsVersion with
    | nothing => exact absurd hprint hrow
    | undefined => exact absurd hprint (hdefined node hnode)
    | text text => exact ⟨text, (supplied_and_fits_iff.mpr ⟨hall node hnode, hprint⟩).1⟩

/-- `v51` is right if all versions are reported. -/
theorem flag51_iff (hdefined : ∀ node ∈ nodes, node.printsVersion ≠ .undefined)
    (hreports : ∀ node ∈ nodes, ∃ text, node.Reports text) :
    flag51 nodes = true ↔ Reports51 nodes := by
  have hleft : ∀ node ∈ nodes, ∀ text, node.Reports text → node.versionLeft = text := by
    intro node hnode text htext
    have hprint : node.printsVersion = .text text := ((supplied_iff (hdefined node hnode)).mp htext).2
    rw [ReplNode.versionLeft, hprint]
    rfl
  rw [flag51, List.any_eq_true]
  constructor
  · rintro ⟨node, hnode, hmajor⟩
    obtain ⟨text, htext⟩ := hreports node hnode
    rw [decide_eq_true_eq, hleft node hnode text htext] at hmajor
    exact ⟨node, hnode, text, htext, hmajor⟩
  · rintro ⟨node, hnode, text, htext, hmajor⟩
    refine ⟨node, hnode, ?_⟩
    rw [decide_eq_true_eq, hleft node hnode text htext]
    exact hmajor

end

section

variable {master : ReplNode} {slaves : List ReplNode}

/-- **All checks.** Where they use nothing undefined, a topology is healthy if they pass and all
    they read has been supplied. -/
theorem healthy_iff (hlinks : ¬ ∃ node ∈ master :: slaves, node.link = .refused)
    (hdefined : ∀ node ∈ master :: slaves, node.printsVersion ≠ .undefined)
    (hall : ∀ node ∈ master :: slaves, node.hasVersion = true)
    (hreadOnly : master.printsReadOnly ≠ .undefined) (hclean : ReachedClean slaves) :
    Healthy (master :: slaves) ∧ master.slaveHosts ≠ .failed ↔
      (master.MayPass (flag51 (master :: slaves)) (slaves.length + 1) ∧
        ∀ node ∈ slaves, node.Passes) ∧
        AllSupplied (flag51 (master :: slaves)) master slaves := by
  have hversions := reports_iff hdefined hall
  constructor
  · rintro ⟨hhealthy, hasked⟩
    have hflag := flag51_iff hdefined hhealthy.versions
    obtain ⟨hpass, hsupplied⟩ :=
      (master_healthy_iff hflag hreadOnly).mp ⟨hhealthy.master master rfl, hasked⟩
    obtain ⟨hpasses, hsupplieds⟩ := (slaves_healthy_iff hclean).mpr hhealthy.slaves
    exact ⟨⟨hpass, hpasses⟩, hversions.mp hhealthy.versions, hsupplied, hsupplieds⟩
  · rintro ⟨⟨hpass, hpasses⟩, hrows, hsupplied, hsupplieds⟩
    have hreports := hversions.mpr hrows
    obtain ⟨hmaster, hasked⟩ :=
      (master_healthy_iff (flag51_iff hdefined hreports) hreadOnly).mpr ⟨hpass, hsupplied⟩
    refine ⟨⟨fun node hnode => ?_, hreports, ?_, ?_⟩, hasked⟩
    · cases hlink : node.link with
      | null => exact absurd hlink (link_ne_null (hall node hnode))
      | refused => exact absurd ⟨node, hnode, hlink⟩ hlinks
      | up => rfl
    · rintro node ⟨⟩
      exact hmaster
    · exact (slaves_healthy_iff hclean).mp ⟨hpasses, hsupplieds⟩

/-- Behind the versions the verdict is right for every content of the master's buffer exactly if
    the checks get what they need. -/
theorem checks_iff (hlinks : ¬ ∃ node ∈ master :: slaves, node.link = .refused)
    (hdefined : ∀ node ∈ master :: slaves, node.printsVersion ≠ .undefined)
    (hall : ∀ node ∈ master :: slaves, node.hasVersion = true) :
    (∀ output, output.length < OUTPUT_SIZE →
      (master.printsReadOnly ≠ .undefined ∧
        (master.MasterPasses (flag51 (master :: slaves)) (slaves.length + 1) output →
          ReachedClean slaves)) ∧
      ((master.MasterPasses (flag51 (master :: slaves)) (slaves.length + 1) output ∧
        ∀ node ∈ slaves, node.Passes) ↔ Healthy (master :: slaves))) ↔
      ChecksReliable (flag51 (master :: slaves)) master slaves := by
  constructor
  · intro h
    -- a buffer that happens to hold `OFF`
    obtain ⟨⟨hreadOnly, hreached⟩, hright⟩ := h (ascii "OFF") (by decide)
    have hmay := @masterPasses_iff master (flag51 (master :: slaves)) (slaves.length + 1) hreadOnly
      (ascii "OFF")
    rw [and_iff_left fun _ => rfl] at hmay
    rw [hmay] at hreached hright
    have hasked : master.MayPass (flag51 (master :: slaves)) (slaves.length + 1) →
        master.slaveHosts ≠ .failed := by
      rintro ⟨hhosts, -⟩ hfailed
      simp [hfailed, wrongSlaveHosts] at hhosts
    refine ⟨hreadOnly, hreached, fun hpass hpasses => ?_, fun hhealthy => ?_⟩
    · have hhealthy := hright.mp ⟨hpass, hpasses⟩
      exact ((healthy_iff hlinks hdefined hall hreadOnly (hreached hpass)).mp
        ⟨hhealthy, hasked hpass⟩).2
    · exact hasked (hright.mpr hhealthy).1
  · rintro ⟨hreadOnly, hreached, hsupplied, hhosts⟩ output -
    rw [masterPasses_iff hreadOnly]
    refine ⟨⟨hreadOnly, fun h => hreached h.1⟩, ?_⟩
    constructor
    · rintro ⟨⟨hpass, -⟩, hpasses⟩
      exact ((healthy_iff hlinks hdefined hall hreadOnly (hreached hpass)).mpr
        ⟨⟨hpass, hpasses⟩, hsupplied hpass hpasses⟩).1
    · intro hhealthy
      have hflag := flag51_iff hdefined hhealthy.versions
      obtain ⟨hpass, hmaster⟩ := (master_healthy_iff hflag hreadOnly).mp
        ⟨hhealthy.master master rfl, hhosts hhealthy⟩
      obtain ⟨⟨-, hpasses⟩, -⟩ := (healthy_iff hlinks hdefined hall hreadOnly
        (hreached hpass)).mp ⟨hhealthy, hhosts hhealthy⟩
      exact ⟨⟨hpass, fun hnothing => absurd hnothing hmaster.readOnly.2⟩, hpasses⟩

end

/-- **The verdict.** `check_replication` returns 0 exactly on the healthy topologies, whatever is
    undefined, if and only if its checks get what they need. -/
theorem check_replication_iff (nodes : List ReplNode) :
    VerdictRight nodes ↔ VerdictReliable nodes := by
  cases nodes with
  | nil =>
    refine iff_of_true (fun output _ nullText => ⟨0, ?_, iff_of_true rfl ?_⟩) trivial
    · simp [checkReplication, getVersions, checkLoop]
    · constructor <;> simp
  | cons master slaves =>
    have hright : VerdictRight (master :: slaves) ↔ _ := forall₂_congr fun output hout =>
      (checkReplication_settles hout master slaves).answers_iff (Healthy (master :: slaves))
    rw [hright, VerdictReliable]
    by_cases hlinks : ∃ node ∈ master :: slaves, node.link = .refused
    · refine iff_of_true (fun output _ => ⟨.inl hlinks, iff_of_false (fun h => h.1 hlinks) ?_⟩)
        (.inl hlinks)
      intro hhealthy
      obtain ⟨node, hnode, hrefused⟩ := hlinks
      have hup := hhealthy.connected node hnode
      rw [hrefused] at hup
      cases hup
    · simp only [or_iff_right hlinks, and_iff_right hlinks]
      by_cases hall : ∀ node ∈ master :: slaves, node.hasVersion = true
      · simp only [forall_prop_of_true hall, and_iff_right hall, List.length_cons]
        constructor
        · intro h
          have hdefined := (h (ascii "OFF") (by decide)).1.1
          refine ⟨hdefined, (checks_iff hlinks hdefined hall).mp fun output hout => ?_⟩
          obtain ⟨⟨-, hclean⟩, hverdict⟩ := h output hout
          exact ⟨hclean, hverdict⟩
        · rintro ⟨hdefined, hchecks⟩ output hout
          obtain ⟨hclean, hverdict⟩ := (checks_iff hlinks hdefined hall).mpr hchecks output hout
          exact ⟨⟨hdefined, hclean⟩, hverdict⟩
      · -- no topology is healthy without all versions
        have hsick : ¬ Healthy (master :: slaves) := by
          intro hhealthy
          refine hall fun node hnode => ?_
          obtain ⟨text, htext⟩ := hhealthy.versions node hnode
          exact (matched_of_supplied VERSION_SIZE htext).1
        simp only [hall, false_imp_iff, and_true, false_and, hsick]
        exact ⟨fun h => h (ascii "OFF") (by decide), fun h _ _ => h⟩

/-- A reply with one row. -/
def oneRow (row : List (String × String)) : QueryReply :=
  .result ⟨row.map fun cell => ascii cell.1, [row.map fun cell => some (ascii cell.2)], by simp⟩

/-- A master with one slave, which does not answer the query for `read_only`. -/
def silentMaster : ReplNode where
  link := .up
  version := []
  version_lt := by decide
  versionReply := oneRow [("@@version", "10.2.8-MariaDB-log")]
  slaveHosts := oneRow [("Server_id", "2"), ("Host", ""), ("Port", "3306"), ("Master_id", "1")]
  slaveStatus := .result ⟨[ascii "Slave_IO_State", ascii "Master_Host"], [], by simp⟩
  readOnly := .failed
  io := ⟨.failed, .failed⟩
  sql := ⟨.failed, .failed⟩

/-- Its slave, which runs. -/
def runningSlave : ReplNode where
  link := .up
  version := []
  version_lt := by decide
  versionReply := oneRow [("@@version", "10.2.8-MariaDB-log")]
  slaveHosts := .failed
  slaveStatus := .failed
  readOnly := .failed
  io := ⟨oneRow [("Slave_IO_Running", "Yes")], .failed⟩
  sql := ⟨oneRow [("Slave_SQL_Running", "Yes")], .failed⟩

/-- With `OFF` in its uninitialised buffer the check passes all the same. -/
theorem check_replication_silent_master : ¬ VerdictRight [silentMaster, runningSlave] := by
  intro h
  obtain ⟨res, hrun, hright⟩ := h (ascii "OFF") (by decide) none
  have hzero : checkReplication none (ascii "OFF") [silentMaster, runningSlave] = some 0 := by
    decide +kernel
  rw [hzero, Option.some.injEq] at hrun
  have hmaster := (hright.mp hrun.symm).master silentMaster rfl
  exact absurd hmaster.readOnly nofun

end MaxScaleSystemTest.Nodes
