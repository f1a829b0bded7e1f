import MaxScaleSystemTest.Nodes.Iptables
import MaxScaleSystemTest.Sql.FindField
import MaxScaleSystemTest.Verdict

namespace MaxScaleSystemTest.Nodes

open CString CInt Iptables Sql

/-!
# The Galera priority test

`simple_failover` blocks the nodes of a cluster one after the other, from the highest priority
to the lowest, and expects the next one to answer.  It reports what went wrong in its result
only, which `main` does not use.

* `simpleFailover_released` — every node it has blocked is unblocked when it returns;
* `simpleFailover_rval` — its result tells whether an expectation has failed;
* `galera_priority_iff` — when a failed expectation shows in the exit status.
-/

/-- What one probe of a node sees: the results of `connect_rwsplit` and of the three queries. -/
structure NodeProbe where
  connect : ℤ
  begin : ℤ
  answer : FieldAnswer
  commit : ℤ

/-- A cluster: at least four nodes, and what `get_server_id` gives for each. -/
structure Cluster where
  N : ℕ
  four : 4 ≤ N
  serverId : Fin N → ℤ

/-- One of the four nodes of the test. -/
def Cluster.node (g : Cluster) (i : Fin 4) : Fin g.N := Fin.castLE g.four i

/-- What the test sees: a probe before each of the four blocks, the result of `connect_rwsplit`
    while all nodes are blocked and whether `conn_rwsplit` is not null then, and a last probe. -/
structure PriorityOutcomes where
  probe : Fin 4 → NodeProbe
  allBlocked : ℤ
  allBlockedConn : Bool
  last : NodeProbe

/-- `check_server_id`. -/
def checkServerId (p : NodeProbe) (nodeId : Bytes) : ℤ :=
  if p.begin ≠ 0 ∨ p.answer.ret ≠ 0 ∨ p.commit ≠ 0 then 1
  else if nodeId ≠ p.answer.value then 1
  else 0

/-- `connect_rwsplit() || check_server_id(test, server_id[i])`. -/
def probeFails (p : NodeProbe) (serverId : ℤ) : Bool :=
  p.connect ≠ 0 || checkServerId p (Decimal.ofInt serverId) ≠ 0

/-- Where the test stands: the calls on the nodes, its variables, and whether the `do` block has
    been left. -/
structure PriorityState (N : ℕ) where
  calls : List (Call N)
  blocked : Bool
  rval : ℤ
  left : Bool

variable (g : Cluster) (o : PriorityOutcomes)

/-- The probe of a node and its block; a failure leaves the `do` block. -/
def blockStage (st : PriorityState g.N) (i : Fin 4) : PriorityState g.N :=
  if st.left then st
  else if probeFails (o.probe i) (g.serverId (g.node i)) then { st with rval := 1, left := true }
  else { st with calls := st.calls ++ [.block (g.node i)], blocked := true }

/-- The calls of `unblock_all_nodes`. -/
def unblockAll (N : ℕ) : List (Call N) := (List.finRange N).map .unblock

/-- What follows the four blocks: a connection while all nodes are blocked sets the result, the
    nodes are unblocked, and the last probe is made. -/
def unblockStage (st : PriorityState g.N) : PriorityState g.N :=
  if st.left then st
  else if probeFails o.last (g.serverId (g.node 2)) then
    ⟨st.calls ++ unblockAll g.N, false, 1, true⟩
  else
    ⟨st.calls ++ unblockAll g.N, false,
      if o.allBlocked = 0 ∧ o.allBlockedConn = true then 1 else st.rval, false⟩

/-- `simple_failover`: nodes 3, 1, 4 and 2 are blocked in turn. -/
def simpleFailover : PriorityState g.N :=
  let st := [2, 0, 3, 1].foldl (blockStage g o) ⟨[], false, 0, false⟩
  let st := unblockStage g o st
  if st.blocked then { st with calls := st.calls ++ unblockAll g.N } else st

/-- `main`, on a new object: the sum of the results is not used. -/
def galeraPriority (t : TestConnections) : UInt8 :=
  let _rval1 := (simpleFailover g o).rval
  exitStatus t

/-! ### Unblocking -/

/-- After `unblock_all_nodes` the last call on every node is to unblock it. -/
theorem lastCall_append_unblockAll {N : ℕ} (calls : List (Call N)) (i : Fin N) :
    lastCall (calls ++ unblockAll N) i = some (.unblock i) := by
  have hone : (unblockAll N).filter (fun c => c.node = i) = [.unblock i] := by
    have hfilter : (List.finRange N).filter (fun j => j = i) = [i] := by
      rw [List.filter_eq, List.count_eq_one_of_mem (List.nodup_finRange N) (List.mem_finRange i)]
      rfl
    rw [unblockAll, List.filter_map]
    exact congrArg (List.map Call.unblock) hfilter
  rw [lastCall, List.filter_append, hone, List.getLast?_append]
  rfl

/-- Every node that was blocked has been unblocked since. -/
def Released {N : ℕ} (calls : List (Call N)) : Prop :=
  ∀ i, .block i ∈ calls → lastCall calls i = some (.unblock i)

theorem released_append_unblockAll {N : ℕ} (calls : List (Call N)) :
    Released (calls ++ unblockAll N) := fun i _ => lastCall_append_unblockAll calls i

/-- Without the flag `blocked` no node is blocked. -/
def FlagRight {N : ℕ} (st : PriorityState N) : Prop := st.blocked = false → Released st.calls

variable {g o}

theorem blockStage_flagRight {st : PriorityState g.N} (h : FlagRight st) (i : Fin 4) :
    FlagRight (blockStage g o st i) := by
  unfold blockStage
  split
  · exact h
  · split
    · exact h
    · exact nofun

theorem unblockStage_flagRight {st : PriorityState g.N} (h : FlagRight st) :
    FlagRight (unblockStage g o st) := by
  unfold unblockStage
  split
  · exact h
  · split <;> exact fun _ => released_append_unblockAll st.calls

/-- **Release.** Whatever the probes see, every node that was blocked is unblocked at the
    end. -/
theorem simpleFailover_released (g : Cluster) (o : PriorityOutcomes) :
    Released (simpleFailover g o).calls := by
  have hstart : FlagRight (⟨[], false, 0, false⟩ : PriorityState g.N) := fun _ _ => nofun
  have hblocked : FlagRight ([2, 0, 3, 1].foldl (blockStage g o) ⟨[], false, 0, false⟩) :=
    List.foldlRecOn _ _ hstart fun _ hst i _ => blockStage_flagRight hst i
  have hflag : FlagRight (unblockStage g o
    ([2, 0, 3, 1].foldl (blockStage g o) ⟨[], false, 0, false⟩)) := unblockStage_flagRight hblocked
  unfold simpleFailover
  simp only
  split
  · exact released_append_unblockAll _
  · rename_i hnot
    exact hflag (Bool.eq_false_of_not_eq_true hnot)

/-! ### The result -/

/-- The probe sees the server that is expected. -/
structure NodeProbe.Passes (p : NodeProbe) (serverId : ℤ) : Prop where
  connect : p.connect = 0
  begin : p.begin = 0
  found : p.answer.ret = 0
  commit : p.commit = 0
  server : p.answer.value = Decimal.ofInt serverId

theorem probeFails_eq_false_iff {p : NodeProbe} {serverId : ℤ} :
    probeFails p serverId = false ↔ p.Passes serverId := by
  unfold probeFails checkServerId
  constructor
  · intro h
    by_cases hquery : p.begin ≠ 0 ∨ p.answer.ret ≠ 0 ∨ p.commit ≠ 0
    · simp [hquery] at h
    · rw [if_neg hquery] at h
      have hserver : ¬ Decimal.ofInt serverId ≠ p.answer.value := fun hne => by simp [hne] at h
      push Not at hquery hserver
      simp only [hserver, ne_eq, not_true_eq_false, if_false, decide_false, Bool.or_false,
        decide_eq_false_iff_not, not_not] at h
      exact ⟨h, hquery.1, hquery.2.1, hquery.2.2, hserver.symm⟩
  · intro h
    simp [h.connect, h.begin, h.found, h.commit, h.server]

/-- One of the expectations of the test fails: a probe that should see a server does not see it,
    or there is a connection while all nodes are blocked. -/
def ExpectationFails (g : Cluster) (o : PriorityOutcomes) : Prop :=
  (∃ i, ¬ (o.probe i).Passes (g.serverId (g.node i))) ∨
    (o.allBlocked = 0 ∧ o.allBlockedConn = true) ∨ ¬ o.last.Passes (g.serverId (g.node 2))

/-- The stages up to the first probe that fails. -/
theorem foldl_blockStage (is : List (Fin 4)) (st : PriorityState g.N) (hleft : st.left = false)
    (hrval : st.rval = 0) :
    (is.foldl (blockStage g o) st).left
        = is.any (fun i => probeFails (o.probe i) (g.serverId (g.node i))) ∧
      (is.foldl (blockStage g o) st).rval
        = if (is.foldl (blockStage g o) st).left then 1 else 0 := by
  induction is generalizing st with
  | nil => simp [hleft, hrval]
  | cons i is ih =>
    rw [List.foldl_cons, List.any_cons]
    by_cases hfails : probeFails (o.probe i) (g.serverId (g.node i)) = true
    · -- the stages behind it are skipped
      have hstage : blockStage g o st i = { st with rval := 1, left := true } := by
        simp [blockStage, hleft, hfails]
      have hskip : is.foldl (blockStage g o) { st with rval := 1, left := true }
          = { st with rval := 1, left := true } := by
        apply List.foldl_fixed'
        intro j
        simp [blockStage]
      rw [hstage, hskip, hfails]
      exact ⟨rfl, rfl⟩
    · have hstage : blockStage g o st i
          = { st with calls := st.calls ++ [.block (g.node i)], blocked := true } := by
        simp [blockStage, hleft, hfails]
      rw [hstage, Bool.eq_false_of_not_eq_true hfails, Bool.false_or]
      exact ih _ hleft hrval

/-- **Result.** `simple_failover` tells whether an expectation has failed. -/
theorem simpleFailover_rval (g : Cluster) (o : PriorityOutcomes) :
    (simpleFailover g o).rval ≠ 0 ↔ ExpectationFails g o := by
  have hresult : (simpleFailover g o).rval = (unblockStage g o
      ([2, 0, 3, 1].foldl (blockStage g o) ⟨[], false, 0, false⟩)).rval := by
    unfold simpleFailover
    simp only
    split <;> rfl
  obtain ⟨hleft, hrval⟩ := foldl_blockStage (g := g) (o := o) [2, 0, 3, 1]
    ⟨[], false, 0, false⟩ rfl rfl
  have hany : (∃ i, ¬ (o.probe i).Passes (g.serverId (g.node i))) ↔
      [2, 0, 3, 1].any (fun i => probeFails (o.probe i) (g.serverId (g.node i))) = true := by
    rw [List.any_eq_true]
    refine exists_congr fun i => ?_
    have hmem : i ∈ [(2 : Fin 4), 0, 3, 1] := by
      revert i
      decide
    rw [← probeFails_eq_false_iff]
    simp [hmem]
  rw [ExpectationFails, hany, ← hleft, hresult, ← probeFails_eq_false_iff]
  generalize [2, 0, 3, 1].foldl (blockStage g o) ⟨[], false, 0, false⟩ = st at hrval
  unfold unblockStage
  cases hst : st.left with
  | true => simp [hrval, hst]
  | false =>
    rw [hst, if_neg Bool.false_ne_true] at hrval
    cases probeFails o.last (g.serverId (g.node 2)) with
    | true => simp
    | false =>
      by_cases hconnect : o.allBlocked = 0 ∧ o.allBlockedConn = true <;> simp [hconnect, hrval]

/-! ### The exit status -/

/-- Every node that was blocked is unblocked when the function returns, and a failed expectation
    shows in the exit status. -/
structure PriorityReported (g : Cluster) (o : PriorityOutcomes) (t : TestConnections) : Prop where
  released : Released (simpleFailover g o).calls
  status : ExpectationFails g o → galeraPriority g o t ≠ 0

/-- **Report.** The nodes are always unblocked, but a failed expectation shows in the exit status
    only if what `global_result` held before does. -/
theorem galera_priority_iff (g : Cluster) (o : PriorityOutcomes) (t : TestConnections) :
    PriorityReported g o t ↔ ¬ ExpectationFails g o ∨ ¬ (256 : ℤ) ∣ t.globalResult.toInt := by
  have hstatus : galeraPriority g o t = 0 ↔ (256 : ℤ) ∣ t.globalResult.toInt :=
    lowByte_eq_zero_iff t.globalResult
  rw [← hstatus, ← imp_iff_not_or]
  exact ⟨fun h => h.status, fun h => ⟨simpleFailover_released g o, h⟩⟩

/-- Four nodes with the server ids 1 to 4. -/
def exampleCluster : Cluster where
  N := 4
  four := le_refl 4
  serverId := fun i => i.val + 1

/-- MaxScale answers from the node with the id 1 although the one with the id 3 is there. -/
def wrongMaster : PriorityOutcomes where
  probe := fun _ => ⟨0, 0, ⟨0, ascii "1"⟩, 0⟩
  allBlocked := 2003
  allBlockedConn := true
  last := ⟨0, 0, ⟨0, ascii "3"⟩, 0⟩

/-- The test exits with status 0. -/
theorem wrong_master_passes : ¬ PriorityReported exampleCluster wrongMaster ⟨0, []⟩ := by
  rw [galera_priority_iff]
  rintro (hmeets | hstatus)
  · refine hmeets (.inl ⟨2, fun hpasses => ?_⟩)
    exact absurd hpasses.server (by decide +kernel)
  · exact hstatus (by decide)

end MaxScaleSystemTest.Nodes
