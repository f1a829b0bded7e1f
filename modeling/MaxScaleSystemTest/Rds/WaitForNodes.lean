import MaxScaleSystemTest.Lib.InputLoop
import MaxScaleSystemTest.Rds.Cluster

namespace MaxScaleSystemTest.Rds.WaitForNodes

open CString InputLoop Json Cluster

/-!
# Waiting for the nodes of a cluster

`wait_for_nodes` counts in each poll how many nodes of the cluster are available, and goes on
while the count is not the one it is called with.

* `pollCount_eq` — what a poll counts when all descriptions can be parsed;
* `stopsAt_iff_count` — the loop stops at the first poll with just that count;
* `wait_for_nodes_iff` — when this is the first poll with enough nodes.
-/

/-! ### The function -/

/-- What a poll sees: what `aws rds describe-db-clusters` gives, and `aws rds
    describe-db-instances` for the name of a node. -/
structure Poll where
  cluster : Reply
  describe : Bytes → Reply

/-- How `wait_for_nodes` ends: it returns, or it uses a pointer that is NULL or not set. -/
inductive WaitEnd where
  | returned (rc : ℤ)
  | fault

section

variable (jsonLoads : Bytes → Option Value)

/-- The status of the first instance that is described. -/
def dbInstanceStatus (instances : Value) : Option Bytes :=
  stringValue (objectGet (arrayGet (objectGet (some instances) (ascii "DBInstances")) 0)
    (ascii "DBInstanceStatus"))

/-- The body of `json_array_foreach`: whether a node is available. -/
def isActive : Reply → Except WaitEnd Bool
  | .noPipe => .error .fault
  | .printed text _ =>
    match jsonLoads text with
    | none => .error (.returned (-1))
    | some instances =>
      match dbInstanceStatus instances with
      -- `strcmp` is called with NULL
      | none => .error .fault
      | some status => .ok (status = ascii "available")

/-- `json_array_foreach` over the nodes, from a value of `active_nodes` on. -/
def countActive (describe : Bytes → Reply) : List Bytes → (activeNodes : ℕ) → Except WaitEnd ℕ
  | [], activeNodes => .ok activeNodes
  | node :: nodes, activeNodes =>
    match isActive jsonLoads (describe node) with
    | .error e => .error e
    | .ok active => countActive describe nodes (if active then activeNodes + 1 else activeNodes)

/-- One poll: the number of nodes that are available, unless the function is left. -/
def pollCount (poll : Poll) : Except WaitEnd ℕ :=
  match getCluster jsonLoads poll.cluster with
  | none => .error .fault
  | some cluster => countActive jsonLoads poll.describe (Cluster.getClusterNodes cluster) 0

/-- One turn of `wait_for_nodes`; the state is `active_nodes`, which is only printed. -/
def waitBody (N : ℕ) (_activeNodes : ℕ) (poll : Poll) : ℕ ⊕ WaitEnd :=
  match pollCount jsonLoads poll with
  | .error e => .inr e
  | .ok activeNodes => if activeNodes ≠ N then .inl activeNodes else .inr (.returned 0)

/-! ### What it should do -/

/-- The nodes of the cluster. -/
def Poll.nodes (poll : Poll) : List Bytes :=
  match getCluster jsonLoads poll.cluster with
  | none => []
  | some cluster => Cluster.getClusterNodes cluster

/-- The status that is described for a node. -/
def Poll.status (poll : Poll) (node : Bytes) : Option Bytes :=
  match poll.describe node with
  | .noPipe => none
  | .printed text _ => (jsonLoads text).bind dbInstanceStatus

/-- How many nodes of the cluster are available. -/
def Poll.available (poll : Poll) : ℕ :=
  (poll.nodes jsonLoads).countP fun node => poll.status jsonLoads node = some (ascii "available")

/-- A command prints JSON. -/
def Parses : Reply → Prop
  | .noPipe => False
  | .printed text _ => (jsonLoads text).isSome

/-- A poll whose descriptions can all be parsed. -/
structure ParsedPoll where
  poll : Poll
  cluster : Parses jsonLoads poll.cluster
  describe : ∀ node ∈ poll.nodes jsonLoads, Parses jsonLoads (poll.describe node)

variable {jsonLoads}

/-- The call returns 0 at the first poll that finds at least `N` nodes available, and ends in no
    other way. -/
def WaitsRight (N : ℕ) (polls : ℕ → ParsedPoll jsonLoads) : Prop :=
  ∀ n e, StopsAt (waitBody jsonLoads N) 0 (fun k => (polls k).poll) n e ↔
    IsLeast {k | N ≤ (polls k).poll.available jsonLoads} n ∧ e = .returned 0

/-- Every node has a status. -/
def ParsedPoll.Known (p : ParsedPoll jsonLoads) : Prop :=
  ∀ node ∈ p.poll.nodes jsonLoads, (p.poll.status jsonLoads node).isSome

instance (p : ParsedPoll jsonLoads) : Decidable p.Known :=
  inferInstanceAs (Decidable (∀ node ∈ _, _))

/-! ### A poll -/

/-- With a status for every node, the nodes that are available are counted. -/
theorem countActive_of_known {poll : Poll} {nodes : List Bytes}
    (h : ∀ node ∈ nodes, (poll.status jsonLoads node).isSome) (activeNodes : ℕ) :
    countActive jsonLoads poll.describe nodes activeNodes = .ok (activeNodes +
      nodes.countP fun node => poll.status jsonLoads node = some (ascii "available")) := by
  induction nodes generalizing activeNodes with
  | nil => rfl
  | cons node nodes ih =>
    obtain ⟨hnode, hnodes⟩ := List.forall_mem_cons.mp h
    obtain ⟨status, hstatus⟩ := Option.isSome_iff_exists.mp hnode
    have hactive : isActive jsonLoads (poll.describe node) = .ok (status = ascii "available") := by
      unfold Poll.status at hstatus
      unfold isActive
      split at hstatus
      · cases hstatus
      · obtain ⟨instances, hload, hinst⟩ := Option.bind_eq_some_iff.mp hstatus
        simp only [hload, hinst]
    rw [countActive, hactive]
    show countActive jsonLoads poll.describe nodes _ = _
    rw [ih hnodes, List.countP_cons, hstatus]
    by_cases heq : status = ascii "available"
    · simp [heq, Nat.add_assoc, Nat.add_comm]
    · simp [heq]

/-- A node without a status ends the function, when all descriptions can be parsed. -/
theorem countActive_of_unknown {poll : Poll} {nodes : List Bytes}
    (hparses : ∀ node ∈ nodes, Parses jsonLoads (poll.describe node))
    (h : ¬ ∀ node ∈ nodes, (poll.status jsonLoads node).isSome) (activeNodes : ℕ) :
    countActive jsonLoads poll.describe nodes activeNodes = .error .fault := by
  induction nodes generalizing activeNodes with
  | nil => exact absurd (fun _ => nofun) h
  | cons node nodes ih =>
    obtain ⟨hnode, hnodes⟩ := List.forall_mem_cons.mp hparses
    rw [countActive]
    cases hdescribe : poll.describe node with
    | noPipe =>
      rw [hdescribe] at hnode
      exact absurd hnode id
    | printed text exitStatus =>
      rw [hdescribe] at hnode
      obtain ⟨instances, hload⟩ := Option.isSome_iff_exists.mp hnode
      have hstatus : poll.status jsonLoads node = dbInstanceStatus instances := by
        simp [Poll.status, hdescribe, hload]
      cases hinst : dbInstanceStatus instances with
      | none => simp [isActive, hload, hinst]
      | some status =>
        simp only [isActive, hload, hinst]
        refine ih hnodes (fun hall => h ?_) _
        rw [List.forall_mem_cons, hstatus, hinst]
        exact ⟨rfl, hall⟩

/-- **A poll.** It counts the nodes that are available, if every node has a status. -/
theorem pollCount_eq (p : ParsedPoll jsonLoads) :
    pollCount jsonLoads p.poll =
      if p.Known then .ok (p.poll.available jsonLoads) else .error .fault := by
  have hrun : pollCount jsonLoads p.poll =
      countActive jsonLoads p.poll.describe (p.poll.nodes jsonLoads) 0 := by
    unfold pollCount Poll.nodes
    cases hcluster : getCluster jsonLoads p.poll.cluster with
    | none =>
      have hparses := p.cluster
      cases hreply : p.poll.cluster with
      | noPipe =>
        rw [hreply] at hparses
        exact absurd hparses id
      | printed text status =>
        rw [hreply] at hcluster
        cases hcluster
    | some cluster => rfl
  rw [hrun]
  split
  · rename_i hknown
    rw [countActive_of_known hknown, Nat.zero_add]
    rfl
  · rename_i hunknown
    exact countActive_of_unknown p.describe hunknown 0

/-! ### The loop -/

/-- A poll ends the loop. -/
def EndsLoop (jsonLoads : Bytes → Option Value) (N : ℕ) (_taken : List Poll) (poll : Poll) : Prop :=
  ∀ count, pollCount jsonLoads poll = .ok count → count = N

/-- How it ends it. -/
def endOf (jsonLoads : Bytes → Option Value) (_taken : List Poll) (poll : Poll) : WaitEnd :=
  match pollCount jsonLoads poll with
  | .error e => e
  | .ok _ => .returned 0

/-- **Step lemma.** The polls alone decide what each turn does. -/
theorem waitBody_decided (N : ℕ) :
    DecidedBy (waitBody jsonLoads N) (fun _ _ => True) (EndsLoop jsonLoads N)
      (endOf jsonLoads) := by
  intro taken activeNodes poll _
  unfold EndsLoop endOf waitBody
  cases hcount : pollCount jsonLoads poll with
  | error e => exact .inl ⟨nofun, rfl⟩
  | ok count =>
    by_cases heq : count = N
    · refine .inl ⟨fun _ hok => ?_, if_neg (not_not.mpr heq)⟩
      cases hok
      exact heq
    · exact .inr ⟨fun hends => heq (hends count rfl), count, if_pos heq, trivial⟩

/-- **The loop.** It stops at the first poll that counts `N`, unless a node has no status. -/
theorem stopsAt_iff_count (N : ℕ) (polls : ℕ → ParsedPoll jsonLoads) (n : ℕ) (e : WaitEnd) :
    StopsAt (waitBody jsonLoads N) 0 (fun k => (polls k).poll) n e ↔
      (∀ k < n, (polls k).Known ∧ (polls k).poll.available jsonLoads ≠ N) ∧
        if (polls n).Known then (polls n).poll.available jsonLoads = N ∧ e = .returned 0
        else e = .fault := by
  have hgoes : ∀ taken k, ¬ EndsLoop jsonLoads N taken (polls k).poll ↔
      (polls k).Known ∧ (polls k).poll.available jsonLoads ≠ N := by
    intro taken k
    rw [EndsLoop, pollCount_eq]
    by_cases hknown : (polls k).Known
    · simp [hknown]
    · simp [hknown]
  rw [stopsAt_iff_first trivial (waitBody_decided N)]
  simp only [hgoes]
  apply and_congr_right
  intro _
  rw [EndsLoop, endOf, pollCount_eq]
  by_cases hknown : (polls n).Known
  · simp [hknown]
  · simp [hknown]

/-- **Enough nodes.** The call returns at the first poll with enough nodes exactly when every node
    has a status up to there, and there are not more nodes available than it waits for. -/
theorem wait_for_nodes_iff (N : ℕ) (polls : ℕ → ParsedPoll jsonLoads) :
    WaitsRight N polls ↔
      ∀ n, (∀ k < n, (polls k).poll.available jsonLoads < N) →
        (polls n).Known ∧ (polls n).poll.available jsonLoads ≤ N := by
  unfold WaitsRight
  simp only [stopsAt_iff_count]
  constructor
  · intro h n
    induction n using Nat.strong_induction_on with
    | _ n ih =>
      intro hbefore
      have hgoes : ∀ k < n, (polls k).Known ∧ (polls k).poll.available jsonLoads ≠ N := by
        intro k hk
        have hknown := (ih k hk fun j hj => hbefore j (hj.trans hk)).1
        exact ⟨hknown, Nat.ne_of_lt (hbefore k hk)⟩
      have hknown : (polls n).Known := by
        by_contra hunknown
        -- the function would be left at once
        have hfault := (h n .fault).mp ⟨hgoes, by rw [if_neg hunknown]⟩
        cases hfault.2
      refine ⟨hknown, Nat.le_of_not_lt fun hmore => ?_⟩
      have hfirst : IsLeast {k | N ≤ (polls k).poll.available jsonLoads} n :=
        ⟨Nat.le_of_lt hmore, fun k hk => Nat.le_of_not_lt fun hkn => (hbefore k hkn).not_ge hk⟩
      have hstops := ((h n (.returned 0)).mpr ⟨hfirst, rfl⟩).2
      rw [if_pos hknown] at hstops
      exact Nat.ne_of_gt hmore hstops.1
  · intro h n e
    constructor
    · rintro ⟨hgoes, hend⟩
      have hbefore : ∀ k < n, (polls k).poll.available jsonLoads < N := by
        intro k
        induction k using Nat.strong_induction_on with
        | _ k ih =>
          intro hk
          have hle := (h k fun j hj => ih j hj (hj.trans hk)).2
          exact lt_of_le_of_ne hle (hgoes k hk).2
      rw [if_pos (h n hbefore).1] at hend
      refine ⟨⟨Nat.le_of_eq hend.1.symm, fun k hk => ?_⟩, hend.2⟩
      exact Nat.le_of_not_lt fun hkn => (hbefore k hkn).not_ge hk
    · rintro ⟨⟨henough, hfirst⟩, he⟩
      have hbefore : ∀ k < n, (polls k).poll.available jsonLoads < N :=
        fun k hk => Nat.lt_of_not_le fun hle => Nat.not_lt.mpr (hfirst hle) hk
      obtain ⟨hknown, hle⟩ := h n hbefore
      refine ⟨fun k hk => ⟨?_, Nat.ne_of_lt (hbefore k hk)⟩, ?_⟩
      · exact (h k fun j hj => hbefore j (hj.trans hk)).1
      · rw [if_pos hknown]
        exact ⟨Nat.le_antisymm hle henough, he⟩

/-- What is printed for a cluster of two nodes. -/
def twoNodesText : Bytes :=
  ascii "\x7b\"DBClusters\": [\x7b\"DBClusterMembers\": [" ++
    ascii "\x7b\"DBInstanceIdentifier\": \"node000\"\x7d, " ++
    ascii "\x7b\"DBInstanceIdentifier\": \"node001\"\x7d]\x7d]\x7d"

/-- What is printed for a node that is available. -/
def availableText : Bytes :=
  ascii "\x7b\"DBInstances\": [\x7b\"DBInstanceStatus\": \"available\"\x7d]\x7d"

/-- `json_loads` on these texts. -/
def twoNodesLoads (text : Bytes) : Option Value :=
  if text = twoNodesText then
    some (.object [(ascii "DBClusters", .array [.object [(ascii "DBClusterMembers",
      .array [.object [(ascii "DBInstanceIdentifier", .string (ascii "node000"))],
        .object [(ascii "DBInstanceIdentifier", .string (ascii "node001"))]])]])])
  else if text = availableText then
    some (.object [(ascii "DBInstances", .array [.object
      [(ascii "DBInstanceStatus", .string (ascii "available"))]])])
  else none

/-- Both nodes are available. -/
def bothAvailable : ParsedPoll twoNodesLoads where
  poll := ⟨.printed twoNodesText 0, fun _ => .printed availableText 0⟩
  cluster := rfl
  describe := fun _ _ => rfl

/-- A call that waits for one node of two does not see that both are available. -/
theorem both_available_missed : ¬ WaitsRight 1 fun _ => bothAvailable := by
  rw [wait_for_nodes_iff]
  intro h
  have hle := (h 0 fun k hk => absurd hk (Nat.not_lt_zero k)).2
  have htwo : bothAvailable.poll.available twoNodesLoads = 2 := by decide +kernel
  rw [htwo] at hle
  exact absurd hle (by decide)

end

end MaxScaleSystemTest.Rds.WaitForNodes
