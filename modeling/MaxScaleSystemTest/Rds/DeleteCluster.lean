import MaxScaleSystemTest.Lib.Traces
import MaxScaleSystemTest.Rds.Cluster
import MaxScaleSystemTest.Rds.Subnets

namespace MaxScaleSystemTest.Rds.DeleteCluster

open CString Json Cluster Runs Traces

/-!
# Deletion of a cluster

`delete_rds_cluster` asks what belongs to a cluster, deletes its nodes, waits until none is shown
any more, deletes the cluster, waits until it is not shown either, and deletes what is around it.
It looks at the status of few of its commands, and takes a description that cannot be read for one
that shows nothing.  Neither it nor `destroy_subnets_group` has a `return`; both are taken to come
back to their caller.

* `command`, `advance` — the commands, and what the program makes of a reply;
* `Allowed` — what has to stand in front of a command;
* `Place.Holds`, `holds_step` — what is known of the commands at each place;
* `delete_rds_cluster_order` — the order of the commands, whatever the replies are;
* `delete_rds_cluster_sends` — what has been sent when the function returns.
-/

/-! ### The function -/

/-- The commands, with what is printed into them; each is taken to fit `cmd[1024]`. -/
inductive Command where
  | describeDbClusters
  | describeDbSubnetGroups (name : Bytes)
  | deleteDbInstance (name : Bytes)
  | deleteDbCluster
  | deleteSubnet (id : Bytes)
  | deleteDbSubnetGroup (name : Bytes)
  | describeInternetGateways (vpc : Bytes)
  | detachInternetGateway (id vpc : Bytes)
  | deleteInternetGateway (id : Bytes)
  | deleteVpc (vpc : Bytes)
  deriving DecidableEq

/-- The fields of `RDS` that are used.  `vpc_id_intern` is `none` when nothing has set it, and
    `some none` when it is NULL. -/
structure RDS where
  clusterNameIntern : Bytes
  clusterIntern : Option Value
  vpcIdIntern : Option (Option Bytes)
  subnetsIntern : List Value

/-- A new object. -/
def RDS.new (cluster : Bytes) : RDS := ⟨cluster, none, none, []⟩

/-- Where the function is, with what is left of the list that it goes through.  In `pollCluster` it
    has the text of the last description; `fault` is the use of a pointer that has not been set. -/
inductive Place where
  | getCluster
  | getSubnets (nodes : List Bytes)
  | destroyNode (name : Bytes) (nodes : List Bytes)
  | pollNodes
  | destroyCluster
  | pollCluster (result : Option Bytes)
  | destroySubnet (id : Bytes) (ids : List Bytes)
  | destroySubnetsGroup
  | describeGateways
  | detachGateway (id : Bytes) (ids : List Bytes)
  | deleteGateway (id : Bytes) (ids : List Bytes)
  | destroyVpc
  | returned
  | fault
  deriving DecidableEq

/-- The first turn of the loop of `destroy_nodes`, if there is one. -/
def destroyNodes : List Bytes → Place
  | [] => .pollNodes
  | name :: nodes => .destroyNode name nodes

/-- The loop of `destroy_subnets`, with the deletes that are left. -/
def destroySubnets : List Bytes → Place
  | [] => .destroySubnetsGroup
  | id :: ids => .destroySubnet id ids

/-- The loop of `detach_and_destroy_gw`. -/
def destroyGateways : List Bytes → Place
  | [] => .destroyVpc
  | id :: ids => .detachGateway id ids

/-- What `%s` prints; NULL is printed as `(null)`. -/
def printed (text : Option Bytes) : Bytes := text.getD (ascii "(null)")

namespace RDS

variable (rds : RDS)

/-- `get_subnetgroup_name`. -/
def getSubnetgroupName : Option Bytes :=
  match rds.clusterIntern with
  | some cluster => stringValue (objectGet (some cluster) (ascii "DBSubnetGroup"))
  | none => some rds.clusterNameIntern

/-- `vpc_id_intern`, where it has been set. -/
def vpcId : Bytes := printed (rds.vpcIdIntern.getD none)

/-- The deletes of `destroy_subnets`: each subnet is deleted twice. -/
def subnetDeletes : List Bytes :=
  (rds.subnetsIntern.map Subnets.subnetId).flatMap fun id => [id, id]

end RDS

/-- The command at a place. -/
def command (rds : RDS) : Place → Option Command
  | .getCluster => some .describeDbClusters
  | .getSubnets _ => some (.describeDbSubnetGroups (printed rds.getSubnetgroupName))
  | .destroyNode name _ => some (.deleteDbInstance name)
  | .pollNodes => some .describeDbClusters
  | .destroyCluster => some .deleteDbCluster
  | .pollCluster _ => some .describeDbClusters
  | .destroySubnet id _ => some (.deleteSubnet id)
  | .destroySubnetsGroup => some (.deleteDbSubnetGroup (printed rds.getSubnetgroupName))
  | .describeGateways => some (.describeInternetGateways rds.vpcId)
  | .detachGateway id _ => some (.detachInternetGateway id rds.vpcId)
  | .deleteGateway id _ => some (.deleteInternetGateway id)
  | .destroyVpc => some (.deleteVpc rds.vpcId)
  | .returned => none
  | .fault => none

section

variable (jsonLoads : Bytes → Option Value)

/-- `get_subnets_group_descr`. -/
def getSubnetsGroupDescr (json : Bytes) : Option Value :=
  match jsonLoads json with
  | none => none
  | some root => arrayGet (objectGet (some root) (ascii "DBSubnetGroups")) 0

/-- `get_subnets`, when its command has succeeded; `json_array_append` takes no NULL. -/
def getSubnets (rds : RDS) (text : Bytes) : RDS :=
  let subnetsGroup := getSubnetsGroupDescr jsonLoads text
  { rds with
    vpcIdIntern := some (stringValue (objectGet subnetsGroup (ascii "VpcId")))
    subnetsIntern := (elements (objectGet subnetsGroup (ascii "Subnets"))).filterMap
      fun member => objectGet (some member) (ascii "SubnetIdentifier") }

/-- The identifiers that `detach_and_destroy_gw` goes through, if the reply has a list of
    gateways. -/
def gateways : Reply → Option (List Bytes)
  | .printed text 0 => do
    let root ← jsonLoads text
    let gws ← objectGet (some root) (ascii "InternetGateways")
    return (elements (some gws)).map fun gw =>
      printed (stringValue (objectGet (some gw) (ascii "InternetGatewayId")))
  | _ => none

/-- What the program makes of the reply to the command. -/
def advance (rds : RDS) (place : Place) (reply : Reply) : RDS × Place :=
  match place with
  | .getCluster =>
    match reply with
    | .noPipe => (rds, .fault)
    | .printed text _ =>
      let cluster := getClusterDescr jsonLoads text
      ({ rds with clusterIntern := cluster }, .getSubnets (Cluster.getClusterNodes cluster))
  | .getSubnets nodes =>
    match reply with
    | .printed text 0 => (getSubnets jsonLoads rds text, destroyNodes nodes)
    -- `vpc_id_intern` is printed
    | _ => (rds, if rds.vpcIdIntern.isNone then .fault else destroyNodes nodes)
  | .destroyNode _ nodes => (rds, destroyNodes nodes)
  | .pollNodes =>
    match getCluster jsonLoads reply with
    | none => (rds, .fault)
    | some cluster =>
      (rds, if Cluster.getClusterNodes cluster = [] then .destroyCluster else .pollNodes)
  | .destroyCluster => (rds, .pollCluster none)
  | .pollCluster result =>
    -- without a pipe `result` keeps its text
    let result := match reply with
      | .noPipe => result
      | .printed text _ => some text
    match result with
    | none => (rds, .fault)
    | some text =>
      (rds, if (getClusterDescr jsonLoads text).isSome then .pollCluster (some text)
        else destroySubnets rds.subnetDeletes)
  | .destroySubnet _ ids => (rds, destroySubnets ids)
  | .destroySubnetsGroup => (rds, .describeGateways)
  | .describeGateways =>
    match gateways jsonLoads reply with
    | none => (rds, .destroyVpc)
    | some ids => (rds, destroyGateways ids)
  | .detachGateway id ids =>
    (rds, if reply.status ≠ 0 then .destroyVpc else .deleteGateway id ids)
  | .deleteGateway _ ids => (rds, if reply.status ≠ 0 then .destroyVpc else destroyGateways ids)
  | .destroyVpc => (rds, .returned)
  | .returned => (rds, .returned)
  | .fault => (rds, .fault)

/-- The object, the place, and the commands that have been sent with the replies to them. -/
structure State where
  rds : RDS
  place : Place
  sent : List (Command × Reply)

/-- The next command gets its reply. -/
def step (s : State) (reply : Reply) : State :=
  match command s.rds s.place with
  | none => s
  | some c =>
    let (rds, place) := advance jsonLoads s.rds s.place reply
    ⟨rds, place, s.sent ++ [(c, reply)]⟩

/-- The call of `delete_rds_cluster`. -/
def start (rds : RDS) : State := ⟨rds, .getCluster, []⟩

/-! ### The order of the commands -/

/-- The commands and the replies to them. -/
abbrev Transcript := List (Command × Reply)

/-- A command has been sent. -/
def Sends (sent : Transcript) (c : Command) : Prop := c ∈ sent.map Prod.fst

/-- The members of the cluster that a reply shows. -/
def shownMembers : Reply → List Bytes
  | .noPipe => []
  | .printed text _ => Cluster.getClusterNodes (getClusterDescr jsonLoads text)

/-- A reply shows no cluster: there is none in it, or it cannot be read. -/
def ShowsNone : Reply → Prop
  | .noPipe => False
  | .printed text _ => getClusterDescr jsonLoads text = none

/-- The members that the first reply has shown. -/
def firstMembers (sent : Transcript) : List Bytes :=
  (sent.head?.map fun e => shownMembers jsonLoads e.2).getD []

/-- The deletion of the cluster has been sent, and a description behind it has shown none. -/
def Gone (sent : Transcript) : Prop :=
  ∃ before rc between r after,
    sent = before ++ (.deleteDbCluster, rc) :: (between ++ (.describeDbClusters, r) :: after) ∧
      ShowsNone jsonLoads r

/-- The last reply is a description, and has shown no member. -/
def NoMembers (sent : Transcript) : Prop :=
  ∃ before r, sent = before ++ [(.describeDbClusters, r)] ∧ shownMembers jsonLoads r = []

/-- A description of the gateways of a VPC has shown one. -/
def ShowsGateway (sent : Transcript) (vpc id : Bytes) : Prop :=
  ∃ r ids, (.describeInternetGateways vpc, r) ∈ sent ∧ gateways jsonLoads r = some ids ∧ id ∈ ids

/-- A gateway has been detached. -/
def Detached (sent : Transcript) (id : Bytes) : Prop :=
  ∃ vpc r, (.detachInternetGateway id vpc, r) ∈ sent ∧ r.status = 0

/-- What has to stand in front of a command.  Nothing follows the deletion of the VPC. -/
def Allowed (sent : Transcript) (e : Command × Reply) : Prop :=
  (∀ vpc, ¬ Sends sent (.deleteVpc vpc)) ∧
    match e.1 with
    | .describeDbClusters | .describeDbSubnetGroups _ => True
    | .deleteDbInstance name => name ∈ firstMembers jsonLoads sent ∧ ¬ Sends sent .deleteDbCluster
    | .deleteDbCluster =>
      (∀ name ∈ firstMembers jsonLoads sent, Sends sent (.deleteDbInstance name)) ∧
        NoMembers jsonLoads sent ∧ ¬ Sends sent .deleteDbCluster
    | .detachInternetGateway id vpc => Gone jsonLoads sent ∧ ShowsGateway jsonLoads sent vpc id
    | .deleteInternetGateway id => Gone jsonLoads sent ∧ Detached sent id
    | .deleteSubnet _ | .deleteDbSubnetGroup _ | .describeInternetGateways _ | .deleteVpc _ =>
      Gone jsonLoads sent

/-! ### What is known at a place -/

/-- The deletions of the members have been sent, but for some that are left. -/
structure Destroying (nodes : List Bytes) (sent : Transcript) : Prop where
  nonempty : sent ≠ []
  members : ∀ name ∈ nodes, name ∈ firstMembers jsonLoads sent
  deleted : ∀ name ∈ firstMembers jsonLoads sent,
    name ∈ nodes ∨ Sends sent (.deleteDbInstance name)
  cluster : ¬ Sends sent .deleteDbCluster

/-- The deletion of the cluster has been sent, after those of the members. -/
structure Deleting (sent : Transcript) : Prop where
  nonempty : sent ≠ []
  deleted : ∀ name ∈ firstMembers jsonLoads sent, Sends sent (.deleteDbInstance name)
  cluster : Sends sent .deleteDbCluster

/-- The cluster is gone, and the deletions of the subnets have been sent, but for some that are
    left. -/
structure Clearing (rds : RDS) (ids : List Bytes) (sent : Transcript) : Prop
    extends Deleting jsonLoads sent where
  gone : Gone jsonLoads sent
  subnets : ∀ id ∈ rds.subnetDeletes, id ∈ ids ∨ Sends sent (.deleteSubnet id)

/-- The deletion of the subnet group has been sent as well. -/
structure Cleared (rds : RDS) (sent : Transcript) : Prop
    extends Clearing jsonLoads rds [] sent where
  group : Sends sent (.deleteDbSubnetGroup (printed rds.getSubnetgroupName))

/-- What is known of the commands at a place. -/
def Place.Holds (rds : RDS) (sent : Transcript) : Place → Prop
  | .getCluster => sent = []
  | .getSubnets nodes => ∃ r, sent = [(.describeDbClusters, r)] ∧ shownMembers jsonLoads r = nodes
  | .destroyNode name nodes => Destroying jsonLoads (name :: nodes) sent
  | .pollNodes => Destroying jsonLoads [] sent
  | .destroyCluster => Destroying jsonLoads [] sent ∧ NoMembers jsonLoads sent
  | .pollCluster result =>
    Deleting jsonLoads sent ∧ ∀ text ∈ result, (getClusterDescr jsonLoads text).isSome
  | .destroySubnet id ids => Clearing jsonLoads rds (id :: ids) sent
  | .destroySubnetsGroup => Clearing jsonLoads rds [] sent
  | .describeGateways => Cleared jsonLoads rds sent
  | .detachGateway id ids =>
    Cleared jsonLoads rds sent ∧ ∀ gw ∈ id :: ids, ShowsGateway jsonLoads sent rds.vpcId gw
  | .deleteGateway id ids =>
    Cleared jsonLoads rds sent ∧ (∀ gw ∈ ids, ShowsGateway jsonLoads sent rds.vpcId gw) ∧
      Detached sent id
  | .destroyVpc => Cleared jsonLoads rds sent
  | .returned => Cleared jsonLoads rds sent ∧
    ∃ before r, sent = before ++ [(.deleteVpc rds.vpcId, r)]
  | .fault => True

variable {jsonLoads}

/-! ### One more command -/

theorem Sends.concat {sent : Transcript} {c : Command} (h : Sends sent c) (e : Command × Reply) :
    Sends (sent ++ [e]) c := by
  rw [Sends, List.map_append]
  exact List.mem_append_left _ h

theorem sends_last (sent : Transcript) (e : Command × Reply) : Sends (sent ++ [e]) e.1 := by
  rw [Sends, List.map_append]
  exact List.mem_append_right _ (List.mem_singleton.mpr rfl)

/-- Another command does not send this one. -/
theorem not_sends_concat {sent : Transcript} {c : Command} (h : ¬ Sends sent c)
    {e : Command × Reply} (hne : e.1 ≠ c) : ¬ Sends (sent ++ [e]) c := by
  rw [Sends, List.map_append, List.mem_append, not_or]
  exact ⟨h, fun hlast => hne (List.mem_singleton.mp hlast).symm⟩

theorem firstMembers_concat {sent : Transcript} (h : sent ≠ []) (e : Command × Reply) :
    firstMembers jsonLoads (sent ++ [e]) = firstMembers jsonLoads sent := by
  cases sent with
  | nil => exact absurd rfl h
  | cons first sent => rfl

theorem Gone.concat {sent : Transcript} (h : Gone jsonLoads sent) (e : Command × Reply) :
    Gone jsonLoads (sent ++ [e]) := by
  obtain ⟨before, rc, between, r, after, rfl, hnone⟩ := h
  exact ⟨before, rc, between, r, after ++ [e], by simp, hnone⟩

theorem ShowsGateway.concat {sent : Transcript} {vpc id : Bytes}
    (h : ShowsGateway jsonLoads sent vpc id) (e : Command × Reply) :
    ShowsGateway jsonLoads (sent ++ [e]) vpc id := by
  obtain ⟨r, ids, hsent, hids, hid⟩ := h
  exact ⟨r, ids, List.mem_append_left _ hsent, hids, hid⟩

/-- A description that shows no cluster, behind the deletion of the cluster. -/
theorem gone_of_showsNone {sent : Transcript} (h : Sends sent .deleteDbCluster) {r : Reply}
    (hr : ShowsNone jsonLoads r) : Gone jsonLoads (sent ++ [(.describeDbClusters, r)]) := by
  obtain ⟨⟨c, rc⟩, hmem, rfl⟩ := List.mem_map.mp h
  obtain ⟨before, between, rfl⟩ := List.append_of_mem hmem
  exact ⟨before, rc, between, r, [], by simp, hr⟩

/-- A command that leaves the cluster alone, sent while the members are deleted: either it deletes
    the next member, or none is next. -/
theorem Destroying.concat {nodes left : List Bytes} {sent : Transcript}
    (h : Destroying jsonLoads nodes sent) {e : Command × Reply} (hne : e.1 ≠ .deleteDbCluster)
    (hsub : ∀ name ∈ left, name ∈ nodes)
    (hnext : ∀ name ∈ nodes, name ∈ left ∨ e.1 = .deleteDbInstance name) :
    Destroying jsonLoads left (sent ++ [e]) where
  nonempty := List.concat_ne_nil e sent
  members := by
    intro name hname
    rw [firstMembers_concat h.nonempty]
    exact h.members name (hsub name hname)
  deleted := by
    intro name hname
    rw [firstMembers_concat h.nonempty] at hname
    rcases h.deleted name hname with hleft | hsent
    · rcases hnext name hleft with hstill | hcommand
      · exact .inl hstill
      · exact .inr (hcommand ▸ sends_last sent e)
    · exact .inr (hsent.concat e)
  cluster := not_sends_concat h.cluster hne

theorem Deleting.concat {sent : Transcript} (h : Deleting jsonLoads sent) (e : Command × Reply) :
    Deleting jsonLoads (sent ++ [e]) where
  nonempty := List.concat_ne_nil e sent
  deleted := by
    rw [firstMembers_concat h.nonempty]
    exact fun name hname => (h.deleted name hname).concat e
  cluster := h.cluster.concat e

/-- A command while the subnets are deleted: either it deletes the next one, or none is next. -/
theorem Clearing.concat {rds : RDS} {ids left : List Bytes} {sent : Transcript}
    (h : Clearing jsonLoads rds ids sent) {e : Command × Reply}
    (hnext : ∀ id ∈ ids, id ∈ left ∨ e.1 = .deleteSubnet id) :
    Clearing jsonLoads rds left (sent ++ [e]) where
  toDeleting := h.toDeleting.concat e
  gone := h.gone.concat e
  subnets := by
    intro id hid
    rcases h.subnets id hid with hleft | hsent
    · rcases hnext id hleft with hstill | hcommand
      · exact .inl hstill
      · exact .inr (hcommand ▸ sends_last sent e)
    · exact .inr (hsent.concat e)

theorem Cleared.concat {rds : RDS} {sent : Transcript} (h : Cleared jsonLoads rds sent)
    (e : Command × Reply) : Cleared jsonLoads rds (sent ++ [e]) where
  toClearing := h.toClearing.concat fun _ => nofun
  group := h.group.concat e

/-! ### The steps -/

theorem holds_destroyNodes {rds : RDS} {sent : Transcript} {nodes : List Bytes}
    (h : Destroying jsonLoads nodes sent) : (destroyNodes nodes).Holds jsonLoads rds sent := by
  cases nodes with
  | nil => exact h
  | cons name nodes => exact h

theorem holds_destroySubnets {rds : RDS} {sent : Transcript} {ids : List Bytes}
    (h : Clearing jsonLoads rds ids sent) : (destroySubnets ids).Holds jsonLoads rds sent := by
  cases ids with
  | nil => exact h
  | cons id ids => exact h

theorem holds_destroyGateways {rds : RDS} {sent : Transcript} {ids : List Bytes}
    (h : Cleared jsonLoads rds sent) (hids : ∀ gw ∈ ids, ShowsGateway jsonLoads sent rds.vpcId gw) :
    (destroyGateways ids).Holds jsonLoads rds sent := by
  cases ids with
  | nil => exact h
  | cons id ids => exact ⟨h, hids⟩

/-- What is known at a place is known at the next one. -/
def Advances (jsonLoads : Bytes → Option Value) (rds : RDS) (place : Place) : Prop :=
  ∀ c, command rds place = some c → ∀ sent, place.Holds jsonLoads rds sent → ∀ reply,
    (advance jsonLoads rds place reply).2.Holds jsonLoads (advance jsonLoads rds place reply).1
      (sent ++ [(c, reply)])

theorem advances_getCluster (rds : RDS) : Advances jsonLoads rds .getCluster := by
  rintro _ ⟨⟩ _ rfl reply
  cases reply with
  | noPipe => exact trivial
  | printed text status => exact ⟨.printed text status, rfl, rfl⟩

theorem advances_getSubnets (rds : RDS) (nodes : List Bytes) :
    Advances jsonLoads rds (.getSubnets nodes) := by
  rintro _ ⟨⟩ _ ⟨r, rfl, rfl⟩ reply
  have hdestroying : Destroying jsonLoads (shownMembers jsonLoads r)
      ([(.describeDbClusters, r)] ++
        [(.describeDbSubnetGroups (printed rds.getSubnetgroupName), reply)]) :=
    ⟨List.cons_ne_nil _ _, fun _ => id, fun _ => .inl, by simp [Sends]⟩
  simp only [advance]
  split
  · exact holds_destroyNodes hdestroying
  · split
    · exact trivial
    · exact holds_destroyNodes hdestroying

theorem advances_destroyNode (rds : RDS) (name : Bytes) (nodes : List Bytes) :
    Advances jsonLoads rds (.destroyNode name nodes) := by
  rintro _ ⟨⟩ sent h reply
  apply holds_destroyNodes
  refine h.concat nofun (fun _ => List.mem_cons_of_mem _) fun node hnode => ?_
  rcases List.mem_cons.mp hnode with rfl | hstill
  · exact .inr rfl
  · exact .inl hstill

theorem advances_pollNodes (rds : RDS) : Advances jsonLoads rds .pollNodes := by
  rintro _ ⟨⟩ sent h reply
  have hdestroying : Destroying jsonLoads [] (sent ++ [(.describeDbClusters, reply)]) :=
    h.concat nofun (fun _ => id) fun _ => nofun
  cases reply with
  | noPipe => exact trivial
  | printed text status =>
    simp only [advance, getCluster]
    split
    · rename_i hnone
      exact ⟨hdestroying, sent, _, rfl, hnone⟩
    · exact hdestroying

theorem advances_destroyCluster (rds : RDS) : Advances jsonLoads rds .destroyCluster := by
  rintro _ ⟨⟩ sent ⟨h, -⟩ reply
  refine ⟨⟨List.concat_ne_nil _ sent, ?_, sends_last sent _⟩, fun _ => nofun⟩
  rw [firstMembers_concat h.nonempty]
  intro name hname
  rcases h.deleted name hname with hleft | hsent
  · cases hleft
  · exact hsent.concat _

theorem advances_pollCluster (rds : RDS) (result : Option Bytes) :
    Advances jsonLoads rds (.pollCluster result) := by
  rintro _ ⟨⟩ sent ⟨h, hshown⟩ reply
  have hdeleting := h.concat (.describeDbClusters, reply)
  cases reply with
  | noPipe =>
    cases result with
    | none => exact trivial
    | some text =>
      -- the text of the last description is looked at again
      have hsome := hshown text rfl
      simp only [advance, hsome, if_true]
      exact ⟨hdeleting, hshown⟩
  | printed text status =>
    simp only [advance]
    split
    · rename_i hsome
      exact ⟨hdeleting, fun t ht => Option.some.inj ht ▸ hsome⟩
    · rename_i hnone
      apply holds_destroySubnets
      exact ⟨hdeleting, gone_of_showsNone h.cluster (Option.not_isSome_iff_eq_none.mp hnone),
        fun _ => .inl⟩

theorem advances_destroySubnet (rds : RDS) (id : Bytes) (ids : List Bytes) :
    Advances jsonLoads rds (.destroySubnet id ids) := by
  rintro _ ⟨⟩ sent h reply
  apply holds_destroySubnets
  refine h.concat fun subnet hsubnet => ?_
  rcases List.mem_cons.mp hsubnet with rfl | hstill
  · exact .inr rfl
  · exact .inl hstill

theorem advances_describeGateways (rds : RDS) : Advances jsonLoads rds .describeGateways := by
  rintro _ ⟨⟩ sent h reply
  have hcleared := h.concat (.describeInternetGateways rds.vpcId, reply)
  simp only [advance]
  split
  · exact hcleared
  · rename_i ids hids
    apply holds_destroyGateways hcleared
    intro gw hgw
    exact ⟨reply, ids, List.mem_append_right _ (List.mem_singleton.mpr rfl), hids, hgw⟩

theorem advances_detachGateway (rds : RDS) (id : Bytes) (ids : List Bytes) :
    Advances jsonLoads rds (.detachGateway id ids) := by
  rintro _ ⟨⟩ sent ⟨h, hids⟩ reply
  simp only [advance]
  split
  · exact h.concat _
  · rename_i hstatus
    refine ⟨h.concat _, fun gw hgw => (hids gw (List.mem_cons_of_mem _ hgw)).concat _, ?_⟩
    exact ⟨rds.vpcId, reply, List.mem_append_right _ (List.mem_singleton.mpr rfl),
      not_not.mp hstatus⟩

theorem advances_deleteGateway (rds : RDS) (id : Bytes) (ids : List Bytes) :
    Advances jsonLoads rds (.deleteGateway id ids) := by
  rintro _ ⟨⟩ sent ⟨h, hids, -⟩ reply
  simp only [advance]
  split
  · exact h.concat _
  · exact holds_destroyGateways (h.concat _) fun gw hgw => (hids gw hgw).concat _

/-- **Step lemma.** -/
theorem advances (rds : RDS) (place : Place) : Advances jsonLoads rds place := by
  cases place with
  | getCluster => exact advances_getCluster rds
  | getSubnets nodes => exact advances_getSubnets rds nodes
  | destroyNode name nodes => exact advances_destroyNode rds name nodes
  | pollNodes => exact advances_pollNodes rds
  | destroyCluster => exact advances_destroyCluster rds
  | pollCluster result => exact advances_pollCluster rds result
  | destroySubnet id ids => exact advances_destroySubnet rds id ids
  | destroySubnetsGroup =>
    rintro _ ⟨⟩ sent h reply
    exact ⟨h.concat fun _ => nofun, sends_last sent _⟩
  | describeGateways => exact advances_describeGateways rds
  | detachGateway id ids => exact advances_detachGateway rds id ids
  | deleteGateway id ids => exact advances_deleteGateway rds id ids
  | destroyVpc =>
    rintro _ ⟨⟩ sent h reply
    exact ⟨h.concat _, sent, reply, rfl⟩
  | returned => rintro _ ⟨⟩
  | fault => rintro _ ⟨⟩

/-- What is known of the commands, of which none but the last one has deleted the VPC. -/
def Inv (jsonLoads : Bytes → Option Value) (s : State) : Prop :=
  s.place.Holds jsonLoads s.rds s.sent ∧
    (s.place ≠ .returned → ∀ vpc, ¬ Sends s.sent (.deleteVpc vpc))

/-- The function returns behind the deletion of the VPC. -/
theorem advance_of_deleteVpc {rds : RDS} {place : Place} {vpc : Bytes}
    (h : command rds place = some (.deleteVpc vpc)) (reply : Reply) :
    (advance jsonLoads rds place reply).2 = .returned := by
  cases place with
  | destroyVpc => rfl
  | _ => cases h

theorem inv_step (s : State) (reply : Reply) (h : Inv jsonLoads s) :
    Inv jsonLoads (step jsonLoads s reply) := by
  obtain ⟨hplace, hopen⟩ := h
  unfold step
  split
  · exact ⟨hplace, hopen⟩
  · rename_i c hc
    have hhere : s.place ≠ .returned := by
      intro heq
      rw [heq] at hc
      cases hc
    refine ⟨advances s.rds s.place c hc s.sent hplace reply, fun hnot vpc => ?_⟩
    refine not_sends_concat (hopen hhere vpc) fun hvpc => hnot ?_
    exact advance_of_deleteVpc (hc.trans (congrArg some hvpc)) reply

/-- What is known at a place allows the command there. -/
theorem allowed_of_holds {rds : RDS} {place : Place} {c : Command} (hc : command rds place = some c)
    {sent : Transcript} (h : place.Holds jsonLoads rds sent)
    (hopen : ∀ vpc, ¬ Sends sent (.deleteVpc vpc)) (reply : Reply) :
    Allowed jsonLoads sent (c, reply) := by
  refine ⟨hopen, ?_⟩
  cases place with
  | getCluster | getSubnets | pollNodes | pollCluster =>
    cases hc
    trivial
  | destroyNode name nodes =>
    cases hc
    exact ⟨h.members name (List.mem_cons_self ..), h.cluster⟩
  | destroyCluster =>
    cases hc
    refine ⟨fun name hname => ?_, h.2, h.1.cluster⟩
    exact (h.1.deleted name hname).resolve_left (List.not_mem_nil)
  | destroySubnet | destroySubnetsGroup | describeGateways | destroyVpc =>
    cases hc
    exact h.gone
  | detachGateway id ids =>
    cases hc
    exact ⟨h.1.gone, h.2 id (List.mem_cons_self ..)⟩
  | deleteGateway id ids =>
    cases hc
    exact ⟨h.1.gone, h.2.2⟩
  | returned => cases hc
  | fault => cases hc

theorem inv_start (rds : RDS) : Inv jsonLoads (start rds) :=
  ⟨rfl, fun _ _ => nofun⟩

end

/-! ### The runs -/

/-- **The order of the commands.** -/
theorem delete_rds_cluster_order (jsonLoads : Bytes → Option Value) (rds : RDS)
    (replies : List Reply) :
    Guarded (Allowed jsonLoads) (run (step jsonLoads) (start rds) replies).sent := by
  refine guarded_run inv_step (fun s reply h => ?_) (inv_start rds) (guarded_nil _) replies
  unfold step
  split
  · exact .inl rfl
  · rename_i c hc
    refine .inr ⟨(c, reply), rfl, allowed_of_holds hc h.1 (h.2 fun heq => ?_) reply⟩
    rw [heq] at hc
    cases hc

/-- **What has been sent at the return.** -/
theorem delete_rds_cluster_sends (jsonLoads : Bytes → Option Value) (rds : RDS)
    (replies : List Reply)
    (h : (run (step jsonLoads) (start rds) replies).place = .returned) :
    let s := run (step jsonLoads) (start rds) replies
    (∀ name ∈ firstMembers jsonLoads s.sent, Sends s.sent (.deleteDbInstance name)) ∧
      Sends s.sent .deleteDbCluster ∧
      (∀ subnet ∈ s.rds.subnetsIntern, Sends s.sent (.deleteSubnet (Subnets.subnetId subnet))) ∧
      Sends s.sent (.deleteDbSubnetGroup (printed s.rds.getSubnetgroupName)) ∧
      ∃ before r, s.sent = before ++ [(.deleteVpc s.rds.vpcId, r)] := by
  intro s
  have hinv : Inv jsonLoads s := run_invariant inv_step (inv_start rds) replies
  have hholds := hinv.1
  rw [h] at hholds
  obtain ⟨hcleared, hlast⟩ := hholds
  refine ⟨hcleared.deleted, hcleared.cluster, fun subnet hsubnet => ?_, hcleared.group, hlast⟩
  have hdeletes : Subnets.subnetId subnet ∈ s.rds.subnetDeletes :=
    List.mem_flatMap.mpr ⟨_, List.mem_map_of_mem hsubnet, List.mem_cons_self ..⟩
  exact (hcleared.subnets _ hdeletes).resolve_left List.not_mem_nil

/-- What is printed for a cluster of one node. -/
def oneNodeText : Bytes :=
  ascii "\x7b\"DBClusters\": [\x7b\"DBSubnetGroup\": \"aurora\", \"DBClusterMembers\": [" ++
    ascii "\x7b\"DBInstanceIdentifier\": \"node000\"\x7d]\x7d]\x7d"

/-- What is printed for its subnet group. -/
def subnetGroupText : Bytes :=
  ascii "\x7b\"DBSubnetGroups\": [\x7b\"VpcId\": \"vpc-1\", \"Subnets\": [" ++
    ascii "\x7b\"SubnetIdentifier\": \"subnet-1\"\x7d]\x7d]\x7d"

/-- What is printed for the gateway of its VPC. -/
def gatewayText : Bytes :=
  ascii "\x7b\"InternetGateways\": [\x7b\"InternetGatewayId\": \"igw-1\"\x7d]\x7d"

/-- `json_loads` on these texts. -/
def oneNodeLoads (text : Bytes) : Option Value :=
  if text = oneNodeText then
    some (.object [(ascii "DBClusters", .array [.object
      [(ascii "DBSubnetGroup", .string (ascii "aurora")), (ascii "DBClusterMembers", .array
        [.object [(ascii "DBInstanceIdentifier", .string (ascii "node000"))]])]])])
  else if text = subnetGroupText then
    some (.object [(ascii "DBSubnetGroups", .array [.object
      [(ascii "VpcId", .string (ascii "vpc-1")), (ascii "Subnets", .array
        [.object [(ascii "SubnetIdentifier", .string (ascii "subnet-1"))]])]])])
  else if text = gatewayText then
    some (.object [(ascii "InternetGateways", .array [.object
      [(ascii "InternetGatewayId", .string (ascii "igw-1"))]])])
  else none

/-- Nothing is printed for a cluster that is gone, and the second delete of the subnet fails. -/
def oneNodeReplies : List Reply :=
  [.printed oneNodeText 0, .printed subnetGroupText 0, .printed [] 0, .printed [] 254,
    .printed [] 0, .printed [] 254, .printed [] 0, .printed [] 254, .printed [] 0,
    .printed gatewayText 0, .printed [] 0, .printed [] 0, .printed [] 0]

/-- The deletion of that cluster. -/
def oneNodeDeleted : State :=
  run (step oneNodeLoads) (start (RDS.new (ascii "aurora"))) oneNodeReplies

/-- It sends the deletion of the node, and that of the VPC in the end. -/
theorem one_node_deleted : Sends oneNodeDeleted.sent (.deleteDbInstance (ascii "node000")) ∧
    ∃ before r, oneNodeDeleted.sent = before ++ [(.deleteVpc (ascii "vpc-1"), r)] := by
  have hreturned : oneNodeDeleted.place = .returned := by decide +kernel
  obtain ⟨hmembers, -, -, -, hlast⟩ := delete_rds_cluster_sends oneNodeLoads
    (RDS.new (ascii "aurora")) oneNodeReplies hreturned
  have hmember : ascii "node000" ∈ firstMembers oneNodeLoads oneNodeDeleted.sent := by
    decide +kernel
  have hvpc : oneNodeDeleted.rds.vpcId = ascii "vpc-1" := by decide +kernel
  exact ⟨hmembers _ hmember, hvpc ▸ hlast⟩

end MaxScaleSystemTest.Rds.DeleteCluster
