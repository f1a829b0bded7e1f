import MaxScaleSystemTest.Rds.CreateDb

namespace MaxScaleSystemTest.Rds

open Estate

/-!
# What a failed creation leaves behind

The deletions find the subnets and the group by names that the program knows, and a gateway
by its attachment to the VPC.

* `Prepared` — what exists while the creation goes on, told from the things that a deletion
  of VPC and subnets does not cover;
* `left_iff` — what is left after a failure behind the VPC step;
* `rollsBack_iff` — when nothing is left.
-/

variable (env : Environment)

/-- The world when a call begins. -/
def World.begin (rds : RDS) (existing : Finset Resource) (attached : String → List String) :
    World :=
  ⟨rds, ⟨existing, []⟩, attached⟩

/-- When the call returns an error, nothing that it has created is left. -/
def RollsBack (w : World) (N : Int32) : Prop :=
  (createRdsDb env w N).1 ≠ 0 → ∀ x, ¬ (createRdsDb env w N).2.estate.Left x

/-! ### The failures -/

/-- A gateway is created and attached. -/
def GatewayDone : Prop :=
  (∃ id, env.answer .createInternetGateway = .done id) ∧ (env.answer .attachInternetGateway).ok

/-- A gateway is created, but its identifier is not read, or it is not attached. -/
def GatewayLost : Prop :=
  env.answer .createInternetGateway = .unreadable ∨
    (∃ id, env.answer .createInternetGateway = .done id) ∧ ¬ (env.answer .attachInternetGateway).ok

/-- The VPC has a route table, and each of its tables gets the route. -/
def RoutesDone (vpc : String) : Prop :=
  ∃ tables, env.routeTables = some tables ∧ (∃ table ∈ tables, table.2 = vpc) ∧
    ∀ table ∈ tables, table.2 = vpc → (env.answer (.createRoute table.1)).ok

/-- Every command whose failure counts does its work, from the subnet group on. -/
def LaterDone (vpc : String) : Prop :=
  (env.answer .createDbSubnetGroup).ok ∧ GatewayDone env ∧ RoutesDone env vpc ∧
    ∃ id, env.answer .createDbCluster = .done id

/-- `cluster_intern` is NULL, or describes a cluster with the subnet group of this one. -/
def RDS.NamesGroup (rds : RDS) : Prop :=
  ∀ cluster, rds.clusterIntern = some cluster →
    cluster.dbSubnetGroup.getD "(null)" = rds.clusterNameIntern

/-- The program reads the identifier of what it creates, as far as it must delete it later,
    and the deletions can find the group and the gateway. -/
def Good (rds : RDS) : Prop :=
  env.answer .createVpc ≠ .unreadable ∧
    ∀ vpc, env.answer .createVpc = .done vpc →
      (env.answer .enableDnsSupport).ok → (env.answer .enableDnsHostnames).ok →
      ¬ LaterDone env vpc →
        env.answer (.createSubnet "eu-west-1b" "172.30.0.0/24") ≠ .unreadable ∧
        env.answer (.createSubnet "eu-west-1a" "172.30.1.0/24") ≠ .unreadable ∧
        ((env.answer .createDbSubnetGroup).ok → rds.NamesGroup ∧ ¬ GatewayLost env)

/-! ### The course of a creation -/

/-- Neither a VPC nor a subnet that the program knows. -/
def Resource.Other : Resource → Prop
  | .vpc _ | .subnet _ => False
  | _ => True

/-- After the VPC step: the VPC, subnets that the program knows and the things in `extra` are
    left so far, and `gws` are attached to the VPC. -/
structure Prepared (rds : RDS) (vpc : String) (gws : List String) (extra : Resource → Prop)
    (w : World) : Prop where
  clusterName : w.rds.clusterNameIntern = rds.clusterNameIntern
  cluster : w.rds.clusterIntern = rds.clusterIntern
  vpcId : w.rds.vpcIdIntern = vpc
  gateways : w.attached vpc = gws
  known : ∀ x, w.estate.Left x →
    x = .vpc vpc ∨ (∃ id ∈ w.rds.subnetsIntern, x = .subnet id) ∨ extra x
  left : ∀ x, extra x → x.Other ∧ w.estate.Left x

/-- The group that is deleted. -/
def RDS.deletedGroup (rds : RDS) : String := rds.groupName.getD "(null)"

theorem deletedGroup_eq_iff (rds : RDS) :
    rds.deletedGroup = rds.clusterNameIntern ↔ rds.NamesGroup := by
  unfold RDS.deletedGroup RDS.groupName RDS.NamesGroup
  cases rds.clusterIntern <;> simp

section

variable {rds : RDS} {vpc : String} {gws : List String} {extra : Resource → Prop} {w : World}

/-- The deletions that end every cleanup. -/
theorem Prepared.left_undo (h : Prepared rds vpc gws extra w) (x : Resource) :
    (destroyVpc (destroySubnetsGroup (destroySubnets w))).estate.Left x ↔
      extra x ∧ x ≠ .subnetGroup rds.deletedGroup := by
  have hgroup : w.rds.groupName = rds.groupName := by
    rw [RDS.groupName, RDS.groupName, h.cluster, h.clusterName]
  show (((w.estate.deleteAll _).delete (.subnetGroup (w.rds.groupName.getD _))).delete
    (.vpc w.rds.vpcIdIntern)).Left x ↔ _
  rw [left_delete, left_delete, left_deleteAll, hgroup, h.vpcId]
  constructor
  · -- what is left is neither the VPC nor one of the subnets that were deleted
    rintro ⟨hvpc, hname, hsubnets, hleft⟩
    refine ⟨?_, hname⟩
    rcases h.known x hleft with rfl | ⟨id, hid, rfl⟩ | hextra
    · exact absurd rfl hvpc
    · exact absurd (List.mem_flatMap.mpr ⟨id, hid, List.mem_cons_self⟩) hsubnets
    · exact hextra
  · rintro ⟨hextra, hname⟩
    obtain ⟨hother, hleft⟩ := h.left x hextra
    refine ⟨?_, hname, ?_, hleft⟩
    · rintro rfl
      exact hother
    · intro hmem
      obtain ⟨id, -, hx⟩ := List.mem_flatMap.mp hmem
      have hsubnet : x = .subnet id := by simpa using hx
      subst hsubnet
      exact hother

/-- Something else is made on the way. -/
theorem Prepared.make (h : Prepared rds vpc gws extra w) {x : Resource} (hx : x.Other) :
    Prepared rds vpc gws (fun y => y = x ∨ extra y) { w with estate := w.estate.make x } where
  clusterName := h.clusterName
  cluster := h.cluster
  vpcId := h.vpcId
  gateways := h.gateways
  known := by
    intro y hy
    rcases (left_make _ _ _).mp hy with rfl | hy
    · exact .inr (.inr (.inl rfl))
    · exact (h.known y hy).imp_right fun hrest => hrest.imp_right .inr
  left := by
    rintro y (rfl | hy)
    · exact ⟨hx, (left_make _ _ _).mpr (.inl rfl)⟩
    · exact ⟨(h.left y hy).1, (left_make _ _ _).mpr (.inr (h.left y hy).2)⟩

/-- Some of the other things are deleted. -/
theorem Prepared.deleteAll (h : Prepared rds vpc gws extra w) (xs : List Resource) :
    Prepared rds vpc gws (fun y => y ∉ xs ∧ extra y)
      { w with estate := w.estate.deleteAll xs } where
  clusterName := h.clusterName
  cluster := h.cluster
  vpcId := h.vpcId
  gateways := h.gateways
  known := by
    intro y hy
    obtain ⟨hmem, hy⟩ := (left_deleteAll _ _ _).mp hy
    exact (h.known y hy).imp_right fun hrest => hrest.imp_right fun hextra => ⟨hmem, hextra⟩
  left := by
    rintro y ⟨hmem, hy⟩
    exact ⟨(h.left y hy).1, (left_deleteAll _ _ _).mpr ⟨hmem, (h.left y hy).2⟩⟩

/-- The gateways attached to the VPC are deleted. -/
theorem Prepared.detach (h : Prepared rds vpc gws extra w) :
    Prepared rds vpc [] (fun x => x ∉ gws.map .gateway ∧ extra x) (detachAndDestroyGw w) := by
  have hdeleted := h.deleteAll (gws.map .gateway)
  rw [← h.gateways] at hdeleted ⊢
  have hw : detachAndDestroyGw w =
      { w with
        estate := w.estate.deleteAll ((w.attached vpc).map .gateway)
        attached := Function.update w.attached vpc [] } := by
    rw [detachAndDestroyGw, h.vpcId]
  rw [hw]
  exact ⟨h.clusterName, h.cluster, h.vpcId, Function.update_self ..,
    hdeleted.known, hdeleted.left⟩

/-! ### The steps -/

/-- A subnet whose identifier the program has not read. -/
def LostSubnet (az cidr : String) (x : Resource) : Prop :=
  env.answer (.createSubnet az cidr) = .unreadable ∧ x = .unknown (.createSubnet az cidr)

/-- A subnet whose identifier is read is one of those that are deleted. -/
theorem Prepared.makeSubnet (h : Prepared rds vpc gws extra w) (id : String) :
    Prepared rds vpc gws extra
      { w with
        rds := { w.rds with subnetsIntern := w.rds.subnetsIntern ++ [id] }
        estate := w.estate.make (.subnet id) } := by
  refine ⟨h.clusterName, h.cluster, h.vpcId, h.gateways, ?_, ?_⟩
  · intro y hy
    rcases (left_make _ _ _).mp hy with rfl | hy
    · exact .inr (.inl ⟨id, List.mem_append_right _ List.mem_cons_self, rfl⟩)
    · rcases h.known y hy with hvpc | ⟨id', hid', rfl⟩ | hextra
      · exact .inl hvpc
      · exact .inr (.inl ⟨id', List.mem_append_left _ hid', rfl⟩)
      · exact .inr (.inr hextra)
  · intro y hy
    exact ⟨(h.left y hy).1, (left_make _ _ _).mpr (.inr (h.left y hy).2)⟩

theorem not_lostSubnet (az cidr : String)
    (h : env.answer (.createSubnet az cidr) ≠ .unreadable) (x : Resource) :
    ¬ LostSubnet env az cidr x :=
  fun hlost => h hlost.1

theorem Prepared.createSubnet (h : Prepared rds vpc gws extra w) (az cidr : String) :
    Prepared rds vpc gws (fun x => LostSubnet env az cidr x ∨ extra x)
      (createSubnet env w az cidr).2 := by
  unfold Rds.createSubnet
  cases hanswer : env.answer (.createSubnet az cidr) with
  | refused =>
    have hnone := not_lostSubnet env az cidr (by rw [hanswer]; nofun)
    simpa only [hnone, false_or] using h
  | unreadable =>
    have hlost : ∀ x, LostSubnet env az cidr x ↔ x = .unknown (.createSubnet az cidr) := by
      intro x
      simp [LostSubnet, hanswer]
    simpa only [hlost] using h.make (x := .unknown (.createSubnet az cidr)) trivial
  | done id =>
    have hnone := not_lostSubnet env az cidr (by rw [hanswer]; nofun)
    simp only [hnone, false_or]
    -- whether the subnet gets its attribute makes no difference
    split
    · exact h.makeSubnet id
    · exact h.makeSubnet id

theorem Prepared.createSubnetGroup (h : Prepared rds vpc gws extra w) :
    (¬ (env.answer .createDbSubnetGroup).ok ∧
      ∃ w', createSubnetGroup env w = (-1, w') ∧ Prepared rds vpc gws extra w') ∨
    ((env.answer .createDbSubnetGroup).ok ∧
      ∃ w', createSubnetGroup env w = (0, w') ∧
        Prepared rds vpc gws (fun x => x = .subnetGroup rds.clusterNameIntern ∨ extra x) w') := by
  have hw : Prepared rds vpc gws extra
      { w with
        rds := { w.rds with subnetsGroupNameIntern := some w.rds.clusterNameIntern } } :=
    ⟨h.clusterName, h.cluster, h.vpcId, h.gateways, h.known, h.left⟩
  unfold Rds.createSubnetGroup
  by_cases hok : (env.answer .createDbSubnetGroup).ok
  · refine .inr ⟨hok, _, if_neg (not_not.mpr hok), ?_⟩
    rw [h.clusterName] at hw ⊢
    exact hw.make trivial
  · exact .inl ⟨hok, _, if_pos hok, hw⟩

/-- A gateway that is attached is one of those that the deletion finds. -/
theorem Prepared.createGw (h : Prepared rds vpc gws extra w) :
    (¬ GatewayDone env ∧ ∃ w', createGw env w = (-1, w') ∧
      Prepared rds vpc gws (fun x => ((env.answer .createInternetGateway = .unreadable ∧
          x = .unknown .createInternetGateway) ∨
        ∃ id, env.answer .createInternetGateway = .done id ∧ x = .gateway id) ∨ extra x) w') ∨
    (GatewayDone env ∧ ∃ id w', createGw env w = (0, w') ∧
      Prepared rds vpc (gws ++ [id]) (fun x => x = .gateway id ∨ extra x) w') := by
  have hw : Prepared rds vpc gws extra { w with rds := { w.rds with gwIntern := none } } :=
    ⟨h.clusterName, h.cluster, h.vpcId, h.gateways, h.known, h.left⟩
  unfold Rds.createGw GatewayDone
  cases hanswer : env.answer .createInternetGateway with
  | refused =>
    refine .inl ⟨by simp, _, rfl, ?_⟩
    simpa using hw
  | unreadable =>
    refine .inl ⟨by simp, _, rfl, ?_⟩
    simpa using hw.make (x := .unknown .createInternetGateway) trivial
  | done id =>
    have hmade : Prepared rds vpc gws (fun x => x = .gateway id ∨ extra x)
        { w with
          rds := { w.rds with gwIntern := some id }
          estate := w.estate.make (.gateway id) } :=
      have hnew := hw.make (x := .gateway id) trivial
      ⟨h.clusterName, h.cluster, h.vpcId, h.gateways, hnew.known, hnew.left⟩
    -- the gateway exists whether or not it is attached
    by_cases hok : (env.answer .attachInternetGateway).ok
    · refine .inr ⟨⟨⟨id, rfl⟩, hok⟩, id, _, if_neg (not_not.mpr hok), ?_⟩
      refine ⟨h.clusterName, h.cluster, h.vpcId, ?_, hmade.known, hmade.left⟩
      dsimp only
      rw [h.vpcId, h.gateways, Function.update_self]
    · refine .inl ⟨fun hdone => hok hdone.2, _, if_pos hok, ?_⟩
      simpa [eq_comm] using hmade

end

/-- The loop over the route tables succeeds when the VPC has one and all of its tables get
    the route. -/
theorem addRoutes_eq_zero_iff (vpc : String) (rt : Option String)
    (tables : List (String × String)) :
    addRoutes env vpc rt tables = 0 ↔
      (rt.isSome ∨ ∃ table ∈ tables, table.2 = vpc) ∧
        ∀ table ∈ tables, table.2 = vpc → (env.answer (.createRoute table.1)).ok := by
  induction tables generalizing rt with
  | nil => cases rt <;> simp [addRoutes]
  | cons table tables ih =>
    obtain ⟨id, rtVpc⟩ := table
    unfold addRoutes
    by_cases hvpc : vpc = rtVpc
    · -- a table of the VPC, whose route may fail
      subst hvpc
      rw [if_pos rfl]
      by_cases hok : (env.answer (.createRoute id)).ok
      · rw [if_neg (not_not.mpr hok), ih]
        simp [hok]
      · rw [if_pos hok]
        simp [hok]
    · rw [if_neg hvpc, ih]
      have hne : rtVpc ≠ vpc := fun heq => hvpc heq.symm
      simp [hne]

theorem configureRouteTable_eq (w : World) :
    (RoutesDone env w.rds.vpcIdIntern ∧ configureRouteTable env w = (0, w)) ∨
      (¬ RoutesDone env w.rds.vpcIdIntern ∧
        ∃ err, err ≠ 0 ∧ configureRouteTable env w = (err, w)) := by
  unfold configureRouteTable RoutesDone
  cases htables : env.routeTables with
  | none => exact .inr ⟨by simp, -1, by decide, rfl⟩
  | some tables =>
    have hiff := addRoutes_eq_zero_iff env w.rds.vpcIdIntern none tables
    by_cases hzero : addRoutes env w.rds.vpcIdIntern none tables = 0
    · refine .inl ⟨?_, congrArg (fun err => (err, w)) hzero⟩
      simpa using hiff.mp hzero
    · refine .inr ⟨?_, _, hzero, rfl⟩
      rintro ⟨_, heq, hdone⟩
      cases heq
      exact hzero (hiff.mpr (by simpa using hdone))

theorem Prepared.createCluster {rds : RDS} {vpc : String} {gws : List String}
    {extra : Resource → Prop} {w : World} (h : Prepared rds vpc gws extra w) :
    ((∃ id, env.answer .createDbCluster = .done id) ∧ ∃ w', createCluster env w = (0, w')) ∨
    ((¬ ∃ id, env.answer .createDbCluster = .done id) ∧ ∃ w', createCluster env w = (-1, w') ∧
      Prepared rds vpc gws (fun x => (env.answer .createDbCluster = .unreadable ∧
        x = .cluster rds.clusterNameIntern) ∨ extra x) w') := by
  unfold Rds.createCluster
  cases hanswer : env.answer .createDbCluster with
  | refused =>
    refine .inr ⟨by simp, _, rfl, ?_⟩
    simpa using h
  | unreadable =>
    refine .inr ⟨by simp, _, rfl, ?_⟩
    rw [h.clusterName]
    simpa using h.make (x := .cluster rds.clusterNameIntern) trivial
  | done id => exact .inl ⟨⟨id, rfl⟩, _, rfl⟩

/-- The nodes of another cluster and this cluster are deleted. -/
theorem Prepared.destroyCluster {rds : RDS} {vpc : String} {gws : List String}
    {extra : Resource → Prop} {w : World} (h : Prepared rds vpc gws extra w)
    (names : List String) :
    Prepared rds vpc gws
      (fun x => x ∉ [.cluster rds.clusterNameIntern] ∧ x ∉ names.map .node ∧ extra x)
      (destroyCluster (destroyNodes w names)) := by
  have hdeleted := (h.deleteAll (names.map .node)).deleteAll [.cluster rds.clusterNameIntern]
  rw [← h.clusterName] at hdeleted ⊢
  exact hdeleted

/-! ### What is left -/

/-- A gateway that the deletions do not find. -/
def LostGateway (x : Resource) : Prop :=
  (env.answer .createInternetGateway = .unreadable ∧ x = .unknown .createInternetGateway) ∨
    ∃ id, env.answer .createInternetGateway = .done id ∧
      ¬ (env.answer .attachInternetGateway).ok ∧ x = .gateway id

/-- What a failure behind the VPC step leaves. -/
def Leftover (rds : RDS) (x : Resource) : Prop :=
  (LostSubnet env "eu-west-1a" "172.30.1.0/24" x ∨ LostSubnet env "eu-west-1b" "172.30.0.0/24" x) ∨
    ((env.answer .createDbSubnetGroup).ok ∧
      ((x = .subnetGroup rds.clusterNameIntern ∧ ¬ rds.NamesGroup) ∨ LostGateway env x))

theorem not_leftover_iff (rds : RDS) :
    (∀ x, ¬ Leftover env rds x) ↔
      env.answer (.createSubnet "eu-west-1b" "172.30.0.0/24") ≠ .unreadable ∧
      env.answer (.createSubnet "eu-west-1a" "172.30.1.0/24") ≠ .unreadable ∧
      ((env.answer .createDbSubnetGroup).ok → rds.NamesGroup ∧ ¬ GatewayLost env) := by
  constructor
  · intro h
    refine ⟨fun hb => ?_, fun ha => ?_, fun hok => ⟨?_, ?_⟩⟩
    · exact h _ (.inl (.inr ⟨hb, rfl⟩))
    · exact h _ (.inl (.inl ⟨ha, rfl⟩))
    · by_contra hnames
      exact h _ (.inr ⟨hok, .inl ⟨rfl, hnames⟩⟩)
    · rintro (hunreadable | ⟨⟨id, hid⟩, hattach⟩)
      · exact h _ (.inr ⟨hok, .inr (.inl ⟨hunreadable, rfl⟩)⟩)
      · exact h _ (.inr ⟨hok, .inr (.inr ⟨id, hid, hattach, rfl⟩)⟩)
  · rintro ⟨hb, ha, hlater⟩ x ((⟨hx, -⟩ | ⟨hx, -⟩) | ⟨hok, ⟨-, hnames⟩ | hgateway⟩)
    · exact ha hx
    · exact hb hx
    · exact hnames (hlater hok).1
    · rcases hgateway with ⟨hx, -⟩ | ⟨id, hid, hattach, -⟩
      · exact (hlater hok).2 (.inl hx)
      · exact (hlater hok).2 (.inr ⟨⟨id, hid⟩, hattach⟩)

/-- The creation from the subnets on. -/
def afterVpc (w : World) : ℤ × World :=
  let (_, w) := createSubnet env w "eu-west-1b" "172.30.0.0/24"
  let (_, w) := createSubnet env w "eu-west-1a" "172.30.1.0/24"
  let (err, w) := createSubnetGroup env w
  if err ≠ 0 then (-1, destroyVpc (destroySubnetsGroup (destroySubnets w)))
  else
    let (err, w) := createGw env w
    if err ≠ 0 then
      let w := detachAndDestroyGw w
      (-1, destroyVpc (destroySubnetsGroup (destroySubnets w)))
    else
      let (err, w) := configureRouteTable env w
      if err ≠ 0 then
        let w := detachAndDestroyGw w
        (-1, destroyVpc (destroySubnetsGroup (destroySubnets w)))
      else
        let (err, w) := createCluster env w
        if err ≠ 0 then
          let w := destroyCluster (destroyNodes w (getClusterNodes w))
          let w := detachAndDestroyGw w
          (-1, destroyVpc (destroySubnetsGroup (destroySubnets w)))
        else (0, w)

section

variable {env} {rds : RDS} {vpc : String} {gws : List String} {extra : Resource → Prop}
  {w w' : World}

/-- A cleanup leaves the things in `extra` but the group. -/
theorem Prepared.leftover_of_cleanup (h : Prepared rds vpc gws extra w')
    (hrun : afterVpc env w = (-1, destroyVpc (destroySubnetsGroup (destroySubnets w'))))
    (hextra : ∀ x, extra x ∧ x ≠ .subnetGroup rds.deletedGroup ↔ Leftover env rds x) :
    (afterVpc env w).1 ≠ 0 ∧ ∀ x, (afterVpc env w).2.estate.Left x ↔ Leftover env rds x := by
  rw [hrun]
  exact ⟨show (-1 : ℤ) ≠ 0 by decide, fun x => (h.left_undo x).trans (hextra x)⟩

/-- A group that is not the one deleted. -/
theorem subnetGroup_and_ne_iff (x : Resource) :
    (x = .subnetGroup rds.clusterNameIntern ∧ x ≠ .subnetGroup rds.deletedGroup) ↔
      (x = .subnetGroup rds.clusterNameIntern ∧ ¬ rds.NamesGroup) := by
  rw [← deletedGroup_eq_iff]
  constructor
  · rintro ⟨rfl, hne⟩
    exact ⟨rfl, fun heq => hne (by rw [heq])⟩
  · rintro ⟨rfl, hne⟩
    exact ⟨rfl, fun heq => hne (by simpa using heq.symm)⟩

/-- What the steps between the VPC and the gateway leave to be deleted. -/
def Early (env : Environment) (rds : RDS) (x : Resource) : Prop :=
  x = .subnetGroup rds.clusterNameIntern ∨ LostSubnet env "eu-west-1a" "172.30.1.0/24" x ∨
    LostSubnet env "eu-west-1b" "172.30.0.0/24" x

theorem ne_subnetGroup_of_lostSubnet {az cidr name : String} {x : Resource}
    (h : LostSubnet env az cidr x) : x ≠ .subnetGroup name := by
  rw [h.2]
  exact nofun

/-- When the group is created, the things that a cleanup does not find are among those that
    the steps behind it may have lost. -/
theorem leftover_iff (hgroup : (env.answer .createDbSubnetGroup).ok) (x : Resource) :
    (LostGateway env x ∨ Early env rds x) ∧ x ≠ .subnetGroup rds.deletedGroup ↔
      Leftover env rds x := by
  have hsubnet : ∀ az cidr, LostSubnet env az cidr x ∧ x ≠ .subnetGroup rds.deletedGroup ↔
      LostSubnet env az cidr x :=
    fun _ _ => and_iff_left_of_imp ne_subnetGroup_of_lostSubnet
  have hgateway : LostGateway env x ∧ x ≠ .subnetGroup rds.deletedGroup ↔ LostGateway env x := by
    apply and_iff_left_of_imp
    rintro (⟨-, rfl⟩ | ⟨id, -, -, rfl⟩)
    · exact nofun
    · exact nofun
  unfold Early Leftover
  rw [or_and_right, or_and_right, or_and_right, hgateway, hsubnet, hsubnet, subnetGroup_and_ne_iff]
  simp only [hgroup, true_and]
  tauto

theorem lostGateway_iff (h : ¬ GatewayDone env) (x : Resource) :
    LostGateway env x ↔
      (env.answer .createInternetGateway = .unreadable ∧ x = .unknown .createInternetGateway) ∨
        ∃ id, env.answer .createInternetGateway = .done id ∧ x = .gateway id := by
  unfold LostGateway
  refine or_congr_right (exists_congr fun id => and_congr_right fun hid => ?_)
  have hattach : ¬ (env.answer .attachInternetGateway).ok := fun hok => h ⟨⟨id, hid⟩, hok⟩
  simp [hattach]

theorem not_lostGateway (h : GatewayDone env) (x : Resource) : ¬ LostGateway env x := by
  obtain ⟨⟨id, hid⟩, hok⟩ := h
  rintro (⟨hunreadable, -⟩ | ⟨-, -, hattach, -⟩)
  · rw [hid] at hunreadable
    cases hunreadable
  · exact hattach hok

/-- What the steps before the gateway have made is none of the things deleted by name. -/
theorem Early.notMem {x : Resource} (h : Early env rds x) (gws names : List String)
    (name : String) :
    x ∉ gws.map .gateway ∧ x ∉ [.cluster name] ∧ x ∉ names.map .node := by
  rcases h with rfl | ⟨-, rfl⟩ | ⟨-, rfl⟩ <;> simp

/-- Once the attached gateway is deleted, the early things remain. -/
theorem early_of_detached_iff (id : String) (x : Resource) :
    (x ∉ [id].map .gateway ∧ (x = .gateway id ∨ Early env rds x)) ↔ Early env rds x := by
  refine ⟨?_, fun hearly => ⟨(hearly.notMem [id] [] "").1, .inr hearly⟩⟩
  rintro ⟨hgateway, rfl | hearly⟩
  · simp at hgateway
  · exact hearly

/-- So they do once the cluster and its nodes are deleted too. -/
theorem early_of_destroyed_iff (id : String) (names : List String) (made : Prop) (x : Resource) :
    (x ∉ [id].map .gateway ∧ x ∉ [.cluster rds.clusterNameIntern] ∧ x ∉ names.map .node ∧
      ((made ∧ x = .cluster rds.clusterNameIntern) ∨ x = .gateway id ∨ Early env rds x)) ↔
      Early env rds x := by
  refine ⟨?_, fun hearly => ?_⟩
  · rintro ⟨hgateway, hcluster, -, ⟨-, rfl⟩ | hrest⟩
    · exact absurd List.mem_cons_self hcluster
    · exact (early_of_detached_iff id x).mp ⟨hgateway, hrest⟩
  · obtain ⟨hgateway, hcluster, hnodes⟩ := hearly.notMem [id] names rds.clusterNameIntern
    exact ⟨hgateway, hcluster, hnodes, .inr (.inr hearly)⟩

variable (env) in
/-- Behind the VPC step, the call succeeds when all commands that count do; otherwise it
    returns an error, and leaves what the deletions do not find. -/
theorem Prepared.left_iff (h : Prepared rds vpc [] (fun _ => False) w) :
    (LaterDone env vpc ∧ (afterVpc env w).1 = 0) ∨
      (¬ LaterDone env vpc ∧ (afterVpc env w).1 ≠ 0 ∧
        ∀ x, (afterVpc env w).2.estate.Left x ↔ Leftover env rds x) := by
  have hsubnets := (h.createSubnet env "eu-west-1b" "172.30.0.0/24").createSubnet env
    "eu-west-1a" "172.30.1.0/24"
  simp only [or_false] at hsubnets
  obtain ⟨hno, w₁, h₁, hw₁⟩ | ⟨hgroup, w₁, h₁, hw₁⟩ := hsubnets.createSubnetGroup env
  · -- the group is not created
    refine .inr ⟨fun hdone => hno hdone.1, ?_⟩
    apply hw₁.leftover_of_cleanup
    · simp [afterVpc, h₁]
    · intro x
      simp only [Leftover, hno, Bool.false_eq_true, false_and, or_false, and_iff_left_iff_imp]
      rintro (hlost | hlost)
      · exact ne_subnetGroup_of_lostSubnet hlost
      · exact ne_subnetGroup_of_lostSubnet hlost
  obtain ⟨hno, w₂, h₂, hw₂⟩ | ⟨hgateway, id, w₂, h₂, hw₂⟩ := hw₁.createGw env
  · -- there is no attached gateway
    refine .inr ⟨fun hdone => hno hdone.2.1, ?_⟩
    apply hw₂.detach.leftover_of_cleanup
    · simp [afterVpc, h₁, h₂]
    · intro x
      rw [← leftover_iff hgroup, lostGateway_iff hno]
      simp only [List.map_nil, List.not_mem_nil, not_false_eq_true, true_and]
      rfl
  obtain ⟨hroutes, h₃⟩ | ⟨hno, err, herr, h₃⟩ := configureRouteTable_eq env w₂
  · rw [hw₂.vpcId] at hroutes
    obtain ⟨hcluster, w₄, h₄⟩ | ⟨hno, w₄, h₄, hw₄⟩ := hw₂.createCluster env
    · refine .inl ⟨⟨hgroup, hgateway, hroutes, hcluster⟩, ?_⟩
      simp [afterVpc, h₁, h₂, h₃, h₄]
    · -- the cluster's description cannot be read
      refine .inr ⟨fun hdone => hno hdone.2.2.2, ?_⟩
      apply (hw₄.destroyCluster (getClusterNodes w₄)).detach.leftover_of_cleanup
      · simp [afterVpc, h₁, h₂, h₃, h₄]
      · intro x
        rw [← leftover_iff hgroup, or_iff_right (not_lostGateway hgateway x)]
        exact and_congr_left fun _ => early_of_destroyed_iff id (getClusterNodes w₄) _ x
  · -- no route
    rw [hw₂.vpcId] at hno
    refine .inr ⟨fun hdone => hno hdone.2.2.1, ?_⟩
    apply hw₂.detach.leftover_of_cleanup
    · simp [afterVpc, h₁, h₂, h₃, herr]
    · intro x
      rw [← leftover_iff hgroup, or_iff_right (not_lostGateway hgateway x)]
      exact and_congr_left fun _ => early_of_detached_iff id x

end

/-- Behind the VPC step, an error leaves nothing exactly when nothing has been lost. -/
theorem Prepared.leaves_nothing_iff {rds : RDS} {vpc : String} {w : World}
    (h : Prepared rds vpc [] (fun _ => False) w) :
    ((afterVpc env w).1 ≠ 0 → ∀ x, ¬ (afterVpc env w).2.estate.Left x) ↔
      (¬ LaterDone env vpc → ∀ x, ¬ Leftover env rds x) := by
  obtain ⟨hdone, hok⟩ | ⟨hfails, herror, hrest⟩ := h.left_iff env
  · exact iff_of_true (fun hne => absurd hok hne) fun hfails => absurd hdone hfails
  · simp only [hrest]
    exact ⟨fun hback _ => hback herror, fun hnone _ => hnone hfails⟩

/-- A VPC that is created is all that is left, and has no gateways. -/
theorem createVpc_done {w : World} (hnone : ∀ x, ¬ w.estate.Left x) {vpc : String}
    (hvpc : env.answer .createVpc = .done vpc) :
    ∃ err w', createVpc env w = (err, w') ∧
      (err = 0 ↔ (env.answer .enableDnsSupport).ok ∧ (env.answer .enableDnsHostnames).ok) ∧
      (∀ x, w'.estate.Left x ↔ x = .vpc vpc) ∧
      Prepared w.rds vpc [] (fun _ => False) w' := by
  have hleft : ∀ x, (w.estate.make (.vpc vpc)).Left x ↔ x = .vpc vpc := by
    intro x
    rw [left_make, or_iff_left (hnone x)]
  let w' : World :=
    { rds := { w.rds with vpcIdIntern := vpc }
      estate := w.estate.make (.vpc vpc)
      attached := Function.update w.attached vpc [] }
  have hprepared : Prepared w.rds vpc [] (fun _ => False) w' :=
    ⟨rfl, rfl, rfl, Function.update_self .., fun x hx => .inl ((hleft x).mp hx), fun _ => nofun⟩
  -- a failure of either attribute leaves the VPC as it is
  simp only [createVpc, hvpc]
  by_cases hsupport : (env.answer .enableDnsSupport).ok
  · by_cases hhostnames : (env.answer .enableDnsHostnames).ok
    · refine ⟨0, w', ?_, by simp [hsupport, hhostnames], hleft, hprepared⟩
      rw [if_neg (not_not.mpr hsupport), if_neg (not_not.mpr hhostnames)]
    · refine ⟨-1, w', ?_, by simp [hhostnames], hleft, hprepared⟩
      rw [if_neg (not_not.mpr hsupport), if_pos hhostnames]
  · exact ⟨-1, w', if_pos hsupport, by simp [hsupport], hleft, hprepared⟩

/-- The call is the VPC step and what comes behind it. -/
theorem createRdsDb_eq (w : World) (N : Int32) :
    createRdsDb env w N =
      let r := createVpc env { w with rds := { w.rds with nIntern := CInt.toSize N } }
      if r.1 ≠ 0 then (-1, destroyVpc r.2) else afterVpc env r.2 :=
  rfl

/-- **Rollback.** For any failures, a call that returns an error has deleted all that it has
    created exactly when the program can read what it must delete later, the group that it
    deletes is the right one, and no gateway is left unattached. -/
theorem rollsBack_iff (rds : RDS) (existing : Finset Resource) (attached : String → List String)
    (N : Int32) :
    RollsBack env (World.begin rds existing attached) N ↔ Good env rds := by
  generalize hbegin : World.begin { rds with nIntern := CInt.toSize N } existing attached = w
  have hnone : ∀ x, ¬ w.estate.Left x := by
    rw [← hbegin]
    exact not_left_start existing
  have hrun : createRdsDb env (World.begin rds existing attached) N =
      if (createVpc env w).1 ≠ 0 then (-1, destroyVpc (createVpc env w).2)
      else afterVpc env (createVpc env w).2 := by
    rw [createRdsDb_eq, ← hbegin]
    rfl
  unfold RollsBack Good
  rw [hrun]
  cases hvpc : env.answer .createVpc with
  | refused =>
    simp only [createVpc, hvpc]
    refine iff_of_true (fun _ x => ?_) ⟨nofun, nofun⟩
    simp [destroyVpc, hnone]
  | unreadable =>
    simp only [createVpc, hvpc]
    refine iff_of_false (fun hback => ?_) (fun hgood => hgood.1 rfl)
    apply hback (by simp) (.unknown .createVpc)
    simp [destroyVpc]
  | done vpc =>
    obtain ⟨err, w', h, hzero, hleft, hprepared⟩ := createVpc_done env hnone hvpc
    rw [h]
    dsimp only
    by_cases herr : err = 0
    · -- the VPC is ready
      rw [if_neg (not_not.mpr herr)]
      obtain ⟨hsupport, hhostnames⟩ := hzero.mp herr
      have hrds : w.rds = { rds with nIntern := CInt.toSize N } := by
        rw [← hbegin]
        rfl
      rw [hrds] at hprepared
      rw [hprepared.leaves_nothing_iff, not_leftover_iff]
      refine ⟨fun hback => ⟨nofun, ?_⟩, fun hgood => hgood.2 vpc rfl hsupport hhostnames⟩
      rintro _ ⟨⟩ - -
      exact hback
    · -- the VPC lacks an attribute, and is deleted
      rw [if_pos herr]
      refine iff_of_true (fun _ x => ?_) ⟨nofun, ?_⟩
      · simp only [destroyVpc, left_delete, hleft, hprepared.vpcId]
        exact fun hx => hx.1 hx.2
      · rintro _ ⟨⟩ hsupport hhostnames
        exact absurd (hzero.mpr ⟨hsupport, hhostnames⟩) herr

/-- A new object whose unset pointers are NULL. -/
def newObject : RDS := ⟨"auroratest", 0, none, "", [], none, none⟩

/-- Only the attachment of the gateway fails. -/
def attachFails : Environment where
  answer
    | .attachInternetGateway => .refused
    | .createVpc => .done "vpc-1"
    | .createSubnet az _ => .done az
    | .createInternetGateway => .done "igw-1"
    | _ => .done ""
  routeTables := some [("rtb-1", "vpc-1")]
  dbCluster := ⟨some "auroratest", []⟩

/-- The gateway is left. -/
theorem not_rollsBack_attachFails :
    ¬ RollsBack attachFails (World.begin newObject ∅ fun _ => []) 4 := by
  intro hback
  exact hback (by decide +kernel) (.gateway "igw-1") (by decide +kernel)

end MaxScaleSystemTest.Rds
