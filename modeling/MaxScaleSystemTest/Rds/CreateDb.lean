import MaxScaleSystemTest.Lib.CInt
import MaxScaleSystemTest.Lib.Estate

namespace MaxScaleSystemTest.Rds

open CInt

/-!
# Creation of an RDS cluster

`create_rds_db` sends `aws` commands one after the other, and after a failure it sends others
that delete what was created before.  Every command is taken to fit `cmd[1024]`.

* `Answer` — what the program gets from a command that creates something;
* `Environment` — the answers to all commands that may fail; the deletions and the listing of
  gateways do what they should;
* `createRdsDb` — the creation, with the deletions after each kind of failure.
-/

/-! ### The account -/

/-- The commands that may fail.  Each is sent at most once by a call, `createRoute` once for
    every route table. -/
inductive Step where
  | createVpc
  | enableDnsSupport
  | enableDnsHostnames
  | createSubnet (az cidr : String)
  | mapPublicIpOnLaunch (az cidr : String)
  | createDbSubnetGroup
  | createInternetGateway
  | attachInternetGateway
  | createRoute (rt : String)
  | createDbCluster
  | createDbInstance (i : ℕ)
  deriving DecidableEq

/-- What becomes of a command: it fails and does nothing; it does its work and prints nothing
    that the program can use; or it does its work and prints the identifier of what it made. -/
inductive Answer where
  | refused
  | unreadable
  | done (id : String)
  deriving DecidableEq

/-- The exit status is 0. -/
def Answer.ok : Answer → Bool
  | .refused => false
  | _ => true

/-- What a call may create.  The program knows a resource by its name or identifier, but not
    one that was made by a command whose output it could not use. -/
inductive Resource where
  | vpc (id : String)
  | subnet (id : String)
  | subnetGroup (name : String)
  | gateway (id : String)
  | cluster (name : String)
  | node (name : String)
  | unknown (step : Step)
  deriving DecidableEq

/-- The description of a cluster, as far as it is read. -/
structure Cluster where
  dbSubnetGroup : Option String
  dbClusterMembers : List String

/-- The answers to the commands.  `routeTables` is the list that `describe-route-tables`
    prints, each table with its VPC, and `none` if there is none; `dbCluster` is printed by
    `create-db-cluster`. -/
structure Environment where
  answer : Step → Answer
  routeTables : Option (List (String × String))
  dbCluster : Cluster

/-! ### The object -/

/-- The fields of `RDS` that the calls below read; `none` for NULL.  The constructor sets only
    `cluster_name_intern`, `subnets_intern` and `N_intern`. -/
structure RDS where
  clusterNameIntern : String
  nIntern : UInt64
  clusterIntern : Option Cluster
  vpcIdIntern : String
  subnetsIntern : List String
  subnetsGroupNameIntern : Option String
  gwIntern : Option String

/-- The object, the account, and the gateways attached to each VPC. -/
structure World where
  rds : RDS
  estate : Estate Resource
  attached : String → List String

variable (env : Environment)

/-! ### Creation -/

/-- `create_vpc`. -/
def createVpc (w : World) : ℤ × World :=
  match env.answer .createVpc with
  | .refused => (-1, w)
  | .unreadable => (-1, { w with estate := w.estate.make (.unknown .createVpc) })
  | .done id =>
    -- a new VPC has no gateway
    let w : World :=
      { rds := { w.rds with vpcIdIntern := id }
        estate := w.estate.make (.vpc id)
        attached := Function.update w.attached id [] }
    if ¬ (env.answer .enableDnsSupport).ok then (-1, w)
    else if ¬ (env.answer .enableDnsHostnames).ok then (-1, w)
    else (0, w)

/-- `create_subnet`. -/
def createSubnet (w : World) (az cidr : String) : ℤ × World :=
  match env.answer (.createSubnet az cidr) with
  | .refused => (-1, w)
  | .unreadable => (-1, { w with estate := w.estate.make (.unknown (.createSubnet az cidr)) })
  | .done id =>
    let w : World :=
      { w with
        rds := { w.rds with subnetsIntern := w.rds.subnetsIntern ++ [id] }
        estate := w.estate.make (.subnet id) }
    if ¬ (env.answer (.mapPublicIpOnLaunch az cidr)).ok then (-1, w) else (0, w)

/-- `create_subnet_group`. -/
def createSubnetGroup (w : World) : ℤ × World :=
  let name := w.rds.clusterNameIntern
  let w : World := { w with rds := { w.rds with subnetsGroupNameIntern := some name } }
  if ¬ (env.answer .createDbSubnetGroup).ok then (-1, w)
  else (0, { w with estate := w.estate.make (.subnetGroup name) })

/-- `create_gw`: the identifier is kept before the gateway is attached. -/
def createGw (w : World) : ℤ × World :=
  let w : World := { w with rds := { w.rds with gwIntern := none } }
  match env.answer .createInternetGateway with
  | .refused => (-1, w)
  | .unreadable => (-1, { w with estate := w.estate.make (.unknown .createInternetGateway) })
  | .done id =>
    let w : World :=
      { w with
        rds := { w.rds with gwIntern := some id }
        estate := w.estate.make (.gateway id) }
    let vpc := w.rds.vpcIdIntern
    if ¬ (env.answer .attachInternetGateway).ok then (-1, w)
    else (0, { w with attached := Function.update w.attached vpc (w.attached vpc ++ [id]) })

/-- The loop of `configure_route_table` over the route tables, from the value of `*rt` on. -/
def addRoutes (vpc : String) : Option String → List (String × String) → ℤ
  | rt, [] => if rt.isNone then -1 else 0
  | rt, (id, rtVpc) :: tables =>
    if vpc = rtVpc then
      if ¬ (env.answer (.createRoute id)).ok then -1 else addRoutes vpc (some id) tables
    else addRoutes vpc rt tables

/-- `configure_route_table` changes nothing that is read later. -/
def configureRouteTable (w : World) : ℤ × World :=
  match env.routeTables with
  | none => (-1, w)
  | some tables => (addRoutes env w.rds.vpcIdIntern none tables, w)

/-- The name of a node, printed with `node%03lu`. -/
def nodeName (i : ℕ) : String := "node" ++ String.ofList ((Nat.toDigits 10 i).leftpad 3 '0')

/-- The loop over the nodes; a node that cannot be created is passed over. -/
def createNodes (estate : Estate Resource) (N : ℕ) : Estate Resource :=
  (List.range N).foldl
    (fun estate i =>
      if (env.answer (.createDbInstance i)).ok then estate.make (.node (nodeName i)) else estate)
    estate

/-- `create_cluster`.  The exit status of `create-db-cluster` is not looked at, only whether it
    prints JSON; nor are those of the commands that open the port and create the nodes. -/
def createCluster (w : World) : ℤ × World :=
  let name := w.rds.clusterNameIntern
  match env.answer .createDbCluster with
  | .refused => (-1, w)
  | .unreadable => (-1, { w with estate := w.estate.make (.cluster name) })
  | .done _ =>
    (0, { w with
      rds := { w.rds with clusterIntern := some env.dbCluster }
      estate := createNodes env (w.estate.make (.cluster name)) w.rds.nIntern.toNat })

/-! ### Deletion -/

/-- `get_cluster_nodes`: the nodes that the kept description names. -/
def getClusterNodes (w : World) : List String :=
  match w.rds.clusterIntern with
  | none => []
  | some cluster => cluster.dbClusterMembers

/-- `destroy_nodes`. -/
def destroyNodes (w : World) (nodeNames : List String) : World :=
  { w with estate := w.estate.deleteAll (nodeNames.map .node) }

/-- `destroy_cluster`. -/
def destroyCluster (w : World) : World :=
  { w with estate := w.estate.delete (.cluster w.rds.clusterNameIntern) }

/-- `destroy_subnets` deletes every subnet twice. -/
def destroySubnets (w : World) : World :=
  { w with
    estate := w.estate.deleteAll (w.rds.subnetsIntern.flatMap fun id => [.subnet id, .subnet id]) }

/-- The name that `get_subnetgroup_name` finds. -/
def RDS.groupName (rds : RDS) : Option String :=
  match rds.clusterIntern with
  | some cluster => cluster.dbSubnetGroup
  | none => some rds.clusterNameIntern

/-- `get_subnetgroup_name`. -/
def getSubnetgroupName (w : World) : Option String × World :=
  let name := w.rds.groupName
  (name, { w with rds := { w.rds with subnetsGroupNameIntern := name } })

/-- `destroy_subnets_group`; NULL is printed as `(null)`. -/
def destroySubnetsGroup (w : World) : World :=
  let (name, w) := getSubnetgroupName w
  { w with estate := w.estate.delete (.subnetGroup (name.getD "(null)")) }

/-- `detach_and_destroy_gw`: the gateways that are attached to the VPC are detached and deleted. -/
def detachAndDestroyGw (w : World) : World :=
  let vpc := w.rds.vpcIdIntern
  { w with
    estate := w.estate.deleteAll ((w.attached vpc).map .gateway)
    attached := Function.update w.attached vpc [] }

/-- `destroy_vpc`. -/
def destroyVpc (w : World) : World :=
  { w with estate := w.estate.delete (.vpc w.rds.vpcIdIntern) }

/-! ### The whole -/

/-- `create_rds_db`. -/
def createRdsDb (w : World) (N : Int32) : ℤ × World :=
  let w : World := { w with rds := { w.rds with nIntern := toSize N } }
  let (err, w) := createVpc env w
  if err ≠ 0 then (-1, destroyVpc w)
  else
    let (_, w) := createSubnet env w "eu-west-1b" "172.30.0.0/24"
    let (_, w) := createSubnet env w "eu-west-1a" "172.30.1.0/24"
    let (err, w) := createSubnetGroup env w
    if err ≠ 0 then (-1, destroyVpc (destroySubnetsGroup (destroySubnets w)))
    else
      let (err, w) := createGw env w
      if err ≠ 0 then
        let w := detachAndDestroyGw w
        (-1, destroyVpc (destroySubnetsGroup (destroySubnets w)))
      else
        let (err, w) := configureRouteTable env w
        if err ≠ 0 then
          let w := detachAndDestroyGw w
          (-1, destroyVpc (destroySubnetsGroup (destroySubnets w)))
        else
          let (err, w) := createCluster env w
          if err ≠ 0 then
            let w := destroyCluster (destroyNodes w (getClusterNodes w))
            let w := detachAndDestroyGw w
            (-1, destroyVpc (destroySubnetsGroup (destroySubnets w)))
          else (0, w)

end MaxScaleSystemTest.Rds
