import MaxScaleSystemTest.Lib.Json

namespace MaxScaleSystemTest.Rds.Cluster

open CString Json

/-!
# Descriptions of a cluster

The `aws` commands print JSON, which `execute_cmd` puts into a text.  What cannot be parsed, or
lacks a member that is looked for, becomes NULL on the way and is passed on.
-/

/-- What a command gives through `execute_cmd`: its text and exit status.  Without a pipe there is
    no text, and the caller's pointer is not set. -/
inductive Reply where
  | noPipe
  | printed (text : Bytes) (status : ℤ)

/-- The value that `execute_cmd` returns. -/
def Reply.status : Reply → ℤ
  | .noPipe => -1
  | .printed _ status => status

section

variable (jsonLoads : Bytes → Option Value)

/-- `get_cluster_descr`. -/
def getClusterDescr (json : Bytes) : Option Value :=
  match jsonLoads json with
  | none => none
  | some root => arrayGet (objectGet (some root) (ascii "DBClusters")) 0

/-- `get_cluster`, on what `aws rds describe-db-clusters` gives; `none` for the use of a text
    that is not set. -/
def getCluster : Reply → Option (Option Value)
  | .noPipe => none
  | .printed text _ => some (getClusterDescr jsonLoads text)

end

/-- `get_instance_name`. -/
def getInstanceName (inst : Option Value) : Option Bytes :=
  stringValue (objectGet inst (ascii "DBInstanceIdentifier"))

/-- The members of a cluster. -/
def members (cluster : Option Value) : List Value :=
  elements (objectGet cluster (ascii "DBClusterMembers"))

/-- `get_cluster_nodes`: the names of the members; `json_array_append` takes no NULL. -/
def getClusterNodes (cluster : Option Value) : List Bytes :=
  (members cluster).filterMap fun member => getInstanceName (some member)

end MaxScaleSystemTest.Rds.Cluster
