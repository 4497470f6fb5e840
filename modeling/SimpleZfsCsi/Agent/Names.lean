import SimpleZfsCsi.Agent.Calls

/-!
# Names, paths and labels
-/

namespace SimpleZfsCsi.Agent

open Library Api

/-! ## Labels -/

def propRole : String := "simple-zfs-csi:role"

def propOwner : String := "simple-zfs-csi:owner"

def roleVolume : String := "volume"

def roleRaw : String := "raw"

def roleBacking : String := "backing"

def roleCloneOrigin : String := "clone-origin"

/-- `zpool.LabelProps`. -/
def labelProps (role owner : String) : Props :=
  (propRole, role) :: if owner ≠ "" then [(propOwner, owner)] else []

/-- `zpool.MergeLabels`: a later entry of a property wins. -/
def mergeLabels (props : Props) (role owner : String) : Props := props ++ labelProps role owner

/-- Set the properties that are missing or different. -/
def ensureProps (name : String) : Props → AgentProc Unit
  | [] => return ()
  | (prop, want) :: rest => do
    let got ← ask (.get name prop)
    if Text.trimSpace got = want then ensureProps name rest
    else
      ask (.setProperty name prop want)
      ensureProps name rest

/-- `zpool.EnsureLabels`. -/
def ensureLabels (name role owner : String) : AgentProc Unit :=
  ensureProps name (labelProps role owner)

/-- `string(obj.UID)`. -/
def uidText {Spec Status : Type} (o : Object Spec Status) : String := toString o.metadata.uid

/-! ## Full names -/

/-- `datasetName`. -/
def datasetName (poolName dataset : String) : Except Err String :=
  if poolName = "" then .error (.other "pool name is unknown")
  else if Text.trimSlashes dataset = "" then .error (.other "dataset is empty")
  else .ok (poolName ++ "/" ++ Text.trimSlashes dataset)

/-- `snapshotFullName`. -/
def snapshotFullName (poolName dataset snapName : String) : Except Err String :=
  if poolName = "" then .error (.other "pool name is unknown")
  else if Text.trimSlashes dataset = "" then .error (.other "dataset is empty")
  else if snapName = "" then .error (.other "snapshot name is empty")
  else .ok (poolName ++ "/" ++ Text.trimSlashes dataset ++ "@" ++ snapName)

/-- The path of the backing clone of a snapshot: a sibling of its source. -/
def backingDataset (sourceDataset snapshotName : String) : String :=
  Text.joinPath (Text.dir (Text.trimSlashes sourceDataset)) snapshotName

/-- `backingCloneFullName`. -/
def backingCloneFullName (poolName sourceDataset snapshotName : String) : String :=
  poolName ++ "/" ++ backingDataset sourceDataset snapshotName

/-- `splitSnapshot`. -/
def splitSnapshot (full : String) : String × String :=
  ((Text.cut '@' full).1, (Text.cut '@' full).2.1)

/-- `datasetPathOf`. -/
def datasetPathOf (poolName full : String) : String :=
  Text.trimSlashes (Text.trimStart (Text.trimStart full poolName) "/")

/-- `deriveVolumePath`. -/
def deriveVolumePath (type : DatasetType) (baseMountPath poolName dataset : String) :
    Except Err String :=
  let ds := Text.trimSlashes dataset
  if ds = "" then .error (.other "dataset is empty")
  else
    match type with
    | .filesystem =>
      if baseMountPath = "" then .error (.other "pool baseMountPath is unknown")
      else .ok (Text.joinPath baseMountPath ds)
    | .volume =>
      if poolName = "" then .error (.other "pool name is unknown")
      else .ok (Text.joinPath (Text.joinPath "/dev/zvol" poolName) ds)

/-- `driverSnapshotSuffix`: the snapshot names the driver creates. -/
def isDriverSnapshotSuffix (suffix : String) : Bool :=
  ["clone-", "csi-snap-"].any fun start =>
    Text.startsWith suffix start &&
      ((suffix.toList.drop start.length) ≠ [] && '\n' ∉ suffix.toList.drop start.length)

/-- `assertDriverSnapshot`. -/
def assertDriverSnapshot (full : String) : Except Err Unit :=
  if isDriverSnapshotSuffix (splitSnapshot full).2 then .ok ()
  else .error (.foreignSnapshot full)

/-- `cloneSnapshotSuffix`. -/
def cloneSnapshotSuffix (destName : String) : String := destName

end SimpleZfsCsi.Agent
