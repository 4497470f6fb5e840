import SimpleZfsCsi.Provision.Calls

/-!
# Creating a snapshot, and one of a group

`CreateSnapshot` follows `CreateVolume`: it creates a `ZfsSnapshot` or finds one of the same
source, and waits until it is ready. `CreateVolumeGroupSnapshot` also refuses a group that is
being deleted, both when it finds one and in its wait loop.
-/

namespace SimpleZfsCsi.Provision

open Library Api

structure CreateSnapshotRequest where
  name : String
  sourceVolumeID : String
  deriving DecidableEq, Repr

/-- A CSI snapshot. -/
structure SnapshotMessage where
  snapshotID : String
  sourceVolumeID : String
  sizeBytes : Nat
  creationTime : Option Nat
  readyToUse : Bool
  groupSnapshotID : String
  deriving DecidableEq, Repr

def snapshotMessage (snap : ZfsSnapshot) : SnapshotMessage where
  snapshotID := snap.name
  sourceVolumeID := snap.spec.sourceVolume
  sizeBytes := snap.status.restoreSize.getD 0
  creationTime := snap.status.creationTime.map (·.time)
  readyToUse := snap.status.readyToUse
  groupSnapshotID := snap.spec.groupSnapshotID

/-- The spec of a snapshot of a volume. -/
def snapshotSpec (sourceID uuid : String) (src : ZfsDataset) : ZfsSnapshotSpec where
  poolGUID := src.spec.poolGUID
  dataset := src.spec.dataset
  snapshotName := "csi-snap-" ++ uuid
  sourceVolume := sourceID
  sourceType := some src.spec.type
  sourceFSType := src.status.fsType
  sourceVolblocksize := (src.spec.volume.map (·.volblocksize)).getD ""
  sourceProperties := src.spec.properties

/-- A read of the source of a snapshot. -/
def getSource (id : String) : CreateProc Status ZfsDataset :=
  orStatus (ask (.getDataset id)) fun e =>
    if e.isNotFound then ⟨.notFound, "source volume " ++ Err.quoted id ++ " not found"⟩
    else internal "get source ZfsDataset" id e

/-- `ensureSnapshot`. -/
def ensureSnapshot (name : String) (desired : ZfsSnapshotSpec) :
    Nat → CreateProc Status ZfsSnapshotSpec
  | 0 => throw ⟨.aborted, "deadline exceeded"⟩
  | rounds + 1 => do
    match ← (ask (.getSnapshot name)).outcome with
    | .error e =>
      if e.isNotFound then
        match ← (ask (.createSnapshot name desired)).outcome with
        | .ok () => return desired
        | .error (.alreadyExists _) => ensureSnapshot name desired rounds
        | .error e => throw (internal "create ZfsSnapshot" name e)
      else throw (internal "get ZfsSnapshot" name e)
    | .ok existing =>
      if existing.spec.poolGUID ≠ desired.poolGUID ∨ existing.spec.dataset ≠ desired.dataset ∨
          existing.spec.sourceVolume ≠ desired.sourceVolume ∨
          existing.spec.sourceType ≠ desired.sourceType then
        throw ⟨.alreadyExists, "snapshot " ++ Err.quoted name ++
          " already exists for a different source"⟩
      else return existing.spec

/-- `waitSnapshotReady`. -/
def waitSnapshotReady (name : String) (rounds : Nat) : CreateProc Status ZfsSnapshot :=
  Program.Proc.poll (.pollSnapshot name) (internal "get ZfsSnapshot" name)
    (fun snap : ZfsSnapshot =>
      if snap.status.phase = some .ready ∧ snap.status.readyToUse then some (.ok snap)
      else if snap.status.phase = some .error ∨ snap.status.phase = some .lost then
        some (.error ⟨.internal, "snapshot " ++ Err.quoted name ++ " failed: " ++
          snap.status.message⟩)
      else none)
    ⟨.deadlineExceeded, "timed out waiting for snapshot " ++ Err.quoted name ++
      " to become ready"⟩ rounds

/-- `CreateSnapshot` up to the spec that it wants. -/
def desiredSnapshot (req : CreateSnapshotRequest) : CreateProc Status ZfsSnapshotSpec := do
  refuseIf (req.name = "") ⟨.invalidArgument, "snapshot name is required"⟩
  refuseIf (req.sourceVolumeID = "") ⟨.invalidArgument, "source volume id is required"⟩
  let src ← getSource req.sourceVolumeID
  let uuid ← newUUID
  return snapshotSpec req.sourceVolumeID uuid src

/-- `CreateSnapshot`. -/
def createSnapshot (req : CreateSnapshotRequest) (rounds : Nat) :
    CreateProc Status SnapshotMessage := do
  let desired ← desiredSnapshot req
  let _ ← ensureSnapshot req.name desired rounds
  let snap ← waitSnapshotReady req.name rounds
  return snapshotMessage snap

/-! ## Groups -/

structure CreateGroupRequest where
  name : String
  sourceVolumeIDs : List String
  deriving DecidableEq, Repr

/-- A CSI group snapshot. -/
structure GroupMessage where
  groupSnapshotID : String
  snapshots : List SnapshotMessage
  creationTime : Nat
  readyToUse : Bool
  deriving DecidableEq, Repr

/-- `sameSet`: the same ids with the same counts. -/
def sameSet (a b : List String) : Bool := a.isPerm b

/-- `memberRefName`; the object names of the API server are in ASCII. -/
def memberRefName (groupName id : String) : String :=
  let max := 253 - id.length - 1
  let start :=
    if groupName.length > max then
      String.ofList
        (((groupName.toList.take max).reverse.dropWhile fun c => c = '-' ∨ c = '.').reverse)
    else groupName
  start ++ "-" ++ id

/-- The checks of the ids of a request. -/
def checkSourceIDs : List String → List String → Except Status Unit
  | _, [] => .ok ()
  | seen, id :: rest =>
    if id = "" then .error ⟨.invalidArgument, "source_volume_ids must not contain an empty id"⟩
    else if id ∈ seen then
      .error ⟨.invalidArgument, "source volume " ++ Err.quoted id ++ " is listed more than once"⟩
    else checkSourceIDs (id :: seen) rest

/-- What `buildSpec` records of a source. -/
def captureMember (groupName id snapUUID refUUID : String) (src : ZfsDataset) :
    ZfsGroupSnapshotMember where
  sourceVolume := id
  dataset := src.spec.dataset
  snapshotName := "csi-snap-" ++ snapUUID
  zfsSnapshotRef := memberRefName groupName refUUID
  sourceType := some src.spec.type
  sourceFSType := src.status.fsType
  sourceVolblocksize := (src.spec.volume.map (·.volblocksize)).getD ""
  sourceProperties := src.spec.properties

/-- The loop of `buildSpec`. -/
def buildMembers (groupName : String) :
    List String → ZfsGroupSnapshotSpec → List String →
      CreateProc Status (ZfsGroupSnapshotSpec × List String)
  | [], spec, pools => return (spec, pools)
  | id :: rest, spec, pools => do
    let src ← getSource id
    let snapUUID ← newUUID
    let refUUID ← newUUID
    let m := captureMember groupName id snapUUID refUUID src
    buildMembers groupName rest { poolGUID := src.spec.poolGUID, members := spec.members ++ [m] }
      (pools.insert src.spec.poolGUID)

/-- `buildSpec`. -/
def buildSpec (groupName : String) (ids : List String) : CreateProc Status ZfsGroupSnapshotSpec :=
  do
  let (spec, pools) ← buildMembers groupName ids {} []
  refuseIf (pools.length > 1)
    ⟨.failedPrecondition, "source volumes span several pools (" ++
      Text.join ", " (pools.insertionSort (· ≤ ·)) ++
        "); a group snapshot is atomic only within one pool"⟩
  return spec

/-- `CreateVolumeGroupSnapshot` up to its wait loop. -/
def ensureGroup (name : String) (ids : List String) : Nat → CreateProc Status Unit
  | 0 => throw ⟨.aborted, "deadline exceeded"⟩
  | rounds + 1 => do
    match ← (ask (.getGroup name)).outcome with
    | .ok existing =>
      if existing.metadata.terminating then
        throw ⟨.aborted, "group snapshot " ++ Err.quoted name ++ " is being deleted"⟩
      else if !sameSet (existing.spec.members.map (·.sourceVolume)) ids then
        throw ⟨.alreadyExists, "group snapshot " ++ Err.quoted name ++
          " already exists for a different set of source volumes"⟩
      else return ()
    | .error e =>
      if e.isNotFound then
        let spec ← buildSpec name ids
        match ← (ask (.createGroup name spec)).outcome with
        | .ok () => return ()
        | .error (.alreadyExists _) => ensureGroup name ids rounds
        | .error e => throw (internal "create ZfsGroupSnapshot" name e)
      else throw (internal "get ZfsGroupSnapshot" name e)

/-- `waitGroupReady`. -/
def waitGroupReady (name : String) (rounds : Nat) : CreateProc Status ZfsGroupSnapshot :=
  Program.Proc.poll (.pollGroup name) (internal "get ZfsGroupSnapshot" name)
    (fun grp : ZfsGroupSnapshot =>
      if grp.metadata.terminating then
        some (.error ⟨.aborted, "group snapshot " ++ Err.quoted name ++ " is being deleted"⟩)
      else if grp.status.phase = some .ready ∧ grp.status.readyToUse ∧
        grp.status.creationTime.isSome then
        some (.ok grp)
      else if grp.status.phase = some .error ∨ grp.status.phase = some .lost then
        some (.error ⟨.internal, "group snapshot " ++ Err.quoted name ++ " failed: " ++
          grp.status.message⟩)
      else none)
    ⟨.deadlineExceeded, "timed out waiting for group snapshot " ++ Err.quoted name ++
      " to become ready"⟩ rounds

/-- The members of `groupMessage`, in the order of the spec. -/
def memberMessages (grp : ZfsGroupSnapshot) : List ZfsGroupSnapshotMember →
    CreateProc Status (List SnapshotMessage)
  | [] => return []
  | m :: rest => do
    let child ← orStatus (ask (.getSnapshot m.zfsSnapshotRef)) fun e =>
      if e.isNotFound then
        if grp.status.provisionedAt = none then
          ⟨.aborted, "group snapshot " ++ Err.quoted grp.name ++
            " is still being provisioned: member snapshot " ++
            Err.quoted m.zfsSnapshotRef ++ " (source volume " ++ Err.quoted m.sourceVolume ++
            ") has not been created yet"⟩
        else ⟨.failedPrecondition, "member snapshot " ++ Err.quoted m.zfsSnapshotRef ++
          " (source volume " ++
          Err.quoted m.sourceVolume ++ ") of group snapshot " ++ Err.quoted grp.name ++
            " no longer exists"⟩
      else internal "get ZfsSnapshot" m.zfsSnapshotRef e
    let rest ← memberMessages grp rest
    return { snapshotMessage child with groupSnapshotID := grp.name } :: rest

/-- `groupMessage`. -/
def groupMessage (grp : ZfsGroupSnapshot) : CreateProc Status GroupMessage :=
  match grp.status.creationTime with
  | none => throw ⟨.aborted, "group snapshot " ++ Err.quoted grp.name ++ " has not been taken yet"⟩
  | some creationTime => do
    let snapshots ← memberMessages grp grp.spec.members
    return { groupSnapshotID := grp.name, snapshots, creationTime
             readyToUse := grp.status.readyToUse && snapshots.all (·.readyToUse) }

/-- `CreateVolumeGroupSnapshot`. A create that loses a race starts over, and checks the request
again. -/
def createVolumeGroupSnapshot (req : CreateGroupRequest) (rounds : Nat) :
    CreateProc Status GroupMessage := do
  refuseIf (req.name = "") ⟨.invalidArgument, "group snapshot name is required"⟩
  refuseIf (req.sourceVolumeIDs = []) ⟨.invalidArgument, "source_volume_ids is required"⟩
  check (checkSourceIDs [] req.sourceVolumeIDs)
  ensureGroup req.name req.sourceVolumeIDs rounds
  let grp ← waitGroupReady req.name rounds
  groupMessage grp

end SimpleZfsCsi.Provision
