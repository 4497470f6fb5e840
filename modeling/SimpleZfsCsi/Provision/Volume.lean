import SimpleZfsCsi.Provision.Calls

/-!
# Creating a volume

`CreateVolume` resolves a request to the spec of a `ZfsDataset`, creates it or finds one of
that name that is compatible, and waits until it is ready. A number of rounds stands for the
deadline of a call.
-/

namespace SimpleZfsCsi.Provision

open Library Api Csi

/-- `VolumeContentSource`, which may come without a type. -/
inductive ContentSource where
  | snapshot (id : String)
  | volume (id : String)
  | untyped
  deriving DecidableEq, Repr

structure CreateVolumeRequest where
  name : String
  capabilities : List VolumeCapability := []
  parameters : Params := FinMap.empty
  /-- required bytes and limit bytes -/
  capacityRange : Option (Int × Int) := none
  contentSource : Option ContentSource := none

structure CreateVolumeResponse where
  volumeID : String
  capacityBytes : Int
  contentSource : Option ContentSource
  deriving DecidableEq, Repr

def capacityBytes : Option (Int × Int) → Int
  | none => 0
  | some (required, limit) => if required > 0 then required else limit

def hasBlockCapability (caps : List VolumeCapability) : Bool := caps.any (·.block)

/-- `requestedFsType`: of the first mount capability that has one. -/
def requestedFsType (caps : List VolumeCapability) : String :=
  match caps.find? fun c => !c.block && c.fsType ≠ "" with
  | some c => c.fsType
  | none => ""

/-! ## The spec -/

def volumeSpec (rp : ResolvedParams) (dataset : String) (sizeBytes : Int)
    (source : Option DatasetSource) :
    ZfsDatasetSpec :=
  let spec : ZfsDatasetSpec := {
    poolGUID := rp.poolGUID, dataset, type := rp.datasetType, properties := rp.properties, source }
  match rp.datasetType with
  | .filesystem =>
    let fs : FilesystemConfig := {
      quota := if sizeBytes > 0 then some sizeBytes.toNat else none
      uid := rp.uid, gid := rp.gid, mode := rp.mode }
    { spec with filesystem := if fs = {} then none else some fs }
  | .volume =>
    { spec with volume := some { size := sizeBytes.toNat, volblocksize := rp.volblocksize } }

/-- `datasetSourceEqual`, which looks at the two paths only. -/
def datasetSourceEqual (a b : Option DatasetSource) : Bool :=
  let snapshot : DatasetSource → String
    | .snapshot ref => ref
    | _ => ""
  let volume : DatasetSource → String
    | .volume path => path
    | _ => ""
  match a, b with
  | some a, some b => snapshot a = snapshot b && volume a = volume b
  | none, none => true
  | _, _ => false

def volumeSize (spec : ZfsDatasetSpec) : Option Nat :=
  match spec.type with
  | .volume => spec.volume.map (·.size)
  | .filesystem => spec.filesystem.bind (·.quota)

/-- `volumeSpecCompatible`; quantities are numbers here. -/
def volumeSpecCompatible (existing desired : ZfsDatasetSpec) : Bool :=
  if existing.poolGUID ≠ desired.poolGUID ∨ existing.type ≠ desired.type then false
  else if !datasetSourceEqual existing.source desired.source then false
  else volumeSize existing = volumeSize desired

/-! ## Sources -/

def normalizedDatasetPrefix (start : String) : String :=
  let start := Text.trimSlashes start
  if start = "" then "." else start

def checkSamePrefix (rp : ResolvedParams) (sourceDataset kind id : String) : Except Status Unit :=
  if !rp.rejectCrossPrefixClones then .ok ()
  else
    let srcPrefix := Text.dir (Text.trimSlashes sourceDataset)
    let want := normalizedDatasetPrefix rp.datasetPrefix
    if srcPrefix ≠ want then
      .error ⟨.invalidArgument, "cross-prefix " ++ kind ++ " unsupported: " ++ Err.quoted id ++
        "'s data lives under prefix " ++ Err.quoted srcPrefix ++ ", target prefix is " ++
          Err.quoted want⟩
    else .ok ()

/-- `volblocksizeBytes`, in 64-bit arithmetic. -/
def volblocksizeBytes (s : String) : Int :=
  let s := Text.trimSpace (Text.toLower s)
  if s = "" then 16384
  else
    let (mult, digits) := match s.toList.reverse with
      | 'k' :: rest => ((1024 : Int), String.ofList rest.reverse)
      | 'm' :: rest => (1024 * 1024, String.ofList rest.reverse)
      | 'g' :: rest => (1024 * 1024 * 1024, String.ofList rest.reverse)
      | _ => (1, s)
    let (n, ok) := Text.parseInt (Text.trimSpace digits)
    if !ok || n ≤ 0 then 16384 else (n * mult).bmod (2 ^ 64)

/-- What the compatibility of a clone is checked against. -/
structure SourceStructure where
  name : String
  volblocksize : Option String
  fsType : String
  properties : List (String × String)

def SourceStructure.ofDataset (ds : ZfsDataset) : SourceStructure where
  name := ds.name
  volblocksize := ds.spec.volume.map (·.volblocksize)
  fsType := ds.status.fsType
  properties := ds.spec.properties

/-- `capturedSourceDataset`. -/
def capturedSourceDataset (snap : ZfsSnapshot) : Option SourceStructure :=
  if snap.spec.sourceFSType = "" ∧ snap.spec.sourceVolblocksize = "" ∧
    snap.spec.sourceProperties = [] then none
  else some {
    name := if snap.spec.sourceVolume = "" then snap.name else snap.spec.sourceVolume
    volblocksize :=
      if snap.spec.sourceVolblocksize ≠ "" then some snap.spec.sourceVolblocksize else none
    fsType := snap.spec.sourceFSType
    properties := snap.spec.sourceProperties }

/-- `checkCloneCompatibility`. -/
def checkCloneCompatibility (rp : ResolvedParams) (src : Option SourceStructure)
    (requestedFS : String) :
    Except Status Unit := do
  match src with
  | none => return ()
  | some src =>
    if rp.datasetType = .volume then
      if let some actual := src.volblocksize then
        if volblocksizeBytes rp.volblocksize ≠ volblocksizeBytes actual then
          throw ⟨.invalidArgument, "volblocksize mismatch: target resolves to " ++
            toString (volblocksizeBytes rp.volblocksize) ++ " bytes, source " ++
              Err.quoted src.name ++ " is " ++
            toString (volblocksizeBytes actual) ++
              " bytes (a clone/restore cannot change volblocksize)"⟩
        if requestedFS ≠ "" ∧ src.fsType ≠ "" ∧ requestedFS ≠ src.fsType then
          throw ⟨.invalidArgument, "fsType mismatch: requested " ++ Err.quoted requestedFS ++
            ", source " ++
            Err.quoted src.name ++ " was formatted as " ++ Err.quoted src.fsType ++
            " (a clone/restore cannot change the on-disk filesystem)"⟩
    match rp.properties.find? fun p => (src.properties.lookup p.1).any (· ≠ p.2) with
    | none => return ()
    | some (k, v) =>
      throw ⟨.invalidArgument, "property " ++ Err.quoted k ++ " mismatch: target requests " ++
        Err.quoted v ++
        ", source " ++ Err.quoted src.name ++ " has " ++
          Err.quoted ((src.properties.lookup k).getD "") ++
        " (a clone/restore cannot change structural ZFS properties)"⟩

/-- What the controller service is configured with. -/
structure ControllerServer where
  defaultsConfigMap : String := ""
  defaultsNamespace : String := ""
  annotationPrefix : String := ""
  /-- `yaml.Unmarshal` into a map of strings -/
  unmarshal : String → Except String Params

namespace ControllerServer

/-- `defaultParams`. -/
def defaultParams (c : ControllerServer) : CreateProc Status Params := do
  if c.defaultsConfigMap = "" then return FinMap.empty
  else
    match ← (ask (.getConfigMap c.defaultsNamespace c.defaultsConfigMap)).outcome with
    | .error e =>
      if e.isNotFound then return FinMap.empty
      else throw ⟨.internal, "get default-parameters ConfigMap " ++ c.defaultsNamespace ++ "/" ++
        c.defaultsConfigMap ++ ": " ++ e.message⟩
    | .ok raw =>
      if raw = "" then return FinMap.empty
      else
        match c.unmarshal raw with
        | .ok out => return out
        | .error e =>
          throw ⟨.internal, "parse default parameters from " ++ c.defaultsNamespace ++ "/" ++
            c.defaultsConfigMap ++ "[parameters.yaml]: " ++ e⟩

/-- `pvcAnnotations`. -/
def pvcAnnotations (c : ControllerServer) (params : Params) : CreateProc Status Params := do
  let pvcName := params.get "csi.storage.k8s.io/pvc/name"
  let pvcNamespace := params.get "csi.storage.k8s.io/pvc/namespace"
  if c.annotationPrefix = "" ∨ pvcName = "" ∨ pvcNamespace = "" then return FinMap.empty
  else
    match ← (ask (.getPVC pvcNamespace pvcName)).outcome with
    | .error e =>
      if e.isNotFound then return FinMap.empty
      else throw ⟨.internal, "get PVC " ++ pvcNamespace ++ "/" ++ pvcName ++ ": " ++ e.message⟩
    | .ok annotations => return annotations

/-- `sourceDatasetType`. -/
def sourceDatasetType (name : String) : CreateProc Status (Option DatasetType) := do
  if name = "" then return none
  else
    match ← (ask (.getDataset name)).outcome with
    | .error _ => return none
    | .ok ds => return some ds.spec.type

/-- `snapshotSourceType`. -/
def snapshotSourceType (snap : ZfsSnapshot) : CreateProc Status (Option DatasetType) :=
  match snap.spec.sourceType with
  | some t => return some t
  | none => sourceDatasetType snap.spec.sourceVolume

/-- `snapshotSourceDataset`. -/
def snapshotSourceDataset (snap : ZfsSnapshot) : CreateProc Status String := do
  if snap.spec.sourceVolume = "" then return snap.spec.dataset
  else
    match ← (ask (.getDataset snap.spec.sourceVolume)).outcome with
    | .error _ => return snap.spec.dataset
    | .ok ds => return ds.spec.dataset

/-- `checkCloneCompatibility`, of a restore. -/
def snapshotStructure (snap : ZfsSnapshot) : CreateProc Status (Option SourceStructure) := do
  if snap.spec.sourceVolume = "" then return capturedSourceDataset snap
  else
    match ← (ask (.getDataset snap.spec.sourceVolume)).outcome with
    | .error _ => return capturedSourceDataset snap
    | .ok src => return some (.ofDataset src)

def protocolText : Protocol → String
  | .nfs => "nfs"
  | .nvmeof => "nvmeof"

/-- `resolveContentSource`, of a snapshot. -/
def resolveSnapshotSource (rp : ResolvedParams) (caps : List VolumeCapability) (id : String) :
    CreateProc Status DatasetSource := do
  refuseIf (id = "") ⟨.invalidArgument, "snapshot content source has no snapshot id"⟩
  let snap ← orStatus (ask (.getSnapshot id)) fun e =>
    if e.isNotFound then ⟨.notFound, "source snapshot " ++ Err.quoted id ++ " not found"⟩
    else internal "get source snapshot" id e
  refuseIf (snap.spec.poolGUID ≠ rp.poolGUID)
    ⟨.invalidArgument, "cross-pool restore unsupported: snapshot " ++ Err.quoted id ++
      " is on pool " ++
      snap.spec.poolGUID ++ ", target pool is " ++ rp.poolGUID⟩
  let srcType ← snapshotSourceType snap
  refuseIf (srcType ≠ none ∧ srcType ≠ some rp.datasetType)
    ⟨.invalidArgument, "cannot restore a " ++ (srcType.map typeText).getD "" ++
      " snapshot into a " ++
      typeText rp.datasetType ++ " (protocol " ++ protocolText rp.protocol ++ ") volume"⟩
  let shape ← snapshotStructure snap
  check (checkCloneCompatibility rp shape (requestedFsType caps))
  refuseIf snap.metadata.terminating
    ⟨.failedPrecondition, "snapshot " ++ Err.quoted id ++ " is being deleted; retry"⟩
  refuseIf (snap.status.phase ≠ some .ready)
    ⟨.failedPrecondition, "snapshot " ++ Err.quoted id ++ " is in phase " ++
      Err.quoted (SnapshotPhase.text snap.status.phase) ++ ", not yet restorable; retry"⟩
  let dataset ← snapshotSourceDataset snap
  check (checkSamePrefix rp dataset "restore" id)
  return .zfsSnapshotRef id

/-- `resolveContentSource`, of a volume. -/
def resolveVolumeSource (rp : ResolvedParams) (caps : List VolumeCapability) (id : String) :
    CreateProc Status DatasetSource := do
  refuseIf (id = "") ⟨.invalidArgument, "volume content source has no volume id"⟩
  let src ← orStatus (ask (.getDataset id)) fun e =>
    if e.isNotFound then ⟨.notFound, "source volume " ++ Err.quoted id ++ " not found"⟩
    else internal "get source volume" id e
  refuseIf (src.spec.poolGUID ≠ rp.poolGUID)
    ⟨.invalidArgument, "cross-pool clone unsupported: volume " ++ Err.quoted id ++ " is on pool " ++
      src.spec.poolGUID ++ ", target pool is " ++ rp.poolGUID⟩
  refuseIf (src.spec.type ≠ rp.datasetType)
    ⟨.invalidArgument, "cannot clone a " ++ typeText src.spec.type ++ " volume into a " ++
      typeText rp.datasetType ++ " (protocol " ++ protocolText rp.protocol ++ ") volume"⟩
  check (checkSamePrefix rp src.spec.dataset "clone" id)
  check (checkCloneCompatibility rp (some (.ofDataset src)) (requestedFsType caps))
  return .zfsDatasetRef id

/-- `resolveContentSource`. -/
def resolveContentSource (rp : ResolvedParams) (req : CreateVolumeRequest) :
    CreateProc Status (Option DatasetSource) :=
  match req.contentSource with
  | none => return none
  | some (.snapshot id) => some <$> resolveSnapshotSource rp req.capabilities id
  | some (.volume id) => some <$> resolveVolumeSource rp req.capabilities id
  | some .untyped => throw ⟨.invalidArgument, "unsupported volume content source"⟩

/-! ## The call -/

/-- What a request resolves to. -/
structure DesiredVolume where
  sizeBytes : Int
  spec : ZfsDatasetSpec
  deriving DecidableEq, Repr

/-- `CreateVolume` up to the spec that it wants. -/
def desiredVolume (c : ControllerServer) (req : CreateVolumeRequest) :
    CreateProc Status DesiredVolume := do
  refuseIf (req.name = "") ⟨.invalidArgument, "volume name is required"⟩
  refuseIf (req.capabilities = []) ⟨.invalidArgument, "volume capabilities are required"⟩
  let annotations ← c.pvcAnnotations req.parameters
  let defaults ← c.defaultParams
  let rp ← check ((parseParams (resolveParameters defaults req.parameters annotations
    c.annotationPrefix)).mapError (Status.mk .invalidArgument))
  refuseIf (hasBlockCapability req.capabilities ∧ rp.protocol = .nfs)
    ⟨.invalidArgument, "block volumeMode requires protocol nvmeof"⟩
  refuseIf (rp.protocol = .nvmeof ∧ req.capabilities.any hasMultiNodeAccessMode)
    ⟨.invalidArgument, "protocol nvmeof is single-node only; " ++
      "multi-node (RWX) access modes are not supported (use protocol nfs)"⟩
  let sizeBytes := capacityBytes req.capacityRange
  refuseIf (rp.datasetType = .volume ∧ sizeBytes ≤ 0)
    ⟨.invalidArgument, "capacity is required for nvmeof (zvol) volumes"⟩
  let source ← resolveContentSource rp req
  let uuid ← newUUID
  return { sizeBytes, spec := volumeSpec rp (rp.dataset ("csi-vol-" ++ uuid)) sizeBytes source }

/-- `ensureVolume`. A create that loses a race starts over. -/
def ensureVolume (name : String) (desired : ZfsDatasetSpec) : Nat → CreateProc Status ZfsDatasetSpec
  | 0 => throw ⟨.aborted, "deadline exceeded"⟩
  | rounds + 1 => do
    match ← (ask (.getDataset name)).outcome with
    | .error e =>
      if e.isNotFound then
        match ← (ask (.createDataset name desired)).outcome with
        | .ok () => return desired
        | .error (.alreadyExists _) => ensureVolume name desired rounds
        | .error e => throw (internal "create ZfsDataset" name e)
      else throw (internal "get ZfsDataset" name e)
    | .ok existing =>
      if !volumeSpecCompatible existing.spec desired then
        throw ⟨.alreadyExists, "volume " ++ Err.quoted name ++
          " already exists with different parameters"⟩
      else return existing.spec

/-- `waitVolumeReady`. -/
def waitVolumeReady (name : String) (minGeneration rounds : Nat) : CreateProc Status ZfsDataset :=
  Program.Proc.poll (.pollDataset name) (internal "get ZfsDataset" name) (fun vol : ZfsDataset =>
      let observed := vol.status.observedGeneration ≥ minGeneration
      if observed ∧ vol.status.phase = some .ready then some (.ok vol)
      else if observed ∧ (vol.status.phase = some .error ∨ vol.status.phase = some .lost) then
        some (.error ⟨.internal, "volume " ++ Err.quoted name ++ " provisioning failed: " ++
          vol.status.message⟩)
      else none)
    ⟨.deadlineExceeded, "timed out waiting for volume " ++ Err.quoted name ++
      " to become ready"⟩ rounds

/-- What `CreateVolume` does with the spec that it wants. -/
def provideVolume (req : CreateVolumeRequest) (desired : DesiredVolume) (rounds : Nat) :
    CreateProc Status CreateVolumeResponse := do
  let _ ← ensureVolume req.name desired.spec rounds
  let _ ← waitVolumeReady req.name 0 rounds
  return { volumeID := req.name, capacityBytes := desired.sizeBytes, contentSource :=
    req.contentSource }

/-- `CreateVolume`. -/
def createVolume (c : ControllerServer) (req : CreateVolumeRequest) (rounds : Nat) :
    CreateProc Status CreateVolumeResponse := do
  let desired ← c.desiredVolume req
  provideVolume req desired rounds

end ControllerServer

end SimpleZfsCsi.Provision
