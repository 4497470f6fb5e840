import SimpleZfsCsi.Agent.Detach

/-!
# Reconciling a ZfsDataset
-/

namespace SimpleZfsCsi.Agent

open Library Api

/-- `zfsDatasetFinalizer`. -/
def zfsDatasetFinalizer : String := "storage.simple-zfs-csi.io/zfsdataset"

/-- `sourceRetryInterval` and `lostRecheckInterval`. -/
def sourceRetryInterval : Nat := 10

def lostRecheckInterval : Nat := 60

/-! ## Sizes and properties -/

/-- The spellings of "unlimited" are one. -/
def normRefquota (s : String) : String :=
  let s := Text.trimSpace s
  if s = "" ∨ s = "-" ∨ s = "0" ∨ s = "none" then "none" else s

def refquotaEqual (current desired : String) : Bool := normRefquota current = normRefquota desired

/-- `alignUp`, in 64-bit arithmetic. -/
def alignUp (size block : Int) : Int :=
  if block ≤ 0 ∨ size ≤ 0 then (if size < 0 then 0 else size)
  else if size % block ≠ 0 then (size + (block - size % block)).bmod (2 ^ 64) else size

/-- `volblockBytes`, in 64-bit arithmetic. -/
def volblockBytes (s : String) : Int :=
  let s := Text.trimSpace (Text.toLower s)
  match s.toList.reverse with
  | [] => 16384
  | c :: front =>
    let (mult, digits) : Int × String :=
      if c = 'k' then (1024, String.ofList front.reverse)
      else if c = 'm' then (1024 * 1024, String.ofList front.reverse)
      else if c = 'g' then (1024 * 1024 * 1024, String.ofList front.reverse)
      else (1, s)
    let n := Text.parseInt (Text.trimSpace digits)
    if n.2 = false ∨ n.1 ≤ 0 then 16384 else (n.1 * mult).bmod (2 ^ 64)

/-- The quota of a filesystem, unless it is zero. -/
def quotaOf (vol : ZfsDataset) : Option Nat :=
  (vol.spec.filesystem.bind (·.quota)).filter (· ≠ 0)

/-- `filesystemProps`. -/
def filesystemProps (vol : ZfsDataset) : Props :=
  vol.spec.properties ++ ((quotaOf vol).map fun q => ("refquota", toString q)).toList

/-- `volumeProps`. -/
def volumeProps (vol : ZfsDataset) : Props :=
  vol.spec.properties ++
    ((vol.spec.volume.filter (·.volblocksize ≠ "")).map
      fun v => ("volblocksize", v.volblocksize)).toList

/-- `datasetProvisioned`. -/
def datasetProvisioned (vol : ZfsDataset) : Bool := vol.status.provisionedAt.isSome

/-! ## The reconciler -/

structure ZfsDatasetReconciler where
  nodeName : String

namespace ZfsDatasetReconciler

variable (r : ZfsDatasetReconciler)

/-- `setStatusAt`. -/
def setStatusAt (vol : ZfsDataset) (phase : DatasetPhase) (volPath reason message : String)
    (creation : Option Nat) : AgentProc Unit := do
  let provisionedAt ← (if phase = .ready ∧ vol.status.provisionedAt = none then some <$> ask .now
    else pure vol.status.provisionedAt)
  ask (.patchDatasetStatus vol.name vol.status { vol.status with
    phase := some phase
    path := volPath
    observedGeneration := vol.metadata.generation
    message
    creationTime := creation.or vol.status.creationTime
    provisionedAt
    conditions := setStatusCondition vol.status.conditions
      { type := "Ready", status := phase = .ready, reason, message
        observedGeneration := vol.metadata.generation } })

/-- `setStatus`. -/
def setStatus (vol : ZfsDataset) (phase : DatasetPhase) (volPath reason message : String) :
    AgentProc Unit :=
  setStatusAt vol phase volPath reason message none

/-- `releaseFinalizer`. -/
def releaseFinalizer (vol : ZfsDataset) : AgentProc Unit :=
  retryOnConflict (do
    match ← (ask (.getDataset vol.name)).outcome with
    | .error e => if e.isNotFound then return () else throw e
    | .ok cur =>
      if cur.containsFinalizer zfsDatasetFinalizer then
        ask (.updateDataset (cur.removeFinalizer zfsDatasetFinalizer))
      else return ()) defaultRetries

/-! ### Creating -/

/-- `resolveSnapshotRef`: the raw snapshot behind a ZfsSnapshot, wherever promotes have put it. -/
def resolveSnapshotRef (vol : ZfsDataset) (poolName name : String) : AgentProc String := do
  match ← (ask (.getSnapshot name)).outcome with
  | .error e =>
    if e.isNotFound then
      throw (.sourceNotReady ("source ZfsSnapshot " ++ Err.quoted name ++ " not found"))
    else throw e
  | .ok snap =>
    if snap.metadata.terminating then
      throw (.sourceNotReady ("source ZfsSnapshot " ++ Err.quoted name ++ " is being deleted"))
    else if snap.status.phase ≠ some .ready then
      throw (.sourceNotReady ("source ZfsSnapshot " ++ Err.quoted name ++ " is in phase " ++
        Err.quoted (SnapshotPhase.text snap.status.phase) ++ ", not Ready"))
    else if snap.spec.poolGUID ≠ vol.spec.poolGUID then
      throw (.other ("source ZfsSnapshot " ++ Err.quoted name ++ " is on pool " ++
        snap.spec.poolGUID ++ ", not " ++ vol.spec.poolGUID))
    else
      let srcPath ← resolveDatasetPath snap.spec.sourceVolume snap.spec.dataset
      let recorded ← liftExcept (snapshotFullName poolName srcPath snap.spec.snapshotName)
      let raw ← locateRawSnapshot (backingCloneFullName poolName srcPath snap.spec.snapshotName)
        recorded snap.spec.snapshotName
      if raw = "" then
        throw (.sourceNotReady ("raw snapshot of ZfsSnapshot " ++ Err.quoted name ++ " not found"))
      else return raw

/-- `cloneFromDataset`: snapshot the source as `@clone-<name>` and clone that. -/
def cloneFromDataset (vol : ZfsDataset) (poolName srcPath dest : String) (props : Props) :
    AgentProc Unit := do
  let snapFull := poolName ++ "/" ++ srcPath ++ "@clone-" ++ cloneSnapshotSuffix vol.name
  ask (.snapshot [snapFull])
  ensureLabels snapFull roleCloneOrigin (uidText vol)
  ask (.clone snapFull dest props)

def noSource : Err :=
  .other "spec.source sets none of snapshot, volume, zfsSnapshotRef, zfsDatasetRef"

/-- `clone`. -/
def clone (vol : ZfsDataset) (src : DatasetSource) (poolName dest : String) : AgentProc Unit := do
  let props := mergeLabels vol.spec.properties roleVolume (uidText vol)
  match src with
  | .snapshot ref =>
    if ref = "" then throw noSource
    else ask (.clone (poolName ++ "/" ++ Text.trimLeftSlashes ref) dest props)
  | .volume path =>
    if path = "" then throw noSource
    else cloneFromDataset vol poolName (Text.trimSlashes path) dest props
  | .zfsSnapshotRef name =>
    let raw ← resolveSnapshotRef vol poolName name
    ask (.clone raw dest props)
  | .zfsDatasetRef name =>
    match ← (ask (.getDataset name)).outcome with
    | .error e =>
      if e.isNotFound then
        throw (.sourceNotReady ("source ZfsDataset " ++ Err.quoted name ++ " not found"))
      else throw e
    | .ok src =>
      if src.metadata.terminating then
        throw (.sourceNotReady ("source ZfsDataset " ++ Err.quoted src.name ++ " is being deleted"))
      else if src.spec.poolGUID ≠ vol.spec.poolGUID then
        throw (.other ("source ZfsDataset " ++ Err.quoted src.name ++ " is on pool " ++
          src.spec.poolGUID ++ ", not " ++ vol.spec.poolGUID))
      else cloneFromDataset vol poolName (Text.trimSlashes src.spec.dataset) dest props

/-- `create`. -/
def create (vol : ZfsDataset) (poolName full : String) : AgentProc Unit :=
  match vol.spec.source with
  | some src => clone vol src poolName full
  | none =>
    match vol.spec.type with
    | .filesystem =>
      ask (.createDataset full (mergeLabels (filesystemProps vol) roleVolume (uidText vol)))
    | .volume =>
      match vol.spec.volume with
      | none => throw (.other "spec.volume is required for volume")
      | some v =>
        ask (.createZvol full v.size (mergeLabels (volumeProps vol) roleVolume (uidText vol)))

/-- `applyRootOwnership`. -/
def applyRootOwnership (vol : ZfsDataset) (baseMountPath poolName : String) : AgentProc Unit :=
  match vol.spec.type, vol.spec.filesystem with
  | .filesystem, some fs =>
    if fs.uid = none ∧ fs.gid = none ∧ fs.mode = "" then return ()
    else do
      let mountpoint ← liftExcept
        (deriveVolumePath .filesystem baseMountPath poolName vol.spec.dataset)
      ask (.applyOwnership mountpoint fs.uid fs.gid fs.mode)
  | _, _ => return ()

/-- `ensureSize`: refquota up or down, volsize up only. -/
def ensureSize (vol : ZfsDataset) (full : String) : AgentProc Unit := do
  match vol.spec.type with
  | .filesystem =>
    let desired := ((quotaOf vol).map toString).getD "none"
    let current ← ask (.get full "refquota")
    if refquotaEqual current desired then return ()
    else ask (.setProperty full "refquota" desired)
  | .volume =>
    match vol.spec.volume with
    | none => return ()
    | some v =>
      let desired := alignUp v.size (volblockBytes v.volblocksize)
      let current ← ask (.get full "volsize")
      if (Text.parseInt (Text.trimSpace current)).1 < desired then
        ask (.setProperty full "volsize" (toString desired))
      else return ()

/-- Labels belong to provisioning: a provisioned dataset is never touched again. -/
def ensureVolumeLabels (vol : ZfsDataset) (full : String) : AgentProc Unit :=
  if datasetProvisioned vol then return () else ensureLabels full roleVolume (uidText vol)

/-- What follows once the dataset exists: labels, size, and the status. -/
def settle (vol : ZfsDataset) (pool : ZfsPool) (full : String) : AgentProc Result := do
  ensureVolumeLabels vol full
  match ← (ensureSize vol full).outcome with
  | .error e =>
    setStatus vol .error "" "ResizeFailed" e.message
    return {}
  | .ok () =>
    match deriveVolumePath vol.spec.type pool.status.baseMountPath pool.status.poolName
        vol.spec.dataset with
    | .error e =>
      setStatus vol .error "" "PathDeriveFailed" e.message
      return {}
    | .ok volPath =>
      let creation ← (if vol.status.creationTime = none then some <$> snapshotCreationTime full
        else pure none)
      setStatusAt vol .ready volPath "Ready" ("provisioned " ++ full ++ " on " ++
        r.nodeName) creation
      return {}

/-- The dataset does not exist: it is lost, or has to be created. -/
def provision (vol : ZfsDataset) (pool : ZfsPool) (full : String) : AgentProc Result := do
  if datasetProvisioned vol then
    if vol.status.phase ≠ some .lost then
      setStatus vol .lost vol.status.path "DatasetLost"
        (full ++ " no longer exists; a provisioned dataset is never re-created in place")
      return { requeueAfter := lostRecheckInterval }
    else return { requeueAfter := lostRecheckInterval }
  else
    match ← (create vol pool.status.poolName full).outcome with
    | .error e =>
      if e.isSourceNotReady then
        setStatus vol .error "" "SourceNotReady" e.message
        return { requeueAfter := sourceRetryInterval }
      else
        setStatus vol .error "" "CreateFailed" e.message
        return {}
    | .ok () =>
      match ← (applyRootOwnership vol pool.status.baseMountPath pool.status.poolName).outcome with
      | .error e =>
        setStatus vol .error "" "OwnershipFailed" e.message
        return {}
      | .ok () => r.settle vol pool full

/-- The dataset of an object that is not being deleted. -/
def ensure (vol : ZfsDataset) (pool : ZfsPool) : AgentProc Result := do
  match datasetName pool.status.poolName vol.spec.dataset with
  | .error e =>
    setStatus vol .error "" "InvalidDataset" e.message
    return {}
  | .ok full =>
    match ← (ask (.get full "type")).outcome with
    | .ok _ => r.settle vol pool full
    | .error e =>
      if e.isNotExist then r.provision vol pool full
      else
        setStatus vol .error "" "LookupFailed" e.message
        return {}

/-! ### Deleting -/

/-- Whether a dataset was cloned directly from another one. -/
def isDirectClone : Option DatasetSource → Bool
  | some (.volume path) => path ≠ ""
  | some (.zfsDatasetRef _) => true
  | _ => false

/-- `releaseCloneOrigin`: mark the `@clone-<name>` snapshot of a directly cloned volume. -/
def releaseCloneOrigin (vol : ZfsDataset) (full : String) : AgentProc Unit := do
  if isDirectClone vol.spec.source then
    let suffix := "@clone-" ++ cloneSnapshotSuffix vol.name
    match ← (ask (.get (full ++ suffix) "type")).outcome with
    | .ok _ => ask (.destroySnapshotDeferred (full ++ suffix))
    | .error e =>
      if e.isNotExist then
        match ← (ask (.get full "origin")).outcome with
        | .error e => if e.isNotExist then return () else throw e
        | .ok origin =>
          if Text.endsWith (Text.trimSpace origin) suffix then
            ask (.destroySnapshotDeferred (Text.trimSpace origin))
          else return ()
      else throw e
  else return ()

/-- `beforeDestroy`. -/
def beforeDestroy (vol : ZfsDataset) (poolName full : String) : AgentProc Unit := do
  releaseCloneOrigin vol full
  detachAndCleanSnapshots vol.spec.poolGUID poolName full

/-- The deletion of an object whose pool is hosted here. -/
def reconcileDelete (vol : ZfsDataset) (pool : ZfsPool) : AgentProc Result := do
  let full ← liftExcept (datasetName pool.status.poolName vol.spec.dataset)
  match ← (beforeDestroy vol pool.status.poolName full).outcome with
  | .error e =>
    -- a failed status write does not mask the refusal
    let _ ← (setStatus vol .error vol.status.path "DeleteBlocked" e.message).outcome
    throw e
  | .ok () =>
    ask (.destroy full false)
    releaseFinalizer vol
    return {}

/-- `Reconcile`. -/
def reconcile (name : String) : AgentProc Result := do
  match ← (ask (.getDataset name)).outcome with
  | .error e => if e.isNotFound then return {} else throw e
  | .ok vol =>
    let found ← findPool vol.spec.poolGUID
    if vol.metadata.terminating then
      if vol.containsFinalizer zfsDatasetFinalizer then
        match found with
        | none =>
          releaseFinalizer vol
          return {}
        | some pool =>
          if hostedHere r.nodeName found then reconcileDelete vol pool else return {}
      else return {}
    else
      match found with
      | none => return {}
      | some pool =>
        if hostedHere r.nodeName found then
          if vol.containsFinalizer zfsDatasetFinalizer then r.ensure vol pool
          else
            ask (.updateDataset (vol.addFinalizer zfsDatasetFinalizer))
            return {}
        else return {}

end ZfsDatasetReconciler

end SimpleZfsCsi.Agent
