import SimpleZfsCsi.Agent.ZfsDataset

/-!
# Reconciling a ZfsSnapshot

A snapshot is taken on its source and pinned by a backing clone, a sibling of the source that
is cloned from it and takes no snapshots of its own.
-/

namespace SimpleZfsCsi.Agent

open Library Api

/-- `zfsSnapshotFinalizer`. -/
def zfsSnapshotFinalizer : String := "storage.simple-zfs-csi.io/zfssnapshot"

/-- `backingCloneProperties`. -/
def backingCloneProperties : DatasetType → Props
  | .volume => [("volmode", "none")]
  | .filesystem => [("canmount", "off")]

/-- `snapshotRestoreSize`. -/
def snapshotRestoreSize (full : String) : AgentProc (Option Nat) := do
  match ← (ask (.get full "referenced")).outcome with
  | .error _ => return none
  | .ok val =>
    let n := Text.parseInt (Text.trimSpace val)
    if n.2 = false ∨ n.1 < 0 then return none else return some n.1.toNat

structure ZfsSnapshotReconciler where
  nodeName : String

namespace ZfsSnapshotReconciler

variable (r : ZfsSnapshotReconciler)

/-- `setSnapshotStatus`. -/
def setSnapshotStatus (snap : ZfsSnapshot) (phase : SnapshotPhase) (ready : Bool)
    (creation : Option SnapshotTime) (restore : Option Nat) (reason message : String) :
    AgentProc Unit := do
  let provisionedAt ← (if phase = .ready ∧ snap.status.provisionedAt = none then some <$> ask .now
    else pure snap.status.provisionedAt)
  ask (.patchSnapshotStatus snap.name snap.status { snap.status with
    phase := some phase
    readyToUse := ready
    creationTime := creation.or snap.status.creationTime
    provisionedAt
    restoreSize := restore.or snap.status.restoreSize
    observedGeneration := snap.metadata.generation
    message
    conditions := setStatusCondition snap.status.conditions
      { type := "Ready", status := phase = .ready, reason, message
        observedGeneration := snap.metadata.generation } })

/-- Report an error. -/
def setError (snap : ZfsSnapshot) (reason message : String) : AgentProc Result := do
  setSnapshotStatus snap .error false none none reason message
  return {}

/-- `releaseSnapshotFinalizer`. -/
def releaseSnapshotFinalizer (snap : ZfsSnapshot) : AgentProc Unit :=
  retryOnConflict (do
    match ← (ask (.getSnapshot snap.name)).outcome with
    | .error e => if e.isNotFound then return () else throw e
    | .ok cur =>
      if cur.containsFinalizer zfsSnapshotFinalizer then
        ask (.updateSnapshot (cur.removeFinalizer zfsSnapshotFinalizer))
      else return ()) defaultRetries

/-- `sourceDatasetPath`. -/
def sourceDatasetPath (snap : ZfsSnapshot) : AgentProc String :=
  resolveDatasetPath snap.spec.sourceVolume snap.spec.dataset

/-! ### Creating -/

/-- The backing clone exists, and the snapshot becomes Ready. -/
def becomeReady (snap : ZfsSnapshot) (rawFull backingFull : String) : AgentProc Result := do
  ensureLabels backingFull roleBacking (uidText snap)
  let creation ← snapshotCreationTime rawFull
  let restore ← snapshotRestoreSize rawFull
  setSnapshotStatus snap .ready true (some ⟨rawFull, creation⟩) restore "Ready"
    ("snapshot " ++ rawFull ++ " ready on " ++ r.nodeName ++ " (backing clone " ++
      backingFull ++ ")")
  return {}

/-- `reconcileBackingClone`. -/
def reconcileBackingClone (snap : ZfsSnapshot) (pool : ZfsPool) (datasetPath rawFull : String) :
    AgentProc Result := do
  match datasetName pool.status.poolName (backingDataset datasetPath snap.spec.snapshotName) with
  | .error e => setError snap "InvalidBackingClone" e.message
  | .ok backingFull =>
    match snap.spec.sourceType with
    | none => setError snap "InvalidSnapshot" "spec.sourceType is required"
    | some sourceType =>
      match ← (ask (.get backingFull "type")).outcome with
      | .ok _ => r.becomeReady snap rawFull backingFull
      | .error e =>
        if e.isNotExist then
          match ← (ask (.clone rawFull backingFull (mergeLabels (backingCloneProperties sourceType)
              roleBacking (uidText snap)))).outcome with
          | .error e => setError snap "BackingCloneFailed" e.message
          | .ok () => r.becomeReady snap rawFull backingFull
        else setError snap "LookupFailed" e.message

/-- The raw snapshot exists: label it, and go on with the backing clone. -/
def pin (snap : ZfsSnapshot) (pool : ZfsPool) (datasetPath full : String) : AgentProc Result := do
  ensureLabels full roleRaw (uidText snap)
  r.reconcileBackingClone snap pool datasetPath full

/-- Take the snapshot, after the source path was confirmed. -/
def takeRaw (snap : ZfsSnapshot) (pool : ZfsPool) (datasetPath full : String) :
    AgentProc Result := do
  let direct ← sourceDatasetPath snap
  if direct ≠ datasetPath then return { requeueAfter := 1 }
  else if snap.spec.groupSnapshotID ≠ "" then
    setError snap "GroupRawSnapshotMissing" ("raw snapshot " ++ full ++ " of group " ++
      Err.quoted snap.spec.groupSnapshotID ++ " not found; group snapshots are never re-taken")
  else
    match ← (ask (.snapshot [full])).outcome with
    | .error e => setError snap "SnapshotFailed" e.message
    | .ok () => r.pin snap pool datasetPath full

/-- A snapshot that has never been Ready. -/
def provision (snap : ZfsSnapshot) (pool : ZfsPool) (datasetPath : String) : AgentProc Result := do
  match snapshotFullName pool.status.poolName datasetPath snap.spec.snapshotName with
  | .error e => setError snap "InvalidSnapshot" e.message
  | .ok full =>
    match ← (ask (.get full "type")).outcome with
    | .ok _ => r.pin snap pool datasetPath full
    | .error e =>
      if e.isNotExist then r.takeRaw snap pool datasetPath full
      else setError snap "LookupFailed" e.message

/-- `reconcileSettled`: observe a snapshot that has been Ready, and create nothing. -/
def reconcileSettled (snap : ZfsSnapshot) (pool : ZfsPool) (datasetPath : String) :
    AgentProc Result := do
  let backingFull := backingCloneFullName pool.status.poolName datasetPath snap.spec.snapshotName
  let recorded := (snapshotFullName pool.status.poolName datasetPath
    snap.spec.snapshotName).toOption.getD ""
  let raw ← locateRawSnapshot backingFull recorded snap.spec.snapshotName
  if raw ≠ "" then
    if snap.status.phase = some .ready then return {}
    else
      setSnapshotStatus snap .ready true none none "Ready"
        ("raw snapshot " ++ raw ++ " is present again")
      return {}
  else if snap.status.phase = some .lost then return { requeueAfter := lostRecheckInterval }
  else
    setSnapshotStatus snap .lost false none none "PrimitivesLost" ("raw snapshot " ++
      Err.quoted snap.spec.snapshotName ++
        " no longer exists; a snapshot is never re-created in place")
    return { requeueAfter := lostRecheckInterval }

/-- The snapshot of an object that is not being deleted. -/
def ensure (snap : ZfsSnapshot) (pool : ZfsPool) : AgentProc Result := do
  let datasetPath ← sourceDatasetPath snap
  if snap.status.provisionedAt.isSome then reconcileSettled snap pool datasetPath
  else r.provision snap pool datasetPath

/-! ### Deleting -/

/-- `releaseRaw`: mark the raw snapshot for deferred destruction, wherever it is. -/
def releaseRaw (snap : ZfsSnapshot) (backingFull rawFull : String) : AgentProc Unit := do
  let raw ← locateRawSnapshot backingFull rawFull snap.spec.snapshotName
  if raw = "" then return () else ask (.destroySnapshotDeferred raw)

/-- `reconcileDelete`. -/
def reconcileDelete (snap : ZfsSnapshot) (pool : ZfsPool) : AgentProc Result := do
  let datasetPath ← sourceDatasetPath snap
  let rawFull ← liftExcept
    (snapshotFullName pool.status.poolName datasetPath snap.spec.snapshotName)
  let backingFull ← liftExcept
    (datasetName pool.status.poolName (backingDataset datasetPath snap.spec.snapshotName))
  releaseRaw snap backingFull rawFull
  detachAndCleanSnapshots snap.spec.poolGUID pool.status.poolName backingFull
  ask (.destroy backingFull false)
  releaseSnapshotFinalizer snap
  return {}

/-- `Reconcile`. -/
def reconcile (name : String) : AgentProc Result := do
  match ← (ask (.getSnapshot name)).outcome with
  | .error e => if e.isNotFound then return {} else throw e
  | .ok snap =>
    let found ← findPool snap.spec.poolGUID
    if snap.metadata.terminating then
      if snap.containsFinalizer zfsSnapshotFinalizer then
        match found with
        | none =>
          releaseSnapshotFinalizer snap
          return {}
        | some pool =>
          if hostedHere r.nodeName found then reconcileDelete snap pool else return {}
      else return {}
    else
      match found with
      | none => return {}
      | some pool =>
        if hostedHere r.nodeName found then
          if snap.containsFinalizer zfsSnapshotFinalizer then r.ensure snap pool
          else
            ask (.updateSnapshot (snap.addFinalizer zfsSnapshotFinalizer))
            return {}
        else return {}

end ZfsSnapshotReconciler

/-- The object a pass is about. -/
inductive AgentTask where
  | dataset (name : String)
  | snapshot (name : String)
  deriving DecidableEq

def AgentTask.program (nodeName : String) :
    AgentTask → Program AgentCall AgentCall.Ret (Except Err Result)
  | .dataset name => (ZfsDatasetReconciler.reconcile ⟨nodeName⟩ name).run
  | .snapshot name => (ZfsSnapshotReconciler.reconcile ⟨nodeName⟩ name).run

end SimpleZfsCsi.Agent
