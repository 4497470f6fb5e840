import SimpleZfsCsi.Csi.Common
import SimpleZfsCsi.Csi.Mount

/-!
# The node service

`NodePublishVolume` resolves a volume from its objects on every call and mounts it at a
target path, over NVMe-oF when the volume is a zvol of a pool that another node hosts.
`NodeUnpublishVolume` unmounts the target path and disconnects the subsystem of the
volume's export. Several target paths of one volume share one connection.
-/

namespace SimpleZfsCsi.Csi

open Library Api Program

structure NodePublishVolumeRequest where
  volumeID : String
  targetPath : String
  readonly : Bool := false
  volumeCapability : Option VolumeCapability := some {}
  deriving DecidableEq, Repr

structure NodeServer where
  nodeID : String
  nvmeTransport : String := ""
  nvmePort : String := ""
  /-- `uuid.NewSHA1` in the driver's namespace -/
  hostUUID : String → String

/-- `exportNQN`: the reported NQN, or else the one of the spec. -/
def exportNQN (e : NetworkExport) : String :=
  if e.status.nqn ≠ "" then e.status.nqn
  else match e.spec.nvmeof with
    | some spec => spec.nqn
    | none => ""

def mountOptions (flags : List String) (readOnly : Bool) : List String :=
  if readOnly then flags ++ ["ro"] else flags

/-- `isLocalToPool`. -/
def isLocalToPool (nodeID : String) (pool : ZfsPool) : Bool :=
  nodeID ≠ "" && pool.status.currentNode = nodeID

/-- Run a step of the mounter or a call, and turn its error into a status. -/
def orStatus {α : Type} (p : MountProc α) (f : Err → Status) : NodeProc α := do
  match ← p.outcome with
  | .ok a => return a
  | .error e => throw (f e)

def internal (what : String) (e : Err) : Status := ⟨.internal, what ++ ": " ++ e.message⟩

namespace NodeServer

variable (n : NodeServer)

def transport : String := if n.nvmeTransport ≠ "" then n.nvmeTransport else "tcp"

def port : String := if n.nvmePort ≠ "" then n.nvmePort else "4420"

structure ResolvedVolume where
  poolGUID : String
  dataset : String
  statusPath : String
  protocol : Protocol

def resolveVolume (volumeID : String) : NodeProc ResolvedVolume := do
  let ds ← orStatus (ask (.getDataset volumeID)) fun e =>
    if e.isNotFound then ⟨.notFound, "ZfsDataset " ++ Err.quoted volumeID ++ " not found"⟩
    else internal ("get ZfsDataset " ++ Err.quoted volumeID) e
  if ds.spec.poolGUID = "" ∨ ds.spec.dataset = "" then
    throw ⟨.internal, "ZfsDataset " ++ Err.quoted volumeID ++ " has no poolGUID/dataset"⟩
  else if ds.status.phase = some .lost then
    throw ⟨.failedPrecondition,
      "ZfsDataset " ++ Err.quoted volumeID ++ " is lost: " ++ ds.status.message⟩
  else return {
    poolGUID := ds.spec.poolGUID
    dataset := ds.spec.dataset
    statusPath := ds.status.path
    protocol := match ds.spec.type with
      | .filesystem => .nfs
      | .volume => .nvmeof }

def resolvePool (poolGUID : String) : NodeProc ZfsPool := do
  let pool ← orStatus (ask (.getPool (resourceName poolGUID))) fun e =>
    if e.isNotFound then
      ⟨.failedPrecondition, "ZfsPool for GUID " ++ Err.quoted poolGUID ++ " not found"⟩
    else internal ("get ZfsPool " ++ Err.quoted poolGUID) e
  if pool.status.health = .nodeOffline then
    throw ⟨.failedPrecondition, "storage node " ++ Err.quoted pool.status.currentNode ++
      " for pool " ++ Err.quoted poolGUID ++ " is offline"⟩
  else if pool.status.currentIP = "" then
    throw ⟨.failedPrecondition, "pool " ++ Err.quoted poolGUID ++ " has no current IP"⟩
  else return pool

def publishNFS (pool : ZfsPool) (dataset targetPath : String) (readOnly : Bool)
    (flags : List String) : NodeProc Unit := do
  if pool.status.baseMountPath = "" then
    throw ⟨.failedPrecondition, "pool " ++ Err.quoted pool.name ++ " has no base mount path"⟩
  else
    let source := pool.status.currentIP ++ ":" ++ Text.joinPath pool.status.baseMountPath dataset
    orStatus (ask (.makeDir targetPath)) (internal ("create target " ++ Err.quoted targetPath))
    orStatus (mountNFS source targetPath (mountOptions flags readOnly))
      (internal ("mount nfs " ++ Err.quoted source))

/-- `recordFSType`: record the file system on the device, once. A conflict is retried. -/
def recordFSType (volumeID fsType : String) : MountProc Unit := do
  if fsType = "" then return ()
  else
    match ← (ask (.getDataset volumeID)).outcome with
    | .error e => if e.isNotFound then return () else throw e
    | .ok vol =>
      if vol.status.fsType ≠ "" then return ()
      else ask (.patchDatasetStatus volumeID vol.status { vol.status with fsType })

/-- Publish a block device: as it is, or formatted and mounted. -/
def publishDevice (volumeID device targetPath : String) (block readOnly : Bool) (fsType : String)
    (flags : List String) : NodeProc Unit := do
  if block then
    orStatus (ask (.makeFile targetPath))
      (internal ("create block target " ++ Err.quoted targetPath))
    orStatus (bindMountDevice device targetPath readOnly)
      (internal ("bind-mount device " ++ Err.quoted device))
  else
    orStatus (ask (.makeDir targetPath)) (internal ("create target " ++ Err.quoted targetPath))
    let effectiveFS ← orStatus
      (formatAndMount device targetPath fsType (mountOptions flags readOnly))
      (internal ("format and mount " ++ Err.quoted device))
    let _ ← (recordFSType volumeID effectiveFS).outcome

/-- `dhchapKey`: the DH-CHAP secret an export refers to, or "". -/
def dhchapKey (e : NetworkExport) : MountProc String := do
  match e.spec.nvmeof with
  | none => return ""
  | some spec =>
    if spec.dhchapSecretName = "" then return ""
    else if spec.dhchapSecretNamespace = "" then
      throw (.other ("dhchap secret " ++ Err.quoted spec.dhchapSecretName ++ " has no namespace"))
    else
      let ref := spec.dhchapSecretNamespace ++ "/" ++ spec.dhchapSecretName
      match ← (ask (.getSecret spec.dhchapSecretNamespace spec.dhchapSecretName)).outcome with
      | .error e => throw (.wrap ("get dhchap secret " ++ ref) e)
      | .ok data =>
        let dataKey := resolveSecretKey spec.dhchapSecretKey
        let key := (data.lookup dataKey).getD ""
        if key = "" then
          throw (.other ("dhchap secret " ++ ref ++ " missing data key " ++ Err.quoted dataKey))
        else return key

def publishNVMeoF (volumeID : String) (pool : ZfsPool) (targetPath : String)
    (block readOnly : Bool) (fsType : String) (flags : List String) : NodeProc Unit := do
  let notReady := "NVMe-oF export for volume " ++ Err.quoted volumeID ++ " is not ready"
  let e ← orStatus (ask (.getExport volumeID)) fun err =>
    ⟨.failedPrecondition, notReady ++ ": " ++ err.message⟩
  let nqn := exportNQN e
  if nqn = "" then throw ⟨.failedPrecondition, notReady ++ " (no NQN)"⟩
  else
    let identity := hostIdentity n.hostUUID n.nodeID volumeID
    let key ← orStatus (dhchapKey e) fun err => ⟨.failedPrecondition,
      "resolve DH-CHAP secret for volume " ++ Err.quoted volumeID ++ ": " ++ err.message⟩
    let device ← orStatus (nvmeConnect {
        transport := n.transport, addr := pool.status.currentIP, port := n.port, nqn
        hostNQN := identity.1, hostID := identity.2, dhchapKey := key })
      (internal "nvme connect")
    publishDevice volumeID device targetPath block readOnly fsType flags

def publishLocalZvol (volumeID devicePath targetPath : String) (block readOnly : Bool)
    (fsType : String) (flags : List String) : NodeProc Unit := do
  if devicePath = "" then
    throw ⟨.failedPrecondition, "volume " ++ Err.quoted volumeID ++ " has no local device path yet"⟩
  else publishDevice volumeID devicePath targetPath block readOnly fsType flags

def publishLocalDataset (sourcePath targetPath : String) (readOnly : Bool) : NodeProc Unit := do
  if sourcePath = "" then throw ⟨.failedPrecondition, "dataset has no local mount path yet"⟩
  else
    orStatus (ask (.makeDir targetPath)) (internal ("create target " ++ Err.quoted targetPath))
    orStatus (bindMountDir sourcePath targetPath readOnly)
      (internal ("bind-mount dataset " ++ Err.quoted sourcePath))

/-- The switch over the protocol in `NodePublishVolume`. -/
def publishByProtocol (req : NodePublishVolumeRequest) (volCap : VolumeCapability)
    (v : ResolvedVolume) (pool : ZfsPool) : NodeProc Unit :=
  match v.protocol with
  | .nfs =>
    if volCap.block then
      throw ⟨.invalidArgument, "block volumeMode is not supported for nfs"⟩
    else if (volCap.accessMode = .singleNodeWriter ∨ volCap.accessMode = .singleNodeReaderOnly) ∧
        isLocalToPool n.nodeID pool then
      publishLocalDataset v.statusPath req.targetPath req.readonly
    else publishNFS pool v.dataset req.targetPath req.readonly volCap.mountFlags
  | .nvmeof =>
    if isLocalToPool n.nodeID pool then
      publishLocalZvol req.volumeID v.statusPath req.targetPath volCap.block req.readonly
        volCap.fsType volCap.mountFlags
    else n.publishNVMeoF req.volumeID pool req.targetPath volCap.block req.readonly
      volCap.fsType volCap.mountFlags

def nodePublishVolume (req : NodePublishVolumeRequest) : NodeProc Unit := do
  if req.volumeID = "" then throw ⟨.invalidArgument, "volume id is required"⟩
  else if req.targetPath = "" then throw ⟨.invalidArgument, "target path is required"⟩
  else match req.volumeCapability with
    | none => throw ⟨.invalidArgument, "volume capability is required"⟩
    | some volCap =>
      let v ← resolveVolume req.volumeID
      let pool ← resolvePool v.poolGUID
      -- an already mounted target is a success
      let mounted ← orStatus (ask (.isMountPoint req.targetPath))
        (internal ("check mount " ++ Err.quoted req.targetPath))
      if mounted then return ()
      else n.publishByProtocol req volCap v pool

/-- `lookupExportNQN`: "" when there is no export. -/
def lookupExportNQN (volumeID : String) : NodeProc String := do
  match ← (ask (.getExport volumeID)).outcome with
  | .error _ => return ""
  | .ok e => return exportNQN e

def nodeUnpublishVolume (volumeID targetPath : String) : NodeProc Unit := do
  if volumeID = "" then throw ⟨.invalidArgument, "volume id is required"⟩
  else if targetPath = "" then throw ⟨.invalidArgument, "target path is required"⟩
  else
    orStatus (ask (.unmount targetPath)) (internal ("unmount " ++ Err.quoted targetPath))
    orStatus (ask (.removePath targetPath)) (internal ("remove target " ++ Err.quoted targetPath))
    let nqn ← lookupExportNQN volumeID
    if nqn ≠ "" then
      let _ ← (nvmeDisconnect nqn).outcome
    else return ()

end NodeServer

end SimpleZfsCsi.Csi
