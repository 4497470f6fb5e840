import SimpleZfsCsi.Attach.Calls
import SimpleZfsCsi.Csi.Common

/-!
# The operator: aggregating attach requests

`ZfsShareAttachRequestReconciler` keeps one share per volume, exported to the nodes that
hold an attach request. A volume that only one node may use is exported to the node of its
oldest request, and a request becomes ready only when its node is among those exported.
-/

namespace SimpleZfsCsi.Attach

open Library Api Csi

/-- `zfsShareAttachRequestFinalizer`. -/
def zfsShareAttachRequestFinalizer : String := "storage.simple-zfs-csi.io/zfsshareattachrequest"

structure Operator where
  releaseNamespace : String := ""
  dhchapEnabled : Bool := false
  dhchapSecretKey : String := ""
  hostUUID : String → String := id

/-- What `reconcileVolume` returns. -/
structure Aggregated where
  share : Option Share := none
  exported : List String := []
  localOnly : Bool := false

namespace Operator

/-- The requests of a volume that are not being deleted. -/
def active (items : List AttachRequest) (volume : String) : List AttachRequest :=
  items.filter fun it => it.spec.volumeName = volume && !it.metadata.terminating

/-- `activeNodes`: the sorted set of nodes with an active request. -/
def activeNodes (volume : String) : AttachProc Err (List String) := do
  let items ← ask .listRequests
  return ((active items volume).map (·.spec.nodeName)).dedup.insertionSort (· ≤ ·)

/-- One round of the loop in `oldestAttachNode`. -/
def older (oldest : Option AttachRequest) (it : AttachRequest) : Option AttachRequest :=
  match oldest with
  | none => some it
  | some o =>
    if it.metadata.creationTimestamp = o.metadata.creationTimestamp then
      if it.name < o.name then some it else some o
    else if it.metadata.creationTimestamp < o.metadata.creationTimestamp then some it
    else some o

/-- `oldestAttachNode`: the node of the active request that was created first. -/
def oldestAttachNode (volume : String) : AttachProc Err String := do
  let items ← ask .listRequests
  match (active items volume).foldl older none with
  | none => throw (.other ("no active attach request for volume " ++ Err.quoted volume))
  | some oldest => return oldest.spec.nodeName

/-- `isSingleNodeVolume`: what the first active request says. -/
def isSingleNodeVolume (volume : String) : AttachProc Err Bool := do
  match ← (ask .listRequests).outcome with
  | .error _ => return false
  | .ok items =>
    match active items volume with
    | [] => return false
    | it :: _ => return it.spec.singleNode

/-- `nodeInternalIP`. -/
def nodeInternalIP (nodeName : String) : AttachProc Err String := do
  match ← (ask (.getNode nodeName)).outcome with
  | .error e => throw (.wrap ("get node " ++ Err.quoted nodeName) e)
  | .ok addresses =>
    match addresses.find? fun a => a.isInternalIP && a.address ≠ "" with
    | some a => return a.address
    | none => throw (.other ("node " ++ Err.quoted nodeName ++ " has no InternalIP"))

def nfsClientsOf : List String → AttachProc Err (List NFSClient)
  | [] => return []
  | node :: rest => do
    let ip ← nodeInternalIP node
    let clients ← nfsClientsOf rest
    return { client := ip } :: clients

/-- `nfsClientsForNodes`. -/
def nfsClientsForNodes (nodes : List String) : AttachProc Err (List NFSClient) := do
  let clients ← nfsClientsOf nodes
  if clients.isEmpty then
    throw (.other ("no NFS clients resolved from nodes [" ++ " ".intercalate nodes ++ "]"))
  else return clients

def dhchapSecretName (volume : String) : String := "dhchap-" ++ volume

/-- Delete, ignoring absence. -/
def deleteIgnoringAbsence (e : AttachCall) : AttachProc Err Unit := do
  match ← (ask e).outcome with
  | .ok _ => return ()
  | .error err => if err.isNotFound then return () else throw err

def deleteShareIfPresent (volume : String) : AttachProc Err Unit := do
  match ← (ask (.getShare volume)).outcome with
  | .error e => if e.isNotFound then return () else throw e
  | .ok _ => deleteIgnoringAbsence (.deleteShare volume)

variable (r : Operator)

def deleteDHChapSecret (volume : String) : AttachProc Err Unit :=
  if r.releaseNamespace = "" then return ()
  else deleteIgnoringAbsence (.deleteSecret r.releaseNamespace (dhchapSecretName volume))

def ensureDHChapSecret (volume : String) : AttachProc Err String := do
  if r.releaseNamespace = "" then
    throw (.other "operator namespace is unknown; cannot manage DH-CHAP secret")
  else
    let name := dhchapSecretName volume
    match ← (ask (.getSecret r.releaseNamespace name)).outcome with
    | .ok () => return name
    | .error e =>
      if e.isNotFound then
        let key ← ask .generateDHChapKey
        match ← (ask (.createSecret r.releaseNamespace name
            [(resolveSecretKey r.dhchapSecretKey, key)])).outcome with
        | .ok () => return name
        | .error e =>
          match e with
          | .alreadyExists _ => return name
          | e => throw e
      else throw e

/-- `nvmeExportSpec`: the one node is the sole allowed host. -/
def nvmeExportSpec (volume node : String) : AttachProc Err NVMeoFExportSpec := do
  let allowedHosts := [(hostIdentity r.hostUUID node volume).1]
  if r.dhchapEnabled then
    let name ← r.ensureDHChapSecret volume
    return {
      allowedHosts
      dhchapSecretName := name
      dhchapSecretNamespace := r.releaseNamespace
      dhchapSecretKey := resolveSecretKey r.dhchapSecretKey }
  else return { allowedHosts }

/-- `controllerutil.CreateOrUpdate` of the share. -/
def createOrUpdateShare (volume : String) (spec : ShareSpec) : AttachProc Err Share := do
  match ← (ask (.getShare volume)).outcome with
  | .error e => if e.isNotFound then ask (.createShare volume spec) else throw e
  | .ok cur => if cur.spec = spec then return cur else ask (.updateShare { cur with spec })

def protocolForDatasetType : DatasetType → Protocol
  | .filesystem => .nfs
  | .volume => .nvmeof

def isCurrentNode (pool : ZfsPool) (node : String) : Bool :=
  pool.status.currentNode ≠ "" && pool.status.currentNode = node

def getPool (guid : String) : AttachProc Err ZfsPool := do
  match ← (ask (.getPool (resourceName guid))).outcome with
  | .ok pool => return pool
  | .error e => throw (.wrap ("get ZfsPool " ++ Err.quoted guid) e)

/-- The share of a volume over NFS: to every node, or to the oldest one. -/
def reconcileNFS (volume : String) (ds : ZfsDataset) (nodes : List String) :
    AttachProc Err Aggregated := do
  let pool ← getPool ds.spec.poolGUID
  let spec (clients : List NFSClient) : ShareSpec :=
    { poolGUID := ds.spec.poolGUID, dataset := ds.spec.dataset, protocol := .nfs
      nfs := some { clients } }
  if ← isSingleNodeVolume volume then
    let node ← oldestAttachNode volume
    if isCurrentNode pool node then
      deleteShareIfPresent volume
      return { exported := [node], localOnly := true }
    else
      let clients ← nfsClientsForNodes [node]
      let share ← createOrUpdateShare volume (spec clients)
      return { share := some share, exported := [node] }
  else
    let clients ← nfsClientsForNodes nodes
    let share ← createOrUpdateShare volume (spec clients)
    return { share := some share, exported := nodes }

/-- The share of a volume over NVMe-oF: to the oldest node only. -/
def reconcileNVMeoF (volume : String) (ds : ZfsDataset) : AttachProc Err Aggregated := do
  let node ← oldestAttachNode volume
  let pool ← getPool ds.spec.poolGUID
  if isCurrentNode pool node then
    deleteShareIfPresent volume
    r.deleteDHChapSecret volume
    return { exported := [node], localOnly := true }
  else
    let nvmeof ← r.nvmeExportSpec volume node
    let share ← createOrUpdateShare volume
      { poolGUID := ds.spec.poolGUID, dataset := ds.spec.dataset, protocol := .nvmeof
        nvmeof := some nvmeof }
    return { share := some share, exported := [node] }

def reconcileVolume (volume : String) : AttachProc Err Aggregated := do
  let cached ← activeNodes volume
  -- an empty set is confirmed before anything is torn down
  let nodes ← (if cached.isEmpty then activeNodes volume else pure cached)
  if nodes.isEmpty then
    deleteIgnoringAbsence (.deleteShare volume)
    r.deleteDHChapSecret volume
    return {}
  else
    match ← (ask (.getDataset volume)).outcome with
    | .error e => throw (.wrap ("get ZfsDataset " ++ Err.quoted volume) e)
    | .ok ds =>
      match protocolForDatasetType ds.spec.type with
      | .nfs => reconcileNFS volume ds nodes
      | .nvmeof => r.reconcileNVMeoF volume ds

/-- `shareReadyForGeneration`. -/
def shareReadyForGeneration : Option Share → Bool
  | none => false
  | some s => s.status.phase = some .bound && s.status.observedGeneration ≥ s.metadata.generation

/-- `setStatus`: the status is computed from the copy of the request that was read. -/
def setStatus (ar : AttachRequest) (ready : Bool) (shareName reason message : String) :
    AttachProc Err Unit :=
  ask (.patchRequestStatus ar.name ar.status { ar.status with
    ready, shareName, message
    observedGeneration := ar.metadata.generation
    conditions := setStatusCondition ar.status.conditions
      { type := "Ready", status := ready, reason, message
        observedGeneration := ar.metadata.generation } })

/-- The reason and message of a request's status. -/
def explain (volume : String) (nodeExported localOnly ready : Bool) : String × String :=
  if !nodeExported then ("Waiting", "volume " ++ Err.quoted volume ++
    " is exported to another node; waiting for it to detach")
  else if localOnly then ("Local", "volume " ++ Err.quoted volume ++
    " is local to its own node; no network export needed")
  else if !ready then ("Exporting", "waiting for the aggregated share to be exported")
  else ("Exported", "export live on the current generation for " ++ Err.quoted volume)

/-- Recompute the share without a request that is being deleted, then release it. -/
def release (ar : AttachRequest) : AttachProc Err Unit := do
  if ar.containsFinalizer zfsShareAttachRequestFinalizer then
    let _ ← r.reconcileVolume ar.spec.volumeName
    match ← (ask (.updateRequest (ar.removeFinalizer zfsShareAttachRequestFinalizer))).outcome with
    | .ok () => return ()
    | .error e => if e.isNotFound then return () else throw e
  else return ()

/-- Ensure the share and reflect it in the status of the request. -/
def ensure (ar : AttachRequest) : AttachProc Err Unit := do
  let volume := ar.spec.volumeName
  match ← (r.reconcileVolume volume).outcome with
  | .error e => setStatus ar false volume "Pending" e.message
  | .ok agg =>
    let nodeExported := agg.exported.contains ar.spec.nodeName
    let ready := nodeExported && (agg.localOnly || shareReadyForGeneration agg.share)
    let why := explain volume nodeExported agg.localOnly ready
    setStatus ar ready volume why.1 why.2

def reconcile (name : String) : AttachProc Err Unit := do
  match ← (ask (.getRequest name)).outcome with
  | .error e => if e.isNotFound then return () else throw e
  | .ok ar =>
    if ar.metadata.terminating then r.release ar
    else if !ar.containsFinalizer zfsShareAttachRequestFinalizer then
      ask (.updateRequest (ar.addFinalizer zfsShareAttachRequestFinalizer))
    else r.ensure ar

end Operator

end SimpleZfsCsi.Attach
