import SimpleZfsCsi.Attach.Calls
import SimpleZfsCsi.Csi.Common

/-!
# The controller service: publish and unpublish

`ControllerPublishVolume` refuses a single-node volume that another node holds an attach
request for, creates its own request, and polls it until the operator reports it ready.
A number of rounds stands for the deadline of a call: it may give up after any of them.
-/

namespace SimpleZfsCsi.Attach

open Library Api Csi

structure ControllerServer where
  /-- the first twelve hex digits of the SHA-256 sum of a node name -/
  nodeHash : String → String

structure PublishRequest where
  volumeID : String
  nodeID : String
  volumeCapability : VolumeCapability := {}
  deriving DecidableEq, Repr

/-- Run calls, and turn their error into a status. -/
def orStatus {α : Type} (p : AttachProc Err α) (f : Err → Status) : AttachProc Status α := do
  match ← p.outcome with
  | .ok a => return a
  | .error e => throw (f e)

namespace ControllerServer

variable (c : ControllerServer)

/-- `attachRequestName`. -/
def attachRequestName (volume node : String) : String := volume ++ "-" ++ c.nodeHash node

/-- `attachedNode`: a node other than `exclude` that holds an attach request for the volume, or
"". Terminating requests count. -/
def attachedNode (volume exclude : String) : AttachProc Err String := do
  let items ← ask .listRequests
  match items.find? fun ar => ar.spec.volumeName = volume && ar.spec.nodeName ≠ exclude with
  | some ar => return ar.spec.nodeName
  | none => return ""

/-- `ensureAttachRequest`: create the request, or find one that matches. A create that loses a
race starts over. -/
def ensureAttachRequest (name volume node : String) (singleNode : Bool) :
    Nat → AttachProc Status Unit
  | 0 => throw ⟨.aborted, "deadline exceeded"⟩
  | rounds + 1 => do
    match ← (ask (.getRequest name)).outcome with
    | .error e =>
      if e.isNotFound then
        match ←
          (ask (.createRequest name { volumeName := volume, nodeName := node, singleNode })).outcome
          with
        | .ok () => return ()
        | .error e =>
          match e with
          | .alreadyExists _ => ensureAttachRequest name volume node singleNode rounds
          | e => throw ⟨.internal,
              "create ZfsShareAttachRequest " ++ Err.quoted name ++ ": " ++ e.message⟩
      else throw ⟨.internal, "get ZfsShareAttachRequest " ++ Err.quoted name ++ ": " ++ e.message⟩
    | .ok existing =>
      if existing.spec.volumeName ≠ volume ∨ existing.spec.nodeName ≠ node then
        throw ⟨.alreadyExists,
          "attach request " ++ Err.quoted name ++ " already exists for a different (volume, node)"⟩
      else return ()

/-- `waitAttachReady`: poll until the request is ready for its current generation. -/
def waitAttachReady (name : String) : Nat → AttachProc Status Unit
  | 0 => throw ⟨.deadlineExceeded,
      "timed out waiting for volume attach " ++ Err.quoted name ++ " to become ready"⟩
  | rounds + 1 => do
    let ar ← orStatus (ask (.getRequest name)) fun e =>
      ⟨.internal, "get ZfsShareAttachRequest " ++ Err.quoted name ++ ": " ++ e.message⟩
    if ar.status.ready ∧ ar.status.observedGeneration ≥ ar.metadata.generation then return ()
    else waitAttachReady name rounds

/-- The check that keeps a single-node volume on one node. -/
def checkSingleNode (req : PublishRequest) : AttachProc Status Unit := do
  if hasMultiNodeAccessMode req.volumeCapability then return ()
  else
    let other ← orStatus (attachedNode req.volumeID req.nodeID) fun e =>
      ⟨.internal, "list attach requests for " ++ Err.quoted req.volumeID ++ ": " ++ e.message⟩
    if other ≠ "" then
      throw ⟨.failedPrecondition, "volume " ++ Err.quoted req.volumeID ++
        " is already published to node " ++ Err.quoted other ++
        "; single-node (RWO) volumes cannot be attached to " ++ Err.quoted req.nodeID ++
        " simultaneously"⟩
    else return ()

def controllerPublishVolume (req : PublishRequest) (rounds : Nat) : AttachProc Status Unit := do
  if req.volumeID = "" then throw ⟨.invalidArgument, "volume id is required"⟩
  else if req.nodeID = "" then throw ⟨.invalidArgument, "node id is required"⟩
  else
    let vol ← orStatus (ask (.getDataset req.volumeID)) fun e =>
      if e.isNotFound then ⟨.notFound, "volume " ++ Err.quoted req.volumeID ++ " not found"⟩
      else ⟨.internal, "get ZfsDataset " ++ Err.quoted req.volumeID ++ ": " ++ e.message⟩
    if vol.spec.type = .volume ∧ hasMultiNodeAccessMode req.volumeCapability then
      throw ⟨.invalidArgument, "protocol nvmeof is single-node only; " ++
        "multi-node (RWX) access modes are not supported"⟩
    else
      checkSingleNode req
      let name := c.attachRequestName req.volumeID req.nodeID
      ensureAttachRequest name req.volumeID req.nodeID
        (!hasMultiNodeAccessMode req.volumeCapability) rounds
      waitAttachReady name rounds

def controllerUnpublishVolume (volumeID nodeID : String) : AttachProc Status Unit := do
  if volumeID = "" then throw ⟨.invalidArgument, "volume id is required"⟩
  else if nodeID = "" then throw ⟨.invalidArgument, "node id is required"⟩
  else
    let name := c.attachRequestName volumeID nodeID
    match ← (ask (.deleteRequest name)).outcome with
    | .ok () => return ()
    | .error e =>
      if e.isNotFound then return ()
      else throw ⟨.internal, "delete ZfsShareAttachRequest " ++ Err.quoted name ++
        ": " ++ e.message⟩

end ControllerServer

end SimpleZfsCsi.Attach
