import SimpleZfsCsi.Agent.ZfsDataset
import SimpleZfsCsi.Library.Concurrent
import SimpleZfsCsi.Provision.Volume

/-!
# Expanding a volume

`ControllerExpandVolume` raises the size in the spec of a `ZfsDataset` and waits for the agent to
apply it. Any number of requests for one volume run beside the agent's passes for it, which come
one after the other. All reads are current; the agent and the controller service read their objects
from caches, which may lag behind. The system keeps two records that nothing reads: the size at each
generation of the spec, and the sizes that were granted.
-/

namespace SimpleZfsCsi.Expand

open Library Api Agent Provision Csi Program Concurrent

/-! ## The request -/

abbrev ExpandProc := Proc AgentCall AgentCall.Ret Status

structure ExpandVolumeResponse where
  capacityBytes : Int
  nodeExpansionRequired : Bool
  deriving DecidableEq, Repr

/-- The spec with the size raised to `required`, if that is more. -/
def bump (required : Int) (spec : ZfsDatasetSpec) : Option ZfsDatasetSpec :=
  match spec.type with
  | .filesystem =>
    let fs := spec.filesystem.getD {}
    if fs.quota.all fun q => (q : Int) < required then
      some { spec with filesystem := some { fs with quota := some required.toNat } }
    else none
  | .volume =>
    match spec.volume with
    | none => none
    | some v =>
      if (v.size : Int) < required then
        some { spec with volume := some { v with size := required.toNat } } else none

/-- One attempt to raise the size; it returns the generation to wait for. The API server answers
an update with the object, and its spec has changed. -/
def raiseSize (id : String) (required : Int) : AgentProc Nat := do
  let cur ← ask (.getDataset id)
  match bump required cur.spec with
  | some spec =>
    ask (.updateDataset { cur with spec })
    return cur.metadata.generation + 1
  | none => return cur.metadata.generation

/-- What `waitVolumeReady` makes of a volume that it reads. -/
def judge (name : String) (minGeneration : Nat) (vol : ZfsDataset) :
    Option (Except Status ZfsDataset) :=
  let observed := vol.status.observedGeneration ≥ minGeneration
  if observed ∧ vol.status.phase = some .ready then some (.ok vol)
  else if observed ∧ (vol.status.phase = some .error ∨ vol.status.phase = some .lost) then
    some (.error ⟨.internal, "volume " ++ Err.quoted name ++ " provisioning failed: " ++
      vol.status.message⟩)
  else none

/-- `waitVolumeReady`, with the reads that the deadline leaves time for. -/
def waitVolumeReady (name : String) (minGeneration rounds : Nat) : ExpandProc ZfsDataset :=
  Proc.poll (AgentCall.getDataset name) (internal "get ZfsDataset" name) (judge name minGeneration)
    ⟨.deadlineExceeded, "timed out waiting for volume " ++ Err.quoted name ++
      " to become ready"⟩ rounds

/-- Run calls, and turn their error into a status. -/
def orStatus {α : Type} (p : AgentProc α) (f : Err → Status) : ExpandProc α := do
  match ← p.outcome with
  | .ok a => return a
  | .error e => throw (f e)

/-- Whether the node has to grow the filesystem of a volume. -/
def nodeExpansion (id : String) (vol : ZfsDataset) : Except Status Bool :=
  match vol.spec.type with
  | .filesystem => .ok false
  | .volume =>
    if vol.spec.volume = none then
      .error ⟨.internal, "volume " ++ Err.quoted id ++ " has no size"⟩ else .ok true

/-- `ControllerExpandVolume`. -/
def controllerExpandVolume (id : String) (capacityRange : Option (Int × Int)) (rounds : Nat) :
    ExpandProc ExpandVolumeResponse := do
  if id = "" then throw ⟨.invalidArgument, "volume id is required"⟩
  let required := capacityBytes capacityRange
  if required ≤ 0 then throw ⟨.invalidArgument, "capacity range is required"⟩
  let vol ← orStatus (ask (.getDataset id)) fun e =>
    if e.isNotFound then ⟨.notFound, "volume " ++ Err.quoted id ++ " not found"⟩ else
      internal "get ZfsDataset" id e
  match nodeExpansion id vol with
  | .error status => throw status
  | .ok nodeExpansionRequired =>
    let targetGen ← orStatus (retryOnConflict (raiseSize id required) defaultRetries)
      (internal "update ZfsDataset" id)
    let _ ← waitVolumeReady id targetGen rounds
    return { capacityBytes := required, nodeExpansionRequired }

/-! ## The system -/

/-- The volume's requests, and the agent's passes for it. -/
inductive Task where
  | expand (capacityRange : Option (Int × Int)) (rounds : Nat)
  | reconcile

inductive Worker where
  | rpc (n : Nat)
  | agent
  deriving DecidableEq

structure Sizing where
  world : World
  /-- the size at each generation of the spec -/
  sizes : Nat → Nat
  /-- the sizes that were granted -/
  granted : List Int

/-- The size that a spec asks for. -/
def sizeOf (spec : ZfsDatasetSpec) : Nat :=
  match spec.type with
  | .filesystem => (spec.filesystem.bind (·.quota)).getD 0
  | .volume => (spec.volume.map (·.size)).getD 0

/-- Note the size at the generation there is. -/
def note (id : String) (w : World) (sizes : Nat → Nat) : Nat → Nat :=
  match w.datasets.lookup id with
  | none => sizes
  | some o => Function.update sizes o.metadata.generation (sizeOf o.spec)

def handle (id : String) (e : AgentCall) (s : Sizing) : e.Ret × Sizing :=
  let r := World.handle e s.world
  (r.1, { s with world := r.2, sizes := note id r.2 s.sizes })

def Task.program (r : ZfsDatasetReconciler) (id : String) :
    Task → Program AgentCall AgentCall.Ret (Option Int)
  | .expand capacityRange rounds =>
    (controllerExpandVolume id capacityRange rounds).run.bind fun r => .pure
      (r.toOption.map (·.capacityBytes))
  | .reconcile => (r.reconcile id).run.bind fun _ => .pure none

/-- A request that returns success has been granted its size. -/
def Task.finish (s : Sizing) (r : Option Int) : Sizing :=
  { s with granted := r.toList ++ s.granted }

/-- The sizes of a request are 64-bit integers; `fits` says which of them may be asked for. -/
def Task.Admissible (fits : Int → Prop) : Task → Prop
  | .expand capacityRange _ =>
    capacityBytes capacityRange < 2 ^ 63 ∧ fits (capacityBytes capacityRange)
  | .reconcile => True

def Task.isRpc : Task → Bool
  | .reconcile => false
  | .expand _ _ => true

def expandSystem (r : ZfsDatasetReconciler) (id : String) (fits : Int → Prop) :
    System Sizing Worker Task AgentCall AgentCall.Ret (Option Int) where
  handle _ := handle id
  fails := AgentCall.fails
  program := Task.program r id
  takes i t := i = .agent ↔ t.isRpc = false
  starts t _ := t.Admissible fits
  finish _ r s := Task.finish s r
  env _ _ := False

end SimpleZfsCsi.Expand
