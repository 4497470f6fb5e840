import SimpleZfsCsi.Agent.Effects
import SimpleZfsCsi.Library.Concurrent
import SimpleZfsCsi.Library.Informer

/-!
# Reconciling from a cache

Every node runs an agent. It reads ZfsDatasets and ZfsSnapshots from a cache of its own, which
may lag behind the API server by any number of versions of each object, and writes to the API
server. At each node one worker reconciles each object, pass after pass, and the calls of all
workers of all nodes interleave; any call may fail. Meanwhile anyone creates, updates and deletes
objects and does whatever they like to the pool, and which node hosts a pool may change at any
time, and be seen by each node at another one. Every read of an object is answered from the cache
of the node; a direct read is one that finds nothing pending.
-/

namespace SimpleZfsCsi.Agent

open Library Api Memzfs Program Concurrent

/-- The agent of a node, and one of its objects. -/
abbrev AgentWorker := String × AgentTask

structure CachedWorld where
  world : World
  /-- the copies that the agent of each node holds -/
  datasets : String → Informer String ZfsDataset
  snapshots : String → Informer String ZfsSnapshot
  /-- the pools as the agent of each node sees them, in place of those of `world` -/
  pools : String → Store Unit ZfsPoolStatus
  /-- the workers whose pass was given a copy of its object that it is to provision -/
  blank : AgentWorker → Bool := fun _ => false
  /-- the node whose pass went on from such a copy to provision the object, while it is under
  way; no answer depends on these two -/
  provisioner : AgentTask → Option String := fun _ => none

namespace CachedWorld

/-- Write the datasets, and tell the caches of the new version of `name` if there is one. -/
def writeDatasets (s : CachedWorld) (name : String)
    (st : Store ZfsDatasetSpec ZfsDatasetStatus) : CachedWorld :=
  { s with
    world := { s.world with datasets := st }
    datasets := if st.revision = s.world.datasets.revision then s.datasets
      else fun node => (s.datasets node).notify name (st.lookup name) }

def writeSnapshots (s : CachedWorld) (name : String)
    (st : Store ZfsSnapshotSpec ZfsSnapshotStatus) : CachedWorld :=
  { s with
    world := { s.world with snapshots := st }
    snapshots := if st.revision = s.world.snapshots.revision then s.snapshots
      else fun node => (s.snapshots node).notify name (st.lookup name) }

/-- Read one copy. -/
def copy {Spec Status : Type} (c : Informer String (Object Spec Status)) (name : String) :
    Except Err (Object Spec Status) :=
  match c.seen.lookup name with
  | none => .error (.notFound name)
  | some o => .ok o

/-- Answer a call of the agent of a node. -/
def answer (node : String) : (e : AgentCall) → CachedWorld → e.Ret × CachedWorld
  | .getPool name, s => ((s.pools node).get name, s)
  | .getDataset name, s => (copy (s.datasets node) name, s)
  | .listDatasets, s => (.ok (s.datasets node).seen.values, s)
  | .getSnapshot name, s => (copy (s.snapshots node) name, s)
  | .listZfsSnapshots, s => (.ok (s.snapshots node).seen.values, s)
  | .updateDataset o, s =>
    let r := s.world.datasets.update o
    (r.1, s.writeDatasets o.name r.2)
  | .patchDatasetStatus name read patched, s =>
    let r := s.world.datasets.patchStatus ZfsDatasetStatus.merge name read patched
    (r.1, s.writeDatasets name r.2)
  | .updateSnapshot o, s =>
    let r := s.world.snapshots.update o
    (r.1, s.writeSnapshots o.name r.2)
  | .patchSnapshotStatus name read patched, s =>
    let r := s.world.snapshots.patchStatus ZfsSnapshotStatus.merge name read patched
    (r.1, s.writeSnapshots name r.2)
  | e, s => ((World.handle e s.world).1, { s with world := (World.handle e s.world).2 })

end CachedWorld

/-! ## What a pass has read -/

/-- A pass that reads this copy goes on to provision the object. -/
def Blank {Spec Status : Type} (stamp : Status → Option Nat) (finalizer : String) :
    Option (Object Spec Status) → Bool
  | some copy => stamp copy.status = none && !copy.metadata.terminating &&
      copy.containsFinalizer finalizer
  | none => false

/-- `provisionedAt` of a ZfsDataset, and of a ZfsSnapshot. -/
abbrev datasetStamp (s : ZfsDatasetStatus) : Option Nat := s.provisionedAt

abbrev snapshotStamp (s : ZfsSnapshotStatus) : Option Nat := s.provisionedAt

/-- The cache of the node holds a blank copy of the object. -/
def CachedWorld.holdsBlank (s : CachedWorld) : AgentWorker → Bool
  | (node, .dataset name) =>
    Blank datasetStamp zfsDatasetFinalizer ((s.datasets node).seen.lookup name)
  | (node, .snapshot name) =>
    Blank snapshotStamp zfsSnapshotFinalizer ((s.snapshots node).seen.lookup name)

/-- A pass reads its object. -/
def AgentTask.reads : AgentTask → AgentCall → Bool
  | .dataset name, .getDataset n => n = name
  | .snapshot name, .getSnapshot n => n = name
  | _, _ => false

/-- A pass that has a blank copy finds that its node hosts the pool. -/
def CachedWorld.enters (s : CachedWorld) (i : AgentWorker) : AgentCall → Bool
  | .getPool name => s.blank i && hostedHere i.1 ((s.pools i.1).lookup name)
  | _ => false

/-- Note what a pass is about to read. -/
def CachedWorld.note (s : CachedWorld) (i : AgentWorker) (e : AgentCall) : CachedWorld :=
  { s with
    blank := if i.2.reads e then Function.update s.blank i (s.holdsBlank i) else s.blank
    provisioner := if s.enters i e then Function.update s.provisioner i.2 (some i.1)
      else s.provisioner }

section Note

variable (s : CachedWorld) (i : AgentWorker) (e : AgentCall)

@[simp] theorem CachedWorld.note_world : (s.note i e).world = s.world := rfl

@[simp] theorem CachedWorld.note_datasets : (s.note i e).datasets = s.datasets := rfl

@[simp] theorem CachedWorld.note_snapshots : (s.note i e).snapshots = s.snapshots := rfl

@[simp] theorem CachedWorld.note_pools : (s.note i e).pools = s.pools := rfl

theorem CachedWorld.note_blank (h : i.2.reads e = true) :
    (s.note i e).blank i = s.holdsBlank i := by
  simp [CachedWorld.note, h]

theorem CachedWorld.note_provisioner (h : s.enters i e = true) :
    (s.note i e).provisioner i.2 = some i.1 := by
  simp [CachedWorld.note, h]

end Note

/-- Answer a call of a worker. -/
def CachedWorld.handle (i : AgentWorker) (e : AgentCall) (s : CachedWorld) :
    e.Ret × CachedWorld :=
  CachedWorld.answer i.1 e (s.note i e)

/-- The pass of a worker is over. -/
def CachedWorld.finish (i : AgentWorker) (s : CachedWorld) : CachedWorld :=
  { s with
    blank := Function.update s.blank i false
    provisioner := if s.provisioner i.2 = some i.1 then Function.update s.provisioner i.2 none
      else s.provisioner }

/-! ## The agents and the others -/

/-- What others do: versions arrive, objects are created, updated and deleted, and the pool
changes. -/
inductive Outside : CachedWorld → CachedWorld → Prop where
  | deliverDataset (s : CachedWorld) (node name : String) :
      Outside s { s with
        datasets := Function.update s.datasets node ((s.datasets node).deliver name) }
  | deliverSnapshot (s : CachedWorld) (node name : String) :
      Outside s { s with
        snapshots := Function.update s.snapshots node ((s.snapshots node).deliver name) }
  | createDataset (s : CachedWorld) (name : String) (spec : ZfsDatasetSpec) :
      Outside s (s.writeDatasets name (s.world.datasets.create s.world.clock name spec {}).2)
  | updateDataset (s : CachedWorld) (o : ZfsDataset) :
      Outside s (s.writeDatasets o.name (s.world.datasets.update o).2)
  | deleteDataset (s : CachedWorld) (name : String) :
      Outside s (s.writeDatasets name (s.world.datasets.delete name).2)
  | createSnapshot (s : CachedWorld) (name : String) (spec : ZfsSnapshotSpec) :
      Outside s (s.writeSnapshots name (s.world.snapshots.create s.world.clock name spec {}).2)
  | updateSnapshot (s : CachedWorld) (o : ZfsSnapshot) :
      Outside s (s.writeSnapshots o.name (s.world.snapshots.update o).2)
  | deleteSnapshot (s : CachedWorld) (name : String) :
      Outside s (s.writeSnapshots name (s.world.snapshots.delete name).2)
  | pool (s : CachedWorld) (mem : Mem) (pools : String → Store Unit ZfsPoolStatus) (clock : Nat)
      (hclock : s.world.clock ≤ clock) :
      Outside s { s with world := { s.world with mem, clock }, pools }

/-- The agents of all nodes: at each node one worker for each object. -/
def cachedAgents :
    System CachedWorld AgentWorker AgentWorker AgentCall AgentCall.Ret (Except Err Result) where
  handle := CachedWorld.handle
  fails := AgentCall.fails
  program i := i.2.program i.1
  takes i t := i = t
  starts _ _ := True
  finish i _ s := s.finish i
  env := Outside

abbrev CachedConfig :=
  Config CachedWorld AgentWorker AgentWorker AgentCall AgentCall.Ret (Except Err Result)

end SimpleZfsCsi.Agent
