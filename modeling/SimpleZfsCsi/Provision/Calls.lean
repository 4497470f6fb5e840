import SimpleZfsCsi.Csi.Common
import SimpleZfsCsi.Library.Program
import SimpleZfsCsi.Provision.Params

/-!
# What the controller service calls

The create calls read the API server directly, with no cache. A read of a wait loop is a call
of its own, `poll…`, since it is made under the deadline of the loop. Others may do anything
between two calls.
-/

namespace SimpleZfsCsi.Provision

open Library Api

inductive CreateCall where
  | getConfigMap (ns name : String)
  | getPVC (ns name : String)
  | getDataset (name : String)
  | createDataset (name : String) (spec : ZfsDatasetSpec)
  | pollDataset (name : String)
  | getSnapshot (name : String)
  | createSnapshot (name : String) (spec : ZfsSnapshotSpec)
  | pollSnapshot (name : String)
  | getGroup (name : String)
  | createGroup (name : String) (spec : ZfsGroupSnapshotSpec)
  | pollGroup (name : String)
  | newUUID
  deriving DecidableEq

@[reducible] def CreateCall.Val : CreateCall → Type
  | .getConfigMap _ _ => String
  | .getPVC _ _ => Params
  | .getDataset _ | .pollDataset _ => ZfsDataset
  | .getSnapshot _ | .pollSnapshot _ => ZfsSnapshot
  | .getGroup _ | .pollGroup _ => ZfsGroupSnapshot
  | .newUUID => String
  | .createDataset _ _ | .createSnapshot _ _ | .createGroup _ _ => Unit

abbrev CreateCall.Ret (e : CreateCall) : Type := Except Err e.Val

abbrev CreateProc := Program.Proc CreateCall CreateCall.Ret

structure CreateWorld where
  datasets : Store ZfsDatasetSpec ZfsDatasetStatus
  snapshots : Store ZfsSnapshotSpec ZfsSnapshotStatus
  groups : Store ZfsGroupSnapshotSpec ZfsGroupSnapshotStatus
  /-- the `parameters.yaml` of a ConfigMap -/
  configMaps : FinMap (String × String) String
  /-- the annotations of a claim -/
  claims : FinMap (String × String) Params
  clock : Nat
  uuids : Nat → String
  used : Nat

/-- A read of an object that is kept by its namespace and its name. -/
def getNamespaced {V : Type} (m : FinMap (String × String) V) (ns name : String) : Except Err V :=
  match m.lookup (ns, name) with
  | none => .error (.notFound name)
  | some v => .ok v

def CreateWorld.handle : (e : CreateCall) → CreateWorld → e.Ret × CreateWorld
  | .getConfigMap ns name, s => (getNamespaced s.configMaps ns name, s)
  | .getPVC ns name, s => (getNamespaced s.claims ns name, s)
  | .getDataset name, s => (s.datasets.get name, s)
  | .pollDataset name, s => (s.datasets.get name, s)
  | .createDataset name spec, s =>
    ((s.datasets.create s.clock name spec {}).1,
      { s with datasets := (s.datasets.create s.clock name spec {}).2 })
  | .getSnapshot name, s => (s.snapshots.get name, s)
  | .pollSnapshot name, s => (s.snapshots.get name, s)
  | .createSnapshot name spec, s =>
    ((s.snapshots.create s.clock name spec {}).1,
      { s with snapshots := (s.snapshots.create s.clock name spec {}).2 })
  | .getGroup name, s => (s.groups.get name, s)
  | .pollGroup name, s => (s.groups.get name, s)
  | .createGroup name spec, s =>
    ((s.groups.create s.clock name spec {}).1,
      { s with groups := (s.groups.create s.clock name spec {}).2 })
  | .newUUID, s => (.ok (s.uuids s.used), { s with used := s.used + 1 })

/-- Any call may fail, and a new identifier does not. -/
def CreateCall.fails : (e : CreateCall) → e.Ret → Prop
  | .newUUID, _ => False
  | _, r => ∃ msg, r = .error (.other msg)

/-- A run of a create call, with what the others do between its calls. -/
abbrev CreateRuns {ε α : Type} (p : CreateProc ε α) :=
  Program.Runs CreateWorld.handle CreateCall.fails (fun _ _ _ => True) p.run

def ask (e : CreateCall) : CreateProc Err e.Val := Program.Proc.ask e id

/-- Run calls, and turn their error into a status. -/
def orStatus {α : Type} (p : CreateProc Err α) (f : Err → Status) : CreateProc Status α := do
  match ← p.outcome with
  | .ok a => return a
  | .error e => throw (f e)

/-- Return an error when `p` holds. -/
def refuseIf (p : Prop) [Decidable p] (status : Status) : CreateProc Status Unit :=
  if p then throw status else return ()

/-- Return the value or the error of a check. -/
def check {α : Type} : Except Status α → CreateProc Status α
  | .ok a => return a
  | .error status => throw status

/-- A new identifier. -/
def newUUID : CreateProc Status String := orStatus (ask .newUUID) fun e => ⟨.internal, e.message⟩

/-- The status of an error that is not expected. -/
def internal (what name : String) (e : Err) : Status :=
  ⟨.internal, what ++ " " ++ Err.quoted name ++ ": " ++ e.message⟩

end SimpleZfsCsi.Provision
