import SimpleZfsCsi.Library.Program
import SimpleZfsCsi.Migrate.Audit

/-!
# Listing and applying

What `zfs-migrate` calls: `zfs list`, `zfs set`, `zfs destroy -d`, and the writes to the API server.
-/

namespace SimpleZfsCsi.Migrate

open Library Api Agent Program

/-- What ZFS has under a name: the origin, the labels set there, and the mark of `destroy -d`. -/
structure Entry where
  origin : String := ""
  role : String := ""
  owner : String := ""
  deferred : Bool := false

/-- The cluster and its pools. -/
structure Cluster where
  pools : FinMap String String
  datasets : List ZfsDataset
  snapshots : List ZfsSnapshot
  lastTransition : Condition → Option Nat
  zfs : FinMap String Entry
  /-- snapshots with clones or holds, which `destroy -d` can only mark -/
  busy : String → Bool

def Cluster.input (w : Cluster) : Input := ⟨w.pools, w.datasets, w.snapshots, w.lastTransition⟩

/-! ## `CLIBackend` -/

/-- The root, its children, and the snapshots of either. -/
def withinOneLevel (name root : String) : Bool :=
  let ds := (Text.cut '@' name).1
  ds = root ||
    (Text.startsWith ds (root ++ "/") && !Text.contains (Text.trimStart ds (root ++ "/")) "/")

/-- The names `List` collects: of each root that exists, those that were not listed before. -/
def listNames (zfs : FinMap String Entry) (roots : List String) : List String :=
  roots.foldl (fun listed root =>
    if (zfs.lookup root).isNone then listed
    else listed ++ zfs.sortedKeys.filter fun n => withinOneLevel n root && n ∉ listed) []

def Entry.obj (name : String) (e : Entry) : Obj := ⟨name, e.origin, e.role, e.owner, e.deferred⟩

/-- `CLIBackend.List`. -/
def Cluster.list (w : Cluster) (roots : List String) : Except Err (List Obj) :=
  .ok ((listNames w.zfs roots).filterMap fun n => (w.zfs.lookup n).map (·.obj n))

/-! ## The calls -/

inductive MigrateCall where
  | set (name prop value : String)
  | destroyDeferred (snapshot : String)
  | stampDatasetProvisioned (name : String) (time : Nat)
  | stampSnapshotProvisioned (name : String) (time : Nat)
  | setSnapshotSourceType (name : String) (type : DatasetType)

abbrev MigrateProc := Proc MigrateCall (fun _ => Except Err Unit) Err

def ask (e : MigrateCall) : MigrateProc Unit := Proc.ask e id

/-- Write one local property. -/
def Entry.set (e : Entry) (prop value : String) : Entry :=
  if prop = propRole then { e with role := value }
  else if prop = propOwner then { e with owner := value }
  else e

/-- Change the object of a name, or fail. -/
def writeObject {Spec Status : Type} (objects : List (Object Spec Status)) (name : String)
    (f : Object Spec Status → Object Spec Status) : Except Err (List (Object Spec Status)) :=
  if objects.any (·.name = name) then .ok (objects.map fun o => if o.name = name then f o else o)
  else .error (.notFound name)

def stampDataset (time : Nat) (d : ZfsDataset) : ZfsDataset :=
  if d.status.provisionedAt.isSome then d else
    { d with status := { d.status with provisionedAt := some time } }

def stampSnapshot (time : Nat) (s : ZfsSnapshot) : ZfsSnapshot :=
  if s.status.provisionedAt.isSome then s else
    { s with status := { s.status with provisionedAt := some time } }

def setSourceType (type : DatasetType) (s : ZfsSnapshot) : ZfsSnapshot :=
  if s.spec.sourceType.isSome then s else { s with spec := { s.spec with sourceType := some type } }

/-- Answer a call. -/
def Cluster.handle : MigrateCall → Cluster → Except Err Unit × Cluster
  | .set name prop value, w =>
    if (w.zfs.lookup name).isNone then (.error (.notExist name), w)
    else (.ok (), { w with zfs := w.zfs.modify name (·.set prop value) })
  | .destroyDeferred snapshot, w =>
    if (w.zfs.lookup snapshot).isNone then (.error (.notExist snapshot), w)
    else if w.busy snapshot then
      (.ok (), { w with zfs := w.zfs.modify snapshot fun e => { e with deferred := true } })
    else (.ok (), { w with zfs := w.zfs.erase snapshot })
  | .stampDatasetProvisioned name time, w =>
    match writeObject w.datasets name (stampDataset time) with
    | .error e => (.error e, w)
    | .ok datasets => (.ok (), { w with datasets })
  | .stampSnapshotProvisioned name time, w =>
    match writeObject w.snapshots name (stampSnapshot time) with
    | .error e => (.error e, w)
    | .ok snapshots => (.ok (), { w with snapshots })
  | .setSnapshotSourceType name type, w =>
    match writeObject w.snapshots name (setSourceType type) with
    | .error e => (.error e, w)
    | .ok snapshots => (.ok (), { w with snapshots })

def Action.call : Action → MigrateCall
  | .set target prop value _ => .set target prop value
  | .destroyDeferred target _ => .destroyDeferred target
  | .stampDataset target time _ => .stampDatasetProvisioned target time
  | .stampSnapshot target time _ => .stampSnapshotProvisioned target time
  | .snapshotSourceType target value _ => .setSnapshotSourceType target value

/-- `Apply`: the actions one after the other, up to the first error. -/
def apply : List Action → MigrateProc Unit
  | [] => return ()
  | a :: rest => do
    match ← (ask a.call).outcome with
    | .ok () => apply rest
    | .error e => throw (.wrap a.text e)

end SimpleZfsCsi.Migrate
