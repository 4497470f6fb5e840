import SimpleZfsCsi.Api.Objects

/-!
# ZfsPool, ZfsDataset, ZfsSnapshot

The objects the node agent reconciles. A `ZfsPool` is discovered and has no spec. Maps of
ZFS properties are lists of pairs; times are seconds. The time a snapshot records as its
creation time carries the name of the ZFS snapshot that was asked for it.
-/

namespace SimpleZfsCsi.Api

inductive PoolHealth where
  | online | degraded | faulted | suspended | nodeOffline | unknown
  deriving DecidableEq, Repr

structure ZfsPoolStatus where
  guid : String := ""
  poolName : String := ""
  currentNode : String := ""
  currentIP : String := ""
  baseMountPath : String := ""
  health : PoolHealth := .unknown
  lastUpdated : Option Nat := none
  message : String := ""
  deriving DecidableEq, Repr

abbrev ZfsPool := Object Unit ZfsPoolStatus

/-- `zpool.ResourceName`. -/
def resourceName (guid : String) : String := "zpool-" ++ guid

inductive DatasetType where
  | filesystem | volume
  deriving DecidableEq, Repr

def typeText : DatasetType → String
  | .filesystem => "filesystem"
  | .volume => "volume"

inductive DatasetPhase where
  | pending | ready | error | lost
  deriving DecidableEq, Repr

structure FilesystemConfig where
  quota : Option Nat := none
  uid : Option Int := none
  gid : Option Int := none
  mode : String := ""
  deriving DecidableEq, Repr

structure VolumeConfig where
  size : Nat
  volblocksize : String := ""
  deriving DecidableEq, Repr

/-- Where a dataset is cloned from; the API server admits exactly one field. -/
inductive DatasetSource where
  | snapshot (ref : String)
  | volume (path : String)
  | zfsSnapshotRef (name : String)
  | zfsDatasetRef (name : String)
  deriving DecidableEq, Repr

structure ZfsDatasetSpec where
  poolGUID : String
  dataset : String
  type : DatasetType := .filesystem
  properties : List (String × String) := []
  filesystem : Option FilesystemConfig := none
  volume : Option VolumeConfig := none
  source : Option DatasetSource := none
  deriving DecidableEq, Repr

structure ZfsDatasetStatus where
  phase : Option DatasetPhase := none
  provisionedAt : Option Nat := none
  creationTime : Option Nat := none
  path : String := ""
  fsType : String := ""
  observedGeneration : Nat := 0
  message : String := ""
  conditions : List Condition := []
  deriving DecidableEq, Repr

abbrev ZfsDataset := Object ZfsDatasetSpec ZfsDatasetStatus

def ZfsDatasetStatus.merge (read patched cur : ZfsDatasetStatus) : ZfsDatasetStatus where
  phase := mergeField read.phase patched.phase cur.phase
  provisionedAt := mergeField read.provisionedAt patched.provisionedAt cur.provisionedAt
  creationTime := mergeField read.creationTime patched.creationTime cur.creationTime
  path := mergeField read.path patched.path cur.path
  fsType := mergeField read.fsType patched.fsType cur.fsType
  observedGeneration :=
    mergeField read.observedGeneration patched.observedGeneration cur.observedGeneration
  message := mergeField read.message patched.message cur.message
  conditions := mergeField read.conditions patched.conditions cur.conditions

inductive SnapshotPhase where
  | pending | ready | error | lost
  deriving DecidableEq, Repr

/-- The text of a phase; an object without a status has none. -/
def SnapshotPhase.text : Option SnapshotPhase → String
  | none => ""
  | some .pending => "Pending"
  | some .ready => "Ready"
  | some .error => "Error"
  | some .lost => "Lost"

structure ZfsSnapshotSpec where
  poolGUID : String
  dataset : String
  snapshotName : String
  sourceVolume : String := ""
  sourceType : Option DatasetType := none
  groupSnapshotID : String := ""
  sourceFSType : String := ""
  sourceVolblocksize : String := ""
  sourceProperties : List (String × String) := []
  deriving DecidableEq, Repr

/-- A recorded creation time: the snapshot that was asked, and the time. -/
structure SnapshotTime where
  snapshot : String
  time : Nat
  deriving DecidableEq, Repr

structure ZfsSnapshotStatus where
  provisionedAt : Option Nat := none
  phase : Option SnapshotPhase := none
  readyToUse : Bool := false
  creationTime : Option SnapshotTime := none
  restoreSize : Option Nat := none
  observedGeneration : Nat := 0
  message : String := ""
  conditions : List Condition := []
  deriving DecidableEq, Repr

abbrev ZfsSnapshot := Object ZfsSnapshotSpec ZfsSnapshotStatus

def ZfsSnapshotStatus.merge (read patched cur : ZfsSnapshotStatus) : ZfsSnapshotStatus where
  provisionedAt := mergeField read.provisionedAt patched.provisionedAt cur.provisionedAt
  phase := mergeField read.phase patched.phase cur.phase
  readyToUse := mergeField read.readyToUse patched.readyToUse cur.readyToUse
  creationTime := mergeField read.creationTime patched.creationTime cur.creationTime
  restoreSize := mergeField read.restoreSize patched.restoreSize cur.restoreSize
  observedGeneration :=
    mergeField read.observedGeneration patched.observedGeneration cur.observedGeneration
  message := mergeField read.message patched.message cur.message
  conditions := mergeField read.conditions patched.conditions cur.conditions

/-! ## Group snapshots -/

inductive GroupSnapshotPhase where
  | pending | ready | error | lost
  deriving DecidableEq, Repr

structure ZfsGroupSnapshotMember where
  sourceVolume : String
  dataset : String
  snapshotName : String
  zfsSnapshotRef : String
  sourceType : Option DatasetType := none
  sourceFSType : String := ""
  sourceVolblocksize : String := ""
  sourceProperties : List (String × String) := []
  deriving DecidableEq, Repr

structure ZfsGroupSnapshotSpec where
  poolGUID : String := ""
  members : List ZfsGroupSnapshotMember := []
  deriving DecidableEq, Repr

structure ZfsGroupSnapshotStatus where
  provisionedAt : Option Nat := none
  phase : Option GroupSnapshotPhase := none
  readyToUse : Bool := false
  creationTime : Option Nat := none
  observedGeneration : Nat := 0
  message : String := ""
  conditions : List Condition := []
  deriving DecidableEq, Repr

abbrev ZfsGroupSnapshot := Object ZfsGroupSnapshotSpec ZfsGroupSnapshotStatus

end SimpleZfsCsi.Api
