import SimpleZfsCsi.Api.Storage
import SimpleZfsCsi.Library.Concurrent
import SimpleZfsCsi.Library.Informer
import SimpleZfsCsi.Library.Text

/-!
# Reporting pools, and marking those of dead nodes

Each node reports the pools it has imported into the status of their `ZfsPool` objects, and takes
over a pool that another node reported before. The watcher of the operator marks the pools of a
node that is gone or not ready as offline. The watcher lists all pools first and patches them
one by one, and no patch says what it was computed from. The operator and every node read the
pools from a cache of their own, which may lag behind the API server by any number of versions.
-/

namespace SimpleZfsCsi.Pools

open Library Api

/-- `MapHealth`. The states of ZFS are ASCII. -/
def mapHealth (state : String) : PoolHealth :=
  let s := String.ofList ((Text.trimSpace state).toList.map Char.toUpper)
  if s = "ONLINE" then .online
  else if s = "DEGRADED" then .degraded
  else if s ∈ ["FAULTED", "OFFLINE", "UNAVAIL", "REMOVED"] then .faulted
  else if s = "SUSPENDED" then .suspended
  else .unknown

/-- `zpool.Pool`; `state` is what `zpool list` prints. -/
structure Pool where
  name : String
  guid : String
  state : String
  mountpoint : String
  deriving DecidableEq, Repr

def Pool.health (p : Pool) : PoolHealth := mapHealth p.state

def ZfsPoolStatus.merge (read patched cur : ZfsPoolStatus) : ZfsPoolStatus where
  guid := mergeField read.guid patched.guid cur.guid
  poolName := mergeField read.poolName patched.poolName cur.poolName
  currentNode := mergeField read.currentNode patched.currentNode cur.currentNode
  currentIP := mergeField read.currentIP patched.currentIP cur.currentIP
  baseMountPath := mergeField read.baseMountPath patched.baseMountPath cur.baseMountPath
  health := mergeField read.health patched.health cur.health
  lastUpdated := mergeField read.lastUpdated patched.lastUpdated cur.lastUpdated
  message := mergeField read.message patched.message cur.message

/-- A condition of a node: its type, and whether its status is True. -/
abbrev NodeCondition := String × Bool

inductive PoolCall where
  | getNode (name : String)
  | listPools
  | getPool (name : String)
  | createPool (name : String)
  | patchPoolStatus (name : String) (read patched : ZfsPoolStatus)
  | now
  deriving DecidableEq

@[reducible] def PoolCall.Val : PoolCall → Type
  | .getNode _ => List NodeCondition
  | .listPools => List ZfsPool
  | .getPool _ | .createPool _ => ZfsPool
  | .patchPoolStatus _ _ _ => Unit
  | .now => Nat

abbrev PoolCall.Ret (e : PoolCall) : Type := Except Err e.Val

abbrev PoolProc := Program.Proc PoolCall PoolCall.Ret Err

/-- Who has a cache: the operator, and every node that reports. -/
inductive PoolClient where
  | operator
  | node (name : String)
  deriving DecidableEq, Repr

structure PoolWorld where
  pools : Store Unit ZfsPoolStatus
  copies : PoolClient → Informer String ZfsPool
  /-- the nodes as the operator sees them -/
  nodes : FinMap String (List NodeCondition)
  clock : Nat

/-- Write the pools, and tell the caches of the new version of `name` if there is one. -/
def PoolWorld.writePools (s : PoolWorld) (name : String) (st : Store Unit ZfsPoolStatus) :
    PoolWorld :=
  { s with
    pools := st
    copies := if st.revision = s.pools.revision then s.copies
      else fun client => (s.copies client).notify name (st.lookup name) }

@[simp] theorem PoolWorld.writePools_pools (s : PoolWorld) (name : String)
    (st : Store Unit ZfsPoolStatus) : (s.writePools name st).pools = st := rfl

/-- Answer a call of a client. -/
def PoolWorld.handle (client : PoolClient) : (e : PoolCall) → PoolWorld → e.Ret × PoolWorld
  | .getNode name, s =>
    match s.nodes.lookup name with
    | none => (.error (.notFound name), s)
    | some conditions => (.ok conditions, s)
  | .listPools, s => (.ok (s.copies client).seen.values, s)
  | .getPool name, s =>
    match (s.copies client).seen.lookup name with
    | none => (.error (.notFound name), s)
    | some pool => (.ok pool, s)
  | .createPool name, s =>
    let w := s.pools.create s.clock name () {}
    match w.1 with
    | .ok () => (w.2.get name, s.writePools name w.2)
    | .error e => (.error e, s.writePools name w.2)
  | .patchPoolStatus name read patched, s =>
    let w := s.pools.patchStatus ZfsPoolStatus.merge name read patched
    (w.1, s.writePools name w.2)
  | .now, s => (.ok s.clock, s)

def ask (e : PoolCall) : PoolProc e.Val := Program.Proc.ask e id

/-! ## The reporter of a node -/

structure PoolReporter where
  nodeName : String
  nodeIP : String
  deriving DecidableEq, Repr

namespace PoolReporter

variable (r : PoolReporter)

/-- The object of a pool, which is created if it is missing. -/
def findOrCreate (name : String) : PoolProc ZfsPool := do
  match ← (ask (.getPool name)).outcome with
  | .ok pool => return pool
  | .error e =>
    if e.isNotFound then
      match ← (ask (.createPool name)).outcome with
      | .ok pool => return pool
      | .error (.alreadyExists _) => ask (.getPool name)
      | .error e => throw e
    else throw e

/-- `upsert`. -/
def upsert (p : Pool) : PoolProc Unit := do
  let name := resourceName p.guid
  let pool ← findOrCreate name
  let now ← ask .now
  ask (.patchPoolStatus name pool.status { pool.status with
    guid := p.guid
    poolName := p.name
    currentNode := r.nodeName
    currentIP := r.nodeIP
    baseMountPath := p.mountpoint
    health := p.health
    lastUpdated := some now
    message := "reported by " ++ r.nodeName })

/-- `reportOnce`, of the pools that were discovered. An error is logged. -/
def reportOnce : List Pool → PoolProc Unit
  | [] => return ()
  | p :: rest => do
    let _ ← (r.upsert p).outcome
    reportOnce rest

end PoolReporter

/-! ## The watcher -/

namespace PoolWatcher

/-- `nodeReady`. -/
def nodeReady (conditions : List NodeCondition) : Bool :=
  match conditions.find? (·.1 = "Ready") with
  | some c => c.2
  | none => false

/-- The loop of `offlinePoolsForNode`. -/
def offlinePools (nodeName : String) : List ZfsPool → PoolProc Unit
  | [] => return ()
  | p :: rest => do
    if p.status.currentNode ≠ nodeName then offlinePools nodeName rest
    else if p.status.health = .nodeOffline then offlinePools nodeName rest
    else
      let now ← ask .now
      ask (.patchPoolStatus p.name p.status { p.status with
        health := .nodeOffline
        lastUpdated := some now
        message := "node " ++ nodeName ++ " is unreachable; offlined by watcher" })
      offlinePools nodeName rest

/-- `offlinePoolsForNode`. -/
def offlinePoolsForNode (nodeName : String) : PoolProc Unit := do
  let pools ← ask .listPools
  offlinePools nodeName pools

/-- `Reconcile`. -/
def reconcile (name : String) : PoolProc Unit := do
  match ← (ask (.getNode name)).outcome with
  | .error e => if e.isNotFound then offlinePoolsForNode name else throw e
  | .ok conditions => if nodeReady conditions then return () else offlinePoolsForNode name

end PoolWatcher

/-! ## The system -/

inductive PoolTask where
  | report (r : PoolReporter) (pools : List Pool)
  | watch (node : String)
  deriving DecidableEq

def PoolTask.program : PoolTask → Program PoolCall PoolCall.Ret (Except Err Unit)
  | .report r pools => (r.reportOnce pools).run
  | .watch node => (PoolWatcher.reconcile node).run

/-- A watcher is part of the operator, a reporter of its node. -/
def PoolTask.client : PoolTask → PoolClient
  | .report r _ => .node r.nodeName
  | .watch _ => .operator

abbrev PoolConfig :=
  Concurrent.Config PoolWorld Nat PoolTask PoolCall PoolCall.Ret (Except Err Unit)

end SimpleZfsCsi.Pools
