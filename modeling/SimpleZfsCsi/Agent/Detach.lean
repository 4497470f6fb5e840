import SimpleZfsCsi.Agent.Names

/-!
# Finding a raw snapshot, and detaching what depends on a dataset

Both look only at ZFS. `locateRawSnapshot` knows the places a raw snapshot can be in.
`detachAndCleanSnapshots` leaves a dataset without snapshots: each round destroys those that
nothing clones and promotes one clone away, and the next round reads everything again.
-/

namespace SimpleZfsCsi.Agent

open Library Api

/-- Whether a name exists. -/
def existsZFS (name : String) : AgentProc Bool := do
  match ← (ask (.get name "type")).outcome with
  | .ok _ => return true
  | .error e => if e.isNotExist then return false else throw e

/-- The first of the names that exists, or "". -/
def firstExisting : List String → AgentProc String
  | [] => return ""
  | cand :: rest => do
    if ← existsZFS cand then return cand else firstExisting rest

/-- `locateRawSnapshot`. -/
def locateRawSnapshot (backingFull recordedRaw suffix : String) : AgentProc String := do
  let others := [backingFull ++ "@" ++ suffix, recordedRaw]
  match ← (ask (.get backingFull "origin")).outcome with
  | .ok got =>
    let origin := Text.trimSpace got
    if Text.endsWith origin ("@" ++ suffix) then firstExisting (origin :: others)
    else firstExisting others
  | .error e => if e.isNotExist then firstExisting others else throw e

/-- `maxDetachRounds`. -/
def maxDetachRounds : Nat := 100

/-- Destroy the snapshots that nothing clones, and collect the others with their clones. -/
def cleanSnapshots : List String → AgentProc (List (String × List String))
  | [] => return []
  | snap :: rest => do
    match ← (ask (.clones snap)).outcome with
    | .error e => if e.isNotExist then cleanSnapshots rest else throw e
    | .ok [] =>
      match ← (ask (.destroySnapshotDeferred snap)).outcome with
      | .ok () => cleanSnapshots rest
      | .error e => throw (.wrap ("destroy snapshot " ++ Err.quoted snap) e)
    | .ok clones =>
      let others ← cleanSnapshots rest
      return (snap, clones) :: others

/-- The snapshots and clones to choose from. -/
def candidates (cloned : List (String × List String)) : List (String × String) :=
  cloned.flatMap fun (snap, clones) => clones.map fun clone => (snap, clone)

/-- The first candidate that is a backing clone, or `pick`. -/
def pickBacking (pick : String × String) : List (String × String) → AgentProc (String × String)
  | [] => return pick
  | cd :: rest => do
    match ← (ask (.get cd.2 propRole)).outcome with
    | .error e => if e.isNotExist then pickBacking pick rest else throw e
    | .ok role => if Text.trimSpace role = roleBacking then return cd else pickBacking pick rest

/-- `assertKnownDatasets`. -/
def assertKnownDatasets (poolGUID poolName snap : String) (clones : List String) :
    AgentProc Unit := do
  let datasets ← ask .listDatasets
  let known := (datasets.filter (·.spec.poolGUID = poolGUID)).map fun d =>
    Text.trimSlashes d.spec.dataset
  let snaps ← ask .listZfsSnapshots
  let backing := (snaps.filter fun s => s.spec.poolGUID = poolGUID ∧ s.spec.snapshotName ≠ "").map
    (·.spec.snapshotName)
  match clones.find? fun clone =>
      !(datasetPathOf poolName clone ∈
        known || Text.base (datasetPathOf poolName clone) ∈ backing) with
  | some clone => throw (.unknownClone snap clone)
  | none => return ()

/-- Promote the clone that was picked away from the dataset. -/
def promoteAway (poolGUID poolName : String) (cloned : List (String × List String))
    (first : String × String) : AgentProc Unit := do
  let pick ← pickBacking first (candidates cloned)
  assertKnownDatasets poolGUID poolName pick.1 ((cloned.lookup pick.1).getD [])
  match ← (ask (.promote pick.2)).outcome with
  | .ok () => return ()
  | .error e =>
    throw (.wrap ("promote " ++ Err.quoted pick.2 ++ " away from " ++ Err.quoted pick.1) e)

/-- `detachAndCleanSnapshots`, with the number of rounds that are left. -/
def detachRounds (poolGUID poolName full : String) : Nat → AgentProc Unit
  | 0 => throw (.notConverged full maxDetachRounds)
  | rounds + 1 => do
    match ← (ask (.listSnapshots full)).outcome with
    | .error e => if e.isNotExist then return () else throw e
    | .ok [] => return ()
    | .ok snaps =>
      -- every snapshot is checked before anything is touched
      liftExcept (snaps.forM assertDriverSnapshot)
      let cloned ← cleanSnapshots snaps
      match candidates cloned with
      | [] => return ()
      | first :: _ =>
        promoteAway poolGUID poolName cloned first
        detachRounds poolGUID poolName full rounds

def detachAndCleanSnapshots (poolGUID poolName full : String) : AgentProc Unit :=
  detachRounds poolGUID poolName full maxDetachRounds

/-- `resolveDatasetPath`. -/
def resolveDatasetPath (sourceVolume recorded : String) : AgentProc String := do
  if sourceVolume = "" then return recorded
  else
    match ← (ask (.getDataset sourceVolume)).outcome with
    | .ok src => return src.spec.dataset
    | .error e => if e.isNotFound then return recorded else throw e

/-- The pool of an object, and whether the agent's node hosts it. -/
def hostedHere (nodeName : String) : Option ZfsPool → Bool
  | none => false
  | some pool => pool.status.currentNode = nodeName && pool.status.health ≠ .nodeOffline

/-- Read the `ZfsPool` of an object, if there is one. -/
def findPool (guid : String) : AgentProc (Option ZfsPool) := do
  match ← (ask (.getPool (resourceName guid))).outcome with
  | .ok pool => return some pool
  | .error e => if e.isNotFound then return none else throw e

/-- `snapshotCreationTime`: the time ZFS reports, or now. -/
def snapshotCreationTime (full : String) : AgentProc Nat := do
  match ← (ask (.get full "creation")).outcome with
  | .ok val =>
    let sec := Text.parseInt (Text.trimSpace val)
    if sec.2 ∧ sec.1 > 0 then return sec.1.toNat else ask .now
  | .error _ => ask .now

end SimpleZfsCsi.Agent
