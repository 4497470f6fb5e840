import SimpleZfsCsi.Agent.Detach

/-!
# Reconciling a ZfsGroupSnapshot

A group is the snapshots of several volumes at one instant. The agent takes all of them in one
call, records the creation time, and creates a ZfsSnapshot for each member, which adopts what
was taken. Once all members have been Ready at the same time it only observes.

`GroupCall` are the calls of the reconciler: those it shares with the other reconcilers, and
those to the API server that only it makes. A read by `gateReader` is a call of its own, since
it bypasses the cache.
-/

namespace SimpleZfsCsi.Group

open Library Api Agent Program

inductive GroupCall where
  | agent (e : AgentCall)
  | readDataset (name : String)
  | readSnapshot (name : String)
  | getGroup (name : String)
  | readGroup (name : String)
  | createSnapshot (name : String) (spec : ZfsSnapshotSpec)
  | deleteSnapshot (name : String)
  | updateGroup (o : ZfsGroupSnapshot)
  | patchGroupStatus (name : String) (read patched : ZfsGroupSnapshotStatus)

/-- A status patch is answered with the status it leaves. -/
@[reducible] def GroupCall.Val : GroupCall → Type
  | .agent e => e.Val
  | .readDataset _ => ZfsDataset
  | .readSnapshot _ => ZfsSnapshot
  | .getGroup _ | .readGroup _ => ZfsGroupSnapshot
  | .patchGroupStatus _ _ _ => ZfsGroupSnapshotStatus
  | .createSnapshot _ _ | .deleteSnapshot _ | .updateGroup _ => Unit

abbrev GroupCall.Ret (e : GroupCall) : Type := Except Err e.Val

/-- A call that fails returns an error without taking effect. -/
def GroupCall.fails (e : GroupCall) (r : e.Ret) : Prop := ∃ msg, r = .error (.other msg)

abbrev GroupProc := Program.Proc GroupCall GroupCall.Ret Err

/-- A merge patch of the status of a group. -/
def mergeStatus (read patched cur : ZfsGroupSnapshotStatus) : ZfsGroupSnapshotStatus where
  provisionedAt := mergeField read.provisionedAt patched.provisionedAt cur.provisionedAt
  phase := mergeField read.phase patched.phase cur.phase
  readyToUse := mergeField read.readyToUse patched.readyToUse cur.readyToUse
  creationTime := mergeField read.creationTime patched.creationTime cur.creationTime
  observedGeneration :=
    mergeField read.observedGeneration patched.observedGeneration cur.observedGeneration
  message := mergeField read.message patched.message cur.message
  conditions := mergeField read.conditions patched.conditions cur.conditions

/-- Patch the status of a group. -/
def patchGroup (st : Store ZfsGroupSnapshotSpec ZfsGroupSnapshotStatus) (name : String)
    (read patched : ZfsGroupSnapshotStatus) :
    Except Err ZfsGroupSnapshotStatus × Store ZfsGroupSnapshotSpec ZfsGroupSnapshotStatus :=
  match st.lookup name with
  | none => (.error (.notFound name), st)
  | some cur =>
    let status := mergeStatus read patched cur.status
    (.ok status, st.put name { cur with status })

theorem patchGroup_store (st : Store ZfsGroupSnapshotSpec ZfsGroupSnapshotStatus) (name : String)
    (read patched : ZfsGroupSnapshotStatus) :
    (patchGroup st name read patched).2 = (st.patchStatus mergeStatus name read patched).2 := by
  unfold patchGroup Store.patchStatus
  cases st.lookup name <;> rfl

/-- Make one call, returning its error. -/
def ask (e : GroupCall) : GroupProc e.Val := Program.Proc.ask e id

/-- Where the reconciler reads objects: from its cache, or from the API server. -/
inductive Reader where
  | cache
  | gate
  deriving DecidableEq, Repr

/-- A call of the other reconcilers, made through a reader. -/
def Reader.call : Reader → (e : AgentCall) → Program GroupCall GroupCall.Ret e.Ret
  | .gate, .getDataset name => .perform (GroupCall.readDataset name)
  | .gate, .getSnapshot name => .perform (GroupCall.readSnapshot name)
  | _, e => .perform (GroupCall.agent e)

/-- What the reconcilers share, with its reads made through a reader. -/
def shared {α : Type} (reader : Reader) (p : AgentProc α) : GroupProc α :=
  ExceptT.mk (p.run.expand reader.call)

/-- `zfsGroupSnapshotFinalizer`. -/
def zfsGroupSnapshotFinalizer : String := "storage.simple-zfs-csi.io/zfsgroupsnapshot"

def groupRequeue : Nat := 5

/-- What dereferencing the first of no names ends in. -/
def indexOutOfRange : Err := .other "runtime error: index out of range [0] with length 0"

structure ZfsGroupSnapshotReconciler where
  nodeName : String

namespace ZfsGroupSnapshotReconciler

variable (r : ZfsGroupSnapshotReconciler)

/-! ## Status -/

/-- `patchStatus`: the group with the status it has after the patch. -/
def patchStatus (grp : ZfsGroupSnapshot) (patched : ZfsGroupSnapshotStatus) :
    GroupProc ZfsGroupSnapshot :=
  if grp.status = patched then return grp
  else do
    let status ← ask (.patchGroupStatus grp.name grp.status patched)
    return { grp with status }

/-- `setStatus`. -/
def setStatus (grp : ZfsGroupSnapshot) (phase : GroupSnapshotPhase) (reason message : String) :
    GroupProc Unit := do
  let provisionedAt ← (if phase = .ready ∧ grp.status.provisionedAt = none then
    some <$> ask (.agent .now)
    else pure grp.status.provisionedAt)
  let _ ← patchStatus grp { grp.status with
    phase := some phase
    readyToUse := phase = .ready
    observedGeneration := grp.metadata.generation
    message
    provisionedAt
    conditions := setStatusCondition grp.status.conditions
      { type := "Ready", status := phase = .ready, reason, message
        observedGeneration := grp.metadata.generation } }

/-- Record a phase, and return. -/
def settle (grp : ZfsGroupSnapshot) (phase : GroupSnapshotPhase) (reason message : String)
    (result : Result := {}) : GroupProc Result := do
  setStatus grp phase reason message
  return result

/-! ## Creating -/

/-- `memberRaw`: the full names of the raw snapshot of a member and of its source. -/
def memberRaw (reader : Reader) (poolName : String) (m : ZfsGroupSnapshotMember) :
    GroupProc (String × String) := do
  let path ← shared reader (resolveDatasetPath m.sourceVolume m.dataset)
  let rawFull ← liftExcept (snapshotFullName poolName path m.snapshotName)
  let datasetFull ← liftExcept (datasetName poolName path)
  return (rawFull, datasetFull)

/-- `exists`. -/
def existsName (name : String) : GroupProc Bool := shared .cache (existsZFS name)

/-- The names of the members' raw snapshots and sources, and how many of the former exist. A
member without names ends the loop with the error that says why. -/
def survey (poolName : String) :
    List ZfsGroupSnapshotMember → GroupProc (Except Err (List (String × String) × Nat))
  | [] => return .ok ([], 0)
  | m :: rest => do
    match ← (memberRaw .cache poolName m).outcome with
    | .error e => return .error e
    | .ok names =>
      let found ← existsName names.1
      match ← survey poolName rest with
      | .error e => return .error e
      | .ok (others, present) =>
        return .ok (names :: others, if found then present + 1 else present)

/-- The source of a member does not exist, unless there is a dataset. -/
def sourceMissing (m : ZfsGroupSnapshotMember) (datasetFull : String) : GroupProc String := do
  if ← existsName datasetFull then return ""
  else return "source dataset " ++ datasetFull ++ " of volume " ++ Err.quoted m.sourceVolume ++
    " does not exist"

/-- `sourceBlocker`: why the source of a member cannot be snapshotted now, or "". -/
def sourceBlocker (m : ZfsGroupSnapshotMember) (datasetFull : String) : GroupProc String := do
  match ← (ask (.agent (.getDataset m.sourceVolume))).outcome with
  | .error e => if e.isNotFound then sourceMissing m datasetFull else throw e
  | .ok src =>
    if src.metadata.terminating then
      return "source volume " ++ Err.quoted m.sourceVolume ++ " is being deleted"
    else sourceMissing m datasetFull

/-- The first reason why a source cannot be snapshotted now, or "". -/
def firstBlocker : List (ZfsGroupSnapshotMember × String) → GroupProc String
  | [] => return ""
  | (m, datasetFull) :: rest => do
    let msg ← sourceBlocker m datasetFull
    if msg ≠ "" then return msg else firstBlocker rest

/-- The spec of the ZfsSnapshot of a member. -/
def childSpec (grp : ZfsGroupSnapshot) (m : ZfsGroupSnapshotMember) : ZfsSnapshotSpec where
  poolGUID := grp.spec.poolGUID
  dataset := m.dataset
  snapshotName := m.snapshotName
  sourceVolume := m.sourceVolume
  sourceType := m.sourceType
  sourceFSType := m.sourceFSType
  sourceVolblocksize := m.sourceVolblocksize
  sourceProperties := m.sourceProperties
  groupSnapshotID := grp.name

/-- The loop of `ensureChildren`. -/
def createChildren (grp : ZfsGroupSnapshot) : List ZfsGroupSnapshotMember → GroupProc Unit
  | [] => return ()
  | m :: rest => do
    match ← (ask (.createSnapshot m.zfsSnapshotRef (childSpec grp m))).outcome with
    | .ok () => createChildren grp rest
    | .error (.alreadyExists _) => createChildren grp rest
    | .error e => throw (.wrap ("create member ZfsSnapshot " ++ Err.quoted m.zfsSnapshotRef) e)

/-- `ensureChildren`. -/
def ensureChildren (grp : ZfsGroupSnapshot) : GroupProc Unit := createChildren grp grp.spec.members

/-- The members that are missing, those that are not ready, and those that failed. -/
structure Members where
  missing : List String := []
  notReady : List String := []
  failed : List String := []

/-- The loop of `derive`. -/
def inspect : List ZfsGroupSnapshotMember → Members → GroupProc Members
  | [], found => return found
  | m :: rest, found => do
    match ← (ask (.agent (.getSnapshot m.zfsSnapshotRef))).outcome with
    | .error e =>
      if e.isNotFound then
        inspect rest { found with missing := found.missing ++ [m.zfsSnapshotRef] }
      else throw e
    | .ok child =>
      if child.status.phase = some .error then
        inspect rest { found with failed := found.failed ++
          [child.name ++ ": " ++ child.status.message] }
      else if child.status.phase = some .ready ∧ child.status.readyToUse then inspect rest found
      else inspect rest { found with notReady := found.notReady ++ [child.name] }

/-- `derive`: the phase of a group, from its members. -/
def derive (grp : ZfsGroupSnapshot) (provisioning : Bool) : GroupProc Result := do
  let found ← inspect grp.spec.members {}
  if found.failed ≠ [] ∧ provisioning then
    settle grp .error "MemberFailed" (Text.join "; " found.failed)
  else if found.missing = [] ∧ found.notReady = [] ∧ found.failed = [] then
    settle grp .ready "Ready"
      ("all " ++ toString grp.spec.members.length ++ " member snapshots are ready")
  else if provisioning then
    settle grp .pending "WaitingForMembers"
      ("waiting for member snapshots: " ++ Text.join ", " (found.missing ++ found.notReady))
      { requeueAfter := groupRequeue }
  else
    settle grp .lost "MembersLost" ("member snapshots missing or not ready: " ++
      Text.join ", " (found.missing ++ found.notReady ++ found.failed) ++ "; nothing is re-created")

/-- `observe`. -/
def observe (grp : ZfsGroupSnapshot) : GroupProc Result := derive grp false

/-- The raw snapshots exist: record the creation time, and create the members. -/
def adopt (grp : ZfsGroupSnapshot) (raws : List String) : GroupProc Result := do
  let grp ← (if grp.status.creationTime = none then
      match raws with
      | [] => throw indexOutOfRange
      | first :: _ => do
        let creation ← shared .cache (snapshotCreationTime first)
        patchStatus grp { grp.status with creationTime := some creation }
    else pure grp)
  ensureChildren grp
  derive grp true

/-- Take all raw snapshots in one call. -/
def takeAll (grp : ZfsGroupSnapshot) (raws : List String) : GroupProc Result := do
  match ← (ask (.agent (.snapshot raws))).outcome with
  | .ok () => adopt grp raws
  | .error .snapshotsPartiallyExist =>
    settle grp .error "PartialRawSnapshots" Err.snapshotsPartiallyExist.message
  | .error e =>
    -- a failed status write does not mask the failure
    let _ ← (setStatus grp .pending "SnapshotFailed" e.message).outcome
    throw e

/-- The three-way decision of `provision`: adopt what exists, take everything, or refuse to fill
a gap. -/
def decideRaws (grp : ZfsGroupSnapshot) (names : List (String × String)) (present : Nat) :
    GroupProc Result := do
  let raws := names.map (·.1)
  let msg ← (if present = 0 then firstBlocker (grp.spec.members.zip (names.map (·.2))) else pure "")
  if msg ≠ "" then
    settle grp .pending "SourceUnavailable" msg { requeueAfter := groupRequeue }
  else if present = raws.length then adopt grp raws
  else if present = 0 then takeAll grp raws
  else
    settle grp .error "PartialRawSnapshots" (toString present ++ " of " ++ toString raws.length ++
      " raw snapshots exist; refusing to take the rest at a different instant")

/-- `provision`. -/
def provision (grp : ZfsGroupSnapshot) (pool : ZfsPool) : GroupProc Result := do
  match ← (ask (.readGroup grp.name)).outcome with
  | .error e => if e.isNotFound then return {} else throw e
  | .ok fresh =>
    if fresh.metadata.terminating ∨ fresh.status.provisionedAt ≠ none then
      return { requeueAfter := 1 }
    else
      let grp := { grp with status := fresh.status }
      match ← survey pool.status.poolName grp.spec.members with
      | .error e => settle grp .error "InvalidGroupSnapshot" e.message
      | .ok (names, present) => decideRaws grp names present

/-! ## Deleting -/

/-- A member that has no ZfsSnapshot: before the group was provisioned, destroy what may be
left of it. -/
def dropRaw (grp : ZfsGroupSnapshot) (poolHere : Option String) (m : ZfsGroupSnapshotMember) :
    GroupProc Unit :=
  if grp.status.provisionedAt ≠ none then return ()
  else
    match poolHere with
    | none => return ()
    | some poolName => do
      let names ← memberRaw .gate poolName m
      ask (.agent (.destroy names.1 false))

/-- The loop of `reconcileDelete`: how many members remain. -/
def deleteMembers (grp : ZfsGroupSnapshot) (poolHere : Option String) :
    List ZfsGroupSnapshotMember → Nat → GroupProc Nat
  | [], remaining => return remaining
  | m :: rest, remaining => do
    match ← (ask (.readSnapshot m.zfsSnapshotRef)).outcome with
    | .ok child =>
      if child.metadata.terminating then deleteMembers grp poolHere rest (remaining + 1)
      else
        match ← (ask (.deleteSnapshot child.name)).outcome with
        | .ok () => deleteMembers grp poolHere rest (remaining + 1)
        | .error e =>
          if e.isNotFound then deleteMembers grp poolHere rest (remaining + 1) else throw e
    | .error e =>
      if e.isNotFound then
        dropRaw grp poolHere m
        deleteMembers grp poolHere rest remaining
      else throw e

/-- `releaseFinalizer`. -/
def releaseFinalizer (grp : ZfsGroupSnapshot) : GroupProc Unit :=
  retryOnConflict (do
    match ← (ask (.getGroup grp.name)).outcome with
    | .error e => if e.isNotFound then return () else throw e
    | .ok cur =>
      if cur.containsFinalizer zfsGroupSnapshotFinalizer then
        ask (.updateGroup (cur.removeFinalizer zfsGroupSnapshotFinalizer))
      else return ()) defaultRetries

/-- `reconcileDelete`; `poolHere` is the name of the pool if this node hosts it. -/
def reconcileDelete (grp : ZfsGroupSnapshot) (poolHere : Option String) : GroupProc Result := do
  match ← (ask (.readGroup grp.name)).outcome with
  | .error e => if e.isNotFound then return {} else throw e
  | .ok fresh =>
    let remaining ← deleteMembers fresh poolHere fresh.spec.members 0
    if remaining > 0 then return { requeueAfter := groupRequeue }
    else
      releaseFinalizer fresh
      return {}

/-- `Reconcile`. -/
def reconcile (name : String) : GroupProc Result := do
  match ← (ask (.getGroup name)).outcome with
  | .error e => if e.isNotFound then return {} else throw e
  | .ok grp =>
    let found ← shared .cache (findPool grp.spec.poolGUID)
    if grp.metadata.terminating then
      if grp.containsFinalizer zfsGroupSnapshotFinalizer then
        match found with
        | none => reconcileDelete grp none
        | some pool =>
          if hostedHere r.nodeName found then reconcileDelete grp (some pool.status.poolName)
            else return {}
      else return {}
    else
      match found with
      | none => return {}
      | some pool =>
        if hostedHere r.nodeName found then
          if grp.containsFinalizer zfsGroupSnapshotFinalizer then
            if grp.status.provisionedAt ≠ none then observe grp else provision grp pool
          else
            ask (.updateGroup (grp.addFinalizer zfsGroupSnapshotFinalizer))
            return {}
        else return {}

end ZfsGroupSnapshotReconciler

end SimpleZfsCsi.Group
