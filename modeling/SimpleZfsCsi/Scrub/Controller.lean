import SimpleZfsCsi.Api.Storage
import SimpleZfsCsi.Library.Concurrent
import SimpleZfsCsi.Library.Informer
import SimpleZfsCsi.Library.Text

/-!
# Running one scrub

The operator runs a `ZfsPoolScrubJob` as a Kubernetes Job of the same name and mirrors its outcome
into the status. It reads both from its cache, and writes the status with the resource version
of the copy it read. The parsing of the template is not modelled: it is a Job spec or missing.
-/

namespace SimpleZfsCsi.Scrub

open Library Api

inductive ScrubPhase where
  | pending | running | succeeded | failed
  deriving DecidableEq, Repr

structure ScrubJobSpec where
  poolGUID : String
  /-- as a duration prints -/
  timeout : Option String := none
  activeDeadlineSeconds : Option Int := none
  ttlSecondsAfterFinished : Option Int := none
  deriving DecidableEq, Repr

structure ScrubJobStatus where
  phase : Option ScrubPhase := none
  jobName : String := ""
  startTime : Option Nat := none
  completionTime : Option Nat := none
  message : String := ""
  deriving DecidableEq, Repr

abbrev ZfsPoolScrubJob := Object ScrubJobSpec ScrubJobStatus

/-! ## Jobs -/

structure Container where
  name : String
  args : List String := []
  /-- `TerminationMessageFallbackToLogsOnError` -/
  fallbackToLogs : Bool := false
  deriving DecidableEq, Repr

structure JobSpec where
  containers : List Container := []
  /-- the node of the affinity -/
  hostname : Option String := none
  activeDeadlineSeconds : Option Int := none
  ttlSecondsAfterFinished : Option Int := none
  deriving DecidableEq, Repr

inductive JobConditionType where
  | complete | failed | other
  deriving DecidableEq, Repr

structure JobCondition where
  type : JobConditionType
  status : Bool
  reason : String := ""
  message : String := ""
  deriving DecidableEq, Repr

structure Job where
  name : String
  /-- the uid of the controller -/
  controller : Option Nat := none
  poolGUID : String := ""
  spec : JobSpec := {}
  startTime : Option Nat := none
  conditions : List JobCondition := []
  deriving DecidableEq, Repr

/-- A terminated container: its exit code and its message. -/
abbrev Terminated := Int × String

/-- `withArg`. -/
def withArg (args : List String) (start value : String) : List String :=
  args.filter (fun a => !Text.startsWith a start) ++ [start ++ value]

/-- The container that is customised: the last one called `scrub`, or the first one. -/
def scrubContainer (containers : List Container) : Nat :=
  containers.zipIdx.foldl (fun idx c => if c.1.name = "scrub" then c.2 else idx) 0

/-- `buildScrubJobSpec`. -/
def buildScrubJobSpec (template : JobSpec) (guid node : String) (cr : ScrubJobSpec) : JobSpec where
  hostname := if node ≠ "" then some node else template.hostname
  containers := template.containers.modify (scrubContainer template.containers) fun c =>
    let args := withArg c.args "--pool-guid=" guid
    { c with
      args := match cr.timeout with
        | none => args
        | some timeout => withArg args "--timeout=" timeout
      fallbackToLogs := true }
  activeDeadlineSeconds := cr.activeDeadlineSeconds.or template.activeDeadlineSeconds
  ttlSecondsAfterFinished := cr.ttlSecondsAfterFinished.or template.ttlSecondsAfterFinished

/-- `zfsPoolGUID`. -/
def zfsPoolGUID (p : ZfsPool) : String :=
  if p.status.guid ≠ "" then p.status.guid else Text.trimStart p.name "zpool-"

/-- `poolsByGUID`; of two pools with one GUID the last one counts. -/
def poolByGUID (pools : List ZfsPool) (guid : String) : Option ZfsPool :=
  pools.reverse.find? fun p => zfsPoolGUID p = guid

/-- `scrubPoolHost`: the node of the pool, or why there is none. -/
def scrubPoolHost : Option ZfsPool → Except String String
  | none => .error "pool not found"
  | some pool =>
    if pool.status.health = .nodeOffline then .error "pool's node is offline"
    else if pool.status.currentNode = "" then .error "pool has no current node"
    else .ok pool.status.currentNode

/-- The last characters that fit into so many bytes. -/
def lastBytes (bytes : Nat) (s : String) : String :=
  String.ofList ((s.toList.reverse.foldl (fun acc c =>
    if (String.ofList (c :: acc.1)).utf8ByteSize ≤ bytes ∧ acc.2 then (c :: acc.1, true)
    else (acc.1, false)) ([], true)).1)

/-- `truncateScrubMessage`, which cuts between characters here. -/
def truncateScrubMessage (s : String) : String :=
  if s.utf8ByteSize ≤ 1024 then s else "…" ++ lastBytes 1024 s

/-! ## The reconciler -/

inductive ScrubCall where
  | getScrubJob (name : String)
  | getJob (name : String)
  | getTemplate
  | listPools
  | createJob (job : Job)
  | updateStatus (o : ZfsPoolScrubJob)
  | listPods (jobName : String)
  | now
  deriving DecidableEq

@[reducible] def ScrubCall.Val : ScrubCall → Type
  | .getScrubJob _ => ZfsPoolScrubJob
  | .getJob _ => Job
  | .getTemplate => Option JobSpec
  | .listPools => List ZfsPool
  | .listPods _ => List Terminated
  | .now => Nat
  | .createJob _ | .updateStatus _ => Unit

abbrev ScrubCall.Ret (e : ScrubCall) : Type := Except Err e.Val

abbrev ScrubProc := Program.Proc ScrubCall ScrubCall.Ret Err

def ask (e : ScrubCall) : ScrubProc e.Val := Program.Proc.ask e id

/-- Whether to reconcile again, after so many seconds. -/
inductive Requeue where
  | no | now | after (seconds : Nat)
  deriving DecidableEq, Repr

namespace ZfsPoolScrubJobReconciler

/-- `setPhase`. -/
def setPhase (cr : ZfsPoolScrubJob) (phase : ScrubPhase) (msg : String) : ScrubProc Unit :=
  if cr.status.phase = some phase ∧ cr.status.message = msg then return ()
  else ask (.updateStatus { cr with status := { cr.status with
    phase := some phase, message := truncateScrubMessage msg } })

/-- `finish`. -/
def finish (cr : ZfsPoolScrubJob) (phase : ScrubPhase) (msg : String) : ScrubProc Unit := do
  let now ← ask .now
  ask (.updateStatus { cr with status := { cr.status with
    phase := some phase, completionTime := some now, message := truncateScrubMessage msg } })

/-- `failureMessage`: what the first container that failed said. -/
def failureMessage (job : Job) : ScrubProc String := do
  match ← (ask (.listPods job.name)).outcome with
  | .error _ => return ""
  | .ok containers =>
    match containers.find? (·.1 ≠ 0) with
    | none => return ""
    | some (code, message) =>
      let msg := Text.trimSpace message
      return truncateScrubMessage
        (if msg = "" then "scrub container exited with code " ++ toString code else msg)

/-- The loop over the conditions in `syncFromJob`. -/
def syncConditions (cr : ZfsPoolScrubJob) (job : Job) : List JobCondition → ScrubProc Unit
  | [] => setPhase cr .running cr.status.message
  | c :: rest =>
    if c.status = false then syncConditions cr job rest
    else
      match c.type with
      | .complete => finish cr .succeeded "scrub completed cleanly"
      | .failed => do
        let msg ← failureMessage job
        finish cr .failed (if msg = "" then c.reason ++ ": " ++ c.message else msg)
      | .other => syncConditions cr job rest

/-- `syncFromJob`. -/
def syncFromJob (cr : ZfsPoolScrubJob) (job : Job) : ScrubProc Unit :=
  syncConditions
    { cr with status := { cr.status with jobName := job.name, startTime := job.startTime } }
    job job.conditions

/-- The Job of a scrub. -/
def jobFor (cr : ZfsPoolScrubJob) (template : JobSpec) (node : String) : Job where
  name := cr.name
  controller := some cr.metadata.uid
  poolGUID := cr.spec.poolGUID
  spec := buildScrubJobSpec template cr.spec.poolGUID node cr.spec

/-- `start`. -/
def start (cr : ZfsPoolScrubJob) : ScrubProc Requeue := do
  match ← ask .getTemplate with
  | none =>
    setPhase cr .pending "scrub template ConfigMap is missing or empty"
    return .after 30
  | some template =>
    let pools ← ask .listPools
    match scrubPoolHost (poolByGUID pools cr.spec.poolGUID) with
    | .error unavailable =>
      finish cr .failed ("cannot scrub pool " ++ cr.spec.poolGUID ++ ": " ++ unavailable)
      return .no
    | .ok node =>
      match ← (ask (.createJob (jobFor cr template node))).outcome with
      | .error (.alreadyExists _) => return .now
      | .error e =>
        finish cr .failed ("create scrub Job: " ++ e.message)
        return .no
      | .ok () =>
        setPhase { cr with status := { cr.status with jobName := cr.name } } .running
          ("scrub started on node " ++ node)
        return .no

/-- What `Reconcile` does once it has read the scrub. -/
def reconcileCopy (cr : ZfsPoolScrubJob) : ScrubProc Requeue := do
  if cr.status.phase = some .succeeded ∨ cr.status.phase = some .failed then return .no
  else
    match ← (ask (.getJob cr.name)).outcome with
    | .error e =>
      if e.isNotFound then
        if cr.status.phase = some .running then
          finish cr .failed "the scrub Job disappeared before it finished"
          return .no
        else start cr
      else throw e
    | .ok job =>
      if job.controller ≠ some cr.metadata.uid then
        finish cr .failed ("a Job named " ++ Err.quoted job.name ++
          " already exists and is not owned by this scrub")
        return .no
      else
        syncFromJob cr job
        return .no

/-- `Reconcile`. -/
def reconcile (name : String) : ScrubProc Requeue := do
  match ← (ask (.getScrubJob name)).outcome with
  | .error e => if e.isNotFound then return .no else throw e
  | .ok cr => reconcileCopy cr

end ZfsPoolScrubJobReconciler

end SimpleZfsCsi.Scrub
