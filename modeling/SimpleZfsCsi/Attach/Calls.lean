import SimpleZfsCsi.Api.NetworkExport
import SimpleZfsCsi.Api.Storage
import SimpleZfsCsi.Library.Program

/-!
# Attach requests and shares

`ControllerPublishVolume` asks for a node's access to a volume by creating a
`ZfsShareAttachRequest`; the operator aggregates the requests of a volume into one
`ZfsShare` and reports back in the status of each request. Both are clients of one API
server, which is all they share: `AttachCall` are their calls and `AttachWorld` answers
them. `published` records the publishes that returned success and were not followed by an
unpublish; no program reads it.
-/

namespace SimpleZfsCsi.Attach

open Library Api

structure AttachRequestSpec where
  volumeName : String
  nodeName : String
  singleNode : Bool := false
  deriving DecidableEq, Repr

structure AttachRequestStatus where
  ready : Bool := false
  shareName : String := ""
  observedGeneration : Nat := 0
  message : String := ""
  conditions : List Condition := []
  deriving DecidableEq, Repr

abbrev AttachRequest := Object AttachRequestSpec AttachRequestStatus

def AttachRequestStatus.merge (read patched cur : AttachRequestStatus) : AttachRequestStatus where
  ready := mergeField read.ready patched.ready cur.ready
  shareName := mergeField read.shareName patched.shareName cur.shareName
  observedGeneration :=
    mergeField read.observedGeneration patched.observedGeneration cur.observedGeneration
  message := mergeField read.message patched.message cur.message
  conditions := mergeField read.conditions patched.conditions cur.conditions

inductive SharePhase where
  | pending | exporting | bound | error
  deriving DecidableEq, Repr

structure ShareSpec where
  poolGUID : String
  dataset : String
  protocol : Protocol
  nfs : Option NFSExportSpec := none
  nvmeof : Option NVMeoFExportSpec := none
  deriving DecidableEq, Repr

structure ShareStatus where
  phase : Option SharePhase := none
  observedGeneration : Nat := 0
  deriving DecidableEq, Repr

abbrev Share := Object ShareSpec ShareStatus

/-- An address of a node: its type and its value. -/
structure NodeAddress where
  isInternalIP : Bool
  address : String
  deriving DecidableEq, Repr

inductive AttachCall where
  | getDataset (name : String)
  | getPool (name : String)
  | getNode (name : String)
  | listRequests
  | getRequest (name : String)
  | createRequest (name : String) (spec : AttachRequestSpec)
  | updateRequest (o : AttachRequest)
  | patchRequestStatus (name : String) (read patched : AttachRequestStatus)
  | deleteRequest (name : String)
  | getShare (name : String)
  | createShare (name : String) (spec : ShareSpec)
  | updateShare (o : Share)
  | deleteShare (name : String)
  | getSecret (ns name : String)
  | createSecret (ns name : String) (data : List (String × String))
  | deleteSecret (ns name : String)
  | generateDHChapKey

@[reducible] def AttachCall.Val : AttachCall → Type
  | .getDataset _ => ZfsDataset
  | .getPool _ => ZfsPool
  | .getNode _ => List NodeAddress
  | .listRequests => List AttachRequest
  | .getRequest _ => AttachRequest
  | .getShare _ | .createShare _ _ | .updateShare _ => Share
  | .generateDHChapKey => String
  | _ => Unit

abbrev AttachCall.Ret (e : AttachCall) : Type := Except Err e.Val

abbrev AttachProc := Program.Proc AttachCall AttachCall.Ret

structure AttachWorld where
  requests : Store AttachRequestSpec AttachRequestStatus
  shares : Store ShareSpec ShareStatus
  datasets : Store ZfsDatasetSpec ZfsDatasetStatus
  pools : Store Unit ZfsPoolStatus
  nodes : FinMap String (List NodeAddress)
  secrets : FinMap (String × String) (List (String × String))
  /-- the API server's clock, in seconds -/
  clock : Nat
  nextKey : String
  published : List (String × String)

/-- A write to a store, answered with the object it left. -/
def withObject (name : String) (r : Except Err Unit × Store ShareSpec ShareStatus) :
    Except Err Share × Store ShareSpec ShareStatus :=
  match r.1 with
  | .error e => (.error e, r.2)
  | .ok () => (r.2.get name, r.2)

/-- Answer a call. Every read is current. -/
def AttachWorld.handle : (e : AttachCall) → AttachWorld → e.Ret × AttachWorld
  | .getDataset name, s => (s.datasets.get name, s)
  | .getPool name, s => (s.pools.get name, s)
  | .getNode name, s =>
    match s.nodes.lookup name with
    | none => (.error (.notFound name), s)
    | some addresses => (.ok addresses, s)
  | .listRequests, s => (.ok s.requests.values, s)
  | .getRequest name, s => (s.requests.get name, s)
  | .createRequest name spec, s =>
    let w := s.requests.create s.clock name spec {}
    (w.1, { s with requests := w.2 })
  | .updateRequest o, s =>
    let w := s.requests.update o
    (w.1, { s with requests := w.2 })
  | .patchRequestStatus name read patched, s =>
    let w := s.requests.patchStatus AttachRequestStatus.merge name read patched
    (w.1, { s with requests := w.2 })
  | .deleteRequest name, s =>
    let w := s.requests.delete name
    (w.1, { s with requests := w.2 })
  | .getShare name, s => (s.shares.get name, s)
  | .createShare name spec, s =>
    let w := withObject name (s.shares.create s.clock name spec {})
    (w.1, { s with shares := w.2 })
  | .updateShare o, s =>
    let w := withObject o.name (s.shares.update o)
    (w.1, { s with shares := w.2 })
  | .deleteShare name, s =>
    let w := s.shares.delete name
    (w.1, { s with shares := w.2 })
  | .getSecret ns name, s =>
    match s.secrets.lookup (ns, name) with
    | none => (.error (.notFound name), s)
    | some _ => (.ok (), s)
  | .createSecret ns name data, s =>
    match s.secrets.lookup (ns, name) with
    | none => (.ok (), { s with secrets := s.secrets.insert (ns, name) data })
    | some _ => (.error (.alreadyExists name), s)
  | .deleteSecret ns name, s => (.ok (), { s with secrets := s.secrets.erase (ns, name) })
  | .generateDHChapKey, s => (.ok s.nextKey, s)

/-- Make one call, returning its error. -/
def ask (e : AttachCall) : AttachProc Err e.Val := Program.Proc.ask e id

/-- The calls that write attach requests. -/
def AttachCall.writesRequests : AttachCall → Bool
  | .createRequest _ _ | .updateRequest _ | .patchRequestStatus _ _ _ | .deleteRequest _ => true
  | _ => false

theorem AttachWorld.handle_quiet {e : AttachCall} (he : e.writesRequests = false)
    (s : AttachWorld) :
    (AttachWorld.handle e s).2.requests = s.requests ∧
      (AttachWorld.handle e s).2.published = s.published ∧
      (AttachWorld.handle e s).2.clock = s.clock := by
  cases e with
  | getNode name =>
    simp only [AttachWorld.handle]
    split <;> exact ⟨rfl, rfl, rfl⟩
  | getSecret ns name =>
    simp only [AttachWorld.handle]
    split <;> exact ⟨rfl, rfl, rfl⟩
  | createSecret ns name data =>
    simp only [AttachWorld.handle]
    split <;> exact ⟨rfl, rfl, rfl⟩
  | createRequest _ _ | updateRequest _ | patchRequestStatus _ _ _ | deleteRequest _ =>
    simp [AttachCall.writesRequests] at he
  | _ => exact ⟨rfl, rfl, rfl⟩

end SimpleZfsCsi.Attach
