import SimpleZfsCsi.Exporter.Controller
import SimpleZfsCsi.Library.Concurrent
import SimpleZfsCsi.Library.Informer

/-!
# The exporters of all nodes

Every exporter reads NetworkExports from its own cache. The versions of an export reach a
cache in order and at any time; a version whose node and protocol are the exporter's puts the
export into its queue, and of a removed export that is decided by the last copy. An exporter
processes one request at a time, and a request that fails goes back into the queue. Anyone
creates, updates and deletes exports meanwhile, within what `allowed` says.

To apply exports is one call here, which is done or fails without an effect. What it consists of is
in `Nfs.Controller`: there the file may be written and its reload fail, which this call does not
carry over.
-/

namespace SimpleZfsCsi.Exporter

open Library Api Program Concurrent

structure ExporterId where
  node : String
  protocol : Protocol
  deriving DecidableEq, Repr

/-- `nodeProtocolPredicate`. -/
def ExporterId.owns (x : ExporterId) (o : NetworkExport) : Bool :=
  o.spec.nodeName = x.node && o.spec.protocol = x.protocol

structure Cluster where
  store : Store NetworkExportSpec NetworkExportStatus
  /-- the data of a secret, by namespace and name -/
  secrets : String → String → Option (String → String)
  cache : ExporterId → Informer String NetworkExport
  queue : ExporterId → List String
  /-- the request an exporter is processing -/
  processing : ExporterId → Option String
  /-- what was last applied on the host -/
  applied : ExporterId → List HostExport

namespace Cluster

/-- Nothing is exported yet. -/
def empty : Cluster where
  store := .empty
  secrets _ _ := none
  cache _ := .synced FinMap.empty
  queue _ := []
  processing _ := none
  applied _ := []

/-- Write the exports, and tell the caches of the new version of `name` if there is one. -/
def write (s : Cluster) (name : String)
    (st : Store NetworkExportSpec NetworkExportStatus) : Cluster :=
  if st.revision = s.store.revision then s
  else { s with store := st, cache := fun x => (s.cache x).notify name (st.lookup name) }

def enqueue (queue : List String) (name : String) : List String :=
  if name ∈ queue then queue else queue ++ [name]

/-- Whether the predicate lets the next version of an export through. -/
def letsThrough (s : Cluster) (x : ExporterId) (name : String) : Bool :=
  match (s.cache x).pending name with
  | [] => false
  | some o :: _ => x.owns o
  | none :: _ => ((s.cache x).seen.lookup name).any x.owns

/-- The next version of an export reaches an exporter. -/
def deliver (s : Cluster) (x : ExporterId) (name : String) : Cluster :=
  { s with
    cache := Function.update s.cache x ((s.cache x).deliver name)
    queue := if s.letsThrough x name then Function.update s.queue x (enqueue (s.queue x) name)
      else s.queue }

/-- The status a patch results in, if it changes anything. -/
def patched (s : Cluster) (name : String) (read patched : NetworkExportStatus) : Bool :=
  (s.store.lookup name).any fun cur => NetworkExportStatus.merge read patched
    cur.status ≠ cur.status

/-- Answer a call of an exporter. Reading the requested export takes it from the queue. -/
def handle (t : ExporterId × String) : (e : ExporterCall) → Cluster → e.Ret × Cluster
  | .getExport name, s =>
    (match (s.cache t.1).seen.lookup name with
      | none => .error (.notFound name)
      | some o => .ok o,
      { s with
        queue := Function.update s.queue t.1 ((s.queue t.1).filter (· ≠ name))
        processing := Function.update s.processing t.1 (some name) })
  | .listExports, s => (.ok (s.cache t.1).seen.values, s)
  | .updateExport o, s => ((s.store.update o).1, s.write o.name (s.store.update o).2)
  | .patchExportStatus name read patched, s =>
    let r := s.store.patchStatus NetworkExportStatus.merge name read patched
    -- a patch that changes nothing writes no new version
    (r.1, if s.patched name read patched then s.write name r.2 else s)
  | .getSecret ns name, s =>
    (match s.secrets ns name with
      | none => .error (.notFound name)
      | some data => .ok data, s)
  | .apply desired, s => (.ok (), { s with applied := Function.update s.applied t.1 desired })

/-- The result of a request. -/
def finish (t : ExporterId × String) (r : Except Err Unit) (s : Cluster) : Cluster :=
  { s with
    processing := Function.update s.processing t.1 none
    queue := match r with
      | .ok () => s.queue
      | .error _ => Function.update s.queue t.1 (enqueue (s.queue t.1) t.2) }

end Cluster

/-- Reads of the cache do not fail. -/
def ExporterCall.fails (e : ExporterCall) (r : e.Ret) : Prop :=
  match e with
  | .getExport _ | .listExports => False
  | .updateExport _ | .patchExportStatus _ _ _ | .getSecret _ _ | .apply _ =>
    ∃ msg, r = .error (.other msg)

/-- What is asked of the API server. -/
inductive ExportRequest where
  | create (name : String) (spec : NetworkExportSpec)
  | update (name : String) (spec : NetworkExportSpec)
  | delete (name : String)

def Cluster.request (s : Cluster) : ExportRequest → Cluster
  | .create name spec => s.write name (s.store.create 0 name spec {}).2
  | .update name spec =>
    match s.store.lookup name with
    | none => s
    | some cur => s.write name (s.store.update { cur with spec }).2
  | .delete name => s.write name (s.store.delete name).2

/-- What happens by itself. -/
inductive Happens (allowed : Cluster → ExportRequest → Prop) : Cluster → Cluster → Prop where
  | request {s : Cluster} (req : ExportRequest) (hreq : allowed s req) :
    Happens allowed s (s.request req)
  | deliver (s : Cluster) (x : ExporterId) (name : String) : Happens allowed s (s.deliver x name)
  | secrets (s : Cluster) (secrets : String → String → Option (String → String)) :
      Happens allowed s { s with secrets }

/-- The program of a request. -/
def requestProgram (nqnStart : String) (t : ExporterId × String) :
    ExporterProgram (Except Err Unit) :=
  match t.1.protocol with
  | .nfs => NFSReconciler.reconcile t.1.node t.2
  | .nvmeof => NVMeoFReconciler.reconcile nqnStart t.1.node t.2

/-- One worker for each exporter of the fleet. -/
def exporters (nqnStart : String) (fleet : List ExporterId)
    (allowed : Cluster → ExportRequest → Prop) :
    System Cluster ExporterId (ExporterId × String) ExporterCall ExporterCall.Ret
      (Except Err Unit) where
  handle := Cluster.handle
  fails := ExporterCall.fails
  program := requestProgram nqnStart
  takes i t := i ∈ fleet ∧ t.1 = i
  starts t s := t.2 ∈ s.queue t.1 ∧ s.processing t.1 = none
  finish := Cluster.finish
  env := Happens allowed

abbrev ExporterConfig :=
  Config Cluster ExporterId (ExporterId × String) ExporterCall ExporterCall.Ret (Except Err Unit)

/-! ## What should be exported -/

/-- The export without its secret. -/
def HostExport.withoutKey : HostExport → HostExport
  | .nfs e => .nfs e
  | .nvmeof s => .nvmeof { s with dhchapKey := "" }

/-- What an exporter makes of a well-formed export, apart from its secret. -/
def ExporterId.toHost (nqnStart : String) (x : ExporterId) (o : NetworkExport) :
    Option HostExport :=
  match x.protocol with
  | .nfs => (Nfs.NFSReconciler.toExport o).map .nfs
  | .nvmeof => some (.nvmeof (NVMeoFReconciler.subsystem nqnStart o ""))

/-- The exporter has seen every version of every export, and has nothing to do. -/
def Cluster.Quiet (s : Cluster) (x : ExporterId) : Prop :=
  (∀ name, (s.cache x).seen.lookup name = s.store.lookup name) ∧ s.queue x = [] ∧
    s.processing x = none

/-- What is applied on the host are the well-formed exports of the exporter's node and protocol
that are not being deleted. -/
def Cluster.Exact (nqnStart : String) (s : Cluster) (x : ExporterId) : Prop :=
  ∀ e, e ∈ (s.applied x).map HostExport.withoutKey ↔ ∃ name o, s.store.lookup name = some o ∧
    x.owns o = true ∧ o.metadata.terminating = false ∧ x.toHost nqnStart o = some e

/-- The requests under which exports follow their assignment: an update moves no export to
another node or protocol, and an export is deleted only while it has the finalizer. -/
def Careful (s : Cluster) : ExportRequest → Prop
  | .create _ _ => True
  | .update name spec => ∀ cur, s.store.lookup name = some cur →
      spec.nodeName = cur.spec.nodeName ∧ spec.protocol = cur.spec.protocol
  | .delete name => ∀ cur, s.store.lookup name = some cur →
      cur.containsFinalizer networkExportFinalizer = true

end SimpleZfsCsi.Exporter
