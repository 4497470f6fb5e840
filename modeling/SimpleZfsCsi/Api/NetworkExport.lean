import SimpleZfsCsi.Api.Objects

/-!
# NetworkExport

One path that one node exports over one protocol. The exporter of that node writes the
status; everything else about the object is written by the operator.
-/

namespace SimpleZfsCsi.Api

open Library

inductive Protocol where
  | nfs | nvmeof
  deriving DecidableEq, Repr

inductive NetworkExportPhase where
  | pending | exported | error
  deriving DecidableEq, Repr

structure NFSClient where
  client : String
  options : List String := []
  deriving DecidableEq, Repr

structure NFSExportSpec where
  clients : List NFSClient
  deriving DecidableEq, Repr

structure NVMeoFExportSpec where
  nqn : String := ""
  allowedHosts : List String := []
  dhchapSecretName : String := ""
  dhchapSecretNamespace : String := ""
  dhchapSecretKey : String := ""
  deriving DecidableEq, Repr

structure NetworkExportSpec where
  nodeName : String
  protocol : Protocol
  path : String
  nfs : Option NFSExportSpec := none
  nvmeof : Option NVMeoFExportSpec := none
  deriving DecidableEq, Repr

structure NetworkExportStatus where
  phase : Option NetworkExportPhase := none
  observedGeneration : Nat := 0
  nqn : String := ""
  message : String := ""
  conditions : List Condition := []
  deriving DecidableEq, Repr

abbrev NetworkExport := Object NetworkExportSpec NetworkExportStatus

def NetworkExportStatus.merge (read patched cur : NetworkExportStatus) : NetworkExportStatus where
  phase := mergeField read.phase patched.phase cur.phase
  observedGeneration :=
    mergeField read.observedGeneration patched.observedGeneration cur.observedGeneration
  nqn := mergeField read.nqn patched.nqn cur.nqn
  message := mergeField read.message patched.message cur.message
  conditions := mergeField read.conditions patched.conditions cur.conditions

/-- `networkExportFinalizer`. -/
def networkExportFinalizer : String := "storage.simple-zfs-csi.io/networkexport"

/-- The status `updateStatus` patches an export to. -/
def NetworkExport.withStatus (e : NetworkExport) (phase : NetworkExportPhase)
    (reason message nqn : String) : NetworkExportStatus :=
  { e.status with
    phase := some phase
    observedGeneration := e.metadata.generation
    message := message
    nqn := if nqn ≠ "" then nqn else e.status.nqn
    conditions := setStatusCondition e.status.conditions
      { type := "Exported", status := phase = .exported, reason, message
        observedGeneration := e.metadata.generation } }

/-- `listOwnedExports`: the exports of a node and protocol that are not being deleted. -/
def listOwnedExports (items : List NetworkExport) (nodeName : String) (protocol : Protocol) :
    List NetworkExport :=
  items.filter fun s =>
    s.spec.nodeName = nodeName && s.spec.protocol = protocol && !s.metadata.terminating

end SimpleZfsCsi.Api
