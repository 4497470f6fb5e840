import SimpleZfsCsi.Api.Errors

/-!
# What the CSI services share

Access modes, and the identity under which a node connects to a volume.
-/

namespace SimpleZfsCsi.Csi

inductive AccessMode where
  | unknown | singleNodeWriter | singleNodeReaderOnly | multiNodeReaderOnly
  | multiNodeSingleWriter | multiNodeMultiWriter | singleNodeSingleWriter | singleNodeMultiWriter
  deriving DecidableEq, Repr

structure VolumeCapability where
  block : Bool := false
  mountFlags : List String := []
  fsType : String := ""
  accessMode : AccessMode := .singleNodeWriter
  deriving DecidableEq, Repr

/-- `hasMultiNodeAccessMode`, of one capability. -/
def hasMultiNodeAccessMode (cap : VolumeCapability) : Bool :=
  match cap.accessMode with
  | .multiNodeReaderOnly | .multiNodeSingleWriter | .multiNodeMultiWriter => true
  | _ => false

/-- `nvmeauth.HostIdentity`: the host NQN and the host id. `hostUUID` is `uuid.NewSHA1` in the
driver's namespace. -/
def hostIdentity (hostUUID : String → String) (nodeName volumeID : String) : String × String :=
  let id := hostUUID (nodeName ++ "/" ++ volumeID)
  ("nqn.2014-08.org.nvmexpress:uuid:" ++ id, id)

/-- `nvmeauth.ResolveSecretKey`. -/
def resolveSecretKey (configured : String) : String :=
  if configured ≠ "" then configured else "dhchap-key"

end SimpleZfsCsi.Csi
