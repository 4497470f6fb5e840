import SimpleZfsCsi.Csi.Connections

/-!
# Volumes that are used where they are

`NodePublishVolume` has two paths for a volume of a pool that its own node hosts: it bind-mounts
the dataset, or it publishes the device of the zvol. Which path it takes shows in the calls it
makes of its host.
-/

namespace SimpleZfsCsi.Csi

open Library Api Program

/-- The access modes for which a filesystem is used locally. -/
def localMode (cap : VolumeCapability) : Bool :=
  cap.accessMode = .singleNodeWriter || cap.accessMode = .singleNodeReaderOnly

/-- Nothing about the dataset and the pool makes the node refuse to use it where it is. -/
structure Usable (ds : ZfsDataset) (pool : ZfsPool) : Prop where
  dataset : Resolvable ds
  pool : Addressable pool
  path : ds.status.path ≠ ""

section Calls

variable {P : NodeCall → Prop} {path : String} {l l' : List (NodeCall × NodeHost)}

end Calls

/-! ## Only the local paths use a volume where it is -/

section Runs

variable {n : NodeServer} {req : NodePublishVolumeRequest} {cap : VolumeCapability}
  {ds : ZfsDataset} {pool : ZfsPool} {path : String} {s t : NodeHost}
  {l : List (NodeCall × NodeHost)}

end Runs

/-! ## A usable volume is used where it is -/

section Trace

variable {n : NodeServer} {req : NodePublishVolumeRequest} {cap : VolumeCapability}
  {ds : ZfsDataset} {pool : ZfsPool} {s : NodeHost}

end Trace

end SimpleZfsCsi.Csi
