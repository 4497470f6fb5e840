import SimpleZfsCsi.Api.NetworkExport
import SimpleZfsCsi.Api.Storage
import SimpleZfsCsi.Library.Program
import SimpleZfsCsi.Library.Text

/-!
# The privileged operations of a node

What the node plugin asks of its host and of the API server, and the host's answers: the
mount table, the file systems on its devices, and the NVMe-oF subsystems it is connected
to. A subsystem is connected or not, however many mounts use its device.
-/

namespace SimpleZfsCsi.Csi

open Library Api

structure NVMeConnectOptions where
  transport : String
  addr : String
  port : String
  nqn : String
  hostNQN : String
  hostID : String
  dhchapKey : String
  deriving DecidableEq, Repr

inductive NodeCall where
  | getDataset (name : String)
  | getPool (name : String)
  | getExport (name : String)
  | getSecret (ns name : String)
  | patchDatasetStatus (name : String) (read patched : ZfsDatasetStatus)
  | isMountPoint (path : String)
  | makeDir (path : String)
  | makeFile (path : String)
  | removePath (path : String)
  | mount (args : List String) (source target : String)
  | unmount (target : String)
  | blkid (device : String)
  | mkfs (fsType : String) (args : List String) (device : String)
  /-- the usable block device of a connected subsystem, or "" -/
  | nvmeDevice (nqn : String)
  /-- the same, after polling for it -/
  | waitNVMeDevice (nqn : String)
  | nvmeConnect (o : NVMeConnectOptions)
  | nvmeDisconnect (nqn : String)

@[reducible] def NodeCall.Val : NodeCall → Type
  | .getDataset _ => ZfsDataset
  | .getPool _ => ZfsPool
  | .getExport _ => NetworkExport
  | .getSecret _ _ => FinMap String String
  | .isMountPoint _ => Bool
  | .blkid _ | .nvmeDevice _ | .waitNVMeDevice _ => String
  | _ => Unit

abbrev NodeCall.Ret (e : NodeCall) : Type := Except Err e.Val

/-- A call may fail for reasons of its own, without effect; polling for a device may time out. -/
def NodeCall.fails : (e : NodeCall) → e.Ret → Prop
  | .waitNVMeDevice _, r => r = .ok "" ∨ ∃ msg, r = .error (.other msg)
  | _, r => ∃ msg, r = .error (.other msg)

/-- A program of the node plugin that returns a gRPC status when it fails. -/
abbrev NodeProc := Program.Proc NodeCall NodeCall.Ret Status

/-- A program of the mounter. -/
abbrev MountProc := Program.Proc NodeCall NodeCall.Ret Err

structure NodeHost where
  datasets : Store ZfsDatasetSpec ZfsDatasetStatus
  pools : Store Unit ZfsPoolStatus
  exports : Store NetworkExportSpec NetworkExportStatus
  secrets : FinMap (String × String) (FinMap String String)
  /-- mount point to source -/
  mounts : FinMap String String
  /-- device to file system -/
  filesystems : FinMap String String
  /-- NQN of a connected subsystem to its block device -/
  connected : FinMap String String
  nextDevice : Nat

/-- Answer a call. -/
def NodeHost.handle : (e : NodeCall) → NodeHost → e.Ret × NodeHost
  | .getDataset name, s => (s.datasets.get name, s)
  | .getPool name, s => (s.pools.get name, s)
  | .getExport name, s => (s.exports.get name, s)
  | .getSecret ns name, s =>
    match s.secrets.lookup (ns, name) with
    | none => (.error (.notFound name), s)
    | some data => (.ok data, s)
  | .patchDatasetStatus name read patched, s =>
    let (r, datasets) := s.datasets.patchStatus ZfsDatasetStatus.merge name read patched
    (r, { s with datasets })
  | .isMountPoint path, s => (.ok (s.mounts.lookup (Text.clean path)).isSome, s)
  | .makeDir _, s => (.ok (), s)
  | .makeFile _, s => (.ok (), s)
  | .removePath _, s => (.ok (), s)
  | .mount _ source target, s =>
    (.ok (), { s with mounts := s.mounts.insert (Text.clean target) source })
  | .unmount target, s => (.ok (), { s with mounts := s.mounts.erase (Text.clean target) })
  | .blkid device, s =>
    match s.filesystems.lookup device with
    | none => (.error (.other "exit status 2"), s)
    | some fs => (.ok fs, s)
  | .mkfs fsType _ device, s =>
    (.ok (), { s with filesystems := s.filesystems.insert device fsType })
  | .nvmeDevice nqn, s => (.ok ((s.connected.lookup nqn).getD ""), s)
  | .waitNVMeDevice nqn, s => (.ok ((s.connected.lookup nqn).getD ""), s)
  | .nvmeConnect o, s =>
    if (s.connected.lookup o.nqn).isSome then (.error (.other "already connected"), s)
    else (.ok (), { s with
      connected := s.connected.insert o.nqn ("/dev/nvme" ++ toString s.nextDevice ++ "n1")
      nextDevice := s.nextDevice + 1 })
  | .nvmeDisconnect nqn, s =>
    if (s.connected.lookup nqn).isSome then (.ok (), { s with connected := s.connected.erase nqn })
    else (.error (.other "not found"), s)

/-- Make one call, returning its error. -/
def ask (e : NodeCall) : MountProc e.Val := Program.Proc.ask e id

def bindMountDevice (device target : String) (readOnly : Bool) : MountProc Unit :=
  ask (.mount ["-o", if readOnly then "bind,ro" else "bind"] device target)

/-- A host without SELinux. -/
def bindMountDir (source target : String) (readOnly : Bool) : MountProc Unit :=
  ask (.mount ["-o", if readOnly then "bind,ro" else "bind"] source target)

def optionArgs (options : List String) : List String :=
  if options.isEmpty then [] else ["-o", Text.join "," options]

def mountNFS (source target : String) (options : List String) : MountProc Unit :=
  ask (.mount (["-t", "nfs"] ++ optionArgs options) source target)

/-- `blkid` exits with status 2 when it finds no signature; any error counts as that. -/
def detectFS (device : String) : MountProc String := do
  match ← (ask (.blkid device)).outcome with
  | .ok out => return Text.trimSpace out
  | .error _ => return ""

def mkfsArgs (fsType : String) : List String :=
  if fsType = "ext4" ∨ fsType = "ext3" then ["-F"]
  else if fsType = "xfs" then ["-f"] else []

/-- Format a device that carries no file system; refuse one that carries another. -/
def ensureFS (device fsType : String) : MountProc Unit := do
  let existing ← detectFS device
  if existing = "" then
    match ← (ask (.mkfs fsType (mkfsArgs fsType) device)).outcome with
    | .error e => throw (.wrap ("mkfs." ++ fsType ++ " " ++ device) e)
    | .ok () => return ()
  else if existing ≠ fsType then
    throw (.other ("device " ++ device ++ " is formatted as " ++ Err.quoted existing ++ ", but " ++
      Err.quoted fsType ++ " was requested: refusing to mount with a mismatched filesystem type"))
  else return ()

def formatAndMount (device target fsType : String) (options : List String) : MountProc String := do
  let fsType := if fsType = "" then "ext4" else fsType
  ensureFS device fsType
  ask (.mount (["-t", fsType] ++ optionArgs options) device target)
  return fsType

/-- The second half of `NVMeConnect`: run `nvme connect`, then wait for the device. -/
def connectAndWait (o : NVMeConnectOptions) : MountProc String := do
  match ← (ask (.nvmeConnect o)).outcome with
  | .error e =>
    if Text.contains (Text.toLower e.message) "already connected" then waitDevice
    else throw (.wrap ("nvme connect " ++ o.nqn) e)
  | .ok () => waitDevice
where
  waitDevice : MountProc String := do
    let dev ← ask (.waitNVMeDevice o.nqn)
    if dev = "" then throw (.other ("nvme device for " ++ o.nqn ++ " not found after connect"))
    else return dev

/-- Connect a subsystem, or find the connection that exists. -/
def nvmeConnect (o : NVMeConnectOptions) : MountProc String := do
  match ← (ask (.nvmeDevice o.nqn)).outcome with
  | .ok dev => if dev ≠ "" then return dev else connectAndWait o
  | .error _ => connectAndWait o

/-- Disconnect a subsystem; no connection is counted. -/
def nvmeDisconnect (nqn : String) : MountProc Unit := do
  match ← (ask (.nvmeDisconnect nqn)).outcome with
  | .error e => if Text.contains e.message "not found" then return () else throw e
  | .ok () => return ()

end SimpleZfsCsi.Csi
