import SimpleZfsCsi.Agent.Calls
import SimpleZfsCsi.Scrub.Report

/-!
# The zfs command line

`CLI` carries out the calls of the interface `zpool.ZFS` by running the host's `zfs`, `chown` and
`chmod`: it renders the arguments, reads what is printed, and tells from the text of an error
whether it is one that the interface has a meaning for. `CliCall` are the calls of an agent that
works with it: commands, and the calls to the API server, which are passed on.
-/

namespace SimpleZfsCsi.Zpool

open Library Api Agent Text

structure Command where
  name : String
  args : List String
  deriving DecidableEq, Repr

/-- The command line as the errors show it. -/
def Command.line (c : Command) : String := c.name ++ " " ++ join " " c.args

/-- How a command fails: it exits with an error, or it cannot be run. -/
inductive Failure where
  | exit (status stderr : String)
  | start (err : String)
  deriving DecidableEq, Repr

def Failure.text : Failure → String
  | .exit status stderr => status ++ ": " ++ trimSpace stderr
  | .start err => err

inductive CliCall where
  | command (c : Command)
  | api (e : AgentCall)

@[reducible] def CliCall.Ret : CliCall → Type
  | .command _ => Except Failure String
  | .api e => e.Ret

abbrev CliProc := Program.Proc CliCall CliCall.Ret Err

def execRunner (c : Command) : CliProc String :=
  ExceptT.mk
    (.call (.command c) fun r => .pure (r.mapError fun f => .other (c.line ++ ": " ++ f.text)))

/-! ## Reaching the host's binaries -/

inductive HostExecMode where
  | none | chroot | nsenter
  deriving DecidableEq, Repr

structure HostExec where
  mode : HostExecMode := .none
  hostRoot : String := ""
  targetPID : Int := 0
  pathDirs : List String := []

def defaultHostPathDirs : List String :=
  ["/usr/local/sbin", "/usr/local/bin", "/usr/sbin", "/usr/bin", "/sbin", "/bin",
    "/run/current-system/sw/bin"]

/-- `path.Join` of any number of elements. -/
def joinPaths (elems : List String) : String :=
  let parts := elems.filter (· ≠ "")
  if parts.isEmpty then "" else clean (join "/" parts)

/-- `resolveHostBinary`; `fileExists` are the files of the node. -/
def resolveHostBinary (fileExists : String → Bool) (probeRoot name : String) (dirs : List String) :
    Option String :=
  if contains name "/" then
    if fileExists (joinPaths [probeRoot, name]) then some name else none
  else (dirs.find? fun d => fileExists (joinPaths [probeRoot, d, name])).map
    fun d => joinPaths [d, name]

/-- `BuildRunner`: the command that is run for `c`. -/
def HostExec.buildRunner (h : HostExec) (fileExists : String → Bool) (c : Command) : Command :=
  let dirs := if h.pathDirs = [] then defaultHostPathDirs else h.pathDirs
  let hostRoot := if h.hostRoot = "" then "/host" else h.hostRoot
  let pid := if h.targetPID ≤ 0 then 1 else h.targetPID
  let pathEnv := "PATH=" ++ join ":" dirs
  -- the binary where it was found, or looked up in a clean environment
  let entered := fun probeRoot =>
    match resolveHostBinary fileExists probeRoot c.name dirs with
    | some hostBin => hostBin :: c.args
    | none => "/usr/bin/env" :: "-i" :: pathEnv :: c.name :: c.args
  match h.mode with
  | .none => c
  | .chroot => ⟨"chroot", hostRoot :: entered hostRoot⟩
  | .nsenter =>
    ⟨"nsenter", ["--target", toString pid, "--mount", "--uts", "--ipc", "--net", "--"] ++
      entered ("/proc/" ++ toString pid ++ "/root")⟩

/-! ## What an error says -/

/-- A text says that something is missing. -/
def saysMissing (text : String) : Bool :=
  contains text "does not exist" || contains text "could not find any snapshots to destroy"

/-- A text says that something is there already. -/
def saysPresent (text : String) : Bool := contains text "already exists"

def isNotExist (err : Err) : Bool := saysMissing err.message

def isExists (err : Err) : Bool := saysPresent err.message

/-! ## The operations -/

/-- The entries of a map of properties, by their keys. -/
def byKey (props : Props) : Props :=
  (FinMap.ofList props).sortedKeys.filterMap fun k => ((FinMap.ofList props).lookup k).map
    fun v => (k, v)

def propArgs (props : Props) : List String :=
  (byKey props).flatMap fun o => ["-o", o.1 ++ "=" ++ o.2]

def chownSpec (uid gid : Option Int) : String :=
  let u := (uid.map toString).getD ""
  let g := (gid.map toString).getD ""
  if g = "" then u else u ++ ":" ++ g

/-- `isOriginEmpty`. -/
def isOriginEmpty (origin : String) : Bool := trimSpace origin = "" || trimSpace origin = "-"

def promoteMaxAttempts : Nat := 20

structure CLI where
  bin : String := "zfs"
  host : HostExec := {}
  fileExists : String → Bool := fun _ => false

namespace CLI

variable (z : CLI)

/-- The command that is run for the binary `name`. -/
def command (name : String) (args : List String) : Command :=
  z.host.buildRunner z.fileExists ⟨name, args⟩

/-- The command that is run for `zfs`. -/
def zfs (args : List String) : Command := z.command (if z.bin = "" then "zfs" else z.bin) args

def exec (name : String) (args : List String) : CliProc String := execRunner (z.command name args)

def run (args : List String) : CliProc String := execRunner (z.zfs args)

def applyOwnership (mountpoint : String) (uid gid : Option Int) (mode : String) : CliProc Unit := do
  if mountpoint = "" then throw (.other "mountpoint is empty")
  if uid.isSome ∨ gid.isSome then
    match ← (z.exec "chown" [chownSpec uid gid, mountpoint]).outcome with
    | .ok _ => pure ()
    | .error err =>
      throw (.other ("chown " ++ chownSpec uid gid ++ " " ++ mountpoint ++ ": " ++ err.message))
  if mode ≠ "" then
    match ← (z.exec "chmod" [mode, mountpoint]).outcome with
    | .ok _ => pure ()
    | .error err => throw (.other ("chmod " ++ mode ++ " " ++ mountpoint ++ ": " ++ err.message))

def createDataset (name : String) (props : Props) : CliProc Unit :=
  if name = "" then throw (.other "dataset name is empty")
  else do
    let _ ← z.run ("create" :: (propArgs props ++ [name]))

def createZvol (name : String) (sizeBytes : Int) (props : Props) : CliProc Unit :=
  if name = "" then throw (.other "zvol name is empty")
  else if sizeBytes ≤ 0 then throw (.other ("zvol size must be > 0, got " ++ toString sizeBytes))
  else do
    let _ ← z.run ("create" :: "-V" :: toString sizeBytes :: (propArgs props ++ [name]))

def destroy (name : String) (recursive : Bool) : CliProc Unit :=
  if name = "" then throw (.other "dataset name is empty")
  else do
    match ← (z.run ("destroy" :: ((if recursive then ["-r"] else []) ++ [name]))).outcome with
    | .ok _ => return ()
    | .error err => if isNotExist err then return () else throw err

def destroySnapshotDeferred (snapshot : String) : CliProc Unit :=
  if !contains snapshot "@" then
    throw
      (.other ("snapshot name " ++ Err.quoted snapshot ++ " must be of the form pool/dataset@snap"))
  else do
    match ← (z.run ["destroy", "-d", snapshot]).outcome with
    | .ok _ => return ()
    | .error err => if isNotExist err then return () else throw err

def get (name property : String) : CliProc String := do
  match ← (z.run ["get", "-H", "-p", "-o", "value", property, name]).outcome with
  | .ok out => return trimSpace out
  | .error err => if isNotExist err then throw (.notExist name) else throw err

/-- The loop of `Snapshot` over the names of which one was there. -/
def checkAllExist : List String → CliProc Unit
  | [] => return ()
  | name :: rest => do
    match ← (z.get name "type").outcome with
    | .ok _ => checkAllExist rest
    | .error err => if err.isNotExist then throw .snapshotsPartiallyExist else throw err

def snapshot (names : List String) : CliProc Unit :=
  if names = [] then throw (.other "snapshot name is empty")
  else
    match names.find? fun n => n = "" || !contains n "@" with
    | some n =>
      if n = "" then throw (.other "snapshot name is empty")
      else throw
        (.other ("snapshot name " ++ Err.quoted n ++ " must be of the form pool/dataset@snap"))
    | none => do
      match ← (z.run ("snapshot" :: names)).outcome with
      | .ok _ => return ()
      | .error err =>
        if !isExists err then throw err
        else if names.length = 1 then return ()
        else z.checkAllExist names

def clone (snapshot dest : String) (props : Props) : CliProc Unit :=
  if snapshot = "" ∨ dest = "" then throw (.other "clone requires both snapshot and dest names")
  else if !contains snapshot "@" then
    throw
      (.other ("clone source " ++ Err.quoted snapshot ++ " must be a snapshot (pool/dataset@snap)"))
  else do
    match ← (z.run ("clone" :: (propArgs props ++ [snapshot, dest]))).outcome with
    | .ok _ => return ()
    | .error err => if isExists err then return () else throw err

def listSnapshots (dataset : String) : CliProc (List String) :=
  if dataset = "" then throw (.other "dataset name is empty")
  else do
    match ← (z.run ["list", "-H", "-o", "name", "-t", "snapshot", "-d", "1", "-s", "creation",
      dataset]).outcome with
    | .ok out => return ((split '\n' (Scrub.trimNewlines out)).map trimSpace).filter (· ≠ "")
    | .error err => if isNotExist err then throw (.notExist dataset) else throw err

def clones (snapshot : String) : CliProc (List String) :=
  if !contains snapshot "@" then
    throw
      (.other ("clones requires a snapshot name (pool/dataset@snap), got " ++ Err.quoted snapshot))
  else do
    let val ← z.get snapshot "clones"
    if trimSpace val = "" ∨ trimSpace val = "-" then return []
    else return ((split ',' (trimSpace val)).map trimSpace).filter (· ≠ "")

/-- The loop of `Promote`, with the number of attempts that are left. -/
def promoteLoop (dataset before : String) : Nat → CliProc Unit
  | 0 => throw (.other ("zfs promote " ++ dataset ++ ": origin did not change after " ++
      toString promoteMaxAttempts ++ " attempts"))
  | left + 1 => do
    match ← (z.run ["promote", dataset]).outcome with
    | .error err => throw (.other ("zfs promote " ++ dataset ++ " (attempt " ++
        toString (promoteMaxAttempts - left) ++ "/" ++ toString promoteMaxAttempts ++
          "): " ++ err.message))
    | .ok _ =>
      let after ← z.get dataset "origin"
      if after ≠ before then return () else promoteLoop dataset after left

def promote (dataset : String) : CliProc Unit :=
  if dataset = "" then throw (.other "dataset name is empty")
  else do
    let before ← z.get dataset "origin"
    if isOriginEmpty before then return () else z.promoteLoop dataset before promoteMaxAttempts

def setProperty (name property value : String) : CliProc Unit :=
  if name = "" then throw (.other "dataset name is empty")
  else if property = "" then throw (.other "property is empty")
  else do
    let _ ← z.run ["set", property ++ "=" ++ value, name]

/-- What the agent's calls come to with this implementation of `zpool.ZFS`. -/
def carryOut : (e : AgentCall) → Program CliCall CliCall.Ret e.Ret
  | .get name prop => (z.get name prop).run
  | .createDataset name props => (z.createDataset name props).run
  | .createZvol name size props => (z.createZvol name size props).run
  | .snapshot names => (z.snapshot names).run
  | .clone snap dest props => (z.clone snap dest props).run
  | .promote name => (z.promote name).run
  | .destroy name recursive => (z.destroy name recursive).run
  | .destroySnapshotDeferred name => (z.destroySnapshotDeferred name).run
  | .listSnapshots dataset => (z.listSnapshots dataset).run
  | .clones snap => (z.clones snap).run
  | .setProperty name prop value => (z.setProperty name prop value).run
  | .applyOwnership mountpoint uid gid mode => (z.applyOwnership mountpoint uid gid mode).run
  | e => Program.perform (CliCall.api e)

end CLI

end SimpleZfsCsi.Zpool
