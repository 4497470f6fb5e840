import SimpleZfsCsi.Library.FinMap
import SimpleZfsCsi.Library.Path
import SimpleZfsCsi.Library.Program

/-!
# The NVMe target in configfs

The target is programmed through a tree of directories, attribute files and links. Reading it is
plain; what a change does is up to the kernel, which comes with its laws in `Kernel.Lawful`.
-/

namespace SimpleZfsCsi.Nvmet

open Library Text

/-! ## The tree -/

/-- A path below the root, its last element first. -/
abbrev Path := List String

/-- `filepath.Join(p, elem)`. -/
instance : HDiv Path String Path := ⟨fun p elem => (split '/' elem).foldl (cleanStep false) p⟩

/-- `filepath.Dir`. -/
def Path.dir : Path → Path
  | [] => [".."]
  | n :: p => if n = ".." then ".." :: n :: p else p

inductive Node where
  | dir
  | file (content : String)
  | link (text : String)
  deriving DecidableEq

abbrev Tree := FinMap Path Node

/-- What a call of the system returns instead of a value; `IsNotExist` and `IsExist` know
the first two. -/
inductive Errno where
  | notExist
  | exist
  | other (text : String)
  deriving DecidableEq

/-- An error that the package returns. -/
inductive Err where
  | os (e : Errno)
  | wrap (msg : String) (e : Err)
  deriving DecidableEq

namespace Tree

variable (t : Tree)

/-- The names in a directory, sorted. -/
def entries (p : Path) : List String :=
  (t.keys.filterMap fun
    | [] => none
    | n :: q => if q = p then some n else none).insertionSort (· ≤ ·)

def lstat (p : Path) : Except Errno Node :=
  match t.lookup p with
  | none => .error .notExist
  | some n => .ok n

/-- `Stat` follows links, and those of a configfs lead to directories that exist. -/
def stat (p : Path) : Except Errno Node :=
  match t.lookup p with
  | none => .error .notExist
  | some (.link _) => .ok .dir
  | some n => .ok n

def readlink (p : Path) : Except Errno String :=
  match t.lookup p with
  | none => .error .notExist
  | some (.link text) => .ok text
  | some _ => .error (.other "invalid argument")

def readDir (p : Path) : Except Errno (List (String × Node)) :=
  match t.lookup p with
  | none => .error .notExist
  | some .dir =>
    .ok ((t.entries p).filterMap fun n => (t.lookup (n :: p)).map fun node => (n, node))
  | some _ => .error (.other "not a directory")

def readFile (p : Path) : Except Errno String :=
  match t.lookup p with
  | none => .error .notExist
  | some (.file content) => .ok content
  | some .dir => .error (.other "is a directory")
  | some (.link _) => .error (.other "is a directory")

/-- What an attribute says, "" when there is none. -/
def attr (p : Path) : String :=
  match t.readFile p with
  | .ok content => trimSpace content
  | .error _ => ""

end Tree

/-! ## The kernel -/

/-- The calls that change the tree. -/
inductive Change where
  | mkdir (p : Path)
  | writeFile (p : Path) (value : String)
  | symlink (target link : Path)
  | remove (p : Path)

/-- Where a change takes place. -/
def Change.path : Change → Path
  | .mkdir p | .writeFile p _ | .symlink _ p | .remove p => p

structure Kernel where
  change : Change → Tree → Except Errno Unit × Tree
  /-- where a link leads, by its place and its text -/
  Leads : Path → String → Path → Prop

/-- What every tree of the kernel is like. -/
structure Kernel.WellFormed (K : Kernel) (t : Tree) : Prop where
  names : ∀ n p, (t.lookup (n :: p)).isSome → Leaf n
  rooted : ∀ n p, (t.lookup (n :: p)).isSome → (t.lookup p).isSome
  /-- there are only directories in `subsystems` -/
  subsystems : ∀ n, (t.lookup [n, "subsystems"]).isSome → t.lookup [n, "subsystems"] = some .dir
  /-- a subsystem that a port links to exists -/
  linked : ∀ port n text nqn, t.lookup [n, "subsystems", port, "ports"] = some (.link text) →
    K.Leads [n, "subsystems", port, "ports"] text [nqn, "subsystems"] →
    (t.lookup [nqn, "subsystems"]).isSome

/-- The path as the text that the code makes of it, below `root`. -/
def pathText (root : String) (p : Path) : String :=
  p.foldr (fun n text => text ++ "/" ++ n) (clean root)

/-- What is known of the changes to the tree at `root`. -/
structure Kernel.Lawful (K : Kernel) (root : String) : Prop where
  wellFormed : ∀ c t, K.WellFormed t → K.WellFormed (K.change c t).2
  /-- a change that fails changes nothing -/
  refused : ∀ c t e, (K.change c t).1 = .error e → (K.change c t).2 = t
  /-- a change stays in its place -/
  confined : ∀ c t q, ¬ c.path <:+ q → (K.change c t).2.lookup q = t.lookup q
  mkdir : ∀ p t, (K.change (.mkdir p) t).1 = .ok () →
    t.lookup p = none ∧ (K.change (.mkdir p) t).2.lookup p = some .dir
  /-- a new directory comes with attributes and directories, but without links -/
  mkdir_link : ∀ p t, (K.change (.mkdir p) t).1 = .ok () →
    ∀ q text, p <:+ q → (K.change (.mkdir p) t).2.lookup q ≠ some (.link text)
  /-- a new host has no key -/
  mkdir_key : ∀ p t, (K.change (.mkdir p) t).1 = .ok () →
    ∀ q, p <:+ q → (K.change (.mkdir p) t).2.attr ("dhchap_key" :: q) = ""
  mkdir_exist : ∀ p t, (K.change (.mkdir p) t).1 = .error .exist → (t.lookup p).isSome
  writeFile : ∀ p v t, (K.change (.writeFile p v) t).1 = .ok () →
    (K.change (.writeFile p v) t).2.attr p = trimSpace v
  symlink : ∀ target link t, (K.change (.symlink target link) t).1 = .ok () →
    ∃ text, (K.change (.symlink target link) t).2.lookup link = some (.link text) ∧
      K.Leads link text target
  symlink_exist : ∀ target link t, (K.change (.symlink target link) t).1 = .error .exist →
    (t.lookup link).isSome
  remove : ∀ p t, (K.change (.remove p) t).1 = .ok () →
    ∀ q, p <:+ q → (K.change (.remove p) t).2.lookup q = none
  /-- a link with the text of a path leads there -/
  leads : ∀ link target, K.Leads link (pathText root target) target

/-! ## Calls -/

inductive FsCall where
  | stat (p : Path)
  | lstat (p : Path)
  | readlink (p : Path)
  | readDir (p : Path)
  | readFile (p : Path)
  | change (c : Change)

def FsCall.Val : FsCall → Type
  | .stat _ | .lstat _ => Node
  | .readlink _ | .readFile _ => String
  | .readDir _ => List (String × Node)
  | .change _ => Unit

abbrev FsCall.Ret (e : FsCall) : Type := Except Errno e.Val

/-- Answer a call. -/
def Kernel.handle (K : Kernel) : (e : FsCall) → Tree → e.Ret × Tree
  | .stat p, t => (t.stat p, t)
  | .lstat p, t => (t.lstat p, t)
  | .readlink p, t => (t.readlink p, t)
  | .readDir p, t => (t.readDir p, t)
  | .readFile p, t => (t.readFile p, t)
  | .change c, t => K.change c t

abbrev Fs (α : Type) : Type := Program.Proc FsCall FsCall.Ret Err α

def stat (p : Path) : Fs (Except Errno Node) := (Program.Proc.ask (FsCall.stat p) id).outcome

def lstat (p : Path) : Fs (Except Errno Node) := (Program.Proc.ask (FsCall.lstat p) id).outcome

def readlink (p : Path) : Fs (Except Errno String) :=
  (Program.Proc.ask (FsCall.readlink p) id).outcome

def readDir (p : Path) : Fs (Except Errno (List (String × Node))) :=
  (Program.Proc.ask (FsCall.readDir p) id).outcome

def readFile (p : Path) : Fs (Except Errno String) :=
  (Program.Proc.ask (FsCall.readFile p) id).outcome

/-- Make a change whose error is looked at. -/
def attempt (c : Change) : Fs (Except Errno Unit) := (Program.Proc.ask (FsCall.change c) id).outcome

/-- Make a change whose error is returned. -/
def perform (c : Change) : Fs Unit := Program.Proc.ask (FsCall.change c) Err.os

/-- `fmt.Errorf("msg: %w", err)`. -/
def wrapping {α : Type} (msg : String) (p : Fs α) : Fs α := do
  match ← (p.outcome : Fs (Except Err α)) with
  | .ok a => return a
  | .error e => throw (.wrap msg e)

/-! ## configfs primitives -/

def ensureDir (p : Path) : Fs Unit := do
  match ← stat p with
  | .ok _ => return
  | .error .notExist =>
    match ← attempt (.mkdir p) with
    | .ok _ | .error .exist => return
    | .error e => throw (.os e)
  | .error e => throw (.os e)

/-- One directory of `os.MkdirAll`, after those it is in. -/
def mkdirAfter (parents : Fs Unit) (p : Path) : Fs Unit := do
  match ← stat p with
  | .ok .dir => return
  | .ok _ => throw (.os (.other "not a directory"))
  | .error _ =>
    parents
    match ← attempt (.mkdir p) with
    | .ok _ => return
    | .error e =>
      match ← lstat p with
      | .ok .dir => return
      | _ => throw (.os e)

/-- `os.MkdirAll`; what the root itself is in exists. -/
def mkdirAll : Path → Fs Unit
  | [] => mkdirAfter (return) []
  | n :: p => mkdirAfter (mkdirAll p) (n :: p)

/-- `ensureSymlink`; `root` is that of the tree. -/
def ensureSymlink (root : String) (target link : Path) : Fs Unit := do
  match ← readlink link with
  | .ok cur =>
    if cur = pathText root target then return
    perform (.remove link)
  | .error .notExist => pure ()
  | .error _ =>
    match ← lstat link with
    | .ok _ => perform (.remove link)
    | .error _ => pure ()
  match ← attempt (.symlink target link) with
  | .ok _ | .error .exist => return
  | .error e => throw (.os e)

def removeIfExists (p : Path) : Fs Unit := do
  match ← lstat p with
  | .ok _ => perform (.remove p)
  | .error .notExist => return
  | .error e => throw (.os e)

def writeAttr (p : Path) (value : String) : Fs Unit := perform (.writeFile p value)

def readAttr (p : Path) : Fs (Except Errno String) := do
  match ← readFile p with
  | .ok content => return .ok (trimSpace content)
  | .error e => return .error e

def writeAttrIfChanged (p : Path) (value : String) : Fs Unit := do
  match ← readAttr p with
  | .ok cur => if cur = value then return else writeAttr p value
  | .error _ => writeAttr p value

/-! ## The target -/

structure PortConfig where
  id : String
  trType : String
  adrFam : String
  trAddr : String
  trSvcID : String

structure Subsystem where
  nqn : String
  devicePath : String
  allowedHosts : List String
  dhChapKey : String

structure Target where
  root : String
  port : PortConfig

namespace Target

variable (T : Target)

def subsystemsDir : Path := ["subsystems"]

def hostsDir : Path := ["hosts"]

def portDir : Path := ["ports"] / T.port.id

/-- The attributes of the port. -/
def portAttrs : List (String × String) :=
  [("addr_adrfam", T.port.adrFam), ("addr_trtype", T.port.trType), ("addr_traddr", T.port.trAddr),
    ("addr_trsvcid", T.port.trSvcID)]

def setPortAttrs : List (String × String) → Fs Unit
  | [] => return
  | (name, want) :: rest => do
    wrapping ("set port attr " ++ name) (writeAttrIfChanged (T.portDir / name) want)
    setPortAttrs rest

/-- `EnsurePort`; `attrs` are the attributes in the order in which the map is walked. -/
def ensurePort (attrs : List (String × String)) : Fs Unit := do
  mkdirAll T.portDir.dir
  wrapping ("create port " ++ T.port.id) (ensureDir T.portDir)
  T.setPortAttrs attrs

def listSubsystems : Fs (List String) := do
  match ← readDir subsystemsDir with
  | .ok found => return (found.filter (·.2 = .dir)).map (·.1)
  | .error .notExist => return []
  | .error e => throw (.os e)

/-- Allow one host. -/
def allowHost (allowedDir : Path) (dhchapKey h : String) : Fs Unit := do
  ensureDir (hostsDir / h)
  if dhchapKey ≠ "" then
    wrapping ("set dhchap_key for host " ++ h)
      (writeAttrIfChanged (hostsDir / h / "dhchap_key") dhchapKey)
  ensureSymlink T.root (hostsDir / h) (allowedDir / h)

/-- The first loop of `reconcileAllowedHosts`. -/
def allowHosts (allowedDir : Path) (dhchapKey : String) : List String → Fs Unit
  | [] => return
  | h :: rest => do
    T.allowHost allowedDir dhchapKey h
    allowHosts allowedDir dhchapKey rest

/-- Remove what is in a directory and not wanted. -/
def dropOthers (dir : Path) (want : List String) : List String → Fs Unit
  | [] => return
  | n :: rest => do
    if n ∉ want then perform (.remove (dir / n))
    dropOthers dir want rest

def reconcileAllowedHosts (subDir : Path) (hosts : List String) (dhchapKey : String) : Fs Unit := do
  let allowedDir := subDir / "allowed_hosts"
  T.allowHosts allowedDir dhchapKey hosts
  match ← readDir allowedDir with
  | .ok found => dropOthers allowedDir hosts (found.map (·.1))
  | .error .notExist => return
  | .error e => throw (.os e)

/-- The namespace of a subsystem. -/
def ensureNamespace (nsDir : Path) (devicePath : String) : Fs Unit := do
  ensureDir nsDir
  let curDev ← readAttr (nsDir / "device_path")
  if curDev.toOption.getD "" ≠ devicePath then
    writeAttrIfChanged (nsDir / "enable") "0"
    wrapping ("set device_path=" ++ devicePath) (writeAttr (nsDir / "device_path") devicePath)
  wrapping "enable namespace" (writeAttrIfChanged (nsDir / "enable") "1")

/-- Access control of a subsystem: an explicit list of hosts, or any host. -/
def ensureAccess (subDir : Path) (s : Subsystem) : Fs Unit := do
  if s.allowedHosts = [] then
    writeAttrIfChanged (subDir / "attr_allow_any_host") "1"
  else
    writeAttrIfChanged (subDir / "attr_allow_any_host") "0"
    T.reconcileAllowedHosts subDir s.allowedHosts s.dhChapKey

def ensureSubsystem (s : Subsystem) : Fs Unit := do
  let subDir := subsystemsDir / s.nqn
  ensureDir subDir
  T.ensureAccess subDir s
  ensureNamespace (subDir / "namespaces" / "1") s.devicePath
  wrapping "attach subsystem to port"
    (ensureSymlink T.root subDir (T.portDir / "subsystems" / s.nqn))

/-- Remove links, whatever comes of it. -/
def clearLinks (dir : Path) : List String → Fs Unit
  | [] => return
  | n :: rest => do
    let _ ← attempt (.remove (dir / n))
    clearLinks dir rest

def removeSubsystem (nqn : String) : Fs Unit := do
  let subDir := subsystemsDir / nqn
  removeIfExists (T.portDir / "subsystems" / nqn)
  let nsDir := subDir / "namespaces" / "1"
  match ← stat nsDir with
  | .ok _ =>
    let _ ← attempt (.writeFile (nsDir / "enable") "0")
    wrapping "rmdir namespace" (perform (.remove nsDir))
  | .error _ => pure ()
  let allowedDir := subDir / "allowed_hosts"
  match ← readDir allowedDir with
  | .ok found => clearLinks allowedDir (found.map (·.1))
  | .error _ => pure ()
  removeIfExists subDir

/-- Remove the subsystems that are no longer desired. -/
def removeOthers (want : FinMap String Subsystem) : List String → Fs Unit
  | [] => return
  | nqn :: rest => do
    if !want.contains nqn then wrapping ("remove subsystem " ++ nqn) (T.removeSubsystem nqn)
    removeOthers want rest

/-- Create or update the desired ones. -/
def ensureSubsystems (want : FinMap String Subsystem) : List String → Fs Unit
  | [] => return
  | nqn :: rest => do
    match want.lookup nqn with
    | none => pure ()
    | some s => wrapping ("ensure subsystem " ++ nqn) (T.ensureSubsystem s)
    ensureSubsystems want rest

/-- `Reconcile`; for `attrs` see `ensurePort`. -/
def reconcile (attrs : List (String × String)) (desired : List Subsystem) : Fs Unit := do
  T.ensurePort attrs
  let want := FinMap.ofList (desired.map fun s => (s.nqn, s))
  let existing ← listSubsystems
  T.removeOthers want existing
  T.ensureSubsystems want want.sortedKeys

end Target

end SimpleZfsCsi.Nvmet
