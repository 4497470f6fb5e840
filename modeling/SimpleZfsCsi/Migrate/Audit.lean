import SimpleZfsCsi.Agent.Names

/-!
# The migration

`zfs-migrate` labels the ZFS objects of a driver that did not write labels yet. `compute` audits
the objects of the cluster and what `zfs list` shows, and returns the changes to make and what
keeps it from making them; `apply` makes the changes.

The bodies of the loops in the source append to the plan and to the claims. Here they return what
they append as a list of notes, in the same order, and `Audit.take` appends them.
-/

namespace SimpleZfsCsi.Migrate

open Library Api Agent

/-- `RestoreSourceSnapshot`. -/
def restoreSourceSnapshot : String := "restore-source"

/-- A dataset, zvol or snapshot; role and owner are its own labels, not inherited ones. -/
structure Obj where
  name : String := ""
  origin : String := ""
  role : String := ""
  owner : String := ""
  deferred : Bool := false
  deriving DecidableEq, Repr

/-- The part after `@`, or "". -/
def Obj.short (o : Obj) : String := (Text.cut '@' o.name).2.1

/-- The name up to `@`. -/
def Obj.dataset (o : Obj) : String := (Text.cut '@' o.name).1

def Obj.isSnapshot (o : Obj) : Bool := (Text.cut '@' o.name).2.2

/-- `Input`. The transition time of a condition is given apart, since the objects do not
carry it. -/
structure Input where
  /-- the pool name of a GUID -/
  pools : FinMap String String
  datasets : List ZfsDataset
  snapshots : List ZfsSnapshot
  lastTransition : Condition → Option Nat

inductive Action where
  | set (target prop value reason : String)
  | destroyDeferred (target reason : String)
  | stampDataset (target : String) (time : Nat) (reason : String)
  | stampSnapshot (target : String) (time : Nat) (reason : String)
  | snapshotSourceType (target : String) (value : DatasetType) (reason : String)
  deriving DecidableEq, Repr

/-- `Action.String`; times are in seconds. -/
def Action.text : Action → String
  | .set target prop value reason =>
    "zfs set " ++ prop ++ "=" ++ value ++ " " ++ target ++ "    # " ++ reason
  | .destroyDeferred target reason => "zfs destroy -d " ++ target ++ "    # " ++ reason
  | .stampDataset target time reason =>
    "ZfsDataset " ++ target ++ ": status.provisionedAt=" ++ toString time ++ "    # " ++ reason
  | .stampSnapshot target time reason =>
    "ZfsSnapshot " ++ target ++ ": status.provisionedAt=" ++ toString time ++ "    # " ++ reason
  | .snapshotSourceType target value reason =>
    "ZfsSnapshot " ++ target ++ ": spec.sourceType=" ++ typeText value ++ "    # " ++ reason

inductive Severity where
  | blocker | info
  deriving DecidableEq, Repr

structure Finding where
  severity : Severity
  subject : String
  message : String
  deriving DecidableEq, Repr

structure Plan where
  actions : List Action := []
  findings : List Finding := []
  labelled : Nat := 0
  marked : Nat := 0

def Plan.blockers (p : Plan) : List Finding := p.findings.filter (·.severity = .blocker)

/-- `Clean`. -/
def Plan.clean (p : Plan) : Bool := p.actions = [] ∧ p.blockers = []

structure Claim where
  role : String
  owner : String
  reason : String
  deriving DecidableEq, Repr

/-! ## Notes -/

/-- What a loop appends. -/
inductive Note where
  | finding (f : Finding)
  | act (a : Action)
  /-- `add` -/
  | claim (name : String) (c : Claim)
  | labelled
  | marked

structure Audit where
  plan : Plan := {}
  claims : FinMap String Claim := FinMap.empty

def Audit.finding (a : Audit) (f : Finding) : Audit :=
  { a with plan := { a.plan with findings := a.plan.findings ++ [f] } }

/-- `add`: the first claim of a name stands, and another one is reported. -/
def Audit.add (a : Audit) (name : String) (c : Claim) : Audit :=
  match a.claims.lookup name with
  | none => { a with claims := a.claims.insert name c }
  | some prev =>
    if prev.role ≠ c.role ∨ prev.owner ≠ c.owner then
      a.finding ⟨.blocker, name, "claimed twice: " ++ prev.role ++ " by " ++ prev.owner ++
        " and " ++ c.role ++ " by " ++
        c.owner⟩
    else { a with claims := a.claims.insert name c }

def Audit.take (a : Audit) : Note → Audit
  | .finding f => a.finding f
  | .act x => { a with plan := { a.plan with actions := a.plan.actions ++ [x] } }
  | .claim name c => a.add name c
  | .labelled => { a with plan := { a.plan with labelled := a.plan.labelled + 1 } }
  | .marked => { a with plan := { a.plan with marked := a.plan.marked + 1 } }

/-! ## The audit -/

section Compute

variable (inp : Input) (objs : List Obj) (now : Nat)

/-- `poolOf`. -/
def Input.poolOf (guid : String) : Option String := (inp.pools.lookup guid).filter (· ≠ "")

/-- `datasetCR`; the last object of a name counts. -/
def Input.datasetCR (name : String) : Option ZfsDataset :=
  inp.datasets.reverse.find? (·.name = name)

/-- The `ZfsDataset` a snapshot was taken of, if it is still there. -/
def Input.source (s : ZfsSnapshot) : Option ZfsDataset :=
  if s.spec.sourceVolume = "" then none else inp.datasetCR s.spec.sourceVolume

def parentOf (pool dataset : String) : String :=
  let dir := Text.dir (Text.trimSlashes dataset)
  if dir = "." then pool else pool ++ "/" ++ dir

/-- The parent of a path on a known pool. -/
def Input.root (guid dataset : String) : Option String :=
  (inp.poolOf guid).map fun pool => parentOf pool dataset

def unknownPool (subject guid : String) : Note :=
  .finding ⟨.blocker, subject, "pool " ++ guid ++ " has no known name"⟩

/-- The objects whose pool has no name. -/
def rootNotes : List Note :=
  inp.datasets.filterMap (fun d =>
    if (inp.poolOf d.spec.poolGUID).isNone then
      some (unknownPool ("ZfsDataset " ++ d.name) d.spec.poolGUID) else none) ++
  inp.snapshots.filterMap fun s =>
    if (inp.poolOf s.spec.poolGUID).isNone then
      some (unknownPool ("ZfsSnapshot " ++ s.name) s.spec.poolGUID) else none

/-- The parents of all datasets, and of the sources of all snapshots. -/
def Input.rootList : List String :=
  ((inp.datasets.filterMap (fun d => inp.root d.spec.poolGUID d.spec.dataset) ++
    inp.snapshots.filterMap fun s => inp.root s.spec.poolGUID s.spec.dataset).dedup).insertionSort
      (· ≤ ·)

/-- `byName`; the last object of a name counts. -/
def byName (name : String) : Option Obj := objs.reverse.find? (·.name = name)

def snapsByShort (short : String) : List Obj := objs.filter fun o => o.isSnapshot && o.short = short

/-- `settled` for a dataset. -/
def settledDataset (phase : Option DatasetPhase) : Bool := phase = some .ready || phase = some .lost

/-- `settled` for a snapshot. -/
def settledSnapshot (phase : Option SnapshotPhase) : Bool :=
  phase = some .ready || phase = some .lost

/-- `provisionedTime`. -/
def Input.provisionedTime (conds : List Condition) : Nat :=
  (conds.findSome? fun c => if c.type = "Ready" ∧ c.status then inp.lastTransition c else
    none).getD now

def predates : String := "predates status.provisionedAt"

def datasetNotes (d : ZfsDataset) : List Note :=
  match inp.poolOf d.spec.poolGUID with
  | none => []
  | some pool =>
    let full := pool ++ "/" ++ Text.trimSlashes d.spec.dataset
    if (byName objs full).isNone then
      if settledDataset d.status.phase then
        [.finding ⟨.info, "ZfsDataset " ++ d.name, "dataset " ++ full ++ " does not exist"⟩]
      else []
    else
      [.claim full ⟨roleVolume, uidText d, "volume of ZfsDataset " ++ d.name⟩] ++
      (snapsByShort objs ("clone-" ++ d.name)).map (fun o =>
        .claim o.name ⟨roleCloneOrigin, uidText d, "clone origin of ZfsDataset " ++ d.name⟩) ++
      if d.status.provisionedAt.isNone ∧ settledDataset d.status.phase then
        [.act (.stampDataset d.name (inp.provisionedTime now d.status.conditions) predates)]
      else []

/-- The raw snapshot of a `ZfsSnapshot`. -/
def rawNotes (s : ZfsSnapshot) : List Note :=
  let subject := "ZfsSnapshot " ++ s.name
  match snapsByShort objs s.spec.snapshotName with
  | [] =>
    [.finding ⟨.info, subject, "raw snapshot " ++ Err.quoted s.spec.snapshotName ++ " not found"⟩]
  | [raw] => [.claim raw.name ⟨roleRaw, uidText s, "raw snapshot of ZfsSnapshot " ++ s.name⟩]
  | raws =>
    [.finding ⟨.blocker, subject, "raw snapshot name " ++ Err.quoted s.spec.snapshotName ++
    " is ambiguous: " ++
      Text.join ", " (raws.map (·.name))⟩]

/-- Its backing clone. -/
def backingNotes (pool : String) (s : ZfsSnapshot) : List Note :=
  let subject := "ZfsSnapshot " ++ s.name
  let srcPath := ((inp.source s).map (·.spec.dataset)).getD s.spec.dataset
  let backing := backingCloneFullName pool srcPath s.spec.snapshotName
  if (byName objs backing).isSome then
    [.claim backing ⟨roleBacking, uidText s, "backing clone of ZfsSnapshot " ++ s.name⟩]
  else [.finding ⟨.info, subject, "backing clone " ++ backing ++ " not found"⟩]

/-- Its type, which older objects do not record. -/
def typeNotes (s : ZfsSnapshot) : List Note :=
  if s.spec.sourceType.isNone then
    match inp.source s with
    | some src =>
      [.act (.snapshotSourceType s.name src.spec.type ("copied from ZfsDataset " ++ src.name))]
    | none =>
      [.finding ⟨.blocker, "ZfsSnapshot " ++ s.name,
      "spec.sourceType is empty and the source ZfsDataset " ++
        Err.quoted s.spec.sourceVolume ++ " is gone; set it by hand"⟩]
  else []

def snapshotNotes (s : ZfsSnapshot) : List Note :=
  match inp.poolOf s.spec.poolGUID with
  | none => []
  | some pool =>
    rawNotes objs s ++ backingNotes inp objs pool s ++
    (if s.status.provisionedAt.isNone ∧ settledSnapshot s.status.phase then
      [.act (.stampSnapshot s.name (inp.provisionedTime now s.status.conditions) predates)]
    else []) ++
    typeNotes inp s

/-- An old snapshot of a backing clone of itself. -/
def restoreNote (claims : FinMap String Claim) (o : Obj) : Note :=
  if (claims.lookup o.dataset).any fun c => c.role = roleBacking || c.role = roleVolume then
    if o.deferred then .marked else .act (.destroyDeferred o.name "old restore-source snapshot")
  else .finding ⟨.blocker, o.name,
    "old restore-source snapshot on a dataset the migration does not own"⟩

/-- One label of a claimed object. -/
def labelNote (name reason prop got want : String) : List Note :=
  if got = want then []
  else if got ≠ "" then
    [.finding ⟨.blocker, name, "label " ++ prop ++ " is " ++ Err.quoted got ++ ", derived " ++
      Err.quoted want⟩]
  else [.act (.set name prop want reason)]

/-- The labels of a claimed object. -/
def labelNotes (claims : FinMap String Claim) (name : String) : List Note :=
  match claims.lookup name with
  | none => []
  | some c =>
    let o := (byName objs name).getD {}
    let notes := labelNote name c.reason propRole o.role c.role ++
      labelNote name c.reason propOwner o.owner c.owner
    notes ++ if notes.isEmpty then [.labelled] else []

def isDriverSnapshot (o : Obj) : Bool :=
  Text.startsWith o.short "csi-snap-" || Text.startsWith o.short "clone-"

/-- An object that looks like one of the driver and that nothing claims. -/
def orphanNotes (claims : FinMap String Claim) (o : Obj) : List Note :=
  if (claims.lookup o.name).isSome ∨ o.name ∈ inp.rootList ∨ o.short = restoreSourceSnapshot then []
  else if o.role ≠ "" ∨ isDriverSnapshot o then
    [.finding ⟨.info, o.name, "no CR owns this object (role " ++ Err.quoted o.role ++ ", owner " ++
      Err.quoted o.owner ++
      ")"⟩]
  else []

/-- The claims, and the actions on objects of the cluster. -/
def crNotes : List Note :=
  rootNotes inp ++ inp.datasets.flatMap (datasetNotes inp objs now) ++
    inp.snapshots.flatMap (snapshotNotes inp objs now)

/-- The audit of what was listed. -/
def audit : Plan :=
  let claimed := (crNotes inp objs now).foldl Audit.take {}
  let restored :=
    ((snapsByShort objs restoreSourceSnapshot).map (restoreNote claimed.claims)).foldl
    Audit.take claimed
  let labelled :=
    (claimed.claims.sortedKeys.flatMap (labelNotes objs claimed.claims)).foldl Audit.take restored
  ((objs.flatMap (orphanNotes inp claimed.claims)).foldl Audit.take labelled).plan

end Compute

/-- `Compute`, with the answer of `List`. -/
def compute (inp : Input) (list : List String → Except Err (List Obj)) (now : Nat) :
    Except Err Plan := do
  let objs ← list inp.rootList
  return audit inp objs now

end SimpleZfsCsi.Migrate
