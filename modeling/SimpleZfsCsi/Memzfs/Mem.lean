import SimpleZfsCsi.Api.Errors
import SimpleZfsCsi.Library.FinMap
import SimpleZfsCsi.Library.Text

/-!
# The in-memory ZFS

`Mem` is the state machine of package `memzfs`: datasets with their snapshots, origins and
properties. Every function answers as its namesake does, error texts included. A map is enumerated
in sorted order where the order can be seen. A transaction group is a natural number for an int64 of
the source: it starts at zero and grows by one with a call that takes snapshots. What only serves
the tests of the package (injected failures, busy zvols, the log of calls) is left out: a call that
fails is a call that is answered with an error and has no effect, whoever makes it fail.
-/

namespace SimpleZfsCsi.Memzfs

open Library

structure Snapshot where
  name : String
  txg : Nat
  props : FinMap String String := FinMap.empty
  deferred : Bool := false

/-- `zpool.DatasetKind`. -/
inductive DatasetKind where
  | filesystem | volume
  deriving DecidableEq, Repr

def DatasetKind.text : DatasetKind → String
  | .filesystem => "filesystem"
  | .volume => "volume"

structure Dataset where
  name : String
  kind : DatasetKind
  props : FinMap String String := FinMap.empty
  /-- the full name of a snapshot, or "" -/
  origin : String := ""
  snaps : FinMap String Snapshot := FinMap.empty
  volsize : Int := 0

structure Mem where
  ds : FinMap String Dataset
  txg : Nat

/-- One empty root dataset for each pool name. -/
def Mem.new (pools : List String) : Mem where
  ds := FinMap.ofList (pools.map fun p => (p, { name := p, kind := .filesystem }))
  txg := 0

/-- `split`: a name of the form `dataset@snap` and its parts. -/
def split (name : String) : String × String × Bool := Text.cut '@' name

/-- The full name of the snapshot `sn` of `dn`. -/
def snapPath (dn sn : String) : String := dn ++ "@" ++ sn

def parentOf (name : String) : String := ((Text.cutLast '/' name).1).getD ""

def notExist (name : String) : Err :=
  .other ("cannot open '" ++ name ++ "': dataset does not exist")

namespace Mem

variable (m : Mem)

/-- The snapshot of a full name. -/
def lookupSnap (dn sn : String) : Option Snapshot := (m.ds.lookup dn).bind (·.snaps.lookup sn)

/-- The names of the datasets that satisfy `p`, sorted. -/
def namesWhere (p : String → Dataset → Bool) : List String :=
  m.ds.sortedKeys.filter fun n => (m.ds.lookup n).any (p n)

def clonesOf (snap : String) : List String := m.namesWhere fun _ d => d.origin = snap

def children (name : String) : List String :=
  m.namesWhere fun n _ => Text.startsWith n (name ++ "/")

/-- The order of `sortedSnaps`: by transaction group and then by name. -/
def Snapshot.before (a b : Snapshot) : Prop := a.txg < b.txg ∨ (a.txg = b.txg ∧ a.name ≤ b.name)

instance : DecidableRel Snapshot.before := fun _ _ => inferInstanceAs (Decidable (_ ∨ _))

def sortedSnaps (d : Dataset) : List Snapshot := d.snaps.values.insertionSort Snapshot.before

def snapNames (d : Dataset) : List String := (sortedSnaps d).map fun s => snapPath d.name s.name

/-- `dropIfDone`: remove a marked snapshot that nothing clones any more. -/
def dropIfDone (full : String) : Mem :=
  let (dn, sn, isSnap) := split full
  if isSnap then
    match m.lookupSnap dn sn with
    | none => m
    | some s =>
      if s.deferred ∧ m.clonesOf full = [] then
        { m with ds := m.ds.modify dn fun d => { d with snaps := d.snaps.erase sn } }
      else m
  else m

def create (name : String) (kind : DatasetKind) (size : Int) (props : FinMap String String) :
    Except Err Unit × Mem :=
  if (m.ds.lookup name).isSome then
    (.error (.other ("cannot create '" ++ name ++ "': dataset already exists")), m)
  else if parentOf name = "" ∨ (m.ds.lookup (parentOf name)).isNone then
    (.error (.other ("cannot create '" ++ name ++ "': parent does not exist")), m)
  else (.ok (), { m with ds := m.ds.insert name { name, kind, props, volsize := size } })

def createDataset (name : String) (props : FinMap String String) : Except Err Unit × Mem :=
  m.create name .filesystem 0 props

def createZvol (name : String) (size : Int) (props : FinMap String String) :
    Except Err Unit × Mem :=
  if size ≤ 0 then (.error (.other ("zvol size must be > 0, got " ++ toString size)), m)
  else m.create name .volume size props

/-- Add one of the snapshots taken in the transaction group `txg`. -/
def addSnap (txg : Nat) (ds : FinMap String Dataset) (name : String) : FinMap String Dataset :=
  let (dn, sn, _) := split name
  ds.modify dn fun d => { d with snaps := d.snaps.insert sn { name := sn, txg } }

/-- `Snapshot`: all names are created in one transaction group or none are. -/
def snapshot (names : List String) : Except Err Unit × Mem :=
  if names = [] then (.error (.other "snapshot name is empty"), m)
  else
    match names.find? fun n => !(split n).2.2 with
    | some n => (.error (.other ("snapshot name " ++ Err.quoted n ++
        " must be of the form pool/dataset@snap")), m)
    | none =>
      match names.find? fun n => (m.ds.lookup (split n).1).isNone with
      | some n => (.error (notExist (split n).1), m)
      | none =>
        let existing := names.countP fun n => (m.lookupSnap (split n).1 (split n).2.1).isSome
        if 0 < existing then
          if existing = names.length ∨ names.length = 1 then (.ok (), m)
          else (.error .snapshotsPartiallyExist, m)
        else (.ok (), { ds := names.foldl (addSnap (m.txg + 1)) m.ds, txg := m.txg + 1 })

/-- `Clone`; an existing destination is left as it is. -/
def clone (snap dest : String) (props : FinMap String String) : Except Err Unit × Mem :=
  let (dn, sn, isSnap) := split snap
  if !isSnap then
    (.error
      (.other ("clone source " ++ Err.quoted snap ++ " must be a snapshot (pool/dataset@snap)")), m)
  else
    match m.ds.lookup dn with
    | none => (.error (notExist snap), m)
    | some src =>
      if (src.snaps.lookup sn).isNone then (.error (notExist snap), m)
      else if (m.ds.lookup dest).isSome then (.ok (), m)
      else
        match m.create dest src.kind src.volsize props with
        | (.error e, m) => (.error e, m)
        | (.ok (), m) =>
          (.ok (), { m with ds := m.ds.modify dest fun d => { d with origin := snap } })

/-- One round of the loop in `Promote`: the snapshot `s` of `pn` goes to `name`, and its clones
follow. -/
def moveSnap (name pn : String) (ds : FinMap String Dataset) (s : Snapshot) :
    FinMap String Dataset :=
  let ds := ds.modify pn fun p => { p with snaps := p.snaps.erase s.name }
  let ds := ds.modify name fun d => { d with snaps := d.snaps.insert s.name s }
  ds.map fun _ other =>
    if other.origin = snapPath pn s.name then
      { other with origin := snapPath name s.name } else other

/-- `Promote`: the origin of a clone and all older snapshots of the parent go to the clone. -/
def promote (name : String) : Except Err Unit × Mem :=
  match m.ds.lookup name with
  | none => (.error (.notExist name), m)
  | some d =>
    if d.origin = "" then (.ok (), m)
    else
      let (pn, osn, _) := split d.origin
      match m.ds.lookup pn, m.lookupSnap pn osn with
      | some p, some o =>
        let moved := (sortedSnaps p).filter fun s => s.txg ≤ o.txg
        match moved.find? fun s => (d.snaps.lookup s.name).isSome with
        | some s => (.error (.conflictingSnapshot name s.name pn osn), m)
        | none =>
          let ds := moved.foldl (moveSnap name pn) m.ds
          let porigin := ((ds.lookup pn).map (·.origin)).getD ""
          let ds := ds.modify name fun d => { d with origin := porigin }
          (.ok (), { m with ds := ds.modify pn fun p => { p with origin := snapPath name osn } })
      -- the origin of a dataset always exists
      | _, _ => (.error (.other "nil pointer dereference"), m)

/-- `Destroy`, of a dataset or a snapshot. -/
def destroy (name : String) (recursive : Bool) : Except Err Unit × Mem :=
  let (dn, sn, isSnap) := split name
  if isSnap then
    match m.lookupSnap dn sn with
    | none => (.ok (), m)
    | some _ =>
      let c := m.clonesOf name
      if c ≠ [] then
        (.error (.other ("cannot destroy '" ++ name ++ "': snapshot has dependent clones\n" ++
          "use '-R' to destroy the following datasets:\n" ++ Text.join "\n" c)), m)
      else (.ok (), { m with ds := m.ds.modify dn fun d => { d with snaps := d.snaps.erase sn } })
  else
    match m.ds.lookup name with
    | none => (.ok (), m)
    | some d =>
      let children := m.children name
      if !recursive ∧ (children ≠ [] ∨ snapNames d ≠ []) then
        (.error (.other ("cannot destroy '" ++ name ++ "': " ++ d.kind.text ++ " has children\n" ++
          "use '-r' to destroy the following datasets:\n" ++
          Text.join "\n" (children ++ snapNames d))), m)
      else
        let tree := name :: children
        let outside := (tree.filterMap m.ds.lookup).flatMap fun t =>
          (snapNames t).flatMap fun s => (m.clonesOf s).filter fun c => c ∉ tree
        if outside ≠ [] then
          (.error (.other ("cannot destroy '" ++ name ++ "': " ++ d.kind.text ++
            " has dependent clones\nuse '-R' to destroy the following datasets:\n" ++
            Text.join "\n" outside)), m)
        else
          let origins := ((tree.filterMap m.ds.lookup).map (·.origin)).filter (· ≠ "")
          (.ok (), origins.foldl dropIfDone { m with ds := m.ds.filterKeys fun n => n ∉ tree })

/-- `DestroySnapshotDeferred`. -/
def destroySnapshotDeferred (name : String) : Except Err Unit × Mem :=
  let (dn, sn, isSnap) := split name
  if !isSnap then
    (.error
      (.other ("snapshot name " ++ Err.quoted name ++ " must be of the form pool/dataset@snap")), m)
  else
    match m.lookupSnap dn sn with
    | none => (.ok (), m)
    | some s =>
      if m.clonesOf name = [] then
        (.ok (), { m with ds := m.ds.modify dn fun d => { d with snaps := d.snaps.erase sn } })
      else (.ok (), { m with ds := m.ds.modify dn fun d =>
        { d with snaps := d.snaps.insert sn { s with deferred := true } } })

def listSnapshots (dataset : String) : Except Err (List String) :=
  match m.ds.lookup dataset with
  | none => .error (.notExist dataset)
  | some d => .ok (snapNames d)

def clones (snap : String) : Except Err (List String) :=
  let (dn, sn, isSnap) := split snap
  if !isSnap then
    .error (.other ("clones requires a snapshot name (pool/dataset@snap), got " ++ Err.quoted snap))
  else
    match m.lookupSnap dn sn with
    | none => .error (.notExist snap)
    | some _ => .ok (m.clonesOf snap)

def isUser (prop : String) : Bool := Text.contains prop ":"

/-- `inherited`: the value of a property on a dataset or its nearest ancestor that has it; the
fuel is the length of the name. -/
def inherited (prop : String) : Nat → String → String
  | 0, _ => "-"
  | fuel + 1, name =>
    if name = "" then "-"
    else
      match (m.ds.lookup name).bind (·.props.lookup prop) with
      | some v => v
      | none => inherited prop fuel (parentOf name)

def getSnap (name dn : String) (s : Snapshot) (prop : String) : String :=
  if prop = "type" then "snapshot"
  else if prop = "clones" then
    match m.clonesOf name with
    | [] => "-"
    | c => Text.join "," c
  else if prop = "defer_destroy" then if s.deferred then "on" else "off"
  else if prop = "createtxg" then toString s.txg
  else if prop = "origin" then "-"
  else if isUser prop then (s.props.lookup prop).getD (m.inherited prop (dn.length + 1) dn)
  else "-"

def getDataset (name : String) (d : Dataset) (prop : String) : String :=
  if prop = "type" then d.kind.text
  else if prop = "origin" then if d.origin = "" then "-" else d.origin
  else if prop = "clones" ∨ prop = "defer_destroy" then "-"
  else if prop = "volsize" then if d.kind = .volume then toString d.volsize else "-"
  else if isUser prop then m.inherited prop (name.length + 1) name
  else (d.props.lookup prop).getD "-"

def get (name prop : String) : Except Err String :=
  let (dn, sn, isSnap) := split name
  match m.ds.lookup dn with
  | none => .error (.notExist name)
  | some d =>
    if isSnap then
      match d.snaps.lookup sn with
      | none => .error (.notExist name)
      | some s => .ok (m.getSnap name dn s prop)
    else .ok (m.getDataset dn d prop)

/-- `SetProperty`. -/
def setProperty (name prop value : String) : Except Err Unit × Mem :=
  let (dn, sn, isSnap) := split name
  match m.ds.lookup dn with
  | none => (.error (notExist name), m)
  | some d =>
    if isSnap ∧ (d.snaps.lookup sn).isNone then (.error (notExist name), m)
    else if prop ∈ ["origin", "clones", "type", "defer_destroy", "createtxg"] then
      (.error
        (.other ("cannot set property for '" ++ name ++ "': '" ++ prop ++ "' is readonly")), m)
    else if isSnap then
      if !isUser prop then
        (.error (.other ("cannot set property for '" ++ name ++
          "': this property can not be modified for snapshots")), m)
      else (.ok (), { m with ds := m.ds.modify dn fun d => { d with
        snaps := d.snaps.modify sn fun s => { s with props := s.props.insert prop value } } })
    else if prop = "volsize" ∧ (Text.parseInt value).2 = false then
      (.error (.other ("cannot set property for '" ++ name ++ "': invalid volsize")), m)
    else (.ok (), { m with ds := m.ds.modify dn fun d => { d with
      volsize := if prop = "volsize" then (Text.parseInt value).1 else d.volsize
      props := d.props.insert prop value } })

end Mem

end SimpleZfsCsi.Memzfs
