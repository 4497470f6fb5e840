import SimpleZfsCsi.Api.NetworkExport
import SimpleZfsCsi.Api.Storage
import SimpleZfsCsi.Library.Text

/-!
# Parameters

The parameters of a volume come in three layers, defaults, StorageClass and PVC annotations,
of which a later one overrides an earlier one. The pool and the dataset prefix count from the
StorageClass only.
-/

namespace SimpleZfsCsi.Provision

open Library Api

abbrev Params := FinMap String String

/-- The value of a key, "" when it is missing. -/
def Params.get (p : Params) (k : String) : String := (p.lookup k).getD ""

structure ResolvedParams where
  poolGUID : String
  protocol : Protocol
  datasetType : DatasetType
  datasetPrefix : String := ""
  rejectCrossPrefixClones : Bool := false
  volblocksize : String := ""
  properties : List (String × String) := []
  uid : Option Int := none
  gid : Option Int := none
  mode : String := ""
  deriving DecidableEq, Repr

/-- `storageClassOnlyParams`. -/
def storageClassOnly (k : String) : Bool := k = "poolGUID" || k = "datasetPrefix"

/-- Enter a layer; `rename` gives the key under which an entry counts, if it does. -/
def overlay (rename : String → Option String) (merged layer : Params) : Params :=
  layer.keys.foldl (fun m k =>
    match rename k, layer.lookup k with
    | some k', some v => m.insert k' v
    | _, _ => m) merged

/-- `ResolveParameters`. -/
def resolveParameters (defaults scParams pvcAnnotations : Params) (annPrefix : String) : Params :=
  let merged := overlay (fun k => if storageClassOnly k then none else some k) FinMap.empty defaults
  let merged := overlay (fun k => if Text.startsWith k "csi.storage.k8s.io/" then none else some k)
    merged scParams
  if annPrefix = "" then merged
  else overlay (fun k =>
    if Text.startsWith k annPrefix then
      let key := Text.trimStart k annPrefix
      if storageClassOnly key then none else some key
    else none) merged pvcAnnotations

/-- `strconv.ParseBool`. -/
def parseBool (s : String) : Option Bool :=
  if s ∈ ["1", "t", "T", "TRUE", "true", "True"] then some true
  else if s ∈ ["0", "f", "F", "FALSE", "false", "False"] then some false
  else none

/-- Whether `strconv.ParseUint(s, 8, 32)` succeeds. -/
def isOctal32 (s : String) : Bool :=
  !s.toList.isEmpty && s.toList.all (fun c => '0' ≤ c && c ≤ '7') &&
    s.toList.foldl (fun n c => n * 8 + (c.toNat - '0'.toNat)) 0 < 2 ^ 32

def parseOptionalID (raw key : String) : Except String (Option Int) :=
  let s := Text.trimSpace raw
  if s = "" then .ok none
  else
    let (id, ok) := Text.parseInt s
    if !ok || id < 0 then
      .error ("parameter " ++ Err.quoted key ++ " must be a non-negative integer, got " ++
        Err.quoted raw)
    else .ok (some id)

def parseOptionalMode (raw : String) : Except String String :=
  let s := Text.trimSpace raw
  if s = "" then .ok ""
  else if isOctal32 s then .ok s
  else .error ("parameter \"mode\" must be an octal permission string (e.g. \"0770\"), got " ++
    Err.quoted raw)

def parseProtocol (raw : String) : Except String (Protocol × DatasetType) :=
  let s := Text.trimSpace raw
  if s = "nfs" then .ok (.nfs, .filesystem)
  else if s = "nvmeof" then .ok (.nvmeof, .volume)
  else if s = "" then .error "parameter \"protocol\" is required"
  else .error ("parameter \"protocol\" must be \"nfs\" or \"nvmeof\", got " ++ Err.quoted raw)

def parseRejectCrossPrefixClones (raw : String) : Except String Bool :=
  let s := Text.trimSpace raw
  if s = "" then .ok false
  else match parseBool s with
    | some b => .ok b
    | none =>
      .error ("parameter \"rejectCrossPrefixClones\" must be a boolean, got " ++ Err.quoted s)

/-- The ZFS properties among the parameters. -/
def parseProperties (p : Params) : List (String × String) :=
  p.keys.filterMap fun k =>
    let name := Text.trimStart k "property."
    if name ≠ k ∧ name ≠ "" then (p.lookup k).map fun v => (name, v) else none

/-- `ParseParams`. -/
def parseParams (p : Params) : Except String ResolvedParams := do
  let poolGUID := Text.trimSpace (p.get "poolGUID")
  if poolGUID = "" then throw "parameter \"poolGUID\" is required"
  let (protocol, datasetType) ← parseProtocol (p.get "protocol")
  let rejectCrossPrefixClones ← parseRejectCrossPrefixClones (p.get "rejectCrossPrefixClones")
  let rp : ResolvedParams := {
    poolGUID, protocol, datasetType, rejectCrossPrefixClones
    datasetPrefix := Text.trimSlashes (Text.trimSpace (p.get "datasetPrefix"))
    volblocksize := Text.trimSpace (p.get "volblocksize")
    properties := parseProperties p }
  match datasetType with
  | .volume => return rp
  | .filesystem =>
    let uid ← parseOptionalID (p.get "uid") "uid"
    let gid ← parseOptionalID (p.get "gid") "gid"
    let mode ← parseOptionalMode (p.get "mode")
    return { rp with uid, gid, mode }

/-- `ResolvedParams.Dataset`. -/
def ResolvedParams.dataset (rp : ResolvedParams) (volName : String) : String :=
  let name := Text.trimSlashes volName
  if rp.datasetPrefix = "" then name else Text.joinPath rp.datasetPrefix name

end SimpleZfsCsi.Provision
