import Mathlib.Data.String.Basic

/-!
# Errors

The source tells its errors apart with `errors.Is`, `errors.As` and the API server's
`IsNotFound` and friends; everything else about an error is its text. `Err` has one
constructor for each error the code, or a statement about the code, distinguishes, and
`Err.wrap` for `fmt.Errorf("…: %w", err)`. `Err.message` renders the texts of the source.
-/

namespace SimpleZfsCsi

/-- An error value. -/
inductive Err where
  /-- wraps `zpool.ErrNotExist` -/
  | notExist (name : String)
  /-- `zpool.ErrSnapshotsPartiallyExist` -/
  | snapshotsPartiallyExist
  /-- the API server has no such object -/
  | notFound (name : String)
  /-- the API server refuses an update of an outdated copy -/
  | conflict (name : String)
  | alreadyExists (name : String)
  /-- `sourceNotReadyError` -/
  | sourceNotReady (msg : String)
  /-- `assertDriverSnapshot` refuses -/
  | foreignSnapshot (snap : String)
  /-- `assertKnownDatasets` refuses -/
  | unknownClone (snap clone : String)
  /-- a promote meets a snapshot of the same short name -/
  | conflictingSnapshot (name short parent origin : String)
  | notConverged (full : String) (rounds : Nat)
  | other (msg : String)
  | wrap (context : String) (cause : Err)
  deriving DecidableEq, Repr

namespace Err

def quoted (s : String) : String := "\"" ++ s ++ "\""

def message : Err → String
  | notExist name => "zfs: dataset does not exist: " ++ name
  | snapshotsPartiallyExist => "zfs: some of the requested snapshots already exist"
  | notFound name => quoted name ++ " not found"
  | conflict name => quoted name ++ ": the object has been modified"
  | alreadyExists name => quoted name ++ " already exists"
  | sourceNotReady msg => msg
  | foreignSnapshot snap => "snapshot " ++ quoted snap ++
      " was not created by this driver; refusing to destroy it — remove it manually to continue"
  | unknownClone snap clone => "snapshot " ++ quoted snap ++ " is cloned by " ++ quoted clone ++
      ", which is neither a known ZfsDataset nor a live ZfsSnapshot's backing clone on this pool; "
        ++
      "refusing to promote a dataset the driver does not manage — resolve it manually"
  | conflictingSnapshot name short parent origin => "zfs promote " ++ name ++
      " (attempt 1/20): cannot promote '" ++ name ++ "': conflicting snapshot '" ++ short ++
      "' from parent '" ++ parent ++ "@" ++ origin ++ "'"
  | notConverged full rounds => "detaching dependents of " ++ quoted full ++
      " did not converge after " ++ toString rounds ++ " rounds"
  | other msg => msg
  | wrap context cause => context ++ ": " ++ cause.message

/-- `errors.Is(err, zpool.ErrNotExist)`. -/
def isNotExist : Err → Bool
  | notExist _ => true
  | wrap _ e => e.isNotExist
  | _ => false

/-- `apierrors.IsNotFound(err)`. -/
def isNotFound : Err → Bool
  | notFound _ => true
  | wrap _ e => e.isNotFound
  | _ => false

/-- `apierrors.IsConflict(err)`, which `retry.RetryOnConflict` retries. -/
def isConflict : Err → Bool
  | conflict _ => true
  | wrap _ e => e.isConflict
  | _ => false

/-- `errors.As(err, *sourceNotReadyError)`. -/
def isSourceNotReady : Err → Bool
  | sourceNotReady _ => true
  | wrap _ e => e.isSourceNotReady
  | _ => false

/-- The delete path refuses for good: a foreign snapshot, an unknown clone, or a promote that
meets a snapshot of the same name. -/
def isRefusal : Err → Bool
  | foreignSnapshot _ => true
  | unknownClone _ _ => true
  | conflictingSnapshot _ _ _ _ => true
  | wrap _ e => e.isRefusal
  | _ => false

end Err

/-! ## gRPC statuses -/

/-- The codes the CSI services return. -/
inductive Code where
  | invalidArgument | notFound | alreadyExists | failedPrecondition | internal | deadlineExceeded
  | aborted
  deriving DecidableEq, Repr

/-- A gRPC error status. -/
structure Status where
  code : Code
  message : String
  deriving DecidableEq, Repr

end SimpleZfsCsi
