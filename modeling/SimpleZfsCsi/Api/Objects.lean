import SimpleZfsCsi.Api.Errors
import SimpleZfsCsi.Library.FinMap

/-!
# Objects of the API server

An object is its metadata, its spec and its status. The API server keeps the objects of
a kind by name. It stamps a new resource version on every write, bumps the generation when
the spec changes or the object begins to be deleted, refuses an update of an outdated copy,
and removes an object once it is being deleted and nothing holds it any more. A status
patch carries the difference of two copies of the status and no resource version, so `merge`
writes the changed fields only.
-/

namespace SimpleZfsCsi.Api

open Library

structure ObjectMeta where
  name : String
  /-- the resource version at its creation; no two objects share it -/
  uid : Nat := 0
  resourceVersion : Nat := 0
  generation : Nat := 1
  /-- seconds; the API server's clock has that resolution -/
  creationTimestamp : Nat := 0
  /-- `deletionTimestamp` is set -/
  terminating : Bool := false
  finalizers : List String := []
  deriving DecidableEq, Repr

structure Object (Spec Status : Type) where
  metadata : ObjectMeta
  spec : Spec
  status : Status
  deriving DecidableEq

variable {Spec Status : Type}

namespace Object

def name (o : Object Spec Status) : String := o.metadata.name

def containsFinalizer (o : Object Spec Status) (f : String) : Bool := f ∈ o.metadata.finalizers

def addFinalizer (o : Object Spec Status) (f : String) : Object Spec Status :=
  { o with metadata := { o.metadata with finalizers := o.metadata.finalizers ++ [f] } }

def removeFinalizer (o : Object Spec Status) (f : String) : Object Spec Status :=
  { o with metadata := { o.metadata with finalizers := o.metadata.finalizers.filter (· ≠ f) } }

/-- `DeletionTimestamp` is set and no finalizer is left. -/
def released (o : Object Spec Status) : Bool :=
  o.metadata.terminating && o.metadata.finalizers.isEmpty

end Object

/-- The objects of one kind. -/
structure Store (Spec Status : Type) where
  objects : FinMap String (Object Spec Status)
  revision : Nat

namespace Store

def empty : Store Spec Status := ⟨FinMap.empty, 0⟩

def ofList (l : List (String × Object Spec Status)) : Store Spec Status := ⟨FinMap.ofList l, 0⟩

def lookup (st : Store Spec Status) (name : String) : Option (Object Spec Status) :=
  st.objects.lookup name

def values (st : Store Spec Status) : List (Object Spec Status) := st.objects.values

@[simp] theorem lookup_empty (name : String) : (empty : Store Spec Status).lookup name = none := rfl

@[simp] theorem mem_values {st : Store Spec Status} {o : Object Spec Status} :
    o ∈ st.values ↔ ∃ name, st.lookup name = some o := FinMap.mem_values

/-- Write the object of a name, or let it go when nothing holds it any more. -/
def put (st : Store Spec Status) (name : String) (o : Object Spec Status) : Store Spec Status where
  objects := if o.released then st.objects.erase name
    else st.objects.insert name
      { o with metadata := { o.metadata with resourceVersion := st.revision + 1 } }
  revision := st.revision + 1

def create (st : Store Spec Status) (now : Nat) (name : String) (spec : Spec) (status : Status) :
    Except Err Unit × Store Spec Status :=
  if (st.lookup name).isSome then (.error (.alreadyExists name), st)
  else (.ok (), st.put name {
    metadata := { name, uid := st.revision + 1, creationTimestamp := now }
    spec, status })

def get (st : Store Spec Status) (name : String) : Except Err (Object Spec Status) :=
  match st.lookup name with
  | none => .error (.notFound name)
  | some o => .ok o

/-- An update of finalizers and spec; the status subresource is not written by it. -/
def update [DecidableEq Spec] (st : Store Spec Status) (o : Object Spec Status) :
    Except Err Unit × Store Spec Status :=
  match st.lookup o.name with
  | none => (.error (.notFound o.name), st)
  | some cur =>
    if cur.metadata.resourceVersion ≠ o.metadata.resourceVersion then
      (.error (.conflict o.name), st)
    else
      let generation := if cur.spec = o.spec then cur.metadata.generation
        else cur.metadata.generation + 1
      (.ok (), st.put o.name { cur with
        metadata := { cur.metadata with generation, finalizers := o.metadata.finalizers }
        spec := o.spec })

/-- A merge patch of the status: `read` is the copy it was computed from. -/
def patchStatus (merge : Status → Status → Status → Status) (st : Store Spec Status)
    (name : String) (read patched : Status) : Except Err Unit × Store Spec Status :=
  match st.lookup name with
  | none => (.error (.notFound name), st)
  | some cur => (.ok (), st.put name { cur with status := merge read patched cur.status })

/-- An update of the status subresource. -/
def updateStatus (st : Store Spec Status) (o : Object Spec Status) :
    Except Err Unit × Store Spec Status :=
  match st.lookup o.name with
  | none => (.error (.notFound o.name), st)
  | some cur =>
    if cur.metadata.resourceVersion ≠ o.metadata.resourceVersion then
      (.error (.conflict o.name), st)
    else (.ok (), st.put o.name { cur with status := o.status })

/-- A delete request: an object that something holds stays, marked, until it is released. -/
def delete (st : Store Spec Status) (name : String) : Except Err Unit × Store Spec Status :=
  match st.lookup name with
  | none => (.error (.notFound name), st)
  | some cur =>
    if cur.metadata.terminating then (.ok (), st)
    else (.ok (), st.put name { cur with
      metadata := { cur.metadata with
        terminating := true, generation := cur.metadata.generation + 1 } })

@[simp] theorem revision_put (st : Store Spec Status) (name : String) (o : Object Spec Status) :
    (st.put name o).revision = st.revision + 1 := rfl

theorem lookup_put_of_ne (st : Store Spec Status) {name v : String} (o : Object Spec Status)
    (h : v ≠ name) : (st.put name o).lookup v = st.lookup v := by
  unfold put lookup
  split_ifs <;> simp [h]

theorem lookup_put_self (st : Store Spec Status) (name : String) (o : Object Spec Status) :
    (st.put name o).lookup name = if o.released then none
      else some { o with metadata := { o.metadata with resourceVersion := st.revision + 1 } } := by
  unfold put lookup
  split_ifs <;> simp

/-- What the store holds after a write: at another name what it held, at this name what was
written, if anything. -/
theorem lookup_put {st : Store Spec Status} {name v : String} {o o' : Object Spec Status}
    (h : (st.put name o).lookup v = some o') :
    (v ≠ name ∧ st.lookup v = some o') ∨ (v = name ∧
      o' = { o with metadata := { o.metadata with resourceVersion := st.revision + 1 } }) := by
  by_cases hv : v = name
  · subst hv
    rw [lookup_put_self] at h
    split_ifs at h
    exact .inr ⟨rfl, by simpa using h.symm⟩
  · exact .inl ⟨hv, by rwa [lookup_put_of_ne st o hv] at h⟩

/-- An update is refused, or writes over the very copy it was computed from. -/
theorem update_cases [DecidableEq Spec] (st : Store Spec Status) (o : Object Spec Status) :
    (∃ e, st.update o = (.error e, st)) ∨ ∃ cur, st.lookup o.name = some cur ∧
      cur.metadata.resourceVersion = o.metadata.resourceVersion ∧
      st.update o = (.ok (), st.put o.name { cur with
        metadata := { cur.metadata with
          generation := if cur.spec = o.spec then cur.metadata.generation
            else cur.metadata.generation + 1
          finalizers := o.metadata.finalizers }
        spec := o.spec }) := by
  unfold update
  cases hcur : st.lookup o.name with
  | none => exact .inl ⟨_, rfl⟩
  | some cur =>
    by_cases hversion : cur.metadata.resourceVersion = o.metadata.resourceVersion
    · exact .inr ⟨cur, rfl, hversion, if_neg (not_not.mpr hversion)⟩
    · exact .inl ⟨_, if_pos hversion⟩

/-- A status patch changes no spec. -/
theorem patchStatus_spec {merge : Status → Status → Status → Status}
    {st : Store Spec Status} {name v : String} {read patched : Status} {o : Object Spec Status}
    (h : (st.patchStatus merge name read patched).2.lookup v = some o) :
    ∃ o', st.lookup v = some o' ∧ o'.spec = o.spec := by
  unfold patchStatus at h
  cases hcur : st.lookup name with
  | none => exact ⟨o, by simpa [hcur] using h, rfl⟩
  | some cur =>
    simp only [hcur] at h
    obtain ⟨_, hv⟩ | ⟨rfl, rfl⟩ := lookup_put h
    · exact ⟨o, hv, rfl⟩
    · exact ⟨cur, hcur, rfl⟩

/-- Every object is kept under its name, and no two objects share a uid. -/
def Distinct (st : Store Spec Status) : Prop :=
  ∀ n o, st.lookup n = some o → o.name = n ∧ o.metadata.uid ≤ st.revision ∧
    ∀ n' o', st.lookup n' = some o' → o'.metadata.uid = o.metadata.uid → n' = n

/-- An object is written over one with its name and uid. -/
theorem Distinct.put {st : Store Spec Status} (h : st.Distinct) {name : String}
    {cur o : Object Spec Status} (hcur : st.lookup name = some cur) (hname : o.name = name)
    (huid : o.metadata.uid = cur.metadata.uid) : (st.put name o).Distinct := by
  -- every object that is there now has the uid of one that was there under the same name
  have hold : ∀ n x, (st.put name o).lookup n = some x → x.name = n ∧
      ∃ y, st.lookup n = some y ∧ x.metadata.uid = y.metadata.uid := by
    intro n x hx
    obtain ⟨_, hx⟩ | ⟨rfl, rfl⟩ := lookup_put hx
    · exact ⟨(h n x hx).1, x, hx, rfl⟩
    · exact ⟨hname, cur, hcur, huid⟩
  intro n x hx
  obtain ⟨hn, y, hy, hxy⟩ := hold n x hx
  refine ⟨hn, ?_, fun n' x' hx' hsame => ?_⟩
  · rw [hxy, revision_put]
    exact (h n y hy).2.1.trans (Nat.le_succ _)
  · obtain ⟨-, y', hy', hxy'⟩ := hold n' x' hx'
    exact (h n y hy).2.2 n' y' hy' (by rw [← hxy', ← hxy, hsame])

theorem Distinct.create {st : Store Spec Status} (h : st.Distinct) (now : Nat) (name : String)
    (spec : Spec) (status : Status) : (st.create now name spec status).2.Distinct := by
  unfold Store.create
  split_ifs with hexists
  · exact h
  · intro n x hx
    obtain ⟨hne, hx⟩ | ⟨rfl, rfl⟩ := lookup_put hx
    · obtain ⟨hn, hle, hinj⟩ := h n x hx
      refine ⟨hn, hle.trans (Nat.le_succ _), fun n' x' hx' hsame => ?_⟩
      obtain ⟨_, hx'⟩ | ⟨rfl, rfl⟩ := lookup_put hx'
      · exact hinj n' x' hx' hsame
      · simp only at hsame
        omega
    · refine ⟨rfl, Nat.le_refl _, fun n' x' hx' hsame => ?_⟩
      obtain ⟨_, hx'⟩ | ⟨rfl, rfl⟩ := lookup_put hx'
      · have := (h n' x' hx').2.1
        simp only at hsame
        omega
      · rfl

end Store

/-- One field of a merge patch. -/
def mergeField {α : Type} [DecidableEq α] (read patched cur : α) : α :=
  if read = patched then cur else patched

/-- A status condition, without its transition time. -/
structure Condition where
  type : String
  status : Bool
  reason : String
  message : String
  observedGeneration : Nat
  deriving DecidableEq, Repr

/-- `meta.SetStatusCondition`. -/
def setStatusCondition (cs : List Condition) (c : Condition) : List Condition :=
  if cs.any (·.type = c.type) then cs.map fun d => if d.type = c.type then c else d
  else cs ++ [c]

end SimpleZfsCsi.Api
