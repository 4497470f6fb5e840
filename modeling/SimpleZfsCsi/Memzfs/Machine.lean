import SimpleZfsCsi.Memzfs.Sound

/-!
# The in-memory ZFS as its tests drive it

`Machine` adds to the datasets what the tests of the package set up: failures that are injected
into calls, and zvols that are busy for a while after they were created. `Check` looks for what
must never be. Neither the log of the calls nor that of `ApplyOwnership` is kept.
-/

namespace SimpleZfsCsi.Memzfs

open Library

/-! ## Check -/

namespace Mem

variable (m : Mem)

/-- Follow the origins from the origin `o`, with those datasets `seen` that were met; a loop that
does not end runs out of fuel. -/
def followOrigins : Nat → List String → String → Except Err Unit
  | 0, _, _ => .error (.other "the origins have no end")
  | fuel + 1, seen, o =>
    if o = "" then .ok ()
    else if (split o).1 ∈ seen then .error (.other ("origin cycle at " ++ (split o).1))
    else
      match m.ds.lookup (split o).1 with
      | none => .error (.other "nil pointer dereference")
      | some d => followOrigins fuel ((split o).1 :: seen) d.origin

/-- The body of the loop of `Check`. -/
def checkDataset (n : String) (d : Dataset) : Except Err Unit :=
  if parentOf n ≠ "" ∧ (m.ds.lookup (parentOf n)).isNone then
    .error (.other (n ++ " has no parent " ++ parentOf n))
  else if d.origin ≠ "" ∧ (m.lookupSnap (split d.origin).1 (split d.origin).2.1).isNone then
    .error (.other (n ++ " has dangling origin " ++ d.origin))
  else
    match d.snaps.values.find? fun s => s.deferred && m.clonesOf (snapPath n s.name) = [] with
    | some s =>
      .error (.other (snapPath n s.name ++ " is marked for deferred destroy but has no clones"))
    | none => m.followOrigins (m.ds.keys.length + 1) [n] d.origin

/-- `Check`. -/
def check : Except Err Unit :=
  m.ds.keys.forM fun n =>
    match m.ds.lookup n with
    | none => .ok ()
    | some d => m.checkDataset n d

end Mem

section Check

variable {m : Mem}

/-- The origins end, and do not come back to a dataset. What was seen only has younger snapshots. -/
theorem Sound.followOrigins (h : Sound m []) (fuel : Nat) (seen : List String) (o : String)
    (hseen : seen.Nodup ∧ ∀ e ∈ seen, (m.ds.lookup e).isSome)
    (hfuel : m.ds.keys.length < fuel + seen.length)
    (ho : o ≠ "" → ∃ p n σ, o = snapPath p n ∧ m.lookupSnap p n = some σ ∧
      ∀ e ∈ seen, ∀ k τ, m.lookupSnap e k = some τ → σ.txg < τ.txg) :
    m.followOrigins fuel seen o = .ok () := by
  induction fuel generalizing seen o with
  | zero =>
    have hsub : seen ⊆ m.ds.keys := fun e he => (m.ds.mem_keys e).mpr (hseen.2 e he)
    have hlength := (List.subperm_of_subset hseen.1 hsub).length_le
    omega
  | succ fuel ih =>
    unfold Mem.followOrigins
    split_ifs with hempty hcycle
    · rfl
    · obtain ⟨p, n, σ, rfl, hσ, hyounger⟩ := ho hempty
      rw [split_snapPath (h.plain_of_snap hσ)] at hcycle
      exact absurd (hyounger p hcycle n σ hσ) (Nat.lt_irrefl _)
    · obtain ⟨p, n, σ, rfl, hσ, hyounger⟩ := ho hempty
      obtain ⟨P, hP, _⟩ := lookup_of_lookupSnap hσ
      rw [split_snapPath (h.plain hP)] at hcycle ⊢
      simp only [hP]
      refine ih (p :: seen) P.origin ⟨List.nodup_cons.mpr ⟨hcycle, hseen.1⟩, ?_⟩ ?_
        fun horigin => ?_
      · exact List.forall_mem_cons.mpr ⟨by simp [hP], hseen.2⟩
      · simp only [List.length_cons]
        omega
      · obtain ⟨q, k, ρ, hqk, hρ, hyounger'⟩ := h.origin hP horigin
        refine ⟨q, k, ρ, hqk, hρ, List.forall_mem_cons.mpr ⟨hyounger', fun e he j τ hτ => ?_⟩⟩
        have := hyounger' n σ hσ
        have := hyounger e he j τ hτ
        omega

theorem Sound.checkDataset (h : Sound m []) {n : String} {d : Dataset}
    (hd : m.ds.lookup n = some d) :
    m.checkDataset n d = .ok () := by
  have horigin : d.origin ≠ "" → ∃ p k σ, d.origin = snapPath p k ∧ m.lookupSnap p k = some σ ∧
      ∀ e ∈ [n], ∀ j τ, m.lookupSnap e j = some τ → σ.txg < τ.txg := by
    intro hne
    obtain ⟨p, k, σ, hpk, hσ, hyounger⟩ := h.origin hd hne
    exact ⟨p, k, σ, hpk, hσ, by simpa using hyounger⟩
  unfold Mem.checkDataset
  rw [if_neg, if_neg]
  · cases hfind :
      d.snaps.values.find? fun s => s.deferred && m.clonesOf (snapPath n s.name) = [] with
    | some s =>
      obtain ⟨k, hk⟩ := FinMap.mem_values.mp (List.mem_of_find?_eq_some hfind)
      have hs : m.lookupSnap n k = some s := by simpa [Mem.lookupSnap, hd] using hk
      obtain ⟨hdeferred, hnil⟩ : s.deferred = true ∧ m.clonesOf (snapPath n s.name) = [] := by
        simpa using List.find?_some hfind
      rw [(h.snap hs).1, Mem.clonesOf_eq_nil] at hnil
      exact absurd ((h.marked hs hdeferred).resolve_right (by simp)) hnil
    | none => exact h.followOrigins _ [n] d.origin ⟨by simp, by simp [hd]⟩ (by grind) horigin
  · rintro ⟨hne, hnone⟩
    obtain ⟨p, k, σ, hpk, hσ, _⟩ := horigin hne
    rw [hpk, split_snapPath (h.plain_of_snap hσ), hσ] at hnone
    cases hnone
  · rintro ⟨hne, hnone⟩
    have hsome := h.parent hd hne
    rw [Option.isNone_iff_eq_none] at hnone
    rw [hnone] at hsome
    cases hsome

theorem Sound.check (h : Sound m []) : m.check = .ok () := by
  have hall : ∀ names : List String, (names.forM fun n => match m.ds.lookup n with
      | none => .ok ()
      | some d => m.checkDataset n d) = (.ok () : Except Err Unit) := by
    intro names
    induction names with
    | nil => rfl
    | cons n names ih =>
      have hn : (match m.ds.lookup n with
          | none => .ok ()
          | some d => m.checkDataset n d) = (.ok () : Except Err Unit) := by
        cases hd : m.ds.lookup n with
        | none => rfl
        | some d => exact h.checkDataset hd
      change ((match m.ds.lookup n with
          | none => .ok ()
          | some d => m.checkDataset n d) >>= fun _ => names.forM _) = (.ok () : Except Err Unit)
      rw [hn, ih]
      rfl
  exact hall m.ds.keys

end Check

/-! ## Injected failures -/

/-- The operations a failure can be injected into. -/
inductive Op where
  | create | snapshot | clone | destroy | destroyD | promote | set
  deriving DecidableEq, Repr

structure Injection where
  op : Op
  /-- "" is any name -/
  name : String
  err : Option Err
  times : Int

structure Machine where
  mem : Mem
  inj : List Injection := []
  /-- destroys of a fresh zvol that fail with "dataset is busy" -/
  busy : Int := 0
  /-- zvols that were created and not yet destroyed once -/
  freshZvol : List String := []

def Machine.new (pools : List String) : Machine := { mem := Mem.new pools }

def Injection.hits (op : Op) (name : String) (i : Injection) : Bool :=
  i.times > 0 && i.op = op && (i.name = "" || i.name = name)

/-- The first injection that is hit, used up by one. -/
def useInjection (op : Op) (name : String) : List Injection → Option Err × List Injection
  | [] => (none, [])
  | i :: rest =>
    if i.hits op name then (i.err, { i with times := i.times - 1 } :: rest)
    else ((useInjection op name rest).1, i :: (useInjection op name rest).2)

namespace Machine

variable (a : Machine)

/-- Fail with the injected error, or go on. -/
def injected (op : Op) (name : String) (wrap : Err → Err)
    (next : Machine → Except Err Unit × Machine) :
    Except Err Unit × Machine :=
  let used := useInjection op name a.inj
  match used.1 with
  | some e => (.error (wrap e), { a with inj := used.2 })
  | none => next { a with inj := used.2 }

/-- What the in-memory ZFS does. -/
def onMem (f : Mem → Except Err Unit × Mem) : Except Err Unit × Machine :=
  ((f a.mem).1, { a with mem := (f a.mem).2 })

/-- A created zvol is fresh. -/
def freshen (name : String) (kind : DatasetKind) (r : Except Err Unit × Machine) :
    Except Err Unit × Machine :=
  if r.1 = .ok () ∧ kind = .volume then
    (r.1, { r.2 with freshZvol := name :: r.2.freshZvol }) else r

def create (name : String) (kind : DatasetKind) (size : Int) (props : FinMap String String) :
    Except Err Unit × Machine :=
  a.injected .create name id fun a => freshen name kind (a.onMem (·.create name kind size props))

def createDataset (name : String) (props : FinMap String String) : Except Err Unit × Machine :=
  a.create name .filesystem 0 props

def createZvol (name : String) (size : Int) (props : FinMap String String) :
    Except Err Unit × Machine :=
  if size ≤ 0 then (.error (.other ("zvol size must be > 0, got " ++ toString size)), a)
  else a.create name .volume size props

/-- The names are looked at before an injection is used. -/
def snapshot (names : List String) : Except Err Unit × Machine :=
  match names with
  | [] => a.onMem (·.snapshot names)
  | first :: _ =>
    if names.all fun n => (split n).2.2 then
      a.injected .snapshot first id (·.onMem (·.snapshot names))
    else a.onMem (·.snapshot names)

/-- `Clone`, which creates its destination through `create`. -/
def clone (snap dest : String) (props : FinMap String String) : Except Err Unit × Machine :=
  let (dn, sn, isSnap) := split snap
  if !isSnap then a.onMem (·.clone snap dest props)
  else a.injected .clone dest id fun a =>
    match a.mem.ds.lookup dn with
    | none => a.onMem (·.clone snap dest props)
    | some src =>
      if (src.snaps.lookup sn).isNone ∨ (a.mem.ds.lookup dest).isSome then
        a.onMem (·.clone snap dest props)
      else a.injected .create dest id fun a => freshen dest src.kind
        (a.onMem (·.clone snap dest props))

/-- Only a promote that has something to do can fail. -/
def promote (name : String) : Except Err Unit × Machine :=
  match a.mem.ds.lookup name with
  | none => a.onMem (·.promote name)
  | some d =>
    if d.origin = "" then a.onMem (·.promote name)
    else a.injected .promote name (.wrap ("zfs promote " ++ name ++ " (attempt 1/20)"))
      (·.onMem (·.promote name))

/-- The destroyed datasets are not fresh any more. -/
def destroyNow (name : String) (recursive : Bool) : Except Err Unit × Machine :=
  let tree := name :: a.mem.children name
  let r := a.onMem (·.destroy name recursive)
  if r.1 = .ok () then (r.1, { r.2 with freshZvol := r.2.freshZvol.filter (· ∉ tree) }) else r

def destroy (name : String) (recursive : Bool) : Except Err Unit × Machine :=
  a.injected .destroy name id fun a =>
    if (split name).2.2 then a.onMem (·.destroy name recursive)
    else
      match a.mem.ds.lookup name with
      | none => a.onMem (·.destroy name recursive)
      | some d =>
        if d.kind = .volume ∧ name ∈ a.freshZvol then
          let once := { a with freshZvol := a.freshZvol.filter (· ≠ name) }
          if a.busy > 0 then
            (.error (.other ("cannot destroy '" ++ name ++ "': dataset is busy")),
              { once with busy := a.busy - 1 })
          else once.destroyNow name recursive
        else a.destroyNow name recursive

def destroySnapshotDeferred (name : String) : Except Err Unit × Machine :=
  if (split name).2.2 then a.injected .destroyD name id (·.onMem (·.destroySnapshotDeferred name))
  else a.onMem (·.destroySnapshotDeferred name)

def setProperty (name prop value : String) : Except Err Unit × Machine :=
  a.injected .set name id (·.onMem (·.setProperty name prop value))

end Machine

/-- The calls that change something, and those by which a test prepares failures. -/
inductive MachineCall where
  | createDataset (name : String) (props : FinMap String String)
  | createZvol (name : String) (size : Int) (props : FinMap String String)
  | snapshot (names : List String)
  | clone (snap dest : String) (props : FinMap String String)
  | promote (name : String)
  | destroy (name : String) (recursive : Bool)
  | destroySnapshotDeferred (name : String)
  | setProperty (name prop value : String)
  | inject (i : Injection)
  | busyAfterZvolCreate (n : Int)

def Machine.call (a : Machine) : MachineCall → Except Err Unit × Machine
  | .createDataset name props => a.createDataset name props
  | .createZvol name size props => a.createZvol name size props
  | .snapshot names => a.snapshot names
  | .clone snap dest props => a.clone snap dest props
  | .promote name => a.promote name
  | .destroy name recursive => a.destroy name recursive
  | .destroySnapshotDeferred name => a.destroySnapshotDeferred name
  | .setProperty name prop value => a.setProperty name prop value
  | .inject i => (.ok (), { a with inj := a.inj ++ [i] })
  | .busyAfterZvolCreate n => (.ok (), { a with busy := n })

/-- What a call does when nothing makes it fail. -/
def MachineCall.apply (m : Mem) : MachineCall → Except Err Unit × Mem
  | .createDataset name props => m.createDataset name props
  | .createZvol name size props => m.createZvol name size props
  | .snapshot names => m.snapshot names
  | .clone snap dest props => m.clone snap dest props
  | .promote name => m.promote name
  | .destroy name recursive => m.destroy name recursive
  | .destroySnapshotDeferred name => m.destroySnapshotDeferred name
  | .setProperty name prop value => m.setProperty name prop value
  | .inject _ | .busyAfterZvolCreate _ => (.ok (), m)

/-- No dataset is created under a name with `@`. -/
def MachineCall.Proper : MachineCall → Prop
  | .createDataset name _ | .createZvol name _ _ | .clone _ name _ => Plain name
  | _ => True

def Machine.run (a : Machine) (calls : List MachineCall) : Machine :=
  calls.foldl (fun a c => (a.call c).2) a

end SimpleZfsCsi.Memzfs
