import SimpleZfsCsi.Agent.Ownership
import SimpleZfsCsi.Group.Reconcile
import SimpleZfsCsi.Library.Concurrent
import SimpleZfsCsi.Memzfs.Follow

/-!
# A group among the volumes of a site

Two workers of the agent share the API server and the pool: one reconciles ZfsDatasets and
ZfsSnapshots, pass after pass, the other ZfsGroupSnapshots, and their calls interleave. All
reads are current; in the source only those of `gateReader` are, and the others come from a cache,
which `Frozen` is about. Others create, update and delete objects meanwhile.

A `Plan` is what a run knows of names: one group, the pool names, and the path of every volume.
No name and no path is used twice, which `Clear` says of the objects there are. `Fair` is what
every step does to the snapshots of the group, other than taking them: they vanish, or move with
their transaction group, and they leave their source only if it is being deleted for good.
-/

namespace SimpleZfsCsi.Group

open Library Api Agent Memzfs Program Concurrent

structure GroupWorld where
  world : World
  groups : Store ZfsGroupSnapshotSpec ZfsGroupSnapshotStatus

namespace GroupWorld

abbrev mem (s : GroupWorld) : Mem := s.world.mem

/-- Answer a call. -/
def handle : (e : GroupCall) → GroupWorld → e.Ret × GroupWorld
  | .agent e, s => ((World.handle e s.world).1, { s with world := (World.handle e s.world).2 })
  | .readDataset name, s => (s.world.datasets.get name, s)
  | .readSnapshot name, s => (s.world.snapshots.get name, s)
  | .getGroup name, s => (s.groups.get name, s)
  | .readGroup name, s => (s.groups.get name, s)
  | .createSnapshot name spec, s =>
    let r := s.world.snapshots.create s.world.clock name spec {}
    (r.1, { s with world := { s.world with snapshots := r.2 } })
  | .deleteSnapshot name, s =>
    let r := s.world.snapshots.delete name
    (r.1, { s with world := { s.world with snapshots := r.2 } })
  | .updateGroup o, s =>
    let r := s.groups.update o
    (r.1, { s with groups := r.2 })
  | .patchGroupStatus name read patched, s =>
    let r := patchGroup s.groups name read patched
    (r.1, { s with groups := r.2 })

end GroupWorld

/-! ## What all objects of a kind satisfy -/

section Throughout

variable {Spec Status : Type} {p : String → Spec → Prop} {st : Store Spec Status} {n : String}

/-- Every object is kept under its name, and satisfies `p`. -/
def Throughout (p : String → Spec → Prop) (st : Store Spec Status) : Prop :=
  ∀ n o, st.lookup n = some o → o.name = n ∧ p n o.spec

theorem Throughout.put {o : Object Spec Status} (h : Throughout p st) (hname : o.name = n)
    (ho : p n o.spec) :
    Throughout p (st.put n o) := by
  intro n' o' ho'
  obtain ⟨_, ho'⟩ | ⟨rfl, rfl⟩ := Store.lookup_put ho'
  · exact h n' o' ho'
  · exact ⟨hname, ho⟩

theorem Throughout.update [DecidableEq Spec] {o : Object Spec Status} (h : Throughout p st)
    (ho : p o.name o.spec) : Throughout p (st.update o).2 := by
  obtain ⟨e, he⟩ | ⟨cur, hcur, _, hupdate⟩ := st.update_cases o
  · rwa [he]
  · rw [hupdate]
    exact h.put (h _ cur hcur).1 ho

theorem Throughout.delete (h : Throughout p st) : Throughout p (st.delete n).2 := by
  unfold Store.delete
  cases hcur : st.lookup n with
  | none => exact h
  | some cur =>
    simp only
    split_ifs
    · exact h
    · exact h.put (h n cur hcur).1 (h n cur hcur).2

theorem Throughout.patchStatus {merge : Status → Status → Status → Status} {read patched : Status}
    (h : Throughout p st) : Throughout p (st.patchStatus merge n read patched).2 := by
  unfold Store.patchStatus
  cases hcur : st.lookup n with
  | none => exact h
  | some cur => exact h.put (h n cur hcur).1 (h n cur hcur).2

theorem Throughout.create {now : Nat} {spec : Spec} {status : Status} (h : Throughout p st)
    (ho : p n spec) :
    Throughout p (st.create now n spec status).2 := by
  unfold Store.create
  split_ifs
  · exact h
  · exact h.put rfl ho

end Throughout

/-! ## Names -/

/-- A group, and the names a run uses: those of the pools, by their GUIDs, and the paths of the
volumes. -/
structure Plan where
  group : String
  spec : ZfsGroupSnapshotSpec
  poolNames : String → String
  paths : String → String

namespace Plan

variable (P : Plan)

abbrev members : List ZfsGroupSnapshotMember := P.spec.members

def poolName : String := P.poolNames P.spec.poolGUID

/-- The full name of the source of a member. -/
def source (m : ZfsGroupSnapshotMember) : String := P.poolName ++ "/" ++ Text.trimSlashes m.dataset

/-- A ZfsDataset that keeps to the plan: it is the source of a member, or elsewhere. -/
structure Volume (name : String) (spec : ZfsDatasetSpec) : Prop where
  path : spec.dataset = P.paths name
  plain : ∀ full, datasetName (P.poolNames spec.poolGUID) spec.dataset = .ok full → Plain full
  source : ∀ m ∈ P.members, name = m.sourceVolume → spec.poolGUID = P.spec.poolGUID
  beside : ∀ m ∈ P.members, name ≠ m.sourceVolume → ∀ full,
    datasetName (P.poolNames spec.poolGUID) spec.dataset = .ok full → full ≠ P.source m

/-- A ZfsSnapshot that keeps to the plan: its backing clone is nobody's source, and it does not
take a snapshot of a member's name. -/
structure Shot (spec : ZfsSnapshotSpec) : Prop where
  path : spec.sourceVolume ≠ "" → spec.dataset = P.paths spec.sourceVolume
  plain : ∀ full, datasetName (P.poolNames spec.poolGUID)
    (backingDataset spec.dataset spec.snapshotName) =
    .ok full → Plain full
  beside : ∀ m ∈ P.members, ∀ full, datasetName (P.poolNames spec.poolGUID)
    (backingDataset spec.dataset spec.snapshotName) = .ok full → full ≠ P.source m
  short : spec.groupSnapshotID = "" → ∀ m ∈ P.members, spec.snapshotName ≠ m.snapshotName

/-- A ZfsGroupSnapshot that keeps to the plan: it is the group, or has other names. -/
structure Batch (name : String) (spec : ZfsGroupSnapshotSpec) : Prop where
  named : name ≠ ""
  same : name = P.group → spec = P.spec
  children : ∀ g : ZfsGroupSnapshot, g.name = name → g.spec = spec → ∀ m ∈ spec.members,
    P.Shot (ZfsGroupSnapshotReconciler.childSpec g m)
  short : name ≠ P.group → ∀ m' ∈ spec.members, ∀ m ∈ P.members, m'.snapshotName ≠ m.snapshotName

/-- Every object keeps to the plan. -/
structure Clear (s : GroupWorld) : Prop where
  pool : (s.world.pools.lookup (resourceName P.spec.poolGUID)).isSome
  pools : ∀ guid pool, s.world.pools.lookup (resourceName guid) = some pool →
    pool.status.poolName = P.poolNames guid
  datasets : Throughout P.Volume s.world.datasets
  snapshots : Throughout (fun _ => P.Shot) s.world.snapshots
  groups : Throughout P.Batch s.groups

/-- The pool is sound, and every object keeps to the plan. -/
structure Base (s : GroupWorld) : Prop where
  sound : Sound s.mem []
  clear : P.Clear s

/-- A ZfsDataset is there and has the finalizer of the agent. -/
def Held (name : String) (s : GroupWorld) : Prop :=
  ∃ vol, s.world.datasets.lookup name = some vol ∧ vol.containsFinalizer zfsDatasetFinalizer = true

/-- The source of a member is not coming back: its object is gone or being deleted, and its
dataset is gone or yet to be destroyed by the agent. -/
structure Leaving (m : ZfsGroupSnapshotMember) (s : GroupWorld) : Prop where
  dying : ∀ src, s.world.datasets.lookup m.sourceVolume = some src → src.metadata.terminating = true
  seat : s.mem.ds.lookup (P.source m) = none ∨ Held m.sourceVolume s

/-- What every step does that takes no snapshot of a member. -/
structure Fair (s t : GroupWorld) : Prop where
  base : P.Base s → P.Base t
  leaving : ∀ m ∈ P.members, P.Leaving m s → P.Leaving m t
  gone : ∀ m ∈ P.members, s.world.datasets.lookup m.sourceVolume = none →
    t.world.datasets.lookup m.sourceVolume = none
  snaps : ∀ m ∈ P.members, ∀ d' τ, t.mem.lookupSnap d' m.snapshotName = some τ →
    ∃ d σ, s.mem.lookupSnap d m.snapshotName = some σ ∧ σ.txg = τ.txg ∧
      (d' = d ∨ d ≠ P.source m ∨ P.Leaving m t)

theorem Fair.refl (s : GroupWorld) : P.Fair s s :=
  ⟨id, fun _ _ => id, fun _ _ => id, fun _ _ d' τ hτ => ⟨d', τ, hτ, rfl, .inl rfl⟩⟩

variable {P}

theorem Fair.trans {s t u : GroupWorld} (h : P.Fair s t) (h' : P.Fair t u) : P.Fair s u := by
  refine ⟨h'.base ∘ h.base, fun m hm => h'.leaving m hm ∘ h.leaving m hm,
    fun m hm => h'.gone m hm ∘ h.gone m hm,
    fun m hm d' τ hτ => ?_⟩
  obtain ⟨d₁, σ₁, hσ₁, htxg₁, hmoved₁⟩ := h'.snaps m hm d' τ hτ
  obtain ⟨d, σ, hσ, htxg, hmoved⟩ := h.snaps m hm d₁ σ₁ hσ₁
  refine ⟨d, σ, hσ, htxg.trans htxg₁, ?_⟩
  rcases hmoved with rfl | hne | hleaving
  · exact hmoved₁
  · exact .inr (.inl hne)
  · exact .inr (.inr (h'.leaving m hm hleaving))

end Plan

/-! ## What becomes of the ZfsDatasets -/

/-- No object appears under this name, what is being deleted stays so, and the finalizer of the
agent stays. -/
structure Ages (name : String) (s t : GroupWorld) : Prop where
  dying : ∀ vol', t.world.datasets.lookup name = some vol' →
    ∃ vol, s.world.datasets.lookup name = some vol ∧
      (vol.metadata.terminating = true → vol'.metadata.terminating = true)
  held : Plan.Held name s → Plan.Held name t

section Ages

variable {name : String} {s t : GroupWorld}

theorem Ages.of_eq (h : t.world.datasets = s.world.datasets) : Ages name s t := by
  refine ⟨fun vol' hvol' => ⟨vol', h ▸ hvol', id⟩, fun hheld => ?_⟩
  obtain ⟨vol, hvol, hfin⟩ := hheld
  exact ⟨vol, h ▸ hvol, hfin⟩

theorem Ages.gone (h : Ages name s t) (hnone : s.world.datasets.lookup name = none) :
    t.world.datasets.lookup name = none := by
  cases hvol' : t.world.datasets.lookup name with
  | none => rfl
  | some vol' =>
    obtain ⟨vol, hvol, _⟩ := h.dying vol' hvol'
    rw [hnone] at hvol
    cases hvol

theorem released_eq_false {o : ZfsDataset} (h : o.containsFinalizer zfsDatasetFinalizer = true) :
    o.released = false := by
  have hmem : zfsDatasetFinalizer ∈ o.metadata.finalizers := by
    simpa [Object.containsFinalizer] using h
  have hempty : o.metadata.finalizers.isEmpty = false := by
    cases hfin : o.metadata.finalizers with
    | nil => simp [hfin] at hmem
    | cons => rfl
  simp [Object.released, hempty]

/-- An object is written over one that stays marked and held. -/
theorem Ages.put {n : String} {cur o : ZfsDataset} (hcur : s.world.datasets.lookup n = some cur)
    (hdatasets : t.world.datasets = s.world.datasets.put n o)
    (hdying : cur.metadata.terminating = true → o.metadata.terminating = true)
    (hheld : n = name → cur.containsFinalizer zfsDatasetFinalizer = true →
      o.containsFinalizer zfsDatasetFinalizer = true) : Ages name s t := by
  refine ⟨fun vol' hvol' => ?_, fun hheld' => ?_⟩
  · rw [hdatasets] at hvol'
    obtain ⟨_, hvol'⟩ | ⟨rfl, rfl⟩ := Store.lookup_put hvol'
    · exact ⟨vol', hvol', id⟩
    · exact ⟨cur, hcur, hdying⟩
  · obtain ⟨vol, hvol, hfin⟩ := hheld'
    by_cases hn : name = n
    · subst hn
      obtain rfl := Option.some_inj.mp (hcur.symm.trans hvol)
      have hfin' := hheld rfl hfin
      have hlookup := Store.lookup_put_self s.world.datasets name o
      rw [← hdatasets, if_neg (by simp [released_eq_false hfin'])] at hlookup
      exact ⟨_, hlookup, hfin'⟩
    · exact ⟨vol, by rw [hdatasets, Store.lookup_put_of_ne _ _ hn]; exact hvol, hfin⟩

theorem Ages.update {o : ZfsDataset} (hdatasets : t.world.datasets = (s.world.datasets.update o).2)
    (hheld : o.name = name → ∀ cur, s.world.datasets.lookup o.name = some cur →
      cur.containsFinalizer zfsDatasetFinalizer = true →
        o.containsFinalizer zfsDatasetFinalizer = true) :
    Ages name s t := by
  obtain ⟨e, he⟩ | ⟨cur, hcur, _, hupdate⟩ := s.world.datasets.update_cases o
  · exact .of_eq (by rw [hdatasets, he])
  · rw [hupdate] at hdatasets
    exact .put hcur hdatasets id fun hn hfin => hheld hn cur hcur hfin

theorem Ages.delete {n : String} (hdatasets : t.world.datasets = (s.world.datasets.delete n).2) :
    Ages name s t := by
  unfold Store.delete at hdatasets
  cases hcur : s.world.datasets.lookup n with
  | none =>
    rw [hcur] at hdatasets
    exact .of_eq hdatasets
  | some cur =>
    simp only [hcur] at hdatasets
    split_ifs at hdatasets
    · exact .of_eq hdatasets
    · exact .put hcur hdatasets (fun _ => rfl) fun _ => id

theorem Ages.patchStatus {n : String} {read patched : ZfsDatasetStatus}
    (hdatasets : t.world.datasets =
      (s.world.datasets.patchStatus ZfsDatasetStatus.merge n read patched).2) :
    Ages name s t := by
  unfold Store.patchStatus at hdatasets
  cases hcur : s.world.datasets.lookup n with
  | none =>
    rw [hcur] at hdatasets
    exact .of_eq hdatasets
  | some cur =>
    simp only [hcur] at hdatasets
    exact .put hcur hdatasets id fun _ => id

/-- A new object has another name. -/
theorem Ages.create {n : String} {now : Nat} {spec : ZfsDatasetSpec} (hn : name ≠ n)
    (hdatasets : t.world.datasets = (s.world.datasets.create now n spec {}).2) : Ages name s t := by
  have hsame : t.world.datasets.lookup name = s.world.datasets.lookup name := by
    rw [hdatasets]
    unfold Store.create
    split_ifs
    · rfl
    · exact Store.lookup_put_of_ne _ _ hn
  refine ⟨fun vol' hvol' => ⟨vol', hsame ▸ hvol', id⟩, fun hheld => ?_⟩
  obtain ⟨vol, hvol, hfin⟩ := hheld
  exact ⟨vol, hsame ▸ hvol, hfin⟩

end Ages

namespace Plan

variable {P : Plan} {s t : GroupWorld} {m : ZfsGroupSnapshotMember}

/-- What is leaving goes on leaving, if its dataset is not created again once it is released. -/
theorem Leaving.of_ages (h : P.Leaving m s) (hages : Ages m.sourceVolume s t)
    (hseat : s.mem.ds.lookup (P.source m) = none → t.mem.ds.lookup (P.source m) = none ∨
      Held m.sourceVolume t) :
    P.Leaving m t := by
  refine ⟨fun src' hsrc' => ?_, ?_⟩
  · obtain ⟨src, hsrc, hdying⟩ := hages.dying src' hsrc'
    exact hdying (h.dying src hsrc)
  · rcases h.seat with hnone | hheld
    · exact hseat hnone
    · exact .inr (hages.held hheld)

/-- A step that leaves the pool alone. -/
theorem Fair.of_mem (hmem : t.mem = s.mem) (hclear : P.Clear s → P.Clear t)
    (hages : ∀ m ∈ P.members, Ages m.sourceVolume s t) : P.Fair s t where
  base h := ⟨hmem ▸ h.sound, hclear h.clear⟩
  leaving m hm h := h.of_ages (hages m hm) fun hnone => .inl (hmem ▸ hnone)
  gone m hm := (hages m hm).gone
  snaps _ _ d' τ hτ := ⟨d', τ, hmem ▸ hτ, rfl, .inl rfl⟩

end Plan

/-- What the worker that reconciles ZfsDatasets and ZfsSnapshots relies on: nobody else creates,
destroys or promotes a dataset, or takes a finalizer of its off. -/
structure Aside (s t : GroupWorld) : Prop where
  origins : ∀ n, (t.mem.ds.lookup n).map (·.origin) = (s.mem.ds.lookup n).map (·.origin)
  ages : ∀ n, Plan.Held n s → Ages n s t

theorem Aside.refl (s : GroupWorld) : Aside s s := ⟨fun _ => rfl, fun _ _ => .of_eq rfl⟩

theorem Aside.trans {s t u : GroupWorld} (h : Aside s t) (h' : Aside t u) : Aside s u := by
  refine ⟨fun n => (h'.origins n).trans (h.origins n), fun n hn => ?_⟩
  have hst := h.ages n hn
  have htu := h'.ages n (hst.held hn)
  refine ⟨fun vol'' hvol'' => ?_, htu.held ∘ hst.held⟩
  obtain ⟨vol', hvol', hdying'⟩ := htu.dying vol'' hvol''
  obtain ⟨vol, hvol, hdying⟩ := hst.dying vol' hvol'
  exact ⟨vol, hvol, hdying' ∘ hdying⟩

theorem Aside.of_eq {s t : GroupWorld} (horigins : ∀ n, (t.mem.ds.lookup n).map (·.origin) =
    (s.mem.ds.lookup n).map (·.origin))
    (hdatasets : t.world.datasets = s.world.datasets) : Aside s t :=
  ⟨horigins, fun _ _ => .of_eq hdatasets⟩

/-! ## What others ask for -/

/-- What others ask of the API server, within the plan, and what becomes of the pools. The
sources of the members are there from the start, and nobody else takes a finalizer off. -/
inductive Asks (P : Plan) : GroupWorld → GroupWorld → Prop where
  | createDataset (s : GroupWorld) (name : String) (spec : ZfsDatasetSpec)
    (hspec : P.Volume name spec)
      (hnew : ∀ m ∈ P.members, m.sourceVolume ≠ name) :
      Asks P s { s with world := { s.world with
        datasets := (s.world.datasets.create s.world.clock name spec {}).2 } }
  | updateDataset (s : GroupWorld) (o : ZfsDataset) (hspec : P.Volume o.name o.spec)
      (hkept : ∀ cur, s.world.datasets.lookup o.name = some cur →
        o.metadata.finalizers = cur.metadata.finalizers) :
      Asks P s { s with world := { s.world with datasets := (s.world.datasets.update o).2 } }
  | deleteDataset (s : GroupWorld) (name : String) :
      Asks P s { s with world := { s.world with datasets := (s.world.datasets.delete name).2 } }
  | createSnapshot (s : GroupWorld) (name : String) (spec : ZfsSnapshotSpec) (hspec : P.Shot spec) :
      Asks P s { s with world := { s.world with
        snapshots := (s.world.snapshots.create s.world.clock name spec {}).2 } }
  | updateSnapshot (s : GroupWorld) (o : ZfsSnapshot) (hspec : P.Shot o.spec) :
      Asks P s { s with world := { s.world with snapshots := (s.world.snapshots.update o).2 } }
  | deleteSnapshot (s : GroupWorld) (name : String) :
      Asks P s { s with world := { s.world with snapshots := (s.world.snapshots.delete name).2 } }
  | createGroup (s : GroupWorld) (name : String) (spec : ZfsGroupSnapshotSpec)
    (hspec : P.Batch name spec) :
      Asks P s { s with groups := (s.groups.create s.world.clock name spec {}).2 }
  | updateGroup (s : GroupWorld) (o : ZfsGroupSnapshot) (hspec : P.Batch o.name o.spec) :
      Asks P s { s with groups := (s.groups.update o).2 }
  | deleteGroup (s : GroupWorld) (name : String) :
      Asks P s { s with groups := (s.groups.delete name).2 }
  | pools (s : GroupWorld) (pools : Store Unit ZfsPoolStatus) (clock : Nat)
      (hpool : (pools.lookup (resourceName P.spec.poolGUID)).isSome)
      (hpools : ∀ guid pool, pools.lookup (resourceName guid) = some pool →
        pool.status.poolName = P.poolNames guid) (hclock : s.world.clock ≤ clock) :
      Asks P s { s with world := { s.world with pools, clock } }

section Asks

variable {P : Plan} {s t : GroupWorld}

theorem Ages.updateDataset {s t : GroupWorld} {o : ZfsDataset} {name : String}
    (hdatasets : t.world.datasets = (s.world.datasets.update o).2)
    (hkept : ∀ cur, s.world.datasets.lookup o.name = some cur →
      o.metadata.finalizers = cur.metadata.finalizers) : Ages name s t := by
  refine .update hdatasets fun _ cur hcur hfin => ?_
  simpa only [Object.containsFinalizer, hkept cur hcur] using hfin

theorem Asks.fair (h : Asks P s t) : P.Fair s t := by
  cases h with
  | createDataset name spec hspec hnew =>
    exact .of_mem rfl (fun h => { h with datasets := h.datasets.create hspec })
      fun m hm => .create (hnew m hm) rfl
  | updateDataset o hspec hkept =>
    exact .of_mem rfl (fun h => { h with datasets := h.datasets.update hspec })
      fun m hm => .updateDataset rfl hkept
  | deleteDataset name =>
    exact .of_mem rfl (fun h => { h with datasets := h.datasets.delete }) fun m hm => .delete rfl
  | createSnapshot name spec hspec =>
    exact .of_mem rfl (fun h => { h with snapshots := h.snapshots.create hspec }) fun m
      hm => .of_eq rfl
  | updateSnapshot o hspec =>
    exact .of_mem rfl (fun h => { h with snapshots := h.snapshots.update hspec }) fun m
      hm => .of_eq rfl
  | deleteSnapshot name =>
    exact .of_mem rfl (fun h => { h with snapshots := h.snapshots.delete }) fun m hm => .of_eq rfl
  | createGroup name spec hspec =>
    exact .of_mem rfl (fun h => { h with groups := h.groups.create hspec }) fun m hm => .of_eq rfl
  | updateGroup o hspec =>
    exact .of_mem rfl (fun h => { h with groups := h.groups.update hspec }) fun m hm => .of_eq rfl
  | deleteGroup name =>
    exact .of_mem rfl (fun h => { h with groups := h.groups.delete }) fun m hm => .of_eq rfl
  | pools pools clock hpool hpools hclock =>
    exact .of_mem rfl (fun h => { h with pool := hpool, pools := hpools }) fun m hm => .of_eq rfl

theorem Asks.aside (h : Asks P s t) : Aside s t := by
  cases h with
  | createDataset name spec hspec hnew =>
    refine ⟨fun _ => rfl, fun n hn => ?_⟩
    by_cases hne : n = name
    · subst hne
      obtain ⟨vol, hvol, _⟩ := hn
      exact .of_eq (by simp [Store.create, hvol])
    · exact .create hne rfl
  | updateDataset o hspec hkept => exact ⟨fun _ => rfl, fun n _ => .updateDataset rfl hkept⟩
  | deleteDataset name => exact ⟨fun _ => rfl, fun n _ => .delete rfl⟩
  | _ => exact .of_eq (fun _ => rfl) rfl

end Asks

/-! ## What the calls of the agent do to the pool -/

/-- What a pass may call whose dataset is at `full`, apart from promotes and updates. -/
def Tame (P : Plan) (full : String) : AgentCall → Prop
  | .createDataset name _ | .createZvol name _ _ | .clone _ name _ => name = full
  | .snapshot names => ∀ name ∈ names, ∀ m ∈ P.members, (Memzfs.split name).2.1 ≠ m.snapshotName
  | .promote _ | .updateDataset _ | .updateSnapshot _ => False
  | _ => True

/-- What a pass knows of its dataset: if it is the source of a member, its object has the
finalizer. -/
structure Seat (P : Plan) (full : String) (s : GroupWorld) : Prop where
  plain : Plain full
  held : ∀ m ∈ P.members, P.source m = full → Plan.Held m.sourceVolume s

/-- The world after a call of the agent. -/
abbrev GroupWorld.after (s : GroupWorld) (e : AgentCall) : GroupWorld :=
  { s with world := (World.handle e s.world).2 }

section Tame

variable {P : Plan} {full : String} {e : AgentCall} {s t : GroupWorld}

theorem Tame.createsAt (he : Tame P full e) : e.createsAt (· = full) := by
  cases e <;> trivial

theorem Tame.sound (he : Tame P full e) (hplain : Plain full) (hs : Sound s.mem []) :
    Sound (s.after e).mem [] := by
  cases e with
  | createDataset name props =>
    obtain rfl : name = full := he
    exact hs.create hplain _ _ _
  | createZvol name size props =>
    obtain rfl : name = full := he
    exact hs.createZvol hplain _ _
  | clone snap dest props =>
    obtain rfl : dest = full := he
    exact hs.clone _ hplain _
  | snapshot names => exact hs.snapshot names
  | promote name => cases he
  | destroy name recursive => exact hs.destroy name recursive
  | destroySnapshotDeferred name => exact hs.destroySnapshotDeferred name
  | setProperty name prop value => exact hs.setProperty name prop value
  | _ => exact hs

/-- No snapshot of a member is taken or moved. -/
theorem Tame.snaps (he : Tame P full e) {m : ZfsGroupSnapshotMember} (hm : m ∈ P.members)
    {d : String} {τ : Snapshot} (hτ : (s.after e).mem.lookupSnap d m.snapshotName = some τ) :
    ∃ σ, s.mem.lookupSnap d m.snapshotName = some σ ∧ σ.txg = τ.txg := by
  have hquiet : ∀ {m' : Mem}, Quiet s.mem m' → m'.lookupSnap d m.snapshotName = some τ →
      ∃ σ, s.mem.lookupSnap d m.snapshotName = some σ ∧ σ.txg = τ.txg :=
    fun h hτ => h.snaps d _ τ hτ
  cases e with
  | createDataset name props => exact hquiet (quiet_create _ _ _ _ _) hτ
  | createZvol name size props =>
    have hcreate : Quiet s.mem (s.mem.createZvol name size (FinMap.ofList props)).2 := by
      unfold Mem.createZvol
      split_ifs
      · exact .refl _
      · exact quiet_create _ _ _ _ _
    exact hquiet hcreate hτ
  | clone snap dest props => exact hquiet (quiet_clone _ _ _ _) hτ
  | snapshot names =>
    rcases snapshot_lookupSnap hτ with hτ | ⟨name, hname, _, hshort⟩
    · exact ⟨τ, hτ, rfl⟩
    · exact absurd hshort (he name hname m hm)
  | promote name => cases he
  | destroy name recursive => exact hquiet (quiet_destroy _ _ _) hτ
  | destroySnapshotDeferred name => exact hquiet (quiet_destroySnapshotDeferred _ _) hτ
  | setProperty name prop value => exact hquiet (quiet_setProperty _ _ _ _) hτ
  | _ => exact ⟨τ, hτ, rfl⟩

theorem Tame.ages (he : Tame P full e) (name : String) : Ages name s (s.after e) := by
  cases e with
  | updateDataset o => cases he
  | patchDatasetStatus n read patched => exact .patchStatus rfl
  | _ => exact .of_eq rfl

theorem Tame.clear (he : Tame P full e) (hs : P.Clear s) : P.Clear (s.after e) := by
  cases e with
  | updateDataset o => cases he
  | updateSnapshot o => cases he
  | patchDatasetStatus n read patched => exact { hs with datasets := hs.datasets.patchStatus }
  | patchSnapshotStatus n read patched => exact { hs with snapshots := hs.snapshots.patchStatus }
  | _ => exact { hs with }

theorem Seat.ages (h : Seat P full s) (hages : ∀ m ∈ P.members, Ages m.sourceVolume s t) :
    Seat P full t :=
  ⟨h.plain, fun m hm hfull => (hages m hm).held (h.held m hm hfull)⟩

theorem Tame.fair (he : Tame P full e) (hseat : Seat P full s) :
    P.Fair s (s.after e) where
  base h := ⟨he.sound hseat.plain h.sound, he.clear h.clear⟩
  leaving m hm h := by
    refine h.of_ages (he.ages _) fun hnone => ?_
    by_cases hsome : ((s.after e).mem.ds.lookup (P.source m)).isSome
    · have hfull := createsAt_creates he.createsAt (Option.isNone_iff_eq_none.mpr hnone) hsome
      exact .inr ((he.ages _).held (hseat.held m hm hfull))
    · exact .inl (by simpa using hsome)
  gone _ _ := (he.ages _).gone
  snaps m hm d' τ hτ := by
    obtain ⟨σ, hσ, htxg⟩ := he.snaps hm hτ
    exact ⟨d', σ, hσ, htxg, .inl rfl⟩

end Tame

end SimpleZfsCsi.Group
