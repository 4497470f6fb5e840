import SimpleZfsCsi.Provision.Volume

/-!
# Creating a volume twice

A retried `CreateVolume` may find the `ZfsDataset` of its name, and then checks that it is
compatible with what the request resolves to. The check compares the pool, the type and the
size, and of the source whether there is one and its two paths, which a request never sets.
-/

namespace SimpleZfsCsi.Provision

open Library Api Program ControllerServer

/-- The source of a `ZfsDataset` that a content source stands for. -/
def ContentSource.toSource : ContentSource → Option DatasetSource
  | .snapshot id => some (.zfsSnapshotRef id)
  | .volume id => some (.zfsDatasetRef id)
  | .untyped => none

/-- A call that succeeds: the request resolves to `d`, the call `e` in the state `u` creates or
finds the `ZfsDataset`, and `r` is the response. -/
def Provides (c : ControllerServer) (req : CreateVolumeRequest) (rounds : Nat) (d : DesiredVolume)
    (e : CreateCall) (u : CreateWorld) (r : CreateVolumeResponse) : Prop :=
  ∃ s s₁ s₂ t l l₁ l₂ spec vol, CreateRuns (c.desiredVolume req) s l (some (.ok d)) s₁ ∧
    CreateRuns (ensureVolume req.name d.spec rounds) s₁ l₁ (some (.ok spec)) s₂ ∧
    l₁.getLast? = some (e, u) ∧
    CreateRuns (waitVolumeReady req.name 0 rounds) s₂ l₂ (some (.ok vol)) t ∧
    r = ⟨req.name, d.sizeBytes, req.contentSource⟩

/-- `o` is what has become of the `ZfsDataset` with the given spec that was created in the state
`u`; the API server does not let its source change. -/
structure Persists (u : CreateWorld) (spec : ZfsDatasetSpec) (o : ZfsDataset) : Prop where
  uid : o.metadata.uid = u.datasets.revision + 1
  source : o.spec.source = spec.source

/-! ## What the parts of the call do -/

/-- `ensureVolume` ends with the creation of what it was asked for, or with a compatible one. -/
theorem ensureVolume_runs {name : String} {desired spec : ZfsDatasetSpec} {rounds : Nat}
    {s t : CreateWorld}
    {l : List (CreateCall × CreateWorld)}
    (hr : CreateRuns (ensureVolume name desired rounds) s l (some (.ok spec)) t) :
    (∃ u, l.getLast? = some (.createDataset name desired, u) ∧ u.datasets.lookup name = none ∧
      spec = desired) ∨
    (∃ u o, l.getLast? = some (.getDataset name, u) ∧ u.datasets.lookup name = some o ∧
      spec = o.spec ∧
      volumeSpecCompatible o.spec desired = true) := by
  induction rounds generalizing s l with
  | zero => cases hr
  | succ rounds ih =>
    obtain ⟨u, l', rfl, hfound⟩ | ⟨u, r, ⟨msg, rfl⟩, hfound⟩ := Proc.runs_outcome_ask hr
    swap
    · cases hfound
    cases ho : u.datasets.lookup name with
    | some o =>
      have hget : (CreateWorld.handle (.getDataset name) u).1 = .ok o := by
        simp [CreateWorld.handle, Store.get, ho]
      simp only [hget] at hfound
      cases hcompatible : volumeSpecCompatible o.spec desired with
      | false =>
        simp only [hcompatible, Bool.not_false, if_true] at hfound
        cases hfound
      | true =>
        simp only [hcompatible, Bool.not_true, Bool.false_eq_true, if_false] at hfound
        cases hfound with
        | done => exact .inr ⟨u, o, rfl, ho, rfl, hcompatible⟩
    | none =>
      have hget : (CreateWorld.handle (.getDataset name) u).1 = .error (.notFound name) := by
        simp [CreateWorld.handle, Store.get, ho]
      simp only [hget, Err.isNotFound, if_true] at hfound
      -- the creation, which another one may have come before
      obtain ⟨w, l'', rfl, hcreated⟩ | ⟨w, r, ⟨msg, rfl⟩, hcreated⟩ := Proc.runs_outcome_ask hfound
      swap
      · cases hcreated
      cases hw : w.datasets.lookup name with
      | none =>
        have hcreate : (CreateWorld.handle (.createDataset name desired) w).1 = .ok () := by
          simp [CreateWorld.handle, Store.create, hw]
        simp only [hcreate] at hcreated
        cases hcreated with
        | done => exact .inl ⟨w, rfl, hw, rfl⟩
      | some o =>
        have hcreate : (CreateWorld.handle (.createDataset name desired) w).1 =
            .error (.alreadyExists name) := by
          simp [CreateWorld.handle, Store.create, hw]
        simp only [hcreate] at hcreated
        have hlast : ∀ c, l''.getLast? = some c →
            ((CreateCall.getDataset name, u) :: (.createDataset name desired, w) ::
              l'').getLast? = some c := by
          intro c hc
          simp [List.getLast?_cons, hc]
        obtain ⟨v, hv, hrest⟩ | ⟨v, o', hv, hrest⟩ := ih hcreated
        · exact .inl ⟨v, hlast _ hv, hrest⟩
        · exact .inr ⟨v, o', hlast _ hv, hrest⟩

/-- The weakest precondition of a part of the call, for what it returns. -/
abbrev createWp {ε α : Type} (p : CreateProc ε α) (Q : Except ε α → Prop)
    (s : CreateWorld) : Prop :=
  p.run.wp CreateWorld.handle CreateCall.fails (fun _ _ _ => True) (fun _ _ _ => True)
    (fun r _ => Q r) s

/-- The source that a request resolves to is what its content source stands for. -/
def Faithful (req : CreateVolumeRequest) (source : Option DatasetSource) : Prop :=
  req.contentSource ≠ some .untyped ∧ source = req.contentSource.bind ContentSource.toSource

section Wp

variable {ε α β : Type} {Q : Except ε β → Prop} {s : CreateWorld}

/-- The rule for a step whose result does not matter. -/
theorem bind_wp {p : CreateProc ε α} {f : α → CreateProc ε β} (herror : ∀ e, Q (.error e))
    (hf : ∀ a s, createWp (f a) Q s) : createWp (p >>= f) Q s :=
  Proc.wp_bind_last (fun e _ => herror e) hf s

theorem map_wp {p : CreateProc ε α} {f : α → β} (herror : ∀ e, Q (.error e))
    (hp : createWp p (fun r => ∀ a, r = .ok a → Q (.ok (f a))) s) : createWp (f <$> p) Q s := by
  unfold createWp
  rw [Proc.run_map]
  refine Program.wp_bind (wp_mono ?_ hp)
  rintro (e | a) t hr
  · exact herror e
  · exact hr a rfl

end Wp

theorem resolveSnapshotSource_wp (rp : ResolvedParams)
    (caps : List Csi.VolumeCapability) (id : String)
    (s : CreateWorld) : createWp (resolveSnapshotSource rp caps id)
      (fun r => ∀ src, r = .ok src → src = .zfsSnapshotRef id) s := by
  have herror : ∀ e : Status, ∀ src, (Except.error e : Except Status DatasetSource) = .ok src →
      src = .zfsSnapshotRef id := by simp
  apply bind_wp herror
  intro _ s
  apply bind_wp herror
  intro snap s
  apply bind_wp herror
  intro _ s
  apply bind_wp herror
  intro srcType s
  apply bind_wp herror
  intro _ s
  apply bind_wp herror
  intro shape s
  apply bind_wp herror
  intro _ s
  apply bind_wp herror
  intro _ s
  apply bind_wp herror
  intro _ s
  apply bind_wp herror
  intro dataset s
  apply bind_wp herror
  intro _ s src hsrc
  exact (Except.ok.inj hsrc).symm

theorem resolveVolumeSource_wp (rp : ResolvedParams)
    (caps : List Csi.VolumeCapability) (id : String)
    (s : CreateWorld) : createWp (resolveVolumeSource rp caps id)
      (fun r => ∀ src, r = .ok src → src = .zfsDatasetRef id) s := by
  have herror : ∀ e : Status, ∀ src, (Except.error e : Except Status DatasetSource) = .ok src →
      src = .zfsDatasetRef id := by simp
  apply bind_wp herror
  intro _ s
  apply bind_wp herror
  intro src s
  apply bind_wp herror
  intro _ s
  apply bind_wp herror
  intro _ s
  apply bind_wp herror
  intro _ s
  apply bind_wp herror
  intro _ s src hsrc
  exact (Except.ok.inj hsrc).symm

theorem resolveContentSource_wp (rp : ResolvedParams) (req : CreateVolumeRequest)
    (s : CreateWorld) :
    createWp (resolveContentSource rp req) (fun r => ∀ src, r = .ok src → Faithful req src) s := by
  unfold resolveContentSource
  cases hreq : req.contentSource with
  | none =>
    intro src hsrc
    obtain rfl := Except.ok.inj hsrc
    simp [Faithful, hreq]
  | some cs =>
    cases cs with
    | snapshot id =>
      refine map_wp (by simp) (wp_mono ?_ (resolveSnapshotSource_wp rp req.capabilities id s))
      rintro r t hr src rfl
      simp [Faithful, hreq, hr src rfl, ContentSource.toSource]
    | volume id =>
      refine map_wp (by simp) (wp_mono ?_ (resolveVolumeSource_wp rp req.capabilities id s))
      rintro r t hr src rfl
      simp [Faithful, hreq, hr src rfl, ContentSource.toSource]
    | untyped =>
      intro src hsrc
      cases hsrc

theorem volumeSpec_source (rp : ResolvedParams) (dataset : String) (sizeBytes : Int)
    (source : Option DatasetSource) : (volumeSpec rp dataset sizeBytes source).source = source := by
  unfold volumeSpec
  cases rp.datasetType <;> rfl

theorem desiredVolume_wp (c : ControllerServer) (req : CreateVolumeRequest) (s : CreateWorld) :
    createWp (c.desiredVolume req) (fun r => ∀ d, r = .ok d → Faithful req d.spec.source) s := by
  have herror : ∀ e : Status, ∀ d, (Except.error e : Except Status DesiredVolume) = .ok d →
      Faithful req d.spec.source := by simp
  apply bind_wp herror
  intro _ s
  apply bind_wp herror
  intro _ s
  apply bind_wp herror
  intro annotations s
  apply bind_wp herror
  intro defaults s
  generalize (parseParams (resolveParameters defaults req.parameters annotations
    c.annotationPrefix)).mapError (Status.mk .invalidArgument) = parsed
  apply bind_wp herror
  intro rp s
  apply bind_wp herror
  intro _ s
  apply bind_wp herror
  intro _ s
  apply bind_wp herror
  intro _ s
  refine Proc.wp_bind (wp_mono ?_ (resolveContentSource_wp rp req s))
  rintro (e | source) s hsource
  · exact herror e
  · apply bind_wp herror
    intro uuid s d hd
    obtain rfl := Except.ok.inj hd
    rw [volumeSpec_source]
    exact hsource source rfl

/-- Every call that succeeds resolves its request and comes by its `ZfsDataset`. -/
theorem createVolume_provides {c : ControllerServer} {req : CreateVolumeRequest} {rounds : Nat}
    {s t : CreateWorld} {l : List (CreateCall × CreateWorld)} {r : CreateVolumeResponse}
    (hr : CreateRuns (c.createVolume req rounds) s l (some (.ok r)) t) :
    ∃ d e u, (e, u) ∈ l ∧ Provides c req rounds d e u r ∧
      ((e = .createDataset req.name d.spec ∧ u.datasets.lookup req.name = none) ∨
        (e = .getDataset req.name ∧ (u.datasets.lookup req.name).isSome)) := by
  obtain ⟨d, s₁, l₁, l', hdesired, hprovide, rfl⟩ | ⟨_, _, _, h⟩ := Proc.runs_bind hr
  swap
  · exact absurd rfl (h r)
  obtain ⟨spec, s₂, l₂, l'', hensure, hrest, rfl⟩ | ⟨_, _, _, h⟩ := Proc.runs_bind hprovide
  swap
  · exact absurd rfl (h r)
  obtain ⟨vol, s₃, l₃, l₄, hwait, hdone, rfl⟩ | ⟨_, _, _, h⟩ := Proc.runs_bind hrest
  swap
  · exact absurd rfl (h r)
  obtain rfl : r = ⟨req.name, d.sizeBytes, req.contentSource⟩ := by
    cases hdone
    rfl
  have hmem : ∀ x, l₂.getLast? = some x → x ∈ l₁ ++ (l₂ ++ (l₃ ++ l₄)) := by
    intro x hx
    have := List.mem_of_getLast? hx
    simp [this]
  obtain ⟨u, hlast, hnone, _⟩ | ⟨u, o, hlast, hsome, _⟩ := ensureVolume_runs hensure
  · exact ⟨d, _, u, hmem _ hlast,
      ⟨s, s₁, s₂, s₃, l₁, l₂, l₃, spec, vol, hdesired, hensure, hlast, hwait, rfl⟩,
      .inl ⟨rfl, hnone⟩⟩
  · exact ⟨d, _, u, hmem _ hlast,
      ⟨s, s₁, s₂, s₃, l₁, l₂, l₃, spec, vol, hdesired, hensure, hlast, hwait, rfl⟩,
      .inr ⟨rfl, by simp [hsome]⟩⟩

/-! ## Two calls -/

/-- Two requests resolve to the same volume, and the `ZfsDataset` is cloned from what the second
response says. -/
structure SameVolume (req₁ req₂ : CreateVolumeRequest) (d₁ d₂ : DesiredVolume) (o : ZfsDataset)
    (r₂ : CreateVolumeResponse) : Prop where
  pool : d₁.spec.poolGUID = d₂.spec.poolGUID
  type : d₁.spec.type = d₂.spec.type
  size : volumeSize d₁.spec = volumeSize d₂.spec
  content : req₁.contentSource = req₂.contentSource
  cloned : o.spec.source = r₂.contentSource.bind ContentSource.toSource

/-- Where both requests have a content source it is the same, and the `ZfsDataset` has kept what the
first request resolved to. -/
structure Repeated (req₁ req₂ : CreateVolumeRequest) (d₁ : DesiredVolume)
    (o : ZfsDataset) : Prop where
  content : ∀ a b, req₁.contentSource = some a → req₂.contentSource = some b → a = b
  pool : o.spec.poolGUID = d₁.spec.poolGUID
  type : o.spec.type = d₁.spec.type
  size : volumeSize o.spec = volumeSize d₁.spec

theorem compatible_iff {existing desired : ZfsDatasetSpec} :
    volumeSpecCompatible existing desired = true ↔
    existing.poolGUID = desired.poolGUID ∧ existing.type = desired.type ∧
      datasetSourceEqual existing.source desired.source = true ∧
        volumeSize existing = volumeSize desired := by
  unfold volumeSpecCompatible
  split_ifs <;> grind

theorem isSome_of_datasetSourceEqual {a b : Option DatasetSource}
    (h : datasetSourceEqual a b = true) :
    a.isSome = b.isSome := by
  cases a <;> cases b <;> simp_all [datasetSourceEqual]

theorem Provides.faithful {c : ControllerServer} {req : CreateVolumeRequest} {rounds : Nat}
    {d : DesiredVolume}
    {e : CreateCall} {u : CreateWorld} {r : CreateVolumeResponse}
    (h : Provides c req rounds d e u r) :
    Faithful req d.spec.source := by
  obtain ⟨s, _, _, _, _, _, _, _, _, hdesired, _⟩ := h
  exact (wp_runs (desiredVolume_wp c req s) hdesired).2 _ rfl d rfl

/-- A call that finds its `ZfsDataset` finds a compatible one. -/
theorem Provides.compatible {c : ControllerServer} {req : CreateVolumeRequest} {rounds : Nat}
    {d : DesiredVolume}
    {name : String} {u : CreateWorld} {r : CreateVolumeResponse} {o : ZfsDataset}
    (h : Provides c req rounds d (.getDataset name) u r)
    (ho : u.datasets.lookup req.name = some o) :
    volumeSpecCompatible o.spec d.spec = true := by
  obtain ⟨_, _, _, _, _, _, _, _, _, _, hensure, hlast, _⟩ := h
  obtain ⟨u', hlast', _⟩ | ⟨u', o', hlast', ho', _, hcompatible⟩ := ensureVolume_runs hensure
  · rw [hlast] at hlast'
    cases hlast'
  · rw [hlast] at hlast'
    cases hlast'
    rw [ho] at ho'
    exact Option.some_inj.mp ho' ▸ hcompatible

/-- Content sources that stand for the same source are the same. -/
theorem Faithful.isSome {req : CreateVolumeRequest} {source : Option DatasetSource}
    (h : Faithful req source) :
    source.isSome = req.contentSource.isSome := by
  obtain ⟨htyped, rfl⟩ := h
  cases hreq : req.contentSource with
  | none => rfl
  | some cs => cases cs <;> simp_all [ContentSource.toSource]

/-- A second call that finds the `ZfsDataset` of the first is about the same volume just when it
repeats the content source and nothing else has changed. -/
theorem createVolume_repeated {c : ControllerServer} {req₁ req₂ : CreateVolumeRequest}
    {rounds₁ rounds₂ : Nat}
    {d₁ d₂ : DesiredVolume} {u₁ u₂ : CreateWorld} {r₁ r₂ : CreateVolumeResponse} {o : ZfsDataset}
    (h₁ : Provides c req₁ rounds₁ d₁ (.createDataset req₁.name d₁.spec) u₁ r₁)
    (h₂ : Provides c req₂ rounds₂ d₂ (.getDataset req₂.name) u₂ r₂) (hname : req₂.name = req₁.name)
    (ho : u₂.datasets.lookup req₁.name = some o) (hpersists : Persists u₁ d₁.spec o) :
    SameVolume req₁ req₂ d₁ d₂ o r₂ ↔ Repeated req₁ req₂ d₁ o := by
  obtain ⟨hpool, htype, hsource, hsize⟩ := compatible_iff.mp (h₂.compatible (hname ▸ ho))
  have hsome : req₁.contentSource.isSome = req₂.contentSource.isSome := by
    rw [← h₁.faithful.isSome, ← h₂.faithful.isSome, ← hpersists.source]
    exact isSome_of_datasetSourceEqual hsource
  have hresponse : r₂.contentSource = req₂.contentSource := by
    obtain ⟨_, _, _, _, _, _, _, _, _, _, _, _, _, rfl⟩ := h₂
    rfl
  constructor
  · intro h
    refine ⟨fun a b ha hb => ?_, hpool.trans h.pool.symm, htype.trans h.type.symm,
      hsize.trans h.size.symm⟩
    rw [h.content, hb] at ha
    exact (Option.some_inj.mp ha).symm
  · intro h
    have hcontent : req₁.contentSource = req₂.contentSource := by
      cases h₁ : req₁.contentSource with
      | none =>
        rw [h₁] at hsome
        exact (Option.isSome_eq_false_iff.mp hsome.symm |> Option.isNone_iff_eq_none.mp).symm
      | some a =>
        rw [h₁] at hsome
        obtain ⟨b, hb⟩ := Option.isSome_iff_exists.mp hsome.symm
        rw [hb, h.content a b h₁ hb]
    refine ⟨h.pool.symm.trans hpool, h.type.symm.trans htype, h.size.symm.trans hsize, hcontent, ?_⟩
    rw [hpersists.source, h₁.faithful.2, hresponse, hcontent]

/-! ## A volume that is restored twice -/

/-- A call that runs while the others make the change `g` before each read of its wait loop. -/
theorem provides_meanwhile {c : ControllerServer} {req : CreateVolumeRequest} {rounds : Nat}
    {s : CreateWorld}
    {d : DesiredVolume} {e : CreateCall} {u : CreateWorld} (g : CreateWorld → CreateWorld)
    (hdesired : ((c.desiredVolume req).run.exec CreateWorld.handle s).1 = .ok d)
    (hensure : ((ensureVolume req.name d.spec rounds).run.exec CreateWorld.handle
      ((c.desiredVolume req).run.exec CreateWorld.handle s).2).1.toOption.isSome)
    (hlast : ((ensureVolume req.name d.spec rounds).run.trace CreateWorld.handle
      ((c.desiredVolume req).run.exec CreateWorld.handle s).2).getLast? = some (e, u))
    (hwait : ((waitVolumeReady req.name 0 rounds).run.exec (fun e s => CreateWorld.handle e (g s))
      ((ensureVolume req.name d.spec rounds).run.exec CreateWorld.handle
        ((c.desiredVolume req).run.exec CreateWorld.handle s).2).2).1.toOption.isSome) :
    Provides c req rounds d e u ⟨req.name, d.sizeBytes, req.contentSource⟩ := by
  have hok : ∀ {α : Type} {x : Except Status α}, x.toOption.isSome → ∃ a, x = .ok a := by
    intro α x hx
    cases x with
    | ok a => exact ⟨a, rfl⟩
    | error e => simp [Except.toOption] at hx
  obtain ⟨spec, hspec⟩ := hok hensure
  obtain ⟨vol, hvol⟩ := hok hwait
  have h₁ : CreateRuns (c.desiredVolume req) s _ (some _) _ := Runs.exec (fun _ _ => trivial) _ s
  have h₂ : CreateRuns (ensureVolume req.name d.spec rounds) _ _ (some _) _ :=
    Runs.exec (fun _ _ => trivial) _ ((c.desiredVolume req).run.exec CreateWorld.handle s).2
  have h₃ : CreateRuns (waitVolumeReady req.name 0 rounds) _ _ (some _) _ :=
    Runs.meanwhile (fun _ => g) (fun _ _ => trivial) _
      ((ensureVolume req.name d.spec rounds).run.exec
      CreateWorld.handle ((c.desiredVolume req).run.exec CreateWorld.handle s).2).2
  rw [hdesired] at h₁
  rw [hspec] at h₂
  rw [hvol] at h₃
  exact ⟨s, _, _, _, _, _, _, spec, vol, h₁, h₂, hlast, h₃, rfl⟩

def readySnapshot (name : String) : ZfsSnapshot where
  metadata := { name }
  spec := { poolGUID := "1", dataset := "csi-vol-a", snapshotName := "csi-" ++ name }
  status := { phase := some .ready, readyToUse := true }

/-- Two snapshots, and no volume yet. -/
def twoSnapshots : CreateWorld where
  datasets := .empty
  snapshots := .ofList [("snap-a", readySnapshot "snap-a"), ("snap-b", readySnapshot "snap-b")]
  groups := .empty
  configMaps := FinMap.empty
  claims := FinMap.empty
  clock := 100
  uuids _ := "b"
  used := 0

def noDefaults : ControllerServer where
  unmarshal _ := .ok FinMap.empty

/-- A restore of a snapshot as `pvc-1`. -/
def restoreOf (id : String) : CreateVolumeRequest where
  name := "pvc-1"
  capabilities := [{}]
  parameters := FinMap.ofList [("poolGUID", "1"), ("protocol", "nfs")]
  contentSource := some (.snapshot id)

def restoreSpec (id : String) : DesiredVolume where
  sizeBytes := 0
  spec := { poolGUID := "1", dataset := "csi-vol-b", source := some (.zfsSnapshotRef id) }

/-- The agent has cloned the volume. -/
def provisioned (s : CreateWorld) : CreateWorld :=
  { s with datasets :=
    (s.datasets.patchStatus ZfsDatasetStatus.merge "pvc-1" {} { phase := some .ready }).2 }

/-- The volume once the first call has returned. -/
def restored : ZfsDataset where
  metadata := { name := "pvc-1", uid := 1, resourceVersion := 2, creationTimestamp := 100 }
  spec := (restoreSpec "snap-a").spec
  status := { phase := some .ready }

def afterRestore : CreateWorld :=
  { twoSnapshots with datasets := ⟨FinMap.ofList [("pvc-1", restored)], 2⟩ }

/-- The first call restores `snap-a`. -/
theorem first_restore : ∃ u, Provides noDefaults (restoreOf "snap-a") 1 (restoreSpec "snap-a")
    (.createDataset "pvc-1" (restoreSpec "snap-a").spec) u ⟨"pvc-1", 0, some (.snapshot "snap-a")⟩ ∧
    Persists u (restoreSpec "snap-a").spec restored := by
  have hlast : (((ensureVolume "pvc-1" (restoreSpec "snap-a").spec 1).run.trace CreateWorld.handle
      ((noDefaults.desiredVolume (restoreOf "snap-a")).run.exec CreateWorld.handle
        twoSnapshots).2).getLast?.map
        fun x => (x.1, x.2.datasets.revision)) =
          some (.createDataset "pvc-1" (restoreSpec "snap-a").spec, 0) := by
    decide +kernel
  obtain ⟨⟨e, u⟩, hlast, heq⟩ := Option.map_eq_some_iff.mp hlast
  obtain ⟨rfl, hrevision⟩ := Prod.mk.inj heq
  refine ⟨u, ?_, ⟨?_, rfl⟩⟩
  · exact provides_meanwhile provisioned (by decide +kernel) (by decide +kernel) hlast
      (by decide +kernel)
  · have hrevision : u.datasets.revision = 0 := hrevision
    rw [hrevision]
    rfl

/-- A later call, for either of the snapshots, finds the volume. -/
theorem second_restore (id : String) (hid : id = "snap-a" ∨ id = "snap-b") : ∃ u,
    Provides noDefaults (restoreOf id) 1 (restoreSpec id)
      (.getDataset "pvc-1") u ⟨"pvc-1", 0, some (.snapshot id)⟩ ∧
    u.datasets.lookup "pvc-1" = some restored := by
  have hlast : (((ensureVolume "pvc-1" (restoreSpec id).spec 1).run.trace CreateWorld.handle
      ((noDefaults.desiredVolume (restoreOf id)).run.exec CreateWorld.handle
        afterRestore).2).getLast?.map
        fun x => (x.1, x.2.datasets.lookup "pvc-1")) =
          some (.getDataset "pvc-1", some restored) := by
    rcases hid with rfl | rfl <;> decide +kernel
  obtain ⟨⟨e, u⟩, hlast, heq⟩ := Option.map_eq_some_iff.mp hlast
  obtain ⟨rfl, hlookup⟩ := Prod.mk.inj heq
  refine ⟨u, provides_meanwhile (fun s => s) ?_ ?_ hlast ?_, hlookup⟩
  all_goals rcases hid with rfl | rfl <;> decide +kernel

/-- The same request again is about the same volume. -/
theorem createVolume_repeated_restore :
    ∃ u₁ u₂, Provides noDefaults (restoreOf "snap-a") 1 (restoreSpec "snap-a")
        (.createDataset "pvc-1" (restoreSpec "snap-a").spec) u₁
          ⟨"pvc-1", 0, some (.snapshot "snap-a")⟩ ∧
      Provides noDefaults (restoreOf "snap-a") 1 (restoreSpec "snap-a") (.getDataset "pvc-1") u₂
        ⟨"pvc-1", 0, some (.snapshot "snap-a")⟩ ∧
      SameVolume (restoreOf "snap-a") (restoreOf "snap-a") (restoreSpec "snap-a")
        (restoreSpec "snap-a") restored
        ⟨"pvc-1", 0, some (.snapshot "snap-a")⟩ := by
  obtain ⟨u₁, h₁, hpersists⟩ := first_restore
  obtain ⟨u₂, h₂, hlookup⟩ := second_restore "snap-a" (.inl rfl)
  refine ⟨u₁, u₂, h₁, h₂, (createVolume_repeated h₁ h₂ rfl hlookup hpersists).mpr ?_⟩
  exact ⟨fun a b ha hb => Option.some_inj.mp (ha.symm.trans hb), rfl, rfl, rfl⟩

/-- A restore of another snapshot under the same name succeeds, with the data of the first one. -/
theorem other_restore_accepted :
    ¬ ∀ (c : ControllerServer) (req₁ req₂ : CreateVolumeRequest) rounds₁ rounds₂ d₁ d₂
    u₁ u₂ r₁ r₂ o, Provides c req₁ rounds₁ d₁ (.createDataset req₁.name d₁.spec) u₁ r₁ →
    Provides c req₂ rounds₂ d₂ (.getDataset req₂.name) u₂ r₂ → req₂.name = req₁.name →
    u₂.datasets.lookup req₁.name = some o → Persists u₁ d₁.spec o →
      SameVolume req₁ req₂ d₁ d₂ o r₂ := by
  intro hclaim
  obtain ⟨u₁, h₁, hpersists⟩ := first_restore
  obtain ⟨u₂, h₂, hlookup⟩ := second_restore "snap-b" (.inr rfl)
  have hsame := hclaim _ _ _ _ _ _ _ _ _ _ _ _ h₁ h₂ rfl hlookup hpersists
  have hcontent : (some (.snapshot "snap-a") : Option ContentSource) =
      some (.snapshot "snap-b") := hsame.content
  revert hcontent
  decide

end SimpleZfsCsi.Provision
