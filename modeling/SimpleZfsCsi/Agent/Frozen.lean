import SimpleZfsCsi.Agent.Cached

/-!
# provisionedAt freezes provisioning

Once an object has been provisioned, its `provisionedAt` stays and no pass of that object
creates anything in the pool, as long as no pass starts from a copy that is older than the
stamp, and none takes over from another node while that one is provisioning or after it has
provisioned. The stamp is set by the last call of a pass, so from the read that finds its node to
host the pool until then a pass may rely on finding the object without one.
-/

namespace SimpleZfsCsi.Agent

open Library Api Memzfs Program Concurrent

/-! ## Stamps in a store -/

section Stamp

variable {Spec Status : Type} {stamp : Status → Option Nat} {a b : Store Spec Status}
  {name : String}

/-- No stamp changes. -/
def Keeps (stamp : Status → Option Nat) (a b : Store Spec Status) : Prop :=
  ∀ name o o', a.lookup name = some o → b.lookup name = some o' →
    ∀ t, stamp o.status = some t → stamp o'.status = some t

/-- The object of that name, if there is one, has no stamp. -/
def Unstamped (stamp : Status → Option Nat) (a : Store Spec Status) (name : String) : Prop :=
  ∀ o, a.lookup name = some o → stamp o.status = none

/-- Every object is kept under its own name. -/
def Named (a : Store Spec Status) : Prop := ∀ name o, a.lookup name = some o → o.name = name

/-- No stamp is written: every object has the one it had, and a new object has none. -/
def Steady (stamp : Status → Option Nat) (a b : Store Spec Status) : Prop :=
  ∀ name o', b.lookup name = some o' →
    (∃ o, a.lookup name = some o ∧ o'.name = o.name ∧ stamp o'.status = stamp o.status) ∨
      (a.lookup name = none ∧ o'.name = name ∧ stamp o'.status = none)

theorem Steady.refl (a : Store Spec Status) : Steady stamp a a :=
  fun _ o ho => .inl ⟨o, ho, rfl, rfl⟩

theorem Steady.keeps (h : Steady stamp a b) : Keeps stamp a b := by
  intro name o o' ho ho' t ht
  obtain ⟨x, hx, _, hstamp⟩ | ⟨hnone, _⟩ := h name o' ho'
  · rw [hstamp, ← ht, Option.some_inj.mp (hx.symm.trans ho)]
  · rw [hnone] at ho
    cases ho

theorem Steady.unstamped (h : Steady stamp a b) (ha : Unstamped stamp a name) :
    Unstamped stamp b name := by
  intro o' ho'
  obtain ⟨x, hx, _, hstamp⟩ | ⟨_, _, hnone⟩ := h name o' ho'
  · rw [hstamp, ha x hx]
  · exact hnone

theorem Steady.named (h : Steady stamp a b) (ha : Named a) : Named b := by
  intro name o' ho'
  obtain ⟨x, hx, hname, _⟩ | ⟨_, hname, _⟩ := h name o' ho'
  · rw [hname, ha name x hx]
  · exact hname

theorem Steady.put {x o : Object Spec Status} (hx : a.lookup name = some x)
    (hname : o.name = x.name)
    (hstamp : stamp o.status = stamp x.status) : Steady stamp a (a.put name o) := by
  intro n o' ho'
  obtain ⟨_, ho'⟩ | ⟨rfl, rfl⟩ := Store.lookup_put ho'
  · exact .inl ⟨o', ho', rfl, rfl⟩
  · exact .inl ⟨x, hx, hname, hstamp⟩

theorem Steady.update [DecidableEq Spec] (a : Store Spec Status) (o : Object Spec Status) :
    Steady stamp a (a.update o).2 := by
  obtain ⟨e, he⟩ | ⟨cur, hcur, _, hupdate⟩ := a.update_cases o
  · rw [he]
    exact Steady.refl a
  · rw [hupdate]
    exact Steady.put hcur rfl rfl

theorem Steady.create {status : Status} (hstatus : stamp status = none) (now : Nat) (spec : Spec) :
    Steady stamp a (a.create now name spec status).2 := by
  unfold Store.create
  split_ifs with hsome
  · exact Steady.refl a
  · intro n o' ho'
    obtain ⟨_, ho'⟩ | ⟨rfl, rfl⟩ := Store.lookup_put ho'
    · exact .inl ⟨o', ho', rfl, rfl⟩
    · exact .inr ⟨by simpa using hsome, rfl, hstatus⟩

theorem Steady.delete : Steady stamp a (a.delete name).2 := by
  unfold Store.delete
  split
  · exact Steady.refl a
  case h_2 cur hcur =>
    split_ifs
    · exact Steady.refl a
    · exact Steady.put hcur rfl rfl

theorem Steady.patchStatus {merge : Status → Status → Status → Status} {read patched : Status}
    (hmerge : ∀ cur, stamp (merge read patched cur) = stamp cur) :
    Steady stamp a (a.patchStatus merge name read patched).2 := by
  unfold Store.patchStatus
  split
  · exact Steady.refl a
  case h_2 cur hcur => exact Steady.put hcur rfl (hmerge cur.status)

/-- A patch of an object without a stamp. -/
theorem Keeps.patchStatus {merge : Status → Status → Status → Status} {read patched : Status}
    (ha : Unstamped stamp a name) : Keeps stamp a (a.patchStatus merge name read patched).2 := by
  intro n o o' ho ho' t ht
  unfold Store.patchStatus at ho'
  split at ho'
  · rw [← ht, Option.some_inj.mp (ho'.symm.trans ho)]
  case h_2 cur hcur =>
    obtain ⟨_, ho'⟩ | ⟨rfl, _⟩ := Store.lookup_put ho'
    · rw [← ht, Option.some_inj.mp (ho'.symm.trans ho)]
    · rw [ha o ho] at ht
      cases ht

/-- A patch leaves the other objects alone. -/
theorem Unstamped.patchStatus_of_ne {merge : Status → Status → Status → Status}
    {read patched : Status} {n : String} (hn : n ≠ name) (ha : Unstamped stamp a n) :
    Unstamped stamp (a.patchStatus merge name read patched).2 n := by
  intro o' ho'
  unfold Store.patchStatus at ho'
  split at ho'
  · exact ha o' ho'
  · rw [Store.lookup_put_of_ne _ _ hn] at ho'
    exact ha o' ho'

theorem Named.patchStatus {merge : Status → Status → Status → Status} {read patched : Status}
    (ha : Named a) : Named (a.patchStatus merge name read patched).2 :=
  have hsteady : Steady (fun _ => none) a (a.patchStatus merge name read patched).2 :=
    Steady.patchStatus fun _ => rfl
  hsteady.named ha

end Stamp

/-! ## Stamps in the world -/

/-- Every object, and every copy of it, is kept under its own name. -/
structure NamedWorld (s : CachedWorld) : Prop where
  datasets : Named s.world.datasets
  snapshots : Named s.world.snapshots
  datasetCopies : ∀ node name o, some o ∈ (s.datasets node).versions name → o.name = name
  snapshotCopies : ∀ node name o, some o ∈ (s.snapshots node).versions name → o.name = name

/-- No `provisionedAt` changes. -/
structure KeepsStamps (s t : CachedWorld) : Prop where
  datasets : Keeps datasetStamp s.world.datasets t.world.datasets
  snapshots : Keeps snapshotStamp s.world.snapshots t.world.snapshots

/-- The object of a pass, if it exists, has no `provisionedAt`. -/
def AgentTask.Unprovisioned : AgentTask → CachedWorld → Prop
  | .dataset name, s => Unstamped datasetStamp s.world.datasets name
  | .snapshot name, s => Unstamped snapshotStamp s.world.snapshots name

/-- No `provisionedAt` is written. -/
structure SteadyWorld (s t : CachedWorld) : Prop where
  named : NamedWorld s → NamedWorld t
  datasets : Steady datasetStamp s.world.datasets t.world.datasets
  snapshots : Steady snapshotStamp s.world.snapshots t.world.snapshots

section World

variable {s t : CachedWorld} {name : String}

theorem SteadyWorld.keeps (h : SteadyWorld s t) : KeepsStamps s t :=
  ⟨h.datasets.keeps, h.snapshots.keeps⟩

theorem SteadyWorld.unprovisioned (h : SteadyWorld s t) {task : AgentTask}
    (hs : task.Unprovisioned s) : task.Unprovisioned t := by
  cases task with
  | dataset name => exact h.datasets.unstamped hs
  | snapshot name => exact h.snapshots.unstamped hs

/-- What is not about the objects changes no stamp. -/
theorem SteadyWorld.of_eq (hdatasets : t.world.datasets = s.world.datasets)
    (hsnapshots : t.world.snapshots = s.world.snapshots)
    (hdatasetCopies :
      ∀ node name, (t.datasets node).versions name <:+ (s.datasets node).versions name)
    (hsnapshotCopies : ∀ node name,
      (t.snapshots node).versions name <:+ (s.snapshots node).versions name) :
    SteadyWorld s t where
  named h := ⟨hdatasets ▸ h.datasets, hsnapshots ▸ h.snapshots,
    fun node name o ho => h.datasetCopies node name o ((hdatasetCopies node name).subset ho),
    fun node name o ho => h.snapshotCopies node name o ((hsnapshotCopies node name).subset ho)⟩
  datasets := hdatasets ▸ Steady.refl _
  snapshots := hsnapshots ▸ Steady.refl _

/-- What changes nothing but what passes have read. -/
theorem SteadyWorld.of_same (hworld : t.world = s.world) (hdatasets : t.datasets = s.datasets)
    (hsnapshots : t.snapshots = s.snapshots) : SteadyWorld s t :=
  .of_eq (hworld ▸ rfl) (hworld ▸ rfl) (fun _ _ => hdatasets ▸ List.suffix_refl _)
    fun _ _ => hsnapshots ▸ List.suffix_refl _

/-- The copies of a write are under their names if the objects are. -/
theorem named_notify {Spec Status : Type} {c : String → Informer String (Object Spec Status)}
    {st : Store Spec Status} (hst : Named st) {p : Prop} [Decidable p]
    (hc : ∀ node n o, some o ∈ (c node).versions n → o.name = n) (node n : String)
    (o : Object Spec Status) (ho : some o ∈
      ((if p then c else fun node => (c node).notify name (st.lookup name)) node).versions n) :
    o.name = n := by
  split_ifs at ho
  · exact hc node n o ho
  · rw [Informer.versions_notify] at ho
    split_ifs at ho with hn
    · subst hn
      rcases List.mem_append.mp ho with ho | ho
      · exact hc node n o ho
      · exact hst n o (List.mem_singleton.mp ho).symm
    · exact hc node n o ho

/-- A version arrives at one node. -/
theorem versions_delivered {V : Type} (c : String → Informer String V) (node name n k : String) :
    ((Function.update c node ((c node).deliver name)) n).versions k <:+ (c n).versions k := by
  by_cases hn : n = node
  · subst hn
    simpa using Informer.versions_deliver
  · simp [hn]

theorem NamedWorld.writeDatasets {st : Store ZfsDatasetSpec ZfsDatasetStatus} (h : NamedWorld s)
    (hst : Named st) : NamedWorld (s.writeDatasets name st) :=
  ⟨hst, h.snapshots, named_notify hst h.datasetCopies, h.snapshotCopies⟩

theorem NamedWorld.writeSnapshots {st : Store ZfsSnapshotSpec ZfsSnapshotStatus} (h : NamedWorld s)
    (hst : Named st) : NamedWorld (s.writeSnapshots name st) :=
  ⟨h.datasets, hst, h.datasetCopies, named_notify hst h.snapshotCopies⟩

theorem SteadyWorld.writeDatasets {st : Store ZfsDatasetSpec ZfsDatasetStatus}
    (hst : Steady datasetStamp s.world.datasets st) : SteadyWorld s (s.writeDatasets name st) :=
  ⟨fun h => h.writeDatasets (hst.named h.datasets), hst, Steady.refl _⟩

theorem SteadyWorld.writeSnapshots {st : Store ZfsSnapshotSpec ZfsSnapshotStatus}
    (hst : Steady snapshotStamp s.world.snapshots st) : SteadyWorld s (s.writeSnapshots name st) :=
  ⟨fun h => h.writeSnapshots (hst.named h.snapshots), Steady.refl _, hst⟩

/-- What others do changes no stamp. -/
theorem Outside.steady (h : Outside s t) : SteadyWorld s t := by
  cases h with
  | deliverDataset node name =>
    exact .of_eq rfl rfl (versions_delivered _ _ _) fun _ _ => List.suffix_refl _
  | deliverSnapshot node name =>
    exact .of_eq rfl rfl (fun _ _ => List.suffix_refl _) (versions_delivered _ _ _)
  | createDataset name spec => exact .writeDatasets (Steady.create rfl _ _)
  | updateDataset o => exact .writeDatasets (Steady.update _ _)
  | deleteDataset name => exact .writeDatasets Steady.delete
  | createSnapshot name spec => exact .writeSnapshots (Steady.create rfl _ _)
  | updateSnapshot o => exact .writeSnapshots (Steady.update _ _)
  | deleteSnapshot name => exact .writeSnapshots Steady.delete
  | pool mem pools clock hclock =>
    exact .of_eq rfl rfl (fun _ _ => List.suffix_refl _) fun _ _ => List.suffix_refl _

end World

/-! ## The calls that stamp -/

/-- A status patch that writes another `provisionedAt` than the one it was computed from. -/
def AgentCall.stamps : AgentCall → Bool
  | .patchDatasetStatus _ read patched => read.provisionedAt ≠ patched.provisionedAt
  | .patchSnapshotStatus _ read patched => read.provisionedAt ≠ patched.provisionedAt
  | _ => false

/-- The calls that neither create nor stamp. -/
abbrev AgentCall.Frozen (e : AgentCall) : Prop := e.creates = false ∧ e.stamps = false

theorem AgentCall.stamps_of_not_patches {e : AgentCall} (he : e.patches = false) :
    e.stamps = false := by
  cases e <;> first | rfl | simp [AgentCall.patches] at he

theorem AgentCall.Plain.frozen {e : AgentCall} (he : e.Plain) : e.Frozen :=
  ⟨he.1, stamps_of_not_patches he.2⟩

theorem SteadyWorld.trans {s t u : CachedWorld} (h : SteadyWorld s t) (h' : SteadyWorld t u)
    (hworld : t.world = s.world) : SteadyWorld s u :=
  ⟨fun hs => h'.named (h.named hs), hworld ▸ h'.datasets, hworld ▸ h'.snapshots⟩

theorem answer_steady {e : AgentCall} (he : e.stamps = false) (node : String) (s : CachedWorld) :
    SteadyWorld s (CachedWorld.answer node e s).2 := by
  cases e with
  | updateDataset o => exact .writeDatasets (Steady.update _ _)
  | updateSnapshot o => exact .writeSnapshots (Steady.update _ _)
  | patchDatasetStatus name read patched =>
    have hsame : read.provisionedAt = patched.provisionedAt := by simpa [AgentCall.stamps] using he
    exact .writeDatasets
      (Steady.patchStatus fun cur => by simp [ZfsDatasetStatus.merge, mergeField, hsame])
  | patchSnapshotStatus name read patched =>
    have hsame : read.provisionedAt = patched.provisionedAt := by simpa [AgentCall.stamps] using he
    exact .writeSnapshots
      (Steady.patchStatus fun cur => by simp [ZfsSnapshotStatus.merge, mergeField, hsame])
  | _ => exact .of_eq rfl rfl (fun _ _ => List.suffix_refl _) fun _ _ => List.suffix_refl _

theorem note_steady (i : AgentWorker) (e : AgentCall) (s : CachedWorld) :
    SteadyWorld s (s.note i e) := .of_same rfl rfl rfl

theorem handle_steady {e : AgentCall} (he : e.stamps = false) (i : AgentWorker) (s : CachedWorld) :
    SteadyWorld s (CachedWorld.handle i e s).2 :=
  (note_steady i e s).trans (answer_steady he i.1 _) rfl

/-- An answer does not change what passes have read. -/
theorem answer_noted (node : String) (e : AgentCall) (s : CachedWorld) :
    (CachedWorld.answer node e s).2.blank = s.blank ∧
      (CachedWorld.answer node e s).2.provisioner = s.provisioner := by
  cases e <;> exact ⟨rfl, rfl⟩

section FrozenCalls

open ZfsDatasetReconciler ZfsSnapshotReconciler

/-- A status that is not the first Ready stamps nothing. -/
theorem setStatusAt_frozen {vol : ZfsDataset} {phase : DatasetPhase}
    (h : vol.status.provisionedAt ≠ none ∨ phase ≠ .ready) (volPath reason message : String)
    (creation : Option Nat) :
    (setStatusAt vol phase volPath reason message creation).run.Calls AgentCall.Frozen := by
  have hnot : ¬ (phase = .ready ∧ vol.status.provisionedAt = none) := by
    rintro ⟨hphase, hnone⟩
    rcases h with h | h
    · exact h hnone
    · exact h hphase
  unfold setStatusAt
  rw [if_neg hnot, Proc.run_bind, Proc.run_pure, Program.pure_bind]
  exact ask_calls ⟨rfl, by simp [AgentCall.stamps]⟩

theorem settle_frozen (r : ZfsDatasetReconciler) {vol : ZfsDataset}
    (h : vol.status.provisionedAt ≠ none)
    (pool : ZfsPool) (full : String) : (r.settle vol pool full).run.Calls AgentCall.Frozen := by
  refine Proc.bind_calls
    ((ensureVolumeLabels_plain _ _).mono fun _ => AgentCall.Plain.frozen) fun _ =>
    Proc.bind_calls
      (Proc.outcome_calls ((ensureSize_plain _ _).mono fun _ => AgentCall.Plain.frozen))
      fun sized => ?_
  cases sized with
  | error e => exact Proc.bind_calls (setStatusAt_frozen (.inl h) _ _ _ _) fun _ => by simp
  | ok =>
    simp only
    split
    · exact Proc.bind_calls (setStatusAt_frozen (.inl h) _ _ _ _) fun _ => by simp
    · refine Proc.bind_calls ?_ fun creation =>
        Proc.bind_calls (setStatusAt_frozen (.inl h) _ _ _ _) fun _ => by simp
      split_ifs
      · exact Proc.map_calls ((snapshotCreationTime_plain _).mono fun _ => AgentCall.Plain.frozen)
      · simp

theorem provision_frozen (r : ZfsDatasetReconciler) {vol : ZfsDataset}
    (h : vol.status.provisionedAt ≠ none) (pool : ZfsPool) (full : String) :
    (r.provision vol pool full).run.Calls AgentCall.Frozen := by
  have hprovisioned : datasetProvisioned vol = true := Option.isSome_iff_ne_none.mpr h
  unfold ZfsDatasetReconciler.provision
  rw [if_pos hprovisioned]
  split_ifs
  · exact Proc.bind_calls (setStatusAt_frozen (.inl h) _ _ _ _) fun _ => by simp
  · simp

theorem ensure_frozen (r : ZfsDatasetReconciler) {vol : ZfsDataset}
    (h : vol.status.provisionedAt ≠ none)
    (pool : ZfsPool) : (r.ensure vol pool).run.Calls AgentCall.Frozen := by
  unfold ZfsDatasetReconciler.ensure
  split
  · exact Proc.bind_calls (setStatusAt_frozen (.inl h) _ _ _ _) fun _ => by simp
  · refine outcome_bind_calls ⟨rfl, rfl⟩ fun found => ?_
    cases found with
    | ok => exact settle_frozen r h pool _
    | error e =>
      simp only
      split_ifs
      · exact provision_frozen r h pool _
      · exact Proc.bind_calls (setStatusAt_frozen (.inl h) _ _ _ _) fun _ => by simp

theorem reconcileDelete_frozen (vol : ZfsDataset) (pool : ZfsPool) :
    (ZfsDatasetReconciler.reconcileDelete vol pool).run.Calls AgentCall.Frozen := by
  refine Proc.bind_calls (liftExcept_calls _) fun full => Proc.bind_calls (Proc.outcome_calls
    ((beforeDestroy_plain _ _ _).mono fun _ => AgentCall.Plain.frozen)) fun done => ?_
  cases done with
  | error e =>
    exact Proc.bind_calls (Proc.outcome_calls (setStatusAt_frozen (.inr (by decide)) _ _ _ _))
      fun _ => by simp
  | ok =>
    refine Proc.bind_calls (ask_calls ⟨rfl, rfl⟩) fun _ => Proc.bind_calls ?_ fun _ => by simp
    exact releaseFinalizer_calls vol ⟨rfl, rfl⟩ fun _ => ⟨rfl, rfl⟩

theorem setSnapshotStatus_frozen {snap : ZfsSnapshot} {phase : SnapshotPhase}
    (h : snap.status.provisionedAt ≠ none ∨ phase ≠ .ready) (ready : Bool)
    (creation : Option SnapshotTime) (restore : Option Nat) (reason message : String) :
    (setSnapshotStatus snap phase ready creation restore reason message).run.Calls
      AgentCall.Frozen := by
  have hnot : ¬ (phase = .ready ∧ snap.status.provisionedAt = none) := by
    rintro ⟨hphase, hnone⟩
    rcases h with h | h
    · exact h hnone
    · exact h hphase
  unfold setSnapshotStatus
  rw [if_neg hnot, Proc.run_bind, Proc.run_pure, Program.pure_bind]
  exact ask_calls ⟨rfl, by simp [AgentCall.stamps]⟩

theorem reconcileSettled_frozen {snap : ZfsSnapshot} (h : snap.status.provisionedAt ≠ none)
    (pool : ZfsPool) (datasetPath : String) :
    (reconcileSettled snap pool datasetPath).run.Calls AgentCall.Frozen := by
  refine Proc.bind_calls
    ((locateRawSnapshot_plain _ _ _).mono fun _ => AgentCall.Plain.frozen) fun raw => ?_
  split_ifs
  · simp
  · exact Proc.bind_calls (setSnapshotStatus_frozen (.inl h) _ _ _ _ _) fun _ => by simp
  · simp
  · exact Proc.bind_calls (setSnapshotStatus_frozen (.inl h) _ _ _ _ _) fun _ => by simp

end FrozenCalls

/-! ## A pass and the others -/

instance {Spec Status : Type} (stamp : Status → Option Nat) (a : Store Spec Status)
    (name : String) :
    Decidable (Unstamped stamp a name) :=
  match h : a.lookup name with
  | none => isTrue fun o ho => by rw [h] at ho; cases ho
  | some o => decidable_of_iff (stamp o.status = none)
      ⟨fun hnone o' ho' => Option.some_inj.mp (h.symm.trans ho') ▸ hnone, fun hall => hall o h⟩

instance : ∀ (task : AgentTask) (s : CachedWorld), Decidable (task.Unprovisioned s)
  | .dataset name, s => inferInstanceAs (Decidable (Unstamped datasetStamp s.world.datasets name))
  | .snapshot name, s =>
    inferInstanceAs (Decidable (Unstamped snapshotStamp s.world.snapshots name))

/-- A pass with a blank copy finds that its node hosts the pool, when the object has been
provisioned since or another node is at it. -/
def Late (i : AgentWorker) (e : AgentCall) (s : CachedWorld) : Prop :=
  s.enters i e = true ∧ (¬ i.2.Unprovisioned s ∨ (s.provisioner i.2).any (· ≠ i.1) = true)

instance (i : AgentWorker) (e : AgentCall) (s : CachedWorld) : Decidable (Late i e s) :=
  inferInstanceAs (Decidable (_ ∧ _))

/-- No pass sets out to provision what is provisioned, or what another node is provisioning. -/
def Fresh (c : CachedConfig) (i : AgentWorker) (e : AgentCall) : Prop := ¬ Late i e c.shared

instance (c : CachedConfig) (i : AgentWorker) (e : AgentCall) : Decidable (Fresh c i e) :=
  inferInstanceAs (Decidable (¬ _))

theorem fresh_of_creates {e : AgentCall} (he : e.creates = true) (c : CachedConfig)
    (i : AgentWorker) :
    Fresh c i e := by
  rintro ⟨henters, _⟩
  cases e with
  | getPool name => cases he
  | _ => cases henters

/-- Answer a call, but not one that is too late. -/
def freshHandle (i : AgentWorker) (e : AgentCall) (s : CachedWorld) :
    e.Ret × CachedWorld :=
  if Late i e s then (.error (.other "outdated"), s) else CachedWorld.handle i e s

/-- The others leave alone what a pass has read, and an object that it provisions. -/
structure StampRely (i : AgentWorker) (s t : CachedWorld) : Prop where
  named : NamedWorld s → NamedWorld t
  blank : t.blank i = s.blank i
  provisioner : s.provisioner i.2 = some i.1 → t.provisioner i.2 = some i.1
  unprovisioned : s.provisioner i.2 = some i.1 → i.2.Unprovisioned s → i.2.Unprovisioned t

theorem StampRely.refl (i : AgentWorker) (s : CachedWorld) : StampRely i s s :=
  ⟨id, rfl, id, fun _ => id⟩

theorem StampRely.trans {i : AgentWorker} {s t u : CachedWorld} (h : StampRely i s t)
    (h' : StampRely i t u) : StampRely i s u :=
  ⟨h'.named ∘ h.named, h'.blank.trans h.blank, h'.provisioner ∘ h.provisioner,
    fun hs hu => h'.unprovisioned (h.provisioner hs) (h.unprovisioned hs hu)⟩

def stampRely (i : AgentWorker) (_ : AgentCall) (s t : CachedWorld) : Prop := StampRely i s t

/-- What a call of a pass guarantees. -/
structure StampGuar (i : AgentWorker) (e : AgentCall) (s t : CachedWorld) : Prop where
  named : NamedWorld s → NamedWorld t
  creates : e.creates = true → i.2.Unprovisioned s
  keeps : KeepsStamps s t
  /-- only the node that provisions an object stamps it -/
  others : ∀ other, other ≠ i.2 ∨ s.provisioner i.2 ≠ some i.1 →
    other.Unprovisioned s → other.Unprovisioned t
  blank : ∀ j, j ≠ i → t.blank j = s.blank j
  provisioner : ∀ j : AgentWorker, j ≠ i → s.provisioner j.2 = some j.1 →
    t.provisioner j.2 = some j.1

/-- A call of one worker is within what another relies on. -/
theorem StampGuar.rely {i j : AgentWorker} {e : AgentCall} {s t : CachedWorld}
    (h : StampGuar i e s t)
    (hj : j ≠ i) : StampRely j s t where
  named := h.named
  blank := h.blank j hj
  provisioner := h.provisioner j hj
  unprovisioned hprovisioner := by
    refine h.others j.2 ?_
    by_cases htask : j.2 = i.2
    · refine .inr fun hself => hj (Prod.ext ?_ htask)
      rw [htask, hself] at hprovisioner
      exact (Option.some_inj.mp hprovisioner).symm
    · exact .inl htask

abbrev stampWp {α : Type} (i : AgentWorker) (p : AgentProc α)
    (Q : Except Err α → CachedWorld → Prop) (s : CachedWorld) : Prop :=
  p.run.wp (freshHandle i) AgentCall.fails (stampRely i) (StampGuar i) Q s

section Wp

variable {i : AgentWorker} {s : CachedWorld} {α β : Type}

theorem freshHandle_eq {e : AgentCall} (h : ¬ Late i e s) :
    freshHandle i e s = CachedWorld.handle i e s := if_neg h

theorem freshHandle_steady {e : AgentCall} (he : e.stamps = false) (s : CachedWorld) :
    SteadyWorld s (freshHandle i e s).2 := by
  unfold freshHandle
  split_ifs
  · exact .of_same rfl rfl rfl
  · exact handle_steady he i s

theorem handle_blank {e : AgentCall} {j : AgentWorker} (hj : j ≠ i) :
    (CachedWorld.handle i e s).2.blank j = s.blank j := by
  rw [CachedWorld.handle, (answer_noted _ _ _).1]
  simp only [CachedWorld.note]
  split_ifs
  · exact Function.update_of_ne hj _ _
  · rfl

/-- A worker that takes over from nobody leaves the others provisioning. -/
theorem handle_provisioner {e : AgentCall} (he : ¬ Late i e s) {j : AgentWorker} (hj : j ≠ i)
    (hprovisioner : s.provisioner j.2 = some j.1) :
    (CachedWorld.handle i e s).2.provisioner j.2 = some j.1 := by
  rw [CachedWorld.handle, (answer_noted _ _ _).2]
  simp only [CachedWorld.note]
  split_ifs with henters
  · by_cases htask : j.2 = i.2
    · refine absurd ⟨henters, .inr ?_⟩ he
      rw [← htask, hprovisioner]
      exact decide_eq_true fun hnode => hj (Prod.ext hnode htask)
    · rwa [Function.update_of_ne htask]
  · exact hprovisioner

/-- A worker that provisions its object stays the one that does. -/
theorem handle_provisioner_self {e : AgentCall} (hprovisioner : s.provisioner i.2 = some i.1) :
    (CachedWorld.handle i e s).2.provisioner i.2 = some i.1 := by
  rw [CachedWorld.handle, (answer_noted _ _ _).2]
  simp only [CachedWorld.note]
  split_ifs
  · simp
  · exact hprovisioner

/-- A call that stamps nothing. -/
theorem steady_guar {e : AgentCall} (he : e.stamps = false)
    (hcreates : e.creates = true → i.2.Unprovisioned s) :
    StampGuar i e s (freshHandle i e s).2 := by
  have hsteady : SteadyWorld s (freshHandle i e s).2 := freshHandle_steady he s
  refine ⟨hsteady.named, hcreates, hsteady.keeps, fun _ _ => hsteady.unprovisioned, fun j hj => ?_,
    fun j hj hprovisioner => ?_⟩
  · unfold freshHandle
    split_ifs
    · rfl
    · exact handle_blank hj
  · unfold freshHandle
    split_ifs with hlate
    · exact hprovisioner
    · exact handle_provisioner hlate hj hprovisioner

/-- What neither creates nor stamps. -/
theorem frozen_wp {p : AgentProc α} (hp : p.run.Calls AgentCall.Frozen) (s : CachedWorld) :
    stampWp i p (fun _ _ => True) s := by
  refine hp.wp (fun _ _ _ _ _ _ => trivial) (fun e t he _ => ⟨?_, trivial⟩) trivial
  refine steady_guar he.2 fun hcreates => ?_
  rw [he.1] at hcreates
  cases hcreates

/-- What a pass knows from when it finds its node to host the pool until it stamps its object. -/
structure Open (i : AgentWorker) (s : CachedWorld) : Prop where
  named : NamedWorld s
  provisioner : s.provisioner i.2 = some i.1
  unprovisioned : i.2.Unprovisioned s

theorem Open.rely {t : CachedWorld} (hs : Open i s) (ht : StampRely i s t) : Open i t :=
  ⟨ht.named hs.named, ht.provisioner hs.provisioner,
    ht.unprovisioned hs.provisioner hs.unprovisioned⟩

/-- What stamps nothing leaves the object open. -/
theorem open_wp {p : AgentProc α} (hp : p.run.Calls fun e => e.patches = false) (hs : Open i s) :
    stampWp i p (fun _ t => Open i t) s := by
  refine hp.wp (fun _ _ _ _ hs ht => hs.rely ht) (fun e t he ht => ?_) hs
  have hstamps : e.stamps = false := AgentCall.stamps_of_not_patches he
  have hsteady : SteadyWorld t (freshHandle i e t).2 := freshHandle_steady hstamps t
  refine ⟨steady_guar hstamps fun _ => ht.unprovisioned, hsteady.named ht.named, ?_,
    hsteady.unprovisioned ht.unprovisioned⟩
  unfold freshHandle
  split_ifs
  · exact ht.provisioner
  · exact handle_provisioner_self ht.provisioner

theorem open_bind_wp {p : AgentProc α} {f : α → AgentProc β}
    (hp : p.run.Calls fun e => e.patches = false) (hs : Open i s)
    (hf : ∀ a t, Open i t → stampWp i (f a) (fun _ _ => True) t) :
    stampWp i (p >>= f) (fun _ _ => True) s := by
  refine Proc.wp_bind (wp_mono ?_ (open_wp hp hs))
  rintro (e | a) t ht
  · trivial
  · exact hf a t ht

theorem last_wp {p : AgentProc α} {f : α → AgentProc β} (hp : stampWp i p (fun _ _ => True) s)
    (hf : ∀ a, ∃ b, (f a).run = .pure (.ok b)) : stampWp i (p >>= f) (fun _ _ => True) s := by
  refine Proc.wp_bind (wp_mono ?_ hp)
  rintro (e | a) t _
  · trivial
  · obtain ⟨b, hb⟩ := hf a
    simp only [hb, wp]

/-- A pass with a blank copy that finds its node to host the pool may provision. -/
theorem findPool_wp (hs : NamedWorld s) (hblank : s.blank i = true) (guid : String) :
    stampWp i (findPool guid) (fun r t => ∀ found, r = .ok found →
      hostedHere i.1 found = true → Open i t) s := by
  refine Proc.outcome_ask_wp fun t ht => ⟨steady_guar rfl fun h => (by cases h), ?_, ?_⟩
  · by_cases hlate : Late i (.getPool (resourceName guid)) t
    · unfold freshHandle
      rw [if_pos hlate]
      rintro _ ⟨⟩
    · rw [freshHandle_eq hlate]
      simp only [CachedWorld.handle, CachedWorld.answer, CachedWorld.note_pools, Store.get]
      cases hpool : (t.pools i.1).lookup (resourceName guid) with
      | none =>
        rintro found ⟨⟩ hhosted
        cases hhosted
      | some pool =>
        rintro found ⟨⟩ hhosted
        have henters : t.enters i (.getPool (resourceName guid)) = true := by
          simp only [CachedWorld.enters, ht.blank, hblank, hpool, Bool.true_and]
          exact hhosted
        refine ⟨(note_steady i _ t).named (ht.named hs), t.note_provisioner i _ henters, ?_⟩
        · refine (note_steady i (.getPool (resourceName guid)) t).unprovisioned ?_
          by_contra hunprovisioned
          exact hlate ⟨henters, .inl hunprovisioned⟩
  · rintro _ ⟨msg, rfl⟩ _ ⟨⟩

end Wp

/-! ## A pass of a ZfsDataset -/

section Dataset

open ZfsDatasetReconciler

variable {node : String} {vol : ZfsDataset} {s : CachedWorld}

/-- The status patch of a pass that may stamp its object. -/
theorem patchDatasetStatus_guar
    (hs : Open (node, .dataset vol.name) s) (read patched : ZfsDatasetStatus) :
    StampGuar (node, .dataset vol.name) (.patchDatasetStatus vol.name read patched) s
      (CachedWorld.handle (node, .dataset vol.name)
        (.patchDatasetStatus vol.name read patched) s).2 where
  named h := NamedWorld.writeDatasets ((note_steady _ _ s).named h) (Named.patchStatus h.datasets)
  creates h := by cases h
  keeps := ⟨Keeps.patchStatus hs.unprovisioned, (Steady.refl _).keeps⟩
  others other hother hunstamped := by
    have hne : other ≠ .dataset vol.name := hother.resolve_right fun h => h hs.provisioner
    cases other with
    | dataset n => exact Unstamped.patchStatus_of_ne (fun hn => hne (hn ▸ rfl)) hunstamped
    | snapshot n => exact hunstamped
  blank _ := handle_blank
  provisioner _ := handle_provisioner fun h => by cases h.1

theorem setStatusAt_wp (hs : Open (node, .dataset vol.name) s) (phase : DatasetPhase)
    (volPath reason message : String) (creation : Option Nat) :
    stampWp (node, .dataset vol.name) (setStatusAt vol phase volPath reason message creation)
      (fun _ _ => True) s := by
  refine open_bind_wp ?_ hs fun provisionedAt t ht => ?_
  · split_ifs
    · exact Proc.map_calls (ask_calls rfl)
    · simp
  · intro u hu
    refine ⟨?_, trivial, fun _ _ => trivial⟩
    rw [freshHandle_eq (e := .patchDatasetStatus _ _ _) fun h => by cases h.1]
    exact patchDatasetStatus_guar (ht.rely hu) _ _

theorem setStatus_return_wp (hs : Open (node, .dataset vol.name) s) (phase : DatasetPhase)
    (volPath reason message : String) (creation : Option Nat) (result : Result) :
    stampWp (node, .dataset vol.name) (do
      setStatusAt vol phase volPath reason message creation
      return result) (fun _ _ => True) s :=
  last_wp (setStatusAt_wp hs phase volPath reason message creation) fun _ => ⟨_, rfl⟩

theorem settle_wp (r : ZfsDatasetReconciler)
    (hs : Open (node, .dataset vol.name) s) (pool : ZfsPool)
    (full : String) :
    stampWp (node, .dataset vol.name) (r.settle vol pool full) (fun _ _ => True) s := by
  refine open_bind_wp ((ensureVolumeLabels_plain _ _).mono fun _ h => h.2) hs fun _ t ht =>
    open_bind_wp (Proc.outcome_calls ((ensureSize_plain _ _).mono fun _ h => h.2)) ht
      fun sized t ht => ?_
  cases sized with
  | error e => exact setStatus_return_wp ht _ _ _ _ _ _
  | ok =>
    simp only
    split
    · exact setStatus_return_wp ht _ _ _ _ _ _
    · refine open_bind_wp ?_ ht fun creation t ht => setStatus_return_wp ht _ _ _ _ _ _
      split_ifs
      · exact Proc.map_calls ((snapshotCreationTime_plain _).mono fun _ h => h.2)
      · simp

theorem provision_wp (r : ZfsDatasetReconciler)
    (hs : Open (node, .dataset vol.name) s) (pool : ZfsPool)
    (full : String) :
    stampWp (node, .dataset vol.name) (r.provision vol pool full) (fun _ _ => True) s := by
  unfold ZfsDatasetReconciler.provision
  split_ifs
  · exact setStatus_return_wp hs _ _ _ _ _ _
  · trivial
  refine open_bind_wp (Proc.outcome_calls ((create_calls _ _ _).mono fun _ h => h.1)) hs
    fun created t ht => ?_
  cases created with
  | error e =>
    simp only
    split_ifs <;> exact setStatus_return_wp ht _ _ _ _ _ _
  | ok =>
    refine open_bind_wp
      (Proc.outcome_calls ((applyRootOwnership_plain _ _ _).mono fun _ h => h.2)) ht
      fun owned t ht => ?_
    cases owned with
    | error e => exact setStatus_return_wp ht _ _ _ _ _ _
    | ok => exact settle_wp r ht pool full

theorem ensure_wp (r : ZfsDatasetReconciler)
    (hs : Open (node, .dataset vol.name) s) (pool : ZfsPool) :
    stampWp (node, .dataset vol.name) (r.ensure vol pool) (fun _ _ => True) s := by
  unfold ZfsDatasetReconciler.ensure
  split
  · exact setStatus_return_wp hs _ _ _ _ _ _
  · refine open_bind_wp (Proc.outcome_calls (ask_calls rfl)) hs fun found t ht => ?_
    cases found with
    | ok => exact settle_wp r ht pool _
    | error e =>
      simp only
      split_ifs
      · exact provision_wp r ht pool _
      · exact setStatus_return_wp ht _ _ _ _ _ _

/-- A pass of a ZfsDataset keeps the guarantee. -/
theorem reconcileDataset_wp (r : ZfsDatasetReconciler) (name : String) (hs : NamedWorld s) :
    stampWp (r.nodeName, .dataset name) (r.reconcile name) (fun _ _ => True) s := by
  refine Proc.outcome_ask_wp fun t ht => ?_
  have hnamed := ht.named hs
  refine ⟨steady_guar rfl (fun h => by cases h), ?_, ?_⟩
  swap
  · rintro _ ⟨msg, rfl⟩
    trivial
  rw [freshHandle_eq (e := .getDataset _) fun h => by cases h.1]
  simp only [CachedWorld.handle, CachedWorld.answer, CachedWorld.copy, CachedWorld.note_datasets]
  cases hvol : (t.datasets r.nodeName).seen.lookup name with
  | none => trivial
  | some vol =>
    obtain rfl : vol.name = name :=
      hnamed.datasetCopies r.nodeName name vol (by simp [Informer.versions, hvol])
    by_cases hopen : vol.status.provisionedAt = none ∧ vol.metadata.terminating = false ∧
        vol.containsFinalizer zfsDatasetFinalizer = true
    · obtain ⟨hstamp, hactive, hfin⟩ := hopen
      have hblank : t.holdsBlank (r.nodeName, .dataset vol.name) = true := by
        simp [CachedWorld.holdsBlank, Blank, hvol, hstamp, hactive, hfin]
      refine Proc.wp_bind (wp_mono ?_ (findPool_wp ((note_steady _ _ t).named hnamed)
        (by rw [CachedWorld.note_blank _ _ _ (by simp [AgentTask.reads]), hblank]) _))
      rintro (e | found) t ht
      · trivial
      simp only [hactive, hfin, Bool.false_eq_true, if_false, if_true]
      cases found with
      | none => trivial
      | some pool =>
        simp only
        split_ifs with hhosted
        · exact ensure_wp r (ht _ rfl hhosted) pool
        · trivial
    · refine frozen_wp ?_ _
      refine Proc.bind_calls ((findPool_plain _).mono fun _ => AgentCall.Plain.frozen)
        fun found => ?_
      cases found with
      | none =>
        simp only
        split_ifs
        · exact Proc.bind_calls (releaseFinalizer_calls _ ⟨rfl, rfl⟩ fun _ => ⟨rfl, rfl⟩)
            fun _ => by simp
        · simp
        · simp
      | some pool =>
        simp only
        split_ifs with hdeleted hfin hhosted hhosted hfin
        · exact reconcileDelete_frozen vol pool
        · simp
        · simp
        · exact ensure_frozen r (fun hstamp => hopen ⟨hstamp, by simpa using hdeleted, hfin⟩) pool
        · exact Proc.bind_calls (ask_calls ⟨rfl, rfl⟩) fun _ => by simp
        · simp

end Dataset

/-! ## A pass of a ZfsSnapshot -/

section Snapshot

open ZfsSnapshotReconciler

variable {node : String} {snap : ZfsSnapshot} {s : CachedWorld}

theorem patchSnapshotStatus_guar
    (hs : Open (node, .snapshot snap.name) s) (read patched : ZfsSnapshotStatus) :
    StampGuar (node, .snapshot snap.name) (.patchSnapshotStatus snap.name read patched) s
      (CachedWorld.handle (node, .snapshot snap.name)
        (.patchSnapshotStatus snap.name read patched) s).2 where
  named h := NamedWorld.writeSnapshots ((note_steady _ _ s).named h) (Named.patchStatus h.snapshots)
  creates h := by cases h
  keeps := ⟨(Steady.refl _).keeps, Keeps.patchStatus hs.unprovisioned⟩
  others other hother hunstamped := by
    have hne : other ≠ .snapshot snap.name := hother.resolve_right fun h => h hs.provisioner
    cases other with
    | dataset n => exact hunstamped
    | snapshot n => exact Unstamped.patchStatus_of_ne (fun hn => hne (hn ▸ rfl)) hunstamped
  blank _ := handle_blank
  provisioner _ := handle_provisioner fun h => by cases h.1

theorem setSnapshotStatus_wp
    (hs : Open (node, .snapshot snap.name) s) (phase : SnapshotPhase) (ready : Bool)
    (creation : Option SnapshotTime) (restore : Option Nat) (reason message : String) :
    stampWp (node, .snapshot snap.name)
      (setSnapshotStatus snap phase ready creation restore reason message)
      (fun _ _ => True) s := by
  refine open_bind_wp ?_ hs fun provisionedAt t ht => ?_
  · split_ifs
    · exact Proc.map_calls (ask_calls rfl)
    · simp
  · intro u hu
    refine ⟨?_, trivial, fun _ _ => trivial⟩
    rw [freshHandle_eq (e := .patchSnapshotStatus _ _ _) fun h => by cases h.1]
    exact patchSnapshotStatus_guar (ht.rely hu) _ _

theorem setError_wp (hs : Open (node, .snapshot snap.name) s) (reason message : String) :
    stampWp (node, .snapshot snap.name) (setError snap reason message) (fun _ _ => True) s :=
  last_wp (setSnapshotStatus_wp hs _ _ _ _ _ _) fun _ => ⟨_, rfl⟩

theorem becomeReady_wp (r : ZfsSnapshotReconciler) (hs : Open (node, .snapshot snap.name) s)
    (rawFull backingFull : String) :
    stampWp (node, .snapshot snap.name) (r.becomeReady snap rawFull backingFull)
      (fun _ _ => True) s :=
  open_bind_wp ((ensureLabels_plain _ _ _).mono fun _ h => h.2) hs fun _ _ ht =>
    open_bind_wp ((snapshotCreationTime_plain _).mono fun _ h => h.2) ht fun _ _ ht =>
      open_bind_wp ((snapshotRestoreSize_plain _).mono fun _ h => h.2) ht fun _ _ ht =>
        last_wp (setSnapshotStatus_wp ht _ _ _ _ _ _) fun _ => ⟨_, rfl⟩

theorem reconcileBackingClone_wp (r : ZfsSnapshotReconciler)
    (hs : Open (node, .snapshot snap.name) s)
    (pool : ZfsPool) (datasetPath rawFull : String) :
    stampWp (node, .snapshot snap.name) (r.reconcileBackingClone snap pool datasetPath rawFull)
      (fun _ _ => True) s := by
  unfold reconcileBackingClone
  split
  · exact setError_wp hs _ _
  split
  · exact setError_wp hs _ _
  refine open_bind_wp (Proc.outcome_calls (ask_calls rfl)) hs fun found t ht => ?_
  cases found with
  | ok => exact becomeReady_wp r ht _ _
  | error e =>
    simp only
    split_ifs
    · refine open_bind_wp (Proc.outcome_calls (ask_calls rfl)) ht fun cloned t ht => ?_
      cases cloned with
      | error e => exact setError_wp ht _ _
      | ok => exact becomeReady_wp r ht _ _
    · exact setError_wp ht _ _

theorem pin_wp (r : ZfsSnapshotReconciler)
    (hs : Open (node, .snapshot snap.name) s) (pool : ZfsPool)
    (datasetPath full : String) :
    stampWp (node, .snapshot snap.name) (r.pin snap pool datasetPath full) (fun _ _ => True) s :=
  open_bind_wp ((ensureLabels_plain _ _ _).mono fun _ h => h.2) hs fun _ _ ht =>
    reconcileBackingClone_wp r ht pool datasetPath full

theorem takeRaw_wp (r : ZfsSnapshotReconciler)
    (hs : Open (node, .snapshot snap.name) s) (pool : ZfsPool)
    (datasetPath full : String) :
    stampWp (node, .snapshot snap.name) (r.takeRaw snap pool datasetPath full)
      (fun _ _ => True) s := by
  refine open_bind_wp ((resolveDatasetPath_plain _ _).mono fun _ h => h.2) hs fun direct t ht => ?_
  split_ifs
  · trivial
  · exact setError_wp ht _ _
  refine open_bind_wp (Proc.outcome_calls (ask_calls rfl)) ht fun taken t ht => ?_
  cases taken with
  | error e => exact setError_wp ht _ _
  | ok => exact pin_wp r ht pool datasetPath full

theorem provisionSnapshot_wp (r : ZfsSnapshotReconciler) (hs : Open (node, .snapshot snap.name) s)
    (pool : ZfsPool) (datasetPath : String) :
    stampWp (node, .snapshot snap.name) (r.provision snap pool datasetPath)
      (fun _ _ => True) s := by
  unfold ZfsSnapshotReconciler.provision
  split
  · exact setError_wp hs _ _
  refine open_bind_wp (Proc.outcome_calls (ask_calls rfl)) hs fun found t ht => ?_
  cases found with
  | ok => exact pin_wp r ht pool datasetPath _
  | error e =>
    simp only
    split_ifs
    · exact takeRaw_wp r ht pool datasetPath _
    · exact setError_wp ht _ _

/-- A pass of a ZfsSnapshot keeps the guarantee. -/
theorem reconcileSnapshot_wp (r : ZfsSnapshotReconciler) (name : String) (hs : NamedWorld s) :
    stampWp (r.nodeName, .snapshot name) (r.reconcile name) (fun _ _ => True) s := by
  refine Proc.outcome_ask_wp fun t ht => ?_
  have hnamed := ht.named hs
  refine ⟨steady_guar rfl (fun h => by cases h), ?_, ?_⟩
  swap
  · rintro _ ⟨msg, rfl⟩
    trivial
  rw [freshHandle_eq (e := .getSnapshot _) fun h => by cases h.1]
  simp only [CachedWorld.handle, CachedWorld.answer, CachedWorld.copy, CachedWorld.note_snapshots]
  cases hsnap : (t.snapshots r.nodeName).seen.lookup name with
  | none => trivial
  | some snap =>
    obtain rfl : snap.name = name :=
      hnamed.snapshotCopies r.nodeName name snap (by simp [Informer.versions, hsnap])
    by_cases hopen : snap.status.provisionedAt = none ∧ snap.metadata.terminating = false ∧
        snap.containsFinalizer zfsSnapshotFinalizer = true
    · obtain ⟨hstamp, hactive, hfin⟩ := hopen
      have hblank : t.holdsBlank (r.nodeName, .snapshot snap.name) = true := by
        simp [CachedWorld.holdsBlank, Blank, hsnap, hstamp, hactive, hfin]
      refine Proc.wp_bind (wp_mono ?_ (findPool_wp ((note_steady _ _ t).named hnamed)
        (by rw [CachedWorld.note_blank _ _ _ (by simp [AgentTask.reads]), hblank]) _))
      rintro (e | found) t ht
      · trivial
      simp only [hactive, hfin, Bool.false_eq_true, if_false, if_true]
      cases found with
      | none => trivial
      | some pool =>
        simp only
        split_ifs with hhosted
        · refine open_bind_wp ((resolveDatasetPath_plain _ _).mono fun _ h => h.2)
            (ht _ rfl hhosted)
            fun path t ht => ?_
          simp only [hstamp, Option.isSome_none, Bool.false_eq_true, if_false]
          exact provisionSnapshot_wp r ht pool path
        · trivial
    · refine frozen_wp ?_ _
      refine Proc.bind_calls ((findPool_plain _).mono fun _ => AgentCall.Plain.frozen)
        fun found => ?_
      cases found with
      | none =>
        simp only
        split_ifs
        · exact Proc.bind_calls (releaseSnapshotFinalizer_calls _ ⟨rfl, rfl⟩ fun _ => ⟨rfl, rfl⟩)
            fun _ => by simp
        · simp
        · simp
      | some pool =>
        simp only
        split_ifs with hdeleted hfin hhosted hhosted hfin
        · exact (ZfsSnapshotReconciler.reconcileDelete_plain snap pool).mono
            fun _ => AgentCall.Plain.frozen
        · simp
        · simp
        · have hstamp : snap.status.provisionedAt ≠ none :=
            fun hstamp => hopen ⟨hstamp, by simpa using hdeleted, hfin⟩
          refine Proc.bind_calls
            ((resolveDatasetPath_plain _ _).mono fun _ => AgentCall.Plain.frozen)
            fun path => ?_
          rw [if_pos (Option.isSome_iff_ne_none.mpr hstamp)]
          exact reconcileSettled_frozen hstamp pool path
        · exact Proc.bind_calls (ask_calls ⟨rfl, rfl⟩) fun _ => by simp
        · simp

end Snapshot

/-! ## Every run -/

theorem task_wp (i : AgentWorker) {s : CachedWorld} (hs : NamedWorld s) :
    (i.2.program i.1).wp (freshHandle i) AgentCall.fails (stampRely i) (StampGuar i)
      (fun _ _ => True) s := by
  obtain ⟨node, task⟩ := i
  cases task with
  | dataset name => exact reconcileDataset_wp ⟨node⟩ name hs
  | snapshot name => exact reconcileSnapshot_wp ⟨node⟩ name hs

theorem finish_steady (i : AgentWorker) (s : CachedWorld) : SteadyWorld s (s.finish i) :=
  .of_same rfl rfl rfl

/-- When one worker is done, the others that provision go on. -/
theorem finish_stampRely {i j : AgentWorker} (hj : j ≠ i) (s : CachedWorld) :
    StampRely j s (s.finish i) where
  named := (finish_steady i s).named
  blank := Function.update_of_ne hj _ _
  provisioner hprovisioner := by
    simp only [CachedWorld.finish]
    split_ifs with hself
    · have htask : j.2 ≠ i.2 := by
        intro htask
        rw [htask, hself] at hprovisioner
        exact hj (Prod.ext (Option.some_inj.mp hprovisioner).symm htask)
      rwa [Function.update_of_ne htask]
    · exact hprovisioner
  unprovisioned _ h := (finish_steady i s).unprovisioned h

theorem Outside.stampRely {s t : CachedWorld} (h : Outside s t) (i : AgentWorker) :
    StampRely i s t := by
  refine ⟨h.steady.named, ?_, ?_, fun _ => h.steady.unprovisioned⟩
  · cases h <;> rfl
  · cases h <;> exact id

/-- The rely-guarantee proof, of agents that are not answered when they are late. -/
def stampOutline : Outline { cachedAgents with handle := freshHandle } Fresh where
  inv := NamedWorld
  rely := stampRely
  guar := StampGuar
  post _ _ _ := True
  refl i _ s _ := StampRely.refl i s
  trans _ _ _ _ _ := StampRely.trans
  starts _ i _ hs _ _ := task_wp i hs
  call_inv _ _ _ _ hs _ _ _ hguar := hguar.named hs
  call_rely c i t e hs hi _ _ hguar j t' e' hj ht' _ := by
    obtain rfl : i = t := hi
    obtain rfl : j = t' := ht'
    exact hguar.rely hj
  finish_inv i _ s hs _ := (finish_steady i s).named hs
  finish_rely i t _ s _ hi _ j t' _ hj ht' := by
    obtain rfl : i = t := hi
    obtain rfl : j = t' := ht'
    exact finish_stampRely hj s
  env_inv _ _ hs h := h.steady.named hs
  env_rely _ _ _ h i _ := Outside.stampRely h i

/-- In every run of the agents of all nodes in which no pass sets out to provision an object that
has been provisioned, or that another node is provisioning, no step changes a `provisionedAt` that
is set, and no pass creates anything for an object that has one. -/
theorem provisionedAt_frozen (s₀ : CachedWorld) (h₀ : NamedWorld s₀) (c : CachedConfig)
    (hc : Reach cachedAgents Fresh s₀ c) :
    (∀ c', Step cachedAgents Fresh c c' → KeepsStamps c.shared c'.shared) ∧
      ∀ i e, c.Waits i i e → e.creates = true → i.2.Unprovisioned c.shared := by
  have hfresh : Reach { cachedAgents with handle := freshHandle } Fresh s₀ c := by
    refine hc.of_handle_eq freshHandle ?_
    rintro c i _ e rfl hfresh
    exact freshHandle_eq hfresh
  have hholds := Outline.holds_of_reach (O := stampOutline) h₀ hfresh
  have hguar : ∀ i t e k, c.running i = some (t, .call e k) → Fresh c i e →
      StampGuar t e c.shared (CachedWorld.handle t e c.shared).2 := by
    intro i t e k hrunning hallowed
    obtain rfl : i = t := hholds.takes i t _ hrunning
    have hguar := (hholds.safe i i _ hrunning c.shared (StampRely.refl i _)).1
    rw [show ({ cachedAgents with handle := freshHandle } : System _ _ _ _ _ _).handle
      i e c.shared =
      CachedWorld.handle i e c.shared from freshHandle_eq hallowed] at hguar
    exact hguar
  refine ⟨fun c' hstep => ?_, fun i e ⟨k, hrunning⟩ hcreates =>
    (hguar _ _ e k hrunning (fresh_of_creates hcreates c i)).creates hcreates⟩
  -- the end of a pass is no write
  have hadvance : ∀ (c : CachedConfig) i t p,
      KeepsStamps c.shared (cachedAgents.advance c i t p).shared := by
    intro c i t p
    cases p with
    | pure a => exact (finish_steady t c.shared).keeps
    | call e k => exact ⟨(Steady.refl _).keeps, (Steady.refl _).keeps⟩
  cases hstep with
  | start idle takes starts => exact hadvance _ _ _ _
  | @call i t e k waits allowed =>
    have hcall := (hguar i t e k waits allowed).keeps
    cases hk : k (cachedAgents.handle t e c.shared).1 with
    | pure a => exact ⟨hcall.datasets, hcall.snapshots⟩
    | call e' k' => exact hcall
  | fail waits fails => exact hadvance _ _ _ _
  | env change => exact (Outside.steady change).keeps

/-! ## Runs -/

def sampleVolume : ZfsDataset where
  metadata := { name := "pvc-1", finalizers := [zfsDatasetFinalizer] }
  spec := { poolGUID := "1", dataset := "pvc-1" }
  status := {}

/-- The pool, hosted by a node. -/
def hostedBy (node : String) : Store Unit ZfsPoolStatus :=
  Store.ofList [(resourceName "1", {
    metadata := { name := resourceName "1" }
    spec := ()
    status := { poolName := "tank", currentNode := node, baseMountPath := "/tank" } })]

/-- A ZfsDataset that has its finalizer, on an empty pool. -/
def sampleCached : CachedWorld where
  world := {
    datasets := Store.ofList [("pvc-1", sampleVolume)]
    snapshots := Store.empty
    pools := hostedBy "node-a"
    mem := Mem.new ["tank"]
    clock := 5 }
  datasets _ := .synced (FinMap.ofList [("pvc-1", sampleVolume)])
  snapshots _ := .synced FinMap.empty
  pools _ := hostedBy "node-a"

abbrev CachedMove := Move CachedWorld AgentWorker AgentWorker

/-- The worker of `pvc-1` at a node. -/
def volumeWorker (node : String) : AgentWorker := (node, .dataset "pvc-1")

/-- The next `n` calls of a pass of `pvc-1` at a node. -/
def callMoves (node : String) (n : Nat) : List CachedMove :=
  List.replicate n (.call (volumeWorker node))

/-- A pass of `pvc-1` at a node, of `n` calls. -/
def passMoves (node : String) (n : Nat) : List CachedMove :=
  .begin (volumeWorker node) (volumeWorker node) :: callMoves node n

/-- Two seconds pass. -/
def tick (s : CachedWorld) : CachedWorld :=
  { s with world := { s.world with clock := s.world.clock + 2 } }

theorem tick_outside (s : CachedWorld) : Outside s (tick s) :=
  .pool s _ _ _ (Nat.le_add_right _ _)

theorem callMoves_legal (node : String) (n : Nat) :
    ∀ m ∈ callMoves node n, m.Legal cachedAgents := by
  intro m hm
  obtain ⟨_, rfl⟩ := List.mem_replicate.mp hm
  trivial

theorem passMoves_legal (node : String) (n : Nat) :
    ∀ m ∈ passMoves node n, m.Legal cachedAgents := by
  intro m hm
  rcases List.mem_cons.mp hm with rfl | hm
  · exact ⟨rfl, fun _ => trivial⟩
  · exact callMoves_legal node n m hm

theorem namedWorld_sample : NamedWorld sampleCached := by
  have hlookup : ∀ name (o : ZfsDataset),
      (FinMap.ofList [("pvc-1", sampleVolume)]).lookup name = some o → o.name = name := by
    intro name o ho
    simp only [FinMap.ofList, FinMap.contains_eq, FinMap.lookup_empty, Option.isSome_none,
      Bool.false_eq_true, if_false, FinMap.lookup_insert] at ho
    split_ifs at ho with hname
    obtain rfl := Option.some_inj.mp ho
    exact hname.symm
  refine ⟨hlookup, fun name o ho => (by cases ho), fun _ name o ho => ?_, fun _ name o ho => ?_⟩
  · exact hlookup name o (List.mem_singleton.mp ho).symm
  · simp [sampleCached, Informer.versions, Informer.synced] at ho

/-- One pass at `node-a` has provisioned the dataset, while one at `node-b` has read it and the
pool. -/
def provisionedOnce : CachedConfig :=
  (passMoves "node-a" 5 ++ passMoves "node-b" 2 ++ callMoves "node-a" 6).foldl
    (cachedAgents.make Fresh) ⟨sampleCached, fun _ => none⟩

/-- From there on the stamp of `pvc-1` stays what the pass set it to. -/
theorem provisionedAt_frozen_once :
    (provisionedOnce.shared.world.datasets.lookup "pvc-1").map (·.status.provisionedAt) =
      some (some 5) ∧
      ∀ c', Step cachedAgents Fresh provisionedOnce c' →
        KeepsStamps provisionedOnce.shared c'.shared := by
  refine ⟨by decide +kernel, ?_⟩
  refine (provisionedAt_frozen sampleCached namedWorld_sample provisionedOnce ?_).1
  refine Reach.start.play _ fun m hm => ?_
  rcases List.mem_append.mp hm with hm | hm
  · rcases List.mem_append.mp hm with hm | hm
    · exact passMoves_legal "node-a" 5 m hm
    · exact passMoves_legal "node-b" 2 m hm
  · exact callMoves_legal "node-a" 6 m hm

/-- The copy of the first pass is read again by the second, which stamps the dataset anew. -/
theorem outdated_copy_restamps : ¬ ∀ s₀ : CachedWorld, NamedWorld s₀ →
    ∀ c, Reach cachedAgents (fun _ _ _ => True) s₀ c →
      (∀ c', Step cachedAgents (fun _ _ _ => True) c c' → KeepsStamps c.shared c'.shared) ∧
      ∀ i e, c.Waits i i e → e.creates = true → i.2.Unprovisioned c.shared := by
  intro hclaim
  let before : CachedConfig :=
    (passMoves "node-a" 11 ++ .change tick :: passMoves "node-a" 9).foldl
      (cachedAgents.make fun _ _ _ => True) ⟨sampleCached, fun _ => none⟩
  have hreach : Reach cachedAgents (fun _ _ _ => True) sampleCached before := by
    refine Reach.start.play _ fun m hm => ?_
    rcases List.mem_append.mp hm with hm | hm
    · exact passMoves_legal "node-a" 11 m hm
    rcases List.mem_cons.mp hm with rfl | hm
    · exact tick_outside
    · exact passMoves_legal "node-a" 9 m hm
  obtain ⟨hkeeps, _⟩ := hclaim sampleCached namedWorld_sample before hreach
  let last : CachedMove := .call (volumeWorker "node-a")
  have hlast : KeepsStamps before.shared
      (cachedAgents.make (fun _ _ _ => True) before last).shared := by
    obtain heq | hstep : cachedAgents.make (fun _ _ _ => True) before last = before ∨
        Step cachedAgents (fun _ _ _ => True) before
          (cachedAgents.make (fun _ _ _ => True) before last) :=
      System.make_eq_or_step trivial
    · rw [heq]
      exact ⟨(Steady.refl _).keeps, (Steady.refl _).keeps⟩
    · exact hkeeps _ hstep
  have hbefore : (before.shared.world.datasets.lookup "pvc-1").map (·.status.provisionedAt) =
      some (some 5) := by decide +kernel
  have hafter : ((cachedAgents.make (fun _ _ _ => True) before last).shared.world.datasets.lookup
      "pvc-1").map (·.status.provisionedAt) = some (some 7) := by decide +kernel
  obtain ⟨o, ho, hstamp⟩ := Option.map_eq_some_iff.mp hbefore
  obtain ⟨o', ho', hstamp'⟩ := Option.map_eq_some_iff.mp hafter
  have := hlast.datasets "pvc-1" o o' ho ho' 5 hstamp
  rw [show datasetStamp o'.status = some 7 from hstamp'] at this
  cases this

end SimpleZfsCsi.Agent
