import SimpleZfsCsi.Agent.Passes

/-!
# Who owns the root of a file system when it becomes Ready

The owner and mode a ZfsDataset asks for are set in the pass that creates its dataset, and
in no other: a pass that finds the dataset goes on to set it Ready. So they are in place by
then as long as no pass of a ZfsDataset that is not provisioned begins where an earlier one
stopped between the creation and the ownership call.
-/

namespace SimpleZfsCsi.Agent.RootOwner

open Library Api Memzfs Program

/-- The ZfsDataset is a file system with an owner or a mode. -/
def AsksOwner (vol : ZfsDataset) : Prop :=
  vol.spec.type = .filesystem ∧
    ∃ fs ∈ vol.spec.filesystem, ¬ (fs.uid = none ∧ fs.gid = none ∧ fs.mode = "")

instance (vol : ZfsDataset) : Decidable (AsksOwner vol) := inferInstanceAs (Decidable (_ ∧ _))

/-- The dataset a call creates. -/
def creation : AgentCall → Option String
  | .createDataset name _ | .createZvol name _ _ | .clone _ name _ => some name
  | _ => none

/-- The call creates its dataset. -/
def makes (e : AgentCall) (before after : World) : Bool :=
  (creation e).any fun n => (before.mem.ds.lookup n).isNone && (after.mem.ds.lookup n).isSome

/-- The ZfsDatasets, by their uids, for which an ownership call is due: the agent created the
dataset, and none has succeeded since. Nothing is due for one that asks for no owner. -/
abbrev Due := List Nat

def recordDue (vol : Option ZfsDataset) (e : AgentCall) (before after : World) (due : Due) : Due :=
  match vol with
  | none => due
  | some vol =>
    if AsksOwner vol then
      match e with
      | .applyOwnership _ _ _ _ => due.filter (· ≠ vol.metadata.uid)
      | e => if makes e before after then vol.metadata.uid :: due else due
    else due.filter (· ≠ vol.metadata.uid)

/-- A pass of a ZfsDataset, and the ZfsDataset it is about. -/
structure DatasetTurn where
  name : String
  vol : Option ZfsDataset

/-- The passes of ZfsDatasets. Between two of them anything may happen but to the status of a
ZfsDataset. -/
def datasetPasses (nodeName : String) :
    Serial (Tracked Due) DatasetTurn AgentCall AgentCall.Ret (Except Err Result) where
  handle t := Tracked.handle (recordDue t.vol)
  fails := AgentCall.fails
  program t := (ZfsDatasetReconciler.reconcile ⟨nodeName⟩ t.name).run
  starts t s := t.vol = s.world.datasets.lookup t.name
  change s s' :=
    (Request s.world s'.world ∨ s'.world.datasets = s.world.datasets) ∧ s'.ghost = s.ghost

/-- A ZfsDataset that asks for an owner is set Ready only when no ownership call is due for it, and
no ownership call is made for a provisioned one. -/
def OwnerRule (t : DatasetTurn) (e : AgentCall) (s : Tracked Due) : Prop :=
  match e with
  | .patchDatasetStatus name _ patched => patched.phase = some .ready →
      ∀ vol ∈ s.world.datasets.lookup name, AsksOwner vol → vol.metadata.uid ∉ s.ghost
  | .applyOwnership _ _ _ _ => ∀ vol ∈ s.world.datasets.lookup t.name,
      vol.status.provisionedAt = none
  | _ => True

instance {t : DatasetTurn} {e : AgentCall} {s : Tracked Due} : Decidable (OwnerRule t e s) := by
  unfold OwnerRule
  split <;> infer_instance

/-- The pass does not begin where another one stopped between the creation of the dataset and the
ownership call. -/
def NotBetween (nodeName : String) (t : DatasetTurn) (s : Tracked Due) : Prop :=
  ∀ vol ∈ t.vol, vol.status.provisionedAt = none → AsksOwner vol →
    ∀ full ∈ datasetPath nodeName s.world vol, (s.world.mem.get full "type").isOk →
      vol.metadata.uid ∉ s.ghost

instance {nodeName : String} {t : DatasetTurn} {s : Tracked Due} :
    Decidable (NotBetween nodeName t s) := inferInstanceAs (Decidable (∀ vol ∈ t.vol, _))

/-! ## What is kept -/

/-- Nothing is due for what has been provisioned. -/
structure Owned (s : Tracked Due) : Prop where
  distinct : s.world.datasets.Distinct
  settled : ∀ n o, s.world.datasets.lookup n = some o → o.status.provisionedAt.isSome →
    o.metadata.uid ∉ s.ghost

def OwnerGuar (t : DatasetTurn) (e : AgentCall) (s s' : Tracked Due) : Prop :=
  (Owned s → Owned s') ∧ OwnerRule t e s

/-- From `s` to `s'` the ZfsDatasets stayed as they were, and nothing more became due. -/
structure Calm (s s' : Tracked Due) : Prop where
  datasets : s'.world.datasets = s.world.datasets
  due : s'.ghost ⊆ s.ghost

section Kept

variable {t : DatasetTurn} {e : AgentCall} {s s' s'' : Tracked Due} {name : String}
    {o cur : ZfsDataset}

theorem Calm.refl (s : Tracked Due) : Calm s s := ⟨rfl, List.Subset.refl _⟩

theorem Calm.trans (h : Calm s s') (h' : Calm s' s'') : Calm s s'' :=
  ⟨h'.datasets.trans h.datasets, List.Subset.trans h'.due h.due⟩

theorem Owned.calm (h : Owned s) (hs : Calm s s') : Owned s' where
  distinct := hs.datasets ▸ h.distinct
  settled n o ho hsome hdue := h.settled n o (hs.datasets ▸ ho) hsome (hs.due hdue)

/-- An object is written over one with its name and uid. -/
theorem Owned.put (h : Owned s) (hcur : s.world.datasets.lookup name = some cur)
    (hname : o.name = name)
    (huid : o.metadata.uid = cur.metadata.uid)
    (ho : o.status.provisionedAt.isSome → o.metadata.uid ∉ s'.ghost)
    (hdatasets : s'.world.datasets = s.world.datasets.put name o) (hdue : s'.ghost ⊆ s.ghost) :
    Owned s' := by
  refine ⟨hdatasets ▸ h.distinct.put hcur hname huid, fun n x hx => ?_⟩
  rw [hdatasets] at hx
  obtain ⟨_, hx⟩ | ⟨rfl, rfl⟩ := Store.lookup_put hx
  · exact fun hsome hx' => h.settled n x hx hsome (hdue hx')
  · exact ho

/-- A write that keeps the status of the object it is over. -/
theorem Owned.put_status (h : Owned s) (hcur : s.world.datasets.lookup name = some cur)
    (hname : o.name = cur.name) (huid : o.metadata.uid = cur.metadata.uid)
    (hstatus : o.status = cur.status)
    (hdatasets : s'.world.datasets = s.world.datasets.put name o) (hdue : s'.ghost ⊆ s.ghost) :
    Owned s' := by
  refine h.put hcur (hname.trans (h.distinct name cur hcur).1) huid ?_ hdatasets hdue
  rw [hstatus, huid]
  exact fun hsome hx => h.settled name cur hcur hsome (hdue hx)

theorem Owned.update (h : Owned s) (o : ZfsDataset)
    (hdatasets : s'.world.datasets = (s.world.datasets.update o).2) (hdue : s'.ghost ⊆ s.ghost) :
    Owned s' := by
  obtain ⟨e, hupdate⟩ | ⟨cur, hcur, _, hupdate⟩ := s.world.datasets.update_cases o
  · rw [hupdate] at hdatasets
    exact h.calm ⟨hdatasets, hdue⟩
  · rw [hupdate] at hdatasets
    refine h.put_status hcur ?_ ?_ ?_ hdatasets hdue <;> rfl

theorem Owned.change {nodeName : String} (h : Owned s) (hs : (datasetPasses nodeName).change s s') :
    Owned s' := by
  obtain ⟨hrequest | hdatasets, hghost⟩ := hs
  swap
  · exact h.calm ⟨hdatasets, by rw [hghost]; exact List.Subset.refl _⟩
  have hdue : s'.ghost ⊆ s.ghost := by
    rw [hghost]
    exact List.Subset.refl _
  generalize hw : s'.world = w' at hrequest
  cases hrequest with
  | createDataset name spec =>
    have hdatasets : s'.world.datasets =
        (s.world.datasets.create s.world.clock name spec {}).2 := by rw [hw]
    refine ⟨hdatasets ▸ h.distinct.create _ _ _ _, fun n x hx => ?_⟩
    rw [hdatasets] at hx
    rw [hghost]
    unfold Store.create at hx
    split_ifs at hx
    · exact h.settled n x hx
    · obtain ⟨_, hx⟩ | ⟨rfl, rfl⟩ := Store.lookup_put hx
      · exact h.settled n x hx
      · exact nofun
  | updateDataset o => exact h.update o (by rw [hw]) hdue
  | deleteDataset name =>
    have hdatasets : s'.world.datasets = (s.world.datasets.delete name).2 := by rw [hw]
    unfold Store.delete at hdatasets
    split at hdatasets
    · exact h.calm ⟨hdatasets, hdue⟩
    · rename_i cur hcur
      split_ifs at hdatasets
      · exact h.calm ⟨hdatasets, hdue⟩
      · refine h.put_status hcur ?_ ?_ ?_ hdatasets hdue <;> rfl
  | createSnapshot name spec => exact h.calm ⟨by rw [hw], hdue⟩
  | updateSnapshot o => exact h.calm ⟨by rw [hw], hdue⟩
  | deleteSnapshot name => exact h.calm ⟨by rw [hw], hdue⟩
  | pools pools clock hclock => exact h.calm ⟨by rw [hw], hdue⟩

/-- A call that creates nothing makes nothing due. -/
theorem due_handle (he : e.creates = false) (s : Tracked Due) :
    (Tracked.handle (recordDue t.vol) e s).2.ghost ⊆ s.ghost := by
  have hmakes : ∀ before after, makes e before after = false := by
    intro before after
    cases e <;> first | rfl | cases he
  have hrecord : ∀ before after, recordDue t.vol e before after s.ghost ⊆ s.ghost := by
    intro before after
    unfold recordDue
    split
    · exact List.Subset.refl _
    · split_ifs
      · split
        · exact List.filter_subset_self _
        · simp [hmakes]
      · exact List.filter_subset_self _
  simp only [Tracked.handle]
  split_ifs
  · exact List.Subset.refl _
  · exact hrecord _ _

/-- A call that tends to other things. -/
theorem tends_handle (he : e.Tends) (s : Tracked Due) :
    OwnerGuar t e s (Tracked.handle (recordDue t.vol) e s).2 ∧
      Calm s (Tracked.handle (recordDue t.vol) e s).2 := by
  obtain ⟨⟨hcreates, hpatches⟩, haside⟩ := he
  have hcalm : Calm s (Tracked.handle (recordDue t.vol) e s).2 := by
    refine ⟨?_, due_handle hcreates s⟩
    cases e <;> first | rfl | contradiction
  refine ⟨⟨fun h => h.calm hcalm, ?_⟩, hcalm⟩
  cases e <;> trivial

/-- An update of a ZfsDataset. -/
theorem update_guar (o : ZfsDataset) (s : Tracked Due) :
    OwnerGuar t (.updateDataset o) s (Tracked.handle (recordDue t.vol) (.updateDataset o) s).2 :=
  ⟨fun h => h.update o rfl (due_handle rfl s), trivial⟩

end Kept

/-! ## The pass of a ZfsDataset -/

section Pass

variable {nodeName : String} {t : DatasetTurn} {s s' : Tracked Due} {vol : ZfsDataset} {α β : Type}

abbrev ownerWp (t : DatasetTurn) (p : AgentProc α) (Q : Except Err α → Tracked Due → Prop)
    (s : Tracked Due) : Prop :=
  passWp (recordDue t.vol) AgentCall.fails (OwnerGuar t) p Q s

/-- The ZfsDataset is as it was read at the beginning of the pass. -/
structure Held (t : DatasetTurn) (vol : ZfsDataset) (s : Tracked Due) : Prop where
  owned : Owned s
  read : t.vol = some vol
  cur : s.world.datasets.lookup t.name = some vol

/-- No ownership call is due for the ZfsDataset. -/
def Clear (vol : ZfsDataset) (s : Tracked Due) : Prop := AsksOwner vol → vol.metadata.uid ∉ s.ghost

theorem ownerGuar_reads (e : AgentCall) (s : Tracked Due) (he : e.Reads) : OwnerGuar t e s s := by
  have := (tends_handle (t := t) he.tends s).1
  rwa [Tracked.handle_reads he] at this

theorem Held.calm (h : Held t vol s) (hs : Calm s s') : Held t vol s' :=
  ⟨h.owned.calm hs, h.read, hs.datasets ▸ h.cur⟩

theorem Clear.calm (h : Clear vol s) (hs : Calm s s') : Clear vol s' :=
  fun hasks hdue => h hasks (hs.due hdue)

theorem Held.name (h : Held t vol s) : vol.name = t.name := (h.owned.distinct _ _ h.cur).1

/-- Calls that tend to other things come before the rest. -/
theorem tends_pass {p : AgentProc α} {f : α → AgentProc β} {Q : Except Err β → Tracked Due → Prop}
    (hp : p.run.Calls AgentCall.Tends) (hf : ∀ a s', Calm s s' → ownerWp t (f a) Q s')
    (herror : ∀ e s', Q (.error e) s') : ownerWp t (p >>= f) Q s := by
  have hcall : ∀ e s', e.Tends → Calm s s' →
      OwnerGuar t e s' (Tracked.handle (recordDue t.vol) e s').2 ∧
        Calm s (Tracked.handle (recordDue t.vol) e s').2 := by
    intro e s' he hs'
    obtain ⟨hguar, hcalm⟩ := tends_handle (t := t) he s'
    exact ⟨hguar, hs'.trans hcalm⟩
  exact calls_pass hp hcall (.refl s) (fun a s' h => hf a s' h) fun e s' _ => herror e s'

/-- A status is written; Ready only when the owner is set. -/
theorem setStatusAt_wp {phase : DatasetPhase} {volPath reason message : String}
    {creation : Option Nat}
    (h : Held t vol s) (hready : phase = .ready → Clear vol s) :
    ownerWp t (ZfsDatasetReconciler.setStatusAt vol phase volPath reason message creation)
      (fun _ _ => True) s := by
  have hname := h.name
  have hpatch : ∀ patched : ZfsDatasetStatus, patched.phase = some phase →
      (patched.provisionedAt.isSome → Clear vol s) →
      OwnerGuar t (.patchDatasetStatus vol.name vol.status patched) s
        (Tracked.handle (recordDue t.vol)
          (.patchDatasetStatus vol.name vol.status patched) s).2 := by
    intro patched hphase hclear
    rw [hname]
    refine ⟨fun howned => ?_, ?_⟩
    · have hmerge : (ZfsDatasetStatus.merge vol.status patched vol.status).provisionedAt =
          patched.provisionedAt := by
        simp only [ZfsDatasetStatus.merge, mergeField]
        split_ifs with heq
        · exact heq
        · rfl
      refine howned.put h.cur (o := { vol with
        status := ZfsDatasetStatus.merge vol.status patched vol.status }) hname rfl ?_ ?_
          (due_handle rfl s)
      · rw [hmerge]
        intro hsome
        by_cases hasks : AsksOwner vol
        · exact fun hdue => hclear hsome hasks (due_handle rfl s hdue)
        · rw [h.read]
          simp [Tracked.handle, AgentCall.reads, recordDue, hasks]
      · simp [World.handle, Store.patchStatus, h.cur]
    · intro hp o ho
      rw [h.cur] at ho
      cases ho
      exact hready (by rw [hphase] at hp; simpa using hp)
  have hlast : ∀ patched : ZfsDatasetStatus, patched.phase = some phase →
      (patched.provisionedAt.isSome → Clear vol s) →
      ownerWp t (ask (.patchDatasetStatus vol.name vol.status patched)) (fun _ _ => True) s :=
    fun patched hphase hclear =>
      last_pass (fun _ _ => id) (hpatch patched hphase hclear) trivial fun _ _ => trivial
  have hprovisioned : vol.status.provisionedAt.isSome → Clear vol s :=
    fun hsome _ => h.owned.settled _ _ h.cur hsome
  refine stamp_pass (fun _ _ => id) ownerGuar_reads (fun hc now => ?_) (fun hc => ?_)
    fun _ _ => trivial
  · exact hlast _ rfl fun _ => hready hc.1
  · exact hlast _ rfl hprovisioned

theorem setStatus_wp {phase : DatasetPhase} {volPath reason message : String}
    {creation : Option Nat}
    {result : Result} (h : Held t vol s) (hready : phase = .ready → Clear vol s) :
    ownerWp t (do
      ZfsDatasetReconciler.setStatusAt vol phase volPath reason message creation
      return result) (fun _ _ => True) s := by
  refine Proc.wp_bind (wp_mono ?_ (setStatusAt_wp h hready))
  rintro (e | ⟨⟩) s' _ <;> trivial

theorem settle_wp (r : ZfsDatasetReconciler) (pool : ZfsPool) (full : String) (h : Held t vol s)
    (hclear : Clear vol s) : ownerWp t (r.settle vol pool full) (fun _ _ => True) s := by
  refine tends_pass (ZfsDatasetReconciler.ensureVolumeLabels_tends _ _) (fun _ s₁ h₁ => ?_)
    fun _ _ => trivial
  refine tends_pass (Proc.outcome_calls (ZfsDatasetReconciler.ensureSize_tends _ _))
    (fun sized s₂ h₂ => ?_) fun _ _ => trivial
  have hcalm := h₁.trans h₂
  cases sized with
  | error e => exact setStatus_wp (h.calm hcalm) nofun
  | ok =>
    simp only
    split
    · exact setStatus_wp (h.calm hcalm) nofun
    · refine tends_pass ?_ (fun _ s₃ h₃ => ?_) fun _ _ => trivial
      · split_ifs
        · exact Proc.map_calls ((snapshotCreationTime_reads _).mono fun _ => AgentCall.Reads.tends)
        · simp
      · exact setStatus_wp (h.calm (hcalm.trans h₃)) fun _ => hclear.calm (hcalm.trans h₃)

/-- What creating the dataset leaves: the ZfsDataset as it was, and perhaps a dataset. -/
theorem create_pass {poolName full : String} {f : Except Err Unit → AgentProc β} (h : Held t vol s)
    (hnew : vol.status.provisionedAt = none)
    (hf : ∀ r s', Held t vol s' → ownerWp t (f r) (fun _ _ => True) s') :
    ownerWp t ((ZfsDatasetReconciler.create vol poolName full).outcome >>= f)
      (fun _ _ => True) s := by
  have hcall : ∀ e s', e.patches = false ∧ e.aside = true → Held t vol s' →
      OwnerGuar t e s' (Tracked.handle (recordDue t.vol) e s').2 ∧
        Held t vol (Tracked.handle (recordDue t.vol) e s').2 := by
    rintro e s' ⟨hpatches, haside⟩ hs'
    have hdatasets : (Tracked.handle (recordDue t.vol) e s').2.world.datasets =
        s'.world.datasets := by
      cases e <;> first | rfl | contradiction
    have hdue : (Tracked.handle (recordDue t.vol) e s').2.ghost ⊆ vol.metadata.uid :: s'.ghost := by
      rw [hs'.read]
      simp only [Tracked.handle, recordDue]
      split_ifs
      · exact List.subset_cons_self _ _
      · split
        · exact List.subset_cons_of_subset _ (List.filter_subset_self _)
        · split_ifs
          · exact List.Subset.refl _
          · exact List.subset_cons_self _ _
      · exact List.subset_cons_of_subset _ (List.filter_subset_self _)
    have howned : Owned (Tracked.handle (recordDue t.vol) e s').2 := by
      refine ⟨hdatasets ▸ hs'.owned.distinct, fun n o ho hsome hmem => ?_⟩
      rw [hdatasets] at ho
      rcases List.mem_cons.mp (hdue hmem) with huid | hmem
      · -- only the ZfsDataset itself has this uid, and it is not provisioned
        obtain rfl : n = t.name := (hs'.owned.distinct _ _ hs'.cur).2.2 n o ho huid
        rw [hs'.cur] at ho
        cases ho
        rw [hnew] at hsome
        cases hsome
      · exact hs'.owned.settled n o ho hsome hmem
    refine ⟨⟨fun _ => howned, ?_⟩, howned, hs'.read, hdatasets ▸ hs'.cur⟩
    cases e <;> trivial
  exact calls_pass (Proc.outcome_calls (ZfsDatasetReconciler.create_calls _ _ _)) hcall h hf fun _
    _ _ => trivial

/-- When the owner has been seen to, no ownership call is due any more. -/
theorem applyRootOwnership_wp {baseMountPath poolName : String} (h : Held t vol s)
    (hnew : vol.status.provisionedAt = none) :
    ownerWp t (ZfsDatasetReconciler.applyRootOwnership vol baseMountPath poolName)
      (fun r s' => Held t vol s' ∧ (r = .ok () → Clear vol s')) s := by
  unfold ZfsDatasetReconciler.applyRootOwnership
  split
  · rename_i fs htype hfs
    split_ifs with hnone
    · refine ⟨h, fun _ => ?_⟩
      rintro ⟨_, fs', hfs', hasks⟩
      rw [hfs] at hfs'
      cases hfs'
      exact absurd hnone hasks
    · refine liftExcept_pass (fun mountpoint _ => ?_) fun _ _ => ⟨h, nofun⟩
      have hcalm : Calm s (Tracked.handle (recordDue t.vol)
          (.applyOwnership mountpoint fs.uid fs.gid fs.mode) s).2 := ⟨rfl, due_handle rfl s⟩
      refine last_pass (fun _ _ => id) ⟨fun howned => howned.calm hcalm, ?_⟩
        ⟨h.calm hcalm, fun _ hasks => ?_⟩
        fun _ _ => ⟨h, nofun⟩
      · intro o ho
        rw [h.cur] at ho
        cases ho
        exact hnew
      · rw [h.read]
        simp [Tracked.handle, AgentCall.reads, recordDue, hasks]
  · refine ⟨h, fun _ => ?_⟩
    rintro ⟨htype, fs, hfs, _⟩
    simp_all

theorem provision_wp (r : ZfsDatasetReconciler) (pool : ZfsPool) (full : String)
    (h : Held t vol s) :
    ownerWp t (r.provision vol pool full) (fun _ _ => True) s := by
  unfold ZfsDatasetReconciler.provision
  split_ifs with hprovisioned hlost
  · exact setStatus_wp h nofun
  · trivial
  · have hnew : vol.status.provisionedAt = none := by simpa [datasetProvisioned] using hprovisioned
    refine create_pass h hnew fun created s₁ h₁ => ?_
    cases created with
    | error e =>
      simp only
      split_ifs <;> exact setStatus_wp h₁ nofun
    | ok =>
      refine Proc.wp_outcome_bind (wp_mono ?_ (applyRootOwnership_wp h₁ hnew))
      rintro (e | ⟨⟩) s₂ ⟨h₂, hclear⟩
      · exact setStatus_wp h₂ nofun
      · exact settle_wp r pool full h₂ (hclear rfl)

/-- The dataset of an object that is not being deleted. -/
theorem ensure_wp (r : ZfsDatasetReconciler) (pool : ZfsPool) (h : Held t vol s)
    (hclear : vol.status.provisionedAt = none → ∀ full,
      datasetName pool.status.poolName vol.spec.dataset = .ok full →
      (s.world.mem.get full "type").isOk → Clear vol s) :
    ownerWp t (r.ensure vol pool) (fun _ _ => True) s := by
  unfold ZfsDatasetReconciler.ensure
  cases hfull : datasetName pool.status.poolName vol.spec.dataset with
  | error e => exact setStatus_wp h nofun
  | ok full =>
    refine read_pass (fun _ _ => id) ownerGuar_reads rfl ?_ fun msg _ => setStatus_wp h nofun
    cases hget : (World.handle (.get full "type") s.world).1 with
    | ok type =>
      refine settle_wp r pool full h fun hasks => ?_
      cases hprovisioned : vol.status.provisionedAt with
      | some at_ => exact h.owned.settled _ _ h.cur (by simp [hprovisioned])
      | none =>
        have hfound : s.world.mem.get full "type" = .ok type := hget
        exact hclear hprovisioned full hfull (by rw [hfound]; rfl) hasks
    | error e =>
      simp only
      split_ifs
      · exact provision_wp r pool full h
      · exact setStatus_wp h nofun

theorem releaseFinalizer_wp (vol : ZfsDataset) {s : Tracked Due} :
    ownerWp t (do
      ZfsDatasetReconciler.releaseFinalizer vol
      return ({} : Result)) (fun _ _ => True) s := by
  have hcall : ∀ (e : AgentCall) (s : Tracked Due), (e.Reads ∨ ∃ o, e = .updateDataset o) → True →
      OwnerGuar t e s (Tracked.handle (recordDue t.vol) e s).2 ∧ True := by
    rintro e s (he | ⟨o, rfl⟩) _
    · exact ⟨(tends_handle he.tends s).1, trivial⟩
    · exact ⟨update_guar o s, trivial⟩
  exact calls_pass (releaseFinalizer_calls vol (.inl rfl) fun o => .inr ⟨o, rfl⟩) hcall trivial
    (fun _ _ _ => trivial) fun _ _ _ => trivial

theorem reconcileDelete_wp (pool : ZfsPool) (h : Held t vol s) :
    ownerWp t (ZfsDatasetReconciler.reconcileDelete vol pool) (fun _ _ => True) s := by
  refine tends_pass (liftExcept_calls _) (fun full s₁ h₁ => ?_) fun _ _ => trivial
  refine tends_pass (Proc.outcome_calls (ZfsDatasetReconciler.beforeDestroy_tends _ _ _))
    (fun done s₂ h₂ => ?_) fun _ _ => trivial
  cases done with
  | error e =>
    refine Proc.wp_outcome_bind (wp_mono ?_ (setStatusAt_wp (h.calm (h₁.trans h₂)) nofun))
    exact fun _ _ _ => trivial
  | ok =>
    refine tends_pass (ask_calls ⟨⟨rfl, rfl⟩, rfl⟩) (fun _ s₃ h₃ => ?_) fun _ _ => trivial
    exact releaseFinalizer_wp vol

theorem reconcile_wp (hs : Owned s) (hstarts : (datasetPasses nodeName).starts t s)
    (hcond : NotBetween nodeName t s) :
    ((datasetPasses nodeName).program t).wpAlone ((datasetPasses nodeName).handle t) AgentCall.fails
      (OwnerGuar t) (fun _ _ => True) s := by
  have hread : t.vol = s.world.datasets.lookup t.name := hstarts
  refine read_pass (fun _ _ => id) ownerGuar_reads rfl ?_ fun _ _ => trivial
  simp only [World.handle, Store.get]
  cases hvol : s.world.datasets.lookup t.name with
  | none => trivial
  | some vol =>
    have h : Held t vol s := ⟨hs, hread.trans hvol, hvol⟩
    simp only
    refine findPool_pass (fun _ _ => id) ownerGuar_reads ?_ fun _ _ => trivial
    cases hpool : s.world.pools.lookup (resourceName vol.spec.poolGUID) with
    | none =>
      simp only
      split_ifs
      · exact releaseFinalizer_wp vol
      · trivial
      · trivial
    | some pool =>
      by_cases hhosted : hostedHere nodeName (some pool) = true
      · simp only [hhosted, if_true]
        split_ifs
        · exact reconcileDelete_wp pool h
        · trivial
        · refine ensure_wp _ pool h fun hnew full hfull hfound hasks => ?_
          exact hcond vol h.read hnew hasks full (datasetPath_eq hpool hhosted rfl hfull) hfound
        · exact ask_pass (fun _ _ => id) (update_guar _ _) (fun _ _ => trivial) (fun _ _ => trivial)
            fun _ _ => trivial
      · simp only [hhosted, Bool.false_eq_true, if_false]
        split_ifs <;> trivial

end Pass

/-! ## Runs -/

/-- In every run whose passes do not begin between a creation and its ownership call, every pass
sets a ZfsDataset Ready only when its owner is set, and makes no ownership call for a
provisioned one. A call that fails is one that could have been answered, so the rule holds of
the ownership calls that fail as well. -/
theorem owner_before_ready (nodeName : String) {s₀ s s' : Tracked Due} {t : DatasetTurn}
    {l : List (AgentCall × Tracked Due)} {o : Option (Except Err Result)}
    (hdistinct : s₀.world.datasets.Distinct) (hdue : s₀.ghost = [])
    (hs : (datasetPasses nodeName).Reach (NotBetween nodeName) s₀ s)
    (hstarts : (datasetPasses nodeName).starts t s) (hcond : NotBetween nodeName t s)
    (hpass : (datasetPasses nodeName).Pass t s l o s') : ∀ c ∈ l, OwnerRule t c.1 c.2 := by
  have hstart : Owned s₀ := ⟨hdistinct, fun _ _ _ _ => by simp [hdue]⟩
  have howned : Owned s :=
    hs.invariant OwnerGuar hstart (fun _ _ h hchange => h.change hchange)
      (fun _ _ _ h hguar => hguar.1 h) fun _ _ h hstarts hcond => reconcile_wp h hstarts hcond
  intro c hc
  exact (hpass.calls (fun _ _ h hguar => hguar.1 h) (reconcile_wp howned hstarts hcond)
    howned c hc).2.2

/-! ## A pass that stops before the ownership call -/

section Sample

/-- Nothing has been created yet. -/
def tankUnowned : Tracked Due := ⟨tankWorld, []⟩

/-- A file system for the user 1000. -/
def ownedSpec : ZfsDatasetSpec :=
  { poolGUID := "1", dataset := "k8s/pvc-1", filesystem := some { uid := some 1000 } }

/-- The next pass of the ZfsDataset. -/
def nextTurn (s : Tracked Due) : DatasetTurn := ⟨"pvc-1", s.world.datasets.lookup "pvc-1"⟩

/-- The ZfsDataset has been created. -/
def requested : Tracked Due := { tankUnowned with world := { tankWorld with
  datasets := (tankWorld.datasets.create tankWorld.clock "pvc-1" ownedSpec {}).2 } }

/-- Its first pass sets the finalizer. -/
def withFinalizer : Tracked Due :=
  (((datasetPasses "node-a").program (nextTurn requested)).exec
    ((datasetPasses "node-a").handle (nextTurn requested)) requested).2

theorem withFinalizer_reach {cond : DatasetTurn → Tracked Due → Prop}
    (hcond : cond (nextTurn requested) requested) :
    (datasetPasses "node-a").Reach cond tankUnowned withFinalizer := by
  have hrequested : (datasetPasses "node-a").Reach cond tankUnowned requested :=
    .change .start ⟨.inl (.createDataset tankWorld "pvc-1" ownedSpec), rfl⟩
  exact .pass (t := nextTurn requested) hrequested rfl hcond (Runs.exec (fun _ _ => rfl) _ _)

/-- The call sets the ZfsDataset Ready. -/
def setsReady : AgentCall → Bool
  | .patchDatasetStatus _ _ patched => patched.phase = some .ready
  | _ => false

/-- The pass that creates the dataset sets its owner and then sets it Ready. -/
theorem owner_before_ready_sample :
    let l := ((datasetPasses "node-a").program (nextTurn withFinalizer)).trace
      ((datasetPasses "node-a").handle (nextTurn withFinalizer)) withFinalizer
    l.any (fun c => setsReady c.1) = true ∧
      ∀ c ∈ l, OwnerRule (nextTurn withFinalizer) c.1 c.2 := by
  refine ⟨by decide +kernel, ?_⟩
  exact owner_before_ready "node-a" (fun n o ho => by cases ho) rfl
    (withFinalizer_reach (by decide +kernel)) rfl (by decide +kernel)
      (Runs.exec (fun _ _ => rfl) _ _)

/-- Every call is answered, but ownership calls fail. -/
def unchownable (t : DatasetTurn) : (e : AgentCall) → Tracked Due → e.Ret × Tracked Due
  | .applyOwnership _ _ _ _, s => (.error (.other "operation not permitted"), s)
  | e, s => Tracked.handle (recordDue t.vol) e s

/-- The dataset is created, and the ownership call fails. -/
def unowned : Tracked Due :=
  (((datasetPasses "node-a").program (nextTurn withFinalizer)).exec
    (unchownable (nextTurn withFinalizer)) withFinalizer).2

/-- The pass after a failed ownership call sets the ZfsDataset Ready without an owner. -/
theorem ready_without_owner :
    ¬ ∀ (nodeName : String) (s₀ s s' : Tracked Due) (t : DatasetTurn)
      (l : List (AgentCall × Tracked Due)) (o : Option (Except Err Result)),
      s₀.world.datasets.Distinct → s₀.ghost = [] →
      (datasetPasses nodeName).Reach (fun _ _ => True) s₀ s → (datasetPasses nodeName).starts t s →
      (datasetPasses nodeName).Pass t s l o s' → ∀ c ∈ l, OwnerRule t c.1 c.2 := by
  intro hclaim
  have hfails : ∀ e s, unchownable (nextTurn withFinalizer) e s =
      Tracked.handle (recordDue (nextTurn withFinalizer).vol) e s ∨
      AgentCall.fails e (unchownable (nextTurn withFinalizer) e s).1 ∧
        (unchownable (nextTurn withFinalizer) e s).2 = s := by
    intro e s
    cases e with
    | applyOwnership _ _ _ _ => exact .inr ⟨⟨_, rfl⟩, rfl⟩
    | _ => exact .inl rfl
  obtain ⟨l, hrun⟩ :
    ∃ l, (datasetPasses "node-a").Pass (nextTurn withFinalizer) withFinalizer l _ unowned :=
    Runs.faulty (fun _ _ => rfl) hfails _ _
  have hreach : (datasetPasses "node-a").Reach (fun _ _ => True) tankUnowned unowned :=
    .pass (t := nextTurn withFinalizer) (withFinalizer_reach trivial) rfl trivial hrun
  have hrule := hclaim "node-a" tankUnowned unowned _ (nextTurn unowned) _ _
    (fun n o ho => by cases ho) rfl hreach rfl (Runs.exec (fun _ _ => rfl) _ _)
  exact absurd hrule (by decide +kernel)

end Sample

end SimpleZfsCsi.Agent.RootOwner
