import SimpleZfsCsi.Migrate.Apply

/-!
# What applying a plan does

Applying a plan writes labels, marks or removes snapshots, and fills in fields of the objects.
`Applied` says so of all actions at once, when none of them failed.
-/

namespace SimpleZfsCsi.Migrate

open Library Api Agent Program

/-! ## What applying does -/

/-- A dataset object before and after the actions. -/
structure DatasetKept (actions : List Action) (d d' : ZfsDataset) : Prop where
  metadata : d'.metadata = d.metadata
  spec : d'.spec = d.spec
  phase : d'.status.phase = d.status.phase
  provisioned : d.status.provisionedAt.isSome → d'.status.provisionedAt.isSome
  stamped : ∀ time reason, .stampDataset d.name time reason ∈ actions →
    d'.status.provisionedAt.isSome

/-- A snapshot object before and after the actions. -/
structure SnapshotKept (actions : List Action) (s s' : ZfsSnapshot) : Prop where
  metadata : s'.metadata = s.metadata
  spec : { s'.spec with sourceType := none } = { s.spec with sourceType := none }
  phase : s'.status.phase = s.status.phase
  provisioned : s.status.provisionedAt.isSome → s'.status.provisionedAt.isSome
  stamped : ∀ time reason, .stampSnapshot s.name time reason ∈ actions →
    s'.status.provisionedAt.isSome
  typed : s.spec.sourceType.isSome → s'.spec.sourceType.isSome
  retyped : ∀ type reason, .snapshotSourceType s.name type reason ∈ actions →
    s'.spec.sourceType.isSome

/-- What ZFS has under a name before and after the actions, if it is still there. -/
structure EntryKept (actions : List Action) (name : String) (e e' : Entry) : Prop where
  role : (e'.role = e.role ∧ ∀ value reason, .set name propRole value reason ∉ actions) ∨
    ∃ reason, .set name propRole e'.role reason ∈ actions
  owner : (e'.owner = e.owner ∧ ∀ value reason, .set name propOwner value reason ∉ actions) ∨
    ∃ reason, .set name propOwner e'.owner reason ∈ actions
  deferred : e.deferred = true → e'.deferred = true
  marked : ∀ reason, .destroyDeferred name reason ∈ actions → e'.deferred = true

/-- The cluster before and after the actions. -/
structure Applied (actions : List Action) (w w' : Cluster) : Prop where
  pools : w'.pools = w.pools
  datasets : ∃ g, w'.datasets = w.datasets.map g ∧ ∀ d, DatasetKept actions d (g d)
  snapshots : ∃ g, w'.snapshots = w.snapshots.map g ∧ ∀ s, SnapshotKept actions s (g s)
  entries : ∀ n e', w'.zfs.lookup n = some e' → ∃ e, w.zfs.lookup n = some e ∧
    EntryKept actions n e e'
  stays : ∀ n, (w.zfs.lookup n).isSome → (∀ reason, .destroyDeferred n reason ∉ actions) →
    (w'.zfs.lookup n).isSome

section Same

variable {actions : List Action}

theorem DatasetKept.same {d : ZfsDataset}
    (h : ∀ time reason, .stampDataset d.name time reason ∉ actions) :
    DatasetKept actions d d :=
  ⟨rfl, rfl, rfl, id, fun time reason hmem => absurd hmem (h time reason)⟩

theorem SnapshotKept.same {s : ZfsSnapshot}
    (h : ∀ time reason, .stampSnapshot s.name time reason ∉ actions)
    (h' : ∀ type reason, .snapshotSourceType s.name type reason ∉ actions) :
    SnapshotKept actions s s :=
  ⟨rfl, rfl, rfl, id, fun time reason hmem => absurd hmem (h time reason), id,
    fun type reason hmem => absurd hmem (h' type reason)⟩

theorem EntryKept.same {n : String} {e : Entry}
    (hset : ∀ prop value reason, .set n prop value reason ∉ actions)
    (hdestroy : ∀ reason, .destroyDeferred n reason ∉ actions) : EntryKept actions n e e :=
  ⟨.inl ⟨rfl, hset _⟩, .inl ⟨rfl, hset _⟩, id, fun reason hmem => absurd hmem (hdestroy reason)⟩

theorem Applied.nil (w : Cluster) : Applied [] w w := by
  refine ⟨rfl, ⟨id, by simp, fun d => .same (by simp)⟩,
    ⟨id, by simp, fun s => .same (by simp) (by simp)⟩,
    fun n e he => ⟨e, he, .same (by simp) (by simp)⟩, fun n hn _ => hn⟩

end Same

section Trans

variable {a : Action} {actions : List Action}

theorem DatasetKept.trans {d d' d'' : ZfsDataset} (h : DatasetKept [a] d d')
    (h' : DatasetKept actions d' d'') :
    DatasetKept (a :: actions) d d'' := by
  refine ⟨h'.metadata.trans h.metadata, h'.spec.trans h.spec, h'.phase.trans h.phase,
    fun hp => h'.provisioned (h.provisioned hp), fun time reason hmem => ?_⟩
  rcases List.mem_cons.mp hmem with heq | hmem
  · exact h'.provisioned (h.stamped time reason (by simp [heq]))
  · have hname : d'.name = d.name := congrArg ObjectMeta.name h.metadata
    exact h'.stamped time reason (hname ▸ hmem)

theorem SnapshotKept.trans {s s' s'' : ZfsSnapshot} (h : SnapshotKept [a] s s')
    (h' : SnapshotKept actions s' s'') :
    SnapshotKept (a :: actions) s s'' := by
  have hname : s'.name = s.name := congrArg ObjectMeta.name h.metadata
  refine ⟨h'.metadata.trans h.metadata, h'.spec.trans h.spec, h'.phase.trans h.phase,
    fun hp => h'.provisioned (h.provisioned hp), fun time reason hmem => ?_,
      fun ht => h'.typed (h.typed ht),
    fun type reason hmem => ?_⟩
  · rcases List.mem_cons.mp hmem with heq | hmem
    · exact h'.provisioned (h.stamped time reason (by simp [heq]))
    · exact h'.stamped time reason (hname ▸ hmem)
  · rcases List.mem_cons.mp hmem with heq | hmem
    · exact h'.typed (h.retyped type reason (by simp [heq]))
    · exact h'.retyped type reason (hname ▸ hmem)

theorem label_trans {name prop before mid after : String}
    (h : (mid = before ∧ ∀ value reason, .set name prop value reason ∉ [a]) ∨
      ∃ reason, .set name prop mid reason ∈ [a])
    (h' : (after = mid ∧ ∀ value reason, .set name prop value reason ∉ actions) ∨
      ∃ reason, .set name prop after reason ∈ actions) :
    (after = before ∧ ∀ value reason, .set name prop value reason ∉ a :: actions) ∨
      ∃ reason, .set name prop after reason ∈ a :: actions := by
  rcases h' with ⟨rfl, hnone⟩ | ⟨reason, hmem⟩
  · rcases h with ⟨rfl, hnot⟩ | ⟨reason, hmem⟩
    · refine .inl ⟨rfl, fun value reason hin => ?_⟩
      rcases List.mem_cons.mp hin with heq | hin
      · exact hnot value reason (by simp [heq])
      · exact hnone value reason hin
    · exact .inr ⟨reason, List.mem_cons.mpr (.inl (List.mem_singleton.mp hmem))⟩
  · exact .inr ⟨reason, List.mem_cons_of_mem _ hmem⟩

theorem EntryKept.trans {n : String} {e e' e'' : Entry} (h : EntryKept [a] n e e')
    (h' : EntryKept actions n e' e'') :
    EntryKept (a :: actions) n e e'' := by
  refine ⟨label_trans h.role h'.role, label_trans h.owner h'.owner,
    fun hd => h'.deferred (h.deferred hd),
    fun reason hmem => ?_⟩
  rcases List.mem_cons.mp hmem with heq | hmem
  · exact h'.deferred (h.marked reason (by simp [heq]))
  · exact h'.marked reason hmem

theorem Applied.trans {w w' w'' : Cluster} (h : Applied [a] w w') (h' : Applied actions w' w'') :
    Applied (a :: actions) w w'' := by
  obtain ⟨g, hg, hdatasets⟩ := h.datasets
  obtain ⟨g', hg', hdatasets'⟩ := h'.datasets
  obtain ⟨k, hk, hsnapshots⟩ := h.snapshots
  obtain ⟨k', hk', hsnapshots'⟩ := h'.snapshots
  refine ⟨h'.pools.trans h.pools,
    ⟨g' ∘ g, by rw [hg', hg, List.map_map], fun d => (hdatasets d).trans (hdatasets' _)⟩,
    ⟨k' ∘ k, by rw [hk', hk, List.map_map], fun s => (hsnapshots s).trans (hsnapshots' _)⟩,
      fun n e'' he'' => ?_,
    fun n hn hnone => ?_⟩
  · obtain ⟨e', he', hkept'⟩ := h'.entries n e'' he''
    obtain ⟨e, he, hkept⟩ := h.entries n e' he'
    exact ⟨e, he, hkept.trans hkept'⟩
  · refine h'.stays n (h.stays n hn fun reason hmem => ?_) fun reason hmem => ?_
    · exact hnone reason (List.mem_cons.mpr (.inl (List.mem_singleton.mp hmem)))
    · exact hnone reason (List.mem_cons_of_mem _ hmem)

end Trans

/-! ## One action -/

section Action

variable {w : Cluster}

/-- An action on ZFS leaves the objects alone. -/
theorem Applied.onZfs {a : Action} {zfs : FinMap String Entry}
    (hdataset : ∀ n time reason, a ≠ .stampDataset n time reason)
    (hsnapshot : ∀ n time reason, a ≠ .stampSnapshot n time reason)
    (htype : ∀ n type reason, a ≠ .snapshotSourceType n type reason)
    (hentries : ∀ n e', zfs.lookup n = some e' → ∃ e, w.zfs.lookup n = some e ∧
      EntryKept [a] n e e')
    (hstays : ∀ n, (w.zfs.lookup n).isSome → (∀ reason, .destroyDeferred n reason ∉ [a]) →
      (zfs.lookup n).isSome) :
    Applied [a] w { w with zfs } := by
  refine ⟨rfl, ⟨id, by simp, fun d => .same ?_⟩, ⟨id, by simp, fun s => .same ?_ ?_⟩,
    hentries, hstays⟩
  · intro time reason hmem
    exact hdataset _ _ _ (List.mem_singleton.mp hmem).symm
  · intro time reason hmem
    exact hsnapshot _ _ _ (List.mem_singleton.mp hmem).symm
  · intro type reason hmem
    exact htype _ _ _ (List.mem_singleton.mp hmem).symm

theorem applied_set {target prop value reason : String} :
    Applied [.set target prop value reason] w
      { w with zfs := w.zfs.modify target (·.set prop value) } := by
  refine .onZfs nofun nofun nofun (fun n e' he' => ?_) fun n hn _ => ?_
  · rw [FinMap.lookup_modify] at he'
    obtain ⟨e, he, rfl⟩ := Option.map_eq_some_iff.mp he'
    refine ⟨e, he, ?_⟩
    by_cases hn : n = target
    · subst hn
      have hne : propOwner ≠ propRole := by decide
      simp only [if_true]
      unfold Entry.set
      by_cases hrole : prop = propRole
      · subst hrole
        refine ⟨.inr ⟨reason, by simp⟩, .inl ⟨by simp, fun v r hmem => ?_⟩, by simp, by simp⟩
        simp only [List.mem_singleton, Action.set.injEq] at hmem
        exact hne hmem.2.1
      · by_cases howner : prop = propOwner
        · subst howner
          refine ⟨.inl ⟨by simp [hne], fun v r hmem => ?_⟩, .inr ⟨reason, by simp [hne]⟩,
            by simp [hne], by simp⟩
          simp only [List.mem_singleton, Action.set.injEq] at hmem
          exact hne hmem.2.1.symm
        · refine ⟨.inl ⟨by simp [hrole, howner], fun v r hmem => ?_⟩,
            .inl ⟨by simp [hrole, howner], fun v r hmem => ?_⟩,
            by simp [hrole, howner], by simp⟩
          · simp only [List.mem_singleton, Action.set.injEq] at hmem
            exact hrole hmem.2.1.symm
          · simp only [List.mem_singleton, Action.set.injEq] at hmem
            exact howner hmem.2.1.symm
    · simp only [hn, if_false]
      refine .same (fun p v r hmem => ?_) (by simp)
      simp only [List.mem_singleton, Action.set.injEq] at hmem
      exact hn hmem.1
  · simpa using hn

theorem applied_mark {target reason : String} :
    Applied [.destroyDeferred target reason] w
      { w with zfs := w.zfs.modify target fun e => { e with deferred := true } } := by
  refine .onZfs nofun nofun nofun (fun n e' he' => ?_) fun n hn _ => ?_
  · rw [FinMap.lookup_modify] at he'
    obtain ⟨e, he, rfl⟩ := Option.map_eq_some_iff.mp he'
    refine ⟨e, he, ?_⟩
    by_cases hn : n = target
    · simp only [hn, if_true]
      exact ⟨.inl ⟨rfl, by simp⟩, .inl ⟨rfl, by simp⟩, fun _ => rfl, fun _ _ => rfl⟩
    · simp only [hn, if_false]
      exact .same (by simp) (by simp [hn])
  · simpa using hn

theorem applied_destroy {target reason : String} :
    Applied [.destroyDeferred target reason] w { w with zfs := w.zfs.erase target } := by
  refine .onZfs nofun nofun nofun (fun n e' he' => ?_) fun n hn hother => ?_
  · rw [FinMap.lookup_erase] at he'
    split_ifs at he' with htarget
    exact ⟨e', he', .same (by simp) (by simp [htarget])⟩
  · rw [FinMap.lookup_erase]
    split_ifs with htarget
    · exact absurd (by simp [htarget]) (hother reason)
    · exact hn

/-- A write to the object of a name. -/
theorem writeObject_ok {Spec Status : Type} {objects objects' : List (Object Spec Status)}
    {name : String}
    {f : Object Spec Status → Object Spec Status} (h : writeObject objects name f = .ok objects') :
    objects' = objects.map fun o => if o.name = name then f o else o := by
  unfold writeObject at h
  split_ifs at h
  exact (Except.ok.inj h).symm

theorem applied_stampDataset {name reason : String} {time : Nat} :
    Applied [.stampDataset name time reason] w
      { w with datasets := w.datasets.map fun o => if o.name = name then stampDataset time o
        else o } := by
  refine ⟨rfl, ⟨_, rfl, fun d => ?_⟩, ⟨id, by simp, fun s => .same (by simp) (by simp)⟩,
    fun n e he => ⟨e, he, .same (by simp) (by simp)⟩, fun n hn _ => hn⟩
  split_ifs with hname
  · unfold stampDataset
    split_ifs with hsome
    · exact ⟨rfl, rfl, rfl, id, fun _ _ _ => hsome⟩
    · exact ⟨rfl, rfl, rfl, fun _ => rfl, fun _ _ _ => rfl⟩
  · refine .same fun t r hmem => ?_
    simp only [List.mem_singleton, Action.stampDataset.injEq] at hmem
    exact hname hmem.1

/-- A write to a snapshot object, said by what it does to the object. -/
theorem Applied.onSnapshot {a : Action} {name : String} {f : ZfsSnapshot → ZfsSnapshot}
    (hdataset : ∀ n time reason, a ≠ .stampDataset n time reason)
    (hset : ∀ n prop value reason, a ≠ .set n prop value reason)
    (hdestroy : ∀ n reason, a ≠ .destroyDeferred n reason)
    (hkept : ∀ s : ZfsSnapshot, s.name = name → SnapshotKept [a] s (f s))
    (hstamp : ∀ n time reason, a = .stampSnapshot n time reason → n = name)
    (htype : ∀ n type reason, a = .snapshotSourceType n type reason → n = name) :
    Applied [a] w { w with snapshots := w.snapshots.map fun o => if o.name = name then f o
      else o } := by
  refine ⟨rfl, ⟨id, by simp, fun d => .same ?_⟩, ⟨_, rfl, fun s => ?_⟩,
    fun n e he => ⟨e, he, .same ?_ ?_⟩, fun n hn _ => hn⟩
  · intro time reason hmem
    exact hdataset _ _ _ (List.mem_singleton.mp hmem).symm
  · split_ifs with hname
    · exact hkept s hname
    · refine .same (fun t r hmem => ?_) fun t r hmem => ?_
      · exact hname (hstamp _ _ _ (List.mem_singleton.mp hmem).symm)
      · exact hname (htype _ _ _ (List.mem_singleton.mp hmem).symm)
  · intro prop value reason hmem
    exact hset _ _ _ _ (List.mem_singleton.mp hmem).symm
  · intro reason hmem
    exact hdestroy _ _ (List.mem_singleton.mp hmem).symm

theorem snapshotKept_stamp {name reason : String} {time : Nat} (s : ZfsSnapshot) :
    SnapshotKept [.stampSnapshot name time reason] s (stampSnapshot time s) := by
  unfold stampSnapshot
  split_ifs with hsome
  · exact ⟨rfl, rfl, rfl, id, fun _ _ _ => hsome, id, by simp⟩
  · exact ⟨rfl, rfl, rfl, fun _ => rfl, fun _ _ _ => rfl, id, by simp⟩

theorem snapshotKept_type {name reason : String} {type : DatasetType} (s : ZfsSnapshot) :
    SnapshotKept [.snapshotSourceType name type reason] s (setSourceType type s) := by
  unfold setSourceType
  split_ifs with hsome
  · exact ⟨rfl, rfl, rfl, id, by simp, id, fun _ _ _ => hsome⟩
  · exact ⟨rfl, rfl, rfl, id, by simp, fun _ => rfl, fun _ _ _ => rfl⟩

theorem applied_action {a : Action} {w' : Cluster} (h : Cluster.handle a.call w = (.ok (), w')) :
    Applied [a] w w' := by
  cases a with
  | set target prop value reason =>
    simp only [Action.call, Cluster.handle] at h
    split_ifs at h
    · cases h
    · obtain ⟨_, rfl⟩ := Prod.mk.inj h
      exact applied_set
  | destroyDeferred target reason =>
    simp only [Action.call, Cluster.handle] at h
    split_ifs at h
    · cases h
    · obtain ⟨_, rfl⟩ := Prod.mk.inj h
      exact applied_mark
    · obtain ⟨_, rfl⟩ := Prod.mk.inj h
      exact applied_destroy
  | stampDataset target time reason =>
    simp only [Action.call, Cluster.handle] at h
    cases hwrite : writeObject w.datasets target (stampDataset time) with
    | error e => rw [hwrite] at h; cases h
    | ok datasets =>
      rw [hwrite] at h
      obtain ⟨_, rfl⟩ := Prod.mk.inj h
      rw [writeObject_ok hwrite]
      exact applied_stampDataset
  | stampSnapshot target time reason =>
    simp only [Action.call, Cluster.handle] at h
    cases hwrite : writeObject w.snapshots target (stampSnapshot time) with
    | error e => rw [hwrite] at h; cases h
    | ok snapshots =>
      rw [hwrite] at h
      obtain ⟨_, rfl⟩ := Prod.mk.inj h
      rw [writeObject_ok hwrite]
      refine .onSnapshot nofun nofun nofun (fun s _ => snapshotKept_stamp s)
        (fun n t r heq => ?_) nofun
      exact (Action.stampSnapshot.inj heq).1.symm
  | snapshotSourceType target type reason =>
    simp only [Action.call, Cluster.handle] at h
    cases hwrite : writeObject w.snapshots target (setSourceType type) with
    | error e => rw [hwrite] at h; cases h
    | ok snapshots =>
      rw [hwrite] at h
      obtain ⟨_, rfl⟩ := Prod.mk.inj h
      rw [writeObject_ok hwrite]
      refine .onSnapshot nofun nofun nofun (fun s _ => snapshotKept_type s) nofun
        fun n t r heq => ?_
      exact (Action.snapshotSourceType.inj heq).1.symm

theorem applied_apply {actions : List Action} {w' : Cluster}
    (h : (apply actions).run.exec Cluster.handle w = (.ok (), w')) : Applied actions w w' := by
  induction actions generalizing w with
  | nil =>
    obtain ⟨_, rfl⟩ := Prod.mk.inj h
    exact .nil w
  | cons a actions ih =>
    have hask : ((ask a.call).outcome : MigrateProc _).run.exec Cluster.handle w =
        (.ok (Cluster.handle a.call w).1, (Cluster.handle a.call w).2) := by
      simp only [ask, Proc.run_outcome, Proc.run_ask, Program.exec_bind, exec_call, exec_pure]
      rcases (Cluster.handle a.call w).1 with e | ⟨⟩ <;> rfl
    unfold apply at h
    rw [Proc.exec_bind hask] at h
    rcases hone : Cluster.handle a.call w with ⟨r, w₁⟩
    rw [hone] at h
    cases r with
    | error e => cases h
    | ok u => exact (applied_action hone).trans (ih h)

end Action

end SimpleZfsCsi.Migrate
