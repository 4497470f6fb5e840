import SimpleZfsCsi.Group.Site

/-!
# The passes of volumes and snapshots beside a group

A pass of a ZfsDataset or of a ZfsSnapshot is fair to every group: it takes no snapshot of a
member, and moves snapshots only away from the dataset of an object that is being deleted.
-/

namespace SimpleZfsCsi.Group

open Library Api Agent Memzfs Program Concurrent

/-! ## The calls of a pass that creates -/

section Calls

open ZfsDatasetReconciler ZfsSnapshotReconciler

variable {P : Plan} {full : String} {α : Type}

section Snapshot

variable (r : ZfsSnapshotReconciler) {snap : ZfsSnapshot} {pool : ZfsPool} {datasetPath : String}
  (hfull :
    ∀ name, datasetName pool.status.poolName (backingDataset datasetPath snap.spec.snapshotName) =
    .ok name → name = full)

include hfull

end Snapshot

end Calls

/-! ## A pass and the others -/

/-- What a pass relies on, and what its calls guarantee. -/
def agentRely (P : Plan) (_ : AgentCall) (s t : GroupWorld) : Prop :=
  (P.Base s → P.Base t) ∧ Aside s t

/-- Answer a call of the agent. -/
def GroupWorld.answer (e : AgentCall) (s : GroupWorld) : e.Ret × GroupWorld :=
  ((World.handle e s.world).1, s.after e)

/-- What a pass knows while it works on the dataset at `full`: if that is the source of a member,
the object has the finalizer, and is being deleted if the pass deletes. -/
structure Duty (P : Plan) (full : String) (dying : Prop) (s : GroupWorld) : Prop where
  base : P.Base s
  plain : Plain full
  held : ∀ m ∈ P.members, P.source m = full →
    ∃ vol, s.world.datasets.lookup m.sourceVolume = some vol ∧
    vol.containsFinalizer zfsDatasetFinalizer = true ∧ (dying → vol.metadata.terminating = true)

section Duty

variable {P : Plan} {full : String} {dying : Prop} {s t : GroupWorld} {α β : Type}

theorem Duty.seat (h : Duty P full dying s) : Seat P full s := by
  refine ⟨h.plain, fun m hm hfull => ?_⟩
  obtain ⟨vol, hvol, hfin, _⟩ := h.held m hm hfull
  exact ⟨vol, hvol, hfin⟩

theorem Duty.leaving (h : Duty P full dying s) (hdying : dying) {m : ZfsGroupSnapshotMember}
    (hm : m ∈ P.members)
    (hfull : P.source m = full) : P.Leaving m s := by
  obtain ⟨vol, hvol, hfin, hterminating⟩ := h.held m hm hfull
  refine ⟨fun src hsrc => ?_, .inr ⟨vol, hvol, hfin⟩⟩
  obtain rfl := Option.some_inj.mp (hvol.symm.trans hsrc)
  exact hterminating hdying

theorem Duty.ages (h : Duty P full dying s) (hbase : P.Base t)
    (hages : ∀ m ∈ P.members, Plan.Held m.sourceVolume s → Ages m.sourceVolume s t) :
    Duty P full dying t := by
  refine ⟨hbase, h.plain, fun m hm hfull => ?_⟩
  obtain ⟨vol, hvol, hfin, hdying⟩ := h.held m hm hfull
  have hages := hages m hm ⟨vol, hvol, hfin⟩
  obtain ⟨vol', hvol', hfin'⟩ := hages.held ⟨vol, hvol, hfin⟩
  obtain ⟨vol₀, hvol₀, hkept⟩ := hages.dying vol' hvol'
  obtain rfl := Option.some_inj.mp (hvol.symm.trans hvol₀)
  exact ⟨vol', hvol', hfin', fun h => hkept (hdying h)⟩

theorem Duty.rely {e : AgentCall} (h : Duty P full dying s) (ht : agentRely P e s t) :
    Duty P full dying t :=
  h.ages (ht.1 h.base) fun _ _ hheld => ht.2.ages _ hheld

/-- A promote takes snapshots away from the dataset that is being deleted. -/
theorem Duty.promote (h : Duty P full True s) {c x : String}
    (hc : (s.mem.ds.lookup c).map (·.origin) = some (snapPath full x)) :
    P.Fair s (s.after (.promote c)) ∧ Duty P full True (s.after (.promote c)) := by
  have hsound : Sound (s.after (.promote c)).mem [] := h.base.sound.promote c
  have hages : ∀ m ∈ P.members, Ages m.sourceVolume s (s.after (.promote c)) :=
    fun _ _ => .of_eq rfl
  have hkeys : ∀ n, s.mem.ds.lookup n = none → (s.after (.promote c)).mem.ds.lookup n = none := by
    intro n hnone
    have hface := Mem.face_promote s.mem c n
    have hkept : (s.mem.promote c).2.ds.lookup n = none := by simpa [Mem.face, hnone] using hface
    exact hkept
  have hleaving : ∀ m ∈ P.members, P.Leaving m s → P.Leaving m (s.after (.promote c)) :=
    fun m hm h => h.of_ages (hages m hm) fun hnone => .inl (hkeys _ hnone)
  have hclear : P.Clear (s.after (.promote c)) := { h.base.clear with }
  refine ⟨⟨fun _ => ⟨hsound, hclear⟩, hleaving, fun _ _ => id, fun m hm d' τ hτ => ?_⟩,
    h.ages ⟨hsound, hclear⟩ fun _ _ _ => .of_eq rfl⟩
  rcases h.base.sound.promote_cases c with ⟨r, hr⟩ | ⟨p, n, o, _, hpromoted⟩
  · have hmem : (s.after (.promote c)).mem = s.mem := congrArg Prod.snd hr
    exact ⟨d', τ, hmem ▸ hτ, rfl, .inl rfl⟩
  · obtain ⟨C, hC, horigin⟩ := hpromoted.origin
    rw [hC, Option.map_some, Option.some_inj, horigin] at hc
    obtain ⟨rfl, -⟩ := snapPath_inj (h.base.sound.plain_of_snap hpromoted.snap) h.plain hc
    rcases hpromoted.snap_cases hτ with ⟨_, hτ, _⟩ | ⟨hτ, _⟩
    · refine ⟨p, τ, hτ, rfl, ?_⟩
      by_cases hsource : P.source m = p
      · exact .inr (.inr (hleaving m hm (h.leaving trivial hm hsource)))
      · exact .inr (.inl fun heq => hsource heq.symm)
    · exact ⟨d', τ, hτ, rfl, .inl rfl⟩

end Duty

/-! ## Finalizers -/

section Finalizers

variable {P : Plan} {s : GroupWorld} {α : Type} {I : GroupWorld → Prop}

theorem answer_reads {e : AgentCall} (he : e.Reads) (t : GroupWorld) :
    (GroupWorld.answer e t).2 = t := by
  show t.after e = t
  unfold GroupWorld.after
  rw [World.handle_reads he]

/-- The source of a member whose object is called `name` is gone. -/
structure Vacant (P : Plan) (name : String) (s : GroupWorld) : Prop where
  base : P.Base s
  gone : ∀ m ∈ P.members, m.sourceVolume = name → s.mem.ds.lookup (P.source m) = none

theorem Vacant.rely {name : String} {e : AgentCall} {t : GroupWorld} (h : Vacant P name s)
    (ht : agentRely P e s t) : Vacant P name t := by
  refine ⟨ht.1 h.base, fun m hm hname => ?_⟩
  have horigin := ht.2.origins (P.source m)
  rw [h.gone m hm hname] at horigin
  simpa using horigin

theorem Vacant.release {name : String} {o : ZfsDataset} (h : Vacant P name s)
    (hname : o.name = name)
    (hspec : P.Volume name o.spec) :
    P.Fair s (s.after (.updateDataset o)) ∧ Vacant P name (s.after (.updateDataset o)) := by
  have hdatasets : (s.after (.updateDataset o)).world.datasets =
      (s.world.datasets.update o).2 := rfl
  have hmem : (s.after (.updateDataset o)).mem = s.mem := rfl
  have hclear : P.Clear s → P.Clear (s.after (.updateDataset o)) :=
    fun h => { h with datasets := h.datasets.update (hname ▸ hspec) }
  have hnew : ∀ n, s.world.datasets.lookup n = none →
      (s.after (.updateDataset o)).world.datasets.lookup n = none := by
    intro n hnone
    rw [hdatasets]
    obtain ⟨e, he⟩ | ⟨cur, hcur, _, hupdate⟩ := s.world.datasets.update_cases o
    · rwa [he]
    · rw [hupdate, Store.lookup_put_of_ne _ _ fun hn => by rw [hn, hcur] at hnone; cases hnone]
      exact hnone
  refine ⟨⟨fun h => ⟨h.sound, hclear h.clear⟩, fun m hm hleaving => ?_, fun m _ => hnew _,
    fun _ _ d' τ hτ => ⟨d', τ, hτ, rfl, .inl rfl⟩⟩, ⟨h.base.sound, hclear h.base.clear⟩, h.gone⟩
  by_cases hsource : m.sourceVolume = name
  · refine ⟨fun src hsrc => ?_, .inl (h.gone m hm hsource)⟩
    obtain ⟨e, he⟩ | ⟨cur, hcur, _, hupdate⟩ := s.world.datasets.update_cases o
    · rw [hdatasets, he] at hsrc
      exact hleaving.dying src hsrc
    · rw [hdatasets, hupdate] at hsrc
      obtain ⟨_, hsrc⟩ | ⟨heq, rfl⟩ := Store.lookup_put hsrc
      · exact hleaving.dying src hsrc
      · exact hleaving.dying cur (heq ▸ hcur)
  · exact hleaving.of_ages (.update hdatasets fun hn => absurd (hn.symm.trans hname) hsource)
      fun hnone => .inl hnone

end Finalizers

/-! ## Whole passes -/

section Reconcile

open ZfsDatasetReconciler ZfsSnapshotReconciler

variable {P : Plan} {s : GroupWorld} {I : GroupWorld → Prop}

section Read

variable {rely guar : AgentCall → GroupWorld → GroupWorld → Prop}
  (hrely : ∀ e s t, I s → rely e s t → I t) (hrefl : ∀ e s, guar e s s)
    (hbase : ∀ s, I s → P.Base s)

include hrely hrefl hbase

/-- The pool that is read has the name that was planned, and the pool of the group is there. -/
theorem findPool_wp (hs : I s) (guid : String) :
    (findPool guid).run.wp GroupWorld.answer AgentCall.fails rely guar
      (fun r t => I t ∧ ∀ found, r = .ok found →
      (found = none → guid ≠ P.spec.poolGUID) ∧
        ∀ pool, found = some pool → pool.status.poolName = P.poolNames guid) s := by
  refine Proc.outcome_ask_wp fun t ht => ⟨hrefl _ t, ?_, ?_⟩
  swap
  · rintro _ ⟨msg, rfl⟩
    exact ⟨hrely _ _ _ hs ht, fun _ h => by cases h⟩
  have hI := hrely _ _ _ hs ht
  have hclear := (hbase _ hI).clear
  have hanswer : GroupWorld.answer (.getPool (resourceName guid)) t =
      (t.world.pools.get (resourceName guid), t) :=
    rfl
  rw [hanswer, Store.get]
  cases hpool : t.world.pools.lookup (resourceName guid) with
  | none =>
    refine ⟨hI, ?_⟩
    rintro _ ⟨⟩
    refine ⟨fun _ hguid => ?_, fun _ h => by cases h⟩
    have hsome := hclear.pool
    rw [← hguid, hpool] at hsome
    cases hsome
  | some pool =>
    refine ⟨hI, ?_⟩
    rintro _ ⟨⟩
    refine ⟨fun h => (by cases h), ?_⟩
    rintro _ ⟨⟩
    exact hclear.pools guid pool hpool

end Read

theorem source_ne_empty (m : ZfsGroupSnapshotMember) : P.source m ≠ "" := by
  intro h
  have hlen := congrArg String.length h
  simp [Plan.source, String.length_append] at hlen

end Reconcile

end SimpleZfsCsi.Group
