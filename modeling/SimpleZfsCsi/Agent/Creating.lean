import SimpleZfsCsi.Agent.Deleting
import SimpleZfsCsi.Agent.Labels

/-!
# Filling a post

A pass for an object that is not being deleted takes the snapshot of its tag, clones its seat
from it and labels both, or finds that this has been done. A pass may be cut short anywhere and
the next one goes on from there. Only a ZfsSnapshot whose backing clone is there while its raw
snapshot has left the source would take another one; `Pinned` is that this is not so.
-/

namespace SimpleZfsCsi.Agent

open Library Api Memzfs Text Program

/-- A later entry of a property wins. -/
theorem role_mergeLabels (props : Props) (role owner : String) :
    (FinMap.ofList (mergeLabels props role owner)).lookup propRole = some role := by
  induction props with
  | nil =>
    refine (FinMap.lookup_ofList (labelProps_nodup role owner)).mpr ?_
    simp [labelProps]
  | cons entry rest ih =>
    simp only [mergeLabels, List.cons_append, FinMap.ofList] at ih ⊢
    split_ifs with hin
    · exact ih
    · rw [FinMap.lookup_insert, if_neg, ih]
      intro heq
      rw [← heq] at hin
      simp [FinMap.contains, ih] at hin

namespace Site

variable {S : Site} {G₀ G : CloneGraph String String} {k : AgentTask} {P : Post String String}
  {w₀ : World} {t : Tracked Taken} {fails : (e : AgentCall) → e.Ret → Prop} {β : Type}
  {Q : Except Err β → Tracked Taken → Prop}

/-! ## Labels and sizes -/

/-- The calls of a pass for `k` that leave the clone graph as it is. -/
inductive Grooms (k : AgentTask) (P : Post String String) : AgentCall → Prop where
  | read {e : AgentCall} (reads : e.Reads) : Grooms k P e
  | label {name prop value : String} (which : (Memzfs.split name).2.2 = true ∨
      name = P.seat ∧ (prop = propRole → value = k.role)) :
        Grooms k P (.setProperty name prop value)
  | ownership {mountpoint : String} {uid gid : Option Int} {mode : String} :
      Grooms k P (.applyOwnership mountpoint uid gid mode)

theorem Grooms.keeps {e : AgentCall} (he : Grooms k P e) (h : S.OnDuty G₀ k P w₀ t G) :
    S.Keeping G₀ k e t (Tracked.handle recordTaken e t).2 ∧
      S.OnDuty G₀ k P w₀ (Tracked.handle recordTaken e t).2 G := by
  cases he with
  | read reads =>
    rw [Tracked.handle_reads reads]
    exact ⟨.inl reads, h⟩
  | label which =>
    exact ⟨.inr ⟨G, P, h.orderly, h.post, .label which⟩,
      h.orderly.withMem (h.orderly.represents.setProperty _ _ _) h.orderly.keeps .inr
        h.orderly.apart,
      h.post, h.datasets, h.snapshots, h.pools⟩
  | ownership => exact ⟨.inr ⟨G, P, h.orderly, h.post, .ownership⟩, h⟩

theorem groom_wp {p : AgentProc β} (hp : p.run.Calls (Grooms k P)) (h : S.OnDuty G₀ k P w₀ t G) :
    passWp recordTaken fails (S.Keeping G₀ k) p (fun _ t' => S.OnDuty G₀ k P w₀ t' G) t :=
  hp.wp (fun _ _ _ _ hs ht => ht ▸ hs) (fun _ _ he hs => he.keeps hs) h

theorem groom_pass {α : Type} {p : AgentProc α} {f : α → AgentProc β}
    (hp : p.run.Calls (Grooms k P))
    (h : S.OnDuty G₀ k P w₀ t G)
    (hf : ∀ a t', S.OnDuty G₀ k P w₀ t' G → passWp recordTaken fails (S.Keeping G₀ k) (f a) Q t')
    (herror : ∀ e t', S.OnDuty G₀ k P w₀ t' G → Q (.error e) t') :
    passWp recordTaken fails (S.Keeping G₀ k) (p >>= f) Q t :=
  calls_pass hp (fun _ _ he hs => he.keeps hs) h hf herror

theorem ensureProps_grooms {name : String} {props : Props} (h : (Memzfs.split name).2.2 = true ∨
    name = P.seat ∧ ∀ p ∈ props, p.1 = propRole → p.2 = k.role) :
    (ensureProps name props).run.Calls (Grooms k P) := by
  induction props with
  | nil => simp [ensureProps]
  | cons p rest ih =>
    have hrest := ih (h.imp id fun h => ⟨h.1, fun q hq => h.2 q (List.mem_cons_of_mem _ hq)⟩)
    refine Proc.bind_calls (ask_calls (.read rfl)) fun got => ?_
    split_ifs
    · exact hrest
    · refine Proc.bind_calls (ask_calls (.label ?_)) fun _ => hrest
      exact h.imp id fun h => ⟨h.1, h.2 p List.mem_cons_self⟩

theorem ensureLabels_grooms {name role : String} (owner : String)
    (h : (Memzfs.split name).2.2 = true ∨ name = P.seat ∧ role = k.role) :
    (ensureLabels name role owner).run.Calls (Grooms k P) := by
  refine ensureProps_grooms (h.imp id fun ⟨hname, hrole⟩ => ⟨hname, fun p hp hprop => ?_⟩)
  have hrole' := (FinMap.lookup_ofList (labelProps_nodup role owner)).mpr hp
  have hown := role_mergeLabels [] role owner
  simp only [mergeLabels, List.nil_append] at hown
  rw [hprop, hown] at hrole'
  exact (Option.some_inj.mp hrole').symm.trans hrole

theorem ensureSize_grooms (X : ZfsDataset) :
    (ZfsDatasetReconciler.ensureSize X P.seat).run.Calls (Grooms k P) := by
  have hsize : ∀ {prop value}, prop ≠ propRole → Grooms k P (.setProperty P.seat prop value) :=
    fun hprop => .label (.inr ⟨rfl, fun h => absurd h hprop⟩)
  unfold ZfsDatasetReconciler.ensureSize
  cases X.spec.type with
  | filesystem =>
    refine Proc.bind_calls (ask_calls (.read rfl)) fun current => ?_
    cases refquotaEqual current (((quotaOf X).map toString).getD "none") with
    | true => simp
    | false => exact ask_calls (hsize (by decide))
  | volume =>
    cases X.spec.volume with
    | none => simp
    | some v =>
      refine Proc.bind_calls (ask_calls (.read rfl)) fun current => ?_
      generalize alignUp _ _ = desired
      by_cases h : (Text.parseInt (Text.trimSpace current)).1 < desired
      · rw [if_pos h]
        exact ask_calls (hsize (by decide))
      · rw [if_neg h]
        simp

theorem ensureVolumeLabels_grooms {n : String} (X : ZfsDataset) :
    (ZfsDatasetReconciler.ensureVolumeLabels X P.seat).run.Calls (Grooms (.dataset n) P) := by
  unfold ZfsDatasetReconciler.ensureVolumeLabels
  split_ifs
  · simp
  · exact ensureLabels_grooms _ (.inr ⟨rfl, rfl⟩)

theorem applyRootOwnership_grooms (X : ZfsDataset) (baseMountPath poolName : String) :
    (ZfsDatasetReconciler.applyRootOwnership X baseMountPath poolName).run.Calls (Grooms k P) := by
  unfold ZfsDatasetReconciler.applyRootOwnership
  split
  · split_ifs
    · simp
    · exact Proc.bind_calls (liftExcept_calls _) fun _ => ask_calls .ownership
  · simp

/-! ## The snapshot of the tag -/

/-- Only the post of a pass has its tag. -/
theorem OnDuty.tag_own (h : S.OnDuty G₀ k P w₀ t G) {n : String} (htag : P.tag = some n)
    {k' : AgentTask}
    {P' : Post String String} (hk' : S.posts t.world k' = some P') (hne : k' ≠ k)
    (htag' : P'.tag = some n) :
    G.alive P'.seat :=
  absurd (h.orderly.keeps.tag_inj hk' h.post htag' htag) hne

/-- While the seat is not there, the snapshot of the tag waits at home or is still to be taken. -/
theorem OnDuty.once (h : S.OnDuty G₀ k P w₀ t G) (hgoing : ¬ P.ending) (hempty : ¬ G.alive P.seat)
    {d n : String} (htag : P.tag = some n) (hhome : ∀ d', P.home d' → d' = d) :
    G.Unused S.Inside n ∨ ∃ x, G.owner x = some d ∧ G.name x = n := by
  by_cases hx : ∃ x, G.owner x = some d ∧ G.name x = n
  · exact .inr hx
  refine .inl fun x d' hx' hd' hname => hx ⟨x, ?_, hname⟩
  have hheld := h.orderly.keeps.kept h.post htag
  have hwaiting :=
    hheld.waiting x d' hx' hd' hname (hheld.unmarked hgoing x d' hx' hd' hname) hempty
  rw [hx', hhome d' hwaiting.1]

/-- The snapshot of the tag is taken, or is there. -/
theorem OnDuty.take (h : S.OnDuty G₀ k P w₀ t G) (hheld : P.held) (hgoing : ¬ P.ending)
    (hempty : ¬ G.alive P.seat) {d n : String} (hd : S.Inside d) (htag : P.tag = some n)
    (hhome : P.home d)
    (honly : ∀ d', P.home d' → d' = d) :
    S.Keeping G₀ k (.snapshot [snapPath d n]) t
      (Tracked.handle recordTaken (.snapshot [snapPath d n]) t).2 ∧
      ∃ G', S.OnDuty G₀ k P w₀ (Tracked.handle recordTaken (.snapshot [snapPath d n]) t).2 G' ∧
        ¬ G'.alive P.seat ∧
        ((World.handle (.snapshot [snapPath d n]) t.world).1 = .ok () →
          ∃ x, G'.owner x = some d ∧ G'.name x = n) := by
  have honce := h.once hgoing hempty htag honly
  obtain ⟨G', horderly, hthere, halive⟩ :=
    h.orderly.take h.post hd htag hheld hhome hgoing hempty honce
  exact ⟨.inr ⟨G, P, h.orderly, h.post, .take hd htag hheld hhome hgoing hempty honce⟩, G',
    ⟨horderly, h.post, h.datasets, h.snapshots, h.pools⟩, fun ha => hempty (halive.mp ha), hthere⟩

variable (hfails : ∀ e r, fails e r → e.fails r)

include hfails

/-! ## A volume -/

/-- The seat is there, unless there was an error. -/
def Filled (S : Site) (G₀ : CloneGraph String String) (k : AgentTask)
    (P : Post String String) (w₀ : World)
    (r : Except Err Unit) (t : Tracked Taken) : Prop :=
  ∃ G, S.OnDuty G₀ k P w₀ t G ∧ (r = .ok () → G.alive P.seat)

omit hfails in
theorem Filled.fail {e : Err} (h : S.OnDuty G₀ k P w₀ t G) : Filled S G₀ k P w₀ (.error e) t :=
  ⟨G, h, by rintro ⟨⟩⟩

theorem settle_wp {n : String} {X : ZfsDataset} {r : ZfsDatasetReconciler} {pool : ZfsPool}
    (hX : w₀.datasets.lookup n = some X) (hgoing : X.metadata.terminating = false)
    (h : S.OnDuty G₀ (.dataset n) (S.volumePost w₀ X) w₀ t G)
    (halive : G.alive (S.full X.spec.dataset)) :
    passWp recordTaken fails (S.Keeping G₀ (.dataset n)) (r.settle X pool (S.full X.spec.dataset))
      (fun _ _ => True) t := by
  have hstatus : ∀ {t : Tracked Taken}, S.OnDuty G₀ (.dataset n) (S.volumePost w₀ X) w₀ t G →
      ∀ phase volPath reason message creation, passWp recordTaken fails (S.Keeping G₀ (.dataset n))
        (do
          ZfsDatasetReconciler.setStatusAt X phase volPath reason message creation
          return ({} : Result)) (fun _ _ => True) t := by
    intro t h phase volPath reason message creation
    refine Proc.wp_bind
      (wp_mono ?_ (setStatusAt_pass hfails h.orderly (h.datasets ▸ hX) (.inl hgoing)
      (fun _ => halive) volPath reason message creation))
    rintro (e | ⟨⟩) _ _ <;> trivial
  refine groom_pass (ensureVolumeLabels_grooms X) h (fun _ t' h' => ?_) fun _ _ _ => trivial
  refine Proc.wp_outcome_bind (wp_mono ?_ (groom_wp (ensureSize_grooms X) h'))
  rintro (e | ⟨⟩) u hu
  · exact hstatus hu _ _ _ _ _
  · cases deriveVolumePath X.spec.type pool.status.baseMountPath pool.status.poolName
      X.spec.dataset with
    | error e => exact hstatus hu _ _ _ _ _
    | ok volPath =>
      split_ifs
      · refine groom_pass (Proc.map_calls ((snapshotCreationTime_reads _).mono fun _ => .read)) hu
          (fun creation v hv => hstatus hv _ _ _ _ _) fun _ _ _ => trivial
      · exact hstatus hu _ _ _ _ _

/-- The seat is cloned, as the last call. -/
theorem clone_wp (h : S.OnDuty G₀ k P w₀ t G) (hheld : P.held) {d n : String} (hd : S.Inside d)
    (htag : ∀ n', P.tag = some n' → n = n')
    (hother : ∀ {k' P'}, S.posts t.world k' = some P' → k' ≠ k → P'.tag = some n → G.alive P'.seat)
    {props : Props} (hrole : (FinMap.ofList props).lookup propRole = some k.role) :
    passWp recordTaken fails (S.Keeping G₀ k) (ask (.clone (snapPath d n) P.seat props))
      (fun r t' => ∃ G', S.OnDuty G₀ k P w₀ t' G' ∧ (r = .ok () → G'.alive P.seat) ∧
        G'.owner = G.owner ∧ G'.name = G.name) t := by
  obtain ⟨G', horderly, halive, howner, hname⟩ :=
    h.orderly.clone h.post hd hheld htag hother (FinMap.ofList props)
  refine last_pass hfails (.inr ⟨G, P, h.orderly, h.post, .clone hd hheld htag hother hrole⟩) ?_
    fun msg _ => ⟨G, h, by rintro ⟨⟩, rfl, rfl⟩
  exact ⟨G', ⟨horderly, h.post, h.datasets, h.snapshots, h.pools⟩, halive, howner, hname⟩

theorem cloneFromDataset_wp {n srcPath : String} {X : ZfsDataset}
    (h : S.OnDuty G₀ (.dataset n) (S.volumePost w₀ X) w₀ t G)
    (hheld : X.containsFinalizer zfsDatasetFinalizer = true)
    (hgoing : X.metadata.terminating = false)
    (hempty : ¬ G.alive (S.full X.spec.dataset))
    (hdirect : ZfsDatasetReconciler.isDirectClone X.spec.source = true)
    (hsrc : S.Spot srcPath) (hhome : ∀ d, S.cloneHome w₀ X d ↔ d = S.full srcPath) (props : Props) :
    passWp recordTaken fails (S.Keeping G₀ (.dataset n))
      (ZfsDatasetReconciler.cloneFromDataset X S.poolName srcPath (S.full X.spec.dataset)
        (mergeLabels props roleVolume (uidText X)))
      (Filled S G₀ (.dataset n) (S.volumePost w₀ X) w₀) t := by
  have htag : (S.volumePost w₀ X).tag = some (cloneTag X.name) := by simp [volumePost, hdirect]
  have hsnap : S.poolName ++ "/" ++ srcPath ++ "@clone-" ++ cloneSnapshotSuffix X.name =
      snapPath (S.full srcPath) (cloneTag X.name) := by
    rw [← snapPath_cloneTag, ← String.append_assoc]
    rfl
  have hsplit : (Memzfs.split (snapPath (S.full srcPath) (cloneTag X.name))).2.2 = true := by
    rw [split_snapPath hsrc.inside.plain]
  unfold ZfsDatasetReconciler.cloneFromDataset
  rw [hsnap]
  obtain ⟨hkeeping, G', h', hempty', hthere⟩ :=
    h.take hheld (by simp [volumePost, hgoing]) hempty hsrc.inside
    htag ((hhome _).mpr rfl) fun d => (hhome d).mp
  refine ask_pass hfails hkeeping (fun _ _ => ?_) (fun e _ => .fail h') fun msg _ => .fail h
  refine groom_pass (ensureLabels_grooms _ (.inl hsplit)) h' (fun _ u hu => ?_) fun e u
    hu => .fail hu
  refine wp_mono ?_ (clone_wp hfails hu hheld hsrc.inside (fun n' hn' => ?_) (hu.tag_own htag)
    (role_mergeLabels props roleVolume (uidText X)))
  · rintro r v ⟨H, hv, halive, _⟩
    exact ⟨H, hv, halive⟩
  · exact Option.some_inj.mp (htag.symm.trans hn')

/-- A snapshot inside the site whose own post, if it has one, has its seat. -/
def Clonable (S : Site) (t : Tracked Taken) (G : CloneGraph String String) (raw : String) : Prop :=
  ∃ d n, raw = snapPath d n ∧ S.Inside d ∧
    ∀ k P, S.posts t.world k = some P → P.tag = some n → G.alive P.seat

/-- A ZfsSnapshot that is Ready has its backing clone. -/
theorem resolveSnapshotRef_wp (h : S.Orderly G₀ t G) {X : ZfsDataset} (name : String) :
    passWp recordTaken fails (S.Keeping G₀ k)
      (ZfsDatasetReconciler.resolveSnapshotRef X S.poolName name)
      (fun r t' => t' = t ∧ ∀ raw, r = .ok raw → S.Clonable t G raw) t := by
  have hfail : ∀ e : Err, t = t ∧ ∀ raw, (.error e : Except Err String) = .ok raw →
      S.Clonable t G raw :=
    fun e => ⟨rfl, by rintro _ ⟨⟩⟩
  refine read_pass hfails keeping_reads rfl ?_ fun msg _ => hfail _
  simp only [World.handle, Store.get]
  cases hs : t.world.snapshots.lookup name with
  | none => exact hfail _
  | some s =>
    simp only
    split_ifs with hending hready hguid
    · exact hfail _
    · exact hfail _
    · exact hfail _
    have hfits := (h.roster.snapshot hs).2
    have hraw : snapshotFullName S.poolName s.spec.dataset s.spec.snapshotName =
        .ok (snapPath (S.full s.spec.dataset) s.spec.snapshotName) :=
      hfits.spot.snapshotFullName hfits.raw.1.1.1
    refine resolveDatasetPath_pass hfails keeping_reads ?_ fun msg _ => hfail _
    rw [h.roster.sourcePath_eq hs, hraw]
    refine liftExcept_pass ?_ (by rintro _ ⟨⟩)
    rintro _ ⟨⟩
    have hbacking : S.Inside (S.backing s) := hfits.backing.inside
    refine Proc.wp_bind
      (wp_mono ?_ (locateRawSnapshot_wp hfails h hbacking hfits.spot.inside hfits.raw.1.1))
    rintro (e | raw) t' ⟨rfl, hlocated, _⟩
    · exact hfail e
    obtain ⟨rfl, _⟩ | ⟨x, p, hx, hp, hname, rfl⟩ := hlocated raw rfl
    · exact hfail _
    simp only [if_neg (snapPath_ne_empty _ _)]
    refine ⟨rfl, ?_⟩
    rintro _ ⟨⟩
    refine ⟨p, s.spec.snapshotName, rfl, hp, fun k' P' hk' htag' => ?_⟩
    obtain rfl := h.keeps.tag_inj hk' (posts_snapshot hs) htag' rfl
    rw [posts_snapshot hs] at hk'
    obtain rfl := Option.some_inj.mp hk'
    refine (h.keeps.settled (posts_snapshot hs) ?_).resolve_right fun hdying => hending hdying.1
    exact hfits.ready.mp (not_not.mp hready)

theorem create_wp {n : String} {X : ZfsDataset} (hX : w₀.datasets.lookup n = some X)
    (h : S.OnDuty G₀ (.dataset n) (S.volumePost w₀ X) w₀ t G)
    (hheld : X.containsFinalizer zfsDatasetFinalizer = true)
    (hgoing : X.metadata.terminating = false)
    (hempty : ¬ G.alive (S.full X.spec.dataset)) :
    passWp recordTaken fails (S.Keeping G₀ (.dataset n))
      (ZfsDatasetReconciler.create X S.poolName (S.full X.spec.dataset))
      (Filled S G₀ (.dataset n) (S.volumePost w₀ X) w₀) t := by
  have hfits := (h.orderly.roster.volume (h.datasets ▸ hX)).2
  unfold ZfsDatasetReconciler.create
  cases hsource : X.spec.source with
  | none =>
    have htag : (S.volumePost w₀ X).tag = none := by
      simp [volumePost, hsource, ZfsDatasetReconciler.isDirectClone]
    cases X.spec.type with
    | filesystem =>
      obtain ⟨G', horderly, halive⟩ := h.orderly.create h.post htag hheld .filesystem 0
        (FinMap.ofList (mergeLabels (filesystemProps X) roleVolume (uidText X)))
      refine last_pass hfails
        (.inr ⟨G, _, h.orderly, h.post, .make htag hheld (role_mergeLabels _ _ _)⟩) ?_
        fun msg _ => .fail h
      exact ⟨G', ⟨horderly, h.post, h.datasets, h.snapshots, h.pools⟩, halive⟩
    | volume =>
      cases X.spec.volume with
      | none => exact .fail h
      | some v =>
        refine last_pass hfails
          (.inr ⟨G, _, h.orderly, h.post, .makeZvol htag hheld (role_mergeLabels _ _ _)⟩) ?_
          fun msg _ => .fail h
        show Filled S G₀ _ _ w₀ (t.world.mem.createZvol _ _ _).1
          ⟨{ t.world with mem := (t.world.mem.createZvol _ _ _).2 }, t.ghost⟩
        unfold Mem.createZvol
        split_ifs
        · exact .fail h
        · obtain ⟨G', horderly, halive⟩ := h.orderly.create h.post htag hheld .volume v.size
            (FinMap.ofList (mergeLabels (volumeProps X) roleVolume (uidText X)))
          exact ⟨G', ⟨horderly, h.post, h.datasets, h.snapshots, h.pools⟩, halive⟩
  | some src =>
    have hfitsSource := hfits.source
    rw [hsource] at hfitsSource
    cases src with
    | snapshot ref => exact absurd hfitsSource id
    | volume path =>
      have hdirect : ZfsDatasetReconciler.isDirectClone X.spec.source = true := by
        simp [hsource, ZfsDatasetReconciler.isDirectClone, hfitsSource.ne_empty]
      simp only [ZfsDatasetReconciler.clone, if_neg hfitsSource.ne_empty, hfitsSource.trimSlashes]
      exact cloneFromDataset_wp hfails h hheld hgoing hempty hdirect hfitsSource
        (fun d => by simp only [cloneHome, hsource]) _
    | zfsSnapshotRef name =>
      have htag : (S.volumePost w₀ X).tag = none := by
        simp [volumePost, hsource, ZfsDatasetReconciler.isDirectClone]
      refine Proc.wp_bind (wp_mono ?_ (resolveSnapshotRef_wp hfails h.orderly name))
      rintro (e | raw) t' ⟨rfl, hclonable⟩
      · exact .fail h
      obtain ⟨d, m, rfl, hd, hother⟩ := hclonable raw rfl
      refine wp_mono ?_ (clone_wp hfails h hheld hd (fun n' hn' => ?_) (fun hk' _ => hother _ _ hk')
        (role_mergeLabels _ _ _))
      · rintro r v ⟨H, hv, halive, _⟩
        exact ⟨H, hv, halive⟩
      · rw [htag] at hn'
        cases hn'
    | zfsDatasetRef name =>
      have hdirect : ZfsDatasetReconciler.isDirectClone X.spec.source = true := by
        simp [hsource, ZfsDatasetReconciler.isDirectClone]
      refine read_pass hfails keeping_reads rfl ?_ fun msg _ => .fail h
      simp only [World.handle, Store.get]
      cases hV : t.world.datasets.lookup name with
      | none => exact .fail h
      | some V =>
        have hspot := (h.orderly.roster.volume hV).2.spot
        simp only
        split_ifs
        · exact .fail h
        · exact .fail h
        rw [hspot.trimSlashes]
        refine cloneFromDataset_wp hfails h hheld hgoing hempty hdirect hspot (fun d => ?_) _
        simp only [cloneHome, hsource]
        rw [h.datasets] at hV
        constructor
        · rintro ⟨V', hV', hd⟩
          rw [hV] at hV'
          exact Option.some_inj.mp hV' ▸ hd
        · intro hd
          exact ⟨V, hV, hd⟩

/-- The pass of a volume that is not being deleted. -/
theorem ensure_volume_wp {n : String} {X : ZfsDataset} {r : ZfsDatasetReconciler} {pool : ZfsPool}
    (h : S.Orderly G₀ t G) (hX : t.world.datasets.lookup n = some X)
    (hheld : X.containsFinalizer zfsDatasetFinalizer = true)
    (hgoing : X.metadata.terminating = false)
    (hpool : pool.status.poolName = S.poolName) :
    passWp recordTaken fails (S.Keeping G₀ (.dataset n)) (r.ensure X pool) (fun _ _ => True) t := by
  have hspot := (h.roster.volume hX).2.spot
  have hduty : S.OnDuty G₀ (.dataset n) (S.volumePost t.world X) t.world t G :=
    ⟨h, posts_dataset hX, rfl, rfl, rfl⟩
  have hstatus : ∀ {t' : Tracked Taken} {G' : CloneGraph String String},
      S.OnDuty G₀ (.dataset n) (S.volumePost t.world X) t.world t' G' → ∀ phase, phase ≠ .ready →
      ∀ volPath reason message (result : Result), passWp recordTaken fails
        (S.Keeping G₀ (.dataset n))
        (do
          ZfsDatasetReconciler.setStatus X phase volPath reason message
          return result) (fun _ _ => True) t' := by
    intro t' G' h' phase hphase volPath reason message result
    refine Proc.wp_bind
      (wp_mono ?_ (setStatusAt_pass hfails h'.orderly (h'.datasets ▸ hX) (.inl hgoing)
      (fun hready => absurd hready hphase) volPath reason message none))
    rintro (e | ⟨⟩) _ _ <;> trivial
  unfold ZfsDatasetReconciler.ensure
  rw [hpool, hspot.datasetName]
  refine read_pass hfails keeping_reads rfl ?_ fun msg _ => hstatus hduty _ (by simp) _ _ _ _
  simp only [World.handle]
  obtain ⟨hdead, hget⟩ | ⟨D, hD, hget⟩ := h.represents.get_cases hspot.inside.plain "type"
  swap
  · rw [hget]
    exact settle_wp hfails hX hgoing hduty (h.represents.alive.mpr (by rw [hD]; rfl))
  rw [hget]
  simp only [Err.isNotExist, if_true]
  unfold ZfsDatasetReconciler.provision
  split_ifs
  · exact hstatus hduty _ (by simp) _ _ _ _
  · trivial
  rw [hpool]
  refine Proc.wp_outcome_bind (wp_mono ?_ (create_wp hfails hX hduty hheld hgoing hdead))
  rintro (e | ⟨⟩) t' ⟨G', h', halive⟩
  · simp only
    split_ifs
    · exact hstatus h' _ (by simp) _ _ _ _
    · exact hstatus h' _ (by simp) _ _ _ _
  refine Proc.wp_outcome_bind (wp_mono ?_ (groom_wp (applyRootOwnership_grooms X _ _) h'))
  rintro (e | ⟨⟩) u hu
  · exact hstatus hu _ (by simp) _ _ _ _
  · exact settle_wp hfails hX hgoing hu (halive rfl)

/-! ## A snapshot -/

/-- The raw snapshot is on the source. -/
def OnSource (S : Site) (G : CloneGraph String String) (s : ZfsSnapshot) : Prop :=
  ∃ x, G.owner x = some (S.full s.spec.dataset) ∧ G.name x = s.spec.snapshotName

/-- The status of a snapshot that has not been Ready is written: Ready is set of what is pinned. -/
theorem setSnapshotStatus_wp {n : String} {s : ZfsSnapshot} (hs : w₀.snapshots.lookup n = some s)
    (h : S.OnDuty G₀ (.snapshot n) (S.snapshotPost s) w₀ t G)
    (hgoing : s.metadata.terminating = false)
    (hunready : s.status.provisionedAt = none) {phase : SnapshotPhase}
    {creation : Option SnapshotTime}
    (hpinned : phase = .ready → G.alive (S.backing s) ∧ S.OnSource G s ∧ creation.map (·.snapshot) =
      some (snapPath (S.full s.spec.dataset) s.spec.snapshotName))
    (ready : Bool) (restore : Option Nat) (reason message : String) (result : Result) :
    passWp recordTaken fails (S.Keeping G₀ (.snapshot n)) (do
      ZfsSnapshotReconciler.setSnapshotStatus s phase ready creation restore reason message
      return result) (fun _ _ => True) t := by
  have hlookup : t.world.snapshots.lookup n = some s := h.snapshots ▸ hs
  obtain ⟨rfl, hfits⟩ := h.orderly.roster.snapshot hlookup
  have hpatch : ∀ status :
      ZfsSnapshotStatus, (status.phase = some .ready ↔ status.provisionedAt.isSome = true) →
      (status.phase = some .ready → phase = .ready) →
        (phase = .ready → status.creationTime = creation) →
      passWp recordTaken fails (S.Keeping G₀ (.snapshot s.name))
        (ask (.patchSnapshotStatus s.name s.status status)) (fun _ _ => True) t := by
    intro status hready hphase hcreation
    refine last_pass hfails
      (.inr ⟨G, _, h.orderly, h.post, .patchSnapshot rfl hlookup hgoing hunready hready
      fun hr => ?_⟩) trivial fun _ _ => trivial
    obtain ⟨halive, hsource, htime⟩ := hpinned (hphase hr)
    exact ⟨halive, hsource, by rw [hcreation (hphase hr), htime]⟩
  have hsome : phase = .ready → ∃ at', creation = some at' := by
    intro hr
    obtain ⟨at', hat, _⟩ := Option.map_eq_some_iff.mp (hpinned hr).2.2
    exact ⟨at', hat⟩
  refine Proc.wp_bind
    (wp_mono (Q := fun _ _ => True) ?_ (stamp_pass hfails keeping_reads (fun hc now => ?_)
    (fun hc => ?_) fun _ _ => trivial))
  · rintro (e | ⟨⟩) _ _ <;> trivial
  · refine hpatch _ (by simp [hc.1]) (fun _ => hc.1) fun hr => ?_
    obtain ⟨at', rfl⟩ := hsome hr
    rfl
  · have hne : phase ≠ .ready := fun hr => hc ⟨hr, hunready⟩
    exact hpatch _ (by simp [hne, hunready]) (fun hr => Option.some_inj.mp hr)
      fun hr => absurd hr hne

/-- The backing clone is there, of the raw snapshot on the source. -/
theorem becomeReady_wp {n : String} {s : ZfsSnapshot} {r : ZfsSnapshotReconciler}
    (hs : w₀.snapshots.lookup n = some s)
    (h : S.OnDuty G₀ (.snapshot n) (S.snapshotPost s) w₀ t G)
    (hgoing : s.metadata.terminating = false)
    (hunready : s.status.provisionedAt = none)
    (halive : G.alive (S.backing s)) (hsource : S.OnSource G s) :
    passWp recordTaken fails (S.Keeping G₀ (.snapshot n))
      (r.becomeReady s (snapPath (S.full s.spec.dataset) s.spec.snapshotName) (S.backing s))
      (fun _ _ => True) t := by
  unfold ZfsSnapshotReconciler.becomeReady
  refine groom_pass (ensureLabels_grooms _ (.inr ⟨rfl, rfl⟩)) h (fun _ u hu => ?_) fun _
    _ _ => trivial
  refine groom_pass ((snapshotCreationTime_reads _).mono fun _ => .read) hu
    (fun creation v hv => ?_)
    fun _ _ _ => trivial
  refine groom_pass ((snapshotRestoreSize_reads _).mono fun _ => .read) hv (fun restore w hw => ?_)
    fun _ _ _ => trivial
  exact setSnapshotStatus_wp hfails hs hw hgoing hunready
    (fun _ => ⟨halive, hsource, rfl⟩) _ _ _ _ _

/-- The raw snapshot is on the source. -/
theorem pin_wp {n : String} {s : ZfsSnapshot} {r : ZfsSnapshotReconciler} {pool : ZfsPool}
    (hs : w₀.snapshots.lookup n = some s)
    (h : S.OnDuty G₀ (.snapshot n) (S.snapshotPost s) w₀ t G)
    (hgoing : s.metadata.terminating = false)
    (hheld : s.containsFinalizer zfsSnapshotFinalizer = true)
    (hunready : s.status.provisionedAt = none)
    (hpool : pool.status.poolName = S.poolName) (hsource : S.OnSource G s) :
    passWp recordTaken fails (S.Keeping G₀ (.snapshot n))
      (r.pin s pool s.spec.dataset (snapPath (S.full s.spec.dataset) s.spec.snapshotName))
        (fun _ _ => True) t := by
  have hfits := (h.orderly.roster.snapshot (h.snapshots ▸ hs)).2
  have hsplit :
      (Memzfs.split (snapPath (S.full s.spec.dataset) s.spec.snapshotName)).2.2 = true := by
    rw [split_snapPath hfits.spot.inside.plain]
  have hbacking : datasetName S.poolName (backingDataset s.spec.dataset s.spec.snapshotName) =
      .ok (S.backing s) := hfits.backing.datasetName
  have herror : ∀ {t' : Tracked Taken} {G' : CloneGraph String String},
      S.OnDuty G₀ (.snapshot n) (S.snapshotPost s) w₀ t' G' → ∀ reason message,
      passWp recordTaken fails (S.Keeping G₀ (.snapshot n))
        (ZfsSnapshotReconciler.setError s reason message)
        (fun _ _ => True) t' :=
    fun h' reason message => setSnapshotStatus_wp hfails hs h' hgoing hunready
      (by rintro ⟨⟩) _ _ _ _ _
  unfold ZfsSnapshotReconciler.pin
  refine groom_pass (ensureLabels_grooms _ (.inl hsplit)) h (fun _ u hu => ?_) fun _ _ _ => trivial
  unfold ZfsSnapshotReconciler.reconcileBackingClone
  rw [hpool, hbacking]
  cases s.spec.sourceType with
  | none => exact herror hu _ _
  | some sourceType =>
    refine read_pass hfails keeping_reads rfl ?_ fun msg _ => herror hu _ _
    simp only [World.handle]
    have hplain : Plain (S.backing s) := hfits.backing.inside.plain
    obtain ⟨_, hget⟩ | ⟨D, hD, hget⟩ := hu.orderly.represents.get_cases hplain "type"
    · rw [hget]
      simp only [Err.isNotExist, if_true]
      refine Proc.wp_outcome_bind
        (wp_mono ?_ (clone_wp hfails hu hheld hfits.spot.inside (fun n' hn' => ?_)
        (hu.tag_own rfl) (role_mergeLabels _ _ _)))
      · rintro (e | ⟨⟩) v ⟨H, hv, halive, howner, hname⟩
        · exact herror hv _ _
        · refine becomeReady_wp hfails hs hv hgoing hunready (halive rfl) ?_
          unfold OnSource
          rw [howner, hname]
          exact hsource
      · exact Option.some_inj.mp hn'
    · rw [hget]
      exact becomeReady_wp hfails hs hu hgoing hunready
        (hu.orderly.represents.alive.mpr (by rw [hD]; rfl)) hsource

/-- A snapshot that has been Ready is found. -/
theorem reconcileSettled_wp {n : String} {s : ZfsSnapshot} {pool : ZfsPool} (h : S.Orderly G₀ t G)
    (hs : t.world.snapshots.lookup n = some s) (hgoing : s.metadata.terminating = false)
    (hready : s.status.provisionedAt.isSome = true) (hpool : pool.status.poolName = S.poolName) :
    passWp recordTaken fails (S.Keeping G₀ (.snapshot n))
      (ZfsSnapshotReconciler.reconcileSettled s pool s.spec.dataset) (fun _ _ => True) t := by
  have hfits := (h.roster.snapshot hs).2
  have hraw : snapshotFullName S.poolName s.spec.dataset s.spec.snapshotName =
      .ok (snapPath (S.full s.spec.dataset) s.spec.snapshotName) :=
    hfits.spot.snapshotFullName hfits.raw.1.1.1
  have hpost := posts_snapshot (S := S) hs
  have hnotEnding : ¬ (S.snapshotPost s).ending := by simp [snapshotPost, hgoing]
  have halive : G.alive (S.backing s) :=
    (h.keeps.settled hpost hready).resolve_right fun hdying => hnotEnding hdying.1
  obtain ⟨x, hlinked, hname⟩ := (h.keeps.kept hpost rfl).backed hnotEnding halive
  unfold ZfsSnapshotReconciler.reconcileSettled
  rw [hpool, hraw]
  have hbacking : S.Inside (S.backing s) := hfits.backing.inside
  refine Proc.wp_bind
    (wp_mono ?_ (locateRawSnapshot_wp hfails h hbacking hfits.spot.inside hfits.raw.1.1))
  rintro (e | raw) t' ⟨rfl, hlocated, _⟩
  · trivial
  obtain ⟨rfl, hnone⟩ | ⟨y, p, _, _, _, rfl⟩ := hlocated raw rfl
  · exact absurd hlinked (hnone x hname).1
  · simp only [ne_eq, snapPath_ne_empty, not_false_eq_true, if_true, hfits.ready.mpr hready]
    trivial

/-- The pass of a snapshot that is not being deleted. While it has not been Ready, its backing clone
is there only with the raw snapshot on the source. -/
theorem ensure_snapshot_wp {n : String} {s : ZfsSnapshot} {r : ZfsSnapshotReconciler}
    {pool : ZfsPool}
    (h : S.Orderly G₀ t G) (hs : t.world.snapshots.lookup n = some s)
    (hheld : s.containsFinalizer zfsSnapshotFinalizer = true)
    (hgoing : s.metadata.terminating = false)
    (hpool : pool.status.poolName = S.poolName)
    (hpinned : s.status.provisionedAt = none → G.alive (S.backing s) → S.OnSource G s) :
    passWp recordTaken fails (S.Keeping G₀ (.snapshot n)) (r.ensure s pool)
      (fun _ _ => True) t := by
  have hfits := (h.roster.snapshot hs).2
  have hduty : S.OnDuty G₀ (.snapshot n) (S.snapshotPost s) t.world t G :=
    ⟨h, posts_snapshot hs, rfl, rfl, rfl⟩
  have hraw : snapshotFullName S.poolName s.spec.dataset s.spec.snapshotName =
      .ok (snapPath (S.full s.spec.dataset) s.spec.snapshotName) :=
    hfits.spot.snapshotFullName hfits.raw.1.1.1
  unfold ZfsSnapshotReconciler.ensure
  refine resolveDatasetPath_pass hfails keeping_reads ?_ fun msg _ => trivial
  rw [h.roster.sourcePath_eq hs]
  split_ifs with hprovisioned
  · exact reconcileSettled_wp hfails h hs hgoing hprovisioned hpool
  have hunready : s.status.provisionedAt = none := by simpa using hprovisioned
  have herror : ∀ {t' : Tracked Taken} {G' : CloneGraph String String},
      S.OnDuty G₀ (.snapshot n) (S.snapshotPost s) t.world t' G' → ∀ reason message,
      passWp recordTaken fails (S.Keeping G₀ (.snapshot n))
        (ZfsSnapshotReconciler.setError s reason message)
        (fun _ _ => True) t' :=
    fun h' reason message => setSnapshotStatus_wp hfails hs h' hgoing hunready
      (by rintro ⟨⟩) _ _ _ _ _
  unfold ZfsSnapshotReconciler.provision
  rw [hpool, hraw]
  refine read_pass hfails keeping_reads rfl ?_ fun msg _ => herror hduty _ _
  simp only [World.handle]
  obtain ⟨hget, hnone⟩ | ⟨x, v, hx, hname, hget⟩ :=
    h.represents.get_snap_cases hfits.spot.inside.plain s.spec.snapshotName "type"
  swap
  · rw [hget]
    exact pin_wp hfails hs hduty hgoing hheld hunready hpool ⟨x, hx, hname⟩
  rw [hget]
  simp only [Err.isNotExist, if_true]
  -- the raw snapshot is not on the source, so the backing clone is not there and it may be taken
  have hempty : ¬ G.alive (S.backing s) := by
    intro halive
    obtain ⟨x, hx, hname⟩ := hpinned hunready halive
    exact hnone x hx hname
  unfold ZfsSnapshotReconciler.takeRaw
  refine resolveDatasetPath_pass hfails keeping_reads ?_ fun msg _ => trivial
  rw [h.roster.sourcePath_eq hs, if_neg (not_not.mpr rfl)]
  split_ifs
  · exact herror hduty _ _
  obtain ⟨hkeeping, G', h', _, hthere⟩ := hduty.take hheld (by simp [snapshotPost, hgoing]) hempty
    hfits.spot.inside rfl rfl fun d => id
  refine outcome_pass hfails hkeeping ?_ fun msg _ => herror hduty _ _
  cases hanswer :
    (World.handle (.snapshot [snapPath (S.full s.spec.dataset) s.spec.snapshotName]) t.world).1 with
  | error e => exact herror h' _ _
  | ok u => exact pin_wp hfails hs h' hgoing hheld hunready hpool (hthere hanswer)

end Site

end SimpleZfsCsi.Agent
