import SimpleZfsCsi.Agent.Detaching

/-!
# Deleting an object of an orderly site

A pass for an object that is being deleted releases its tag, detaches what depends on its seat,
destroys the seat and lets the object go. Every call on the way is one of the moves; the pass
ends with an error only where a call failed or the seat had too many snapshots.
-/

namespace SimpleZfsCsi.Agent

open Library Api Memzfs Text Program

namespace Site

variable {S : Site} {G₀ G : CloneGraph String String} {k : AgentTask} {P : Post String String}
  {w₀ : World} {t : Tracked Taken} {fails : (e : AgentCall) → e.Ret → Prop} {β : Type}
  {Q : Except Err β → Tracked Taken → Prop}

variable (hfails : ∀ e r, fails e r → e.fails r)

include hfails

/-! ## Finding a raw snapshot -/

/-- Whether a snapshot exists. -/
theorem existsZFS_pass (h : S.Orderly G₀ t G) {d n : String} (hd : S.Inside d)
    {f : Bool → AgentProc β}
    (hfree : (∀ x, G.owner x = some d → G.name x ≠ n) →
      passWp recordTaken fails (S.Keeping G₀ k) (f false) Q t)
    (hfound : ∀ x, G.owner x = some d → G.name x = n →
      passWp recordTaken fails (S.Keeping G₀ k) (f true) Q t)
    (herror : ∀ msg, Failing fails → Q (.error (.other msg)) t) :
    passWp recordTaken fails (S.Keeping G₀ k) (existsZFS (snapPath d n) >>= f) Q t := by
  refine Proc.wp_bind
    (read_pass hfails keeping_reads rfl ?_ fun msg hmsg => herror msg ⟨_, _, hmsg⟩)
  simp only [World.handle]
  obtain ⟨hget, hnone⟩ | ⟨x, v, hx, hname, hget⟩ := h.represents.get_snap_cases hd.plain n "type"
  · rw [hget]
    exact hfree hnone
  · rw [hget]
    exact hfound x hx hname

/-- What `locateRawSnapshot` finds: a snapshot of the name, and the one the seat holds if there is
one, or the one that still waits on its source. -/
def Located (S : Site) (G : CloneGraph String String) (seat home n raw : String) : Prop :=
  (raw = "" ∧ ∀ x, G.name x = n → ¬ G.Linked seat x ∧ G.owner x ≠ some home) ∨
    ∃ x p, G.owner x = some p ∧ S.Inside p ∧ G.name x = n ∧ raw = snapPath p n

/-- A read ended with an answer, or because it failed. -/
def Answers {α : Type}
    (fails : (e : AgentCall) → e.Ret → Prop) (t : Tracked Taken) (answer : α → Prop)
    (r : Except Err α) (t' : Tracked Taken) : Prop :=
  t' = t ∧ (∀ a, r = .ok a → answer a) ∧ ∀ e, r = .error e → Failing fails ∧ ∃ msg, e = .other msg

omit hfails in
theorem Answers.ok {α : Type} {answer : α → Prop} {a : α} (h : answer a) :
    Answers fails t answer (.ok a) t :=
  ⟨rfl, by rintro _ ⟨⟩; exact h, by rintro _ ⟨⟩⟩

omit hfails in
theorem Answers.fail {α : Type} {answer : α → Prop} (msg : String) (h : Failing fails) :
    Answers fails t answer (.error (.other msg)) t :=
  ⟨rfl, by rintro _ ⟨⟩, by rintro _ ⟨⟩; exact ⟨h, msg, rfl⟩⟩

theorem locateRawSnapshot_wp (h : S.Orderly G₀ t G) {seat home n : String} (hseat : S.Inside seat)
    (hhome : S.Inside home) (hn : Tidy n) :
    passWp recordTaken fails (S.Keeping G₀ k) (locateRawSnapshot seat (snapPath home n) n)
      (Answers fails t (S.Located G seat home n)) t := by
  -- after the origin come the seat and the source
  have hothers : (∀ x, G.origin seat = some x → G.name x ≠ n) →
      passWp recordTaken fails (S.Keeping G₀ k) (firstExisting [seat ++ "@" ++ n, snapPath home n])
        (Answers fails t (S.Located G seat home n)) t := by
    intro horigin
    refine existsZFS_pass hfails h hseat (fun hnone => ?_) (fun x hx hname => ?_) .fail
    · refine existsZFS_pass hfails h hhome (fun hnone' => ?_) (fun x hx hname => ?_) .fail
      · refine .ok (.inl ⟨rfl, fun x hname => ⟨?_, fun hx => hnone' x hx hname⟩⟩)
        rintro (hx | hx)
        · exact horigin x hx hname
        · exact hnone x hx hname
      · exact .ok (.inr ⟨x, home, hx, hhome, hname, rfl⟩)
    · exact .ok (.inr ⟨x, seat, hx, hseat, hname, rfl⟩)
  refine read_pass hfails keeping_reads rfl ?_ fun msg hmsg => .fail msg ⟨_, _, hmsg⟩
  simp only [World.handle]
  obtain ⟨hdead, hget⟩ | ⟨_, hnone, hget⟩ | ⟨x, p, horigin, howner, hget⟩ :=
    h.represents.get_origin_cases hseat.plain
  · rw [hget]
    simp only [Err.isNotExist, if_true]
    exact hothers fun x hx => absurd (G.origin_alive hx) hdead
  · rw [hget]
    simp only [endsWith_dash, Bool.false_eq_true, if_false]
    refine hothers fun x hx => ?_
    rw [hnone] at hx
    cases hx
  · have hp : S.Inside p := (h.keeps.closed seat x p horigin howner).mp hseat
    have hx : Tidy (G.name x) := (h.keeps.named howner hp).1
    rw [hget]
    simp only [trimSpace_snapPath hp hx, endsWith_snapPath hx hn]
    split_ifs with hname
    · refine existsZFS_pass hfails h hp (fun hfree => absurd rfl (hfree x howner))
        (fun _ _ _ => ?_) .fail
      exact .ok (.inr ⟨x, p, howner, hp, hname, by rw [hname]⟩)
    · refine hothers fun y hy => ?_
      rw [horigin] at hy
      exact Option.some_inj.mp hy ▸ hname

/-! ## Releasing the tag -/

/-- The tag of the post has been released, or a call failed. -/
def TagReleased (S : Site) (G₀ : CloneGraph String String) (k : AgentTask) (P : Post String String)
    (w₀ : World)
    (fails : (e : AgentCall) → e.Ret → Prop) (count : Nat) {α : Type} (r : Except Err α)
    (t : Tracked Taken) : Prop :=
  ∃ G, S.OnDuty G₀ k P w₀ t G ∧ G.count P.seat ≤ count ∧ (∀ a, r = .ok a → G.Dying S.Inside P) ∧
    ∀ e, r = .error e → Failing fails ∧ e.isRefusal = false

omit hfails in
theorem TagReleased.fail {α : Type} (h : S.OnDuty G₀ k P w₀ t G) (hfailing : Failing fails)
    (msg : String) :
    TagReleased S G₀ k P w₀ fails (G.count P.seat) (α := α) (.error (.other msg)) t :=
  ⟨G, h, Nat.le_refl _, by rintro _ ⟨⟩, by rintro _ ⟨⟩; exact ⟨hfailing, rfl⟩⟩

omit hfails in
theorem TagReleased.stay {α : Type} (h : S.OnDuty G₀ k P w₀ t G)
    (hdying : G.Dying S.Inside P) (a : α) :
    TagReleased S G₀ k P w₀ fails (G.count P.seat) (.ok a) t :=
  ⟨G, h, Nat.le_refl _, fun _ _ => hdying, by rintro _ ⟨⟩⟩

/-- `destroy -d` of the snapshot of the tag, as the last call. -/
theorem mark_wp (h : S.OnDuty G₀ k P w₀ t G) (hending : P.ending) {d n : String} (hd : S.Inside d)
    (htag : P.tag = some n) {x : Nat} (hx : G.owner x = some d) (hname : G.name x = n) :
    passWp recordTaken fails (S.Keeping G₀ k) (ask (.destroySnapshotDeferred (snapPath d n)))
      (TagReleased S G₀ k P w₀ fails (G.count P.seat)) t := by
  obtain ⟨hanswer, G', horderly, hcount, hdying⟩ := h.orderly.mark h.post hd hending htag
  have hanswer : (World.handle (.destroySnapshotDeferred (snapPath d n)) t.world).1 =
      .ok () := hanswer
  refine last_pass hfails (.inr ⟨G, P, h.orderly, h.post, .mark hd hending htag⟩) ?_
    fun msg hmsg => .fail h ⟨_, _, hmsg⟩ msg
  rw [hanswer]
  exact ⟨G', ⟨horderly, h.post, h.datasets, h.snapshots, h.pools⟩, hcount,
    fun _ _ => hdying ⟨x, hx, hname⟩, by rintro _ ⟨⟩⟩

theorem releaseRaw_wp {n : String} {s : ZfsSnapshot} (hfits : S.FitsSnapshot s)
    (hending : s.metadata.terminating = true)
    (h : S.OnDuty G₀ (.snapshot n) (S.snapshotPost s) w₀ t G) :
    passWp recordTaken fails (S.Keeping G₀ (.snapshot n))
      (ZfsSnapshotReconciler.releaseRaw s (S.backing s)
        (snapPath (S.full s.spec.dataset) s.spec.snapshotName))
      (TagReleased S G₀ (.snapshot n) (S.snapshotPost s) w₀ fails (G.count (S.backing s))) t := by
  have htag : (S.snapshotPost s).tag = some s.spec.snapshotName := rfl
  refine Proc.wp_bind (wp_mono ?_ (locateRawSnapshot_wp hfails h.orderly hfits.backing.inside
    hfits.spot.inside hfits.raw.1.1))
  rintro (e | raw) t' ⟨rfl, hraw, herror⟩
  · obtain ⟨hfailing, msg, rfl⟩ := herror e rfl
    exact .fail h hfailing msg
  obtain ⟨rfl, hnone⟩ | ⟨x, p, hx, hp, hname, rfl⟩ := hraw raw rfl
  · simp only [if_true]
    -- what is not marked is linked to the backing clone, or waits on the source
    refine .stay h ⟨hending, fun n' hn' x d hx hd hname => ?_⟩ _
    obtain rfl := Option.some_inj.mp (htag.symm.trans hn')
    by_contra hm
    obtain ⟨hlinked, hhome⟩ := hnone x hname
    have hheld := h.orderly.keeps.kept h.post htag
    by_cases halive : G.alive (S.backing s)
    · exact hlinked (hheld.linked x d hx hd hname hm halive)
    · exact hhome ((hheld.waiting x d hx hd hname hm halive).1 ▸ hx)
  · simp only [if_neg (snapPath_ne_empty _ _)]
    exact mark_wp hfails h hending hp htag hx hname

omit hfails in
theorem snapPath_cloneTag (d name : String) :
    d ++ ("@clone-" ++ cloneSnapshotSuffix name) = snapPath d (cloneTag name) := by
  rw [← String.toList_inj]
  simp [snapPath, cloneTag, cloneSnapshotSuffix]

omit hfails in
theorem suffix_cloneTag (name : String) : "@clone-" ++ cloneSnapshotSuffix name = "@" ++
    cloneTag name := by
  rw [← String.toList_inj]
  simp [cloneTag, cloneSnapshotSuffix]

/-- The snapshot a volume was directly cloned from is released, if the volume is there or nothing
has to be released. -/
theorem releaseCloneOrigin_wp {n : String} {X : ZfsDataset} (hfits : S.FitsVolume X)
    (hending : X.metadata.terminating = true)
    (h : S.OnDuty G₀ (.dataset n) (S.volumePost w₀ X) w₀ t G)
    (hsettled : G.alive (S.full X.spec.dataset) ∨ G.Dying S.Inside (S.volumePost w₀ X)) :
    passWp recordTaken fails (S.Keeping G₀ (.dataset n))
      (ZfsDatasetReconciler.releaseCloneOrigin X (S.full X.spec.dataset))
      (TagReleased S G₀ (.dataset n) (S.volumePost w₀ X) w₀ fails (G.count (S.full X.spec.dataset)))
        t := by
  unfold ZfsDatasetReconciler.releaseCloneOrigin
  by_cases hdirect : ZfsDatasetReconciler.isDirectClone X.spec.source = true
  swap
  · rw [if_neg hdirect]
    refine .stay h ⟨hending, fun n' hn' => ?_⟩ _
    simp [volumePost, hdirect] at hn'
  have htag : (S.volumePost w₀ X).tag = some (cloneTag X.name) := by simp [volumePost, hdirect]
  have hin : S.Inside (S.full X.spec.dataset) := hfits.spot.inside
  have hdriver := cloneTag_driver hfits.name
  rw [if_pos hdirect]
  simp only [suffix_cloneTag]
  generalize hsnap : S.full X.spec.dataset ++ ("@clone-" ++ cloneSnapshotSuffix X.name) = snap
  rw [snapPath_cloneTag] at hsnap
  subst hsnap
  refine read_pass hfails keeping_reads rfl ?_ fun msg hmsg => .fail h ⟨_, _, hmsg⟩ msg
  simp only [World.handle]
  obtain ⟨hget, hnone⟩ | ⟨x, v, hx, hname, hget⟩ :=
    h.orderly.represents.get_snap_cases hin.plain (cloneTag X.name) "type"
  swap
  · rw [hget]
    exact mark_wp hfails h hending hin htag hx hname
  rw [hget]
  simp only [Err.isNotExist, if_true]
  -- it is not on the volume: if the volume is there and it is not marked, it is the origin
  have hheld := h.orderly.keeps.kept h.post htag
  have horigin : G.alive (S.full X.spec.dataset) →
      (∀ x, G.origin (S.full X.spec.dataset) = some x → G.name x ≠ cloneTag X.name) →
      G.Dying S.Inside (S.volumePost w₀ X) := by
    refine fun halive hother => ⟨hending, fun n' hn' x d hx hd hname => ?_⟩
    obtain rfl := Option.some_inj.mp (htag.symm.trans hn')
    by_contra hm
    rcases hheld.linked x d hx hd hname hm halive with ho | ho
    · exact hother x ho hname
    · exact hnone x ho hname
  refine read_pass hfails keeping_reads rfl ?_ fun msg hmsg => .fail h ⟨_, _, hmsg⟩ msg
  simp only [World.handle]
  obtain ⟨hdead, hget⟩ | ⟨halive, ho, hget⟩ | ⟨x, p, ho, hx, hget⟩ :=
    h.orderly.represents.get_origin_cases hin.plain
  · rw [hget]
    exact .stay h (hsettled.resolve_left hdead) _
  · rw [hget]
    simp only [endsWith_dash, Bool.false_eq_true, if_false]
    refine .stay h (horigin halive fun x hx => ?_) _
    rw [ho] at hx
    cases hx
  · have hp : S.Inside p := (h.orderly.keeps.closed _ x p ho hx).mp hin
    have htidy : Tidy (G.name x) := (h.orderly.keeps.named hx hp).1
    rw [hget]
    simp only
    generalize hraw : trimSpace (snapPath p (G.name x)) = raw
    rw [trimSpace_snapPath hp htidy] at hraw
    subst hraw
    simp only [endsWith_snapPath htidy hdriver.1]
    split_ifs with hname
    · exact mark_wp hfails h hending hp (htag.trans (congrArg some hname.symm)) hx rfl
    · refine .stay h (horigin (G.origin_alive ho) fun y hy => ?_) _
      rw [ho] at hy
      exact Option.some_inj.mp hy ▸ hname

/-! ## Writing the status -/

omit hfails in
/-- A volume whose status was written. -/
structure Reported (X X' : ZfsDataset) (phase : DatasetPhase) : Prop where
  spec : X'.spec = X.spec
  metadata : X'.metadata = X.metadata
  reported : X'.status.phase = some phase
  provisioned : datasetProvisioned X' = true ↔ datasetProvisioned X = true ∨ phase = .ready

/-- The status was written, or the write failed. -/
def VolumeReported (S : Site) (G₀ : CloneGraph String String) (n : String) (X : ZfsDataset)
    (phase : DatasetPhase) (fails : (e : AgentCall) → e.Ret → Prop) (t : Tracked Taken)
    (G : CloneGraph String String) (r : Except Err Unit) (t' : Tracked Taken) : Prop :=
  (∃ X', Reported X X' phase ∧ r = .ok () ∧ t' = withDatasets t (t.world.datasets.put n X') ∧
      S.Orderly G₀ t' G) ∨
    ∃ msg, r = .error (.other msg) ∧ t' = t ∧ Failing fails

theorem setStatusAt_pass {n : String} {X : ZfsDataset} (h : S.Orderly G₀ t G)
    (hX : t.world.datasets.lookup n = some X)
    (hstays : X.metadata.terminating = false ∨ X.containsFinalizer zfsDatasetFinalizer = true)
    {phase : DatasetPhase} (hready : phase = .ready → G.alive (S.full X.spec.dataset))
    (volPath reason message : String) (creation : Option Nat) :
    passWp recordTaken fails (S.Keeping G₀ (.dataset n))
      (ZfsDatasetReconciler.setStatusAt X phase volPath reason message creation)
      (VolumeReported S G₀ n X phase fails t G) t := by
  obtain ⟨rfl, hfits⟩ := h.roster.volume hX
  have hpatch : ∀ status : ZfsDatasetStatus, status.phase = some phase →
      (status.provisionedAt.isSome = true ↔ datasetProvisioned X = true ∨ phase = .ready) →
      passWp recordTaken fails (S.Keeping G₀ (.dataset X.name))
        (ask (.patchDatasetStatus X.name X.status status))
          (VolumeReported S G₀ X.name X phase fails t G) t := by
    intro status hphase hprovisioned
    have hdone : status.provisionedAt.isSome = true →
        datasetProvisioned X = true ∨ G.alive (S.full X.spec.dataset) :=
      fun hsome => (hprovisioned.mp hsome).imp id hready
    have horderly := h.patchDataset hX hstays hdone
    refine last_pass hfails (.inr ⟨G, _, h, posts_dataset hX, .patchDataset rfl hX hstays hdone
      fun hprov => hprovisioned.mpr (.inl hprov)⟩) ?_ fun msg hmsg => .inr
        ⟨msg, rfl, rfl, ⟨_, _, hmsg⟩⟩
    refine .inl ⟨{ X with status }, ⟨rfl, rfl, hphase, hprovisioned⟩, ?_⟩
    simp only [Store.patchStatus, hX, mergeDataset_self] at horderly
    simp only [World.handle, Tracked.handle, Store.patchStatus, hX, mergeDataset_self]
    exact ⟨trivial, rfl, horderly⟩
  refine stamp_pass hfails keeping_reads (fun hc now => ?_) (fun hc => ?_)
    fun msg hfailing => .inr ⟨msg, rfl, rfl, hfailing⟩
  · exact hpatch _ rfl ⟨fun _ => .inr hc.1, fun _ => rfl⟩
  · refine hpatch _ rfl ⟨.inl, fun hor => ?_⟩
    rcases hor with hprov | hphase
    · exact hprov
    · exact Option.isSome_iff_ne_none.mpr fun hnone => hc ⟨hphase, hnone⟩

/-! ## Giving up the post -/

/-- How a pass that gives up a post ends: the object is gone, or a call failed, or its seat had
too many snapshots and now has fewer. -/
def GivenUp (S : Site) (G₀ : CloneGraph String String) (k : AgentTask) (seat : String)
    (fails : (e : AgentCall) → e.Ret → Prop) (count : Nat) {α : Type} (r : Except Err α)
    (t : Tracked Taken) : Prop :=
  ∃ G, S.Orderly G₀ t G ∧ (∀ a, r = .ok a → S.posts t.world k = none) ∧
    ∀ e, r = .error e → e.isRefusal = false ∧ (Failing fails ∨
      ∃ P, S.posts t.world k = some P ∧ P.seat = seat ∧ P.held ∧ G.Dying S.Inside P ∧
        G.count seat + maxDetachRounds ≤ count)

omit hfails in
theorem GivenUp.fail {α : Type} {seat : String} {count : Nat} {e : Err} (h : S.Orderly G₀ t G)
    (hfailing : Failing fails) (he : e.isRefusal = false) :
    GivenUp S G₀ k seat fails count (α := α) (.error e) t :=
  ⟨G, h, by rintro _ ⟨⟩, by rintro _ ⟨⟩; exact ⟨he, .inl hfailing⟩⟩

omit hfails in
theorem GivenUp.gone {α : Type} {seat : String} {count : Nat} (h : S.Orderly G₀ t G)
    (hk : S.posts t.world k = none) (a : α) : GivenUp S G₀ k seat fails count (.ok a) t :=
  ⟨G, h, fun _ _ => hk, by rintro _ ⟨⟩⟩

theorem releaseFinalizer_pass {n : String} {X : ZfsDataset} (h : S.Orderly G₀ t G)
    (hX : t.world.datasets.lookup n = some X)
    (hheld : X.containsFinalizer zfsDatasetFinalizer = true)
    (hdying : G.Dying S.Inside (S.volumePost t.world X)) (hgone : ¬ G.alive (S.full X.spec.dataset))
    (seat : String) (count : Nat) :
    passWp recordTaken fails (S.Keeping G₀ (.dataset n)) (ZfsDatasetReconciler.releaseFinalizer X)
      (GivenUp S G₀ (.dataset n) seat fails count) t := by
  obtain ⟨rfl, hfits⟩ := h.roster.volume hX
  have hread : (World.handle (.getDataset X.name) t.world).1 = .ok X := by
    simp [World.handle, Store.get, hX]
  have hreleased := released_removeFinalizer hfits.finalizers hdying.1
  have hupdate := h.updateDataset_eq hX (X.metadata.finalizers.filter (· ≠ zfsDatasetFinalizer))
  refine retryOnConflict_pass _ (read_pass hfails keeping_reads rfl ?_ fun msg hmsg => ?_)
  · rw [hread]
    simp only [hheld, if_true]
    refine last_pass hfails
      (.inr ⟨G, _, h, posts_dataset hX, .releaseDataset rfl hX hdying hgone⟩) ?_
      fun msg hmsg => ⟨.fail h ⟨_, _, hmsg⟩ rfl, by rintro _ ⟨⟩; rfl⟩
    have horderly := h.releaseDataset hX hdying hgone
    simp only [Tracked.handle, World.handle, Object.removeFinalizer, hupdate] at horderly ⊢
    refine ⟨.gone horderly ?_ (), by rintro _ ⟨⟩⟩
    have hnone :
        (t.world.datasets.put X.name (X.removeFinalizer zfsDatasetFinalizer)).lookup X.name =
        none := by
      rw [Store.lookup_put_self, hreleased]
      rfl
    exact congrArg (Option.map _) hnone
  · exact ⟨.fail h ⟨_, _, hmsg⟩ rfl, by rintro _ ⟨⟩; rfl⟩

theorem releaseSnapshotFinalizer_pass {n : String} {s : ZfsSnapshot} (h : S.Orderly G₀ t G)
    (hs : t.world.snapshots.lookup n = some s)
    (hheld : s.containsFinalizer zfsSnapshotFinalizer = true)
    (hdying : G.Dying S.Inside (S.snapshotPost s)) (hgone : ¬ G.alive (S.backing s))
    (seat : String) (count : Nat) :
    passWp recordTaken fails (S.Keeping G₀ (.snapshot n))
      (ZfsSnapshotReconciler.releaseSnapshotFinalizer s)
      (GivenUp S G₀ (.snapshot n) seat fails count) t := by
  obtain ⟨rfl, hfits⟩ := h.roster.snapshot hs
  have hread : (World.handle (.getSnapshot s.name) t.world).1 = .ok s := by
    simp [World.handle, Store.get, hs]
  have hreleased := released_removeFinalizer hfits.finalizers hdying.1
  have hupdate := h.updateSnapshot_eq hs (s.metadata.finalizers.filter (· ≠ zfsSnapshotFinalizer))
  refine retryOnConflict_pass _ (read_pass hfails keeping_reads rfl ?_ fun msg hmsg => ?_)
  · rw [hread]
    simp only [hheld, if_true]
    refine last_pass hfails
      (.inr ⟨G, _, h, posts_snapshot hs, .releaseSnapshot rfl hs hdying hgone⟩) ?_
      fun msg hmsg => ⟨.fail h ⟨_, _, hmsg⟩ rfl, by rintro _ ⟨⟩; rfl⟩
    have horderly := h.releaseSnapshot hs hdying hgone
    simp only [Tracked.handle, World.handle, Object.removeFinalizer, hupdate] at horderly ⊢
    refine ⟨.gone horderly ?_ (), by rintro _ ⟨⟩⟩
    have hnone :
        (t.world.snapshots.put s.name (s.removeFinalizer zfsSnapshotFinalizer)).lookup s.name =
        none := by
      rw [Store.lookup_put_self, hreleased]
      rfl
    exact congrArg (Option.map _) hnone
  · exact ⟨.fail h ⟨_, _, hmsg⟩ rfl, by rintro _ ⟨⟩; rfl⟩

/-- A seat without snapshots is destroyed. -/
theorem destroy_pass (h : S.Vacating G₀ k P w₀ t G) (hfree : ∀ x, G.owner x ≠ some P.seat)
    {f : Unit → AgentProc β}
    (hf : ∀ G' t', S.Vacating G₀ k P w₀ t' G' → ¬ G'.alive P.seat →
      passWp recordTaken fails (S.Keeping G₀ k) (f ()) Q t')
    (herror : ∀ msg, Failing fails → Q (.error (.other msg)) t) :
    passWp recordTaken fails (S.Keeping G₀ k) (ask (.destroy P.seat false) >>= f) Q t := by
  obtain ⟨hanswer, G', horderly, hgone, hdying⟩ := h.orderly.destroy h.post h.dying hfree
  have hanswer : (World.handle (.destroy P.seat false) t.world).1 = .ok () := hanswer
  refine ask_pass hfails (.inr ⟨G, P, h.orderly, h.post, .destroy h.dying hfree⟩) (fun _ _ => ?_)
    (fun e he => by rw [hanswer] at he; cases he) fun msg hmsg => herror msg ⟨_, _, hmsg⟩
  exact hf G' _ ⟨⟨horderly, h.post, h.datasets, h.snapshots, h.pools⟩, hdying⟩ hgone

/-! ## A pass for an object that is being deleted -/

/-- Nothing depends on the seat any more, or a call failed, or there were too many snapshots. -/
def Detached (S : Site) (G₀ : CloneGraph String String) (k : AgentTask) (P : Post String String)
    (w₀ : World) (fails : (e : AgentCall) → e.Ret → Prop) (count : Nat) (r : Except Err Unit)
    (t : Tracked Taken) : Prop :=
  ∃ G, S.OnDuty G₀ k P w₀ t G ∧
    (r = .ok () → G.Dying S.Inside P ∧ ∀ x, G.owner x ≠ some P.seat) ∧
    ∀ e, r = .error e → e.isRefusal = false ∧
      (Failing fails ∨ G.Dying S.Inside P ∧ G.count P.seat + maxDetachRounds ≤ count)

theorem detachAndCleanSnapshots_wp (h : S.Vacating G₀ k P w₀ t G) {count : Nat}
    (hcount : G.count P.seat ≤ count) :
    passWp recordTaken fails (S.Keeping G₀ k) (detachAndCleanSnapshots S.guid S.poolName P.seat)
      (Detached S G₀ k P w₀ fails count) t := by
  refine wp_mono ?_ (detachRounds_wp hfails maxDetachRounds h)
  rintro (e | ⟨⟩) t' ⟨G', hv, hr⟩
  · refine ⟨G', hv.toOnDuty, by rintro ⟨⟩, ?_⟩
    rintro _ ⟨⟩
    exact ⟨hr.1, hr.2.imp id fun hle => ⟨hv.dying, hle.trans hcount⟩⟩
  · exact ⟨G', hv.toOnDuty, fun _ => ⟨hv.dying, hr⟩, by rintro _ ⟨⟩⟩

/-- The tag is released first, and then what depends on the seat is detached. -/
theorem releaseAndDetach_wp {α : Type} {p : AgentProc α} {count : Nat}
    (hp : passWp recordTaken fails (S.Keeping G₀ k) p (TagReleased S G₀ k P w₀ fails count) t) :
    passWp recordTaken fails (S.Keeping G₀ k)
      (p >>= fun _ => detachAndCleanSnapshots S.guid S.poolName P.seat)
      (Detached S G₀ k P w₀ fails count) t := by
  refine Proc.wp_bind (wp_mono ?_ hp)
  rintro (e | a) t' ⟨G', hduty, hcount, hdying, herror⟩
  · refine ⟨G', hduty, by rintro ⟨⟩, ?_⟩
    rintro _ ⟨⟩
    exact ⟨(herror e rfl).2, .inl (herror e rfl).1⟩
  · exact detachAndCleanSnapshots_wp hfails ⟨hduty, hdying a rfl⟩ hcount

/-- The pass of a volume that is being deleted, if its dataset is there or its tag is released. -/
theorem reconcileDelete_volume_wp {n : String} {X : ZfsDataset} {pool : ZfsPool}
    (h : S.Orderly G₀ t G)
    (hX : t.world.datasets.lookup n = some X) (hending : X.metadata.terminating = true)
    (hheld : X.containsFinalizer zfsDatasetFinalizer = true)
    (hpool : pool.status.poolName = S.poolName)
    (hsettled : G.alive (S.full X.spec.dataset) ∨ G.Dying S.Inside (S.volumePost t.world X)) :
    passWp recordTaken fails (S.Keeping G₀ (.dataset n))
      (ZfsDatasetReconciler.reconcileDelete X pool)
      (GivenUp S G₀ (.dataset n) (S.full X.spec.dataset) fails (G.count (S.full X.spec.dataset)))
        t := by
  have hfits := (h.roster.volume hX).2
  have hduty : S.OnDuty G₀ (.dataset n) (S.volumePost t.world X) t.world t G :=
    ⟨h, posts_dataset hX, rfl, rfl, rfl⟩
  have hbefore : passWp recordTaken fails (S.Keeping G₀ (.dataset n))
      (ZfsDatasetReconciler.beforeDestroy X S.poolName (S.full X.spec.dataset))
      (Detached S G₀ (.dataset n) (S.volumePost t.world X) t.world fails
        (G.count (S.full X.spec.dataset))) t := by
    unfold ZfsDatasetReconciler.beforeDestroy
    rw [hfits.guid]
    exact releaseAndDetach_wp hfails (releaseCloneOrigin_wp hfails hfits hending hduty hsettled)
  unfold ZfsDatasetReconciler.reconcileDelete
  rw [hpool, hfits.spot.datasetName]
  refine Proc.wp_outcome_bind (wp_mono ?_ hbefore)
  rintro (e | ⟨⟩) t' ⟨G', hduty', hok, herror⟩
  · -- the refusal is reported; whether that succeeds or not, it is what the pass returns
    obtain ⟨hrefusal, hwhy⟩ := herror e rfl
    have hX' : t'.world.datasets.lookup n = some X := hduty'.datasets ▸ hX
    have hpost : S.volumePost t.world X = S.volumePost t'.world X := by
      have := hduty'.post
      rw [posts_dataset hX'] at this
      exact (Option.some_inj.mp this).symm
    refine Proc.wp_outcome_bind (wp_mono ?_ (setStatusAt_pass hfails hduty'.orderly hX' (.inr hheld)
      (by rintro ⟨⟩) _ _ _ _))
    rintro r u (⟨X', hrep, _, rfl, horderly⟩ | ⟨_, _, rfl, hfailing⟩)
    · refine ⟨G', horderly, by rintro _ ⟨⟩, ?_⟩
      rintro _ ⟨⟩
      refine ⟨hrefusal, hwhy.imp id fun ⟨hdying, hcount⟩ => ?_⟩
      have hreleased : X'.released = false := by
        have hheld' : zfsDatasetFinalizer ∈ X.metadata.finalizers := by
          simpa [Object.containsFinalizer] using hheld
        simp only [Object.released, hrep.metadata]
        simp [List.ne_nil_of_mem hheld']
      have hlookup := lookup_put t'.world.datasets (n := n) hreleased n
      rw [if_pos rfl] at hlookup
      refine ⟨_, posts_dataset hlookup, ?_, ?_, ⟨?_, fun tag htag => ?_⟩, hcount⟩
      · simp only [volumePost, hrep.spec]
      · simpa only [volumePost, Object.containsFinalizer, hrep.metadata] using hheld
      · simpa only [volumePost, hrep.metadata] using hending
      · refine hdying.2 tag ?_
        simpa only [volumePost, Object.name, hrep.spec, hrep.metadata] using htag
    · exact .fail hduty'.orderly hfailing hrefusal
  · obtain ⟨hdying, hfree⟩ := hok rfl
    refine destroy_pass hfails ⟨hduty', hdying⟩ hfree (fun G'' t'' hv hgone => ?_)
      fun msg hfailing =>
      .fail hduty'.orderly hfailing rfl
    have hX'' : t''.world.datasets.lookup n = some X := hv.datasets ▸ hX
    have hpost := hv.post
    rw [posts_dataset hX''] at hpost
    refine Proc.wp_bind (wp_mono ?_ (releaseFinalizer_pass hfails hv.orderly hX'' hheld ?_ hgone
      (S.full X.spec.dataset) (G.count (S.full X.spec.dataset))))
    · rintro (e | ⟨⟩) u ⟨H, horderly, hnone, herror⟩
      · exact ⟨H, horderly, by rintro _ ⟨⟩, by rintro _ ⟨⟩; exact herror e rfl⟩
      · exact ⟨H, horderly, fun _ _ => hnone () rfl, by rintro _ ⟨⟩⟩
    · rw [Option.some_inj.mp hpost]
      exact hv.dying

/-- The pass of a snapshot that is being deleted. -/
theorem reconcileDelete_snapshot_wp {n : String} {s : ZfsSnapshot} {pool : ZfsPool}
    (h : S.Orderly G₀ t G)
    (hs : t.world.snapshots.lookup n = some s) (hending : s.metadata.terminating = true)
    (hheld : s.containsFinalizer zfsSnapshotFinalizer = true)
    (hpool : pool.status.poolName = S.poolName) :
    passWp recordTaken fails (S.Keeping G₀ (.snapshot n))
      (ZfsSnapshotReconciler.reconcileDelete s pool)
      (GivenUp S G₀ (.snapshot n) (S.backing s) fails (G.count (S.backing s))) t := by
  have hfits := (h.roster.snapshot hs).2
  have hduty : S.OnDuty G₀ (.snapshot n) (S.snapshotPost s) t.world t G :=
    ⟨h, posts_snapshot hs, rfl, rfl, rfl⟩
  have hraw : snapshotFullName S.poolName s.spec.dataset s.spec.snapshotName =
      .ok (snapPath (S.full s.spec.dataset) s.spec.snapshotName) :=
    hfits.spot.snapshotFullName hfits.raw.1.1.1
  unfold ZfsSnapshotReconciler.reconcileDelete
  refine resolveDatasetPath_pass hfails keeping_reads ?_ fun msg hfailing => .fail h hfailing rfl
  rw [hpool, h.roster.sourcePath_eq hs, hraw, hfits.backing.datasetName]
  refine liftExcept_pass ?_ (by rintro _ ⟨⟩)
  rintro _ ⟨⟩
  refine liftExcept_pass ?_ (by rintro _ ⟨⟩)
  rintro _ ⟨⟩
  refine Proc.wp_bind (wp_mono ?_ (releaseRaw_wp hfails hfits hending hduty))
  rintro (e | a) t' ⟨G', hduty', hcount, hdying, herror⟩
  · exact .fail hduty'.orderly (herror e rfl).1 (herror e rfl).2
  rw [hfits.guid]
  refine Proc.wp_bind (wp_mono ?_ (detachAndCleanSnapshots_wp hfails ⟨hduty', hdying a rfl⟩ hcount))
  rintro (e | ⟨⟩) t'' ⟨G'', hduty'', hok, herror'⟩
  · refine ⟨G'', hduty''.orderly, by rintro _ ⟨⟩, ?_⟩
    rintro _ ⟨⟩
    obtain ⟨hrefusal, hwhy⟩ := herror' e rfl
    exact ⟨hrefusal, hwhy.imp id fun ⟨hdying', hle⟩ => ⟨_, hduty''.post, rfl, hheld, hdying', hle⟩⟩
  obtain ⟨hdying', hfree⟩ := hok rfl
  refine destroy_pass hfails ⟨hduty'', hdying'⟩ hfree (fun H u hv hgone => ?_) fun msg hfailing =>
    .fail hduty''.orderly hfailing rfl
  refine Proc.wp_bind
    (wp_mono ?_ (releaseSnapshotFinalizer_pass hfails hv.orderly (hv.snapshots ▸ hs)
    hheld hv.dying hgone (S.backing s) (G.count (S.backing s))))
  rintro (e | ⟨⟩) v ⟨K, horderly, hnone, herror''⟩
  · exact ⟨K, horderly, by rintro _ ⟨⟩, by rintro _ ⟨⟩; exact herror'' e rfl⟩
  · exact ⟨K, horderly, fun _ _ => hnone () rfl, by rintro _ ⟨⟩⟩

end Site

end SimpleZfsCsi.Agent
