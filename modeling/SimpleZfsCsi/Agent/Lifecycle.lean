import SimpleZfsCsi.Agent.Creating

/-!
# Volumes and snapshots, from their creation to their deletion

The passes of all ZfsDatasets and ZfsSnapshots of a site run one after the other, each of them cut
short anywhere, and between them objects with new names are created and any object is deleted. All
reads are current. What an earlier pass left is taken up by a later one, except in two places: a
ZfsSnapshot that stopped before it was Ready and whose source was detached meanwhile, and a direct
clone that stopped before its dataset was there and is then deleted. `Resumable` leaves these out,
and then no data is lost, no delete gets stuck and nothing is left behind.
-/

namespace SimpleZfsCsi.Agent

open Library Api Memzfs Text Program

namespace Site

variable {S : Site} {G₀ G : CloneGraph String String} {k : AgentTask} {P : Post String String}
  {t t' : Tracked Taken} {fails : (e : AgentCall) → e.Ret → Prop}

/-- A pass for `k` can take up what an earlier one left. -/
def Resumable (S : Site) : AgentTask → World → Prop
  | .dataset n, w => ∀ X ∈ w.datasets.lookup n, X.metadata.terminating = true →
      ZfsDatasetReconciler.isDirectClone X.spec.source = true →
      (w.mem.ds.lookup (S.full X.spec.dataset)).isSome ∨
        ∀ d, ∀ σ ∈ w.mem.lookupSnap d (cloneTag X.name), σ.deferred = true
  | .snapshot n, w => ∀ s ∈ w.snapshots.lookup n, s.metadata.terminating = false →
      s.status.provisionedAt = none → (w.mem.ds.lookup (S.backing s)).isSome →
      (w.mem.lookupSnap (S.full s.spec.dataset) s.spec.snapshotName).isSome

/-- How a pass ends: one for an object that is being deleted gives up its post. -/
def Ended (S : Site) (G₀ G : CloneGraph String String) (k : AgentTask) (t : Tracked Taken)
    (fails : (e : AgentCall) → e.Ret → Prop) {α : Type} (r : Except Err α)
    (t' : Tracked Taken) : Prop :=
  ∀ P, S.posts t.world k = some P → P.ending → P.held →
    GivenUp S G₀ k P.seat fails (G.count P.seat) r t'

/-! ## A whole pass -/

section Passes

variable (hfails : ∀ e r, fails e r → e.fails r)

include hfails

theorem reconcile_volume_wp (h : S.Orderly G₀ t G) {n : String}
    (hres : S.Resumable (.dataset n) t.world) :
    passWp recordTaken fails (S.Keeping G₀ (.dataset n))
      (ZfsDatasetReconciler.reconcile ⟨S.nodeName⟩ n)
      (S.Ended G₀ G (.dataset n) t fails) t := by
  obtain ⟨pool, hpool, hhosted, hname⟩ := h.roster.hosted
  have hfail : ∀ msg, Failing fails → S.Ended G₀ G (.dataset n) t fails
      (.error (.other msg) : Except Err Result) t :=
    fun msg hfailing P _ _ _ => .fail h hfailing rfl
  unfold ZfsDatasetReconciler.reconcile
  refine read_pass hfails keeping_reads rfl ?_ fun msg hmsg => hfail msg ⟨_, _, hmsg⟩
  simp only [World.handle, Store.get]
  cases hX : t.world.datasets.lookup n with
  | none =>
    intro P hP
    simp [posts, hX] at hP
  | some X =>
    have hpost := posts_dataset (S := S) hX
    have hfits := (h.roster.volume hX).2
    have hended : ∀ {α : Type} {r : Except Err α} {t'}, (X.metadata.terminating = true →
        X.containsFinalizer zfsDatasetFinalizer = true →
        GivenUp S G₀ (.dataset n) (S.full X.spec.dataset) fails
          (G.count (S.full X.spec.dataset)) r t') →
        S.Ended G₀ G (.dataset n) t fails r t' := by
      intro α r t' hr P hP hending hheld
      rw [hpost] at hP
      obtain rfl := Option.some_inj.mp hP
      exact hr hending hheld
    refine findPool_pass hfails keeping_reads ?_ fun msg hfailing => hfail msg hfailing
    rw [hfits.guid, hpool]
    simp only [hhosted, if_true]
    split_ifs with hending hheld hheld
    · refine wp_mono (fun _ _ hr => hended fun _ _ => hr)
        (reconcileDelete_volume_wp hfails h hX hending hheld hname ?_)
      by_cases hdirect : ZfsDatasetReconciler.isDirectClone X.spec.source = true
      · refine (hres X hX hending hdirect).imp h.represents.alive.mpr fun hreleased => ⟨hending, ?_⟩
        intro tag htag x d hx hd hxname
        simp only [volumePost, hdirect, if_true, Option.some_inj] at htag
        obtain ⟨σ, hσ, rfl⟩ := h.represents.owned hx
        rw [hxname, ← htag] at hσ
        exact (h.represents.snap hσ).2.2.2.mp (hreleased d σ hσ)
      · refine .inr ⟨hending, fun tag htag => ?_⟩
        simp [volumePost, hdirect] at htag
    · exact hended fun _ hheld' => absurd hheld' hheld
    · exact wp_mono (fun _ _ _ => hended fun hending' _ => absurd hending' hending)
        (ensure_volume_wp hfails h hX hheld (by simpa using hending) hname)
    · have hgoing : X.metadata.terminating = false := by simpa using hending
      refine ask_pass hfails (.inr ⟨G, _, h, hpost, .holdDataset rfl hX hgoing⟩) (fun _ _ => ?_)
        (fun _ _ => ?_) fun _ _ => ?_
      all_goals exact hended fun hending' _ => absurd hending' hending

theorem reconcile_snapshot_wp (h : S.Orderly G₀ t G) {n : String}
    (hres : S.Resumable (.snapshot n) t.world) :
    passWp recordTaken fails (S.Keeping G₀ (.snapshot n))
      (ZfsSnapshotReconciler.reconcile ⟨S.nodeName⟩ n)
      (S.Ended G₀ G (.snapshot n) t fails) t := by
  obtain ⟨pool, hpool, hhosted, hname⟩ := h.roster.hosted
  have hfail : ∀ msg, Failing fails → S.Ended G₀ G (.snapshot n) t fails
      (.error (.other msg) : Except Err Result) t :=
    fun msg hfailing P _ _ _ => .fail h hfailing rfl
  unfold ZfsSnapshotReconciler.reconcile
  refine read_pass hfails keeping_reads rfl ?_ fun msg hmsg => hfail msg ⟨_, _, hmsg⟩
  simp only [World.handle, Store.get]
  cases hs : t.world.snapshots.lookup n with
  | none =>
    intro P hP
    simp [posts, hs] at hP
  | some s =>
    have hpost := posts_snapshot (S := S) hs
    have hfits := (h.roster.snapshot hs).2
    have hended : ∀ {α : Type} {r : Except Err α} {t'}, (s.metadata.terminating = true →
        s.containsFinalizer zfsSnapshotFinalizer = true →
        GivenUp S G₀ (.snapshot n) (S.backing s) fails (G.count (S.backing s)) r t') →
        S.Ended G₀ G (.snapshot n) t fails r t' := by
      intro α r t' hr P hP hending hheld
      rw [hpost] at hP
      obtain rfl := Option.some_inj.mp hP
      exact hr hending hheld
    refine findPool_pass hfails keeping_reads ?_ fun msg hfailing => hfail msg hfailing
    rw [hfits.guid, hpool]
    simp only [hhosted, if_true]
    split_ifs with hending hheld hheld
    · exact wp_mono (fun _ _ hr => hended fun _ _ => hr)
        (reconcileDelete_snapshot_wp hfails h hs hending hheld hname)
    · exact hended fun _ hheld' => absurd hheld' hheld
    · have hgoing : s.metadata.terminating = false := by simpa using hending
      refine wp_mono (fun _ _ _ => hended fun hending' _ => absurd hending' hending)
        (ensure_snapshot_wp hfails h hs hheld hgoing hname fun hunready halive => ?_)
      have hraw := hres s hs hgoing hunready (h.represents.alive.mp halive)
      obtain ⟨σ, hσ⟩ := Option.isSome_iff_exists.mp hraw
      obtain ⟨_, howner, hsname, _⟩ := h.represents.snap hσ
      exact ⟨σ.txg, howner, hsname⟩
    · have hgoing : s.metadata.terminating = false := by simpa using hending
      refine ask_pass hfails (.inr ⟨G, _, h, hpost, .holdSnapshot rfl hs hgoing⟩) (fun _ _ => ?_)
        (fun _ _ => ?_) fun _ _ => ?_
      all_goals exact hended fun hending' _ => absurd hending' hending

theorem program_wp (h : S.Orderly G₀ t G) (hres : S.Resumable k t.world) :
    (k.program S.nodeName).wpAlone (Tracked.handle recordTaken) fails (S.Keeping G₀ k)
      (S.Ended G₀ G k t fails) t := by
  cases k with
  | dataset n => exact reconcile_volume_wp hfails h hres
  | snapshot n => exact reconcile_snapshot_wp hfails h hres

end Passes

/-! ## The site as a system -/

/-- What others ask of the API server: objects with new names and paths, and deletions. -/
inductive Asks (S : Site) : Tracked Taken → Tracked Taken → Prop where
  | createVolume {t : Tracked Taken} (n : String) (spec : ZfsDatasetSpec)
    (fresh : S.FreshVolume t.world n spec) :
      Asks S t (withDatasets t (t.world.datasets.create t.world.clock n spec {}).2)
  | createSnapshot {t : Tracked Taken} (n : String) (spec : ZfsSnapshotSpec)
      (fresh : S.FreshSnapshot t.world n spec) :
      Asks S t (withSnapshots t (t.world.snapshots.create t.world.clock n spec {}).2)
  | deleteVolume {t : Tracked Taken} (n : String) :
    Asks S t (withDatasets t (t.world.datasets.delete n).2)
  | deleteSnapshot {t : Tracked Taken} (n : String) :
    Asks S t (withSnapshots t (t.world.snapshots.delete n).2)
  | tick {t : Tracked Taken} (clock : Nat) : Asks S t ⟨{ t.world with clock }, t.ghost⟩

def lifecycle (S : Site) :
    Serial (Tracked Taken) AgentTask AgentCall AgentCall.Ret (Except Err Result) where
  handle _ := Tracked.handle recordTaken
  fails := AgentCall.fails
  program k := k.program S.nodeName
  starts _ _ := True
  change := S.Asks

/-- The states reached by passes that can take up what earlier ones left. -/
def Reached (S : Site) (t₀ t : Tracked Taken) : Prop :=
  S.lifecycle.Reach (fun k t => S.Resumable k t.world) t₀ t

/-- A site before its first object: nothing is at a spot or below one. -/
structure Vacant (S : Site) (t : Tracked Taken) (G : CloneGraph String String) : Prop where
  represents : Represents t.world.mem G
  hosted : ∃ pool, t.world.pools.lookup (resourceName S.guid) = some pool ∧
    hostedHere S.nodeName (some pool) = true ∧ pool.status.poolName = S.poolName
  volumes : ∀ n, t.world.datasets.lookup n = none
  snapshots : ∀ n, t.world.snapshots.lookup n = none
  free : ∀ {d e}, S.Inside d → (t.world.mem.ds.lookup e).isSome → e ≠ d ∧
    startsWith e (d ++ "/") = false

theorem Vacant.orderly (h : S.Vacant t G) : S.Orderly G t G := by
  have hdead : ∀ {d}, S.Inside d → ¬ G.alive d :=
    fun hd ha => (h.free hd (h.represents.alive.mp ha)).1 rfl
  have hposts : ∀ k, S.posts t.world k = none := by
    intro k
    cases k with
    | dataset n => simp [posts, h.volumes n]
    | snapshot n => simp [posts, h.snapshots n]
  have hvolume : ∀ {n X}, t.world.datasets.lookup n ≠ some X := by simp [h.volumes]
  have hsnapshot : ∀ {n s}, t.world.snapshots.lookup n ≠ some s := by simp [h.snapshots]
  have hpost : ∀ {k P}, S.posts t.world k ≠ some P := by simp [hposts]
  refine ⟨h.represents, ⟨h.hosted, fun hX => absurd hX hvolume, fun hs => absurd hs hsnapshot,
    fun hs => absurd hs hsnapshot⟩, ?_,
      fun hd he => (h.free hd (h.represents.alive.mp he)).2, .refl _ _,
    fun hk => absurd hk hpost⟩
  refine ⟨fun hk => absurd hk hpost, fun hk => absurd hk hpost, fun hk => absurd hk hpost,
    fun hk => absurd hk hpost, fun d x p hd hp => ?_, fun ha hd => absurd ha (hdead hd),
    fun hx hd => absurd (G.owner_alive hx) (hdead hd), fun hx hd => absurd
      (G.owner_alive hx) (hdead hd),
    fun hx hd => absurd (G.owner_alive hx) (hdead hd), fun hk => absurd hk hpost,
      fun hk => absurd hk hpost⟩
  exact iff_of_false (fun hin => hdead hin (G.origin_alive hd)) fun hin => hdead hin
    (G.owner_alive hp)

theorem Asks.orderly (h : S.Orderly G₀ t G) (ha : S.Asks t t') : S.Orderly G₀ t' G := by
  cases ha with
  | createVolume n spec fresh =>
    cases hn : t.world.datasets.lookup n with
    | some X =>
      simp only [Store.create, hn, Option.isSome_some, if_true]
      exact h
    | none =>
      simp only [Store.create, hn, Option.isSome_none, Bool.false_eq_true, if_false]
      exact h.addVolume hn rfl fresh rfl rfl rfl
  | createSnapshot n spec fresh =>
    cases hn : t.world.snapshots.lookup n with
    | some s =>
      simp only [Store.create, hn, Option.isSome_some, if_true]
      exact h
    | none =>
      simp only [Store.create, hn, Option.isSome_none, Bool.false_eq_true, if_false]
      exact h.addSnapshot hn rfl fresh rfl rfl rfl
  | deleteVolume n =>
    cases hX : t.world.datasets.lookup n with
    | none =>
      simp only [Store.delete, hX]
      exact h
    | some X =>
      obtain ⟨hname, hfits⟩ := h.roster.volume hX
      simp only [Store.delete, hX]
      split_ifs
      · exact h
      -- an object that nothing holds goes at once, and it has never had a dataset
      by_cases hfinalizers : X.metadata.finalizers = []
      · refine h.dropVolume hX (by simp [Object.released, hfinalizers]) fun hheld => ?_
        simp [Object.containsFinalizer, hfinalizers] at hheld
      · exact h.putVolume hX rfl hname ⟨hfits.guid, hfits.name, hfits.spot, hfits.source,
          hfits.finalizers⟩
          (by simp [Object.released, hfinalizers]) (fun _ => rfl) id .inl
  | deleteSnapshot n =>
    cases hs : t.world.snapshots.lookup n with
    | none =>
      simp only [Store.delete, hs]
      exact h
    | some s =>
      obtain ⟨hname, hfits⟩ := h.roster.snapshot hs
      simp only [Store.delete, hs]
      split_ifs
      · exact h
      by_cases hfinalizers : s.metadata.finalizers = []
      · refine h.dropSnapshot hs (by simp [Object.released, hfinalizers]) fun hheld => ?_
        simp [Object.containsFinalizer, hfinalizers] at hheld
      · exact h.putSnapshot hs rfl hname
          ⟨hfits.guid, hfits.spot, hfits.raw, hfits.backing, hfits.finalizers, hfits.ready⟩
          (by simp [Object.released, hfinalizers]) (fun _ => rfl) id .inl
  | tick clock =>
    exact ⟨h.represents,
      ⟨h.roster.hosted, h.roster.volume, h.roster.snapshot, h.roster.source⟩, h.keeps,
      h.below, h.apart, h.foreign⟩

/-- Whatever happens, the site stays orderly. -/
theorem Reached.orderly {t₀ : Tracked Taken} (h₀ : S.Vacant t₀ G₀) (h : S.Reached t₀ t) :
    ∃ G, S.Orderly G₀ t G := by
  let inv (t : Tracked Taken) : Prop := ∃ G, S.Orderly G₀ t G
  show inv t
  refine Serial.Reach.invariant (fun k => S.Keeping G₀ k) ⟨G₀, h₀.orderly⟩ ?_ ?_ ?_ h
  · rintro s s' ⟨G, hs⟩ hchange
    exact ⟨G, hchange.orderly hs⟩
  · rintro k e s ⟨G, hs⟩ (hreads | ⟨G', P, hs', hk, hmove⟩)
    · show ∃ G, S.Orderly G₀ (Tracked.handle recordTaken e s).2 G
      rw [Tracked.handle_reads hreads]
      exact ⟨G, hs⟩
    · exact hmove.orderly hs' hk
  · rintro k s ⟨G, hs⟩ _ hres
    exact wp_mono (fun _ _ _ => trivial) (program_wp (fun _ _ h => h) hs hres)

/-! ## A small site

The volume `pvc-1` is provisioned, the ZfsSnapshot `snap` of it becomes Ready, and first the volume
is deleted and then the snapshot. -/

/-- The folder `k8s` of the pool `tank`. -/
def tankSite : Site where
  nodeName := "node-a"
  guid := "1"
  poolName := "tank"
  folders F := F = ["k8s"]
  tidy_pool := by decide
  tidy_folders := by
    rintro _ rfl f hf
    rw [List.mem_singleton.mp hf]
    decide

/-- No snapshot has been taken yet. -/
def tankTaken : Tracked Taken := ⟨tankWorld, fun _ => none⟩

/-- The datasets of `tankWorld`. -/
def tankGraph : CloneGraph String String where
  alive d := d = "tank" ∨ d = "tank/k8s"
  owner _ := none
  name _ := ""
  marked _ := False
  origin _ := none
  last := 0
  owner_alive := by rintro _ _ ⟨⟩
  owner_le := by rintro _ _ ⟨⟩
  origin_alive := by rintro _ _ ⟨⟩
  origin_owned := by rintro _ _ ⟨⟩
  younger := by rintro _ _ _ ⟨⟩
  marked_cloned := by rintro _ _ ⟨⟩
  name_inj := by rintro _ _ _ ⟨⟩

theorem tankWorld_lookup (d : String) : tankWorld.mem.ds.lookup d =
    if d = "tank/k8s" then
      some { name := "tank/k8s", kind := .filesystem, props := FinMap.empty, volsize := 0 }
    else if d = "tank" then some { name := "tank", kind := .filesystem } else none := by
  rfl

theorem tankWorld_represents : Represents tankWorld.mem tankGraph where
  alive {d} := by
    rw [tankWorld_lookup]
    simp only [tankGraph]
    split_ifs <;> simp_all
  plain {d} hd := by
    rcases hd with rfl | rfl <;> (unfold Plain; decide)
  named {d D} hD := by
    rw [tankWorld_lookup] at hD
    split_ifs at hD with h h' <;> simp_all [← Option.some_inj.mp hD]
  snap {d n σ} hσ := by
    simp only [Mem.lookupSnap, tankWorld_lookup] at hσ
    split_ifs at hσ <;> simp [FinMap.empty] at hσ
  owned := by rintro _ _ ⟨⟩
  independent {d D} hD _ := by
    rw [tankWorld_lookup] at hD
    split_ifs at hD <;> simp_all [← Option.some_inj.mp hD]
  clone := by rintro _ _ _ _ _ ⟨⟩
  txg := rfl

theorem tank_join (leaf : String) : join "/" (["k8s"] ++ [leaf]) = "k8s" ++ "/" ++ leaf := rfl

theorem tank_vacant : tankSite.Vacant tankTaken tankGraph where
  represents := tankWorld_represents
  hosted := ⟨_, rfl, by decide +kernel, rfl⟩
  volumes _ := rfl
  snapshots _ := rfl
  free {d e} hd he := by
    obtain ⟨_, ⟨_, leaf, ⟨rfl, _, _⟩, rfl⟩, rfl⟩ := hd
    have hlength : (tankSite.full (join "/" (["k8s"] ++ [leaf]))).toList.length = 9 +
        leaf.toList.length := by
      rw [tank_join]
      simp [Site.full, tankSite, Nat.add_comm]
      omega
    have hshort : e.toList.length ≤ 8 := by
      rcases tankWorld_represents.alive.mpr he with rfl | rfl <;> decide
    refine ⟨fun heq => ?_, ?_⟩
    · rw [heq] at hshort
      omega
    · rw [startsWith, Bool.eq_false_iff, ne_eq, List.isPrefixOf_iff_prefix]
      intro hprefix
      have := hprefix.length_le
      rw [String.toList_append, List.length_append] at this
      omega

/-- Nothing is named like this, if it is not on one of the datasets. -/
theorem lookupSnap_none {m : Mem} {n : String} (h : ∀ d ∈ m.ds.keys, m.lookupSnap d n = none)
    (d : String) :
    m.lookupSnap d n = none := by
  by_cases hd : d ∈ m.ds.keys
  · exact h d hd
  · rw [m.ds.mem_keys, Bool.not_eq_true, Option.isSome_eq_false_iff,
      Option.isNone_iff_eq_none] at hd
    simp [Mem.lookupSnap, hd]

theorem tank_spot (leaf : String) (h : Tidy leaf) : tankSite.Spot ("k8s" ++ "/" ++ leaf) := by
  refine ⟨["k8s"], leaf, ⟨rfl, h, ?_⟩, (tank_join leaf).symm⟩
  rintro _ rfl hprefix
  have := hprefix.length_le
  simp at this

abbrev TankMove := Serial.Move (Tracked Taken) AgentTask

def tankVolume : ZfsDatasetSpec := { poolGUID := "1", dataset := "k8s/pvc-1" }

def tankSnapshot : ZfsSnapshotSpec :=
  { poolGUID := "1", dataset := "k8s/pvc-1", snapshotName := "csi-snap-1", sourceVolume := "pvc-1"
    sourceType := some .filesystem }

/-- The volume is provisioned. -/
def provisionMoves : List TankMove :=
  [.change fun t => withDatasets t (t.world.datasets.create t.world.clock "pvc-1" tankVolume {}).2,
    .pass (.dataset "pvc-1"), .pass (.dataset "pvc-1")]

/-- The snapshot becomes Ready, and the volume is deleted. -/
def outliveMoves : List TankMove :=
  [.change fun t => withSnapshots t
    (t.world.snapshots.create t.world.clock "snap" tankSnapshot {}).2, .pass (.snapshot "snap"),
    .pass (.snapshot "snap"), .change fun t => withDatasets t (t.world.datasets.delete "pvc-1").2,
    .pass (.dataset "pvc-1")]

def deleteSnapMove : TankMove :=
  .change fun t => withSnapshots t (t.world.snapshots.delete "snap").2

def tankProvisioned : Tracked Taken := provisionMoves.foldl tankSite.lifecycle.make tankTaken

/-- The snapshot has outlived its source. -/
def tankOutlived : Tracked Taken := outliveMoves.foldl tankSite.lifecycle.make tankProvisioned

def tankDeleting : Tracked Taken := tankSite.lifecycle.make tankOutlived deleteSnapMove

def tankEmptied : Tracked Taken := tankSite.lifecycle.make tankDeleting (.pass (.snapshot "snap"))

/-- A volume that is no direct clone leaves nothing that would have to be taken up. -/
theorem resumable_volume {n : String} {w : World}
    (h : ∀ X ∈ w.datasets.lookup n, ZfsDatasetReconciler.isDirectClone X.spec.source = false) :
    S.Resumable (.dataset n) w := by
  intro X hX _ hdirect
  rw [h X hX] at hdirect
  cases hdirect

/-- Neither does a snapshot without a backing clone. -/
theorem resumable_snapshot {n : String} {w : World}
    (h : ∀ s ∈ w.snapshots.lookup n, w.mem.ds.contains (S.backing s) = false) :
    S.Resumable (.snapshot n) w := by
  intro s hs _ _ hbacking
  rw [← FinMap.contains_eq, h s hs] at hbacking
  cases hbacking

theorem tankProvisioned_reached : tankSite.Reached tankTaken tankProvisioned := by
  refine Serial.Reach.start.play provisionMoves ⟨.createVolume "pvc-1" tankVolume ?_, ⟨trivial, ?_⟩,
    ⟨trivial, ?_⟩, trivial⟩
  · refine ⟨rfl, by decide, tank_spot "pvc-1" (by decide), trivial, ?_, ?_, ?_, by decide +kernel,
      lookupSnap_none (by decide +kernel)⟩ <;> rintro _ _ ⟨⟩
  · exact resumable_volume (by decide +kernel)
  · exact resumable_volume (by decide +kernel)

theorem tankOutlived_reached : tankSite.Reached tankTaken tankOutlived := by
  have hvolumes : ∀ V ∈ tankProvisioned.world.datasets.values, V.spec.dataset = "k8s/pvc-1" := by
    decide +kernel
  refine tankProvisioned_reached.play outliveMoves ⟨.createSnapshot "snap" tankSnapshot ?_,
    ⟨trivial, ?_⟩,
    ⟨trivial, ?_⟩, .deleteVolume "pvc-1", ⟨trivial, ?_⟩, trivial⟩
  · refine ⟨rfl, tank_spot "pvc-1" (by decide), ⟨⟨by decide, by decide +kernel⟩, by decide +kernel⟩,
      tank_spot "csi-snap-1" (by decide), fun hV => ?_, fun hs => ?_, fun hV => ?_, by
        decide +kernel,
      lookupSnap_none (by decide +kernel)⟩
    · rw [hvolumes _ (Store.mem_values.mpr ⟨_, hV⟩)]
      decide +kernel
    · cases hs
    · exact hvolumes _ (Store.mem_values.mpr ⟨_, hV⟩)
  · exact resumable_snapshot (by decide +kernel)
  · exact resumable_snapshot (by decide +kernel)
  · exact resumable_volume (by decide +kernel)

/-! ## Nothing is lost -/

/-- What the agent finds when it looks for the raw snapshot of a ZfsSnapshot. -/
def located (S : Site) (w : World) (s : ZfsSnapshot) : Except Err String :=
  ((locateRawSnapshot (S.backing s) (snapPath (S.full s.spec.dataset) s.spec.snapshotName)
    s.spec.snapshotName).run.exec World.handle w).1

/-- The objects and the pool agree. -/
structure Intact (S : Site) (t₀ t : Tracked Taken) : Prop where
  /-- a volume that was provisioned and is not being deleted has its dataset -/
  volume : ∀ {n X}, t.world.datasets.lookup n = some X → X.metadata.terminating = false →
    datasetProvisioned X = true → (t.world.mem.ds.lookup (S.full X.spec.dataset)).isSome
  /-- a Ready snapshot that is not being deleted is found, it is the one that was taken, and it is
  not marked -/
  snapshot : ∀ {n s}, t.world.snapshots.lookup n = some s → s.metadata.terminating = false →
    s.status.phase = some .ready → ∃ d σ, S.located t.world s =
      .ok (snapPath d s.spec.snapshotName) ∧
      t.world.mem.lookupSnap d s.spec.snapshotName = some σ ∧
        t.ghost s.spec.snapshotName = some σ.txg ∧
      σ.deferred = false
  /-- a dataset on a spot belongs to an object -/
  owned : ∀ {d}, S.Inside d → (t.world.mem.ds.lookup d).isSome →
    (∃ n X, t.world.datasets.lookup n = some X ∧ d = S.full X.spec.dataset) ∨
      ∃ n s, t.world.snapshots.lookup n = some s ∧ d = S.backing s
  /-- so does a snapshot of it, unless it is marked -/
  answered : ∀ {d m σ}, S.Inside d → t.world.mem.lookupSnap d m = some σ → σ.deferred = false →
    (∃ n X, t.world.datasets.lookup n = some X ∧ m = cloneTag X.name) ∨
      ∃ n s, t.world.snapshots.lookup n = some s ∧ m = s.spec.snapshotName
  /-- elsewhere the pool is as it was -/
  elsewhere : ∀ {d}, ¬ S.Inside d →
    ((t.world.mem.ds.lookup d).isSome ↔ (t₀.world.mem.ds.lookup d).isSome) ∧
      ∀ m, (t.world.mem.lookupSnap d m).map (·.txg) = (t₀.world.mem.lookupSnap d m).map (·.txg)

/-- What is remembered of a run does not change its answers. -/
theorem exec_tracked {γ α : Type} (record : AgentCall → World → World → γ → γ)
    (p : Program AgentCall AgentCall.Ret α) (t : Tracked γ) :
    (p.exec (Tracked.handle record) t).1 = (p.exec World.handle t.world).1 := by
  induction p generalizing t with
  | pure a => rfl
  | call e k ih => exact ih _ _

/-- No call fails. -/
def Never (e : AgentCall) (_ : e.Ret) : Prop := False

theorem never_fails : ∀ e r, Never e r → e.fails r := by rintro _ _ ⟨⟩

theorem not_failing_never : ¬ Failing Never := by rintro ⟨_, _, ⟨⟩⟩

/-- A Ready snapshot is where the agent looks for it. -/
theorem Orderly.located (h : S.Orderly G₀ t G) {n : String} {s : ZfsSnapshot}
    (hs : t.world.snapshots.lookup n = some s) (hgoing : s.metadata.terminating = false)
    (hready : s.status.phase = some .ready) :
    ∃ x d, S.located t.world s = .ok (snapPath d s.spec.snapshotName) ∧
      G.owner x = some d ∧ S.Inside d ∧
      G.name x = s.spec.snapshotName := by
  have hfits := (h.roster.snapshot hs).2
  have hpost := posts_snapshot (S := S) hs
  have hnotEnding : ¬ (S.snapshotPost s).ending := by simp [snapshotPost, hgoing]
  have halive : G.alive (S.backing s) :=
    (h.keeps.settled hpost (hfits.ready.mp hready)).resolve_right fun hdying => hnotEnding hdying.1
  obtain ⟨x, hlinked, hname⟩ := (h.keeps.kept hpost rfl).backed hnotEnding halive
  have hbacking : S.Inside (S.backing s) := hfits.backing.inside
  obtain ⟨_, hanswer, herror⟩ :=
    wpAlone_exec (locateRawSnapshot_wp (k := .snapshot n) never_fails h hbacking
    hfits.spot.inside hfits.raw.1.1)
  rw [exec_tracked] at hanswer herror
  cases hlocated : S.located t.world s with
  | error e => exact absurd (herror e hlocated).1 not_failing_never
  | ok raw =>
    obtain ⟨_, hnone⟩ | ⟨y, d, hy, hd, hyname, rfl⟩ := hanswer raw hlocated
    · exact absurd hlinked (hnone x hname).1
    · exact ⟨y, d, rfl, hy, hd, hyname⟩

theorem Orderly.elsewhere (h : S.Orderly G₀ t G) {t₀ : Tracked Taken}
    (h₀ : Represents t₀.world.mem G₀)
    {d : String} (hd : ¬ S.Inside d) :
    ((t.world.mem.ds.lookup d).isSome ↔ (t₀.world.mem.ds.lookup d).isSome) ∧
      ∀ m, (t.world.mem.lookupSnap d m).map (·.txg) =
        (t₀.world.mem.lookupSnap d m).map (·.txg) := by
  refine ⟨?_, fun m => ?_⟩
  · rw [← h.represents.alive, ← h₀.alive]
    exact h.apart.alive hd
  · ext x
    simp only [Option.map_eq_some_iff]
    constructor
    · rintro ⟨σ, hσ, rfl⟩
      obtain ⟨_, howner, hname, _⟩ := h.represents.snap hσ
      obtain ⟨σ₀, hσ₀, htxg⟩ := h₀.owned ((h.apart.owner hd).mp howner)
      rw [← h.apart.name hd howner, hname] at hσ₀
      exact ⟨σ₀, hσ₀, htxg⟩
    · rintro ⟨σ, hσ, rfl⟩
      obtain ⟨_, howner, hname, _⟩ := h₀.snap hσ
      have howner' := (h.apart.owner hd).mpr howner
      obtain ⟨σ', hσ', htxg⟩ := h.represents.owned howner'
      rw [h.apart.name hd howner', hname] at hσ'
      exact ⟨σ', hσ', htxg⟩

theorem Orderly.intact (h : S.Orderly G₀ t G) {t₀ : Tracked Taken}
    (h₀ : Represents t₀.world.mem G₀) :
    S.Intact t₀ t where
  volume {n X} hX hgoing hdone := by
    have hnotEnding : ¬ (S.volumePost t.world X).ending := by simp [volumePost, hgoing]
    exact h.represents.alive.mp
      ((h.keeps.settled (posts_dataset hX) hdone).resolve_right fun hdying => hnotEnding hdying.1)
  snapshot {n s} hs hgoing hready := by
    obtain ⟨x, d, hlocated, hx, hd, hname⟩ := h.located hs hgoing hready
    obtain ⟨σ, hσ, rfl⟩ := h.represents.owned hx
    have htaken := h.keeps.taken hx hd
    have hnotEnding : ¬ (S.snapshotPost s).ending := by simp [snapshotPost, hgoing]
    have hunmarked := (h.keeps.kept (posts_snapshot hs) rfl).unmarked hnotEnding _ d hx hd hname
    rw [hname] at hσ htaken
    refine ⟨d, σ, hlocated, hσ, htaken, ?_⟩
    rw [← (h.represents.snap hσ).2.2.2] at hunmarked
    simpa using hunmarked
  owned {d} hd halive := by
    obtain ⟨k, P, hk, rfl, _⟩ := h.keeps.owned (h.represents.alive.mpr halive) hd
    cases k with
    | dataset n =>
      obtain ⟨X, hX, rfl⟩ := Option.map_eq_some_iff.mp hk
      exact .inl ⟨n, X, hX, rfl⟩
    | snapshot n =>
      obtain ⟨s, hs, rfl⟩ := Option.map_eq_some_iff.mp hk
      exact .inr ⟨n, s, hs, rfl⟩
  answered {d m σ} hd hσ hdeferred := by
    obtain ⟨_, howner, hname, hmarked⟩ := h.represents.snap hσ
    have hunmarked : ¬ G.marked σ.txg := by
      rw [← hmarked, hdeferred]
      simp
    obtain ⟨k, P, hk, htag, _⟩ := h.keeps.answered howner hd hunmarked
    rw [hname] at htag
    cases k with
    | dataset n =>
      obtain ⟨X, hX, rfl⟩ := Option.map_eq_some_iff.mp hk
      simp only [volumePost] at htag
      split_ifs at htag
      exact .inl ⟨n, X, hX, (Option.some_inj.mp htag).symm⟩
    | snapshot n =>
      obtain ⟨s, hs, rfl⟩ := Option.map_eq_some_iff.mp hk
      exact .inr ⟨n, s, hs, (Option.some_inj.mp htag).symm⟩
  elsewhere hd := h.elsewhere h₀ hd

/-- Through all creations and deletions, cut short anywhere, no data of a live object is lost. -/
theorem reached_intact {t₀ : Tracked Taken} (h₀ : S.Vacant t₀ G₀) (h : S.Reached t₀ t) :
    S.Intact t₀ t := by
  obtain ⟨G, horderly⟩ := h.orderly h₀
  exact horderly.intact h₀.represents

/-- The snapshot has outlived its source: it is found on the backing clone. -/
theorem tankOutlived_intact : tankSite.Intact tankTaken tankOutlived ∧
    tankOutlived.world.datasets.objects.keys = [] ∧
    (tankOutlived.world.snapshots.lookup "snap").map (fun s =>
      (s.status.phase, (tankSite.located tankOutlived.world s).toOption)) =
      some (some .ready, some "tank/k8s/csi-snap-1@csi-snap-1") :=
  ⟨reached_intact tank_vacant tankOutlived_reached, by decide +kernel⟩

/-- Once all objects are gone the pool holds what it held before the first of them. -/
theorem reached_emptied {t₀ : Tracked Taken} (h₀ : S.Vacant t₀ G₀) (h : S.Reached t₀ t)
    (hvolumes : ∀ n, t.world.datasets.lookup n = none)
    (hsnapshots : ∀ n, t.world.snapshots.lookup n = none)
    (d : String) : ((t.world.mem.ds.lookup d).isSome ↔ (t₀.world.mem.ds.lookup d).isSome) ∧
      ∀ m, (t.world.mem.lookupSnap d m).map
        (·.txg) = (t₀.world.mem.lookupSnap d m).map (·.txg) := by
  have hintact := reached_intact h₀ h
  by_cases hd : S.Inside d
  swap
  · exact hintact.elsewhere hd
  have hnone : t.world.mem.ds.lookup d = none := by
    by_contra hsome
    rcases hintact.owned hd (Option.isSome_iff_ne_none.mpr hsome) with ⟨n, X, hX, _⟩ | ⟨n, s, hs, _⟩
    · rw [hvolumes n] at hX
      cases hX
    · rw [hsnapshots n] at hs
      cases hs
  have hnone₀ : t₀.world.mem.ds.lookup d = none := by
    by_contra hsome
    exact (h₀.free hd (Option.isSome_iff_ne_none.mpr hsome)).1 rfl
  simp [Mem.lookupSnap, hnone, hnone₀]

theorem tankDeleting_reached : tankSite.Reached tankTaken tankDeleting :=
  tankOutlived_reached.change (.deleteSnapshot "snap")

theorem tankDeleting_terminating :
    (tankDeleting.world.snapshots.lookup "snap").map (fun s =>
      (s.metadata.terminating, s.containsFinalizer zfsSnapshotFinalizer)) = some (true, true) := by
  decide +kernel

theorem tankDeleting_resumable : tankSite.Resumable (.snapshot "snap") tankDeleting.world := by
  intro s hs hgoing
  have hterminating := tankDeleting_terminating
  rw [Option.mem_def.mp hs, Option.map_some, Option.some_inj, Prod.mk.injEq, hgoing] at hterminating
  cases hterminating.1

theorem tankEmptied_reached : tankSite.Reached tankTaken tankEmptied :=
  tankDeleting_reached.play [.pass (.snapshot "snap")] ⟨⟨trivial, tankDeleting_resumable⟩, trivial⟩

/-- A store without names holds nothing. -/
theorem lookup_none {Spec Status : Type} {st : Store Spec Status} (h : st.objects.keys = [])
    (n : String) :
    st.lookup n = none := by
  have hn : n ∉ st.objects.keys := by simp [h]
  rw [st.objects.mem_keys, Bool.not_eq_true, Option.isSome_eq_false_iff,
    Option.isNone_iff_eq_none] at hn
  exact hn

theorem tankEmptied_keys : tankEmptied.world.datasets.objects.keys = [] ∧
    tankEmptied.world.snapshots.objects.keys = [] := by
  decide +kernel

/-- The last of the objects is gone. -/
theorem tankEmptied_alike : (∀ n, tankEmptied.world.snapshots.lookup n = none) ∧
    ∀ d, (tankEmptied.world.mem.ds.lookup d).isSome ↔ (tankWorld.mem.ds.lookup d).isSome :=
  ⟨lookup_none tankEmptied_keys.2, fun d => (reached_emptied tank_vacant tankEmptied_reached
    (lookup_none tankEmptied_keys.1) (lookup_none tankEmptied_keys.2) d).1⟩

/-! ## No delete gets stuck -/

/-- The object of a task is being deleted and waits for the agent. -/
def Waits (w : World) : AgentTask → Prop
  | .dataset n => ∃ X, w.datasets.lookup n = some X ∧ X.metadata.terminating = true ∧
      X.containsFinalizer zfsDatasetFinalizer = true
  | .snapshot n => ∃ s, w.snapshots.lookup n = some s ∧ s.metadata.terminating = true ∧
      s.containsFinalizer zfsSnapshotFinalizer = true

/-- There is no such object. -/
def Gone (w : World) : AgentTask → Prop
  | .dataset n => w.datasets.lookup n = none
  | .snapshot n => w.snapshots.lookup n = none

/-- The number of snapshots of the dataset, or of the backing clone, of an object. -/
def load (S : Site) (w : World) (k : AgentTask) : Nat :=
  let seat : Option String := match k with
    | .dataset n => (w.datasets.lookup n).map fun X => S.full X.spec.dataset
    | .snapshot n => (w.snapshots.lookup n).map S.backing
  ((seat.bind w.mem.ds.lookup).map fun D => (Mem.snapNames D).length).getD 0

/-- A pass in which nothing fails: its result, and the state it leaves. -/
def pass (S : Site) (k : AgentTask) (t : Tracked Taken) : Except Err Result × Tracked Taken :=
  (k.program S.nodeName).exec (Tracked.handle recordTaken) t

/-- The state after a number of such passes. -/
def after (S : Site) (k : AgentTask) (i : Nat) (t : Tracked Taken) : Tracked Taken :=
  (fun u => (S.pass k u).2)^[i] t

theorem waits_iff : Waits t.world k ↔ ∃ P, S.posts t.world k = some P ∧ P.ending ∧ P.held := by
  cases k with
  | dataset n =>
    constructor
    · rintro ⟨X, hX, hending, hheld⟩
      exact ⟨_, posts_dataset hX, hending, hheld⟩
    · rintro ⟨P, hP, hending, hheld⟩
      obtain ⟨X, hX, rfl⟩ := Option.map_eq_some_iff.mp hP
      exact ⟨X, hX, hending, hheld⟩
  | snapshot n =>
    constructor
    · rintro ⟨s, hs, hending, hheld⟩
      exact ⟨_, posts_snapshot hs, hending, hheld⟩
    · rintro ⟨P, hP, hending, hheld⟩
      obtain ⟨s, hs, rfl⟩ := Option.map_eq_some_iff.mp hP
      exact ⟨s, hs, hending, hheld⟩

theorem gone_of_posts (h : S.posts t.world k = none) : Gone t.world k := by
  cases k with
  | dataset n => exact Option.map_eq_none_iff.mp h
  | snapshot n => exact Option.map_eq_none_iff.mp h

theorem Orderly.load_eq (h : S.Orderly G₀ t G) (hk : S.posts t.world k = some P) :
    S.load t.world k = G.count P.seat := by
  have hcount : ∀ d, (((t.world.mem.ds.lookup d)).map fun D => (Mem.snapNames D).length).getD 0 =
      G.count d := by
    intro d
    cases hD : t.world.mem.ds.lookup d with
    | some D => exact h.represents.length_snapNames hD
    | none =>
      refine (CloneGraph.length_eq_count List.nodup_nil fun x => ?_)
      refine iff_of_false (by simp) fun hx => ?_
      obtain ⟨D, hD'⟩ := h.represents.lookup_of_alive (G.owner_alive hx)
      rw [hD] at hD'
      cases hD'
  cases k with
  | dataset n =>
    obtain ⟨X, hX, rfl⟩ := Option.map_eq_some_iff.mp hk
    simp only [load, hX, Option.map_some, Option.bind_some]
    exact hcount _
  | snapshot n =>
    obtain ⟨s, hs, rfl⟩ := Option.map_eq_some_iff.mp hk
    simp only [load, hs, Option.map_some, Option.bind_some]
    exact hcount _

/-- A post whose tag is released can be given up. -/
theorem Orderly.resumable (h : S.Orderly G₀ t G) (hk : S.posts t.world k = some P)
    (hdying : G.Dying S.Inside P) : S.Resumable k t.world := by
  cases k with
  | dataset n =>
    obtain ⟨X, hX, rfl⟩ := Option.map_eq_some_iff.mp hk
    intro Y hY _ hdirect
    obtain rfl : X = Y := Option.some_inj.mp (hX.symm.trans hY)
    have htag : (S.volumePost t.world X).tag = some (cloneTag X.name) := by
      simp [volumePost, hdirect]
    refine .inr fun d σ hσ => ?_
    obtain ⟨_, howner, hname, hmarked⟩ := h.represents.snap hσ
    by_cases hd : S.Inside d
    · exact hmarked.mpr (hdying.2 _ htag _ d howner hd hname)
    · refine absurd ?_ (h.foreign hk htag hd ((h.apart.owner hd).mp howner))
      rw [← h.apart.name hd howner, hname]
  | snapshot n =>
    obtain ⟨s, hs, rfl⟩ := Option.map_eq_some_iff.mp hk
    intro u hu hgoing
    obtain rfl : s = u := Option.some_inj.mp (hs.symm.trans hu)
    have hending : s.metadata.terminating = true := hdying.1
    rw [hgoing] at hending
    cases hending

/-- A pass for an object that is being deleted lets it go, or leaves it with fewer snapshots. -/
theorem Orderly.pass_cases (h : S.Orderly G₀ t G) (hwaits : Waits t.world k)
    (hres : S.Resumable k t.world) :
    (∀ e, (S.pass k t).1 = .error e → e.isRefusal = false) ∧
      (Gone (S.pass k t).2.world k ∨ ∃ G', S.Orderly G₀ (S.pass k t).2 G' ∧
        Waits (S.pass k t).2.world k ∧
        S.Resumable k (S.pass k t).2.world ∧
        S.load (S.pass k t).2.world k + maxDetachRounds ≤ S.load t.world k) := by
  obtain ⟨P, hP, hending, hheld⟩ := waits_iff.mp hwaits
  obtain ⟨G', horderly, hok, herror⟩ :=
    wpAlone_exec (program_wp never_fails h hres) P hP hending hheld
  refine ⟨fun e he => (herror e he).1, ?_⟩
  cases hr : (S.pass k t).1 with
  | ok r => exact .inl (gone_of_posts (hok r hr))
  | error e =>
    obtain hfailing | ⟨P', hP', hseat, hheld', hdying, hcount⟩ := (herror e hr).2
    · exact absurd hfailing not_failing_never
    refine .inr ⟨G', horderly, waits_iff.mpr ⟨P', hP', hdying.1, hheld'⟩,
      horderly.resumable hP' hdying, ?_⟩
    have hload : S.load (S.pass k t).2.world k = G'.count P'.seat := horderly.load_eq hP'
    rw [hload, h.load_eq hP, hseat]
    exact hcount

/-- An object that is being deleted is let go after finitely many passes in which nothing fails: one
of them is enough for fewer than `maxDetachRounds` snapshots. None of them refuses. -/
theorem reached_deleted {t₀ : Tracked Taken} (h₀ : S.Vacant t₀ G₀) (h : S.Reached t₀ t)
    (hwaits : Waits t.world k) (hres : S.Resumable k t.world) :
    ∃ i ≤ S.load t.world k / maxDetachRounds, Gone (S.after k (i + 1) t).world k ∧
      (∀ j ≤ i, ∀ e, (S.pass k (S.after k j t)).1 = .error e → e.isRefusal = false) ∧
      S.Reached t₀ (S.after k (i + 1) t) := by
  induction hn : S.load t.world k using Nat.strong_induction_on generalizing t with
  | _ n ih =>
    obtain ⟨G, horderly⟩ := h.orderly h₀
    obtain ⟨hrefusal, hcases⟩ := horderly.pass_cases hwaits hres
    have hnext : S.Reached t₀ (S.pass k t).2 := h.pass trivial hres (Runs.exec (fun _ _ => rfl) _ _)
    rcases hcases with hgone | ⟨G', _, hwaits', hres', hload⟩
    · refine ⟨0, Nat.zero_le _, hgone, fun j hj => ?_, hnext⟩
      rw [Nat.le_zero.mp hj]
      exact hrefusal
    rw [hn] at hload
    obtain ⟨i, hi, hgone, hrefusals, hreached⟩ :=
      ih _ (by simp [maxDetachRounds] at hload; omega) hnext hwaits' hres' rfl
    refine ⟨i + 1, ?_, hgone, fun j hj => ?_, hreached⟩
    · have hdiv := Nat.div_le_div_right (c := maxDetachRounds) hload
      rw [Nat.add_div_right _ (by simp [maxDetachRounds])] at hdiv
      omega
    · cases j with
      | zero => exact hrefusal
      | succ j => exact hrefusals j (Nat.le_of_succ_le_succ hj)

/-- The snapshot that has outlived its source is let go by the next pass. -/
theorem tankDeleting_deleted : tankSite.load tankDeleting.world (.snapshot "snap") = 1 ∧
    ∃ i ≤ 0, Gone (tankSite.after (.snapshot "snap") (i + 1) tankDeleting).world
      (.snapshot "snap") := by
  have hload : tankSite.load tankDeleting.world (.snapshot "snap") = 1 := by decide +kernel
  have hwaits : Waits tankDeleting.world (.snapshot "snap") := by
    obtain ⟨s, hs, hs'⟩ := Option.map_eq_some_iff.mp tankDeleting_terminating
    exact ⟨s, hs, (Prod.mk.inj hs').1, (Prod.mk.inj hs').2⟩
  obtain ⟨i, hi, hgone, _⟩ :=
    reached_deleted tank_vacant tankDeleting_reached hwaits tankDeleting_resumable
  rw [hload] at hi
  exact ⟨hload, i, hi, hgone⟩

end Site

end SimpleZfsCsi.Agent
