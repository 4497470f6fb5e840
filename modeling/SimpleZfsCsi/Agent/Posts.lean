import SimpleZfsCsi.Agent.Passes
import SimpleZfsCsi.Agent.Site
import SimpleZfsCsi.Library.Registry
import SimpleZfsCsi.Memzfs.Promote

/-!
# The objects as posts of a registry

A ZfsDataset is in charge of its dataset, and answers for the snapshot it was directly cloned
from. A ZfsSnapshot is in charge of its backing clone, and answers for its raw snapshot.
`Orderly` is the invariant of a site whose objects have names and paths of their own: the pool
is in the keeping of the objects. What is remembered of a run is the transaction group in which
each snapshot name was last taken.
-/

namespace SimpleZfsCsi.Agent

open Library Api Memzfs Text

/-- The transaction group in which a name was last taken. -/
abbrev Taken := String → Option Nat

/-- What a call adds to that. -/
def recordTaken : AgentCall → World → World → Taken → Taken
  | .snapshot names, w, w', taken =>
    if w'.mem.txg = w.mem.txg then taken
    else fun n => if n ∈ names.map fun name => (Memzfs.split name).2.1 then
      some w'.mem.txg else taken n
  | _, _, _, taken => taken

namespace Site

variable {S : Site} {w : World}

/-! ## Objects that fit the site -/

/-- The source of a volume is none, an object, or a dataset on a spot. -/
def FitsSource (S : Site) : Option DatasetSource → Prop
  | some (.snapshot _) => False
  | some (.volume path) => S.Spot path
  | _ => True

structure FitsVolume (S : Site) (X : ZfsDataset) : Prop where
  guid : X.spec.poolGUID = S.guid
  name : Tidy X.name
  spot : S.Spot X.spec.dataset
  source : S.FitsSource X.spec.source
  finalizers : ∀ f ∈ X.metadata.finalizers, f = zfsDatasetFinalizer

structure FitsSnapshot (S : Site) (s : ZfsSnapshot) : Prop where
  guid : s.spec.poolGUID = S.guid
  spot : S.Spot s.spec.dataset
  raw : Raw s.spec.snapshotName
  backing : S.Spot (backingDataset s.spec.dataset s.spec.snapshotName)
  finalizers : ∀ f ∈ s.metadata.finalizers, f = zfsSnapshotFinalizer
  /-- Ready is set together with the time of provisioning, and for good -/
  ready : s.status.phase = some .ready ↔ s.status.provisionedAt.isSome = true

/-- The objects fit, the node hosts the pool, and no snapshot is led astray by the name of its
source. -/
structure Roster (S : Site) (w : World) : Prop where
  hosted : ∃ pool, w.pools.lookup (resourceName S.guid) = some pool ∧
    hostedHere S.nodeName (some pool) = true ∧ pool.status.poolName = S.poolName
  volume : ∀ {n X}, w.datasets.lookup n = some X → X.name = n ∧ S.FitsVolume X
  snapshot : ∀ {n s}, w.snapshots.lookup n = some s → s.name = n ∧ S.FitsSnapshot s
  source : ∀ {n s X}, w.snapshots.lookup n = some s →
    w.datasets.lookup s.spec.sourceVolume = some X → X.spec.dataset = s.spec.dataset

theorem Roster.sourcePath_eq (h : S.Roster w) {n : String} {s : ZfsSnapshot}
    (hs : w.snapshots.lookup n = some s) : sourcePath w s = s.spec.dataset := by
  unfold sourcePath
  split_ifs
  · rfl
  · cases hX : w.datasets.lookup s.spec.sourceVolume with
    | none => rfl
    | some X => exact h.source hs hX

/-! ## Posts -/

/-- Where the snapshot of a directly cloned volume is taken. -/
def cloneHome (S : Site) (w : World) (X : ZfsDataset) (d : String) : Prop :=
  match X.spec.source with
  | some (.volume path) => d = S.full path
  | some (.zfsDatasetRef name) => ∃ V, w.datasets.lookup name = some V ∧ d = S.full V.spec.dataset
  | _ => False

def volumePost (S : Site) (w : World) (X : ZfsDataset) : Post String String where
  seat := S.full X.spec.dataset
  tag := if ZfsDatasetReconciler.isDirectClone X.spec.source then some (cloneTag X.name) else none
  home := S.cloneHome w X
  ending := X.metadata.terminating
  held := X.containsFinalizer zfsDatasetFinalizer
  done := datasetProvisioned X

/-- The full name of the backing clone of a snapshot. -/
def backing (S : Site) (s : ZfsSnapshot) : String :=
  S.full (backingDataset s.spec.dataset s.spec.snapshotName)

def snapshotPost (S : Site) (s : ZfsSnapshot) : Post String String where
  seat := S.backing s
  tag := some s.spec.snapshotName
  home d := d = S.full s.spec.dataset
  ending := s.metadata.terminating
  held := s.containsFinalizer zfsSnapshotFinalizer
  done := s.status.provisionedAt.isSome

def posts (S : Site) (w : World) : AgentTask → Option (Post String String)
  | .dataset n => (w.datasets.lookup n).map (S.volumePost w)
  | .snapshot n => (w.snapshots.lookup n).map S.snapshotPost

theorem posts_dataset {n : String} {X : ZfsDataset} (h : w.datasets.lookup n = some X) :
    S.posts w (.dataset n) = some (S.volumePost w X) := by
  simp only [posts, h, Option.map_some]

theorem posts_snapshot {n : String} {s : ZfsSnapshot} (h : w.snapshots.lookup n = some s) :
    S.posts w (.snapshot n) = some (S.snapshotPost s) := by
  simp only [posts, h, Option.map_some]

/-! ## The invariant -/

/-- The pool is in the keeping of the objects, and outside the spots it is as `G₀` was. -/
structure Orderly (S : Site) (G₀ : CloneGraph String String) (t : Tracked Taken)
    (G : CloneGraph String String) : Prop where
  represents : Represents t.world.mem G
  roster : S.Roster t.world
  keeps : G.Keeps S.Inside Driver (S.posts t.world) t.ghost
  below : ∀ {d e}, S.Inside d → G.alive e → startsWith e (d ++ "/") = false
  apart : CloneGraph.Apart S.Inside G₀ G
  /-- no tag is the name of a snapshot elsewhere -/
  foreign : ∀ {k P n}, S.posts t.world k = some P → P.tag = some n →
    ∀ {x d}, ¬ S.Inside d → G₀.owner x = some d → G₀.name x ≠ n

/-! ## Objects that come, change and go -/

variable {t : Tracked Taken} {G₀ G : CloneGraph String String} {n : String} {X X' : ZfsDataset}
  {s s' : ZfsSnapshot}

/-- The world with other volumes, and with other snapshots. -/
def withDatasets (t : Tracked Taken) (st : Store ZfsDatasetSpec ZfsDatasetStatus) : Tracked Taken :=
  ⟨{ t.world with datasets := st }, t.ghost⟩

def withSnapshots (t : Tracked Taken) (st : Store ZfsSnapshotSpec ZfsSnapshotStatus) :
    Tracked Taken :=
  ⟨{ t.world with snapshots := st }, t.ghost⟩

/-- A home lasts as long as the source is there. -/
theorem cloneHome_mono {w' : World}
    (hmono : ∀ m V, w.datasets.lookup m = some V → G.alive (S.full V.spec.dataset) →
      ∃ V', w'.datasets.lookup m = some V' ∧ V'.spec.dataset = V.spec.dataset)
    (hspec : X'.spec = X.spec) (d : String) (hd : G.alive d) (h : S.cloneHome w X d) :
    S.cloneHome w' X' d := by
  unfold cloneHome at h ⊢
  rw [hspec]
  split
  case h_1 path hpath =>
    rw [hpath] at h
    exact h
  case h_2 name hname =>
    rw [hname] at h
    obtain ⟨V, hV, rfl⟩ := h
    obtain ⟨V', hV', hds⟩ := hmono name V hV hd
    exact ⟨V', hV', by rw [hds]⟩
  case h_3 h₁ h₂ =>
    split at h
    · exact h₁ _ (by assumption)
    · exact h₂ _ (by assumption)
    · exact h

/-- A volume that stays as it is, while others come and go. -/
theorem volumePost_follows {w' : World}
    (hmono : ∀ m V, w.datasets.lookup m = some V → G.alive (S.full V.spec.dataset) →
      ∃ V', w'.datasets.lookup m = some V' ∧ V'.spec.dataset = V.spec.dataset) :
    CloneGraph.Keeps.Follows G (S.volumePost w X) (S.volumePost w' X) :=
  ⟨rfl, rfl, cloneHome_mono hmono rfl, id, id, .inl⟩

theorem lookup_put {Spec Status : Type} (st : Store Spec Status) {o : Object Spec Status}
    (hreleased : o.released = false) (v : String) : (st.put n o).lookup v = if v = n then
      some { o with metadata := { o.metadata with resourceVersion := st.revision + 1 } }
      else st.lookup v := by
  split_ifs with hv
  · rw [hv, Store.lookup_put_self, hreleased]
    rfl
  · exact st.lookup_put_of_ne o hv

theorem lookup_put_released {Spec Status : Type} (st : Store Spec Status) {o : Object Spec Status}
    (hreleased : o.released = true) : (st.put n o).lookup n = none := by
  rw [Store.lookup_put_self, hreleased]
  rfl

/-- One object changes, and the others go on as before: the pool stays in the keeping of the posts
if it is in the keeping of those in which only that one has changed. -/
theorem Orderly.change (h : S.Orderly G₀ t G) {w' : World} {k₀ : AgentTask}
    {q : Option (Post String String)}
    (hmem : w'.mem = t.world.mem) (hroster : S.Roster w')
    (hothers : ∀ k, k ≠ k₀ →
      Option.Rel (CloneGraph.Keeps.Follows G) (S.posts t.world k) (S.posts w' k))
    (hself : Option.Rel (CloneGraph.Keeps.Follows G) q (S.posts w' k₀))
    (hkeeps : G.Keeps S.Inside Driver (Function.update (S.posts t.world) k₀ q) t.ghost)
    (hforeign : ∀ P tag, q = some P → P.tag = some tag →
      ∀ x d, ¬ S.Inside d → G₀.owner x = some d → G₀.name x ≠ tag) :
    S.Orderly G₀ ⟨w', t.ghost⟩ G := by
  have hrel : ∀ k, Option.Rel (CloneGraph.Keeps.Follows G)
      (Function.update (S.posts t.world) k₀ q k) (S.posts w' k) := by
    intro k
    by_cases hk : k = k₀
    · subst hk
      rwa [Function.update_self]
    · rw [Function.update_of_ne hk]
      exact hothers k hk
  have hleft : ∀ {k P}, Function.update (S.posts t.world) k₀ q k = some P →
      ∃ P', S.posts w' k = some P' := by
    intro k P hk
    have hpost := hrel k
    rw [hk] at hpost
    generalize S.posts w' k = o at hpost ⊢
    cases hpost with
    | some _ => exact ⟨_, rfl⟩
  have hright : ∀ {k P'}, S.posts w' k = some P' →
      ∃ P, Function.update (S.posts t.world) k₀ q k = some P ∧ CloneGraph.Keeps.Follows G P P' := by
    intro k P' hk
    have hpost := hrel k
    rw [hk] at hpost
    generalize Function.update (S.posts t.world) k₀ q k = o at hpost ⊢
    cases hpost with
    | some hfollows => exact ⟨_, rfl, hfollows⟩
  refine ⟨hmem.symm ▸ h.represents, hroster, hkeeps.follow hleft hright, h.below, h.apart,
    fun {k P' tag} hk htag {x d} hd hx => ?_⟩
  obtain ⟨P, hP, hfollows⟩ := hright hk
  rw [hfollows.tag] at htag
  by_cases hk₀ : k = k₀
  · rw [hk₀, Function.update_self] at hP
    exact hforeign P tag hP htag x d hd hx
  · rw [Function.update_of_ne hk₀] at hP
    exact h.foreign hP htag hd hx

/-- The posts of an object that stays what it is. -/
theorem Orderly.change_same (h : S.Orderly G₀ t G) {w' : World} {k₀ : AgentTask}
    (hmem : w'.mem = t.world.mem) (hroster : S.Roster w')
    (hothers : ∀ k, k ≠ k₀ →
      Option.Rel (CloneGraph.Keeps.Follows G) (S.posts t.world k) (S.posts w' k))
    (hself : Option.Rel (CloneGraph.Keeps.Follows G) (S.posts t.world k₀) (S.posts w' k₀)) :
    S.Orderly G₀ ⟨w', t.ghost⟩ G := by
  refine h.change hmem hroster hothers hself ?_ fun P tag hP htag x d hd
    hx => h.foreign hP htag hd hx
  rw [Function.update_eq_self]
  exact h.keeps

/-- The snapshots of a name that cannot be found do not exist. -/
theorem name_ne_of_lookupSnap (h : Represents w.mem G) {tag : String}
    (htag : ∀ d, w.mem.lookupSnap d tag = none) {x : Nat} {d : String} (hx : G.owner x = some d) :
    G.name x ≠ tag := by
  rintro rfl
  obtain ⟨σ, hσ, _⟩ := h.owned hx
  rw [htag d] at hσ
  cases hσ

/-- A name that is nowhere in the pool is none of a snapshot elsewhere. -/
theorem Orderly.foreign_of_lookupSnap (h : S.Orderly G₀ t G) {tag : String}
    (htag : ∀ d, t.world.mem.lookupSnap d tag = none) {x : Nat} {d : String} (hd : ¬ S.Inside d)
    (hx : G₀.owner x = some d) : G₀.name x ≠ tag := by
  have hxG := (h.apart.owner hd).mpr hx
  rw [← h.apart.name hd hxG]
  exact name_ne_of_lookupSnap h.represents htag hxG

section Volume

variable {st : Store ZfsDatasetSpec ZfsDatasetStatus}
  (hst : ∀ m, m ≠ n → st.lookup m = t.world.datasets.lookup m)

include hst in
/-- The homes last if that of the volume that changes does. -/
theorem homes_last
    (hon : ∀ V, t.world.datasets.lookup n = some V → G.alive (S.full V.spec.dataset) →
      ∃ V', st.lookup n = some V' ∧ V'.spec.dataset = V.spec.dataset) (m : String) (V : ZfsDataset)
    (hV : t.world.datasets.lookup m = some V) (halive : G.alive (S.full V.spec.dataset)) :
    ∃ V', st.lookup m = some V' ∧ V'.spec.dataset = V.spec.dataset := by
  by_cases hm : m = n
  · subst hm
    exact hon V hV halive
  · exact ⟨V, (hst m hm).trans hV, rfl⟩

include hst in
theorem volume_others
    (hmono : ∀ m V, t.world.datasets.lookup m = some V → G.alive (S.full V.spec.dataset) →
      ∃ V', st.lookup m = some V' ∧ V'.spec.dataset = V.spec.dataset) (k : AgentTask)
        (hk : k ≠ .dataset n) :
    Option.Rel (CloneGraph.Keeps.Follows G) (S.posts t.world k)
      (S.posts (withDatasets t st).world k) := by
  cases k with
  | dataset m =>
    have hlookup : (withDatasets t st).world.datasets.lookup m = t.world.datasets.lookup m :=
      hst m fun h => hk (congrArg AgentTask.dataset h)
    simp only [posts, hlookup]
    cases t.world.datasets.lookup m with
    | none => exact .none
    | some V => exact .some (volumePost_follows hmono)
  | snapshot m =>
    have hlookup : (withDatasets t st).world.snapshots.lookup m = t.world.snapshots.lookup m := rfl
    simp only [posts, hlookup]
    cases t.world.snapshots.lookup m with
    | none => exact .none
    | some s => exact .some (CloneGraph.Keeps.Follows.refl G _)

include hst in
theorem Roster.withDatasets (h : S.Roster t.world)
    (hfits : ∀ V, st.lookup n = some V → V.name = n ∧ S.FitsVolume V)
    (hsource : ∀ m s V, t.world.snapshots.lookup m = some s → s.spec.sourceVolume = n →
      st.lookup n = some V →
      V.spec.dataset = s.spec.dataset) : S.Roster (withDatasets t st).world where
  hosted := h.hosted
  volume {m V} hV := by
    replace hV : st.lookup m = some V := hV
    by_cases hm : m = n
    · subst hm
      exact hfits V hV
    · exact h.volume ((hst m hm).symm.trans hV)
  snapshot := h.snapshot
  source {m s V} hs hV := by
    replace hV : st.lookup s.spec.sourceVolume = some V := hV
    by_cases hm : s.spec.sourceVolume = n
    · exact hsource m s V hs hm (hm ▸ hV)
    · exact h.source hs ((hst _ hm).symm.trans hV)

end Volume

/-- A volume goes on. -/
theorem Orderly.putVolume (h : S.Orderly G₀ t G) (hX : t.world.datasets.lookup n = some X)
    (hspec : X'.spec = X.spec) (hname : X'.name = n) (hfits : S.FitsVolume X')
    (hreleased : X'.released = false)
    (hending : X.metadata.terminating = true → X'.metadata.terminating = true)
    (hheld : X.containsFinalizer zfsDatasetFinalizer = true →
      X'.containsFinalizer zfsDatasetFinalizer = true)
    (hdone : datasetProvisioned X' = true → datasetProvisioned X = true ∨
      G.alive (S.full X.spec.dataset)) :
    S.Orderly G₀ (withDatasets t (t.world.datasets.put n X')) G := by
  have hst : ∀ m, m ≠ n → (t.world.datasets.put n X').lookup m = t.world.datasets.lookup m :=
    fun m hm => t.world.datasets.lookup_put_of_ne X' hm
  have hput := (lookup_put t.world.datasets hreleased n).trans (if_pos rfl)
  have hdataset : X'.spec.dataset = X.spec.dataset := congrArg ZfsDatasetSpec.dataset hspec
  have hmono := homes_last (S := S) (G := G) hst fun V hV _ => by
    obtain rfl := Option.some_inj.mp (hX.symm.trans hV)
    exact ⟨_, hput, hdataset⟩
  refine h.change_same rfl (h.roster.withDatasets hst (fun V hV => ?_) fun m s V hs hm hV => ?_)
    (volume_others hst hmono) ?_
  · obtain rfl := Option.some_inj.mp (hput.symm.trans hV)
    exact ⟨hname, hfits.guid, hfits.name, hfits.spot, hfits.source, hfits.finalizers⟩
  · obtain rfl := Option.some_inj.mp (hput.symm.trans hV)
    exact hdataset.trans (h.roster.source hs (hm ▸ hX))
  · rw [posts_dataset hX, posts_dataset hput]
    refine .some ⟨congrArg S.full hdataset, ?_, cloneHome_mono hmono hspec, hending, hheld, hdone⟩
    have hsame : X'.name = X.name := hname.trans (h.roster.volume hX).1.symm
    simp only [volumePost, hspec]
    simp only [Object.name] at hsame ⊢
    rw [hsame]

/-- A volume goes away: it never had a dataset, or has none any more. -/
theorem Orderly.dropVolume (h : S.Orderly G₀ t G) (hX : t.world.datasets.lookup n = some X)
    (hreleased : X'.released = true)
    (hheld : X.containsFinalizer zfsDatasetFinalizer = true → ¬ G.alive (S.full X.spec.dataset) ∧
      ∀ tag, (S.volumePost t.world X).tag = some tag → G.Released S.Inside tag) :
    S.Orderly G₀ (withDatasets t (t.world.datasets.put n X')) G := by
  have hst : ∀ m, m ≠ n → (t.world.datasets.put n X').lookup m = t.world.datasets.lookup m :=
    fun m hm => t.world.datasets.lookup_put_of_ne X' hm
  have hput : (t.world.datasets.put n X').lookup n = none :=
    lookup_put_released t.world.datasets hreleased
  have hdead : ¬ G.alive (S.full X.spec.dataset) := by
    intro halive
    obtain ⟨k, P, hk, hseat, hPheld⟩ := h.keeps.owned halive (h.roster.volume hX).2.spot.inside
    obtain rfl := h.keeps.seat_inj hk (posts_dataset hX) hseat
    rw [posts_dataset hX] at hk
    obtain rfl := Option.some_inj.mp hk
    exact (hheld hPheld).1 halive
  have hmono := homes_last (S := S) (G := G) hst fun V hV halive => by
    obtain rfl := Option.some_inj.mp (hX.symm.trans hV)
    exact absurd halive hdead
  have hgone : ∀ {V}, (t.world.datasets.put n X').lookup n = some V → False := by
    intro V hV
    rw [hput] at hV
    cases hV
  refine h.change rfl
    (h.roster.withDatasets hst (fun V hV => (hgone hV).elim) fun m s V _ _ hV => (hgone hV).elim)
    (volume_others hst hmono) ?_
    (h.keeps.drop (posts_dataset hX) (fun hh => (hheld hh).1) fun hh => (hheld hh).2) nofun
  have hnone : S.posts (withDatasets t (t.world.datasets.put n X')).world (.dataset n) = none :=
    congrArg (Option.map _) hput
  exact hnone.symm ▸ .none

/-- A name and a path for a volume that nothing uses. -/
structure FreshVolume (S : Site) (w : World) (n : String) (spec : ZfsDatasetSpec) : Prop where
  guid : spec.poolGUID = S.guid
  name : Tidy n
  spot : S.Spot spec.dataset
  source : S.FitsSource spec.source
  path : ∀ {m V}, w.datasets.lookup m = some V → V.spec.dataset ≠ spec.dataset
  backing : ∀ {m s}, w.snapshots.lookup m = some s →
    backingDataset s.spec.dataset s.spec.snapshotName ≠ spec.dataset
  referred : ∀ {m s}, w.snapshots.lookup m = some s → s.spec.sourceVolume ≠ n
  dataset : w.mem.ds.lookup (S.full spec.dataset) = none
  tag : ∀ d, w.mem.lookupSnap d (cloneTag n) = none

/-- A new volume. -/
theorem Orderly.addVolume (h : S.Orderly G₀ t G) (hn : t.world.datasets.lookup n = none)
    (hname : X.name = n) (hfresh : S.FreshVolume t.world n X.spec)
    (hfinalizers : X.metadata.finalizers = []) (hending : X.metadata.terminating = false)
    (hdone : datasetProvisioned X = false) :
    S.Orderly G₀ (withDatasets t (t.world.datasets.put n X)) G := by
  have hst : ∀ m, m ≠ n → (t.world.datasets.put n X).lookup m = t.world.datasets.lookup m :=
    fun m hm => t.world.datasets.lookup_put_of_ne X hm
  have hreleased : X.released = false := by simp [Object.released, hending]
  have hput := (lookup_put t.world.datasets hreleased n).trans (if_pos rfl)
  have hmono := homes_last (S := S) (G := G) hst fun V hV _ => by
    rw [hn] at hV
    cases hV
  have hnone : S.posts t.world (.dataset n) = none := by simp only [posts, hn, Option.map_none]
  have hcases : ∀ tag, (S.volumePost t.world X).tag = some tag → tag = cloneTag n := by
    intro tag htag
    simp only [volumePost] at htag
    split_ifs at htag
    rw [← hname]
    exact (Option.some_inj.mp htag).symm
  have hadd := h.keeps.add (P := S.volumePost t.world X) hnone hfresh.spot.inside
    (fun {k' P'} hk' hseat => ?_) (fun {k' P' tag} hk' htag htag' => ?_)
    (fun tag htag => hcases tag htag ▸ cloneTag_driver hfresh.name)
    (fun tag htag x d hx _ => hcases tag htag ▸ name_ne_of_lookupSnap h.represents hfresh.tag hx) ?_
    (by simp [volumePost, hdone])
  rotate_left
  · -- no seat is there already
    cases k' with
    | dataset m =>
      obtain ⟨V, hV, rfl⟩ := Option.map_eq_some_iff.mp hk'
      exact hfresh.path hV (full_inj hseat)
    | snapshot m =>
      obtain ⟨s, hs, rfl⟩ := Option.map_eq_some_iff.mp hk'
      exact hfresh.backing hs (full_inj hseat)
  · -- the tags of volumes differ with their names, and those of snapshots are other words
    obtain rfl := hcases tag htag
    cases k' with
    | dataset m =>
      obtain ⟨V, hV, rfl⟩ := Option.map_eq_some_iff.mp hk'
      simp only [volumePost] at htag'
      split_ifs at htag'
      have hmn : V.name = n := cloneTag_inj (Option.some_inj.mp htag')
      rw [(h.roster.volume hV).1] at hmn
      rw [hmn, hn] at hV
      cases hV
    | snapshot m =>
      obtain ⟨s, hs, rfl⟩ := Option.map_eq_some_iff.mp hk'
      exact (h.roster.snapshot hs).2.raw.ne_cloneTag n (Option.some_inj.mp htag')
  · rw [h.represents.alive]
    simp only [volumePost]
    rw [hfresh.dataset]
    simp
  refine h.change rfl
    (h.roster.withDatasets hst (fun V hV => ?_) fun m s V hs hm _ => (hfresh.referred hs hm).elim)
    (volume_others hst hmono) ?_ hadd fun P tag hP htag x d hd hx => ?_
  · obtain rfl := Option.some_inj.mp (hput.symm.trans hV)
    refine ⟨hname, hfresh.guid, hname ▸ hfresh.name, hfresh.spot, hfresh.source, ?_⟩
    simp only [hfinalizers]
    simp
  · rw [posts_dataset hput]
    exact .some ⟨rfl, rfl, cloneHome_mono hmono rfl, id, id, .inl⟩
  · obtain rfl := Option.some_inj.mp hP
    obtain rfl := hcases tag htag
    exact h.foreign_of_lookupSnap hfresh.tag hd hx

section Snapshot

variable {st : Store ZfsSnapshotSpec ZfsSnapshotStatus}
  (hst : ∀ m, m ≠ n → st.lookup m = t.world.snapshots.lookup m)

include hst in
theorem snapshot_others (k : AgentTask) (hk : k ≠ .snapshot n) :
    Option.Rel (CloneGraph.Keeps.Follows G) (S.posts t.world k)
      (S.posts (withSnapshots t st).world k) := by
  have hsame : S.posts (withSnapshots t st).world k = S.posts t.world k := by
    cases k with
    | dataset m => rfl
    | snapshot m =>
      exact congrArg (Option.map _) (hst m fun h => hk (congrArg AgentTask.snapshot h))
  rw [hsame]
  cases S.posts t.world k with
  | none => exact .none
  | some P => exact .some (CloneGraph.Keeps.Follows.refl G P)

include hst in
theorem Roster.withSnapshots (h : S.Roster t.world)
    (hfits : ∀ u, st.lookup n = some u → u.name = n ∧ S.FitsSnapshot u ∧
      ∀ V, t.world.datasets.lookup u.spec.sourceVolume = some V → V.spec.dataset = u.spec.dataset) :
    S.Roster (withSnapshots t st).world where
  hosted := h.hosted
  volume := h.volume
  snapshot {m u} hu := by
    replace hu : st.lookup m = some u := hu
    by_cases hm : m = n
    · subst hm
      exact ⟨(hfits u hu).1, (hfits u hu).2.1⟩
    · exact h.snapshot ((hst m hm).symm.trans hu)
  source {m u V} hu hV := by
    replace hu : st.lookup m = some u := hu
    by_cases hm : m = n
    · subst hm
      exact (hfits u hu).2.2 V hV
    · exact h.source ((hst m hm).symm.trans hu) hV

end Snapshot

/-- A snapshot goes on. -/
theorem Orderly.putSnapshot (h : S.Orderly G₀ t G) (hs : t.world.snapshots.lookup n = some s)
    (hspec : s'.spec = s.spec) (hname : s'.name = n) (hfits : S.FitsSnapshot s')
    (hreleased : s'.released = false)
    (hending : s.metadata.terminating = true → s'.metadata.terminating = true)
    (hheld : s.containsFinalizer zfsSnapshotFinalizer = true →
      s'.containsFinalizer zfsSnapshotFinalizer = true)
    (hdone : s'.status.provisionedAt.isSome = true → s.status.provisionedAt.isSome = true ∨
      G.alive (S.backing s)) :
    S.Orderly G₀ (withSnapshots t (t.world.snapshots.put n s')) G := by
  have hst : ∀ m, m ≠ n → (t.world.snapshots.put n s').lookup m = t.world.snapshots.lookup m :=
    fun m hm => t.world.snapshots.lookup_put_of_ne s' hm
  have hput := (lookup_put t.world.snapshots hreleased n).trans (if_pos rfl)
  refine h.change_same rfl (h.roster.withSnapshots hst fun u hu => ?_) (snapshot_others hst) ?_
  · obtain rfl := Option.some_inj.mp (hput.symm.trans hu)
    refine ⟨hname, ⟨hfits.guid, hfits.spot, hfits.raw, hfits.backing, hfits.finalizers,
      hfits.ready⟩, fun V hV => ?_⟩
    show V.spec.dataset = s'.spec.dataset
    replace hV : t.world.datasets.lookup s'.spec.sourceVolume = some V := hV
    rw [hspec] at hV ⊢
    exact h.roster.source hs hV
  · rw [posts_snapshot hs, posts_snapshot hput]
    refine .some ⟨?_, ?_, fun d _ hd => ?_, hending, hheld, hdone⟩
    · simp only [snapshotPost, Site.backing, hspec]
    · simp only [snapshotPost, hspec]
    · simp only [snapshotPost, hspec] at hd ⊢
      exact hd

/-- A snapshot goes away: it never had anything, or has nothing any more. -/
theorem Orderly.dropSnapshot (h : S.Orderly G₀ t G) (hs : t.world.snapshots.lookup n = some s)
    (hreleased : s'.released = true)
    (hheld : s.containsFinalizer zfsSnapshotFinalizer = true → ¬ G.alive (S.backing s) ∧
      G.Released S.Inside s.spec.snapshotName) :
    S.Orderly G₀ (withSnapshots t (t.world.snapshots.put n s')) G := by
  have hst : ∀ m, m ≠ n → (t.world.snapshots.put n s').lookup m = t.world.snapshots.lookup m :=
    fun m hm => t.world.snapshots.lookup_put_of_ne s' hm
  have hput : (t.world.snapshots.put n s').lookup n = none :=
    lookup_put_released t.world.snapshots hreleased
  have hgone : ∀ {u}, (t.world.snapshots.put n s').lookup n = some u → False := by
    intro u hu
    rw [hput] at hu
    cases hu
  have hdrop := h.keeps.drop (posts_snapshot hs) (fun hh => (hheld hh).1) fun hh tag htag =>
    Option.some_inj.mp htag ▸ (hheld hh).2
  refine h.change rfl (h.roster.withSnapshots hst fun u hu => (hgone hu).elim) (snapshot_others hst)
    ?_ hdrop nofun
  have hnone : S.posts (withSnapshots t (t.world.snapshots.put n s')).world (.snapshot n) = none :=
    congrArg (Option.map _) hput
  exact hnone.symm ▸ .none

/-- A name and a raw snapshot for a ZfsSnapshot that nothing uses. -/
structure FreshSnapshot (S : Site) (w : World) (n : String) (spec : ZfsSnapshotSpec) : Prop where
  guid : spec.poolGUID = S.guid
  spot : S.Spot spec.dataset
  raw : Raw spec.snapshotName
  backing : S.Spot (backingDataset spec.dataset spec.snapshotName)
  path : ∀ {m V}, w.datasets.lookup m = some V →
    V.spec.dataset ≠ backingDataset spec.dataset spec.snapshotName
  names : ∀ {m u}, w.snapshots.lookup m = some u → u.spec.snapshotName ≠ spec.snapshotName
  source : ∀ {V}, w.datasets.lookup spec.sourceVolume = some V → V.spec.dataset = spec.dataset
  dataset : w.mem.ds.lookup (S.full (backingDataset spec.dataset spec.snapshotName)) = none
  tag : ∀ d, w.mem.lookupSnap d spec.snapshotName = none

/-- A new snapshot. -/
theorem Orderly.addSnapshot (h : S.Orderly G₀ t G) (hn : t.world.snapshots.lookup n = none)
    (hname : s.name = n) (hfresh : S.FreshSnapshot t.world n s.spec)
    (hfinalizers : s.metadata.finalizers = []) (hending : s.metadata.terminating = false)
    (hstatus : s.status = {}) :
    S.Orderly G₀ (withSnapshots t (t.world.snapshots.put n s)) G := by
  have hst : ∀ m, m ≠ n → (t.world.snapshots.put n s).lookup m = t.world.snapshots.lookup m :=
    fun m hm => t.world.snapshots.lookup_put_of_ne s hm
  have hreleased : s.released = false := by simp [Object.released, hending]
  have hput := (lookup_put t.world.snapshots hreleased n).trans (if_pos rfl)
  have hnone : S.posts t.world (.snapshot n) = none := by simp only [posts, hn, Option.map_none]
  have hadd := h.keeps.add (P := S.snapshotPost s) hnone hfresh.backing.inside
    (fun {k' P'} hk' hseat => ?_) (fun {k' P' tag} hk' htag htag' => ?_)
    (fun tag htag => Option.some_inj.mp htag ▸ hfresh.raw.1)
    (fun tag htag x d hx _ =>
      Option.some_inj.mp htag ▸ name_ne_of_lookupSnap h.represents hfresh.tag hx) ?_
    (by simp [snapshotPost, hstatus])
  rotate_left
  · cases k' with
    | dataset m =>
      obtain ⟨V, hV, rfl⟩ := Option.map_eq_some_iff.mp hk'
      exact hfresh.path hV (full_inj hseat)
    | snapshot m =>
      -- two backing clones have the names of two snapshots
      obtain ⟨u, hu, rfl⟩ := Option.map_eq_some_iff.mp hk'
      have hfits := (h.roster.snapshot hu).2
      have hbase := congrArg base (full_inj hseat)
      rw [hfits.spot.base_backingDataset hfits.raw.1.1,
        hfresh.spot.base_backingDataset hfresh.raw.1.1] at hbase
      exact hfresh.names hu hbase
  · obtain rfl := Option.some_inj.mp htag
    cases k' with
    | dataset m =>
      obtain ⟨V, hV, rfl⟩ := Option.map_eq_some_iff.mp hk'
      simp only [volumePost] at htag'
      split_ifs at htag'
      exact hfresh.raw.ne_cloneTag _ (Option.some_inj.mp htag').symm
    | snapshot m =>
      obtain ⟨u, hu, rfl⟩ := Option.map_eq_some_iff.mp hk'
      exact hfresh.names hu (Option.some_inj.mp htag')
  · rw [h.represents.alive]
    simp only [snapshotPost, Site.backing]
    rw [hfresh.dataset]
    simp
  refine h.change rfl (h.roster.withSnapshots hst fun u hu => ?_) (snapshot_others hst) ?_ hadd
    fun P tag hP htag x d hd hx => ?_
  · obtain rfl := Option.some_inj.mp (hput.symm.trans hu)
    refine ⟨hname, ⟨hfresh.guid, hfresh.spot, hfresh.raw, hfresh.backing, ?_, ?_⟩,
      fun V hV => hfresh.source hV⟩
    · simp only [hfinalizers]
      simp
    · simp [hstatus]
  · rw [posts_snapshot hput]
    exact .some ⟨rfl, rfl, fun _ _ => id, id, id, .inl⟩
  · obtain rfl := Option.some_inj.mp hP
    obtain rfl := Option.some_inj.mp htag
    exact h.foreign_of_lookupSnap hfresh.tag hd hx

end Site

end SimpleZfsCsi.Agent
