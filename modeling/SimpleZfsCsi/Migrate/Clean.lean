import SimpleZfsCsi.Memzfs.Refinement
import SimpleZfsCsi.Migrate.Applied
import SimpleZfsCsi.Migrate.Notes

/-!
# The migration reaches a clean audit

Nothing a plan does adds a name to what is listed, so the second audit makes at most the claims of
the first, and finds each of them labelled.
-/

namespace SimpleZfsCsi.Migrate

open Library Api Agent Program Memzfs

/-! ## Listing -/

section Listing

variable {zfs : FinMap String Entry} {roots : List String} {n : String}

/-- The objects of a listing. -/
def listing (zfs : FinMap String Entry) (roots : List String) : List Obj :=
  (listNames zfs roots).filterMap fun n => (zfs.lookup n).map (·.obj n)

theorem mem_listNames : n ∈ listNames zfs roots ↔
    (zfs.lookup n).isSome ∧ ∃ root ∈ roots, (zfs.lookup root).isSome ∧
    withinOneLevel n root = true := by
  have hfold : ∀ (roots listed : List String),
      n ∈ roots.foldl (fun listed root => if (zfs.lookup root).isNone then listed
        else listed ++ zfs.sortedKeys.filter fun n => withinOneLevel n root && n ∉ listed) listed ↔
      n ∈ listed ∨ ((zfs.lookup n).isSome ∧ ∃ root ∈ roots, (zfs.lookup root).isSome ∧
        withinOneLevel n root = true) := by
    intro roots
    induction roots with
    | nil => simp
    | cons root roots ih =>
      intro listed
      rw [List.foldl_cons, ih]
      cases hroot : zfs.lookup root with
      | none => simp [hroot]
      | some e =>
        simp only [Option.isNone_some, Bool.false_eq_true, if_false, List.mem_append,
          List.mem_filter, FinMap.mem_sortedKeys, Bool.and_eq_true, decide_eq_true_eq,
          List.exists_mem_cons_iff, hroot, Option.isSome_some, true_and]
        tauto
  have hnil := hfold roots []
  simpa [listNames] using hnil

theorem nodup_listNames : (listNames zfs roots).Nodup := by
  have hfold : ∀ (roots listed : List String), listed.Nodup →
      (roots.foldl (fun listed root => if (zfs.lookup root).isNone then listed
        else listed ++ zfs.sortedKeys.filter fun n => withinOneLevel n root && n ∉ listed)
          listed).Nodup := by
    intro roots
    induction roots with
    | nil => exact fun _ h => h
    | cons root roots ih =>
      intro listed hlisted
      rw [List.foldl_cons]
      split_ifs
      · exact ih _ hlisted
      · refine ih _ (List.nodup_append.mpr ⟨hlisted, ?_, ?_⟩)
        · exact ((List.perm_insertionSort _ _).nodup_iff.mpr zfs.nodup).filter _
        · rintro a ha b hb rfl
          simp [ha] at hb
  exact hfold roots [] List.nodup_nil

theorem mem_listing {o : Obj} : o ∈ listing zfs roots ↔
    o.name ∈ listNames zfs roots ∧ ∃ e, zfs.lookup o.name = some e ∧ o = e.obj o.name := by
  unfold listing
  rw [List.mem_filterMap]
  constructor
  · rintro ⟨n, hn, ho⟩
    obtain ⟨e, he, rfl⟩ := Option.map_eq_some_iff.mp ho
    exact ⟨hn, e, he, rfl⟩
  · rintro ⟨hn, e, he, heq⟩
    exact ⟨o.name, hn, by rw [he, Option.map_some, ← heq]⟩

theorem map_name_listing : (listing zfs roots).map (·.name) = listNames zfs roots := by
  unfold listing
  have hall : ∀ n ∈ listNames zfs roots, (zfs.lookup n).isSome :=
    fun n hn => (mem_listNames.mp hn).1
  generalize listNames zfs roots = names at hall
  induction names with
  | nil => rfl
  | cons n names ih =>
    obtain ⟨e, he⟩ := Option.isSome_iff_exists.mp (hall n List.mem_cons_self)
    rw [List.filterMap_cons_some (by rw [he]; rfl), List.map_cons,
      ih fun m hm => hall m (List.mem_cons_of_mem _ hm)]
    rfl

/-- What is listed under a name. -/
theorem byName_listing {o : Obj} : byName (listing zfs roots) n = some o ↔ o ∈ listing zfs roots ∧
    o.name = n := by
  unfold byName
  constructor
  · intro h
    have hname := List.find?_some h
    exact ⟨List.mem_reverse.mp (List.mem_of_find?_eq_some h), by simpa using hname⟩
  · rintro ⟨ho, rfl⟩
    cases hfind : (listing zfs roots).reverse.find? (·.name = o.name) with
    | none =>
      have hnone := List.find?_eq_none.mp hfind o (List.mem_reverse.mpr ho)
      simp at hnone
    | some o' =>
      have hname := List.find?_some hfind
      have ho' := mem_listing.mp (List.mem_reverse.mp (List.mem_of_find?_eq_some hfind))
      obtain ⟨_, e, he, heq⟩ := mem_listing.mp ho
      obtain ⟨_, e', he', heq'⟩ := ho'
      have hsame : o'.name = o.name := by simpa using hname
      rw [hsame, he] at he'
      rw [heq', heq, hsame, Option.some_inj.mp he']

theorem isSome_byName : (byName (listing zfs roots) n).isSome ↔ n ∈ listNames zfs roots := by
  rw [Option.isSome_iff_exists]
  constructor
  · rintro ⟨o, ho⟩
    obtain ⟨hmem, rfl⟩ := byName_listing.mp ho
    exact (mem_listing.mp hmem).1
  · intro hn
    obtain ⟨e, he⟩ := Option.isSome_iff_exists.mp (mem_listNames.mp hn).1
    exact ⟨e.obj n, byName_listing.mpr ⟨mem_listing.mpr ⟨hn, e, he, rfl⟩, rfl⟩⟩

theorem mem_snapsByShort {objs : List Obj} {o : Obj} {short : String} :
    o ∈ snapsByShort objs short ↔ o ∈ objs ∧ o.isSnapshot = true ∧ o.short = short := by
  simp [snapsByShort]

/-- At most one snapshot of a short name is listed, if it was so in a larger listing. -/
theorem snapsByShort_le_one {zfs' : FinMap String Entry}
    (hsub : ∀ n ∈ listNames zfs' roots, n ∈ listNames zfs roots)
    {short : String} {raw : Obj} (hraw : snapsByShort (listing zfs roots) short = [raw]) :
    snapsByShort (listing zfs' roots) short = [] ∨
      ∃ raw', snapsByShort (listing zfs' roots) short = [raw'] ∧ raw'.name = raw.name := by
  have hname : ∀ o ∈ snapsByShort (listing zfs' roots) short, o.name = raw.name := by
    intro o ho
    obtain ⟨ho, hsnap, hshort⟩ := mem_snapsByShort.mp ho
    obtain ⟨e, he⟩ :=
      Option.isSome_iff_exists.mp (mem_listNames.mp (hsub _ (mem_listing.mp ho).1)).1
    have hin : e.obj o.name ∈ snapsByShort (listing zfs roots) short :=
      mem_snapsByShort.mpr ⟨mem_listing.mpr ⟨hsub _ (mem_listing.mp ho).1, e, he, rfl⟩,
        hsnap, hshort⟩
    rw [hraw] at hin
    have heq : e.obj o.name = raw := List.mem_singleton.mp hin
    rw [← heq]
    rfl
  have hnodup : ((snapsByShort (listing zfs' roots) short).map (·.name)).Nodup := by
    have hall : ((listing zfs' roots).map (·.name)).Nodup := map_name_listing ▸ nodup_listNames
    exact hall.sublist ((List.filter_sublist).map _)
  rcases hsnaps : snapsByShort (listing zfs' roots) short with _ | ⟨o, _ | ⟨o', rest⟩⟩
  · exact .inl rfl
  · exact .inr ⟨o, rfl, hname o (by simp [hsnaps])⟩
  · rw [hsnaps] at hnodup
    have h₁ := hname o (by simp [hsnaps])
    have h₂ := hname o' (by simp [hsnaps])
    simp [h₁, h₂] at hnodup

/-- Names without `@` stay listed when only snapshots go away. -/
theorem listNames_kept {zfs' : FinMap String Entry}
    (hstays : ∀ n, (zfs.lookup n).isSome → Plain n → (zfs'.lookup n).isSome)
    (hn : n ∈ listNames zfs roots)
    (hplain : Plain n) : n ∈ listNames zfs' roots := by
  obtain ⟨hsome, root, hroot, hexists, hwithin⟩ := mem_listNames.mp hn
  have hstarts : root.toList <+: n.toList := by
    have hcut : Text.cut '@' n = (n, "", false) := split_plain hplain
    unfold withinOneLevel at hwithin
    rw [hcut] at hwithin
    simp only [Bool.or_eq_true, decide_eq_true_eq, Bool.and_eq_true] at hwithin
    rcases hwithin with rfl | ⟨hstarts, _⟩
    · exact List.prefix_rfl
    · unfold Text.startsWith at hstarts
      rw [List.isPrefixOf_iff_prefix, String.toList_append] at hstarts
      exact (List.prefix_append _ _).trans hstarts
  exact mem_listNames.mpr ⟨hstays n hsome hplain, root, hroot,
    hstays root hexists fun hat => hplain (hstarts.subset hat), hwithin⟩

end Listing

/-! ## The second audit -/

/-- What an audit of the cluster is shown. -/
def Cluster.objs (w : Cluster) : List Obj := listing w.zfs w.input.rootList

/-- From `w` to `w'` by a plan without blockers. -/
structure Migrated (w w' : Cluster) (now : Nat) : Prop where
  quiet : (audit w.input w.objs now).blockers = []
  applied : Applied (audit w.input w.objs now).actions w w'

section Second

variable {w w' : Cluster} {now : Nat}

theorem SnapshotKept.fields {actions : List Action} {s s' : ZfsSnapshot}
    (h : SnapshotKept actions s s') :
    s'.spec.poolGUID = s.spec.poolGUID ∧ s'.spec.dataset = s.spec.dataset ∧
      s'.spec.snapshotName = s.spec.snapshotName ∧ s'.spec.sourceVolume = s.spec.sourceVolume := by
  have hspec := h.spec
  simp only [ZfsSnapshotSpec.mk.injEq] at hspec
  exact ⟨hspec.1, hspec.2.1, hspec.2.2.1, hspec.2.2.2.1⟩

theorem DatasetKept.name {actions : List Action} {d d' : ZfsDataset}
    (h : DatasetKept actions d d') : d'.name = d.name :=
  congrArg ObjectMeta.name h.metadata

theorem DatasetKept.uid {actions : List Action} {d d' : ZfsDataset} (h : DatasetKept actions d d') :
    uidText d' = uidText d := congrArg (fun m => toString m.uid) h.metadata

theorem SnapshotKept.uid {actions : List Action} {s s' : ZfsSnapshot}
    (h : SnapshotKept actions s s') :
    uidText s' = uidText s := congrArg (fun m => toString m.uid) h.metadata

theorem Migrated.poolOf (h : Migrated w w' now) (guid : String) : w'.input.poolOf guid =
    w.input.poolOf guid := by
  unfold Input.poolOf Cluster.input
  rw [h.applied.pools]

theorem Migrated.rootList (h : Migrated w w' now) : w'.input.rootList = w.input.rootList := by
  obtain ⟨g, hg, hdatasets⟩ := h.applied.datasets
  obtain ⟨k, hk, hsnapshots⟩ := h.applied.snapshots
  have hroot : ∀ guid dataset, w'.input.root guid dataset = w.input.root guid dataset := by
    intro guid dataset
    unfold Input.root
    rw [h.poolOf]
  have hd : w'.input.datasets.filterMap (fun d => w'.input.root d.spec.poolGUID d.spec.dataset) =
      w.input.datasets.filterMap fun d => w.input.root d.spec.poolGUID d.spec.dataset := by
    have hmap : w'.input.datasets = w.input.datasets.map g := hg
    rw [hmap, List.filterMap_map]
    refine List.filterMap_congr fun d _ => ?_
    simp only [Function.comp_apply, (hdatasets d).spec, hroot]
  have hs : w'.input.snapshots.filterMap (fun s => w'.input.root s.spec.poolGUID s.spec.dataset) =
      w.input.snapshots.filterMap fun s => w.input.root s.spec.poolGUID s.spec.dataset := by
    have hmap : w'.input.snapshots = w.input.snapshots.map k := hk
    rw [hmap, List.filterMap_map]
    refine List.filterMap_congr fun s _ => ?_
    simp only [Function.comp_apply, (hsnapshots s).fields.1, (hsnapshots s).fields.2.1, hroot]
  unfold Input.rootList
  rw [hd, hs]

theorem source_kept {actions : List Action} {g : ZfsDataset → ZfsDataset}
    (hg : w'.datasets = w.datasets.map g)
    (hkept : ∀ d, DatasetKept actions d (g d)) {s s' : ZfsSnapshot}
    (hs : SnapshotKept actions s s') :
    w'.input.source s' = (w.input.source s).map g := by
  unfold Input.source
  rw [hs.fields.2.2.2]
  split_ifs
  · rfl
  · have hmap : w'.input.datasets = w.input.datasets.map g := hg
    unfold Input.datasetCR
    rw [hmap, ← List.map_reverse, List.find?_map]
    congr 2
    funext d
    simp only [Function.comp_apply, (hkept d).name]

theorem Migrated.sub (h : Migrated w w' now) {roots : List String} :
    ∀ n ∈ listNames w'.zfs roots, n ∈ listNames w.zfs roots := by
  have hsome : ∀ n, (w'.zfs.lookup n).isSome → (w.zfs.lookup n).isSome := by
    intro n hn
    obtain ⟨e', he'⟩ := Option.isSome_iff_exists.mp hn
    obtain ⟨e, he, _⟩ := h.applied.entries n e' he'
    simp [he]
  intro n hn
  obtain ⟨hexists, root, hroot, hrootExists, hwithin⟩ := mem_listNames.mp hn
  exact mem_listNames.mpr ⟨hsome n hexists, root, hroot, hsome root hrootExists, hwithin⟩

theorem isSnapshot_of_plain {o : Obj} (h : Plain o.name) : o.isSnapshot = false := by
  have hcut : Text.cut '@' o.name = (o.name, "", false) := split_plain h
  unfold Obj.isSnapshot
  rw [hcut]

/-- Only snapshots go away. -/
theorem Migrated.stays (h : Migrated w w' now) {n : String}
    (hn : (w.zfs.lookup n).isSome) (hplain : Plain n) :
    (w'.zfs.lookup n).isSome := by
  refine h.applied.stays n hn fun reason hmem => ?_
  rcases mem_actions.mp hmem with hact | hact
  · exact (act_crNotes hact).2 _ _ rfl
  · rcases act_laterNotes hact with ⟨_, _, _, heq | heq⟩ | ⟨o, ho, _, heq⟩
    · cases heq
    · cases heq
    · obtain ⟨rfl, _⟩ := Action.destroyDeferred.inj heq
      have hsnap := (mem_snapsByShort.mp ho).2.1
      rw [isSnapshot_of_plain hplain] at hsnap
      cases hsnap

theorem backingName_kept {actions : List Action} {g : ZfsDataset → ZfsDataset}
    (hg : w'.datasets = w.datasets.map g)
    (hkept : ∀ d, DatasetKept actions d (g d)) {s s' : ZfsSnapshot} (hs : SnapshotKept actions s s')
    (pool : String) :
    w'.input.backingName pool s' = w.input.backingName pool s := by
  have hdataset : (w'.input.source s').map (·.spec.dataset) =
      (w.input.source s).map (·.spec.dataset) := by
    rw [source_kept hg hkept hs, Option.map_map]
    congr 1
    funext d
    simp only [Function.comp_apply, (hkept d).spec]
  unfold Input.backingName
  rw [hdataset, hs.fields.2.1, hs.fields.2.2.1]

/-- No raw snapshot is ambiguous. -/
theorem Migrated.raws (h : Migrated w w' now) {s : ZfsSnapshot} (hs : s ∈ w.snapshots)
    {pool : String}
    (hpool : w.input.poolOf s.spec.poolGUID = some pool) :
    snapsByShort w.objs s.spec.snapshotName = [] ∨
      ∃ raw, snapsByShort w.objs s.spec.snapshotName = [raw] := by
  have hquiet := (audit_quiet h.quiet).1
  have hnotes : ∀ n ∈ rawNotes w.objs s, ¬ n.Blocks := by
    intro n hn
    refine hquiet n (List.mem_append_left _ (mem_crNotes_snapshot hs ?_))
    rw [snapshotNotes_known hpool]
    simp [hn]
  unfold rawNotes at hnotes
  rcases hraws : snapsByShort w.objs s.spec.snapshotName with _ | ⟨raw, _ | ⟨raw', rest⟩⟩
  · exact .inl rfl
  · exact .inr ⟨raw, rfl⟩
  · rw [hraws] at hnotes
    exact absurd rfl (hnotes _ List.mem_cons_self)

/-- The second audit claims nothing new. -/
theorem Migrated.claimedBy (h : Migrated w w' now) {name role : String} {cr : Cr}
    (hclaimed : ClaimedBy w'.input w'.objs name cr role) :
    Claims w.input w.objs name (role, cr.owner) := by
  obtain ⟨g, hg, hdatasets⟩ := h.applied.datasets
  obtain ⟨k, hk, hsnapshots⟩ := h.applied.snapshots
  have hobjs : w'.objs = listing w'.zfs w.input.rootList := by unfold Cluster.objs; rw [h.rootList]
  have hlisted : ∀ n, (byName w'.objs n).isSome → (byName w.objs n).isSome := by
    intro n hn
    rw [hobjs, isSome_byName] at hn
    exact isSome_byName.mpr (h.sub n hn)
  have hsnap : ∀ short, ∀ o ∈ snapsByShort w'.objs short,
      ∃ o₀ ∈ snapsByShort w.objs short, o₀.name = o.name := by
    intro short o ho
    obtain ⟨ho, hsnapshot, hshort⟩ := mem_snapsByShort.mp ho
    rw [hobjs] at ho
    have hn := h.sub _ (mem_listing.mp ho).1
    obtain ⟨e, he⟩ := Option.isSome_iff_exists.mp (mem_listNames.mp hn).1
    exact ⟨e.obj o.name,
      mem_snapsByShort.mpr ⟨mem_listing.mpr ⟨hn, e, he, rfl⟩, hsnapshot, hshort⟩, rfl⟩
  cases hclaimed with
  | @volume d' pool hd' hpool hl hname =>
    obtain ⟨d, hd, rfl⟩ := List.mem_map.mp (hg ▸ hd' : d' ∈ w.datasets.map g)
    have hkept := hdatasets d
    rw [h.poolOf, hkept.spec] at hpool
    have hvolume : volumeName pool (g d) = volumeName pool d := by
      unfold volumeName; rw [hkept.spec]
    rw [hvolume] at hl hname
    exact ⟨.dataset d, .volume hd hpool (hlisted _ hl) hname, hkept.uid⟩
  | @cloneOrigin d' pool o hd' hpool hl ho hname =>
    obtain ⟨d, hd, rfl⟩ := List.mem_map.mp (hg ▸ hd' : d' ∈ w.datasets.map g)
    have hkept := hdatasets d
    rw [h.poolOf, hkept.spec] at hpool
    have hvolume : volumeName pool (g d) = volumeName pool d := by
      unfold volumeName; rw [hkept.spec]
    rw [hvolume] at hl
    rw [hkept.name] at ho
    obtain ⟨o₀, ho₀, heq⟩ := hsnap _ o ho
    exact ⟨.dataset d, .cloneOrigin hd hpool (hlisted _ hl) ho₀ (hname.trans heq.symm), hkept.uid⟩
  | @raw s' pool o hs' hpool ho hname =>
    obtain ⟨s, hs, rfl⟩ := List.mem_map.mp (hk ▸ hs' : s' ∈ w.snapshots.map k)
    have hkept := hsnapshots s
    rw [h.poolOf, hkept.fields.1] at hpool
    rw [hkept.fields.2.2.1] at ho
    obtain ⟨o₀, ho₀, heq⟩ := hsnap s.spec.snapshotName o (by simp [ho])
    rcases h.raws hs hpool with hnil | ⟨raw, hraw⟩
    · rw [hnil] at ho₀
      cases ho₀
    · rw [hraw] at ho₀
      obtain rfl := List.mem_singleton.mp ho₀
      exact ⟨.snapshot s, .raw hs hpool hraw (hname.trans heq.symm), hkept.uid⟩
  | @backing s' pool hs' hpool hl hname =>
    obtain ⟨s, hs, rfl⟩ := List.mem_map.mp (hk ▸ hs' : s' ∈ w.snapshots.map k)
    have hkept := hsnapshots s
    rw [h.poolOf, hkept.fields.1] at hpool
    rw [backingName_kept hg hdatasets hkept] at hl hname
    exact ⟨.snapshot s, .backing hs hpool (hlisted _ hl) hname, hkept.uid⟩

theorem Migrated.claims (h : Migrated w w' now) {name : String} {l : String × String}
    (hclaims : Claims w'.input w'.objs name l) : Claims w.input w.objs name l := by
  obtain ⟨cr, hclaimed, howner⟩ := hclaims
  rw [show l = (l.1, cr.owner) from Prod.ext rfl howner]
  exact h.claimedBy hclaimed

/-- A dataset that was claimed still is. -/
theorem Migrated.claimedBy_kept (h : Migrated w w' now) {name role : String} {cr : Cr}
    (hplain : Plain name)
    (hclaimed : ClaimedBy w.input w.objs name cr role) :
    Claims w'.input w'.objs name (role, cr.owner) := by
  obtain ⟨g, hg, hdatasets⟩ := h.applied.datasets
  obtain ⟨k, hk, hsnapshots⟩ := h.applied.snapshots
  have hobjs : w'.objs = listing w'.zfs w.input.rootList := by unfold Cluster.objs; rw [h.rootList]
  have hlisted : ∀ n, Plain n → (byName w.objs n).isSome → (byName w'.objs n).isSome := by
    intro n hn hsome
    rw [hobjs]
    exact isSome_byName.mpr
      (listNames_kept (fun m hm hp => h.stays hm hp) (isSome_byName.mp hsome) hn)
  have hnot : ∀ {short o}, o ∈ snapsByShort w.objs short → name ≠ o.name := by
    rintro short o ho rfl
    have hsnap := (mem_snapsByShort.mp ho).2.1
    rw [isSnapshot_of_plain hplain] at hsnap
    cases hsnap
  cases hclaimed with
  | @volume d pool hd hpool hl hname =>
    have hkept := hdatasets d
    have hvolume : volumeName pool (g d) = volumeName pool d := by
      unfold volumeName; rw [hkept.spec]
    have hmem : g d ∈ w'.datasets := hg.symm ▸ List.mem_map_of_mem hd
    have hpool' : w'.input.poolOf (g d).spec.poolGUID = some pool := by
      rw [h.poolOf, hkept.spec, hpool]
    refine ⟨.dataset (g d), .volume hmem hpool' ?_ (hname.trans hvolume.symm), hkept.uid.symm⟩
    rw [hvolume]
    exact hlisted _ (hname ▸ hplain) hl
  | cloneOrigin hd hpool hl ho hname => exact absurd hname (hnot ho)
  | @raw s pool o hs hpool ho hname =>
    have hmem : o ∈ snapsByShort w.objs s.spec.snapshotName := by simp [ho]
    exact absurd hname (hnot hmem)
  | @backing s pool hs hpool hl hname =>
    have hkept := hsnapshots s
    have hbacking := backingName_kept hg hdatasets hkept pool
    have hmem : k s ∈ w'.snapshots := hk.symm ▸ List.mem_map_of_mem hs
    have hpool' : w'.input.poolOf (k s).spec.poolGUID = some pool := by
      rw [h.poolOf, hkept.fields.1, hpool]
    refine ⟨.snapshot (k s), .backing hmem hpool' ?_ (hname.trans hbacking.symm), hkept.uid.symm⟩
    rw [hbacking]
    exact hlisted _ (hname ▸ hplain) hl

theorem Migrated.claims_kept (h : Migrated w w' now) {name : String} {l : String × String}
    (hplain : Plain name)
    (hclaims : Claims w.input w.objs name l) : Claims w'.input w'.objs name l := by
  obtain ⟨cr, hclaimed, howner⟩ := hclaims
  rw [show l = (l.1, cr.owner) from Prod.ext rfl howner]
  exact h.claimedBy_kept hplain hclaimed

/-! ## Nothing is left to do -/

theorem not_isNone_of_isSome {α : Type} {o : Option α} (h : o.isSome) : ¬ o.isNone := by
  cases o with
  | none => cases h
  | some a => simp

theorem isNone_of_keeps {α : Type} {o o' : Option α} (h : o.isSome → o'.isSome)
    (hnone : o'.isNone) : o.isNone := by
  cases o with
  | none => rfl
  | some a => exact absurd hnone (not_isNone_of_isSome (h rfl))

theorem Migrated.datasetNotes (h : Migrated w w' now) {g : ZfsDataset → ZfsDataset}
    (hkept : ∀ d, DatasetKept (audit w.input w.objs now).actions d (g d)) {d : ZfsDataset}
    (hd : d ∈ w.datasets)
    (now' : Nat) : ∀ n ∈ datasetNotes w'.input w'.objs now' (g d), n.Harmless := by
  have hobjs : w'.objs = listing w'.zfs w.input.rootList := by unfold Cluster.objs; rw [h.rootList]
  intro n hn
  cases hpool : w'.input.poolOf (g d).spec.poolGUID with
  | none =>
    unfold Migrate.datasetNotes at hn
    rw [hpool] at hn
    cases hn
  | some pool =>
    by_cases hlisted : (byName w'.objs (volumeName pool (g d))).isSome
    · rw [datasetNotes_listed hpool hlisted] at hn
      rcases List.mem_append.mp hn with hn | hn
      · rcases List.mem_append.mp hn with hn | hn
        · obtain rfl := List.mem_singleton.mp hn
          exact ⟨id, rfl⟩
        · obtain ⟨o, _, rfl⟩ := List.mem_map.mp hn
          exact ⟨id, rfl⟩
      · split_ifs at hn with hstamp
        · -- the first audit would have stamped it
          exfalso
          have hbefore : w.input.poolOf d.spec.poolGUID = some pool := by
            rw [← h.poolOf, ← (hkept d).spec, hpool]
          have hvolume : volumeName pool (g d) = volumeName pool d := by
            unfold volumeName; rw [(hkept d).spec]
          have hlistedBefore : (byName w.objs (volumeName pool d)).isSome := by
            rw [hobjs, hvolume, isSome_byName] at hlisted
            exact isSome_byName.mpr (h.sub _ hlisted)
          have hnone := isNone_of_keeps (hkept d).provisioned hstamp.1
          have hact : Action.stampDataset d.name
              (w.input.provisionedTime now d.status.conditions) predates ∈
              (audit w.input w.objs now).actions := by
            refine mem_actions.mpr (.inl (mem_crNotes_dataset hd ?_))
            rw [datasetNotes_listed hbefore hlistedBefore,
              if_pos ⟨hnone, (hkept d).phase ▸ hstamp.2⟩]
            simp
          exact not_isNone_of_isSome ((hkept d).stamped _ _ hact) hstamp.1
        · cases hn
    · rw [Option.not_isSome_iff_eq_none] at hlisted
      unfold Migrate.datasetNotes at hn
      rw [hpool] at hn
      change n ∈ (if (byName w'.objs (volumeName pool (g d))).isNone then _ else _) at hn
      rw [hlisted] at hn
      simp only [Option.isNone_none, if_true] at hn
      split_ifs at hn
      · obtain rfl := List.mem_singleton.mp hn
        exact ⟨nofun, rfl⟩
      · cases hn

theorem Migrated.snapshotNotes (h : Migrated w w' now) {k : ZfsSnapshot → ZfsSnapshot}
    (hkept : ∀ s, SnapshotKept (audit w.input w.objs now).actions s (k s)) {s : ZfsSnapshot}
    (hs : s ∈ w.snapshots)
    (now' : Nat) : ∀ n ∈ snapshotNotes w'.input w'.objs now' (k s), n.Harmless := by
  have hobjs : w'.objs = listing w'.zfs w.input.rootList := by unfold Cluster.objs; rw [h.rootList]
  have hquiet := (audit_quiet h.quiet).1
  intro n hn
  cases hpool : w'.input.poolOf (k s).spec.poolGUID with
  | none =>
    unfold Migrate.snapshotNotes at hn
    rw [hpool] at hn
    cases hn
  | some pool =>
    have hbefore : w.input.poolOf s.spec.poolGUID = some pool := by
      rw [← h.poolOf, ← (hkept s).fields.1, hpool]
    have hfirst : ∀ n ∈ Migrate.snapshotNotes w.input w.objs now s,
        n ∈ crNotes w.input w.objs now := fun n hn =>
      mem_crNotes_snapshot hs hn
    rw [snapshotNotes_known hbefore] at hfirst
    rw [snapshotNotes_known hpool] at hn
    rcases List.mem_append.mp hn with hn | hn
    · rcases List.mem_append.mp hn with hn | hn
      · rcases List.mem_append.mp hn with hn | hn
        · -- at most one raw snapshot is listed, as before
          have hraws : snapsByShort w'.objs (k s).spec.snapshotName = [] ∨
              ∃ raw, snapsByShort w'.objs (k s).spec.snapshotName = [raw] := by
            rw [(hkept s).fields.2.2.1, hobjs]
            rcases h.raws hs hbefore with hnil | ⟨raw, hraw⟩
            · refine .inl (List.eq_nil_iff_forall_not_mem.mpr fun o ho => ?_)
              obtain ⟨ho, hsnap, hshort⟩ := mem_snapsByShort.mp ho
              have hn := h.sub _ (mem_listing.mp ho).1
              obtain ⟨e, he⟩ := Option.isSome_iff_exists.mp (mem_listNames.mp hn).1
              have hin : e.obj o.name ∈ snapsByShort w.objs s.spec.snapshotName :=
                mem_snapsByShort.mpr ⟨mem_listing.mpr ⟨hn, e, he, rfl⟩, hsnap, hshort⟩
              rw [hnil] at hin
              cases hin
            · rcases snapsByShort_le_one h.sub hraw with hnil | ⟨raw', hraw', _⟩
              · exact .inl hnil
              · exact .inr ⟨raw', hraw'⟩
          unfold rawNotes at hn
          rcases hraws with hnil | ⟨raw, hraw⟩
          · rw [hnil] at hn
            obtain rfl := List.mem_singleton.mp hn
            exact ⟨nofun, rfl⟩
          · rw [hraw] at hn
            obtain rfl := List.mem_singleton.mp hn
            exact ⟨id, rfl⟩
        · unfold backingNotes at hn
          simp only at hn
          split_ifs at hn
          · obtain rfl := List.mem_singleton.mp hn
            exact ⟨id, rfl⟩
          · obtain rfl := List.mem_singleton.mp hn
            exact ⟨nofun, rfl⟩
      · split_ifs at hn with hstamp
        · exfalso
          have hnone := isNone_of_keeps (hkept s).provisioned hstamp.1
          have hact : Action.stampSnapshot s.name
              (w.input.provisionedTime now s.status.conditions) predates ∈
              (audit w.input w.objs now).actions := by
            refine mem_actions.mpr (.inl (hfirst _ ?_))
            rw [if_pos ⟨hnone, (hkept s).phase ▸ hstamp.2⟩]
            simp
          exact not_isNone_of_isSome ((hkept s).stamped _ _ hact) hstamp.1
        · cases hn
    · unfold typeNotes at hn
      split_ifs at hn with htype
      · -- the first audit would have filled it in, or stopped
        exfalso
        have hnone := isNone_of_keeps (hkept s).typed htype
        have htypes : ∀ n ∈ typeNotes w.input s, n ∈ crNotes w.input w.objs now := fun n hn =>
          hfirst n (List.mem_append_right _ hn)
        unfold typeNotes at htypes
        rw [if_pos hnone] at htypes
        cases hsource : w.input.source s with
        | none =>
          rw [hsource] at htypes
          exact hquiet _ (List.mem_append_left _ (htypes _ List.mem_cons_self)) rfl
        | some src =>
          rw [hsource] at htypes
          have hact := mem_actions.mpr (.inl (htypes _ List.mem_cons_self))
          exact not_isNone_of_isSome ((hkept s).retyped _ _ hact) htype
      · cases hn

/-- The pools of all objects are known. -/
theorem Migrated.rootNotes (h : Migrated w w' now) : rootNotes w'.input = [] := by
  obtain ⟨g, hg, hdatasets⟩ := h.applied.datasets
  obtain ⟨k, hk, hsnapshots⟩ := h.applied.snapshots
  have hquiet := (audit_quiet h.quiet).1
  have hroot : ∀ n ∈ Migrate.rootNotes w.input, ¬ n.Blocks := fun n hn =>
    hquiet n (List.mem_append_left _ (List.mem_append_left _ (List.mem_append_left _ hn)))
  unfold Migrate.rootNotes at hroot ⊢
  rw [List.append_eq_nil_iff, List.filterMap_eq_nil_iff, List.filterMap_eq_nil_iff]
  constructor
  · intro d' hd'
    obtain ⟨d, hd, rfl⟩ := List.mem_map.mp (hg ▸ hd' : d' ∈ w.datasets.map g)
    rw [h.poolOf, (hdatasets d).spec]
    split_ifs with hnone
    · refine absurd rfl
        (hroot (unknownPool ("ZfsDataset " ++ d.name) d.spec.poolGUID) (List.mem_append_left _ ?_))
      exact List.mem_filterMap.mpr ⟨d, hd, if_pos hnone⟩
    · rfl
  · intro s' hs'
    obtain ⟨s, hs, rfl⟩ := List.mem_map.mp (hk ▸ hs' : s' ∈ w.snapshots.map k)
    rw [h.poolOf, (hsnapshots s).fields.1]
    split_ifs with hnone
    · refine absurd rfl (hroot (unknownPool ("ZfsSnapshot " ++ s.name) s.spec.poolGUID)
        (List.mem_append_right _ ?_))
      exact List.mem_filterMap.mpr ⟨s, hs, if_pos hnone⟩
    · rfl

theorem Migrated.agree (h : Migrated w w' now) {now' : Nat} {name : String} {c : Claim}
    (hc : Note.claim name c ∈ crNotes w'.input w'.objs now') :
    ∃ c', (claimsOf w.input w.objs now).lookup name = some c' ∧ c'.labels = c.labels := by
  obtain ⟨c₀, hc₀, hlabels⟩ := (h.claims (claims_of_note hc)).note now
  obtain ⟨c', hc', hlabels'⟩ := (audit_quiet h.quiet).2 name c₀ hc₀
  exact ⟨c', hc', hlabels'.trans hlabels⟩

theorem claims_of_claimsOf {inp : Input} {objs : List Obj} {now : Nat} {name : String} {c : Claim}
    (h : (claimsOf inp objs now).lookup name = some c) : Claims inp objs name c.labels := by
  rcases claims_foldl h with hempty | hnote
  · simp at hempty
  · exact claims_of_note hnote

theorem plain_dataset (o : Obj) : Plain o.dataset := by
  unfold Obj.dataset Text.cut
  split
  · rename_i hnil
    rw [List.dropWhile_eq_nil_iff] at hnil
    exact fun hat => by simpa using hnil '@' hat
  · unfold Plain
    rw [String.toList_ofList]
    intro hat
    simpa using List.mem_takeWhile_imp hat

/-- The first audit owns the dataset of an old snapshot, and finds it marked or destroys it. -/
theorem Migrated.restored (h : Migrated w w' now) {o : Obj}
    (ho : o ∈ snapsByShort w.objs restoreSourceSnapshot) :
    (∃ c, (claimsOf w.input w.objs now).lookup o.dataset = some c ∧
      (decide (c.role = roleBacking) || decide (c.role = roleVolume)) = true) ∧
    (o.deferred = true ∨ ∃ reason,
      .destroyDeferred o.name reason ∈ (audit w.input w.objs now).actions) := by
  have hnote : Migrate.restoreNote (claimsOf w.input w.objs now) o ∈
      laterNotes w.input w.objs (claimsOf w.input w.objs now) :=
    List.mem_append_left _ (List.mem_append_left _ (List.mem_map_of_mem ho))
  have hquiet := (audit_quiet h.quiet).1 _ (List.mem_append_right _ hnote)
  unfold Migrate.restoreNote at hnote hquiet
  split at hquiet
  · rename_i howned
    rw [if_pos howned] at hnote
    refine ⟨by simpa [Option.any_eq_true] using howned, ?_⟩
    split_ifs at hnote with hmarked
    · exact .inl hmarked
    · exact .inr ⟨_, mem_actions.mpr (.inr hnote)⟩
  · exact absurd rfl hquiet

/-- An old snapshot that is left is marked. -/
theorem Migrated.restoreNote (h : Migrated w w' now) {now' : Nat}
    (haccepted : ∀ name c, Note.claim name c ∈ crNotes w'.input w'.objs now' →
      ∃ c', (claimsOf w'.input w'.objs now').lookup name = some c' ∧ c'.labels = c.labels) {o : Obj}
    (ho : o ∈ snapsByShort w'.objs restoreSourceSnapshot) :
    restoreNote (claimsOf w'.input w'.objs now') o = .marked := by
  have hobjs : w'.objs = listing w'.zfs w.input.rootList := by unfold Cluster.objs; rw [h.rootList]
  obtain ⟨ho, hsnap, hshort⟩ := mem_snapsByShort.mp ho
  rw [hobjs] at ho
  obtain ⟨hn, e', he', heq'⟩ := mem_listing.mp ho
  obtain ⟨e, he, hkept⟩ := h.applied.entries _ _ he'
  have hbefore : e.obj o.name ∈ snapsByShort w.objs restoreSourceSnapshot :=
    mem_snapsByShort.mpr ⟨mem_listing.mpr ⟨h.sub _ hn, e, he, rfl⟩, hsnap, hshort⟩
  obtain ⟨⟨c, hc, hrole⟩, hmarked⟩ := h.restored hbefore
  have hdeferred : o.deferred = true := by
    rw [heq']
    rcases hmarked with hmarked | ⟨reason, hact⟩
    · exact hkept.deferred hmarked
    · exact hkept.marked reason hact
  -- the dataset is still claimed, for the same role
  obtain ⟨c₁, hc₁, hlabels₁⟩ := (h.claims_kept (plain_dataset o) (claims_of_claimsOf hc)).note now'
  obtain ⟨c₂, hc₂, hlabels₂⟩ := haccepted _ c₁ hc₁
  have hsame : c₂.role = c.role := congrArg Prod.fst (hlabels₂.trans hlabels₁)
  unfold Migrate.restoreNote
  rw [hc₂, Option.any_some, hsame, if_pos hrole, if_pos hdeferred]

/-- The labels of what is claimed are as they should be. -/
theorem Migrated.labelled (h : Migrated w w' now) {name : String} {c : Claim}
    (hc : (claimsOf w.input w.objs now).lookup name = some c) {e e' : Entry}
    (he : w.zfs.lookup name = some e)
    (hlisted : name ∈ listNames w.zfs w.input.rootList)
    (hkept : EntryKept (audit w.input w.objs now).actions name e e') : (e'.role, e'.owner) =
    c.labels := by
  have hsome : byName w.objs name = some (e.obj name) :=
    byName_listing.mpr ⟨mem_listing.mpr ⟨hlisted, e, he, rfl⟩, rfl⟩
  have hnotes : ∀ n ∈ labelNotes w.objs (claimsOf w.input w.objs now) name,
      n ∈ laterNotes w.input w.objs (claimsOf w.input w.objs now) := by
    intro n hn
    refine List.mem_append_left _ (List.mem_append_right _ (List.mem_flatMap.mpr ⟨name, ?_, hn⟩))
    simp [hc]
  have hquiet := (audit_quiet h.quiet).1
  unfold labelNotes at hnotes
  rw [hc, hsome] at hnotes
  simp only [Option.getD_some] at hnotes
  -- a label that is set is set to what is claimed
  have hset : ∀ prop value reason,
      .set name prop value reason ∈ (audit w.input w.objs now).actions →
      (prop = propRole ∧ value = c.role) ∨ (prop = propOwner ∧ value = c.owner) := by
    intro prop value reason hmem
    rcases mem_actions.mp hmem with hact | hact
    · exact absurd rfl ((act_crNotes hact).1 _ _ _ _)
    · rcases act_laterNotes hact with ⟨m, d, hd, heq | heq⟩ | ⟨_, _, _, heq⟩
      · obtain ⟨rfl, rfl, rfl, _⟩ := Action.set.inj heq
        rw [hc] at hd
        exact .inl ⟨rfl, by rw [Option.some_inj.mp hd]⟩
      · obtain ⟨rfl, rfl, rfl, _⟩ := Action.set.inj heq
        rw [hc] at hd
        exact .inr ⟨rfl, by rw [Option.some_inj.mp hd]⟩
      · cases heq
  have hne : propRole ≠ propOwner := by decide
  have hrole : e'.role = c.role := by
    rcases hkept.role with ⟨heq, hnone⟩ | ⟨reason, hmem⟩
    · have hin := fun n hn => hnotes n (List.mem_append_left _ (List.mem_append_left _ hn))
      rcases labelNote_quiet fun n hn => hquiet n
        (List.mem_append_right _ (hin n hn)) with hright | hact
      · exact heq.trans hright
      · exact absurd (mem_actions.mpr (.inr (hin _ hact))) (hnone _ _)
    · rcases hset _ _ _ hmem with ⟨_, hvalue⟩ | ⟨hprop, _⟩
      · exact hvalue
      · exact absurd hprop hne
  have howner : e'.owner = c.owner := by
    rcases hkept.owner with ⟨heq, hnone⟩ | ⟨reason, hmem⟩
    · have hin := fun n hn => hnotes n (List.mem_append_left _ (List.mem_append_right _ hn))
      rcases labelNote_quiet fun n hn => hquiet n
        (List.mem_append_right _ (hin n hn)) with hright | hact
      · exact heq.trans hright
      · exact absurd (mem_actions.mpr (.inr (hin _ hact))) (hnone _ _)
    · rcases hset _ _ _ hmem with ⟨hprop, _⟩ | ⟨_, hvalue⟩
      · exact absurd hprop.symm hne
      · exact hvalue
  rw [hrole, howner]
  rfl

theorem Migrated.labelNotes (h : Migrated w w' now) {now' : Nat} {name : String} :
    ∀ n ∈ labelNotes w'.objs (claimsOf w'.input w'.objs now') name, n.Harmless := by
  have hobjs : w'.objs = listing w'.zfs w.input.rootList := by unfold Cluster.objs; rw [h.rootList]
  intro n hn
  unfold Migrate.labelNotes at hn
  cases hc : (claimsOf w'.input w'.objs now').lookup name with
  | none =>
    rw [hc] at hn
    cases hn
  | some c =>
    have hclaims := claims_of_claimsOf hc
    obtain ⟨o, ho, rfl⟩ : ∃ o ∈ w'.objs, o.name = name := by
      obtain ⟨cr, hclaimed, -⟩ := hclaims
      exact hclaimed.listed
    rw [hobjs] at ho
    obtain ⟨hlisted, e', he', heq'⟩ := mem_listing.mp ho
    obtain ⟨e, he, hkept⟩ := h.applied.entries _ _ he'
    obtain ⟨c₁, hc₁, hlabels₁⟩ := (h.claims hclaims).note now
    obtain ⟨c₂, hc₂, hlabels₂⟩ := (audit_quiet h.quiet).2 _ c₁ hc₁
    have hlabels := (h.labelled hc₂ he (h.sub _ hlisted) hkept).trans (hlabels₂.trans hlabels₁)
    obtain ⟨hrole, howner⟩ := Prod.mk.inj hlabels
    have hbyName : byName w'.objs o.name = some o := by
      rw [hobjs]
      exact byName_listing.mpr ⟨ho, rfl⟩
    have hrole' : o.role = c.role := by rw [heq']; exact hrole
    have howner' : o.owner = c.owner := by rw [heq']; exact howner
    rw [hc, hbyName] at hn
    simp only [Option.getD_some, labelNote, hrole', howner', if_true, List.append_nil,
      List.isEmpty_nil, List.nil_append] at hn
    obtain rfl := List.mem_singleton.mp hn
    exact ⟨id, rfl⟩

theorem Migrated.crNotes (h : Migrated w w' now) (now' : Nat) :
    ∀ n ∈ crNotes w'.input w'.objs now', n.Harmless := by
  obtain ⟨g, hg, hdatasets⟩ := h.applied.datasets
  obtain ⟨k, hk, hsnapshots⟩ := h.applied.snapshots
  intro n hn
  unfold Migrate.crNotes at hn
  rw [h.rootNotes, List.nil_append] at hn
  rcases List.mem_append.mp hn with hn | hn
  · obtain ⟨d', hd', hn⟩ := List.mem_flatMap.mp hn
    obtain ⟨d, hd, rfl⟩ := List.mem_map.mp (hg ▸ hd' : d' ∈ w.datasets.map g)
    exact h.datasetNotes hdatasets hd now' n hn
  · obtain ⟨s', hs', hn⟩ := List.mem_flatMap.mp hn
    obtain ⟨s, hs, rfl⟩ := List.mem_map.mp (hk ▸ hs' : s' ∈ w.snapshots.map k)
    exact h.snapshotNotes hsnapshots hs now' n hn

/-- The audit after the migration is clean. -/
theorem Migrated.clean (h : Migrated w w' now) (now' : Nat) :
    (audit w'.input w'.objs now').actions = [] ∧ (audit w'.input w'.objs now').blockers = [] := by
  have hagree : ∀ name c, Note.claim name c ∈ Migrate.crNotes w'.input w'.objs now' →
      ((claimsOf w.input w.objs now).lookup name).map Claim.labels = some c.labels := by
    intro name c hc
    obtain ⟨c', hc', hlabels⟩ := h.agree hc
    simp [hc', hlabels]
  refine audit_clean (h.crNotes now') hagree fun _ haccepted n hn => ?_
  unfold laterNotes at hn
  rcases List.mem_append.mp hn with hn | hn
  · rcases List.mem_append.mp hn with hn | hn
    · obtain ⟨o, ho, rfl⟩ := List.mem_map.mp hn
      rw [h.restoreNote haccepted ho]
      exact ⟨id, rfl⟩
    · obtain ⟨name, _, hn⟩ := List.mem_flatMap.mp hn
      exact h.labelNotes n hn
  · obtain ⟨o, _, hn⟩ := List.mem_flatMap.mp hn
    exact orphanNotes_harmless n hn

end Second

/-- When the audit reports no blockers and its plan is applied without an error, the next audit is
clean. -/
theorem migration_reaches_clean_audit (w w' : Cluster) (now now' : Nat) (plan : Plan)
    (hplan : compute w.input w.list now = .ok plan) (hblockers : plan.blockers = [])
    (happly : (apply plan.actions).run.exec Cluster.handle w = (.ok (), w')) :
    ∃ plan', compute w'.input w'.list now' = .ok plan' ∧ plan'.actions = [] ∧
      plan'.blockers = [] := by
  have heq : audit w.input w.objs now = plan := Except.ok.inj hplan
  have h : Migrated w w' now := by
    rw [← heq] at hblockers happly
    exact ⟨hblockers, applied_apply happly⟩
  exact ⟨_, rfl, h.clean now'⟩

/-- A volume of an old driver with a snapshot, its backing clone, and the snapshot of that. -/
def oldCluster : Cluster where
  pools := FinMap.ofList [("1", "tank")]
  datasets := [{
    metadata := { name := "pvc-1", uid := 1 }
    spec := { poolGUID := "1", dataset := "k8s/pvc-1" }
    status := { phase := some .ready } }]
  snapshots := [{
    metadata := { name := "snap-1", uid := 2 }
    spec := { poolGUID := "1", dataset := "k8s/pvc-1", snapshotName :=
      "csi-snap-A", sourceVolume := "pvc-1" }
    status := { phase := some .ready } }]
  lastTransition _ := none
  zfs := FinMap.ofList [("tank/k8s", {}), ("tank/k8s/pvc-1", {}), ("tank/k8s/pvc-1@csi-snap-A", {}),
    ("tank/k8s/csi-snap-A", { origin :=
      "tank/k8s/pvc-1@csi-snap-A" }), ("tank/k8s/csi-snap-A@restore-source", {})]
  busy _ := false

def oldPlan : Plan := audit oldCluster.input oldCluster.objs 100

/-- What `oldPlan` does. -/
def oldActions : List Action :=
  [.stampDataset "pvc-1" 100 predates,
    .stampSnapshot "snap-1" 100 predates,
    .snapshotSourceType "snap-1" .filesystem "copied from ZfsDataset pvc-1",
    .destroyDeferred "tank/k8s/csi-snap-A@restore-source" "old restore-source snapshot",
    .set "tank/k8s/csi-snap-A" propRole roleBacking "backing clone of ZfsSnapshot snap-1",
    .set "tank/k8s/csi-snap-A" propOwner "2" "backing clone of ZfsSnapshot snap-1",
    .set "tank/k8s/pvc-1" propRole roleVolume "volume of ZfsDataset pvc-1",
    .set "tank/k8s/pvc-1" propOwner "1" "volume of ZfsDataset pvc-1",
    .set "tank/k8s/pvc-1@csi-snap-A" propRole roleRaw "raw snapshot of ZfsSnapshot snap-1",
    .set "tank/k8s/pvc-1@csi-snap-A" propOwner "2" "raw snapshot of ZfsSnapshot snap-1"]

theorem migration_reaches_clean_audit_old : oldPlan.actions = oldActions ∧
    ∃ plan', compute ((apply oldActions).run.exec Cluster.handle oldCluster).2.input
      ((apply oldActions).run.exec Cluster.handle oldCluster).2.list 200 = .ok plan' ∧
        plan'.actions = [] ∧ plan'.blockers = [] := by
  have hactions : oldPlan.actions = oldActions := by decide +kernel
  have hok : ((apply oldActions).run.exec Cluster.handle oldCluster).1 = .ok () := by decide +kernel
  refine ⟨hactions, migration_reaches_clean_audit oldCluster _ 100 200
    oldPlan rfl (by decide +kernel) ?_⟩
  rw [hactions]
  exact Prod.ext hok rfl

end SimpleZfsCsi.Migrate
