import SimpleZfsCsi.Provision.Idempotent
import SimpleZfsCsi.Provision.Snapshot
import SimpleZfsCsi.Provision.Source

/-!
# What a snapshot captures of its source

A snapshot outlives its source, so the fields that a restore is checked against are copied to it
when it is taken. An unset volblocksize stands for the default of ZFS on a volume, and on a
snapshot for a source that is no zvol, so it is the one field whose meaning the copy loses.
-/

namespace SimpleZfsCsi.Provision

open Library Library.Program Api Csi ControllerServer

/-- `ensureChildren`: the spec of the `ZfsSnapshot` of a member. -/
def childSpec (groupName poolGUID : String) (m : ZfsGroupSnapshotMember) : ZfsSnapshotSpec where
  poolGUID := poolGUID
  dataset := m.dataset
  snapshotName := m.snapshotName
  sourceVolume := m.sourceVolume
  sourceType := m.sourceType
  groupSnapshotID := groupName
  sourceFSType := m.sourceFSType
  sourceVolblocksize := m.sourceVolblocksize
  sourceProperties := m.sourceProperties

/-- The spec of a snapshot that was taken of a volume, alone or in a group. -/
inductive Taken (id : String) (src : ZfsDataset) : ZfsSnapshotSpec → Prop where
  | alone (uuid : String) : Taken id src (snapshotSpec id uuid src)
  | member (groupName poolGUID snapUUID refUUID : String) :
      Taken id src (childSpec groupName poolGUID (captureMember groupName id snapUUID refUUID src))

section Capturing

/-- Every run of `CreateSnapshot` asks for what was captured of a volume. -/
theorem desiredSnapshot_taken (req : CreateSnapshotRequest) (s : CreateWorld) :
    createWp (desiredSnapshot req) (fun r => ∀ spec, r = .ok spec →
      ∃ src, Taken req.sourceVolumeID src spec) s := by
  have herror : ∀ e : Status, ∀ spec, (Except.error e : Except Status ZfsSnapshotSpec) = .ok spec →
      ∃ src, Taken req.sourceVolumeID src spec := by simp
  apply bind_wp herror
  intro _ s
  apply bind_wp herror
  intro _ s
  apply bind_wp herror
  intro src s
  apply bind_wp herror
  intro uuid s spec hspec
  obtain rfl := Except.ok.inj hspec
  exact ⟨src, .alone uuid⟩

/-- Every member is captured of the volume that it names. -/
def Captures (groupName : String) (spec : ZfsGroupSnapshotSpec) : Prop :=
  ∀ m ∈ spec.members, ∃ src snapUUID refUUID, m =
    captureMember groupName m.sourceVolume snapUUID refUUID src

theorem buildMembers_captures (groupName : String) (ids : List String) (spec : ZfsGroupSnapshotSpec)
    (pools : List String) (hspec : Captures groupName spec) (s : CreateWorld) :
    createWp (buildMembers groupName ids spec pools)
      (fun r => ∀ built, r = .ok built → Captures groupName built.1) s := by
  have herror : ∀ e :
      Status, ∀ built, (Except.error e : Except Status (ZfsGroupSnapshotSpec × List String)) =
      .ok built → Captures groupName built.1 := by simp
  induction ids generalizing spec pools s with
  | nil =>
    intro built hbuilt
    obtain rfl := Except.ok.inj hbuilt
    exact hspec
  | cons id rest ih =>
    apply bind_wp herror
    intro src s
    apply bind_wp herror
    intro snapUUID s
    apply bind_wp herror
    intro refUUID s
    refine ih _ _ ?_ s
    intro m hm
    rcases List.mem_append.mp hm with hm | hm
    · exact hspec m hm
    · rw [List.mem_singleton.mp hm]
      exact ⟨src, snapUUID, refUUID, rfl⟩

/-- Every run of `CreateVolumeGroupSnapshot` records members whose snapshots are taken
of volumes. -/
theorem buildSpec_taken (groupName : String) (ids : List String) (s : CreateWorld) :
    createWp (buildSpec groupName ids) (fun r => ∀ spec, r = .ok spec → ∀ m ∈ spec.members,
      ∃ src, Taken m.sourceVolume src (childSpec groupName spec.poolGUID m)) s := by
  have hwp := buildMembers_captures groupName ids {} [] (by simp [Captures]) s
  refine Proc.wp_bind (wp_mono ?_ hwp)
  rintro (e | ⟨spec, pools⟩) t hbuilt
  · intro spec hspec
    cases hspec
  · refine bind_wp (by simp) fun _ s spec' hspec' m hm => ?_
    obtain rfl := Except.ok.inj hspec'
    obtain ⟨src, snapUUID, refUUID, heq⟩ := hbuilt _ rfl m hm
    rw [heq]
    exact ⟨src, .member groupName _ snapUUID refUUID⟩

end Capturing

/-! ## Restoring with and without the source -/

/-- The source snapshot of a request passes every check. -/
def RestoreAccepted (s : CreateWorld) (rp : ResolvedParams) (caps : List VolumeCapability)
    (id : String) : Prop :=
  ∃ src, Says s (resolveSnapshotSource rp caps id) (.ok src)

theorem restoreAccepted_iff {s : CreateWorld} {rp : ResolvedParams} {caps : List VolumeCapability}
    {id : String} :
    RestoreAccepted s rp caps id ↔ ∃ snap, RestoreChecks rp caps id s snap ∧
      checkSamePrefix rp (sourceDataset s snap) "restore" id = .ok () := by
  constructor
  · rintro ⟨src, hverdict⟩
    have hcases : Stops s (resolveSnapshotSource rp caps id) ∨
        ∃ snap, RestoreChecks rp caps id s snap :=
      restore_cases
    obtain ⟨st, hst, -⟩ | ⟨snap, hchecks⟩ := hcases
    · cases hst.unique hverdict
    · refine ⟨snap, hchecks, ?_⟩
      have hr := hchecks.verdict.unique hverdict
      cases hp : checkSamePrefix rp (sourceDataset s snap) "restore" id with
      | error st =>
        rw [hp] at hr
        cases hr
      | ok u => rfl
  · rintro ⟨snap, hchecks, hunder⟩
    have hverdict := hchecks.verdict
    rw [hunder] at hverdict
    exact ⟨_, hverdict⟩

section Compare

variable {id sourceID : String} {src live : ZfsDataset} {spec : ZfsSnapshotSpec}
    {snap : ZfsSnapshot}
  {s t : CreateWorld} {rp : ResolvedParams} {caps : List VolumeCapability}

/-- The fields of a snapshot of `src`. -/
structure CapturedFields (sourceID : String) (src : ZfsDataset)
    (spec : ZfsSnapshotSpec) : Prop where
  volume : spec.sourceVolume = sourceID
  dataset : spec.dataset = src.spec.dataset
  type : spec.sourceType = some src.spec.type
  fsType : spec.sourceFSType = src.status.fsType
  volblocksize : spec.sourceVolblocksize = (src.spec.volume.map (·.volblocksize)).getD ""
  properties : spec.sourceProperties = src.spec.properties

theorem Taken.fields (h : Taken sourceID src spec) : CapturedFields sourceID src spec := by
  cases h <;> exact ⟨rfl, rfl, rfl, rfl, rfl, rfl⟩

/-- A zvol whose volblocksize is the default of ZFS. -/
def DefaultVolblocksize (src : ZfsDataset) : Prop :=
  src.spec.type = .volume ∧ ∃ v, src.spec.volume = some v ∧ v.volblocksize = ""

/-- The source as it was when the snapshot was taken, in what a restore is compared with. -/
structure Unchanged (src live : ZfsDataset) : Prop where
  spec : live.spec = src.spec
  fsType : live.status.fsType = src.status.fsType

/-- A snapshot exists with its source, and without it. -/
structure SourceGone (sourceID : String) (src : ZfsDataset) (id : String) (snap : ZfsSnapshot)
    (s t : CreateWorld) :
    Prop where
  before : s.snapshots.lookup id = some snap
  after : t.snapshots.lookup id = some snap
  live : ∃ live, s.datasets.lookup sourceID = some live ∧ Unchanged src live
  gone : t.datasets.lookup sourceID = none

theorem Compatible.congr {x y : SourceStructure} {fs : String} (h : Compatible rp x fs)
    (hvolblocksize : rp.datasetType = .volume → y.volblocksize = x.volblocksize)
    (hfs : y.fsType = x.fsType)
    (hproperties : y.properties = x.properties) : Compatible rp y fs where
  volblocksize htype := hvolblocksize htype ▸ h.volblocksize htype
  fsType htype := hvolblocksize htype ▸ hfs ▸ h.fsType htype
  properties := hproperties ▸ h.properties

/-- The volblocksize that is captured says as much as that of the source. -/
theorem captured_volblocksize (hfields : CapturedFields sourceID src spec)
    (hdefault : ¬ DefaultVolblocksize src)
    (htype : src.spec.type = .volume) :
    (if spec.sourceVolblocksize ≠ "" then some spec.sourceVolblocksize else none) =
      src.spec.volume.map (·.volblocksize) := by
  rw [hfields.volblocksize]
  cases hvol : src.spec.volume with
  | none => simp
  | some v =>
    have hne : v.volblocksize ≠ "" := fun h => hdefault ⟨htype, v, hvol, h⟩
    simp [hne]

/-- What was captured agrees with parameters just when the source does. -/
theorem compatible_captured (hfields : CapturedFields sourceID src snap.spec)
    (hlive : Unchanged src live)
    (hdefault : ¬ DefaultVolblocksize src) (htype : src.spec.type = rp.datasetType) (fs : String) :
    (∀ x, capturedSourceDataset snap = some x → Compatible rp x fs) ↔
      Compatible rp (.ofDataset live) fs := by
  have hsize : rp.datasetType = .volume →
      (if snap.spec.sourceVolblocksize ≠ "" then some snap.spec.sourceVolblocksize else none) =
        (SourceStructure.ofDataset live).volblocksize := by
    intro hvolume
    rw [captured_volblocksize hfields hdefault (htype.trans hvolume),
      SourceStructure.ofDataset, hlive.spec]
  have hfs : snap.spec.sourceFSType = (SourceStructure.ofDataset live).fsType := by
    rw [hfields.fsType, SourceStructure.ofDataset, hlive.fsType]
  have hproperties : snap.spec.sourceProperties = (SourceStructure.ofDataset live).properties := by
    rw [hfields.properties, SourceStructure.ofDataset, hlive.spec]
  unfold capturedSourceDataset
  by_cases hempty : snap.spec.sourceFSType = "" ∧ snap.spec.sourceVolblocksize = "" ∧
    snap.spec.sourceProperties = []
  · -- nothing was captured, and there was nothing to capture
    rw [if_pos hempty]
    obtain ⟨_, hvolblocksize, hnone⟩ := hempty
    refine ⟨fun _ => ⟨fun hvolume => ?_, fun hvolume => ?_, ?_⟩, by simp⟩
    · rw [← hsize hvolume, hvolblocksize]
      simp
    · rw [← hsize hvolume, hvolblocksize]
      simp
    · rw [← hproperties, hnone]
      simp
  · rw [if_neg hempty]
    constructor
    · intro h
      exact (h _ rfl).congr (fun hvolume => (hsize hvolume).symm) hfs.symm hproperties.symm
    · rintro h x hx
      obtain rfl := Option.some.inj hx
      exact h.congr hsize hfs hproperties

theorem sourceType_taken (hfields : CapturedFields sourceID src snap.spec) :
    sourceType s snap = some src.spec.type := by
  rw [sourceType, hfields.type]
  rfl

theorem liveSource_taken (hfields : CapturedFields sourceID src snap.spec) (hid : sourceID ≠ "") :
    liveSource s snap = s.datasets.lookup sourceID := by
  rw [liveSource, hfields.volume, if_neg hid]

/-- A restore is accepted with its source just when it is without it. -/
theorem accepted_gone (hfields : CapturedFields sourceID src snap.spec) (hid : sourceID ≠ "")
    (hdefault : ¬ DefaultVolblocksize src) (hgone : SourceGone sourceID src id snap s t) :
    RestoreAccepted s rp caps id ↔ RestoreAccepted t rp caps id := by
  obtain ⟨live, hlookup, hlive⟩ := hgone.live
  have hs : liveSource s snap = some live := (liveSource_taken hfields hid).trans hlookup
  have ht : liveSource t snap = none := (liveSource_taken hfields hid).trans hgone.gone
  have hdataset : sourceDataset s snap = sourceDataset t snap := by
    rw [sourceDataset, sourceDataset, hs, ht, hfields.dataset, ← hlive.spec]
  have hstructure : ∀ htype : src.spec.type = rp.datasetType,
      (∀ x, sourceStructure s snap = some x → Compatible rp x (requestedFsType caps)) ↔
        ∀ x, sourceStructure t snap = some x → Compatible rp x (requestedFsType caps) := by
    intro htype
    have hboth := compatible_captured hfields hlive hdefault htype (requestedFsType caps)
    simp only [sourceStructure, hs, ht, hboth, Option.some.injEq, forall_eq']
  rw [restoreAccepted_iff, restoreAccepted_iff]
  constructor
  · rintro ⟨snap', hchecks, hunder⟩
    obtain rfl : snap = snap' := Option.some.inj (hgone.before.symm.trans hchecks.found)
    have htype : src.spec.type = rp.datasetType := by
      have := hchecks.type
      rw [sourceType_taken hfields] at this
      grind
    exact ⟨snap,
      ⟨hchecks.named, hgone.after, hchecks.pool, .inr (by rw [sourceType_taken hfields, htype]),
      (hstructure htype).mp hchecks.compatible, hchecks.alive, hchecks.ready⟩, hdataset ▸ hunder⟩
  · rintro ⟨snap', hchecks, hunder⟩
    obtain rfl : snap = snap' := Option.some.inj (hgone.after.symm.trans hchecks.found)
    have htype : src.spec.type = rp.datasetType := by
      have := hchecks.type
      rw [sourceType_taken hfields] at this
      grind
    exact ⟨snap,
      ⟨hchecks.named, hgone.before, hchecks.pool, .inr (by rw [sourceType_taken hfields, htype]),
      (hstructure htype).mpr hchecks.compatible, hchecks.alive, hchecks.ready⟩, hdataset ▸ hunder⟩

/-- Parameters that ask for another volblocksize than the default, and for nothing else. -/
def smallBlocks (poolGUID : String) : ResolvedParams where
  poolGUID := poolGUID
  protocol := .nvmeof
  datasetType := .volume
  volblocksize := "8k"

/-- The only objects are a snapshot, ready, and its source. -/
def worldOf (datasets : List (String × ZfsDataset)) (spec : ZfsSnapshotSpec) : CreateWorld where
  datasets := .ofList datasets
  snapshots :=
    .ofList [("snap", { metadata := { name := "snap" }, spec, status := { phase := some .ready } })]
  groups := .empty
  configMaps := FinMap.empty
  claims := FinMap.empty
  clock := 0
  uuids _ := ""
  used := 0

/-- With a default volblocksize a restore may be refused that is accepted once the source
is gone. -/
theorem accepted_only_gone (hfields : CapturedFields sourceID src spec) (hid : sourceID ≠ "")
    (hdefault : DefaultVolblocksize src) :
    ¬ RestoreAccepted (worldOf [(sourceID, src)] spec) (smallBlocks spec.poolGUID) [] "snap" ∧
      RestoreAccepted (worldOf [] spec) (smallBlocks spec.poolGUID) [] "snap" := by
  obtain ⟨htype, v, hvol, hempty⟩ := hdefault
  constructor
  · rw [restoreAccepted_iff]
    rintro ⟨snap, hchecks, -⟩
    have hspec : snap.spec = spec := by
      have hfound := hchecks.found
      obtain rfl := Option.some.inj (show some _ = some snap from hfound)
      rfl
    have hlive : liveSource (worldOf [(sourceID, src)] spec) snap = some src := by
      rw [liveSource, hspec, hfields.volume, if_neg hid]
      simp [worldOf, Store.lookup, Store.ofList, FinMap.ofList]
    have hstructure : sourceStructure (worldOf [(sourceID, src)] spec) snap =
        some (.ofDataset src) := by
      rw [sourceStructure, hlive]
    have hsize :=
      (hchecks.compatible _ hstructure).volblocksize rfl ""
      (by simp [SourceStructure.ofDataset, hvol, hempty])
    have hne : volblocksizeBytes "8k" ≠ volblocksizeBytes "" := by decide +kernel
    exact hne hsize
  · rw [restoreAccepted_iff]
    refine ⟨_, ⟨by decide, rfl, rfl, .inr ?_, ?_, rfl, rfl⟩, rfl⟩
    · show spec.sourceType.or _ = _
      rw [hfields.type, htype]
      rfl
    · -- what was captured has no volblocksize, and the parameters have no properties
      intro x hx
      have hnone : x.volblocksize = none := by
        have hcaptured : sourceStructure (worldOf [] spec)
            { metadata := { name := "snap" }, spec, status := { phase := some .ready } } =
              capturedSourceDataset
              { metadata := { name := "snap" }, spec, status := { phase := some .ready } } := by
          rw [sourceStructure, liveSource]
          simp [worldOf, Store.lookup, Store.ofList, FinMap.ofList]
        rw [hcaptured, capturedSourceDataset] at hx
        by_cases hnothing : spec.sourceFSType = "" ∧ spec.sourceVolblocksize = "" ∧
          spec.sourceProperties = []
        · rw [if_pos hnothing] at hx
          cases hx
        · rw [if_neg hnothing] at hx
          obtain rfl := Option.some.inj hx
          simp [hfields.volblocksize, hvol, hempty]
      exact ⟨by simp [hnone], by simp [hnone], by simp [smallBlocks]⟩

/-- Restores are judged alike with and without the source, whatever they ask for, just when the
source is not a zvol with the default volblocksize. -/
theorem gone_alike_iff (hid : sourceID ≠ "") (htaken : Taken sourceID src spec) :
    (∀ id snap s t rp caps, snap.spec = spec → SourceGone sourceID src id snap s t →
      (RestoreAccepted s rp caps id ↔ RestoreAccepted t rp caps id)) ↔
        ¬ DefaultVolblocksize src := by
  constructor
  · intro hall hdefault
    obtain ⟨hrefused, haccepted⟩ := accepted_only_gone htaken.fields hid hdefault
    refine hrefused ((hall "snap" _ _ _ _ _ rfl ⟨rfl, rfl, ⟨src, ?_, rfl, rfl⟩, rfl⟩).mpr haccepted)
    simp [worldOf, Store.lookup, Store.ofList, FinMap.ofList]
  · rintro hdefault id snap s t rp caps rfl hgone
    exact accepted_gone htaken.fields hid hdefault hgone

end Compare

/-- A zvol that was created with a volblocksize, or without one. -/
def zvol (volblocksize : String) : ZfsDataset where
  metadata := { name := "pvc-1" }
  spec := { poolGUID := "1", dataset := "csi-vol-a", type :=
    .volume, volume := some { size := 65536, volblocksize } }
  status := { phase := some .ready }

/-- A restore of a snapshot of a zvol of blocks of 16k, with its source and without it. -/
theorem gone_alike_iff_blocks :
    ¬ DefaultVolblocksize (zvol "16k") ∧ ∀ rp caps,
      RestoreAccepted (worldOf
        [("pvc-1", zvol "16k")] (snapshotSpec "pvc-1" "b" (zvol "16k"))) rp caps "snap" ↔
        RestoreAccepted (worldOf [] (snapshotSpec "pvc-1" "b" (zvol "16k"))) rp caps "snap" := by
  have hblocks : ¬ DefaultVolblocksize (zvol "16k") := by
    rintro ⟨-, v, hv, hempty⟩
    obtain rfl := Option.some.inj hv
    exact absurd hempty (by decide)
  refine ⟨hblocks, fun rp caps => ?_⟩
  exact (gone_alike_iff (by decide) (.alone "b")).mpr hblocks "snap" _ _ _ rp caps rfl
    ⟨rfl, rfl, ⟨zvol "16k", rfl, rfl, rfl⟩, rfl⟩

/-- A zvol with the default volblocksize: a restore into a class of 8k is refused while the volume
exists, and accepted later. -/
theorem gone_not_alike : ¬ ∀ sourceID src spec id snap s t rp caps,
    sourceID ≠ "" → Taken sourceID src spec →
    snap.spec = spec → SourceGone sourceID src id snap s t →
    (RestoreAccepted s rp caps id ↔ RestoreAccepted t rp caps id) := by
  intro hall
  have htaken : Taken "pvc-1" (zvol "") (snapshotSpec "pvc-1" "b" (zvol "")) := .alone "b"
  obtain ⟨hrefused, haccepted⟩ := accepted_only_gone htaken.fields (by decide) ⟨rfl, _, rfl, rfl⟩
  exact hrefused ((hall _ _ _ "snap" _ _ _ _ _ (by decide) htaken rfl
    ⟨rfl, rfl, ⟨zvol "", rfl, rfl, rfl⟩, rfl⟩).mpr haccepted)

end SimpleZfsCsi.Provision
