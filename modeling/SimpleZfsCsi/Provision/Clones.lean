import SimpleZfsCsi.Provision.Capture

/-!
# Clones under a prefix

With `rejectCrossPrefixClones` a source has to live under the prefix of the class that it is
cloned into. The check compares the directory of a dataset, which `path.Join` has cleaned, with
the prefix as the class spells it, so a class whose prefix is not clean refuses its own volumes.
-/

namespace SimpleZfsCsi.Provision

open Library Library.Program Api Csi ControllerServer Text

section OneClass

variable {p p' : Params} {rp rp' : ResolvedParams} {uuid : String}

/-- The name of a dataset of a volume. -/
theorem leaf_volumeName (huuid : '/' ∉ uuid.toList) : Leaf ("csi-vol-" ++ uuid) := by
  have hlist : ("csi-vol-" ++ uuid).toList = 'c' :: 's' :: 'i' :: '-' :: 'v' :: 'o' :: 'l' :: '-' ::
      uuid.toList := by
    rw [String.toList_append]
    rfl
  refine ⟨?_, ?_, ?_, ?_⟩
  · intro h
    rw [h] at hlist
    exact absurd hlist (by simp)
  · intro h
    rw [h] at hlist
    exact absurd hlist (by simp)
  · intro h
    rw [h] at hlist
    exact absurd hlist (by simp)
  · rw [hlist]
    simpa using huuid

/-- Nothing is trimmed from the dataset of a volume. -/
theorem Parses.trimSlashes_dataset (h : Parses p rp) {n : String} (hn : Leaf n) :
    trimSlashes (rp.dataset n) = rp.dataset n := by
  rw [dataset_leaf hn.2.2.2]
  split_ifs with hempty
  · exact trimSlashes_of_no_slash hn.2.2.2
  · exact trimSlashes_joinPath hempty h.not_rooted hn

/-- The prefix as the class spells it is the directory of its volumes. -/
def CleanPrefix (start : String) : Prop := start = "" ∨ clean start = start

theorem normalizedDatasetPrefix_eq (h : Parses p rp) : clean rp.datasetPrefix =
    normalizedDatasetPrefix rp.datasetPrefix ↔
    CleanPrefix rp.datasetPrefix := by
  have htrim : trimSlashes rp.datasetPrefix = rp.datasetPrefix := by
    rw [h.datasetPrefix]
    exact trimWhere_idem _ _
  have hclean : clean "" = "." := by decide +kernel
  rw [normalizedDatasetPrefix, htrim, CleanPrefix]
  by_cases hempty : rp.datasetPrefix = ""
  · simp [hempty, hclean]
  · simp [hempty]

/-- The check of a volume against the class that it was created from. -/
theorem checkSamePrefix_iff (h : Parses p rp) (hsame : rp.datasetPrefix = rp'.datasetPrefix)
    (hreject : rp'.rejectCrossPrefixClones = true) {n : String} (hn : Leaf n) (kind id : String) :
    checkSamePrefix rp' (rp.dataset n) kind id = .ok () ↔ CleanPrefix rp.datasetPrefix := by
  rw [← normalizedDatasetPrefix_eq h, checkSamePrefix, hreject, h.trimSlashes_dataset hn,
    h.dir_dataset hn, ← hsame]
  by_cases hclean : clean rp.datasetPrefix = normalizedDatasetPrefix rp.datasetPrefix
  · simp [hclean]
  · simp [hclean]

/-- A snapshot of a volume says where its data is, also once the volume is gone. -/
theorem sourceDataset_taken {sourceID : String} {src : ZfsDataset} {s : CreateWorld}
    {snap : ZfsSnapshot}
    (htaken : Taken sourceID src snap.spec)
    (hlive : ∀ live, s.datasets.lookup sourceID = some live → live.spec = src.spec) :
    sourceDataset s snap = src.spec.dataset := by
  have hfields := htaken.fields
  rw [sourceDataset, liveSource, hfields.volume]
  by_cases hid : sourceID = ""
  · rw [if_pos hid]
    exact hfields.dataset
  · rw [if_neg hid]
    cases hlookup : s.datasets.lookup sourceID with
    | none => exact hfields.dataset
    | some live => exact congrArg ZfsDatasetSpec.dataset (hlive live hlookup)

theorem volumeSpec_dataset (dataset : String) (sizeBytes : Int) (source : Option DatasetSource) :
    (volumeSpec rp dataset sizeBytes source).dataset = dataset := by
  unfold volumeSpec
  cases rp.datasetType <;> rfl

/-- A volume of a class passes the prefix check of that class, as the source of a clone and
through every snapshot of it, just when the prefix of the class is clean. -/
theorem sameClass_iff (sc defaults defaults' annotations annotations' : Params)
    (annPrefix annPrefix' uuid : String)
    (sizeBytes : Int) (source : Option DatasetSource) {src : ZfsDataset}
    (h : parseParams (resolveParameters defaults sc annotations annPrefix) = .ok rp)
    (h' : parseParams (resolveParameters defaults' sc annotations' annPrefix') = .ok rp')
    (hreject : rp'.rejectCrossPrefixClones = true) (huuid : '/' ∉ uuid.toList)
    (hsrc : src.spec = volumeSpec rp (rp.dataset ("csi-vol-" ++ uuid)) sizeBytes source) :
    ((∀ id, checkSamePrefix rp' src.spec.dataset "clone" id = .ok ()) ∧
      ∀ sourceID snap s id, Taken sourceID src snap.spec →
        (∀ live, s.datasets.lookup sourceID = some live → live.spec = src.spec) →
        checkSamePrefix rp' (sourceDataset s snap) "restore" id = .ok ()) ↔
      CleanPrefix (trimSlashes (trimSpace (sc.get "datasetPrefix"))) := by
  have hp := parseParams_iff.mp h
  have hp' := parseParams_iff.mp h'
  have hclass : rp.datasetPrefix = trimSlashes (trimSpace (sc.get "datasetPrefix")) := by
    rw [hp.datasetPrefix, get_storageClassOnly (by decide)]
  have hsame : rp.datasetPrefix = rp'.datasetPrefix := by
    rw [hclass, hp'.datasetPrefix, get_storageClassOnly (by decide)]
  have hdataset : src.spec.dataset = rp.dataset ("csi-vol-" ++ uuid) := by
    rw [hsrc, volumeSpec_dataset]
  have hcheck := checkSamePrefix_iff hp hsame hreject (leaf_volumeName huuid)
  rw [← hclass]
  constructor
  · rintro ⟨hclone, -⟩
    exact (hcheck "clone" "").mp (hdataset ▸ hclone "")
  · intro hclean
    refine ⟨fun id => ?_, fun sourceID snap s id htaken hlive => ?_⟩
    · rw [hdataset]
      exact (hcheck "clone" id).mpr hclean
    · rw [sourceDataset_taken htaken hlive, hdataset]
      exact (hcheck "restore" id).mpr hclean

/-- A class that clones within its prefix only. -/
def strictClass (start : String) : Params :=
  FinMap.ofList [("poolGUID", "1"), ("protocol", "nfs"), ("datasetPrefix", start),
    ("rejectCrossPrefixClones", "true")]

def strictParams (start : String) : ResolvedParams where
  poolGUID := "1"
  protocol := .nfs
  datasetType := .filesystem
  datasetPrefix := start
  rejectCrossPrefixClones := true

/-- A volume of a class. -/
def volumeOf (rp : ResolvedParams) : ZfsDataset where
  metadata := { name := "pvc-1" }
  spec := volumeSpec rp (rp.dataset ("csi-vol-" ++ "a")) 0 none
  status := { phase := some .ready }

theorem sameClass_iff_vols : CleanPrefix "k8s/vols" ∧
    checkSamePrefix (strictParams "k8s/vols")
      (volumeOf (strictParams "k8s/vols")).spec.dataset "clone" "pvc-1" =
      .ok () := by
  have h : parseParams (resolveParameters FinMap.empty (strictClass "/k8s/vols/") FinMap.empty "") =
      .ok (strictParams "k8s/vols") := by decide +kernel
  have hclean :
      CleanPrefix (trimSlashes (trimSpace ((strictClass "/k8s/vols/").get "datasetPrefix"))) :=
    .inr (by decide +kernel)
  refine ⟨.inr (by decide +kernel), ?_⟩
  exact ((sameClass_iff (strictClass "/k8s/vols/") _ _ _ _ _ _ "a" 0 none h h rfl
    (by decide +kernel) rfl).mpr
    hclean).1 "pvc-1"

/-- A class whose prefix has an empty element refuses to clone its own volumes. -/
theorem sameClass_refused : ¬ ∀ (sc defaults defaults' annotations annotations' : Params)
    (annPrefix annPrefix' uuid : String) (sizeBytes : Int) (source : Option DatasetSource)
    (src : ZfsDataset)
    (rp rp' : ResolvedParams), parseParams
    (resolveParameters defaults sc annotations annPrefix) = .ok rp →
    parseParams (resolveParameters defaults' sc annotations' annPrefix') = .ok rp' →
    rp'.rejectCrossPrefixClones = true → '/' ∉ uuid.toList →
    src.spec = volumeSpec rp (rp.dataset ("csi-vol-" ++ uuid)) sizeBytes source →
    ∀ id, checkSamePrefix rp' src.spec.dataset "clone" id = .ok () := by
  intro hall
  have h : parseParams (resolveParameters FinMap.empty (strictClass "k8s//vols") FinMap.empty "") =
      .ok (strictParams "k8s//vols") := by decide +kernel
  have hok := hall _ _ _ _ _ _ _ "a" 0 none (volumeOf (strictParams "k8s//vols")) _ _ h h rfl
    (by decide +kernel) rfl "pvc-1"
  revert hok
  decide +kernel

end OneClass

end SimpleZfsCsi.Provision
