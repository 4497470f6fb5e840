import SimpleZfsCsi.Agent.ZfsDataset
import SimpleZfsCsi.Csi.Connections
import SimpleZfsCsi.Library.Rooted

/-!
# The path of a volume

The agent, the operator and the node each derive the path of a volume from its dataset and its pool.
They come to the same path. It lies below the base mount path of the pool as long as the dataset
does not climb above the root of the pool.
-/

namespace SimpleZfsCsi.Exporter

open Library Api Agent Csi Program Text

/-- `derivePath`. -/
def derivePath (protocol : Protocol) (baseMountPath poolName dataset : String) :
    Except Err String :=
  let ds := trimSlashes dataset
  if ds = "" then .error (.other "dataset is empty")
  else
    match protocol with
    | .nfs =>
      if baseMountPath = "" then .error (.other "pool baseMountPath is unknown")
      else .ok (joinPath baseMountPath ds)
    | .nvmeof =>
      if poolName = "" then .error (.other "pool name is unknown")
      else .ok (joinPath (joinPath "/dev/zvol" poolName) ds)

/-- The protocol over which a dataset is exported. -/
def protocolOf : DatasetType → Protocol
  | .filesystem => .nfs
  | .volume => .nvmeof

/-- The operator derives the path that the agent derives. -/
theorem derivePath_eq (type : DatasetType) (baseMountPath poolName dataset : String) :
    derivePath (protocolOf type) baseMountPath poolName dataset =
      deriveVolumePath type baseMountPath poolName dataset := by
  cases type <;> rfl

/-! ## What the node and the agent do with the path -/

/-- Whatever is mounted is mounted from `source`. -/
def MountsFrom (source : String) : NodeCall → Prop
  | .mount _ from_ _ => from_ = source
  | _ => True

/-- Whatever is given an owner is `path`. -/
def Chowns (path : String) : AgentCall → Prop
  | .applyOwnership mountpoint _ _ _ => mountpoint = path
  | _ => True

theorem publishNFS_mounts {pool : ZfsPool} {dataset path : String}
    (hpath : joinPath pool.status.baseMountPath dataset = path) (target : String) (readOnly : Bool)
    (flags : List String) :
    (NodeServer.publishNFS pool dataset target readOnly flags).run.Calls
      (MountsFrom (pool.status.currentIP ++ ":" ++ path)) := by
  unfold NodeServer.publishNFS
  split
  · simp
  · rw [hpath]
    refine Proc.bind_calls (orStatus_calls (ask_calls trivial)) fun _ => ?_
    exact orStatus_calls (ask_calls rfl)

theorem applyRootOwnership_chowns {vol : ZfsDataset} {baseMountPath poolName path : String}
    (hpath : deriveVolumePath .filesystem baseMountPath poolName vol.spec.dataset = .ok path) :
    (ZfsDatasetReconciler.applyRootOwnership vol baseMountPath poolName).run.Calls
      (Chowns path) := by
  unfold ZfsDatasetReconciler.applyRootOwnership
  split
  · split
    · simp
    · rw [hpath]
      exact ⟨rfl, fun r => by cases r <;> simp⟩
  · simp

/-! ## Agreement and containment -/

/-- All components agree on the path of a volume, and it is inside its pool. -/
structure Agree (dataset : String) : Prop where
  filesystem : ∀ (pool : ZfsPool) (path : String), startsWith pool.status.baseMountPath "/" = true →
    deriveVolumePath .filesystem pool.status.baseMountPath pool.status.poolName dataset = .ok path →
    derivePath .nfs pool.status.baseMountPath pool.status.poolName dataset = .ok path ∧
    (∀ vol : ZfsDataset, vol.spec.dataset = dataset →
      (ZfsDatasetReconciler.applyRootOwnership vol pool.status.baseMountPath
        pool.status.poolName).run.Calls (Chowns path)) ∧
    (∀ target readOnly flags, (NodeServer.publishNFS pool dataset target readOnly flags).run.Calls
      (MountsFrom (pool.status.currentIP ++ ":" ++ path))) ∧
    Below pool.status.baseMountPath path
  volume : ∀ (pool : ZfsPool) (path : String), Leaf pool.status.poolName →
    deriveVolumePath .volume pool.status.baseMountPath pool.status.poolName dataset = .ok path →
    derivePath .nvmeof pool.status.baseMountPath pool.status.poolName dataset = .ok path ∧
    Below ("/dev/zvol/" ++ pool.status.poolName) path

theorem deriveVolumePath_filesystem {baseMountPath poolName dataset path : String}
    (h : deriveVolumePath .filesystem baseMountPath poolName dataset = .ok path) :
    trimSlashes dataset ≠ "" ∧ joinPath baseMountPath (trimSlashes dataset) = path := by
  unfold deriveVolumePath at h
  dsimp only at h
  split_ifs at h with hempty hbase
  exact ⟨hempty, Except.ok.inj h⟩

theorem deriveVolumePath_volume {baseMountPath poolName dataset path : String}
    (h : deriveVolumePath .volume baseMountPath poolName dataset = .ok path) :
    trimSlashes dataset ≠ "" ∧
      joinPath (joinPath "/dev/zvol" poolName) (trimSlashes dataset) = path := by
  unfold deriveVolumePath at h
  dsimp only at h
  split_ifs at h with hempty hbase
  exact ⟨hempty, Except.ok.inj h⟩

/-- The directory of the zvols of a pool. -/
theorem zvolBase {poolName : String} (hpool : Leaf poolName) :
    startsWith (joinPath "/dev/zvol" poolName) "/" = true ∧
      elements (joinPath "/dev/zvol" poolName) = elements ("/dev/zvol/" ++ poolName) := by
  have hbase : startsWith "/dev/zvol" "/" = true := by decide
  obtain ⟨hjoin, hrooted⟩ := joinPath_rooted hbase hpool.1
  have hpath : "/dev/zvol" ++ "/" ++ poolName = "/dev/zvol/" ++ poolName := rfl
  rw [hjoin, elements_clean hrooted, hpath]
  rw [hpath] at hrooted
  refine ⟨?_, rfl⟩
  rw [clean_rooted hrooted]
  simp [startsWith, List.isPrefixOf]

/-- The components agree on the path of a volume, and it is inside its pool, if and only if its
dataset has no name at all or never climbs above the root of the pool and does not end there. -/
theorem agree_iff (dataset : String) : Agree dataset ↔ trimSlashes dataset = "" ∨
    Confined dataset := by
  constructor
  · intro h
    by_cases hempty : trimSlashes dataset = ""
    · exact .inl hempty
    have hne : dataset ≠ "" := by
      rintro rfl
      exact hempty rfl
    refine .inr (Confined.of_below hne fun base hbase => ?_)
    have hbase_ne : base ≠ "" := by
      rintro rfl
      simp [startsWith] at hbase
    have hderive : deriveVolumePath .filesystem base "tank" dataset =
        .ok (joinPath base (trimSlashes dataset)) := by
      simp [deriveVolumePath, hempty, hbase_ne]
    rw [← joinPath_trimSlashes hbase hempty]
    exact (h.filesystem ⟨{ name := "" }, (), { baseMountPath := base, poolName := "tank" }⟩ _ hbase
      hderive).2.2.2
  · intro h
    have hconfined : ∀ {base}, trimSlashes dataset ≠ "" → startsWith base "/" = true →
        Below base (joinPath base (trimSlashes dataset)) := by
      intro base hempty hbase
      have htrim : Confined (trimSlashes dataset) := by
        unfold Confined
        rw [settle_trimSlashes]
        exact h.resolve_left hempty
      exact htrim.below hbase hempty
    constructor
    · intro pool path hbase hpath
      obtain ⟨hempty, rfl⟩ := deriveVolumePath_filesystem hpath
      refine ⟨(derivePath_eq .filesystem _ _ _).trans hpath, fun vol hvol => ?_, ?_,
        hconfined hempty hbase⟩
      · exact applyRootOwnership_chowns (hvol ▸ hpath)
      · exact publishNFS_mounts (joinPath_trimSlashes hbase hempty).symm
    · intro pool path hpool hpath
      obtain ⟨hempty, rfl⟩ := deriveVolumePath_volume hpath
      obtain ⟨hrooted, helements⟩ := zvolBase hpool
      refine ⟨(derivePath_eq .volume _ _ _).trans hpath, ?_⟩
      unfold Below
      rw [← helements]
      exact hconfined hempty hrooted

/-- The dataset `../other` of a pool that is mounted at `/mnt/tank`. -/
theorem climbing_dataset_escapes : ¬Agree "../other" := by
  intro h
  have hderive : deriveVolumePath .filesystem "/mnt/tank" "tank" "../other" = .ok "/mnt/other" := by
    decide +kernel
  obtain ⟨-, -, -, rest, -, helems⟩ :=
    h.filesystem ⟨{ name := "" }, (), { baseMountPath := "/mnt/tank", poolName := "tank" }⟩ _
      (by decide +kernel) hderive
  have hbase : elements "/mnt/tank" = ["mnt", "tank"] := by decide +kernel
  have hpath : elements "/mnt/other" = ["mnt", "other"] := by decide +kernel
  rw [hpath, show elements (_ : String) = ["mnt", "tank"] from hbase] at helems
  simp at helems

end SimpleZfsCsi.Exporter
