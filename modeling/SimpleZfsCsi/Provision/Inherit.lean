import SimpleZfsCsi.Library.Path
import SimpleZfsCsi.Provision.Params

/-!
# What a StorageClass decides

A layer says nothing about the keys it does not give. The pool and the prefix are given by the
StorageClass alone, so the defaults of the provisioner and the annotations of a claim can change
neither the pool of a volume nor the dataset it is created in.
-/

namespace SimpleZfsCsi.Provision

open Library Text

section Layer

variable {rename : String → Option String} {merged layer : Params} {k i : String}

/-- One entry of a layer, as `overlay` enters it. -/
def enter (rename : String → Option String) (layer m : Params) (i : String) : Params :=
  match rename i, layer.lookup i with
  | some k, some v => m.insert k v
  | _, _ => m

theorem overlay_eq : overlay rename merged layer = layer.keys.foldl (enter rename layer) merged :=
  rfl

theorem lookup_enter_ne {m : Params} (h : rename i ≠ some k) : (enter rename layer m i).lookup k =
    m.lookup k := by
  unfold enter
  split
  · next k' v hk' _ =>
    have hne : k ≠ k' := by
      rintro rfl
      exact h hk'
    simp [hne]
  · rfl

theorem lookup_foldl_ne {l : List String} (h : ∀ i ∈ l, rename i ≠ some k) (m : Params) :
    (l.foldl (enter rename layer) m).lookup k = m.lookup k := by
  induction l generalizing m with
  | nil => rfl
  | cons i l ih =>
    obtain ⟨hi, hl⟩ := List.forall_mem_cons.mp h
    rw [List.foldl_cons, ih hl, lookup_enter_ne hi]

/-- A key that no entry counts under keeps its value. -/
theorem lookup_overlay_ne (h : ∀ i, rename i ≠ some k) : (overlay rename merged layer).lookup k =
    merged.lookup k :=
  lookup_foldl_ne (fun i _ => h i) merged

/-- A key that one entry counts under has the value of that entry, if there is one. -/
theorem lookup_overlay (hi : rename i = some k) (honly : ∀ j, rename j = some k → j = i) :
    (overlay rename merged layer).lookup k = (layer.lookup i).or (merged.lookup k) := by
  rw [overlay_eq]
  cases hv : layer.lookup i with
  | none =>
    have hmem : i ∉ layer.keys := by simp [layer.mem_keys, hv]
    refine lookup_foldl_ne ?_ merged
    rintro j hj hjk
    exact hmem (honly j hjk ▸ hj)
  | some v =>
    obtain ⟨l₁, l₂, hkeys⟩ := List.append_of_mem (FinMap.mem_keys_of_lookup hv)
    have hnodup := layer.nodup
    rw [hkeys] at hnodup ⊢
    have hl₂ : i ∉ l₂ := (List.nodup_cons.mp (List.nodup_append.mp hnodup).2.1).1
    rw [List.foldl_append, List.foldl_cons, lookup_foldl_ne]
    · simp [enter, hi, hv]
    · rintro j hj hjk
      exact hl₂ (honly j hjk ▸ hj)

end Layer

section Resolve

variable {defaults sc annotations : Params} {annPrefix k : String}

/-- What counts of the defaults. -/
def defaultParameters (defaults : Params) : Params :=
  overlay (fun k => if storageClassOnly k then none else some k) FinMap.empty defaults

/-- What the annotations of a claim are entered over. -/
def classParameters (defaults sc : Params) : Params :=
  overlay (fun k => if startsWith k "csi.storage.k8s.io/" then none else some k)
    (defaultParameters defaults) sc

/-- The key that an annotation counts under. -/
def annotationKey (annPrefix i : String) : Option String :=
  if startsWith i annPrefix then
    if storageClassOnly (trimStart i annPrefix) then none else some (trimStart i annPrefix)
  else none

theorem resolveParameters_eq : resolveParameters defaults sc annotations annPrefix =
    if annPrefix = "" then classParameters defaults sc
    else overlay (annotationKey annPrefix) (classParameters defaults sc) annotations := rfl

theorem annotationKey_storageClassOnly (h : storageClassOnly k = true) (i : String) :
    annotationKey annPrefix i ≠ some k := by
  unfold annotationKey
  split_ifs with hstart honly
  · simp
  · intro heq
    rw [Option.some.inj heq] at honly
    exact honly h
  · simp

theorem lookup_defaultParameters :
    (defaultParameters defaults).lookup k = if storageClassOnly k then none else
      defaults.lookup k := by
  split_ifs with honly
  · refine (lookup_overlay_ne ?_).trans rfl
    intro i hi
    split_ifs at hi with hi'
    rw [Option.some.inj hi] at hi'
    exact hi' honly
  · rw [defaultParameters, lookup_overlay (i := k) (by simp [honly])]
    · simp
    · intro j hj
      split_ifs at hj with hj'
      exact Option.some.inj hj

theorem lookup_classParameters (hk : startsWith k "csi.storage.k8s.io/" = false) :
    (classParameters defaults sc).lookup k =
      (sc.lookup k).or ((defaultParameters defaults).lookup k) := by
  refine lookup_overlay (i := k) (by simp [hk]) ?_
  intro j hj
  split_ifs at hj with hreserved
  exact Option.some.inj hj

theorem not_reserved (h : storageClassOnly k = true) :
    startsWith k "csi.storage.k8s.io/" = false := by
  have hk : k = "poolGUID" ∨ k = "datasetPrefix" := by simpa [storageClassOnly] using h
  obtain rfl | rfl := hk <;> decide +kernel

/-- The keys of the StorageClass have its values, whatever the other two layers say. -/
theorem get_storageClassOnly (h : storageClassOnly k = true) :
    (resolveParameters defaults sc annotations annPrefix).get k = sc.get k := by
  have hclass : (classParameters defaults sc).lookup k = sc.lookup k := by
    rw [lookup_classParameters (not_reserved h), lookup_defaultParameters, if_pos h, Option.or_none]
  have hlookup : (resolveParameters defaults sc annotations annPrefix).lookup k = sc.lookup k := by
    rw [resolveParameters_eq]
    split_ifs with hunder
    · exact hclass
    · rw [lookup_overlay_ne (annotationKey_storageClassOnly h), hclass]
  rw [Params.get, Params.get, hlookup]

end Resolve

/-! ## Parsing -/

/-- The owner and the mode of the root directory, which a zvol has not. -/
def ParsesOwner (p : Params) (rp : ResolvedParams) : Prop :=
  match rp.datasetType with
  | .volume => rp.uid = none ∧ rp.gid = none ∧ rp.mode = ""
  | .filesystem => parseOptionalID (p.get "uid") "uid" = .ok rp.uid ∧
      parseOptionalID (p.get "gid") "gid" = .ok rp.gid ∧
        parseOptionalMode (p.get "mode") = .ok rp.mode

/-- What `parseParams` makes of parameters. -/
structure Parses (p : Params) (rp : ResolvedParams) : Prop where
  pool : rp.poolGUID ≠ ""
  poolGUID : rp.poolGUID = trimSpace (p.get "poolGUID")
  protocol : parseProtocol (p.get "protocol") = .ok (rp.protocol, rp.datasetType)
  reject : parseRejectCrossPrefixClones (p.get "rejectCrossPrefixClones") =
    .ok rp.rejectCrossPrefixClones
  datasetPrefix : rp.datasetPrefix = trimSlashes (trimSpace (p.get "datasetPrefix"))
  volblocksize : rp.volblocksize = trimSpace (p.get "volblocksize")
  properties : rp.properties = parseProperties p
  owner : ParsesOwner p rp

theorem bind_ok_iff {ε α β : Type} {x : Except ε α} {f : α → Except ε β} {b : β} :
    (x >>= f) = .ok b ↔ ∃ a, x = .ok a ∧ f a = .ok b := by
  cases x with
  | error e => exact ⟨nofun, nofun⟩
  | ok a => exact ⟨fun h => ⟨a, rfl, h⟩, fun ⟨a', ha', h⟩ => Except.ok.inj ha' ▸ h⟩

theorem parseParams_iff {p : Params} {rp : ResolvedParams} : parseParams p = .ok rp ↔
    Parses p rp := by
  unfold parseParams
  by_cases hpool : trimSpace (p.get "poolGUID") = ""
  · rw [if_pos hpool]
    exact ⟨nofun, fun h => absurd (h.poolGUID.trans hpool) h.pool⟩
  simp only [hpool, if_false, bind_ok_iff]
  constructor
  · rintro ⟨⟨protocol, type⟩, hprotocol, reject, hreject, h⟩
    cases type with
    | volume =>
      obtain rfl := Except.ok.inj h
      exact ⟨hpool, rfl, hprotocol, hreject, rfl, rfl, rfl, rfl, rfl, rfl⟩
    | filesystem =>
      obtain ⟨uid, huid, gid, hgid, mode, hmode, h⟩ := by simpa only [bind_ok_iff] using h
      obtain rfl := Except.ok.inj h
      exact ⟨hpool, rfl, hprotocol, hreject, rfl, rfl, rfl, huid, hgid, hmode⟩
  · intro h
    refine ⟨_, h.protocol, _, h.reject, ?_⟩
    have howner := h.owner
    obtain ⟨poolGUID, protocol, type, datasetPrefix, reject, volblocksize, properties, uid,
      gid, mode⟩ := rp
    obtain ⟨-, rfl, -, -, rfl, rfl, rfl, -⟩ := h
    cases type with
    | volume =>
      obtain ⟨rfl, rfl, rfl⟩ := howner
      rfl
    | filesystem =>
      obtain ⟨huid, hgid, hmode⟩ := howner
      simp only [bind_ok_iff]
      exact ⟨uid, huid, gid, hgid, mode, hmode, rfl⟩

/-! ## Placement -/

theorem Parses.not_rooted {p : Params} {rp : ResolvedParams} (h : Parses p rp) :
    startsWith rp.datasetPrefix "/" = false := by
  rw [h.datasetPrefix]
  exact trimSlashes_not_rooted _

theorem dataset_leaf {rp : ResolvedParams} {n : String} (hn : '/' ∉ n.toList) :
    rp.dataset n = if rp.datasetPrefix = "" then n else joinPath rp.datasetPrefix n := by
  rw [ResolvedParams.dataset, trimSlashes_of_no_slash hn]

/-- Where the dataset of a volume is created. -/
theorem Parses.dir_dataset {p : Params} {rp : ResolvedParams} (h : Parses p rp) {n : String}
    (hn : Leaf n) :
    dir (rp.dataset n) = clean rp.datasetPrefix := by
  rw [dataset_leaf hn.2.2.2]
  split_ifs with hempty
  · rw [hempty, dir, cutLast_leaf hn.2.2.2]
    show "." = clean ""
    decide +kernel
  · exact dir_joinPath hempty h.not_rooted hn

/-- Two resolutions of one StorageClass give the same place: pool, prefix and dataset, and a
dataset that is named by an element stands right under the prefix. -/
theorem placement_fixed (sc defaults defaults' annotations annotations' : Params)
    (annPrefix annPrefix' : String)
    {rp rp' : ResolvedParams}
    (h : parseParams (resolveParameters defaults sc annotations annPrefix) = .ok rp)
    (h' : parseParams (resolveParameters defaults' sc annotations' annPrefix') = .ok rp') :
    rp.poolGUID = rp'.poolGUID ∧ rp.datasetPrefix = rp'.datasetPrefix ∧
    (∀ n, '/' ∉ n.toList → dir (rp.dataset n) = dir (rp'.dataset n)) ∧
    ∀ n, '/' ∉ n.toList → n ≠ "" → n ≠ "." → n ≠ ".." →
      dir (rp.dataset n) = clean (trimSlashes (trimSpace (sc.get "datasetPrefix"))) := by
  have hp := parseParams_iff.mp h
  have hp' := parseParams_iff.mp h'
  have hunder : rp.datasetPrefix = trimSlashes (trimSpace (sc.get "datasetPrefix")) := by
    rw [hp.datasetPrefix, get_storageClassOnly (by decide)]
  have hsame : rp.datasetPrefix = rp'.datasetPrefix := by
    rw [hunder, hp'.datasetPrefix, get_storageClassOnly (by decide)]
  refine ⟨?_, hsame, fun n _ => ?_, fun n hn hne hdot hback => ?_⟩
  · rw [hp.poolGUID, hp'.poolGUID, get_storageClassOnly (by decide),
      get_storageClassOnly (by decide)]
  · rw [ResolvedParams.dataset, ResolvedParams.dataset, hsame]
  · rw [hp.dir_dataset ⟨hne, hdot, hback, hn⟩, hunder]

/-- A StorageClass for filesystems under "k8s/vols". -/
def k8sClass : Params :=
  FinMap.ofList [("poolGUID", "42"), ("protocol", "nfs"), ("datasetPrefix", " /k8s//vols/ ")]

/-- A claim that asks for another pool and another prefix. -/
def stray : Params :=
  FinMap.ofList [("z/poolGUID", "7"), ("z/datasetPrefix", "other"), ("z/mode", "0770")]

theorem placement_fixed_stray : ∃ rp rp',
    parseParams (resolveParameters FinMap.empty k8sClass FinMap.empty "") = .ok rp ∧
    parseParams (resolveParameters stray k8sClass stray "z/") = .ok rp' ∧ rp ≠ rp' ∧
    rp.poolGUID = rp'.poolGUID ∧ dir (rp'.dataset "csi-vol-1") = "k8s/vols" := by
  let rp : ResolvedParams := ⟨"42", .nfs, .filesystem, "k8s//vols", false, "", [], none, none, ""⟩
  have h : parseParams (resolveParameters FinMap.empty k8sClass FinMap.empty "") = .ok rp := by
    decide +kernel
  have h' : parseParams (resolveParameters stray k8sClass stray "z/") =
      .ok { rp with mode := "0770" } := by
    decide +kernel
  obtain ⟨hpool, -, hdir, hclean⟩ := placement_fixed k8sClass _ _ _ _ _ _ h h'
  refine ⟨rp, _, h, h', by decide, hpool, ?_⟩
  rw [← hdir _ (by decide +kernel),
    hclean _ (by decide +kernel) (by decide) (by decide) (by decide)]
  decide +kernel

/-- The parent of a dataset that is named ".." is not the prefix. -/
theorem placement_of_parent : ¬ ∀ (sc defaults defaults' annotations annotations' : Params)
    (annPrefix annPrefix' : String) (rp rp' : ResolvedParams) (n : String),
    parseParams (resolveParameters defaults sc annotations annPrefix) = .ok rp →
    parseParams (resolveParameters defaults' sc annotations' annPrefix') = .ok rp' →
      '/' ∉ n.toList →
    rp.poolGUID = rp'.poolGUID ∧ rp.datasetPrefix = rp'.datasetPrefix ∧
      dir (rp.dataset n) = dir (rp'.dataset n) ∧
      dir (rp.dataset n) = clean (trimSlashes (trimSpace (sc.get "datasetPrefix"))) := by
  intro hall
  have h : parseParams (resolveParameters FinMap.empty k8sClass FinMap.empty "") =
      .ok ⟨"42", .nfs, .filesystem, "k8s//vols", false, "", [], none, none, ""⟩ := by decide +kernel
  have hdir := (hall k8sClass _ _ _ _ _ _ _ _ ".." h h (by decide +kernel)).2.2.2
  revert hdir
  decide +kernel

end SimpleZfsCsi.Provision
