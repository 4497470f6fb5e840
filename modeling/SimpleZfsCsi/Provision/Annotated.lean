import SimpleZfsCsi.Provision.Clones

/-!
# What the annotations of a claim can lift

`rejectCrossPrefixClones` is a parameter like any other, and the annotations of a claim come
last. Whoever writes them turns the flag off, and gives a volume the structure of the source
that it is cloned from; only the filesystem that is asked for is not a parameter.
-/

namespace SimpleZfsCsi.Provision

open Library Library.Program Api Csi ControllerServer Text

/-! ## Overriding parameters -/

section Override

variable {defaults sc annotations : Params} {annPrefix k : String}

theorem append_of_trimStart {s : String} (hstart : startsWith s annPrefix = true)
    (htrim : trimStart s annPrefix = k) : s = annPrefix ++ k := by
  obtain ⟨tail, htail⟩ := List.isPrefixOf_iff_prefix.mp hstart
  have hk : k = String.ofList tail := by
    rw [← htrim, trimStart, if_pos hstart, ← htail]
    simp
  apply String.toList_inj.mp
  rw [String.toList_append, hk, String.toList_ofList, htail]

theorem startsWith_append (start s : String) : startsWith (start ++ s) start = true := by
  simp [startsWith]

/-- An annotation overrides the class. -/
theorem lookup_annotated (hann : annPrefix ≠ "") (hk : storageClassOnly k = false) :
    (resolveParameters defaults sc annotations annPrefix).lookup k =
      (annotations.lookup (annPrefix ++ k)).or ((classParameters defaults sc).lookup k) := by
  rw [resolveParameters_eq, if_neg hann]
  refine lookup_overlay ?_ fun j hj => ?_
  · simp [annotationKey, startsWith_append, trimStart_append, hk]
  · unfold annotationKey at hj
    split_ifs at hj with hstart
    exact append_of_trimStart hstart (Option.some.inj hj)

/-- Annotations that give these parameters. -/
def overrides (annPrefix : String) (keys : List String) (value : String → String) : Params :=
  FinMap.ofKeys (keys.map (annPrefix ++ ·)) fun i => value (trimStart i annPrefix)

theorem lookup_overrides (annPrefix : String) (keys : List String) (value : String → String)
    (k : String) :
    (overrides annPrefix keys value).lookup (annPrefix ++ k) = if k ∈ keys then some (value k)
      else none := by
  have hmem : annPrefix ++ k ∈ keys.map (annPrefix ++ ·) ↔ k ∈ keys := by
    simp [List.mem_map, String.append_right_inj]
  simp only [overrides, FinMap.lookup_ofKeys, hmem, trimStart_append]

/-- The properties among parameters. -/
theorem mem_parseProperties {p : Params} {e : String × String} :
    e ∈ parseProperties p ↔ e.1 ≠ "" ∧ p.lookup ("property." ++ e.1) = some e.2 := by
  obtain ⟨name, v⟩ := e
  simp only [parseProperties, List.mem_filterMap]
  constructor
  · rintro ⟨i, -, hi⟩
    split_ifs at hi with hname
    obtain ⟨v', hv', heq⟩ := Option.map_eq_some_iff.mp hi
    obtain ⟨rfl, rfl⟩ := Prod.mk.inj heq
    have hstart : startsWith i "property." = true := by
      by_contra hnot
      exact hname.1 (by rw [trimStart, if_neg hnot])
    rw [← append_of_trimStart hstart rfl]
    exact ⟨hname.2, hv'⟩
  · rintro ⟨hne, hlookup⟩
    refine ⟨"property." ++ name, FinMap.mem_keys_of_lookup hlookup, ?_⟩
    have hname : name ≠ "property." ++ name := by
      intro heq
      have hlen := congrArg (fun s => s.toList.length) heq
      simp at hlen
      omega
    simp only [trimStart_append, hlookup]
    rw [if_pos ⟨hname, hne⟩]
    rfl

/-- The parameters that annotations leave as they are, of those that have a syntax. -/
structure KeepsSyntax (p p' : Params) : Prop where
  poolGUID : p'.get "poolGUID" = p.get "poolGUID"
  datasetPrefix : p'.get "datasetPrefix" = p.get "datasetPrefix"
  protocol : p'.get "protocol" = p.get "protocol"
  uid : p'.get "uid" = p.get "uid"
  gid : p'.get "gid" = p.get "gid"
  mode : p'.get "mode" = p.get "mode"

/-- Parameters as they are without the flag. -/
def lifted (rp : ResolvedParams) (p' : Params) : ResolvedParams :=
  { rp with
    rejectCrossPrefixClones := false
    volblocksize := trimSpace (p'.get "volblocksize")
    properties := parseProperties p' }

theorem Parses.lifted {p p' : Params} {rp : ResolvedParams} (h : Parses p rp)
    (hkeeps : KeepsSyntax p p')
    (hflag : p'.get "rejectCrossPrefixClones" = "false") : Parses p' (lifted rp p') where
  pool := h.pool
  poolGUID := h.poolGUID.trans (by rw [hkeeps.poolGUID])
  protocol := by
    rw [hkeeps.protocol]
    exact h.protocol
  reject := by
    rw [hflag]
    show parseRejectCrossPrefixClones "false" = .ok false
    decide +kernel
  datasetPrefix := h.datasetPrefix.trans (by rw [hkeeps.datasetPrefix])
  volblocksize := rfl
  properties := rfl
  owner := by
    have howner := h.owner
    unfold ParsesOwner at howner ⊢
    simp only [Provision.lifted, hkeeps.uid, hkeeps.gid, hkeeps.mode]
    exact howner

/-- Overriding the flag, the volblocksize and properties keeps the others. -/
theorem keepsSyntax_overrides (hann : annPrefix ≠ "") {keys : List String} {value : String → String}
    (hkeys : ∀ k ∈ keys, k = "rejectCrossPrefixClones" ∨ k = "volblocksize" ∨
      startsWith k "property." = true) :
    KeepsSyntax (classParameters defaults sc)
      (resolveParameters defaults sc (overrides annPrefix keys value) annPrefix) := by
  have hkeep : ∀ k, storageClassOnly k = false →
      ¬ (k = "rejectCrossPrefixClones" ∨ k = "volblocksize" ∨
      startsWith k "property." = true) →
      (resolveParameters defaults sc (overrides annPrefix keys value) annPrefix).get k =
        (classParameters defaults sc).get k := by
    intro k honly hk
    rw [Params.get, Params.get, lookup_annotated hann honly, lookup_overrides,
      if_neg (fun h => hk (hkeys k h)), Option.none_or]
  have honly : ∀ k, storageClassOnly k = true →
      (resolveParameters defaults sc (overrides annPrefix keys value) annPrefix).get k =
        (classParameters defaults sc).get k := by
    intro k hk
    have hclass : (resolveParameters defaults sc FinMap.empty "").get k = sc.get k :=
      get_storageClassOnly hk
    rw [get_storageClassOnly hk, ← hclass, resolveParameters_eq, if_pos rfl]
  exact ⟨honly _ rfl, honly _ rfl, hkeep _ rfl (by decide +kernel), hkeep _ rfl (by decide +kernel),
    hkeep _ rfl (by decide +kernel), hkeep _ rfl (by decide +kernel)⟩

theorem resolveParameters_empty :
    resolveParameters defaults sc FinMap.empty annPrefix = classParameters defaults sc := by
  rw [resolveParameters_eq]
  split_ifs <;> rfl

end Override

/-! ## The verdict on a request -/

/-- The world in which the claim of a request has these annotations. -/
def annotated (req : CreateVolumeRequest) (annotations : Params) (s : CreateWorld) : CreateWorld :=
  { s with claims := s.claims.insert (req.parameters.get "csi.storage.k8s.io/pvc/namespace",
      req.parameters.get "csi.storage.k8s.io/pvc/name") annotations }

/-- The annotations of the claim count. -/
def ReadsAnnotations (c : ControllerServer) (req : CreateVolumeRequest) : Prop :=
  c.annotationPrefix ≠ "" ∧ req.parameters.get "csi.storage.k8s.io/pvc/name" ≠ "" ∧
    req.parameters.get "csi.storage.k8s.io/pvc/namespace" ≠ ""

section Verdict

variable {c : ControllerServer} {req : CreateVolumeRequest} {annotations : Params} {s : CreateWorld}

theorem says_pvcAnnotations (h : ReadsAnnotations c req) :
    Says (annotated req annotations s) (c.pvcAnnotations req.parameters) (.ok annotations) := by
  unfold ControllerServer.pvcAnnotations
  rw [if_neg (by simpa [ReadsAnnotations] using h)]
  refine Proc.Observes.ok_bind (says_outcome rfl) ?_
  simp only [CreateWorld.handle, getNamespaced, annotated, FinMap.lookup_insert, if_true]
  exact .pure _

theorem says_pvcAnnotations_not (h : ¬ ReadsAnnotations c req) :
    Says s (c.pvcAnnotations req.parameters) (.ok FinMap.empty) := by
  unfold ControllerServer.pvcAnnotations
  rw [if_pos (by simp only [ReadsAnnotations] at h; tauto)]
  exact .pure _

/-- The defaults are read alike whatever the annotations are. -/
theorem defaultParams_alike (c : ControllerServer) (s t : CreateWorld)
    (h : s.configMaps = t.configMaps) :
    ∃ r, Says s c.defaultParams r ∧ Says t c.defaultParams r ∧ ∀ st, r = .error st →
      crossPrefix st = false := by
  unfold ControllerServer.defaultParams
  by_cases hnone : c.defaultsConfigMap = ""
  · rw [if_pos hnone]
    exact ⟨_, .pure _, .pure _, by simp⟩
  rw [if_neg hnone]
  have hs := says_outcome (s := s) (e := .getConfigMap c.defaultsNamespace c.defaultsConfigMap) rfl
  have ht := says_outcome (s := t) (e := .getConfigMap c.defaultsNamespace c.defaultsConfigMap) rfl
  simp only [CreateWorld.handle, getNamespaced, h] at hs ht
  cases hraw : t.configMaps.lookup (c.defaultsNamespace, c.defaultsConfigMap) with
  | none =>
    rw [hraw] at hs ht
    exact ⟨_, hs.ok_bind (.pure _), ht.ok_bind (.pure _), by simp⟩
  | some raw =>
    rw [hraw] at hs ht
    by_cases hempty : raw = ""
    · subst hempty
      exact ⟨_, hs.ok_bind (.pure _), ht.ok_bind (.pure _), by simp⟩
    · cases hout : c.unmarshal raw with
      | ok out =>
        refine ⟨.ok out, hs.ok_bind ?_, ht.ok_bind ?_, by simp⟩
        · simp only [hempty, if_false, hout]
          exact .pure _
        · simp only [hempty, if_false, hout]
          exact .pure _
      | error e =>
        refine ⟨.error ⟨.internal, "parse default parameters from " ++ c.defaultsNamespace ++ "/" ++
          c.defaultsConfigMap ++ "[parameters.yaml]: " ++ e⟩, hs.ok_bind ?_, ht.ok_bind ?_, ?_⟩
        · simp only [hempty, if_false, hout]
          exact .throw _
        · simp only [hempty, if_false, hout]
          exact .throw _
        · rintro st hst
          obtain rfl := Except.error.inj hst
          exact not_crossPrefix _ (by simp only [String.append_assoc]; rfl) (by decide +kernel)

/-- An error message that names a parameter. -/
def NamesParameter (msg : String) : Prop := ∃ rest, msg = "parameter " ++ rest

theorem parseOptionalID_error {raw key msg : String} (h : parseOptionalID raw key = .error msg) :
    NamesParameter msg := by
  unfold parseOptionalID at h
  unfold NamesParameter
  grind [String.append_assoc]

theorem parseOptionalMode_error {raw msg : String} (h : parseOptionalMode raw = .error msg) :
    NamesParameter msg := by
  unfold parseOptionalMode at h
  dsimp only at h
  split_ifs at h
  obtain rfl := Except.error.inj h
  exact ⟨"\"mode\" must be an octal permission string (e.g. \"0770\"), got " ++ Err.quoted raw, by
    rw [← String.append_assoc]; rfl⟩

theorem parseProtocol_error {raw msg : String} (h : parseProtocol raw = .error msg) :
    NamesParameter msg := by
  unfold parseProtocol at h
  dsimp only at h
  split_ifs at h
  · obtain rfl := Except.error.inj h
    exact ⟨"\"protocol\" is required", rfl⟩
  · obtain rfl := Except.error.inj h
    exact ⟨"\"protocol\" must be \"nfs\" or \"nvmeof\", got " ++ Err.quoted raw, by
      rw [← String.append_assoc]; rfl⟩

theorem parseRejectCrossPrefixClones_error {raw msg : String}
    (h : parseRejectCrossPrefixClones raw = .error msg) :
    NamesParameter msg := by
  unfold parseRejectCrossPrefixClones at h
  by_cases hempty : trimSpace raw = ""
  · rw [if_pos hempty] at h
    cases h
  · rw [if_neg hempty] at h
    cases hbool : parseBool (trimSpace raw) with
    | some b =>
      rw [hbool] at h
      cases h
    | none =>
      rw [hbool] at h
      obtain rfl := Except.error.inj h
      exact ⟨"\"rejectCrossPrefixClones\" must be a boolean, got " ++ Err.quoted (trimSpace raw), by
        rw [← String.append_assoc]; rfl⟩

theorem bind_error {α β : Type} {P : String → Prop} {x : Except String α} {f : α → Except String β}
    {msg : String}
    (h : (x >>= f) = .error msg) (hx : ∀ e, x = .error e → P e)
    (hf : ∀ a, f a = .error msg → P msg) : P msg := by
  cases x with
  | error e => exact Except.error.inj h ▸ hx e rfl
  | ok a => exact hf a h

/-- Every error of `parseParams` names a parameter. -/
theorem parseParams_error {p : Params} {msg : String} (h : parseParams p = .error msg) :
    NamesParameter msg := by
  unfold parseParams at h
  by_cases hpool : trimSpace (p.get "poolGUID") = ""
  · rw [if_pos hpool] at h
    obtain rfl := Except.error.inj h
    exact ⟨"\"poolGUID\" is required", rfl⟩
  simp only [hpool, if_false] at h
  refine bind_error h (fun _ => parseProtocol_error) fun ⟨protocol, type⟩ h => ?_
  refine bind_error h (fun _ => parseRejectCrossPrefixClones_error) fun reject h => ?_
  cases type with
  | volume => cases h
  | filesystem =>
    refine bind_error h (fun _ => parseOptionalID_error) fun uid h => ?_
    refine bind_error h (fun _ => parseOptionalID_error) fun gid h => ?_
    refine bind_error h (fun _ => parseOptionalMode_error) fun mode h => ?_
    cases h

/-- What `CreateVolume` has checked of a request when it comes to the source. -/
structure Resolved (c : ControllerServer) (req : CreateVolumeRequest) (s : CreateWorld)
    (annotations defaults : Params) (rp : ResolvedParams) : Prop where
  named : req.name ≠ ""
  capabilities : req.capabilities ≠ []
  claim : Says s (c.pvcAnnotations req.parameters) (.ok annotations)
  configMap : Says s c.defaultParams (.ok defaults)
  parses :
    parseParams (resolveParameters defaults req.parameters annotations c.annotationPrefix) = .ok rp
  block : ¬ (hasBlockCapability req.capabilities ∧ rp.protocol = .nfs)
  access : ¬ (rp.protocol = .nvmeof ∧ req.capabilities.any hasMultiNodeAccessMode)
  capacity : ¬ (rp.datasetType = .volume ∧ capacityBytes req.capacityRange ≤ 0)

/-- The request passes every check. -/
def Accepted (c : ControllerServer) (req : CreateVolumeRequest) (s : CreateWorld) : Prop :=
  ∃ d, ((c.desiredVolume req).run.exec CreateWorld.handle s).1 = .ok d

/-- The request is refused. -/
def Refused (c : ControllerServer) (req : CreateVolumeRequest) (s : CreateWorld)
    (st : Status) : Prop :=
  ((c.desiredVolume req).run.exec CreateWorld.handle s).1 = .error st

theorem desiredVolume_cases (hclaim : Says s (c.pvcAnnotations req.parameters) (.ok annotations)) :
    Stops s (c.desiredVolume req) ∨ ∃ defaults rp, Resolved c req s annotations defaults rp := by
  refine refuseIf_stops (by decide +kernel) fun hname => refuseIf_stops (by decide +kernel)
    fun hcaps => ?_
  refine says_stops hclaim ?_
  obtain ⟨r, hdefaults, -, hcross⟩ := defaultParams_alike c s s rfl
  cases r with
  | error st => exact .inl (.bind ⟨st, hdefaults, hcross st rfl⟩)
  | ok defaults =>
  refine says_stops hdefaults ?_
  cases hparse :
    parseParams (resolveParameters defaults req.parameters annotations c.annotationPrefix) with
  | error msg =>
    obtain ⟨rest, hrest⟩ := parseParams_error hparse
    exact .inl (.bind ⟨_, says_check _, not_crossPrefix rest hrest (by decide +kernel)⟩)
  | ok rp =>
  refine says_stops (says_check _) ?_
  refine refuseIf_stops (by decide +kernel) fun hblock => refuseIf_stops (by decide +kernel)
    fun haccess => ?_
  refine refuseIf_stops (by decide +kernel) fun hcapacity => ?_
  exact .inr ⟨defaults, rp, hname, hcaps, hclaim, hdefaults, hparse, hblock, haccess, hcapacity⟩

theorem Resolved.desired {defaults : Params} {rp : ResolvedParams}
    (h : Resolved c req s annotations defaults rp) :
    ((c.desiredVolume req).run.exec CreateWorld.handle s) = ((do
      let source ← resolveContentSource rp req
      let uuid ← newUUID
      return { sizeBytes := capacityBytes req.capacityRange
               spec := volumeSpec rp (rp.dataset ("csi-vol-" ++ uuid))
                 (capacityBytes req.capacityRange) source } :
        CreateProc Status DesiredVolume).run.exec CreateWorld.handle s) := by
  refine (Proc.exec_bind (says_refuseIf_not h.named) _).trans ?_
  refine (Proc.exec_bind (says_refuseIf_not h.capabilities) _).trans ?_
  refine (Proc.exec_bind h.claim _).trans ?_
  refine (Proc.exec_bind h.configMap _).trans ?_
  rw [h.parses]
  refine (Proc.exec_bind (says_check _) _).trans ?_
  refine (Proc.exec_bind (says_refuseIf_not h.block) _).trans ?_
  refine (Proc.exec_bind (says_refuseIf_not h.access) _).trans ?_
  exact Proc.exec_bind (says_refuseIf_not h.capacity) _

theorem Resolved.refused {defaults : Params} {rp : ResolvedParams} {st : Status}
    (h : Resolved c req s annotations defaults rp)
    (hsource : Says s (resolveContentSource rp req) (.error st)) :
    Refused c req s st := by
  rw [Refused, h.desired, Proc.exec_bind_error hsource]

theorem Resolved.accepted {defaults : Params} {rp : ResolvedParams} {source : Option DatasetSource}
    (h : Resolved c req s annotations defaults rp)
    (hsource : Says s (resolveContentSource rp req) (.ok source)) :
    Accepted c req s := by
  rw [Accepted, h.desired, Proc.exec_bind hsource]
  exact ⟨_, rfl⟩

/-- A source is refused for its prefix: it has passed what is checked before. -/
inductive OutsidePrefix (req : CreateVolumeRequest) (rp : ResolvedParams) (s : CreateWorld)
    (st : Status) : Prop where
  | restore (id : String) (snap : ZfsSnapshot) (hreq : req.contentSource = some (.snapshot id))
      (hchecks : RestoreChecks rp req.capabilities id s snap)
      (hunder : checkSamePrefix rp (sourceDataset s snap) "restore" id = .error st) :
        OutsidePrefix req rp s st
  | clone (id : String) (src : ZfsDataset) (hreq : req.contentSource = some (.volume id))
      (hchecks : CloneChecks rp id s src)
      (hunder : checkSamePrefix rp src.spec.dataset "clone" id = .error st) :
        OutsidePrefix req rp s st

theorem says_restore {rp : ResolvedParams} {id : String} {r : Except Status DatasetSource}
    (hreq : req.contentSource = some (.snapshot id))
    (h : Says s (resolveSnapshotSource rp req.capabilities id) r) :
    Says s (resolveContentSource rp req) (r.map some) := by
  unfold resolveContentSource
  rw [hreq]
  exact h.map some

theorem says_clone {rp : ResolvedParams} {id : String} {r : Except Status DatasetSource}
    (hreq : req.contentSource = some (.volume id))
    (h : Says s (resolveVolumeSource rp req.capabilities id) r) :
    Says s (resolveContentSource rp req) (r.map some) := by
  unfold resolveContentSource
  rw [hreq]
  exact h.map some

/-- Whatever the source is, there is a verdict. -/
theorem resolveContentSource_verdict (rp : ResolvedParams) (req : CreateVolumeRequest)
    (s : CreateWorld) :
    ∃ r, Says s (resolveContentSource rp req) r := by
  cases hreq : req.contentSource with
  | none =>
    unfold resolveContentSource
    rw [hreq]
    exact ⟨_, .pure _⟩
  | some cs =>
  cases cs with
  | untyped =>
    unfold resolveContentSource
    rw [hreq]
    exact ⟨_, .throw _⟩
  | snapshot id =>
    have hcases : Stops s (resolveSnapshotSource rp req.capabilities id) ∨
        ∃ snap, RestoreChecks rp req.capabilities id s snap := restore_cases
    obtain ⟨st, hst, -⟩ | ⟨snap, hchecks⟩ := hcases
    · exact ⟨_, says_restore hreq hst⟩
    · exact ⟨_, says_restore hreq hchecks.verdict⟩
  | volume id =>
    have hcases : Stops s (resolveVolumeSource rp req.capabilities id) ∨
        ∃ src, CloneChecks rp id s src := clone_cases
    obtain ⟨st, hst, -⟩ | ⟨src, hchecks⟩ := hcases
    · exact ⟨_, says_clone hreq hst⟩
    · exact ⟨_, says_clone hreq (hchecks.verdict _)⟩

theorem outsidePrefix_of_says {rp : ResolvedParams} {st : Status} (hcross : crossPrefix st = true)
    (hverdict : Says s (resolveContentSource rp req) (.error st)) : OutsidePrefix req rp s st := by
  cases hreq : req.contentSource with
  | none =>
    unfold resolveContentSource at hverdict
    rw [hreq] at hverdict
    cases (Proc.Observes.pure _).unique hverdict
  | some cs =>
  cases cs with
  | untyped =>
    unfold resolveContentSource at hverdict
    rw [hreq] at hverdict
    obtain rfl := Except.error.inj ((Proc.Observes.throw _).unique hverdict)
    exact absurd hcross (by decide +kernel)
  | snapshot id =>
    have hcases : Stops s (resolveSnapshotSource rp req.capabilities id) ∨
        ∃ snap, RestoreChecks rp req.capabilities id s snap := restore_cases
    obtain ⟨st', hst', hcross'⟩ | ⟨snap, hchecks⟩ := hcases
    · obtain rfl := Except.error.inj ((says_restore hreq hst').unique hverdict)
      rw [hcross] at hcross'
      cases hcross'
    · have hr := (says_restore hreq hchecks.verdict).unique hverdict
      cases hunder : checkSamePrefix rp (sourceDataset s snap) "restore" id with
      | ok _ =>
        rw [hunder] at hr
        cases hr
      | error st' =>
        rw [hunder] at hr
        exact .restore id snap hreq hchecks (hunder.trans (congrArg _ (Except.error.inj hr)))
  | volume id =>
    have hcases : Stops s (resolveVolumeSource rp req.capabilities id) ∨
        ∃ src, CloneChecks rp id s src := clone_cases
    obtain ⟨st', hst', hcross'⟩ | ⟨src, hchecks⟩ := hcases
    · obtain rfl := Except.error.inj ((says_clone hreq hst').unique hverdict)
      rw [hcross] at hcross'
      cases hcross'
    · have hr := (says_clone hreq (hchecks.verdict _)).unique hverdict
      cases hunder : checkSamePrefix rp src.spec.dataset "clone" id with
      | error st' =>
        rw [hunder] at hr
        exact .clone id src hreq hchecks (hunder.trans (congrArg _ (Except.error.inj hr)))
      | ok _ =>
        rw [hunder] at hr
        obtain ⟨hok, -⟩ | ⟨st', hst', hcross', -⟩ :=
          judges_checkCloneCompatibility rp (.ofDataset src) (requestedFsType req.capabilities)
        · rw [hok] at hr
          cases hr
        · rw [hst'] at hr
          obtain rfl := Except.error.inj hr
          rw [hcross] at hcross'
          cases hcross'

/-- Why a request is refused for the prefix of its source. -/
theorem outsidePrefix_of_refused {st : Status}
    (hclaim : Says s (c.pvcAnnotations req.parameters) (.ok annotations))
    (hrefused : Refused c req s st) (hcross : crossPrefix st = true) :
    ∃ defaults rp, Resolved c req s annotations defaults rp ∧ OutsidePrefix req rp s st := by
  obtain ⟨st', hst', hcross'⟩ | ⟨defaults, rp, hresolved⟩ := desiredVolume_cases hclaim
  · have heq : (Except.error st' : Except Status DesiredVolume) = .error st := by
      rw [← hrefused, hst']
    obtain rfl := Except.error.inj heq
    rw [hcross] at hcross'
    cases hcross'
  · refine ⟨defaults, rp, hresolved, ?_⟩
    obtain ⟨r, hverdict⟩ := resolveContentSource_verdict rp req s
    cases r with
    | ok source =>
      obtain ⟨d, hd⟩ := hresolved.accepted hverdict
      cases hd.symm.trans hrefused
    | error st' =>
      obtain rfl := Except.error.inj ((hresolved.refused hverdict).symm.trans hrefused)
      exact outsidePrefix_of_says hcross hverdict

end Verdict

/-! ## Lifting the check -/

section Lift

variable {c : ControllerServer} {req : CreateVolumeRequest}
    {annotations annotations' defaults : Params}
  {rp rp' : ResolvedParams} {s : CreateWorld} {st : Status}

/-- A clone whose source was formatted with another filesystem than the one that is asked for. -/
def FormattedOtherwise (req : CreateVolumeRequest) (s : CreateWorld) : Prop :=
  ∃ id src, req.contentSource = some (.volume id) ∧ s.datasets.lookup id = some src ∧
    src.spec.type = .volume ∧
    src.spec.volume.isSome ∧ requestedFsType req.capabilities ≠ "" ∧ src.status.fsType ≠ "" ∧
    requestedFsType req.capabilities ≠ src.status.fsType

/-- Other annotations lead to other parameters, and to nothing else. -/
theorem Resolved.reannotate {read read' : Params}
    (h : Resolved c req (annotated req annotations s) read defaults rp)
    (hclaim : Says (annotated req annotations' s) (c.pvcAnnotations req.parameters) (.ok read'))
    (hparse :
      parseParams (resolveParameters defaults req.parameters read' c.annotationPrefix) = .ok rp')
    (hprotocol : rp'.protocol = rp.protocol) (htype : rp'.datasetType = rp.datasetType) :
    Resolved c req (annotated req annotations' s) read' defaults rp' where
  named := h.named
  capabilities := h.capabilities
  claim := hclaim
  configMap := by
    obtain ⟨r, hr, hr', -⟩ :=
      defaultParams_alike c (annotated req annotations s) (annotated req annotations' s) rfl
    obtain rfl := hr.unique h.configMap
    exact hr'
  parses := hparse
  block := hprotocol ▸ h.block
  access := hprotocol ▸ h.access
  capacity := htype ▸ h.capacity

theorem RestoreChecks.reannotate {caps : List VolumeCapability} {id : String} {snap : ZfsSnapshot}
    (h : RestoreChecks rp caps id (annotated req annotations s) snap)
    (hpool : rp'.poolGUID = rp.poolGUID)
    (htype : rp'.datasetType = rp.datasetType)
    (hcompatible : ∀ src fs, Compatible rp src fs → Compatible rp' src fs) :
    RestoreChecks rp' caps id (annotated req annotations' s) snap where
  named := h.named
  found := h.found
  pool := h.pool.trans hpool.symm
  type := htype ▸ h.type
  compatible src hsrc := hcompatible _ _ (h.compatible src hsrc)
  alive := h.alive
  ready := h.ready

/-- The annotation that turns the flag off. -/
def flagOff (annPrefix : String) : Params :=
  overrides annPrefix ["rejectCrossPrefixClones"] fun _ => "false"

/-- The annotations that turn the flag off, and ask for the structure of a source. -/
def likeSource (annPrefix : String) (src : ZfsDataset) : Params :=
  overrides annPrefix ("rejectCrossPrefixClones" :: "volblocksize" ::
    src.spec.properties.map ("property." ++ ·.1))
    fun k => if k = "rejectCrossPrefixClones" then "false"
      else if k = "volblocksize" then (src.spec.volume.map (·.volblocksize)).getD ""
      else (src.spec.properties.lookup (trimStart k "property.")).getD ""

theorem checkSamePrefix_lifted (p : Params) (dataset kind id : String) :
    checkSamePrefix (lifted rp p) dataset kind id = .ok () := rfl

theorem get_flag {keys : List String} {value : String → String} {sc : Params} {annPrefix : String}
    (hann : annPrefix ≠ "") (hmem : "rejectCrossPrefixClones" ∈ keys)
    (hvalue : value "rejectCrossPrefixClones" = "false") :
    (resolveParameters defaults sc (overrides annPrefix keys value) annPrefix).get
      "rejectCrossPrefixClones" = "false" := by
  rw [Params.get, lookup_annotated hann (by decide), lookup_overrides, if_pos hmem, hvalue]
  rfl

theorem property_ne {literal : String} (h : startsWith literal "property." = false)
    (name : String) :
    "property." ++ name ≠ literal := by
  rintro rfl
  rw [startsWith_append] at h
  cases h

theorem property_key (name : String) : storageClassOnly ("property." ++ name) = false ∧
    "property." ++ name ≠ "rejectCrossPrefixClones" ∧ "property." ++ name ≠ "volblocksize" := by
  have hpool : "property." ++ name ≠ "poolGUID" := property_ne (by decide +kernel) name
  have hstart : "property." ++ name ≠ "datasetPrefix" := property_ne (by decide +kernel) name
  exact ⟨by simp [storageClassOnly, hpool, hstart], property_ne (by decide +kernel) name,
    property_ne (by decide +kernel) name⟩

/-- With the flag alone overridden, a restore is compared as before. -/
theorem compatible_flagOff {sc : Params} {annPrefix : String} (hann : annPrefix ≠ "")
    (h : Parses (classParameters defaults sc) rp) {src : SourceStructure} {fs : String}
    (hsrc : Compatible rp src fs) :
    Compatible
      (lifted rp (resolveParameters defaults sc (flagOff annPrefix) annPrefix)) src fs := by
  have hlookup : ∀ k, storageClassOnly k = false → k ≠ "rejectCrossPrefixClones" →
      (resolveParameters defaults sc (flagOff annPrefix) annPrefix).lookup k =
        (classParameters defaults sc).lookup k := by
    intro k honly hk
    rw [lookup_annotated hann honly, flagOff, lookup_overrides, if_neg (by simpa using hk),
      Option.none_or]
  have hvolblocksize :
      (lifted rp (resolveParameters defaults sc (flagOff annPrefix) annPrefix)).volblocksize =
      rp.volblocksize := by
    rw [h.volblocksize]
    show trimSpace (Params.get _ _) = _
    rw [Params.get, Params.get, hlookup _ (by decide) (by decide)]
  refine ⟨fun htype => hvolblocksize ▸ hsrc.volblocksize htype, fun htype => hsrc.fsType htype,
    fun e he v hv => ?_⟩
  obtain ⟨hne, hvalue⟩ := mem_parseProperties.mp he
  obtain ⟨honly, hflag, -⟩ := property_key e.1
  rw [hlookup _ honly hflag] at hvalue
  refine hsrc.properties e ?_ v hv
  rw [h.properties]
  exact mem_parseProperties.mpr ⟨hne, hvalue⟩

theorem accepted_restore (hreads : ReadsAnnotations c req)
    (h : Resolved c req (annotated req FinMap.empty s) FinMap.empty defaults rp) {id : String}
    {snap : ZfsSnapshot}
    (hreq : req.contentSource = some (.snapshot id))
    (hchecks : RestoreChecks rp req.capabilities id (annotated req FinMap.empty s) snap) :
    Accepted c req (annotated req (flagOff c.annotationPrefix) s) := by
  have hparses : Parses (classParameters defaults req.parameters) rp := by
    rw [← resolveParameters_empty]
    exact parseParams_iff.mp h.parses
  have hflag :
      (resolveParameters defaults req.parameters (flagOff c.annotationPrefix)
      c.annotationPrefix).get
      "rejectCrossPrefixClones" = "false" := get_flag hreads.1 (by simp) rfl
  have hlifted := hparses.lifted (keepsSyntax_overrides hreads.1 (by simp)) hflag
  have hresolved := h.reannotate (says_pvcAnnotations hreads) (parseParams_iff.mpr hlifted) rfl rfl
  have hchecks' : RestoreChecks
      (lifted rp
        (resolveParameters defaults req.parameters (flagOff c.annotationPrefix) c.annotationPrefix))
      req.capabilities id (annotated req (flagOff c.annotationPrefix) s) snap :=
    hchecks.reannotate rfl rfl fun _ _ => compatible_flagOff hreads.1 hparses
  have hverdict := hchecks'.verdict
  rw [checkSamePrefix_lifted] at hverdict
  exact hresolved.accepted (says_restore hreq hverdict)

/-- Blanks at the ends of a volblocksize do not count. -/
theorem volblocksizeBytes_trimSpace (v : String) : volblocksizeBytes (trimSpace v) =
    volblocksizeBytes v := by
  have htrim : trimSpace (toLower (trimSpace v)) = trimSpace (toLower v) := by
    rw [trimSpace_toLower, trimSpace_toLower, trimSpace, trimSpace, trimWhere_idem]
  simp only [volblocksizeBytes, htrim]

theorem compatible_likeSource {sc : Params} {annPrefix : String} (hann : annPrefix ≠ "")
    {src : ZfsDataset}
    {fs : String}
    (hfs : src.spec.type = .volume → src.spec.volume.isSome → fs = "" ∨ src.status.fsType = "" ∨
      fs = src.status.fsType) (htype : src.spec.type = rp.datasetType) :
    Compatible (lifted rp (resolveParameters defaults sc (likeSource annPrefix src) annPrefix))
      (.ofDataset src) fs := by
  refine ⟨fun _ actual hactual => ?_, fun hvolume hsome => ?_, fun e he v hv => ?_⟩
  · show volblocksizeBytes (trimSpace (Params.get _ _)) = _
    have hsome : src.spec.volume.map (·.volblocksize) = some actual := hactual
    rw [Params.get, lookup_annotated hann (by decide), likeSource, lookup_overrides,
      if_pos (by simp)]
    simp [hsome, volblocksizeBytes_trimSpace]
  · exact hfs (htype.trans hvolume) (by simpa [SourceStructure.ofDataset] using hsome)
  · obtain ⟨hne, hvalue⟩ := mem_parseProperties.mp he
    obtain ⟨honly, hflag, hsize⟩ := property_key e.1
    have hv' : src.spec.properties.lookup e.1 = some v := hv
    have hmem : ∃ a ∈ src.spec.properties, "property." ++ a.1 = "property." ++ e.1 := by
      have hsome : (src.spec.properties.lookup e.1).isSome := by simp [hv']
      obtain ⟨a, ha, heq⟩ := List.lookup_isSome_iff.mp hsome
      exact ⟨a, ha, by rw [beq_iff_eq.mp heq]⟩
    rw [lookup_annotated hann honly, likeSource, lookup_overrides,
      if_pos (List.mem_cons_of_mem _ (List.mem_cons_of_mem _ (List.mem_map.mpr hmem)))] at hvalue
    simpa [hflag, hsize, trimStart_append, hv'] using hvalue

theorem accepted_clone (hreads : ReadsAnnotations c req)
    (h : Resolved c req (annotated req FinMap.empty s) FinMap.empty defaults rp) {id : String}
    {src : ZfsDataset}
    (hreq : req.contentSource = some (.volume id))
    (hchecks : CloneChecks rp id (annotated req FinMap.empty s) src)
    (hformatted : ¬ FormattedOtherwise req s) :
    Accepted c req (annotated req (likeSource c.annotationPrefix src) s) := by
  have hparses : Parses (classParameters defaults req.parameters) rp := by
    rw [← resolveParameters_empty]
    exact parseParams_iff.mp h.parses
  have hflag :
      (resolveParameters defaults req.parameters (likeSource c.annotationPrefix src)
      c.annotationPrefix).get
      "rejectCrossPrefixClones" = "false" := get_flag hreads.1 (by simp) rfl
  have hkeys : ∀ k ∈ "rejectCrossPrefixClones" :: "volblocksize" ::
      src.spec.properties.map ("property." ++ ·.1),
      k = "rejectCrossPrefixClones" ∨ k = "volblocksize" ∨ startsWith k "property." = true := by
    intro k hk
    rcases List.mem_cons.mp hk with rfl | hk
    · exact .inl rfl
    rcases List.mem_cons.mp hk with rfl | hk
    · exact .inr (.inl rfl)
    obtain ⟨e, -, rfl⟩ := List.mem_map.mp hk
    exact .inr (.inr (startsWith_append _ _))
  have hlifted := hparses.lifted (keepsSyntax_overrides hreads.1 hkeys) hflag
  have hresolved := h.reannotate (says_pvcAnnotations hreads) (parseParams_iff.mpr hlifted) rfl rfl
  have hfs : src.spec.type = .volume → src.spec.volume.isSome →
      requestedFsType req.capabilities = "" ∨
      src.status.fsType = "" ∨ requestedFsType req.capabilities = src.status.fsType := by
    intro hvolume hsome
    by_contra hnot
    push Not at hnot
    exact hformatted ⟨id, src, hreq, hchecks.found, hvolume, hsome, hnot.1, hnot.2.1, hnot.2.2⟩
  have hchecks' : CloneChecks
      (lifted rp (resolveParameters defaults req.parameters (likeSource c.annotationPrefix src)
        c.annotationPrefix))
      id (annotated req (likeSource c.annotationPrefix src) s) src :=
    ⟨hchecks.named, hchecks.found, hchecks.pool, hchecks.type⟩
  have hcompatible : Compatible
      (lifted rp (resolveParameters defaults req.parameters (likeSource c.annotationPrefix src)
        c.annotationPrefix))
      (.ofDataset src) (requestedFsType req.capabilities) :=
        compatible_likeSource hreads.1 hfs hchecks.type
  refine hresolved.accepted (says_clone hreq (r := .ok (.zfsDatasetRef id)) ?_)
  have hverdict := hchecks'.verdict req.capabilities
  rw [checkSamePrefix_lifted,
    (judges_checkCloneCompatibility _ _ _).ok_iff.mpr hcompatible] at hverdict
  exact hverdict

theorem not_accepted_of_refused (h : Refused c req s st) : ¬ Accepted c req s := by
  rintro ⟨d, hd⟩
  cases hd.symm.trans h

/-- Annotations that are not read change nothing. -/
theorem OutsidePrefix.refused (h : OutsidePrefix req rp (annotated req annotations s) st)
    (hresolved : Resolved c req (annotated req annotations' s) annotations defaults rp) :
    Refused c req (annotated req annotations' s) st := by
  cases h with
  | restore id snap hreq hchecks hunder =>
    have hchecks' : RestoreChecks rp req.capabilities id (annotated req annotations' s) snap :=
      hchecks.reannotate rfl rfl fun _ _ h => h
    have hverdict := hchecks'.verdict
    rw [show sourceDataset (annotated req annotations' s) snap =
      sourceDataset (annotated req annotations s) snap from
      rfl, hunder] at hverdict
    exact hresolved.refused (says_restore hreq hverdict)
  | clone id src hreq hchecks hunder =>
    have hchecks' : CloneChecks rp id (annotated req annotations' s) src :=
      ⟨hchecks.named, hchecks.found, hchecks.pool, hchecks.type⟩
    refine hresolved.refused (says_clone hreq (r := .error st) ?_)
    have hverdict := hchecks'.verdict req.capabilities
    rw [hunder] at hverdict
    exact hverdict

/-- The filesystem on a source is not a parameter. -/
theorem FormattedOtherwise.not_accepted (h : FormattedOtherwise req s)
    (hreads : ReadsAnnotations c req) :
    ¬ Accepted c req (annotated req annotations s) := by
  obtain ⟨id, src, hreq, hfound, hvolume, hsome, hfs, hfs', hne⟩ := h
  rintro haccepted
  obtain ⟨st, hst, -⟩ | ⟨defaults, rp, hresolved⟩ :=
    desiredVolume_cases (says_pvcAnnotations hreads)
  · exact not_accepted_of_refused (congrArg Prod.fst hst) haccepted
  have hcases : Stops (annotated req annotations s) (resolveVolumeSource rp req.capabilities id) ∨
      ∃ src, CloneChecks rp id (annotated req annotations s) src := clone_cases
  obtain ⟨st, hst, -⟩ | ⟨src', hchecks⟩ := hcases
  · exact not_accepted_of_refused (hresolved.refused (says_clone hreq hst)) haccepted
  obtain rfl : src = src' := Option.some.inj (hfound.symm.trans hchecks.found)
  have hincompatible : ¬ Compatible rp (.ofDataset src) (requestedFsType req.capabilities) := by
    intro hcompatible
    have hformat := hcompatible.fsType (hchecks.type.symm.trans hvolume)
      (by simpa [SourceStructure.ofDataset] using hsome)
    exact (hformat.elim hfs fun h => h.elim hfs' hne)
  have hverdict := hchecks.verdict req.capabilities
  cases hunder : checkSamePrefix rp src.spec.dataset "clone" id with
  | error st =>
    rw [hunder] at hverdict
    exact not_accepted_of_refused (hresolved.refused (says_clone hreq hverdict)) haccepted
  | ok _ =>
    obtain ⟨-, hcompatible⟩ | ⟨st, hst, -⟩ :=
      judges_checkCloneCompatibility rp (.ofDataset src) (requestedFsType req.capabilities)
    · exact hincompatible hcompatible
    · rw [hunder, hst] at hverdict
      exact not_accepted_of_refused (hresolved.refused (says_clone hreq hverdict)) haccepted

/-- The annotations of a claim lift the check of the prefix, unless they are not read or the
source of a clone is refused for the filesystem on it. -/
theorem not_lifted_iff
    (hrefused : Refused c req (annotated req FinMap.empty s) st) (hcross : crossPrefix st = true) :
    (∀ annotations, ¬ Accepted c req (annotated req annotations s)) ↔
      ¬ ReadsAnnotations c req ∨ FormattedOtherwise req s := by
  have hclaim :
      Says (annotated req FinMap.empty s) (c.pvcAnnotations req.parameters) (.ok FinMap.empty) := by
    by_cases hreads : ReadsAnnotations c req
    · exact says_pvcAnnotations hreads
    · exact says_pvcAnnotations_not hreads
  obtain ⟨defaults, rp, hresolved, houtside⟩ := outsidePrefix_of_refused hclaim hrefused hcross
  constructor
  · intro hall
    by_contra hnot
    push Not at hnot
    obtain ⟨hreads, hformatted⟩ := hnot
    cases houtside with
    | restore id snap hreq hchecks _ =>
      exact hall _ (accepted_restore hreads hresolved hreq hchecks)
    | clone id src hreq hchecks _ =>
      exact hall _ (accepted_clone hreads hresolved hreq hchecks hformatted)
  · rintro hcond annotations
    by_cases hreads : ReadsAnnotations c req
    · exact (hcond.resolve_left (not_not.mpr hreads)).not_accepted hreads
    · have hresolved' : Resolved c req (annotated req annotations s) FinMap.empty defaults rp :=
        hresolved.reannotate (says_pvcAnnotations_not hreads) hresolved.parses rfl rfl
      exact not_accepted_of_refused (houtside.refused hresolved')

end Lift

/-- Annotations count that start with "z/". -/
def tenantServer : ControllerServer where
  annotationPrefix := "z/"
  unmarshal _ := .ok FinMap.empty

/-- A clone of pvc-1 into a class with another prefix, for a claim of a tenant. -/
def acrossRequest (claim : String) : CreateVolumeRequest where
  name := "pvc-2"
  capabilities := [{}]
  parameters := FinMap.ofList [("poolGUID", "1"), ("protocol", "nfs"), ("datasetPrefix", "other"),
    ("rejectCrossPrefixClones", "true"), ("csi.storage.k8s.io/pvc/name", claim),
    ("csi.storage.k8s.io/pvc/namespace", "tenant")]
  contentSource := some (.volume "pvc-1")

/-- The only volume is one under "k8s". -/
def oneVolume : CreateWorld where
  datasets := .ofList [("pvc-1", volumeOf (strictParams "k8s"))]
  snapshots := .empty
  groups := .empty
  configMaps := FinMap.empty
  claims := FinMap.empty
  clock := 0
  uuids _ := "b"
  used := 0

/-- Without a claim that is known, the request stays refused. -/
theorem not_lifted_iff_unknown :
    (∃ st, Refused tenantServer (acrossRequest "")
      (annotated (acrossRequest "") FinMap.empty oneVolume) st ∧
      crossPrefix st = true) ∧
    ∀ annotations, ¬ Accepted tenantServer (acrossRequest "")
      (annotated (acrossRequest "") annotations oneVolume) := by
  have hrefused : ∃ st, Refused tenantServer (acrossRequest "")
      (annotated (acrossRequest "") FinMap.empty oneVolume) st ∧
      crossPrefix st = true := ⟨_, rfl, by decide +kernel⟩
  refine ⟨hrefused, ?_⟩
  obtain ⟨st, hst, hcross⟩ := hrefused
  refine (not_lifted_iff hst hcross).mpr (.inl ?_)
  rintro ⟨-, hname, -⟩
  exact hname (by decide +kernel)

/-- One annotation lifts the check. -/
theorem lifted_by_tenant :
    ¬ ∀ (c : ControllerServer) (req : CreateVolumeRequest) (s : CreateWorld) (st : Status),
    Refused c req (annotated req FinMap.empty s) st → crossPrefix st = true →
    ∀ annotations, ¬ Accepted c req (annotated req annotations s) := by
  intro hall
  have hrefused : ∃ st, Refused tenantServer (acrossRequest "data")
      (annotated (acrossRequest "data") FinMap.empty oneVolume) st ∧ crossPrefix st = true :=
        ⟨_, rfl, by decide +kernel⟩
  obtain ⟨st, hst, hcross⟩ := hrefused
  exact hall _ _ _ st hst hcross (FinMap.ofList [("z/rejectCrossPrefixClones", "false")]) ⟨_, rfl⟩

end SimpleZfsCsi.Provision
