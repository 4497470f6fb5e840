import SimpleZfsCsi.Library.Dialogue
import SimpleZfsCsi.Provision.Inherit
import SimpleZfsCsi.Provision.Volume

/-!
# What a source is judged by

Up to the identifier of the new volume `CreateVolume` only reads. Where nobody writes meanwhile,
its verdict on a request is a function of the objects: the parameters are resolved, and then the
source passes its checks or fails the first one that it does not pass.
-/

namespace SimpleZfsCsi.Provision

open Library Library.Program Api Csi ControllerServer

/-- The program returns `r` where nobody else writes. -/
abbrev Says {α : Type} (s : CreateWorld) (p : CreateProc Status α) (r : Except Status α) : Prop :=
  Proc.Observes CreateWorld.handle s p r

section Steps

variable {α : Type} {s : CreateWorld}

theorem says_refuseIf_not {p : Prop} [Decidable p] {status : Status} (h : ¬ p) :
    Says s (refuseIf p status) (.ok ()) := by
  rw [refuseIf, if_neg h]
  exact .pure ()

theorem says_refuseIf {p : Prop} [Decidable p] {status : Status} (h : p) :
    Says s (refuseIf p status) (.error status) := by
  rw [refuseIf, if_pos h]
  exact .throw status

theorem says_check (r : Except Status α) : Says s (check r) r := by
  cases r with
  | error e => exact .throw e
  | ok a => exact .pure a

theorem observes_ask {e : CreateCall} (he : (CreateWorld.handle e s).2 = s) :
    Proc.Observes CreateWorld.handle s (ask e) (CreateWorld.handle e s).1 := by
  show (_, _) = (_, _)
  cases h : (CreateWorld.handle e s).1 <;> simp [he, Except.mapError]

theorem says_outcome {e : CreateCall} (he : (CreateWorld.handle e s).2 = s) :
    Says s (ask e).outcome (.ok (CreateWorld.handle e s).1) := (observes_ask he).outcome

theorem says_orStatus {e : CreateCall} (he : (CreateWorld.handle e s).2 = s) (f : Err → Status) :
    Says s (orStatus (ask e) f) ((CreateWorld.handle e s).1.mapError f) := by
  refine Proc.Observes.ok_bind (says_outcome he) ?_
  cases (CreateWorld.handle e s).1 with
  | error err => exact .throw (f err)
  | ok v => exact .pure v

end Steps

/-! ## The source of a snapshot -/

section Live

variable {s : CreateWorld} {snap : ZfsSnapshot}

/-- The volume that a snapshot is of, while it exists. -/
def liveSource (s : CreateWorld) (snap : ZfsSnapshot) : Option ZfsDataset :=
  if snap.spec.sourceVolume = "" then none else s.datasets.lookup snap.spec.sourceVolume

/-- What a restore is compared with: the volume, or what was captured of it. -/
def sourceStructure (s : CreateWorld) (snap : ZfsSnapshot) : Option SourceStructure :=
  match liveSource s snap with
  | none => capturedSourceDataset snap
  | some src => some (.ofDataset src)

/-- Where the data of a snapshot is. -/
def sourceDataset (s : CreateWorld) (snap : ZfsSnapshot) : String :=
  match liveSource s snap with
  | none => snap.spec.dataset
  | some src => src.spec.dataset

def sourceType (s : CreateWorld) (snap : ZfsSnapshot) : Option DatasetType :=
  snap.spec.sourceType.or ((liveSource s snap).map (·.spec.type))

theorem says_snapshotSourceType : Says s (snapshotSourceType snap) (.ok (sourceType s snap)) := by
  unfold snapshotSourceType sourceType liveSource sourceDatasetType
  cases snap.spec.sourceType with
  | some t => exact .pure _
  | none =>
    split_ifs with hempty
    · exact .pure _
    · refine Proc.Observes.ok_bind (says_outcome rfl) ?_
      simp only [CreateWorld.handle, Store.get]
      cases s.datasets.lookup snap.spec.sourceVolume <;> exact .pure _

theorem says_snapshotStructure :
    Says s (snapshotStructure snap) (.ok (sourceStructure s snap)) := by
  unfold snapshotStructure sourceStructure liveSource
  split_ifs with hempty
  · exact .pure _
  · refine Proc.Observes.ok_bind (says_outcome rfl) ?_
    simp only [CreateWorld.handle, Store.get]
    cases s.datasets.lookup snap.spec.sourceVolume <;> exact .pure _

theorem says_snapshotSourceDataset :
    Says s (snapshotSourceDataset snap) (.ok (sourceDataset s snap)) := by
  unfold snapshotSourceDataset sourceDataset liveSource
  split_ifs with hempty
  · exact .pure _
  · refine Proc.Observes.ok_bind (says_outcome rfl) ?_
    simp only [CreateWorld.handle, Store.get]
    cases s.datasets.lookup snap.spec.sourceVolume <;> exact .pure _

end Live

/-! ## Why a request is refused -/

/-- The status of `checkSamePrefix`. -/
def crossPrefix (st : Status) : Bool := Text.startsWith st.message "cross-prefix "

theorem startsWith_literal {literal start : String} (rest : String)
    (h : literal.toList.take start.toList.length ≠ start.toList.take literal.toList.length) :
    Text.startsWith (literal ++ rest) start = false := by
  rw [Text.startsWith, Bool.eq_false_iff]
  intro hstart
  rw [List.isPrefixOf_iff_prefix, String.toList_append] at hstart
  obtain ⟨tail, htail⟩ := hstart
  apply h
  have htake := congrArg (List.take (min literal.toList.length start.toList.length)) htail
  grind

/-- A status with another text. -/
theorem not_crossPrefix {code : Code} {literal message : String} (rest : String)
    (hmessage : message = literal ++ rest)
    (h : literal.toList.take 13 ≠ "cross-prefix ".toList.take literal.toList.length) :
    crossPrefix ⟨code, message⟩ = false := by
  rw [crossPrefix, hmessage]
  exact startsWith_literal rest h

/-- The program returns an error that is not about the prefix. -/
def Stops {α : Type} (s : CreateWorld) (p : CreateProc Status α) : Prop :=
  ∃ st, Says s p (.error st) ∧ crossPrefix st = false

section Stops

variable {α β : Type} {s : CreateWorld} {p : CreateProc Status α} {f : α → CreateProc Status β}

theorem Stops.bind (h : Stops s p) : Stops s (p >>= f) := by
  obtain ⟨st, hst, hcross⟩ := h
  exact ⟨st, hst.error_bind, hcross⟩

theorem Stops.ok_bind {a : α} (hp : Says s p (.ok a)) (h : Stops s (f a)) : Stops s (p >>= f) := by
  obtain ⟨st, hst, hcross⟩ := h
  exact ⟨st, hp.ok_bind hst, hcross⟩

variable {Q : Prop}

/-- A refusal: the program stops, or goes on. -/
theorem refuseIf_stops {c : Prop} [Decidable c] {status : Status} {f : Unit → CreateProc Status β}
    (hstatus : crossPrefix status = false) (h : ¬ c → Stops s (f ()) ∨ Q) :
    Stops s (refuseIf c status >>= f) ∨ Q := by
  by_cases hc : c
  · exact .inl (.bind ⟨status, says_refuseIf hc, hstatus⟩)
  · exact (h hc).imp_left (.ok_bind (says_refuseIf_not hc))

theorem says_stops {a : α} (hp : Says s p (.ok a)) (h : Stops s (f a) ∨ Q) :
    Stops s (p >>= f) ∨ Q :=
  h.imp_left (.ok_bind hp)

end Stops

/-- The structure of a source and the parameters of its clone agree. -/
structure Compatible (rp : ResolvedParams) (src : SourceStructure) (fs : String) : Prop where
  volblocksize : rp.datasetType = .volume → ∀ actual, src.volblocksize = some actual →
    volblocksizeBytes rp.volblocksize = volblocksizeBytes actual
  fsType : rp.datasetType = .volume → src.volblocksize.isSome → fs = "" ∨ src.fsType = "" ∨
    fs = src.fsType
  properties : ∀ p ∈ rp.properties, ∀ v, src.properties.lookup p.1 = some v → v = p.2

/-- A check passes just when `P` holds, and its error is not about the prefix. -/
def Judges (r : Except Status Unit) (P : Prop) : Prop :=
  (r = .ok () ∧ P) ∨ ∃ st, r = .error st ∧ crossPrefix st = false ∧ ¬ P

namespace Judges

variable {r r' : Except Status Unit} {P P' : Prop}

theorem congr (h : Judges r P) (hP : P ↔ P') : Judges r P' := propext hP ▸ h

theorem ok_iff (h : Judges r P) : r = .ok () ↔ P := by
  obtain ⟨rfl, hP⟩ | ⟨st, rfl, -, hP⟩ := h <;> simp [hP]

theorem guard {c : Prop} [Decidable c] {st : Status} (hst : crossPrefix st = false)
    (h : Judges r P) :
    Judges (if c then throw st >>= fun _ : Unit => r' else r) (¬ c ∧ P) := by
  by_cases hc : c
  · rw [if_pos hc]
    exact .inr ⟨st, rfl, hst, by simp [hc]⟩
  · rw [if_neg hc]
    exact h.congr (by simp [hc])

end Judges

theorem judges_properties (rp : ResolvedParams) (src : SourceStructure) :
    Judges
      (match rp.properties.find? fun p => (src.properties.lookup p.1).any (· ≠ p.2) with
        | none => return ()
        | some (k, v) =>
          throw ⟨.invalidArgument, "property " ++ Err.quoted k ++ " mismatch: target requests " ++
            Err.quoted v ++
            ", source " ++ Err.quoted src.name ++ " has " ++
              Err.quoted ((src.properties.lookup k).getD "") ++
            " (a clone/restore cannot change structural ZFS properties)"⟩)
      (∀ p ∈ rp.properties, ∀ v, src.properties.lookup p.1 = some v → v = p.2) := by
  have hfind : (rp.properties.find? fun p => (src.properties.lookup p.1).any (· ≠ p.2)) = none ↔
      ∀ p ∈ rp.properties, ∀ v, src.properties.lookup p.1 = some v → v = p.2 := by
    simp only [List.find?_eq_none, Option.any_eq_true, decide_eq_true_eq]
    grind
  rw [← hfind]
  cases hp : rp.properties.find? fun p => (src.properties.lookup p.1).any (· ≠ p.2) with
  | none => exact .inl ⟨rfl, rfl⟩
  | some p =>
    refine .inr ⟨_, rfl, ?_, by simp⟩
    exact not_crossPrefix _ (by simp only [String.append_assoc]; rfl) (by decide +kernel)

/-- What `checkCloneCompatibility` checks. -/
theorem judges_checkCloneCompatibility (rp : ResolvedParams) (src : SourceStructure) (fs : String) :
    Judges (checkCloneCompatibility rp (some src) fs) (Compatible rp src fs) := by
  have hprops := judges_properties rp src
  unfold checkCloneCompatibility
  by_cases htype : rp.datasetType = .volume
  · cases hvol : src.volblocksize with
    | none =>
      simp only [htype, if_true, hvol]
      exact hprops.congr ⟨fun h => ⟨by simp [hvol], by simp [hvol], h⟩, Compatible.properties⟩
    | some actual =>
      simp only [htype, if_true, hvol]
      refine (Judges.guard ?_ (.guard ?_ hprops)).congr ?_
      · exact not_crossPrefix _ (by simp only [String.append_assoc]; rfl) (by decide +kernel)
      · exact not_crossPrefix _ (by simp only [String.append_assoc]; rfl) (by decide +kernel)
      · constructor
        · rintro ⟨hsize, hfs, h⟩
          refine ⟨fun _ a ha => ?_, fun _ _ => ?_, h⟩
          · grind
          · grind
        · intro h
          have hsize := h.volblocksize htype actual hvol
          have hfs := h.fsType htype (by simp [hvol])
          exact ⟨by simpa using hsize, by grind, h.properties⟩
  · simp only [htype, if_false]
    exact hprops.congr ⟨fun h => ⟨by simp [htype], by simp [htype], h⟩, Compatible.properties⟩

theorem judges_structure (rp : ResolvedParams) (src : Option SourceStructure) (fs : String) :
    Judges (checkCloneCompatibility rp src fs) (∀ x, src = some x → Compatible rp x fs) := by
  cases src with
  | none => exact .inl ⟨rfl, by simp⟩
  | some src => exact (judges_checkCloneCompatibility rp src fs).congr (by simp)

theorem check_stops {β : Type} {s : CreateWorld} {r : Except Status Unit} {P Q : Prop}
    {f : Unit → CreateProc Status β} (hr : Judges r P) (h : P → Stops s (f ()) ∨ Q) :
    Stops s (check r >>= f) ∨ Q := by
  obtain ⟨rfl, hP⟩ | ⟨st, rfl, hst, -⟩ := hr
  · exact (h hP).imp_left (.ok_bind (says_check _))
  · exact .inl (.bind ⟨st, says_check _, hst⟩)

/-! ## Restores and clones -/

section Verdict

variable {rp : ResolvedParams} {caps : List VolumeCapability} {id : String} {s : CreateWorld}

/-- Everything that is checked of a restore before the prefix. -/
structure RestoreChecks (rp : ResolvedParams) (caps : List VolumeCapability) (id : String)
    (s : CreateWorld)
    (snap : ZfsSnapshot) : Prop where
  named : id ≠ ""
  found : s.snapshots.lookup id = some snap
  pool : snap.spec.poolGUID = rp.poolGUID
  type : sourceType s snap = none ∨ sourceType s snap = some rp.datasetType
  compatible : ∀ src, sourceStructure s snap = some src → Compatible rp src (requestedFsType caps)
  alive : snap.metadata.terminating = false
  ready : snap.status.phase = some .ready

theorem says_getSnapshot {snap : ZfsSnapshot} (hfound : s.snapshots.lookup id = some snap)
    (f : Err → Status) :
    Says s (orStatus (ask (.getSnapshot id)) f) (.ok snap) := by
  have hverdict := says_orStatus (s := s) (e := .getSnapshot id) rfl f
  simpa only [CreateWorld.handle, Store.get, hfound, Except.mapError] using hverdict

theorem says_getDataset {src : ZfsDataset} (hfound : s.datasets.lookup id = some src)
    (f : Err → Status) :
    Says s (orStatus (ask (.getDataset id)) f) (.ok src) := by
  have hverdict := says_orStatus (s := s) (e := .getDataset id) rfl f
  simpa only [CreateWorld.handle, Store.get, hfound, Except.mapError] using hverdict

theorem restore_cases : Stops s (resolveSnapshotSource rp caps id) ∨
    ∃ snap, RestoreChecks rp caps id s snap := by
  refine refuseIf_stops (by decide +kernel) fun hid => ?_
  cases hfound : s.snapshots.lookup id with
  | none =>
    have hverdict := says_orStatus (s := s) (e := .getSnapshot id) rfl fun e =>
      if e.isNotFound then ⟨.notFound, "source snapshot " ++ Err.quoted id ++ " not found"⟩
      else internal "get source snapshot" id e
    simp only [CreateWorld.handle, Store.get, hfound] at hverdict
    refine .inl (.bind ⟨_, hverdict, ?_⟩)
    exact not_crossPrefix _ (by simp only [String.append_assoc]; rfl) (by decide +kernel)
  | some snap =>
    refine says_stops (says_getSnapshot hfound _) (refuseIf_stops ?_ fun hpool => ?_)
    · exact not_crossPrefix _ (by simp only [String.append_assoc]; rfl) (by decide +kernel)
    refine says_stops says_snapshotSourceType (refuseIf_stops ?_ fun htype => ?_)
    · exact not_crossPrefix _ (by simp only [String.append_assoc]; rfl) (by decide +kernel)
    refine says_stops says_snapshotStructure
      (check_stops (judges_structure _ _ _) fun hcompatible => ?_)
    refine refuseIf_stops ?_ fun halive => refuseIf_stops ?_ fun hready => .inr ⟨snap, hid, hfound,
      ?_, ?_, ?_, ?_, ?_⟩
    · exact not_crossPrefix _ (by simp only [String.append_assoc]; rfl) (by decide +kernel)
    · exact not_crossPrefix _ (by simp only [String.append_assoc]; rfl) (by decide +kernel)
    · exact not_not.mp hpool
    · grind
    · exact hcompatible
    · simpa using halive
    · exact not_not.mp hready

/-- A restore that passes the other checks is decided by the prefix. -/
theorem RestoreChecks.verdict {snap : ZfsSnapshot} (h : RestoreChecks rp caps id s snap) :
    Says s (resolveSnapshotSource rp caps id)
      ((checkSamePrefix rp (sourceDataset s snap) "restore" id).map
        fun _ => .zfsSnapshotRef id) := by
  refine .ok_bind (says_refuseIf_not h.named) ?_
  refine .ok_bind (says_getSnapshot h.found _) ?_
  refine .ok_bind (says_refuseIf_not (not_not.mpr h.pool)) ?_
  refine .ok_bind says_snapshotSourceType ?_
  refine .ok_bind (says_refuseIf_not (by have := h.type; grind)) ?_
  refine .ok_bind says_snapshotStructure ?_
  have hcompatible :=
    (judges_structure rp (sourceStructure s snap) (requestedFsType caps)).ok_iff.mpr h.compatible
  rw [hcompatible]
  refine .ok_bind (says_check _) ?_
  refine .ok_bind (says_refuseIf_not (by simp [h.alive])) ?_
  refine .ok_bind (says_refuseIf_not (not_not.mpr h.ready)) ?_
  refine .ok_bind says_snapshotSourceDataset ?_
  cases checkSamePrefix rp (sourceDataset s snap) "restore" id with
  | error st => exact .error_bind (says_check _)
  | ok _ => exact .ok_bind (says_check _) (.pure _)

/-- Everything that is checked of a clone before the prefix. -/
structure CloneChecks (rp : ResolvedParams) (id : String) (s : CreateWorld)
    (src : ZfsDataset) : Prop where
  named : id ≠ ""
  found : s.datasets.lookup id = some src
  pool : src.spec.poolGUID = rp.poolGUID
  type : src.spec.type = rp.datasetType

theorem clone_cases : Stops s (resolveVolumeSource rp caps id) ∨
    ∃ src, CloneChecks rp id s src := by
  refine refuseIf_stops (by decide +kernel) fun hid => ?_
  cases hfound : s.datasets.lookup id with
  | none =>
    have hverdict := says_orStatus (s := s) (e := .getDataset id) rfl fun e =>
      if e.isNotFound then ⟨.notFound, "source volume " ++ Err.quoted id ++ " not found"⟩
      else internal "get source volume" id e
    simp only [CreateWorld.handle, Store.get, hfound] at hverdict
    refine .inl (.bind ⟨_, hverdict, ?_⟩)
    exact not_crossPrefix _ (by simp only [String.append_assoc]; rfl) (by decide +kernel)
  | some src =>
    refine says_stops (says_getDataset hfound _)
      (refuseIf_stops ?_ fun hpool => refuseIf_stops ?_ fun htype => ?_)
    · exact not_crossPrefix _ (by simp only [String.append_assoc]; rfl) (by decide +kernel)
    · exact not_crossPrefix _ (by simp only [String.append_assoc]; rfl) (by decide +kernel)
    · exact .inr ⟨src, hid, hfound, not_not.mp hpool, not_not.mp htype⟩

/-- Such a clone is decided by the prefix and then by the structure of its source. -/
theorem CloneChecks.verdict {src : ZfsDataset} (h : CloneChecks rp id s src)
    (caps : List VolumeCapability) :
    Says s (resolveVolumeSource rp caps id) (do
      checkSamePrefix rp src.spec.dataset "clone" id
      checkCloneCompatibility rp (some (.ofDataset src)) (requestedFsType caps)
      return .zfsDatasetRef id) := by
  refine .ok_bind (says_refuseIf_not h.named) ?_
  refine .ok_bind (says_getDataset h.found _) ?_
  refine .ok_bind (says_refuseIf_not (not_not.mpr h.pool)) ?_
  refine .ok_bind (says_refuseIf_not (not_not.mpr h.type)) ?_
  cases checkSamePrefix rp src.spec.dataset "clone" id with
  | error st => exact .error_bind (says_check _)
  | ok _ =>
    refine .ok_bind (says_check _) ?_
    cases checkCloneCompatibility rp (some (.ofDataset src)) (requestedFsType caps) with
    | error st => exact .error_bind (says_check _)
    | ok _ => exact .ok_bind (says_check _) (.pure _)

end Verdict

end SimpleZfsCsi.Provision
