import SimpleZfsCsi.Agent.ZfsSnapshot
import Mathlib.Tactic.SplitIfs

/-!
# Which calls the agent can make

A pass creates something in the pool, or writes a status, in few places only. `Plain` are
the calls that do neither; the functions below are shown to make plain calls, or to make
others as well, whatever they are answered.
-/

namespace SimpleZfsCsi.Agent

open Library Api Program

/-- The calls that create datasets and snapshots. -/
def AgentCall.creates : AgentCall → Bool
  | .createDataset _ _ | .createZvol _ _ _ | .snapshot _ | .clone _ _ _ => true
  | _ => false

/-- The calls that write a status. -/
def AgentCall.patches : AgentCall → Bool
  | .patchDatasetStatus _ _ _ | .patchSnapshotStatus _ _ _ => true
  | _ => false

/-- The calls that neither create nor write a status. -/
abbrev AgentCall.Plain (e : AgentCall) : Prop := e.creates = false ∧ e.patches = false

/-- The calls that change nothing. -/
def AgentCall.reads : AgentCall → Bool
  | .get _ _ | .listSnapshots _ | .clones _ | .getPool _ | .getDataset _ | .listDatasets
  | .getSnapshot _ | .listZfsSnapshots | .now => true
  | _ => false

abbrev AgentCall.Reads (e : AgentCall) : Prop := e.reads = true

theorem AgentCall.Reads.plain {e : AgentCall} (he : e.Reads) : e.Plain := by
  cases e <;> first | exact ⟨rfl, rfl⟩ | cases he

/-- The calls that write no ZfsDataset and set no owner. -/
def AgentCall.aside : AgentCall → Bool
  | .updateDataset _ | .patchDatasetStatus _ _ _ | .applyOwnership _ _ _ _ => false
  | _ => true

/-- The plain calls that write no ZfsDataset and set no owner. -/
abbrev AgentCall.Tends (e : AgentCall) : Prop := e.Plain ∧ e.aside = true

theorem AgentCall.Reads.tends {e : AgentCall} (he : e.Reads) : e.Tends := by
  cases e <;> first | exact ⟨⟨rfl, rfl⟩, rfl⟩ | cases he

theorem World.handle_reads {e : AgentCall} (he : e.Reads) (w : World) :
    (World.handle e w).2 = w := by
  cases e <;> first | rfl | cases he

section Calls

variable {P : AgentCall → Prop}

theorem ask_calls {e : AgentCall} (he : P e) : (ask e).run.Calls P := by
  simp [ask, he]

theorem outcome_bind_calls {α : Type} {e : AgentCall}
    {f : Except Err e.Val → AgentProc α} (he : P e)
    (hf : ∀ r, (f r).run.Calls P) : ((ask e).outcome >>= f).run.Calls P :=
  Proc.bind_calls (Proc.outcome_calls (ask_calls he)) hf

theorem ensureProps_calls {name : String} (hget : ∀ prop, P (.get name prop))
    (hset : ∀ prop want, P (.setProperty name prop want)) (props : Props) :
    (ensureProps name props).run.Calls P := by
  induction props with
  | nil => simp [ensureProps]
  | cons prop rest ih =>
    obtain ⟨prop, want⟩ := prop
    refine Proc.bind_calls (ask_calls (hget prop)) fun got => ?_
    split_ifs
    · exact ih
    · exact Proc.bind_calls (ask_calls (hset prop want)) fun _ => ih

theorem cleanSnapshots_calls (hclones : ∀ snap, P (.clones snap))
    (hdestroy : ∀ snap, P (.destroySnapshotDeferred snap)) (snaps : List String) :
    (cleanSnapshots snaps).run.Calls P := by
  induction snaps with
  | nil => simp [cleanSnapshots]
  | cons snap rest ih =>
    refine outcome_bind_calls (hclones snap) fun r => ?_
    cases r with
    | error e =>
      simp only
      split_ifs
      · exact ih
      · simp
    | ok clones =>
      cases clones with
      | nil =>
        refine outcome_bind_calls (hdestroy snap) fun r => ?_
        cases r with
        | ok => exact ih
        | error e => simp
      | cons => exact Proc.bind_calls ih fun _ => by simp

theorem releaseFinalizer_calls (vol : ZfsDataset) (hget : P (.getDataset vol.name))
    (hupdate : ∀ o, P (.updateDataset o)) :
    (ZfsDatasetReconciler.releaseFinalizer vol).run.Calls P := by
  refine retryOnConflict_calls (outcome_bind_calls hget fun r => ?_) _
  cases r with
  | error e =>
    simp only
    split_ifs <;> simp
  | ok cur =>
    simp only
    split_ifs
    · exact ask_calls (hupdate _)
    · simp

theorem releaseSnapshotFinalizer_calls (snap : ZfsSnapshot) (hget : P (.getSnapshot snap.name))
    (hupdate : ∀ o, P (.updateSnapshot o)) :
    (ZfsSnapshotReconciler.releaseSnapshotFinalizer snap).run.Calls P := by
  refine retryOnConflict_calls (outcome_bind_calls hget fun r => ?_) _
  cases r with
  | error e =>
    simp only
    split_ifs <;> simp
  | ok cur =>
    simp only
    split_ifs
    · exact ask_calls (hupdate _)
    · simp

end Calls

/-! ## Functions that only read, and plain ones -/

theorem ensureLabels_tends (name role owner : String) :
    (ensureLabels name role owner).run.Calls AgentCall.Tends :=
  ensureProps_calls (fun _ => ⟨⟨rfl, rfl⟩, rfl⟩) (fun _ _ => ⟨⟨rfl, rfl⟩, rfl⟩) _

theorem ensureLabels_plain (name role owner : String) :
    (ensureLabels name role owner).run.Calls AgentCall.Plain :=
  (ensureLabels_tends _ _ _).mono fun _ h => h.1

theorem existsZFS_reads (name : String) : (existsZFS name).run.Calls AgentCall.Reads := by
  refine outcome_bind_calls rfl fun r => ?_
  cases r with
  | ok => simp
  | error e =>
    simp only
    split_ifs <;> simp

theorem firstExisting_reads (names : List String) :
    (firstExisting names).run.Calls AgentCall.Reads := by
  induction names with
  | nil => simp [firstExisting]
  | cons cand rest ih =>
    refine Proc.bind_calls (existsZFS_reads cand) fun found => ?_
    split_ifs
    · simp
    · exact ih

theorem locateRawSnapshot_reads (backingFull recordedRaw suffix : String) :
    (locateRawSnapshot backingFull recordedRaw suffix).run.Calls AgentCall.Reads := by
  refine outcome_bind_calls rfl fun r => ?_
  cases r with
  | ok got =>
    simp only
    split_ifs <;> exact firstExisting_reads _
  | error e =>
    simp only
    split_ifs
    · exact firstExisting_reads _
    · simp

theorem locateRawSnapshot_plain (backingFull recordedRaw suffix : String) :
    (locateRawSnapshot backingFull recordedRaw suffix).run.Calls AgentCall.Plain :=
  (locateRawSnapshot_reads _ _ _).mono fun _ => AgentCall.Reads.plain

theorem cleanSnapshots_tends (snaps : List String) :
    (cleanSnapshots snaps).run.Calls AgentCall.Tends :=
  cleanSnapshots_calls (fun _ => ⟨⟨rfl, rfl⟩, rfl⟩) (fun _ => ⟨⟨rfl, rfl⟩, rfl⟩) _

theorem pickBacking_reads (pick : String × String) (candidates : List (String × String)) :
    (pickBacking pick candidates).run.Calls AgentCall.Reads := by
  induction candidates with
  | nil => simp [pickBacking]
  | cons cd rest ih =>
    refine outcome_bind_calls rfl fun r => ?_
    cases r with
    | error e =>
      simp only
      split_ifs
      · exact ih
      · simp
    | ok role =>
      simp only
      split_ifs
      · simp
      · exact ih

theorem assertKnownDatasets_reads (poolGUID poolName snap : String) (clones : List String) :
    (assertKnownDatasets poolGUID poolName snap clones).run.Calls AgentCall.Reads := by
  refine Proc.bind_calls (ask_calls rfl) fun datasets =>
    Proc.bind_calls (ask_calls rfl) fun snaps => ?_
  simp only
  split <;> simp

theorem promoteAway_tends (poolGUID poolName : String) (cloned : List (String × List String))
    (first : String × String) :
    (promoteAway poolGUID poolName cloned first).run.Calls AgentCall.Tends := by
  refine Proc.bind_calls ((pickBacking_reads _ _).mono fun _ => AgentCall.Reads.tends) fun pick =>
    Proc.bind_calls
      ((assertKnownDatasets_reads _ _ _ _).mono fun _ => AgentCall.Reads.tends) fun _ =>
      outcome_bind_calls ⟨⟨rfl, rfl⟩, rfl⟩ fun r => ?_
  cases r <;> simp

theorem detachRounds_tends (poolGUID poolName full : String) (rounds : Nat) :
    (detachRounds poolGUID poolName full rounds).run.Calls AgentCall.Tends := by
  induction rounds with
  | zero => simp [detachRounds]
  | succ rounds ih =>
    refine outcome_bind_calls ⟨⟨rfl, rfl⟩, rfl⟩ fun r => ?_
    cases r with
    | error e =>
      simp only
      split_ifs <;> simp
    | ok snaps =>
      cases snaps with
      | nil => simp
      | cons snap snaps =>
        refine Proc.bind_calls (liftExcept_calls _) fun _ =>
          Proc.bind_calls (cleanSnapshots_tends _) fun cloned => ?_
        split
        · simp
        · exact Proc.bind_calls (promoteAway_tends _ _ _ _) fun _ => ih

theorem detachAndCleanSnapshots_tends (poolGUID poolName full : String) :
    (detachAndCleanSnapshots poolGUID poolName full).run.Calls AgentCall.Tends :=
  detachRounds_tends _ _ _ _

theorem detachAndCleanSnapshots_plain (poolGUID poolName full : String) :
    (detachAndCleanSnapshots poolGUID poolName full).run.Calls AgentCall.Plain :=
  (detachAndCleanSnapshots_tends _ _ _).mono fun _ h => h.1

theorem resolveDatasetPath_reads (sourceVolume recorded : String) :
    (resolveDatasetPath sourceVolume recorded).run.Calls AgentCall.Reads := by
  unfold resolveDatasetPath
  split_ifs
  · simp
  · refine outcome_bind_calls rfl fun r => ?_
    cases r with
    | ok => simp
    | error e =>
      simp only
      split_ifs <;> simp

theorem resolveDatasetPath_plain (sourceVolume recorded : String) :
    (resolveDatasetPath sourceVolume recorded).run.Calls AgentCall.Plain :=
  (resolveDatasetPath_reads _ _).mono fun _ => AgentCall.Reads.plain

theorem findPool_reads (guid : String) : (findPool guid).run.Calls AgentCall.Reads := by
  refine outcome_bind_calls rfl fun r => ?_
  cases r with
  | ok => simp
  | error e =>
    simp only
    split_ifs <;> simp

theorem findPool_plain (guid : String) : (findPool guid).run.Calls AgentCall.Plain :=
  (findPool_reads _).mono fun _ => AgentCall.Reads.plain

theorem snapshotCreationTime_reads (full : String) :
    (snapshotCreationTime full).run.Calls AgentCall.Reads := by
  refine outcome_bind_calls rfl fun r => ?_
  cases r with
  | ok val =>
    simp only
    split_ifs
    · simp
    · exact ask_calls rfl
  | error e => exact ask_calls rfl

theorem snapshotCreationTime_plain (full : String) :
    (snapshotCreationTime full).run.Calls AgentCall.Plain :=
  (snapshotCreationTime_reads _).mono fun _ => AgentCall.Reads.plain

theorem snapshotRestoreSize_reads (full : String) :
    (snapshotRestoreSize full).run.Calls AgentCall.Reads := by
  refine outcome_bind_calls rfl fun r => ?_
  cases r with
  | error e => simp
  | ok val =>
    simp only
    split_ifs <;> simp

theorem snapshotRestoreSize_plain (full : String) :
    (snapshotRestoreSize full).run.Calls AgentCall.Plain :=
  (snapshotRestoreSize_reads _).mono fun _ => AgentCall.Reads.plain

namespace ZfsDatasetReconciler

theorem resolveSnapshotRef_reads (vol : ZfsDataset) (poolName name : String) :
    (resolveSnapshotRef vol poolName name).run.Calls AgentCall.Reads := by
  refine outcome_bind_calls rfl fun r => ?_
  cases r with
  | error e =>
    simp only
    split_ifs <;> simp
  | ok snap =>
    simp only
    split_ifs
    · simp
    · simp
    · simp
    refine Proc.bind_calls (resolveDatasetPath_reads _ _) fun srcPath =>
      Proc.bind_calls (liftExcept_calls _) fun recorded =>
        Proc.bind_calls (locateRawSnapshot_reads _ _ _) fun raw => ?_
    split_ifs <;> simp

theorem resolveSnapshotRef_plain (vol : ZfsDataset) (poolName name : String) :
    (resolveSnapshotRef vol poolName name).run.Calls AgentCall.Plain :=
  (resolveSnapshotRef_reads _ _ _).mono fun _ => AgentCall.Reads.plain

theorem applyRootOwnership_plain (vol : ZfsDataset) (baseMountPath poolName : String) :
    (applyRootOwnership vol baseMountPath poolName).run.Calls AgentCall.Plain := by
  unfold applyRootOwnership
  split
  · split_ifs
    · simp
    · exact Proc.bind_calls (liftExcept_calls _) fun _ => ask_calls ⟨rfl, rfl⟩
  · simp

theorem ensureSize_tends (vol : ZfsDataset) (full : String) :
    (ensureSize vol full).run.Calls AgentCall.Tends := by
  unfold ensureSize
  cases vol.spec.type with
  | filesystem =>
    refine Proc.bind_calls (ask_calls ⟨⟨rfl, rfl⟩, rfl⟩) fun current => ?_
    cases refquotaEqual current (((quotaOf vol).map toString).getD "none") with
    | true => simp
    | false => exact ask_calls ⟨⟨rfl, rfl⟩, rfl⟩
  | volume =>
    cases vol.spec.volume with
    | none => simp
    | some v =>
      refine Proc.bind_calls (ask_calls ⟨⟨rfl, rfl⟩, rfl⟩) fun current => ?_
      generalize alignUp _ _ = desired
      by_cases h : (Text.parseInt (Text.trimSpace current)).1 < desired
      · rw [if_pos h]
        exact ask_calls ⟨⟨rfl, rfl⟩, rfl⟩
      · rw [if_neg h]
        simp

theorem ensureVolumeLabels_tends (vol : ZfsDataset) (full : String) :
    (ensureVolumeLabels vol full).run.Calls AgentCall.Tends := by
  unfold ensureVolumeLabels
  split_ifs
  · simp
  · exact ensureLabels_tends _ _ _

theorem releaseCloneOrigin_tends (vol : ZfsDataset) (full : String) :
    (releaseCloneOrigin vol full).run.Calls AgentCall.Tends := by
  unfold releaseCloneOrigin
  split_ifs
  · refine outcome_bind_calls ⟨⟨rfl, rfl⟩, rfl⟩ fun r => ?_
    cases r with
    | ok => exact ask_calls ⟨⟨rfl, rfl⟩, rfl⟩
    | error e =>
      simp only
      split_ifs
      · refine outcome_bind_calls ⟨⟨rfl, rfl⟩, rfl⟩ fun r => ?_
        cases r with
        | error e =>
          simp only
          split_ifs <;> simp
        | ok origin =>
          simp only
          split_ifs
          · exact ask_calls ⟨⟨rfl, rfl⟩, rfl⟩
          · simp
      · simp
  · simp

theorem beforeDestroy_tends (vol : ZfsDataset) (poolName full : String) :
    (beforeDestroy vol poolName full).run.Calls AgentCall.Tends :=
  Proc.bind_calls (releaseCloneOrigin_tends _ _) fun _ => detachAndCleanSnapshots_tends _ _ _

theorem ensureSize_plain (vol : ZfsDataset) (full : String) :
    (ensureSize vol full).run.Calls AgentCall.Plain :=
  (ensureSize_tends _ _).mono fun _ h => h.1

theorem ensureVolumeLabels_plain (vol : ZfsDataset) (full : String) :
    (ensureVolumeLabels vol full).run.Calls AgentCall.Plain :=
  (ensureVolumeLabels_tends _ _).mono fun _ h => h.1

theorem beforeDestroy_plain (vol : ZfsDataset) (poolName full : String) :
    (beforeDestroy vol poolName full).run.Calls AgentCall.Plain :=
  (beforeDestroy_tends _ _ _).mono fun _ h => h.1

/-! ## Creating writes no status and no ZfsDataset -/

theorem create_calls (vol : ZfsDataset) (poolName full : String) :
    (create vol poolName full).run.Calls fun e => e.patches = false ∧ e.aside = true := by
  have hclone : ∀ srcPath props, (cloneFromDataset vol poolName srcPath full props).run.Calls
      fun e => e.patches = false ∧ e.aside = true := by
    intro srcPath props
    exact Proc.bind_calls (ask_calls ⟨rfl, rfl⟩) fun _ =>
      Proc.bind_calls ((ensureLabels_tends _ _ _).mono fun _ h => ⟨h.1.2, h.2⟩)
        fun _ => ask_calls ⟨rfl, rfl⟩
  unfold create
  split
  · unfold clone
    split
    · split_ifs
      · simp
      · exact ask_calls ⟨rfl, rfl⟩
    · split_ifs
      · simp
      · exact hclone _ _
    · exact Proc.bind_calls ((resolveSnapshotRef_reads _ _ _).mono fun _ h => ⟨h.tends.1.2,
        h.tends.2⟩) fun _ => ask_calls ⟨rfl, rfl⟩
    · refine outcome_bind_calls ⟨rfl, rfl⟩ fun r => ?_
      cases r with
      | error e =>
        simp only
        split_ifs <;> simp
      | ok src =>
        simp only
        split_ifs
        · simp
        · simp
        · exact hclone _ _
  · split
    · exact ask_calls ⟨rfl, rfl⟩
    · split
      · simp
      · exact ask_calls ⟨rfl, rfl⟩

end ZfsDatasetReconciler

namespace ZfsSnapshotReconciler

theorem releaseRaw_plain (snap : ZfsSnapshot) (backingFull rawFull : String) :
    (releaseRaw snap backingFull rawFull).run.Calls AgentCall.Plain := by
  refine Proc.bind_calls (locateRawSnapshot_plain _ _ _) fun raw => ?_
  split_ifs
  · simp
  · exact ask_calls ⟨rfl, rfl⟩

theorem reconcileDelete_plain (snap : ZfsSnapshot) (pool : ZfsPool) :
    (reconcileDelete snap pool).run.Calls AgentCall.Plain := by
  refine Proc.bind_calls (resolveDatasetPath_plain _ _) fun datasetPath =>
    Proc.bind_calls (liftExcept_calls _) fun rawFull =>
      Proc.bind_calls (liftExcept_calls _) fun backingFull =>
        Proc.bind_calls (releaseRaw_plain _ _ _) fun _ =>
          Proc.bind_calls (detachAndCleanSnapshots_plain _ _ _) fun _ =>
            Proc.bind_calls (ask_calls ⟨rfl, rfl⟩) fun _ => Proc.bind_calls ?_ fun _ => by simp
  exact releaseSnapshotFinalizer_calls _ ⟨rfl, rfl⟩ fun _ => ⟨rfl, rfl⟩

end ZfsSnapshotReconciler

end SimpleZfsCsi.Agent
