import SimpleZfsCsi.Provision.Snapshot
import SimpleZfsCsi.Provision.Volume

/-!
# Creating what is being deleted

An object that is being deleted keeps its last status until its finalizer is gone. The wait
loops of `CreateVolume` and `CreateSnapshot` look at the status only, the one of
`CreateVolumeGroupSnapshot` also looks at the deletion timestamp.
-/

namespace SimpleZfsCsi.Provision

open Library Api Program

/-- The call is not a read of a wait loop. -/
def NoPoll : CreateCall → Prop
  | .pollDataset _ | .pollSnapshot _ | .pollGroup _ => False
  | _ => True

/-- A read of a wait loop finds the object being deleted, and as ready as before. -/
def FindsDying (c : CreateCall × CreateWorld) : Prop :=
  match c.1 with
  | .pollDataset name => ∃ vol, c.2.datasets.lookup name = some vol ∧ vol.metadata.terminating ∧
      vol.status.phase = some .ready
  | .pollSnapshot name =>
    ∃ snap, c.2.snapshots.lookup name = some snap ∧ snap.metadata.terminating ∧
      snap.status.phase = some .ready ∧ snap.status.readyToUse
  | _ => False

instance : DecidablePred FindsDying := fun c =>
  match c with
  | (.pollDataset name, u) => decidable_of_iff
      (((u.datasets.lookup name).any fun vol => vol.metadata.terminating && vol.status.phase =
        some .ready) = true)
      (by simp [FindsDying, Option.any_eq_true])
  | (.pollSnapshot name, u) => decidable_of_iff
      (((u.snapshots.lookup name).any fun snap => snap.metadata.terminating &&
        (snap.status.phase = some .ready && snap.status.readyToUse)) = true)
          (by simp [FindsDying, Option.any_eq_true])
  | (.pollGroup _, _) | (.getConfigMap _ _, _) | (.getPVC _ _, _) | (.getDataset _,
    _) | (.createDataset _ _, _)
  | (.getSnapshot _, _) | (.createSnapshot _ _, _) | (.getGroup _, _) | (.createGroup _ _,
    _) | (.newUUID, _) =>
    .isFalse id

/-- The last read `e` of a run finds a state in which `alive` holds. -/
def DecidedIn (e : CreateCall) (alive : CreateWorld → Prop)
    (l : List (CreateCall × CreateWorld)) : Prop :=
  ∃ l₁ u l₂, l = l₁ ++ (e, u) :: l₂ ∧ (∀ c ∈ l₂, c.1 ≠ e) ∧ alive u

theorem decidedIn_last {e : CreateCall} {alive : CreateWorld → Prop}
    {l : List (CreateCall × CreateWorld)}
    {u : CreateWorld} : DecidedIn e alive (l ++ [(e, u)]) ↔ alive u := by
  constructor
  · rintro ⟨l₁, u', l₂, heq, hlast, halive⟩
    have hend : (l ++ [(e, u)]).getLast? = (l₁ ++ (e, u') :: l₂).getLast? := by rw [heq]
    rcases List.eq_nil_or_concat l₂ with rfl | ⟨l₃, c, rfl⟩
    · obtain rfl : u = u' := by simpa using hend
      exact halive
    · obtain rfl : (e, u) = c := by simpa [List.getLast?_cons] using hend
      exact absurd rfl (hlast (e, u) (by simp))
  · exact fun halive => ⟨l, u, [], rfl, by simp, halive⟩

/-- The object of the store is there and is not being deleted. -/
def Alive {Spec Status : Type} (st : Store Spec Status) (name : String) : Prop :=
  ∃ o, st.lookup name = some o ∧ o.metadata.terminating = false

/-! ## The calls around the wait loops -/

section Calls

theorem ask_noPoll {e : CreateCall} (he : NoPoll e) : (ask e).run.Calls NoPoll := by
  simp [ask, he]

theorem orStatus_noPoll {α : Type} {p : CreateProc Err α} {f : Err → Status}
    (hp : p.run.Calls NoPoll) :
    (orStatus p f).run.Calls NoPoll := by
  refine Proc.bind_calls (Proc.outcome_calls hp) fun r => ?_
  cases r <;> simp

theorem check_noPoll {α : Type} (r : Except Status α) :
    (check r).run.Calls NoPoll := by
  cases r <;> simp [check]

theorem getSource_noPoll (id : String) : (getSource id).run.Calls NoPoll :=
  orStatus_noPoll (ask_noPoll trivial)

theorem newUUID_noPoll : newUUID.run.Calls NoPoll := orStatus_noPoll (ask_noPoll trivial)

theorem refuseIf_noPoll (p : Prop) [Decidable p] (status : Status) :
    (refuseIf p status).run.Calls NoPoll := by
  unfold refuseIf
  split_ifs <;> simp

open ControllerServer

theorem pvcAnnotations_noPoll (c : ControllerServer) (params : Params) :
    (c.pvcAnnotations params).run.Calls NoPoll := by
  unfold pvcAnnotations
  dsimp only
  split_ifs
  · simp
  · refine Proc.bind_calls (Proc.outcome_calls (ask_noPoll trivial)) fun r => ?_
    cases r with
    | ok a => simp
    | error e =>
      simp only
      split_ifs <;> simp

theorem defaultParams_noPoll (c : ControllerServer) : c.defaultParams.run.Calls NoPoll := by
  unfold defaultParams
  split_ifs
  · simp
  · refine Proc.bind_calls (Proc.outcome_calls (ask_noPoll trivial)) fun r => ?_
    cases r with
    | ok raw =>
      simp only
      split_ifs
      · simp
      · split <;> simp
    | error e =>
      simp only
      split_ifs <;> simp

theorem snapshotSourceType_noPoll (snap : ZfsSnapshot) :
    (snapshotSourceType snap).run.Calls NoPoll := by
  unfold snapshotSourceType sourceDatasetType
  split
  · simp
  · split_ifs
    · simp
    · refine Proc.bind_calls (Proc.outcome_calls (ask_noPoll trivial)) fun r => ?_
      cases r <;> simp

theorem snapshotSourceDataset_noPoll (snap : ZfsSnapshot) :
    (snapshotSourceDataset snap).run.Calls NoPoll := by
  unfold snapshotSourceDataset
  split_ifs
  · simp
  · refine Proc.bind_calls (Proc.outcome_calls (ask_noPoll trivial)) fun r => ?_
    cases r <;> simp

theorem snapshotStructure_noPoll (snap : ZfsSnapshot) :
    (snapshotStructure snap).run.Calls NoPoll := by
  unfold snapshotStructure
  split_ifs
  · simp
  · refine Proc.bind_calls (Proc.outcome_calls (ask_noPoll trivial)) fun r => ?_
    cases r <;> simp

theorem resolveContentSource_noPoll (rp : ResolvedParams) (req : CreateVolumeRequest) :
    (resolveContentSource rp req).run.Calls NoPoll := by
  unfold resolveContentSource
  split
  · simp
  · refine Proc.map_calls (Proc.bind_calls (refuseIf_noPoll _ _) fun _ => ?_)
    refine Proc.bind_calls (orStatus_noPoll (ask_noPoll trivial)) fun snap => ?_
    refine Proc.bind_calls (refuseIf_noPoll _ _) fun _ => ?_
    refine Proc.bind_calls (snapshotSourceType_noPoll snap) fun _ => ?_
    refine Proc.bind_calls (refuseIf_noPoll _ _) fun _ => ?_
    refine Proc.bind_calls (snapshotStructure_noPoll snap) fun _ => ?_
    refine Proc.bind_calls (check_noPoll _) fun _ => ?_
    refine Proc.bind_calls (refuseIf_noPoll _ _) fun _ => ?_
    refine Proc.bind_calls (refuseIf_noPoll _ _) fun _ => ?_
    refine Proc.bind_calls (snapshotSourceDataset_noPoll snap) fun _ => ?_
    exact Proc.bind_calls (check_noPoll _) fun _ => by simp
  · refine Proc.map_calls (Proc.bind_calls (refuseIf_noPoll _ _) fun _ => ?_)
    refine Proc.bind_calls (orStatus_noPoll (ask_noPoll trivial)) fun src => ?_
    refine Proc.bind_calls (refuseIf_noPoll _ _) fun _ => ?_
    refine Proc.bind_calls (refuseIf_noPoll _ _) fun _ => ?_
    refine Proc.bind_calls (check_noPoll _) fun _ => ?_
    exact Proc.bind_calls (check_noPoll _) fun _ => by simp
  · simp

theorem desiredVolume_noPoll (c : ControllerServer) (req : CreateVolumeRequest) :
    (c.desiredVolume req).run.Calls NoPoll := by
  refine Proc.bind_calls (refuseIf_noPoll _ _) fun _ => ?_
  refine Proc.bind_calls (refuseIf_noPoll _ _) fun _ => ?_
  refine Proc.bind_calls (pvcAnnotations_noPoll c _) fun annotations => ?_
  refine Proc.bind_calls (defaultParams_noPoll c) fun defaults => ?_
  -- what the parameters parse to does not matter
  generalize (parseParams (resolveParameters defaults req.parameters annotations
    c.annotationPrefix)).mapError (Status.mk .invalidArgument) = parsed
  refine Proc.bind_calls (check_noPoll parsed) fun _ => ?_
  refine Proc.bind_calls (refuseIf_noPoll _ _) fun _ => ?_
  refine Proc.bind_calls (refuseIf_noPoll _ _) fun _ => ?_
  refine Proc.bind_calls (refuseIf_noPoll _ _) fun _ => ?_
  refine Proc.bind_calls (resolveContentSource_noPoll _ _) fun _ => ?_
  exact Proc.bind_calls newUUID_noPoll fun _ => by simp

theorem ensureVolume_noPoll (name : String) (desired : ZfsDatasetSpec) (rounds : Nat) :
    (ensureVolume name desired rounds).run.Calls NoPoll := by
  induction rounds with
  | zero => simp [ensureVolume]
  | succ rounds ih =>
    refine Proc.bind_calls (Proc.outcome_calls (ask_noPoll trivial)) fun found => ?_
    cases found with
    | ok existing =>
      simp only
      split_ifs <;> simp
    | error e =>
      simp only
      split_ifs
      · refine Proc.bind_calls (Proc.outcome_calls (ask_noPoll trivial)) fun created => ?_
        split
        · simp
        · exact ih
        · simp
      · simp

theorem ensureSnapshot_noPoll (name : String) (desired : ZfsSnapshotSpec) (rounds : Nat) :
    (ensureSnapshot name desired rounds).run.Calls NoPoll := by
  induction rounds with
  | zero => simp [ensureSnapshot]
  | succ rounds ih =>
    refine Proc.bind_calls (Proc.outcome_calls (ask_noPoll trivial)) fun found => ?_
    cases found with
    | ok existing =>
      simp only
      split_ifs <;> simp
    | error e =>
      simp only
      split_ifs
      · refine Proc.bind_calls (Proc.outcome_calls (ask_noPoll trivial)) fun created => ?_
        split
        · simp
        · exact ih
        · simp
      · simp

theorem buildMembers_noPoll (groupName : String) (ids : List String) (spec : ZfsGroupSnapshotSpec)
    (pools : List String) : (buildMembers groupName ids spec pools).run.Calls NoPoll := by
  induction ids generalizing spec pools with
  | nil => simp [buildMembers]
  | cons id rest ih =>
    refine Proc.bind_calls (getSource_noPoll id) fun src => ?_
    refine Proc.bind_calls newUUID_noPoll fun _ => ?_
    exact Proc.bind_calls newUUID_noPoll fun _ => ih _ _

theorem ensureGroup_noPoll (name : String) (ids : List String) (rounds : Nat) :
    (ensureGroup name ids rounds).run.Calls NoPoll := by
  induction rounds with
  | zero => simp [ensureGroup]
  | succ rounds ih =>
    refine Proc.bind_calls (Proc.outcome_calls (ask_noPoll trivial)) fun found => ?_
    cases found with
    | ok existing =>
      simp only
      split_ifs <;> simp
    | error e =>
      simp only
      split_ifs
      · refine Proc.bind_calls (Proc.bind_calls (buildMembers_noPoll _ _ _ _) fun members => ?_)
          fun spec => ?_
        · exact Proc.bind_calls (refuseIf_noPoll _ _) fun _ => by simp
        · refine Proc.bind_calls (Proc.outcome_calls (ask_noPoll trivial)) fun created => ?_
          split
          · simp
          · exact ih
          · simp
      · simp

theorem groupMessage_noPoll (grp : ZfsGroupSnapshot) : (groupMessage grp).run.Calls NoPoll := by
  have hmembers : ∀ members, (memberMessages grp members).run.Calls NoPoll := by
    intro members
    induction members with
    | nil => simp [memberMessages]
    | cons m rest ih =>
      refine Proc.bind_calls (orStatus_noPoll (ask_noPoll trivial)) fun child => ?_
      exact Proc.bind_calls ih fun _ => by simp
  unfold groupMessage
  split
  · simp
  · exact Proc.bind_calls (hmembers _) fun _ => by simp

end Calls

/-! ## Runs with one wait loop -/

section Loop

variable {α β γ : Type} {prep : CreateProc Status α} {e : CreateCall} {onError : Err → Status}
  {judge : e.Val → Option (Except Status β)} {timeout : Status} {rounds : Nat}
  {fin : α → β → CreateProc Status γ} {s t : CreateWorld} {l : List (CreateCall × CreateWorld)}
  {o : Option (Except Status γ)}

/-- What a read in a wait loop finds does not decide. -/
abbrev Passed (judge : e.Val → Option (Except Status β)) (c : CreateCall × CreateWorld) : Prop :=
  c.1 = e ∧ Undecided CreateWorld.handle e judge c

/-- A run through a wait loop comes to the read that decides, or does not succeed. -/
theorem loop_runs (he : ∀ r, CreateCall.fails e r → ∃ err, r = .error err)
    (hprep : prep.run.Calls NoPoll) (hfin : ∀ a b, (fin a b).run.Calls NoPoll)
    (hr :
      CreateRuns (prep >>= fun a => Proc.poll e onError judge timeout rounds >>= fin a) s l o t) :
    (∃ l₁ u l₂ v r, l = l₁ ++ (e, u) :: l₂ ∧ (CreateWorld.handle e u).1 = .ok v ∧ judge v = some r ∧
      (∀ c ∈ l₁, NoPoll c.1 ∨ Passed judge c) ∧ (∀ c ∈ l₂, NoPoll c.1) ∧
      ((∃ a b u', r = .ok b ∧ CreateRuns (fin a b) u' l₂ o t) ∨
        (∃ err, r = .error err ∧ ∀ b, o ≠ some (.ok b)))) ∨
    ((∀ b, o ≠ some (.ok b)) ∧ ∀ c ∈ l, NoPoll c.1 ∨ Passed judge c) := by
  obtain ⟨a, u, l₁, l₂, h₁, h₂, rfl⟩ | ⟨o', h₁, _, ho⟩ := Proc.runs_bind hr
  swap
  · exact .inr ⟨ho, fun c hc => .inl (hprep.runs h₁ c hc)⟩
  have hl₁ : ∀ c ∈ l₁, NoPoll c.1 := hprep.runs h₁
  obtain ⟨b, u', l₃, l₄, h₃, h₄, rfl⟩ | ⟨o', h₃, ho', ho⟩ := Proc.runs_bind h₂
  · obtain ⟨hcalls, ⟨l', w, v, r, rfl, hv, hjudge, hor, hl'⟩ | ⟨hnot, _⟩⟩ := Proc.poll_runs he h₃
    · refine .inl ⟨l₁ ++ l', w, l₄, v, r,
        by simp, hv, hjudge, fun c hc => ?_, (hfin a b).runs h₄, .inl ?_⟩
      · rcases List.mem_append.mp hc with hc | hc
        · exact .inl (hl₁ c hc)
        · exact .inr ⟨hcalls c (List.mem_append_left _ hc), hl' c hc⟩
      · exact ⟨a, b, u', (Option.some_inj.mp hor).symm, h₄⟩
    · exact absurd rfl (hnot b)
  · obtain ⟨hcalls, ⟨l', w, v, r, rfl, hv, hjudge, rfl, hl'⟩ | ⟨_, hl₂⟩⟩ := Proc.poll_runs he h₃
    · refine .inl ⟨l₁ ++ l', w, [], v, r, by simp, hv, hjudge, fun c hc => ?_, by simp, .inr ?_⟩
      · rcases List.mem_append.mp hc with hc | hc
        · exact .inl (hl₁ c hc)
        · exact .inr ⟨hcalls c (List.mem_append_left _ hc), hl' c hc⟩
      · cases r with
        | ok b => exact absurd rfl (ho' b)
        | error err => exact ⟨err, rfl, ho⟩
    · refine .inr ⟨ho, fun c hc => ?_⟩
      rcases List.mem_append.mp hc with hc | hc
      · exact .inl (hl₁ c hc)
      · exact .inr ⟨hcalls c hc, hl₂ c hc⟩

/-- A run through a wait loop that succeeds as soon as it is decided: it is decided on an object
that is alive just when no read of the loop finds a dying one. -/
theorem decided_iff {alive : CreateWorld → Prop}
    (he : ∀ r, CreateCall.fails e r → ∃ err, r = .error err)
    (hprep : prep.run.Calls NoPoll) {result : α → β → γ}
    (hpassed : ∀ c, Passed judge c → ¬ FindsDying c)
    (hok : ∀ u v b, (CreateWorld.handle e u).1 = .ok v → judge v = some (.ok b) →
      (alive u ↔ ¬ FindsDying (e, u)))
    (herror : ∀ u v err, (CreateWorld.handle e u).1 = .ok v → judge v = some (.error err) →
      ¬ FindsDying (e, u))
    (hr : CreateRuns (prep >>= fun a => Proc.poll e onError judge timeout rounds >>= fun b =>
      return (result a b)) s l o t) :
    ((∃ r, o = some (.ok r)) → DecidedIn e alive l) ↔ ∀ c ∈ l, ¬ FindsDying c := by
  have hnoPoll : ∀ c : CreateCall × CreateWorld, NoPoll c.1 → ¬ FindsDying c := by
    rintro ⟨e, u⟩ hc hdying
    cases e <;> first
      | exact hc
      | exact hdying
  have hfree : ∀ c : CreateCall × CreateWorld, NoPoll c.1 ∨ Passed judge c → ¬ FindsDying c := by
    rintro c (hc | hc)
    · exact hnoPoll c hc
    · exact hpassed c hc
  obtain ⟨l₁, u, l₂, v, r, rfl, hv, hjudge, hl₁, hl₂, hend⟩ | ⟨ho, hl⟩ :=
    loop_runs he hprep (fun a b => by simp) hr
  · rcases hend with ⟨a, b, u', rfl, hfin⟩ | ⟨err, rfl, ho⟩
    · cases hfin with
      | done =>
        constructor
        · intro h c hc
          have halive : alive u := decidedIn_last.mp (h ⟨_, rfl⟩)
          rcases List.mem_append.mp hc with hc | hc
          · exact hfree c (hl₁ c hc)
          · obtain rfl : c = (e, u) := by simpa using hc
            exact (hok u v b hv hjudge).mp halive
        · intro h _
          exact decidedIn_last.mpr ((hok u v b hv hjudge).mpr (h _ (by simp)))
    · refine ⟨fun _ c hc => ?_, fun _ ⟨r, hr⟩ => absurd hr (ho r)⟩
      rcases List.mem_append.mp hc with hc | hc
      · exact hfree c (hl₁ c hc)
      · rcases List.mem_cons.mp hc with rfl | hc
        · exact herror u v err hv hjudge
        · exact hnoPoll c (hl₂ c hc)
  · exact ⟨fun _ c hc => hfree c (hl c hc), fun _ ⟨r, hr⟩ => absurd hr (ho r)⟩

end Loop

/-! ## The three calls -/

theorem handle_get {Spec Status : Type} {st : Store Spec Status} {name : String}
    {o : Object Spec Status} :
    st.get name = .ok o ↔ st.lookup name = some o := by
  unfold Store.get
  cases st.lookup name <;> simp

theorem createVolume_decided (c : ControllerServer) (req : CreateVolumeRequest) {rounds : Nat}
    {s t : CreateWorld}
    {l : List (CreateCall × CreateWorld)} {o : Option (Except Status CreateVolumeResponse)}
    (hr : CreateRuns (c.createVolume req rounds) s l o t) :
    ((∃ r, o = some (.ok r)) →
      DecidedIn (.pollDataset req.name) (fun u => Alive u.datasets req.name) l) ↔
      ∀ x ∈ l, ¬ FindsDying x := by
  have hsplit : c.createVolume req rounds =
      ((c.desiredVolume req >>= fun d => do
        let _ ← ControllerServer.ensureVolume req.name d.spec rounds
        return d) >>= fun d =>
      ControllerServer.waitVolumeReady req.name 0 rounds >>= fun _ =>
      return ⟨req.name, d.sizeBytes, req.contentSource⟩) := by
    simp only [ControllerServer.createVolume, ControllerServer.provideVolume,
      LawfulMonad.bind_assoc, LawfulMonad.pure_bind]
  rw [hsplit] at hr
  refine decided_iff ?_ ?_ ?_ ?_ ?_ hr
  · rintro r ⟨msg, rfl⟩
    exact ⟨_, rfl⟩
  · refine Proc.bind_calls (desiredVolume_noPoll c req) fun d => ?_
    exact Proc.bind_calls (ensureVolume_noPoll _ _ _) fun _ => by simp
  · rintro ⟨e, u⟩ ⟨rfl, hundecided⟩ ⟨vol, hvol, _, hready⟩
    have := hundecided vol (handle_get.mpr hvol)
    simp [hready] at this
  · intro u vol b hvol hjudge
    have hvol : u.datasets.lookup req.name = some vol := handle_get.mp hvol
    have hready : vol.status.phase = some .ready := by
      by_contra hnot
      simp only [hnot, and_false, if_false] at hjudge
      split_ifs at hjudge
      simp at hjudge
    simp [Alive, FindsDying, hvol, hready]
  · intro u vol err hvol hjudge
    have hvol : u.datasets.lookup req.name = some vol := handle_get.mp hvol
    have hnot : vol.status.phase ≠ some .ready := by
      intro hready
      simp [hready] at hjudge
    simp [FindsDying, hvol, hnot]

theorem createSnapshot_decided (req : CreateSnapshotRequest) {rounds : Nat} {s t : CreateWorld}
    {l : List (CreateCall × CreateWorld)} {o : Option (Except Status SnapshotMessage)}
    (hr : CreateRuns (createSnapshot req rounds) s l o t) :
    ((∃ r, o = some (.ok r)) →
      DecidedIn (.pollSnapshot req.name) (fun u => Alive u.snapshots req.name) l) ↔
      ∀ x ∈ l, ¬ FindsDying x := by
  have hsplit : createSnapshot req rounds =
      ((desiredSnapshot req >>= fun d => ensureSnapshot req.name d rounds) >>= fun _ =>
      waitSnapshotReady req.name rounds >>= fun snap => return snapshotMessage snap) := by
    simp only [createSnapshot, LawfulMonad.bind_assoc]
  rw [hsplit] at hr
  refine decided_iff ?_ ?_ ?_ ?_ ?_ hr
  · rintro r ⟨msg, rfl⟩
    exact ⟨_, rfl⟩
  · refine Proc.bind_calls ?_ fun d => ensureSnapshot_noPoll _ _ _
    refine Proc.bind_calls (refuseIf_noPoll _ _) fun _ => ?_
    refine Proc.bind_calls (refuseIf_noPoll _ _) fun _ => ?_
    refine Proc.bind_calls (getSource_noPoll _) fun _ => ?_
    exact Proc.bind_calls newUUID_noPoll fun _ => by simp
  · rintro ⟨e, u⟩ ⟨rfl, hundecided⟩ ⟨snap, hsnap, _, hready, huse⟩
    have := hundecided snap (handle_get.mpr hsnap)
    simp [hready, huse] at this
  · intro u snap b hsnap hjudge
    have hsnap : u.snapshots.lookup req.name = some snap := handle_get.mp hsnap
    have hready : snap.status.phase = some .ready ∧ snap.status.readyToUse = true := by
      by_contra hnot
      simp only [hnot, if_false] at hjudge
      split_ifs at hjudge
      simp at hjudge
    simp [Alive, FindsDying, hsnap, hready]
  · intro u snap err hsnap hjudge
    have hsnap : u.snapshots.lookup req.name = some snap := handle_get.mp hsnap
    have hnot : ¬ (snap.status.phase = some .ready ∧ snap.status.readyToUse = true) := by
      intro hready
      simp [hready] at hjudge
    simpa [FindsDying, hsnap] using fun _ h => by simpa [h] using hnot

theorem createVolumeGroupSnapshot_decided (req : CreateGroupRequest) {rounds : Nat}
    {s t : CreateWorld}
    {l : List (CreateCall × CreateWorld)} {r : GroupMessage}
    (hr : CreateRuns (createVolumeGroupSnapshot req rounds) s l (some (.ok r)) t) :
    DecidedIn (.pollGroup req.name) (fun u => Alive u.groups req.name) l := by
  have hsplit : createVolumeGroupSnapshot req rounds =
      ((refuseIf (req.name = "") ⟨.invalidArgument, "group snapshot name is required"⟩
        >>= fun _ => do
        refuseIf (req.sourceVolumeIDs = []) ⟨.invalidArgument, "source_volume_ids is required"⟩
        check (checkSourceIDs [] req.sourceVolumeIDs)
        ensureGroup req.name req.sourceVolumeIDs rounds) >>= fun _ =>
      waitGroupReady req.name rounds >>= fun grp => groupMessage grp) := by
    simp only [createVolumeGroupSnapshot, LawfulMonad.bind_assoc]
  rw [hsplit] at hr
  have hruns := loop_runs ?_ ?_ (fun _ grp => groupMessage_noPoll grp) hr
  · obtain ⟨l₁, u, l₂, grp, r', rfl, hgrp, hjudge, _, hl₂, hend⟩ | ⟨ho, _⟩ := hruns
    · refine ⟨l₁, u, l₂, rfl, fun c hc heq => ?_, grp, handle_get.mp hgrp, ?_⟩
      · have := hl₂ c hc
        rw [heq] at this
        exact this
      · -- a group that is being deleted decides against
        by_contra hdying
        simp only [Bool.not_eq_false] at hdying
        simp only [hdying, if_true, Option.some_inj] at hjudge
        obtain ⟨_, _, _, hok, _⟩ | ⟨_, _, hnot⟩ := hend
        · rw [hok] at hjudge
          cases hjudge
        · exact hnot r rfl
    · exact absurd rfl (ho r)
  · rintro r ⟨msg, rfl⟩
    exact ⟨_, rfl⟩
  · refine Proc.bind_calls (refuseIf_noPoll _ _) fun _ => ?_
    refine Proc.bind_calls (refuseIf_noPoll _ _) fun _ => ?_
    refine Proc.bind_calls (check_noPoll _) fun _ => ensureGroup_noPoll _ _ _

/-- A create call that succeeds returns an object that was alive when success was decided, for
volumes and snapshots just when no read of a wait loop finds one that is being deleted and ready,
for groups always. -/
theorem created_alive (s : CreateWorld) :
    (∀ (c : ControllerServer) (req : CreateVolumeRequest) rounds l o t,
      CreateRuns (c.createVolume req rounds) s l o t →
      (((∃ r, o = some (.ok r)) →
        DecidedIn (.pollDataset req.name) (fun u => Alive u.datasets req.name) l) ↔
        ∀ x ∈ l, ¬ FindsDying x)) ∧
    (∀ (req : CreateSnapshotRequest) rounds l o t, CreateRuns (createSnapshot req rounds) s l o t →
      (((∃ r, o = some (.ok r)) →
        DecidedIn (.pollSnapshot req.name) (fun u => Alive u.snapshots req.name) l) ↔
        ∀ x ∈ l, ¬ FindsDying x)) ∧
    (∀ (req : CreateGroupRequest) rounds l o t,
      CreateRuns (createVolumeGroupSnapshot req rounds) s l o t →
      (∃ r, o = some (.ok r)) →
        DecidedIn (.pollGroup req.name) (fun u => Alive u.groups req.name) l) := by
  refine ⟨fun c req rounds l o t hr => createVolume_decided c req hr,
    fun req rounds l o t hr => createSnapshot_decided req hr, ?_⟩
  rintro req rounds l o t hr ⟨r, rfl⟩
  exact createVolumeGroupSnapshot_decided req hr

/-! ## A retried request -/

/-- A volume that is ready, and being deleted or not. -/
def readyVolume (terminating : Bool) : CreateWorld where
  datasets := .ofList [("pvc-1", {
    metadata :=
      { name := "pvc-1", uid := 1, resourceVersion := 3, terminating, finalizers := ["zfsdataset"] }
    spec := { poolGUID := "1", dataset := "csi-vol-a" }
    status := { phase := some .ready, path := "/tank/csi-vol-a", observedGeneration := 1 } })]
  snapshots := .empty
  groups := .empty
  configMaps := FinMap.empty
  claims := FinMap.empty
  clock := 100
  uuids _ := "b"
  used := 0

def plainServer : ControllerServer where
  unmarshal _ := .ok FinMap.empty

def retried : CreateVolumeRequest where
  name := "pvc-1"
  capabilities := [{}]
  parameters := FinMap.ofList [("poolGUID", "1"), ("protocol", "nfs")]

/-- The calls of the request when nothing else happens. -/
def retriedCalls (terminating : Bool) : List (CreateCall × CreateWorld) :=
  (plainServer.createVolume retried 1).run.trace CreateWorld.handle (readyVolume terminating)

theorem retried_runs (terminating : Bool) : ∃ t,
    CreateRuns (plainServer.createVolume retried 1) (readyVolume terminating)
      (retriedCalls terminating)
      (some (.ok ⟨"pvc-1", 0, none⟩)) t := by
  have hresult : ((plainServer.createVolume retried 1).run.exec CreateWorld.handle
      (readyVolume terminating)).1 = .ok ⟨"pvc-1", 0, none⟩ := by
    cases terminating <;> decide +kernel
  rw [← hresult]
  exact ⟨_, Runs.exec (fun _ _ => trivial) _ _⟩

/-- The retry of a request finds its volume ready. -/
theorem created_alive_retried :
    DecidedIn (.pollDataset "pvc-1") (fun u => Alive u.datasets "pvc-1") (retriedCalls false) := by
  obtain ⟨t, hruns⟩ := retried_runs false
  have hfree : ∀ x ∈ retriedCalls false, ¬ FindsDying x := by decide +kernel
  exact ((created_alive _).1 plainServer retried 1 _ _ _ hruns).mpr hfree ⟨_, rfl⟩

/-- The retry succeeds although the volume is being deleted. -/
theorem created_dying : ¬ ∀ (c : ControllerServer) (req : CreateVolumeRequest) rounds s l r t,
    CreateRuns (c.createVolume req rounds) s l (some (.ok r)) t →
    DecidedIn (.pollDataset req.name) (fun u => Alive u.datasets req.name) l := by
  intro hclaim
  obtain ⟨t, hruns⟩ := retried_runs true
  have hdying : ¬ ∀ x ∈ retriedCalls true, ¬ FindsDying x := by decide +kernel
  have hdecided := createVolume_decided plainServer retried hruns
  have hsucceeds := hclaim plainServer retried 1 _ _ _ _ hruns
  exact hdying (hdecided.mp fun _ => hsucceeds)

end SimpleZfsCsi.Provision
