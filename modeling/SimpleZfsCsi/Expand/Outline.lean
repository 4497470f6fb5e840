import SimpleZfsCsi.Expand.Growth

/-!
# Requests beside the agent's passes

A request relies on the volume growing only, and leaves the pool and the status alone. A pass
relies on the latter, so that what it sets and what it reports are about the spec it has read.
-/

namespace SimpleZfsCsi.Expand

open Library Api Agent Memzfs Provision Csi Program Concurrent Text

variable {id full : String} {spec₀ : ZfsDatasetSpec} {s t : Sizing}

/-! ## Reading -/

section Reading

variable {rely guar : AgentCall → Sizing → Sizing → Prop} {α ε : Type}
    {Q : Except ε α → Sizing → Prop}

/-- The rule for a call that only reads and whose error the program looks at. -/
theorem outcome_read_wp (hrely : ∀ e s t, rely e s t → Inv id full spec₀ t)
    (hguar : ∀ e s, Inv id full spec₀ s → guar e s s)
    {e : AgentCall} (he : e.Reads) {f : Except Err e.Val → Proc AgentCall AgentCall.Ret ε α}
    (hf : ∀ t, rely e s t →
      (f (World.handle e t.world).1).run.wp (handle id) AgentCall.fails rely guar Q t)
    (hfail : ∀ t msg, rely e s t →
      (f (.error (.other msg))).run.wp (handle id) AgentCall.fails rely guar Q t) :
    ((ask e).outcome >>= f).run.wp (handle id) AgentCall.fails rely guar Q s := by
  refine Proc.outcome_ask_wp fun t ht => ?_
  rw [(hrely e s t ht).handle_reads he]
  refine ⟨hguar e t (hrely e s t ht), hf t ht, ?_⟩
  rintro r ⟨msg, rfl⟩
  exact hfail t msg ht

/-- The rule for a call that only reads and whose error the program returns. -/
theorem read_wp {Q : Except Err α → Sizing → Prop}
    (hrely : ∀ e s t, rely e s t → Inv id full spec₀ t)
    (hguar : ∀ e s, Inv id full spec₀ s → guar e s s) {e : AgentCall} (he : e.Reads)
    {f : e.Val → AgentProc α}
    (hf : ∀ t a, rely e s t → (World.handle e t.world).1 = .ok a →
      (f a).run.wp (handle id) AgentCall.fails rely guar Q t)
    (herror : ∀ t err, rely e s t → Q (.error err) t) :
    (ask e >>= f).run.wp (handle id) AgentCall.fails rely guar Q s := by
  refine Proc.ask_wp fun t ht => ?_
  rw [(hrely e s t ht).handle_reads he]
  refine ⟨hguar e t (hrely e s t ht), fun a ha => hf t a ht ha, fun err _ => herror t err ht, ?_⟩
  rintro r ⟨msg, rfl⟩
  exact herror t _ ht

/-- The rule for a call that the program ends with. -/
theorem ask_last_wp {e : AgentCall} {Q : Except Err e.Val → Sizing → Prop}
    (hf : ∀ t, rely e s t → guar e t (handle id e t).2 ∧ Q (handle id e t).1 (handle id e t).2 ∧
      ∀ msg, Q (.error (.other msg)) t) :
    (ask e).run.wp (handle id) AgentCall.fails rely guar Q s := by
  intro t ht
  obtain ⟨hguar, hanswer, hfail⟩ := hf t ht
  refine ⟨hguar, ?_, ?_⟩
  · cases hr : (handle id e t).1 <;> rw [hr] at hanswer <;> exact hanswer
  · rintro r ⟨msg, rfl⟩
    exact hfail msg

end Reading

/-! ## A request -/

/-- What a request relies on, and what its calls guarantee. -/
def requestRely (id full : String) (spec₀ : ZfsDatasetSpec) (_ : AgentCall) (s t : Sizing) : Prop :=
  Inv id full spec₀ t ∧ Grows id full s t

def requestGuar (id full : String) (spec₀ : ZfsDatasetSpec) (_ : AgentCall) (s t : Sizing) : Prop :=
  Inv id full spec₀ t ∧ Leaves id full s t

section Request

/-- The weakest precondition of a part of a request. -/
abbrev requestWp {α : Type} (id full : String) (spec₀ : ZfsDatasetSpec)
    (p : Program AgentCall AgentCall.Ret α)
    (Q : α → Sizing → Prop) (s : Sizing) : Prop :=
  p.wp (handle id) AgentCall.fails (requestRely id full spec₀) (requestGuar id full spec₀) Q s

theorem requestRely_inv (e : AgentCall) (s t : Sizing) (h : requestRely id full spec₀ e s t) :
    Inv id full spec₀ t := h.1

theorem requestGuar_refl (e : AgentCall) (s : Sizing) (h : Inv id full spec₀ s) :
    requestGuar id full spec₀ e s s :=
  ⟨h, Leaves.refl s⟩

/-- The spec asks for `required` at the generation `g`. -/
def Requested (id : String) (required : Int) (g : Nat) (s : Sizing) : Prop :=
  ∃ o, s.world.datasets.lookup id = some o ∧ g ≤ o.metadata.generation ∧ required ≤ s.sizes g

theorem Requested.grows {required : Int} {g : Nat} (h : Requested id required g s)
    (hst : Grows id full s t) :
    Requested id required g t := by
  obtain ⟨o, ho, hg, hsize⟩ := h
  obtain ⟨o', ho', -, hgen, -⟩ := hst.object o ho
  refine ⟨o', ho', hg.trans hgen, ?_⟩
  rw [hst.sizes o ho g hg]
  exact hsize

theorem get_of_found {o : ZfsDataset} (h : s.world.datasets.lookup id = some o) :
    (World.handle (.getDataset id) s.world).1 = .ok o := by
  simp [World.handle, Store.get, h]

/-- The update of a request finds the copy that it was computed from, or conflicts. -/
theorem update_copy {o c : ZfsDataset} {D : Dataset} (h : Holds id full spec₀ s o D)
    (hname : c.name = id)
    (hne : o.metadata.resourceVersion ≠ c.metadata.resourceVersion) :
    handle id (.updateDataset c) s = (.error (.conflict c.name), s) := by
  have hupdate : s.world.datasets.update c = (.error (.conflict c.name), s.world.datasets) := by
    rw [Store.update, hname, h.found]
    simp [hne]
  simp only [handle, World.handle, hupdate]
  rw [note_eq (w := s.world) h.found h.size]

variable {required : Int}

/-- One attempt raises the size to what is required, unless it is that already. -/
theorem raiseSize_wp (hpos : 0 < required) (hlt : required < 2 ^ 63) (hfits : Fits spec₀ required)
    (hsized : spec₀.type = .volume → spec₀.volume.isSome = true) (s : Sizing) :
    requestWp id full spec₀ (raiseSize id required).run
      (fun r t => ∀ g, r = .ok g → Requested id required g t) s := by
  refine read_wp requestRely_inv requestGuar_refl rfl (fun t cur ht hread => ?_) fun t err _ g
    hg => by cases hg
  obtain ⟨o, D, h⟩ := ht.1
  obtain rfl : o = cur := Except.ok.inj ((get_of_found h.found).symm.trans hread)
  cases hbump : bump required o.spec with
  | none =>
    intro g hg
    obtain rfl := Except.ok.inj hg
    have hvolume : o.spec.type = .volume → o.spec.volume.isSome = true := by
      rw [h.grown.type, h.grown.volume]
      exact hsized
    refine ⟨o, h.found, le_rfl, ?_⟩
    rw [h.size]
    exact bump_none hvolume hbump
  | some spec =>
    obtain ⟨hgrown, hsize, hless⟩ := bump_some h.grown hpos hlt hfits hbump
    refine Proc.ask_wp fun u hu => ?_
    obtain ⟨o', D', h'⟩ := hu.1
    obtain ⟨o'', ho'', hsame, -⟩ := hu.2.object o h.found
    obtain rfl : o' = o'' := Option.some.inj (h'.found.symm.trans ho'')
    by_cases hversion : o'.metadata.resourceVersion = o.metadata.resourceVersion
    · -- every write since would have left a newer version behind
      obtain rfl : o' = o := by
        rcases hsame with hsame | hnew
        · exact hsame
        · have := h.version
          omega
      obtain ⟨v, hhandle, hinv, hleaves, hfound, hnew⟩ := h'.raise hgrown hless
      rw [hhandle]
      refine ⟨⟨hinv, hleaves⟩, fun a _ => ?_, fun err herr => (by cases herr), ?_⟩
      · intro g hg
        obtain rfl := Except.ok.inj hg
        exact ⟨_, hfound, le_rfl, by rw [hnew, hsize]⟩
      · rintro r ⟨msg, rfl⟩ g hg
        cases hg
    · rw [update_copy (c := { o with spec }) h' h.name hversion]
      refine ⟨requestGuar_refl _ u hu.1, fun a ha => (by cases ha),
        fun err _ g hg => (by cases hg), ?_⟩
      rintro r ⟨msg, rfl⟩ g hg
      cases hg

/-- A volume that is found ready has the size that was asked for. -/
theorem judge_ok {g : Nat} {o v : ZfsDataset} (hreq : Requested id required g s)
    (hs : Inv id full spec₀ s)
    (hread : s.world.datasets.lookup id = some o) (h : judge id g o = some (.ok v)) :
    (required : WithTop Int) ≤ limit full s.world.mem := by
  obtain ⟨o', D, hold⟩ := hs
  obtain rfl : o' = o := Option.some.inj (hold.found.symm.trans hread)
  obtain ⟨o'', ho'', -, hsize⟩ := hreq
  unfold judge at h
  dsimp only at h
  split at h
  · rename_i hready
    rw [hold.limit_eq]
    have hrising := hold.rising g _ hready.1 hold.observed
    calc (required : WithTop Int) ≤ ((s.sizes g : Nat) : Int) := by exact_mod_cast hsize
      _ ≤ ((s.sizes o'.status.observedGeneration : Nat) : Int) := by exact_mod_cast hrising
      _ ≤ datasetLimit D := hold.ready hready.2
  · split at h
    · cases h
    · cases h

/-- A request waits until the size it asked for is in force. -/
theorem waitVolumeReady_wp {g : Nat} (rounds : Nat) (hreq : Requested id required g s) :
    requestWp id full spec₀ (waitVolumeReady id g rounds).run
      (fun r t => ∀ v, r = .ok v → (required : WithTop Int) ≤ limit full t.world.mem) s := by
  refine Proc.poll_wp (I := Requested id required g) ?_ (fun s t hreq ht => ?_)
    (fun err t v hv => by cases hv) hreq
  · rintro r ⟨msg, rfl⟩
    exact ⟨_, rfl⟩
  · have hreq := hreq.grows ht.2
    obtain ⟨o, D, h⟩ := ht.1
    rw [ht.1.handle_reads rfl, get_of_found h.found]
    refine ⟨requestGuar_refl _ t ht.1, hreq, ?_⟩
    rintro v r hv hjudge w rfl
    obtain rfl := Except.ok.inj hv
    exact judge_ok hreq ht.1 h.found hjudge

/-- The rule for calls whose error becomes a status. -/
theorem orStatus_wp {α β : Type} {p : AgentProc α} {onError : Err → Status} {f : α → ExpandProc β}
    {Q : Except Status β → Sizing → Prop}
    (hp : requestWp id full spec₀ p.run
      (fun r t => ∀ a, r = .ok a → requestWp id full spec₀ (f a).run Q t) s)
    (herror : ∀ e t, Q (.error e) t) :
    requestWp id full spec₀ (orStatus p onError >>= f).run Q s := by
  refine Proc.wp_bind (Proc.wp_outcome_bind (wp_mono ?_ hp))
  intro r t hr
  cases r with
  | ok a => exact hr a rfl
  | error e => exact herror _ t

/-- A request that returns success leaves its size in force. -/
theorem controllerExpandVolume_wp {capacityRange : Option (Int × Int)}
    (hlt : capacityBytes capacityRange < 2 ^ 63)
    (hfits : Fits spec₀ (capacityBytes capacityRange)) (rounds : Nat) (s : Sizing) :
    requestWp id full spec₀ (controllerExpandVolume id capacityRange rounds).run
      (fun r t => ∀ a, r = .ok a → (a.capacityBytes : WithTop Int) ≤ limit full t.world.mem) s := by
  unfold controllerExpandVolume
  split
  · intro a ha
    cases ha
  dsimp only
  split
  · intro a ha
    cases ha
  rename_i _ hpos
  refine orStatus_wp ?_ fun e t a ha => by cases ha
  intro t ht
  obtain ⟨o, D, h⟩ := ht.1
  rw [ht.1.handle_reads rfl, get_of_found h.found]
  refine ⟨requestGuar_refl _ t ht.1, ?_, ?_⟩
  · intro vol hvol
    obtain rfl : o = vol := Except.ok.inj hvol
    cases hnode : nodeExpansion id o with
    | error status =>
      intro a ha
      cases ha
    | ok nodeExpansionRequired =>
      have hsized : spec₀.type = .volume → spec₀.volume.isSome = true := by
        intro htype
        rw [← h.grown.volume]
        simp only [nodeExpansion, h.grown.type.trans htype] at hnode
        split at hnode
        · cases hnode
        · exact Option.isSome_iff_ne_none.mpr ‹_›
      refine orStatus_wp
        (wp_mono ?_ (retryOnConflict_wp (fun s _ => raiseSize_wp (by omega) hlt hfits hsized s)
        (fun _ _ _ => trivial) defaultRetries trivial))
        fun e t a ha => by cases ha
      intro r u hr g hg
      refine Proc.wp_bind (wp_mono ?_ (waitVolumeReady_wp rounds (hr g hg)))
      intro v w hw
      cases v with
      | error e =>
        intro a ha
        cases ha
      | ok v =>
        intro a ha
        obtain rfl := Except.ok.inj ha
        exact hw v rfl
  · rintro r ⟨msg, rfl⟩ a ha
    cases ha

end Request

/-! ## A pass of the agent -/

/-- What a pass relies on, and what its calls guarantee. -/
def passRely (id full : String) (spec₀ : ZfsDatasetSpec) (_ : AgentCall) (s t : Sizing) : Prop :=
  Inv id full spec₀ t ∧ Leaves id full s t

def passGuar (id full : String) (spec₀ : ZfsDatasetSpec) (_ : AgentCall) (s t : Sizing) : Prop :=
  Inv id full spec₀ t ∧ Grows id full s t

section Pass

/-- The weakest precondition of a part of a pass. -/
abbrev passWp {α : Type} (id full : String) (spec₀ : ZfsDatasetSpec)
    (p : Program AgentCall AgentCall.Ret α)
    (Q : α → Sizing → Prop) (s : Sizing) : Prop :=
  p.wp (handle id) AgentCall.fails (passRely id full spec₀) (passGuar id full spec₀) Q s

theorem passRely_inv (e : AgentCall) (s t : Sizing) (h : passRely id full spec₀ e s t) :
    Inv id full spec₀ t := h.1

theorem passGuar_refl (e : AgentCall) (s : Sizing) (h : Inv id full spec₀ s) :
    passGuar id full spec₀ e s s :=
  ⟨h, Grows.refl s⟩

/-- The pass has read `vol`: the status is as it was, and the spec may since have been raised. -/
structure Seen (id full : String) (spec₀ : ZfsDatasetSpec) (vol : ZfsDataset)
    (s : Sizing) : Prop where
  inv : Inv id full spec₀ s
  name : vol.name = id
  alive : vol.metadata.terminating = false
  finalizer : vol.containsFinalizer zfsDatasetFinalizer = true
  provisioned : datasetProvisioned vol = true
  grown : Grown spec₀ vol.spec
  current : ∃ o, s.world.datasets.lookup id = some o ∧ o.status = vol.status ∧
    vol.metadata.generation ≤ o.metadata.generation ∧ sizeOf vol.spec ≤ sizeOf o.spec
  size : s.sizes vol.metadata.generation = sizeOf vol.spec
  quota : spec₀.type = .filesystem → limit full s.world.mem ≤ want vol.spec

variable {vol : ZfsDataset}

theorem Seen.of_holds {D : Dataset} (h : Holds id full spec₀ s vol D) :
    Seen id full spec₀ vol s where
  inv := ⟨vol, D, h⟩
  name := h.name
  alive := h.alive
  finalizer := h.finalizer
  provisioned := h.provisioned
  grown := h.grown
  current := ⟨vol, h.found, rfl, le_rfl, le_rfl⟩
  size := h.size
  quota htype := h.limit_eq ▸ h.quota htype

theorem Seen.rely {e : AgentCall} (h : Seen id full spec₀ vol s)
    (hst : passRely id full spec₀ e s t) :
    Seen id full spec₀ vol t := by
  obtain ⟨o, ho, hstatus, hgen, hsize⟩ := h.current
  obtain ⟨o', ho', -, hgen', hsize'⟩ := hst.2.object o ho
  refine { h with inv := hst.1, current := ?_, size := ?_, quota := ?_ }
  · exact ⟨o', ho', (hst.2.status o o' ho ho').trans hstatus, hgen.trans hgen', hsize.trans hsize'⟩
  · rw [hst.2.sizes o ho _ hgen]
    exact h.size
  · rw [hst.2.mem]
    exact h.quota

/-- The pass writes a status: it is ready only with the size that was read in force. -/
theorem setStatusAt_wp (h : Seen id full spec₀ vol s) {phase : DatasetPhase}
    (volPath reason message : String)
    (creation : Option Nat)
    (hready : phase = .ready → (((sizeOf vol.spec : Nat) : Int) : WithTop Int) ≤
      limit full s.world.mem) :
    passWp id full spec₀
      (ZfsDatasetReconciler.setStatusAt vol phase volPath reason message creation).run
      (fun _ _ => True) s := by
  have hprov : vol.status.provisionedAt.isSome = true := h.provisioned
  have hnow : ¬(phase = .ready ∧ vol.status.provisionedAt = none) := by
    rintro ⟨-, hnone⟩
    rw [hnone] at hprov
    cases hprov
  unfold ZfsDatasetReconciler.setStatusAt
  rw [if_neg hnow]
  intro t ht
  have hseen := h.rely ht
  obtain ⟨o, D, hold⟩ := ht.1
  obtain ⟨o', ho', hstatus, hgen, -⟩ := hseen.current
  obtain rfl : o = o' := Option.some.inj (hold.found.symm.trans ho')
  have hreport := hold.report { vol.status with
    phase := some phase
    path := volPath
    observedGeneration := vol.metadata.generation
    message
    creationTime := creation.or vol.status.creationTime
    provisionedAt := vol.status.provisionedAt
    conditions := setStatusCondition vol.status.conditions
      { type := "Ready", status := phase = .ready, reason, message
        observedGeneration := vol.metadata.generation } } hprov hgen ?_
  · rw [hstatus] at hreport
    obtain ⟨u, hhandle, hinv, hgrows⟩ := hreport
    dsimp only
    rw [h.name, hhandle]
    exact ⟨⟨hinv, hgrows⟩, trivial, fun r _ => trivial⟩
  · intro hphase
    show (((t.sizes vol.metadata.generation : Nat) : Int) : WithTop Int) ≤ _
    rw [hseen.size, ht.2.mem]
    exact hready (Option.some.inj hphase)

theorem setStatus_wp (h : Seen id full spec₀ vol s) {phase : DatasetPhase}
    (volPath reason message : String)
    (hphase : phase ≠ .ready) :
    passWp id full spec₀ (ZfsDatasetReconciler.setStatus vol phase volPath reason message).run
      (fun _ _ => True) s :=
  setStatusAt_wp h volPath reason message none fun hready => absurd hready hphase

/-- A status is written and the pass ends. -/
theorem setStatus_bind_wp (h : Seen id full spec₀ vol s) {phase : DatasetPhase}
    (volPath reason message : String)
    (hphase : phase ≠ .ready) (result : Result) :
    passWp id full spec₀ (do
      ZfsDatasetReconciler.setStatus vol phase volPath reason message
      return result : AgentProc Result).run (fun _ _ => True) s := by
  refine Proc.wp_bind (wp_mono ?_ (setStatus_wp h volPath reason message hphase))
  rintro (e | a) t _ <;> trivial

/-! ### Sizes -/

/-- The text of the quota of a filesystem. -/
def quotaText (vol : ZfsDataset) : String := ((quotaOf vol).map toString).getD "none"

theorem quotaText_eq (htype : vol.spec.type = .filesystem) :
    quotaText vol = if sizeOf vol.spec = 0 then "none" else toString (sizeOf vol.spec) := by
  unfold quotaText quotaOf sizeOf
  rw [htype]
  cases vol.spec.filesystem.bind (·.quota) with
  | none => rfl
  | some q => by_cases hq : q = 0 <;> simp [hq, Option.filter_some]

theorem quotaLimit_quotaText (htype : vol.spec.type = .filesystem)
    (hlt : sizeOf vol.spec < 2 ^ 63) :
    quotaLimit (quotaText vol) = want vol.spec := by
  rw [quotaText_eq htype, want]
  split_ifs with hzero
  · rfl
  · exact quotaLimit_toString hzero hlt

theorem quotaLimit_of_refquotaEqual {text : String} (htype : vol.spec.type = .filesystem)
    (hlt : sizeOf vol.spec < 2 ^ 63)
    (hequal : refquotaEqual text (quotaText vol) = true) : quotaLimit text = want vol.spec := by
  rw [quotaText_eq htype] at hequal
  rw [want]
  split_ifs at hequal ⊢ with hzero
  · rw [refquotaEqual, decide_eq_true_eq] at hequal
    rw [quotaLimit, hequal]
    exact if_pos (by decide +kernel)
  · exact quotaLimit_of_equal hzero hlt hequal

theorem sizeOf_le_want (spec : ZfsDatasetSpec) : (((sizeOf spec : Nat) : Int) : WithTop Int) ≤
    want spec := by
  unfold want
  split_ifs
  · exact le_top
  · exact le_rfl

/-- The size that a spec asks for is in force. -/
def InForce (full : String) (spec : ZfsDatasetSpec) (s : Sizing) : Prop :=
  (((sizeOf spec : Nat) : Int) : WithTop Int) ≤ limit full s.world.mem

theorem InForce.rely {e : AgentCall} {spec : ZfsDatasetSpec} (h : InForce full spec s)
    (hst : passRely id full spec₀ e s t) :
    InForce full spec t := by
  unfold InForce
  rw [hst.2.mem]
  exact h

/-- After a change of the limit the pass has still read `vol`. -/
theorem Seen.resize {o : ZfsDataset} {D : Dataset} (h : Seen id full spec₀ vol s)
    (hold : Holds id full spec₀ t o D)
    (hstore : t.world.datasets = s.world.datasets) (hsizes : t.sizes = s.sizes)
    (hquota : spec₀.type = .filesystem → datasetLimit D ≤ want vol.spec) :
    Seen id full spec₀ vol t := by
  refine { h with inv := ⟨o, D, hold⟩, current := ?_, size := ?_, quota := ?_ }
  · rw [hstore]
    exact h.current
  · rw [hsizes]
    exact h.size
  · rw [hold.limit_eq]
    exact hquota

theorem Inv.limit_refquota (hs : Inv id full spec₀ s) (htype : spec₀.type = .filesystem)
    {current : String}
    (hread : s.world.mem.get full "refquota" = .ok current) : limit full s.world.mem =
    quotaLimit current := by
  obtain ⟨o, D, h⟩ := hs
  have hkind : D.kind = .filesystem := h.kind.trans (by rw [htype]; rfl)
  rw [get_of_lookup h.plain h.dataset, getDataset_refquota] at hread
  rw [h.limit_eq, datasetLimit_filesystem hkind]
  exact congrArg quotaLimit (Except.ok.inj hread)

/-- What the part of a pass that sees to the size establishes. -/
def Sized (id full : String) (spec₀ : ZfsDatasetSpec) (vol : ZfsDataset) (r : Except Err Unit)
    (s : Sizing) : Prop :=
  Seen id full spec₀ vol s ∧ (r = .ok () → InForce full vol.spec s)

theorem setQuota_wp (htype : spec₀.type = .filesystem) (h : Seen id full spec₀ vol s) :
    passWp id full spec₀ (ask (.setProperty full "refquota" (quotaText vol))).run
      (Sized id full spec₀ vol) s := by
  have hvtype : vol.spec.type = .filesystem := h.grown.type.trans htype
  refine ask_last_wp fun t ht => ?_
  have hseen := h.rely ht
  obtain ⟨o, D, hold⟩ := ht.1
  obtain ⟨o', ho', -, -, hle⟩ := hseen.current
  obtain rfl : o = o' := Option.some.inj (hold.found.symm.trans ho')
  have hkind : D.kind = .filesystem := hold.kind.trans (by rw [htype]; rfl)
  have hlimit : datasetLimit { D with props := D.props.insert "refquota" (quotaText vol) } =
    want vol.spec := by
    rw [datasetLimit_filesystem
      (D := { D with props := D.props.insert "refquota" (quotaText vol) }) hkind]
    simpa using quotaLimit_quotaText hvtype h.grown.int64
  obtain ⟨u, hhandle, hheld, hgrows, hstore, hsizes⟩ := hold.resize
    (setProperty_refquota hold.plain hold.dataset (quotaText vol)) rfl
    (by rw [hlimit, ← hold.limit_eq]; exact hseen.quota htype)
    (by rw [hlimit]; exact fun _ => hold.want_le h.grown htype hle)
    (by rw [htype]; intro h; cases h)
  have hset : Seen id full spec₀ vol u := hseen.resize hheld hstore hsizes fun _ => hlimit.le
  rw [hhandle]
  refine ⟨⟨hset.inv, hgrows⟩, ⟨hset, fun _ => ?_⟩, fun msg => ⟨hseen, fun hr => by cases hr⟩⟩
  unfold InForce
  rw [hheld.limit_eq, hlimit]
  exact sizeOf_le_want vol.spec

/-- The quota of a filesystem is set to what was read. -/
theorem ensureQuota_wp (htype : spec₀.type = .filesystem) (h : Seen id full spec₀ vol s) :
    passWp id full spec₀ (ZfsDatasetReconciler.ensureSize vol full).run
      (Sized id full spec₀ vol) s := by
  have hvtype : vol.spec.type = .filesystem := h.grown.type.trans htype
  have hprogram : ZfsDatasetReconciler.ensureSize vol full =
      ask (.get full "refquota") >>= fun current =>
      if refquotaEqual current (quotaText vol) then pure () else
        ask (.setProperty full "refquota" (quotaText vol)) := by
    unfold ZfsDatasetReconciler.ensureSize
    rw [hvtype]
    rfl
  rw [hprogram]
  refine read_wp passRely_inv passGuar_refl rfl (fun t current ht hread => ?_)
    fun t err ht => ⟨h.rely ht, fun hr => by cases hr⟩
  split
  · rename_i hequal
    refine ⟨h.rely ht, fun _ => ?_⟩
    have hlimit := ht.1.limit_refquota htype hread
    rw [quotaLimit_of_refquotaEqual hvtype h.grown.int64 hequal] at hlimit
    unfold InForce
    rw [hlimit]
    exact sizeOf_le_want vol.spec
  · exact setQuota_wp htype (h.rely ht)

/-- The size of a zvol, as the agent reads it. -/
theorem Inv.limit_volsize (hs : Inv id full spec₀ s) (htype : spec₀.type = .volume)
    {current : String}
    (hread : s.world.mem.get full "volsize" = .ok current) :
    limit full s.world.mem = ((parseInt (trimSpace current)).1 : Int) ∧
      (sizeOf spec₀ : Int) ≤ (parseInt (trimSpace current)).1 := by
  obtain ⟨o, D, h⟩ := hs
  have hkind : D.kind = .volume := h.kind.trans (by rw [htype]; rfl)
  obtain ⟨hleast, hlt⟩ := h.volsize htype
  have hparse := parseInt_int (n := D.volsize) (by omega) hlt
  rw [get_of_lookup h.plain h.dataset, getDataset_volsize _ hkind] at hread
  rw [← Except.ok.inj hread, trimSpace_int, hparse, h.limit_eq, datasetLimit_volume hkind]
  exact ⟨rfl, hleast⟩

/-- A zvol that is no smaller than what is desired is no smaller than what was read. -/
theorem Seen.inForce_volume (h : Seen id full spec₀ vol s) (htype : spec₀.type = .volume) {n : Int}
    (hlimit : limit full s.world.mem = (n : WithTop Int)) (hleast : (sizeOf spec₀ : Int) ≤ n)
    (hle : alignUp (sizeOf vol.spec) (blockOf vol.spec) ≤ n) : InForce full vol.spec s := by
  unfold InForce
  rw [hlimit]
  have hfits := h.grown.fits htype
  have hsize : (sizeOf vol.spec : Int) ≤ n := by omega
  exact_mod_cast hsize

theorem setVolsize_wp (htype : spec₀.type = .volume) (h : Seen id full spec₀ vol s)
    {n desired : Int}
    (hlimit : limit full s.world.mem = (n : WithTop Int)) (hleast : (sizeOf spec₀ : Int) ≤ n)
    (hless : n < desired)
    (hdesired : desired = alignUp (sizeOf vol.spec) (blockOf vol.spec)) :
    passWp id full spec₀ (ask (.setProperty full "volsize" (toString desired))).run
      (Sized id full spec₀ vol) s := by
  have hlt : desired < 2 ^ 63 := by
    have := h.grown.int64
    rw [hdesired]
    exact alignUp_lt (by omega)
  refine ask_last_wp fun t ht => ?_
  have hseen := h.rely ht
  obtain ⟨o, D, hold⟩ := ht.1
  have hkind : D.kind = .volume := hold.kind.trans (by rw [htype]; rfl)
  have hvolsize : datasetLimit D = (n : WithTop Int) := by
    rw [← hlimit, ← hold.limit_eq, ht.2.mem]
  have hnew : datasetLimit
      { D with volsize := desired, props := D.props.insert "volsize" (toString desired) } =
      (desired : WithTop Int) :=
        datasetLimit_volume (D := { D with volsize := desired, props := _ }) hkind
  obtain ⟨u, hhandle, hheld, hgrows, hstore, hsizes⟩ := hold.resize
    (setProperty_volsize hold.plain hold.dataset (parseInt_int (by omega) hlt)) rfl
    (by rw [hvolsize, hnew]; exact_mod_cast hless.le)
    (by rw [htype]; intro h; cases h)
    (fun _ => ⟨show (sizeOf spec₀ : Int) ≤ desired by omega, hlt⟩)
  have hset : Seen id full spec₀ vol u :=
    hseen.resize hheld hstore hsizes (by rw [htype]; intro h; cases h)
  rw [hhandle]
  refine ⟨⟨hset.inv, hgrows⟩, ⟨hset, fun _ => ?_⟩, fun msg => ⟨hseen, fun hr => by cases hr⟩⟩
  exact hset.inForce_volume htype (hheld.limit_eq.trans hnew) (by omega) hdesired.ge

/-- A zvol that is smaller than desired is grown. -/
theorem growZvol_wp (htype : spec₀.type = .volume) (h : Seen id full spec₀ vol s) {n desired : Int}
    (hlimit : limit full s.world.mem = (n : WithTop Int)) (hleast : (sizeOf spec₀ : Int) ≤ n)
    (hdesired : desired = alignUp (sizeOf vol.spec) (blockOf vol.spec)) :
    passWp id full spec₀ (if n < desired then ask (.setProperty full "volsize" (toString desired))
      else pure ()).run
      (Sized id full spec₀ vol) s := by
  split_ifs with hless
  · exact setVolsize_wp htype h hlimit hleast hless hdesired
  · exact ⟨h, fun _ => h.inForce_volume htype hlimit hleast (by omega)⟩

/-- A zvol is grown to what was read. -/
theorem ensureVolsize_wp (htype : spec₀.type = .volume) (h : Seen id full spec₀ vol s)
    {v : VolumeConfig}
    (hv : vol.spec.volume = some v) :
    passWp id full spec₀ (ZfsDatasetReconciler.ensureSize vol full).run
      (Sized id full spec₀ vol) s := by
  have hvtype : vol.spec.type = .volume := h.grown.type.trans htype
  have hdesired : alignUp v.size (volblockBytes v.volblocksize) =
      alignUp (sizeOf vol.spec) (blockOf vol.spec) := by
    simp [sizeOf, blockOf, hvtype, hv]
  generalize hsize : alignUp v.size (volblockBytes v.volblocksize) = desired at hdesired
  have hprogram : ZfsDatasetReconciler.ensureSize vol full =
      ask (.get full "volsize") >>= fun current =>
      if (parseInt (trimSpace current)).1 < desired then
        ask (.setProperty full "volsize" (toString desired))
      else pure () := by
    unfold ZfsDatasetReconciler.ensureSize
    rw [hvtype]
    dsimp only
    rw [hv]
    dsimp only
    rw [hsize]
  rw [hprogram]
  refine read_wp passRely_inv passGuar_refl rfl (fun t current ht hread => ?_)
    fun t err ht => ⟨h.rely ht, fun hr => by cases hr⟩
  have hlimit := ht.1.limit_volsize htype hread
  exact growZvol_wp htype (h.rely ht) hlimit.1 hlimit.2 hdesired

/-- A zvol without a size has no size to grow to. -/
theorem ensureNothing_wp (htype : spec₀.type = .volume) (h : Seen id full spec₀ vol s)
    (hv : vol.spec.volume = none) :
    passWp id full spec₀ (ZfsDatasetReconciler.ensureSize vol full).run
      (Sized id full spec₀ vol) s := by
  have hvtype : vol.spec.type = .volume := h.grown.type.trans htype
  have hprogram : ZfsDatasetReconciler.ensureSize vol full = (Pure.pure () : AgentProc Unit) := by
    unfold ZfsDatasetReconciler.ensureSize
    rw [hvtype]
    dsimp only
    rw [hv]
  rw [hprogram]
  refine ⟨h, fun _ => ?_⟩
  obtain ⟨o, D, hold⟩ := h.inv
  have hkind : D.kind = .volume := hold.kind.trans (by rw [htype]; rfl)
  have hzero : sizeOf vol.spec = 0 := by simp [sizeOf, hvtype, hv]
  have hleast := (hold.volsize htype).1
  have hpos : (0 : Int) ≤ D.volsize := by omega
  unfold InForce
  rw [hzero, hold.limit_eq, datasetLimit_volume hkind]
  exact_mod_cast hpos

theorem ensureSize_wp (h : Seen id full spec₀ vol s) :
    passWp id full spec₀ (ZfsDatasetReconciler.ensureSize vol full).run
      (Sized id full spec₀ vol) s := by
  cases htype : spec₀.type with
  | filesystem => exact ensureQuota_wp htype h
  | volume =>
    cases hv : vol.spec.volume with
    | none => exact ensureNothing_wp htype h hv
    | some v => exact ensureVolsize_wp htype h hv

/-! ### The whole pass -/

variable (r : ZfsDatasetReconciler)

/-- What was read, and the size in force, outlast calls that only read. -/
theorem reads_wp {α : Type} {p : AgentProc α} (hp : p.run.Calls AgentCall.Reads)
    (h : Seen id full spec₀ vol s)
    (hforce : InForce full vol.spec s) :
    passWp id full spec₀ p.run (fun _ t => Seen id full spec₀ vol t ∧
      InForce full vol.spec t) s := by
  refine hp.wp (fun e s t _ hs ht => ⟨hs.1.rely ht, hs.2.rely ht⟩) (fun e s he hs => ?_) ⟨h, hforce⟩
  rw [hs.1.inv.handle_reads he]
  exact ⟨passGuar_refl e s hs.1.inv, hs⟩

theorem Inv.get_type (hs : Inv id full spec₀ s) :
    (World.handle (.get full "type") s.world).1 = .ok (kindOf spec₀.type).text := by
  obtain ⟨o, D, h⟩ := hs
  have hget : s.world.mem.get full "type" = .ok D.kind.text :=
    get_of_lookup h.plain h.dataset "type"
  rw [← h.kind]
  exact hget

theorem Inv.pooled (hs : Inv id full spec₀ s) (pool : ZfsPool) (full' : String)
    (hpool : s.world.pools.lookup (resourceName spec₀.poolGUID) = some pool)
    (hname : datasetName pool.status.poolName spec₀.dataset = .ok full') : full' = full := by
  obtain ⟨o, D, h⟩ := hs
  exact h.pool pool full' hpool hname

theorem settle_wp (h : Seen id full spec₀ vol s) (pool : ZfsPool) :
    passWp id full spec₀ (r.settle vol pool full).run (fun _ _ => True) s := by
  unfold ZfsDatasetReconciler.settle ZfsDatasetReconciler.ensureVolumeLabels
  rw [if_pos h.provisioned]
  refine Proc.wp_outcome_bind (wp_mono ?_ (ensureSize_wp h))
  rintro (err | ⟨⟩) t ⟨hseen, hforce⟩
  · exact setStatus_bind_wp hseen _ _ _ (by decide) {}
  · replace hforce := hforce rfl
    cases hpath : deriveVolumePath vol.spec.type pool.status.baseMountPath pool.status.poolName
      vol.spec.dataset with
    | error err => exact setStatus_bind_wp hseen _ _ _ (by decide) {}
    | ok volPath =>
      have hcalls : (if vol.status.creationTime = none then some <$> snapshotCreationTime full
          else (Pure.pure none : AgentProc (Option Nat))).run.Calls AgentCall.Reads := by
        split_ifs
        · exact Proc.map_calls (snapshotCreationTime_reads full)
        · simp
      refine Proc.wp_bind (wp_mono ?_ (reads_wp hcalls hseen hforce))
      rintro (err | creation) u ⟨hseen, hforce⟩
      · trivial
      · refine Proc.wp_bind (wp_mono ?_ (setStatusAt_wp hseen _ _ _ _ fun _ => hforce))
        rintro (err | a) v _ <;> trivial

/-- The pass has read the pool of the volume. -/
def Pooled (full : String) (spec₀ : ZfsDatasetSpec) (found : Option ZfsPool) : Prop :=
  ∀ pool full', found = some pool → datasetName pool.status.poolName spec₀.dataset =
    .ok full' → full' = full

theorem ensure_wp (h : Seen id full spec₀ vol s) {pool : ZfsPool}
    (hpool : Pooled full spec₀ (some pool)) :
    passWp id full spec₀ (r.ensure vol pool).run (fun _ _ => True) s := by
  unfold ZfsDatasetReconciler.ensure
  cases hname : datasetName pool.status.poolName vol.spec.dataset with
  | error err => exact setStatus_bind_wp h _ _ _ (by decide) {}
  | ok full' =>
    rw [h.grown.dataset] at hname
    obtain rfl : full' = full := hpool pool full' rfl hname
    refine outcome_read_wp passRely_inv passGuar_refl rfl (fun t ht => ?_) fun t msg ht => ?_
    · rw [ht.1.get_type]
      exact settle_wp r (h.rely ht) pool
    · exact setStatus_bind_wp (h.rely ht) _ _ _ (by decide) {}

/-- A pass reads the pool, and goes on with what it has read of the volume. -/
theorem findPool_wp (h : Seen id full spec₀ vol s) :
    passWp id full spec₀ (findPool vol.spec.poolGUID).run
      (fun r t => Seen id full spec₀ vol t ∧ ∀ found, r = .ok found →
        Pooled full spec₀ found) s := by
  refine outcome_read_wp passRely_inv passGuar_refl rfl (fun t ht => ?_) fun t msg ht => ⟨h.rely ht,
    fun _ hr => by cases hr⟩
  have hpool := ht.1.pooled
  rw [← h.grown.poolGUID] at hpool
  cases hget : t.world.pools.lookup (resourceName vol.spec.poolGUID) with
  | none =>
    have hanswer : (World.handle (.getPool (resourceName vol.spec.poolGUID)) t.world).1 =
        .error (.notFound (resourceName vol.spec.poolGUID)) := by
      simp [World.handle, Store.get, hget]
    rw [hanswer]
    refine ⟨h.rely ht, fun found hfound pool full' hsome => ?_⟩
    cases hfound
    cases hsome
  | some pool =>
    have hanswer : (World.handle (.getPool (resourceName vol.spec.poolGUID)) t.world).1 =
        .ok pool := by
      simp [World.handle, Store.get, hget]
    rw [hanswer]
    refine ⟨h.rely ht, fun found hfound => ?_⟩
    cases hfound
    rintro pool' full' hsome
    cases hsome
    exact hpool pool full' hget

/-- A pass keeps the invariant, and what it does only grows the volume. -/
theorem reconcile_wp (s : Sizing) :
    passWp id full spec₀ (r.reconcile id).run (fun _ _ => True) s := by
  refine outcome_read_wp passRely_inv passGuar_refl rfl (fun t ht => ?_) fun t msg ht => trivial
  obtain ⟨vol, D, hold⟩ := ht.1
  rw [get_of_found hold.found]
  have hseen := Seen.of_holds hold
  refine Proc.wp_bind (wp_mono ?_ (findPool_wp hseen))
  rintro (err | found) u ⟨hseen, hpool⟩
  · trivial
  replace hpool := hpool found rfl
  dsimp only
  rw [if_neg (by simp [hseen.alive])]
  cases found with
  | none => trivial
  | some pool =>
    dsimp only
    split
    · rw [if_pos hseen.finalizer]
      exact ensure_wp r hseen hpool
    · trivial

end Pass

end SimpleZfsCsi.Expand
