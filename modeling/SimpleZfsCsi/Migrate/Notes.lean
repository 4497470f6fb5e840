import SimpleZfsCsi.Migrate.Audit

/-!
# What an audit found

An audit without blockers says a lot about the cluster: no note is a blocker, every claim was
accepted, and the plan has every action that was noted. Conversely, an audit whose notes are
harmless and whose claims agree is clean.
-/

namespace SimpleZfsCsi.Migrate

open Library Api Agent

/-! ## Taking notes -/

def Audit.blockers (a : Audit) : List Finding := a.plan.blockers

/-- The note reports a blocker. -/
def Note.Blocks : Note → Prop
  | .finding f => f.severity = .blocker
  | _ => False

def Note.action : Note → Option Action
  | .act a => some a
  | _ => none

/-- The note neither blocks nor acts. -/
def Note.Harmless (n : Note) : Prop := ¬ n.Blocks ∧ n.action = none

/-- What a claim says, without the reason. -/
def Claim.labels (c : Claim) : String × String := (c.role, c.owner)

section Take

variable {a : Audit} {notes : List Note}

theorem actions_take (a : Audit) (n : Note) : (a.take n).plan.actions = a.plan.actions ++
    n.action.toList := by
  cases n with
  | claim name c =>
    unfold Audit.take Audit.add
    simp only [Note.action, Option.toList_none, List.append_nil]
    split
    · rfl
    · split_ifs <;> rfl
  | _ => simp [Audit.take, Audit.finding, Note.action]

theorem actions_foldl (notes : List Note) (a : Audit) :
    (notes.foldl Audit.take a).plan.actions = a.plan.actions ++ notes.filterMap Note.action := by
  induction notes generalizing a with
  | nil => simp
  | cons n notes ih =>
    rw [List.foldl_cons, ih, actions_take, List.append_assoc, List.filterMap_cons]
    cases n.action <;> rfl

theorem blockers_finding (a : Audit) (f : Finding) :
    (a.finding f).blockers = a.blockers ++ if f.severity = .blocker then [f] else [] := by
  unfold Audit.blockers Plan.blockers Audit.finding
  simp only [List.filter_append, List.filter_cons, List.filter_nil, decide_eq_true_eq]

/-- A claim that is accepted, or a blocker. -/
theorem add_cases (a : Audit) (name : String) (c : Claim) :
    ((a.add name c).blockers ≠ [] ∧ ∃ prev, a.claims.lookup name = some prev ∧
      prev.labels ≠ c.labels) ∨
      ((∀ prev, a.claims.lookup name = some prev → prev.labels = c.labels) ∧
        a.add name c = { a with claims := a.claims.insert name c }) := by
  unfold Audit.add
  cases hprev : a.claims.lookup name with
  | none => exact .inr ⟨by simp, rfl⟩
  | some prev =>
    simp only
    split_ifs with hdiffer
    · refine .inl ⟨by simp [blockers_finding], prev, rfl, fun hsame => ?_⟩
      obtain ⟨hrole, howner⟩ := Prod.mk.inj hsame
      rcases hdiffer with hne | hne
      · exact hne hrole
      · exact hne howner
    · rw [not_or, not_not, not_not] at hdiffer
      refine .inr ⟨fun p hp => ?_, rfl⟩
      rw [← Option.some_inj.mp hp]
      exact Prod.ext hdiffer.1 hdiffer.2

/-- What a note that is taken without a blocker leaves. -/
theorem take_quiet {n : Note} (h : (a.take n).blockers = []) :
    a.blockers = [] ∧ ¬ n.Blocks ∧
      (∀ name c, n = .claim name c → (a.take n).claims.lookup name = some c) ∧
      ∀ name c, a.claims.lookup name = some c → ∃ c', (a.take n).claims.lookup name = some c' ∧
        c'.labels = c.labels := by
  cases n with
  | finding f =>
    have hf : (a.finding f).blockers = [] := h
    rw [blockers_finding, List.append_eq_nil_iff] at hf
    refine ⟨hf.1, fun hblocks => ?_, nofun, fun name c hc => ⟨c, hc, rfl⟩⟩
    have hblocker : f.severity = .blocker := hblocks
    rw [if_pos hblocker] at hf
    cases hf.2
  | claim name c =>
    rcases add_cases a name c with ⟨hne, _⟩ | ⟨hsame, heq⟩
    · exact absurd h hne
    · have htake : a.take (.claim name c) = { a with claims := a.claims.insert name c } := heq
      rw [htake] at h ⊢
      refine ⟨h, id, fun m d hmd => ?_, fun m d hd => ?_⟩
      · obtain ⟨rfl, rfl⟩ := Note.claim.inj hmd
        simp
      · by_cases hm : m = name
        · subst hm
          exact ⟨c, by simp, (hsame d hd).symm⟩
        · exact ⟨d, by simpa [hm] using hd, rfl⟩
  | act x => exact ⟨h, id, nofun, fun name c hc => ⟨c, hc, rfl⟩⟩
  | labelled => exact ⟨h, id, nofun, fun name c hc => ⟨c, hc, rfl⟩⟩
  | marked => exact ⟨h, id, nofun, fun name c hc => ⟨c, hc, rfl⟩⟩

/-- What notes that are taken without a blocker leave. -/
theorem foldl_quiet (h : (notes.foldl Audit.take a).blockers = []) :
    a.blockers = [] ∧ (∀ n ∈ notes, ¬ n.Blocks) ∧
      (∀ name c, Note.claim name c ∈ notes →
        ∃ c', (notes.foldl Audit.take a).claims.lookup name = some c' ∧ c'.labels = c.labels) ∧
      ∀ name c, a.claims.lookup name = some c →
        ∃ c', (notes.foldl Audit.take a).claims.lookup name = some c' ∧ c'.labels = c.labels := by
  induction notes generalizing a with
  | nil => exact ⟨h, by simp, by simp, fun name c hc => ⟨c, hc, rfl⟩⟩
  | cons n notes ih =>
    obtain ⟨hfirst, hrest, hclaims, hkept⟩ := ih h
    obtain ⟨hquiet, hn, hclaim, hkeep⟩ := take_quiet hfirst
    refine ⟨hquiet, ?_, fun name c hc => ?_, fun name c hc => ?_⟩
    · intro m hm
      rcases List.mem_cons.mp hm with rfl | hm
      · exact hn
      · exact hrest m hm
    · rcases List.mem_cons.mp hc with heq | hc
      · exact hkept name c (hclaim name c heq.symm)
      · exact hclaims name c hc
    · obtain ⟨c', hc', hlabels⟩ := hkeep name c hc
      obtain ⟨c'', hc'', hlabels'⟩ := hkept name c' hc'
      exact ⟨c'', hc'', hlabels'.trans hlabels⟩

/-- Every claim was made by a note. -/
theorem claims_foldl {name : String} {c : Claim}
    (h : (notes.foldl Audit.take a).claims.lookup name = some c) :
    a.claims.lookup name = some c ∨ Note.claim name c ∈ notes := by
  induction notes generalizing a with
  | nil => exact .inl h
  | cons n notes ih =>
    rcases ih h with hc | hc
    · cases n with
      | claim m d =>
        rcases add_cases a m d with ⟨_, prev, hprev, hne⟩ | ⟨_, heq⟩
        · have hadd : (a.add m d).claims = a.claims := by
            unfold Audit.add
            rw [hprev]
            simp only
            split_ifs with hdiffer
            · rfl
            · rw [not_or, not_not, not_not] at hdiffer
              exact absurd (Prod.ext hdiffer.1 hdiffer.2) hne
          exact .inl (hadd ▸ hc)
        · have htake : a.take (.claim m d) = { a with claims := a.claims.insert m d } := heq
          rw [htake] at hc
          by_cases hm : name = m
          · subst hm
            have hd : d = c := by simpa using hc
            exact .inr (by simp [hd])
          · exact .inl (by simpa [hm] using hc)
      | _ => exact .inl hc
    · exact .inr (List.mem_cons_of_mem _ hc)

/-- Notes that do not block, and claims that agree with `labels`. -/
theorem foldl_unblocked (labels : String → Option (String × String)) (hquiet : a.blockers = [])
    (hclaims : ∀ name c, a.claims.lookup name = some c → labels name = some c.labels)
    (hnotes : ∀ n ∈ notes, ¬ n.Blocks)
    (hagree : ∀ name c, Note.claim name c ∈ notes → labels name = some c.labels) :
    (notes.foldl Audit.take a).blockers = [] := by
  induction notes generalizing a with
  | nil => exact hquiet
  | cons n notes ih =>
    have hn := hnotes n List.mem_cons_self
    have hrest : ∀ a', a'.blockers = [] →
        (∀ name c, a'.claims.lookup name = some c → labels name = some c.labels) →
        (notes.foldl Audit.take a').blockers = [] := fun a' hquiet' hclaims' =>
      ih hquiet' hclaims' (fun m hm => hnotes m (List.mem_cons_of_mem _ hm))
        fun name c hc => hagree name c (List.mem_cons_of_mem _ hc)
    rw [List.foldl_cons]
    cases n with
    | claim m d =>
      have hd := hagree m d List.mem_cons_self
      rcases add_cases a m d with ⟨_, prev, hprev, hne⟩ | ⟨_, heq⟩
      · exact absurd (Option.some_inj.mp ((hclaims m prev hprev).symm.trans hd)) hne
      · have htake : a.take (.claim m d) = { a with claims := a.claims.insert m d } := heq
        rw [htake]
        refine hrest _ hquiet fun name c hc => ?_
        by_cases hm : name = m
        · subst hm
          have hdc : d = c := by simpa using hc
          exact hdc ▸ hd
        · exact hclaims name c (by simpa [hm] using hc)
    | finding f =>
      refine hrest _ ?_ hclaims
      have hf : ¬ f.severity = .blocker := hn
      have hblockers := blockers_finding a f
      rw [hquiet, if_neg hf] at hblockers
      exact hblockers
    | act x => exact hrest _ hquiet hclaims
    | labelled => exact hrest _ hquiet hclaims
    | marked => exact hrest _ hquiet hclaims

/-- Harmless notes, and claims that agree with `labels`. -/
theorem foldl_harmless {labels : String → Option (String × String)} (hquiet : a.blockers = [])
    (hclaims : ∀ name c, a.claims.lookup name = some c → labels name = some c.labels)
    (hnotes : ∀ n ∈ notes, n.Harmless)
    (hagree : ∀ name c, Note.claim name c ∈ notes → labels name = some c.labels) :
    (notes.foldl Audit.take a).blockers = [] ∧ (notes.foldl Audit.take a).plan.actions =
      a.plan.actions ∧
      ∀ name c, (notes.foldl Audit.take a).claims.lookup name = some c →
        labels name = some c.labels := by
  refine ⟨foldl_unblocked labels hquiet hclaims (fun n hn => (hnotes n hn).1) hagree, ?_,
    fun name c hc => ?_⟩
  · rw [actions_foldl, List.filterMap_eq_nil_iff.mpr fun n hn => (hnotes n hn).2, List.append_nil]
  · rcases claims_foldl hc with hc | hc
    · exact hclaims name c hc
    · exact hagree name c hc

end Take

/-! ## The stages of an audit -/

section Stages

variable {inp : Input} {objs : List Obj} {now : Nat}

/-- The claims of an audit. -/
def claimsOf (inp : Input) (objs : List Obj) (now : Nat) : FinMap String Claim :=
  ((crNotes inp objs now).foldl Audit.take {}).claims

def restoreNotes (objs : List Obj) (claims : FinMap String Claim) : List Note :=
  (snapsByShort objs restoreSourceSnapshot).map (restoreNote claims)

/-- The notes after the claims. -/
def laterNotes (inp : Input) (objs : List Obj) (claims : FinMap String Claim) : List Note :=
  restoreNotes objs claims ++ claims.sortedKeys.flatMap (labelNotes objs claims) ++
    objs.flatMap (orphanNotes inp claims)

theorem audit_eq : audit inp objs now =
    ((crNotes inp objs now ++ laterNotes inp objs (claimsOf inp objs now)).foldl Audit.take
      {}).plan := by
  simp only [audit, laterNotes, restoreNotes, claimsOf, List.foldl_append]

theorem orphanNotes_harmless {claims : FinMap String Claim} {o : Obj} :
    ∀ n ∈ orphanNotes inp claims o, n.Harmless := by
  intro n hn
  unfold orphanNotes at hn
  split_ifs at hn
  · cases hn
  · obtain rfl := List.mem_singleton.mp hn
    exact ⟨nofun, rfl⟩
  · cases hn

/-- No note after the claims is a claim. -/
theorem not_claim_laterNotes {claims : FinMap String Claim} {name : String} {c : Claim} :
    Note.claim name c ∉ laterNotes inp objs claims := by
  intro hc
  unfold laterNotes at hc
  rcases List.mem_append.mp hc with hc | hc
  · rcases List.mem_append.mp hc with hc | hc
    · obtain ⟨o, _, ho⟩ := List.mem_map.mp hc
      unfold restoreNote at ho
      split_ifs at ho
    · obtain ⟨m, _, hm⟩ := List.mem_flatMap.mp hc
      unfold labelNotes labelNote at hm
      split at hm
      · cases hm
      · simp only at hm
        split_ifs at hm <;> simp at hm
  · obtain ⟨o, _, ho⟩ := List.mem_flatMap.mp hc
    unfold orphanNotes at ho
    split_ifs at ho <;> simp at ho

/-- What an audit without blockers tells. -/
theorem audit_quiet (h : (audit inp objs now).blockers = []) :
    (∀ n ∈ crNotes inp objs now ++ laterNotes inp objs (claimsOf inp objs now), ¬ n.Blocks) ∧
      ∀ name c, Note.claim name c ∈ crNotes inp objs now →
        ∃ c', (claimsOf inp objs now).lookup name = some c' ∧ c'.labels = c.labels := by
  rw [audit_eq] at h
  have hall := foldl_quiet (a := {}) h
  refine ⟨hall.2.1, ?_⟩
  rw [List.foldl_append] at h
  exact (foldl_quiet (a := {}) (foldl_quiet h).1).2.2.1

theorem audit_actions : (audit inp objs now).actions =
    (crNotes inp objs now ++ laterNotes inp objs (claimsOf inp objs now)).filterMap
    Note.action := by
  rw [audit_eq, actions_foldl]
  rfl

/-- When an audit is clean. -/
theorem audit_clean {labels : String → Option (String × String)}
    (hcr : ∀ n ∈ crNotes inp objs now, n.Harmless)
    (hagree : ∀ name c, Note.claim name c ∈ crNotes inp objs now → labels name = some c.labels)
    (hlater :
      (∀ name c, (claimsOf inp objs now).lookup name = some c → labels name = some c.labels) →
      (∀ name c, Note.claim name c ∈ crNotes inp objs now →
        ∃ c', (claimsOf inp objs now).lookup name = some c' ∧ c'.labels = c.labels) →
      ∀ n ∈ laterNotes inp objs (claimsOf inp objs now), n.Harmless) :
    (audit inp objs now).actions = [] ∧ (audit inp objs now).blockers = [] := by
  have hstart : ∀ name c, ({} : Audit).claims.lookup name = some c →
      labels name = some c.labels := by simp
  obtain ⟨hquiet, hactions, hclaims⟩ := foldl_harmless rfl hstart hcr hagree
  obtain ⟨hquiet', hactions', _⟩ :=
    foldl_harmless hquiet hclaims (hlater hclaims (foldl_quiet hquiet).2.2.1)
    fun name c hc => absurd hc not_claim_laterNotes
  rw [audit_eq, List.foldl_append]
  exact ⟨hactions'.trans hactions, hquiet'⟩

/-- The name of the dataset of an object. -/
def volumeName (pool : String) (d : ZfsDataset) : String :=
  pool ++ "/" ++ Text.trimSlashes d.spec.dataset

/-- The name of its backing clone, for a snapshot. -/
def Input.backingName (inp : Input) (pool : String) (s : ZfsSnapshot) : String :=
  backingCloneFullName pool (((inp.source s).map (·.spec.dataset)).getD s.spec.dataset)
    s.spec.snapshotName

/-- An object of the cluster that owns objects of ZFS. -/
inductive Cr where
  | dataset (d : ZfsDataset)
  | snapshot (s : ZfsSnapshot)

def Cr.poolGUID : Cr → String
  | .dataset d => d.spec.poolGUID
  | .snapshot s => s.spec.poolGUID

def Cr.owner : Cr → String
  | .dataset d => uidText d
  | .snapshot s => uidText s

/-- Who claims a name, and in which role. -/
inductive ClaimedBy (inp : Input) (objs : List Obj) (name : String) : Cr → String → Prop where
  | volume {d : ZfsDataset} {pool : String} (hd : d ∈ inp.datasets)
    (hpool : inp.poolOf d.spec.poolGUID = some pool)
      (hlisted : (byName objs (volumeName pool d)).isSome) (hname : name = volumeName pool d) :
      ClaimedBy inp objs name (.dataset d) roleVolume
  | cloneOrigin {d : ZfsDataset} {pool : String} {o : Obj} (hd : d ∈ inp.datasets)
      (hpool : inp.poolOf d.spec.poolGUID = some pool)
        (hlisted : (byName objs (volumeName pool d)).isSome)
      (ho : o ∈ snapsByShort objs ("clone-" ++ d.name)) (hname : name = o.name) :
      ClaimedBy inp objs name (.dataset d) roleCloneOrigin
  | raw {s : ZfsSnapshot} {pool : String} {o : Obj} (hs : s ∈ inp.snapshots)
      (hpool : inp.poolOf s.spec.poolGUID = some pool)
        (ho : snapsByShort objs s.spec.snapshotName = [o])
      (hname : name = o.name) : ClaimedBy inp objs name (.snapshot s) roleRaw
  | backing {s : ZfsSnapshot} {pool : String} (hs : s ∈ inp.snapshots)
    (hpool : inp.poolOf s.spec.poolGUID = some pool)
      (hlisted : (byName objs (inp.backingName pool s)).isSome)
        (hname : name = inp.backingName pool s) :
      ClaimedBy inp objs name (.snapshot s) roleBacking

/-- With which labels a name is claimed. -/
def Claims (inp : Input) (objs : List Obj) (name : String) (labels : String × String) : Prop :=
  ∃ cr, ClaimedBy inp objs name cr labels.1 ∧ labels.2 = cr.owner

theorem mem_crNotes_dataset {d : ZfsDataset} (hd : d ∈ inp.datasets) {n : Note}
    (hn : n ∈ datasetNotes inp objs now d) : n ∈ crNotes inp objs now :=
  List.mem_append_left _ (List.mem_append_right _ (List.mem_flatMap.mpr ⟨d, hd, hn⟩))

theorem mem_crNotes_snapshot {s : ZfsSnapshot} (hs : s ∈ inp.snapshots) {n : Note}
    (hn : n ∈ snapshotNotes inp objs now s) : n ∈ crNotes inp objs now :=
  List.mem_append_right _ (List.mem_flatMap.mpr ⟨s, hs, hn⟩)

theorem claims_of_note {name : String} {c : Claim} (h : Note.claim name c ∈ crNotes inp objs now) :
    Claims inp objs name c.labels := by
  unfold crNotes at h
  rcases List.mem_append.mp h with h | h
  · rcases List.mem_append.mp h with h | h
    · exfalso
      simp only [rootNotes, unknownPool, List.mem_append, List.mem_filterMap] at h
      rcases h with ⟨_, _, h⟩ | ⟨_, _, h⟩ <;> split_ifs at h <;> cases h
    · obtain ⟨d, hd, h⟩ := List.mem_flatMap.mp h
      unfold datasetNotes at h
      split at h
      · cases h
      · rename_i pool hpool
        simp only at h
        split at h
        · split_ifs at h <;> simp at h
        · rename_i hsome
          rw [Option.isNone_iff_eq_none, ← ne_eq, Option.ne_none_iff_isSome] at hsome
          rcases List.mem_append.mp h with h | h
          · rcases List.mem_append.mp h with h | h
            · obtain ⟨rfl, rfl⟩ := Note.claim.inj (List.mem_singleton.mp h)
              exact ⟨_, .volume hd hpool hsome rfl, rfl⟩
            · obtain ⟨o, ho, heq⟩ := List.mem_map.mp h
              obtain ⟨rfl, rfl⟩ := Note.claim.inj heq
              exact ⟨_, .cloneOrigin hd hpool hsome ho rfl, rfl⟩
          · split_ifs at h <;> simp at h
  · obtain ⟨s, hs, h⟩ := List.mem_flatMap.mp h
    unfold snapshotNotes at h
    split at h
    · cases h
    · rename_i pool hpool
      rcases List.mem_append.mp h with h | h
      · rcases List.mem_append.mp h with h | h
        · rcases List.mem_append.mp h with h | h
          · unfold rawNotes at h
            simp only at h
            split at h
            · simp at h
            · rename_i raw hraw
              obtain ⟨rfl, rfl⟩ := Note.claim.inj (List.mem_singleton.mp h)
              exact ⟨_, .raw hs hpool hraw rfl, rfl⟩
            · simp at h
          · unfold backingNotes at h
            simp only at h
            split_ifs at h with hsome
            · obtain ⟨rfl, rfl⟩ := Note.claim.inj (List.mem_singleton.mp h)
              exact ⟨_, .backing hs hpool hsome rfl, rfl⟩
            · simp at h
        · split_ifs at h <;> simp at h
      · unfold typeNotes at h
        split_ifs at h
        · split at h <;> simp at h
        · cases h

/-- The notes about a dataset that is listed. -/
theorem datasetNotes_listed {d : ZfsDataset} {pool : String}
    (hpool : inp.poolOf d.spec.poolGUID = some pool)
    (hlisted : (byName objs (volumeName pool d)).isSome) : datasetNotes inp objs now d =
      [.claim (volumeName pool d) ⟨roleVolume, uidText d, "volume of ZfsDataset " ++ d.name⟩] ++
      (snapsByShort objs ("clone-" ++ d.name)).map (fun o =>
        .claim o.name ⟨roleCloneOrigin, uidText d, "clone origin of ZfsDataset " ++ d.name⟩) ++
      if d.status.provisionedAt.isNone ∧ settledDataset d.status.phase then
        [.act (.stampDataset d.name (inp.provisionedTime now d.status.conditions) predates)]
      else [] := by
  have hnone : (byName objs (volumeName pool d)).isNone = false := by
    rw [Option.isNone_eq_false_iff]
    exact hlisted
  unfold datasetNotes
  rw [hpool]
  change (if (byName objs (volumeName pool d)).isNone then _ else _) = _
  rw [hnone]
  rfl

/-- The notes about a snapshot on a known pool. -/
theorem snapshotNotes_known {s : ZfsSnapshot} {pool : String}
    (hpool : inp.poolOf s.spec.poolGUID = some pool) :
    snapshotNotes inp objs now s = rawNotes objs s ++ backingNotes inp objs pool s ++
      (if s.status.provisionedAt.isNone ∧ settledSnapshot s.status.phase then
        [.act (.stampSnapshot s.name (inp.provisionedTime now s.status.conditions) predates)]
      else []) ++ typeNotes inp s := by
  unfold snapshotNotes
  rw [hpool]

theorem ClaimedBy.note {name role : String} {cr : Cr}
    (h : ClaimedBy inp objs name cr role) (now : Nat) :
    ∃ c : Claim, Note.claim name c ∈ crNotes inp objs now ∧ c.labels = (role, cr.owner) := by
  cases h with
  | @volume d pool hd hpool hlisted hname =>
    subst hname
    refine ⟨⟨roleVolume, uidText d, "volume of ZfsDataset " ++ d.name⟩,
      mem_crNotes_dataset hd ?_, rfl⟩
    rw [datasetNotes_listed hpool hlisted]
    simp
  | @cloneOrigin d pool o hd hpool hlisted ho hname =>
    subst hname
    refine ⟨⟨roleCloneOrigin, uidText d, "clone origin of ZfsDataset " ++ d.name⟩,
      mem_crNotes_dataset hd ?_, rfl⟩
    rw [datasetNotes_listed hpool hlisted]
    exact List.mem_append_left _ (List.mem_append_right _ (List.mem_map.mpr ⟨o, ho, rfl⟩))
  | @raw s pool o hs hpool ho hname =>
    subst hname
    refine ⟨⟨roleRaw, uidText s, "raw snapshot of ZfsSnapshot " ++ s.name⟩,
      mem_crNotes_snapshot hs ?_, rfl⟩
    rw [snapshotNotes_known hpool]
    simp [rawNotes, ho]
  | @backing s pool hs hpool hlisted hname =>
    subst hname
    refine ⟨⟨roleBacking, uidText s, "backing clone of ZfsSnapshot " ++ s.name⟩,
      mem_crNotes_snapshot hs ?_, rfl⟩
    rw [snapshotNotes_known hpool]
    have hbacking : backingNotes inp objs pool s =
        [.claim (inp.backingName pool s) ⟨roleBacking, uidText s,
          "backing clone of ZfsSnapshot " ++ s.name⟩] :=
      if_pos hlisted
    simp [hbacking]

theorem Claims.note {name : String} {l : String × String} (h : Claims inp objs name l) (now : Nat) :
    ∃ c : Claim, Note.claim name c ∈ crNotes inp objs now ∧ c.labels = l := by
  obtain ⟨cr, h, howner⟩ := h
  obtain ⟨c, hc, hlabels⟩ := h.note now
  exact ⟨c, hc, hlabels.trans (Prod.ext rfl howner.symm)⟩

/-- A name that is claimed is listed. -/
theorem ClaimedBy.listed {name role : String} {cr : Cr} (h : ClaimedBy inp objs name cr role) :
    ∃ o ∈ objs, o.name = name := by
  have hfound : ∀ {n}, (byName objs n).isSome → ∃ o ∈ objs, o.name = n := by
    intro n hn
    obtain ⟨o, ho⟩ := Option.isSome_iff_exists.mp hn
    have hname := List.find?_some ho
    exact ⟨o, List.mem_reverse.mp (List.mem_of_find?_eq_some ho), by simpa using hname⟩
  cases h with
  | volume hd hpool hlisted hname => exact hname ▸ hfound hlisted
  | cloneOrigin hd hpool hlisted ho hname => exact ⟨_, (List.mem_filter.mp ho).1, hname.symm⟩
  | @raw s pool o hs hpool ho hname =>
    have hmem : o ∈ snapsByShort objs s.spec.snapshotName := by simp [ho]
    exact ⟨o, (List.mem_filter.mp hmem).1, hname.symm⟩
  | backing hs hpool hlisted hname => exact hname ▸ hfound hlisted

/-! ## Where the actions come from -/

/-- The actions on objects of the cluster are none on ZFS. -/
theorem act_crNotes {a : Action} (h : Note.act a ∈ crNotes inp objs now) :
    (∀ n prop value reason, a ≠ .set n prop value reason) ∧
      ∀ n reason, a ≠ .destroyDeferred n reason := by
  unfold crNotes at h
  rcases List.mem_append.mp h with h | h
  · rcases List.mem_append.mp h with h | h
    · exfalso
      simp only [rootNotes, unknownPool, List.mem_append, List.mem_filterMap] at h
      rcases h with ⟨_, _, h⟩ | ⟨_, _, h⟩ <;> split_ifs at h <;> cases h
    · obtain ⟨d, hd, h⟩ := List.mem_flatMap.mp h
      unfold datasetNotes at h
      split at h
      · cases h
      · simp only at h
        split at h
        · split_ifs at h <;> simp at h
        · rcases List.mem_append.mp h with h | h
          · simp at h
          · split_ifs at h
            · obtain rfl := Note.act.inj (List.mem_singleton.mp h)
              exact ⟨nofun, nofun⟩
            · cases h
  · obtain ⟨s, hs, h⟩ := List.mem_flatMap.mp h
    unfold snapshotNotes at h
    split at h
    · cases h
    · rcases List.mem_append.mp h with h | h
      · rcases List.mem_append.mp h with h | h
        · rcases List.mem_append.mp h with h | h
          · unfold rawNotes at h
            simp only at h
            split at h <;> simp at h
          · unfold backingNotes at h
            simp only at h
            split_ifs at h <;> simp at h
        · split_ifs at h
          · obtain rfl := Note.act.inj (List.mem_singleton.mp h)
            exact ⟨nofun, nofun⟩
          · cases h
      · unfold typeNotes at h
        split_ifs at h
        · split at h
          · obtain rfl := Note.act.inj (List.mem_singleton.mp h)
            exact ⟨nofun, nofun⟩
          · simp at h
        · cases h

theorem labelNote_act {name reason prop got want : String} {a : Action}
    (h : Note.act a ∈ labelNote name reason prop got want) : a = .set name prop want reason := by
  unfold labelNote at h
  split_ifs at h
  · cases h
  · simp at h
  · exact Note.act.inj (List.mem_singleton.mp h)

/-- A label that does not block is right, or is set. -/
theorem labelNote_quiet {name reason prop got want : String}
    (h : ∀ n ∈ labelNote name reason prop got want, ¬ n.Blocks) :
    got = want ∨ Note.act (.set name prop want reason) ∈ labelNote name reason prop got want := by
  unfold labelNote at h ⊢
  split_ifs at h ⊢ with heq hne
  · exact .inl heq
  · exact absurd rfl (h _ List.mem_cons_self)
  · exact .inr List.mem_cons_self

/-- The actions on ZFS: a label that is claimed, or an old snapshot. -/
theorem act_laterNotes {claims : FinMap String Claim} {a : Action}
    (h : Note.act a ∈ laterNotes inp objs claims) :
    (∃ name c, claims.lookup name = some c ∧
      (a = .set name propRole c.role c.reason ∨ a = .set name propOwner c.owner c.reason)) ∨
    ∃ o ∈ snapsByShort objs restoreSourceSnapshot, ∃ reason, a =
      .destroyDeferred o.name reason := by
  unfold laterNotes at h
  rcases List.mem_append.mp h with h | h
  · rcases List.mem_append.mp h with h | h
    · obtain ⟨o, ho, heq⟩ := List.mem_map.mp h
      unfold restoreNote at heq
      split_ifs at heq
      exact .inr ⟨o, ho, _, (Note.act.inj heq).symm⟩
    · obtain ⟨name, _, h⟩ := List.mem_flatMap.mp h
      unfold labelNotes at h
      split at h
      · cases h
      · rename_i c hc
        simp only at h
        refine .inl ⟨name, c, hc, ?_⟩
        rcases List.mem_append.mp h with h | h
        · rcases List.mem_append.mp h with h | h
          · exact .inl (labelNote_act h)
          · exact .inr (labelNote_act h)
        · split_ifs at h <;> simp at h
  · obtain ⟨o, _, h⟩ := List.mem_flatMap.mp h
    cases (orphanNotes_harmless _ h).2

theorem mem_actions {a : Action} : a ∈ (audit inp objs now).actions ↔
    Note.act a ∈ crNotes inp objs now ∨ Note.act a ∈ laterNotes inp objs
      (claimsOf inp objs now) := by
  rw [audit_actions, List.mem_filterMap, ← List.mem_append]
  constructor
  · rintro ⟨n, hn, heq⟩
    cases n with
    | act b =>
      obtain rfl := Option.some_inj.mp heq
      exact hn
    | _ => cases heq
  · exact fun h => ⟨_, h, rfl⟩

end Stages

end SimpleZfsCsi.Migrate
