import SimpleZfsCsi.Migrate.Claimed

/-!
# The order of the audit

The audit goes through the objects of the cluster and of the pools in the order they are listed. The
first claim of a name counts, so its claims depend on the order. But two claims that differ are
reported in every order, and where there are none the order does not matter.
-/

namespace SimpleZfsCsi.Migrate

open Library Api Agent

/-! ## Lists in another order -/

section Perm

variable {α β : Type}

/-- What is found by a key that is its own is found in every order. -/
theorem find?_key_perm {κ : Type} [DecidableEq κ] (key : α → κ) {l l' : List α} (hperm : l'.Perm l)
    (hnodup : (l.map key).Nodup) (k : κ) : l'.find? (fun x => key x = k) =
    l.find? fun x => key x = k := by
  have hfound {l₁ l₂ : List α} (hsub : l₁.Perm l₂) (hnodup : (l₂.map key).Nodup) {x : α}
      (hx : l₁.find? (fun x => key x = k) = some x) : l₂.find? (fun x => key x = k) = some x := by
    have hkey : key x = k := by simpa using List.find?_some hx
    have hmem : x ∈ l₂ := hsub.subset (List.mem_of_find?_eq_some hx)
    cases hfind : l₂.find? fun x => key x = k with
    | none => exact absurd hkey (by simpa using List.find?_eq_none.mp hfind x hmem)
    | some y =>
      have hkey' : key y = k := by simpa using List.find?_some hfind
      rw [List.inj_on_of_nodup_map hnodup (List.mem_of_find?_eq_some hfind) hmem
        (hkey'.trans hkey.symm)]
  have hnodup' : (l'.map key).Nodup := (hperm.map key).nodup_iff.mpr hnodup
  cases hx : l'.find? fun x => key x = k with
  | some x => exact (hfound hperm hnodup hx).symm
  | none =>
    cases hy : l.find? fun x => key x = k with
    | none => rfl
    | some y =>
      rw [hfound hperm.symm hnodup' hy] at hx
      cases hx

theorem flatMap_perm {l l' : List α} (hperm : l'.Perm l) {f g : α → List β}
    (hfg : ∀ a ∈ l, (f a).Perm (g a)) :
    (l'.flatMap f).Perm (l.flatMap g) := by
  refine (hperm.flatMap_right f).trans ?_
  clear hperm
  induction l with
  | nil => exact .refl _
  | cons a l ih =>
    obtain ⟨ha, hl⟩ := List.forall_mem_cons.mp hfg
    exact ha.append (ih hl)

end Perm

/-! ## Two orders -/

/-- Every object of the cluster has a name and a uid of its own. -/
structure Input.Unique (inp : Input) : Prop where
  datasets : (inp.datasets.map (·.name)).Nodup
  snapshots : (inp.snapshots.map (·.name)).Nodup
  uids : (inp.datasets.map (·.metadata.uid) ++ inp.snapshots.map (·.metadata.uid)).Nodup

/-- The same objects of the cluster and of the pools, in another order. -/
structure Reordered (inp inp' : Input) (objs objs' : List Obj) : Prop where
  pools : inp'.pools = inp.pools
  lastTransition : inp'.lastTransition = inp.lastTransition
  datasets : inp'.datasets.Perm inp.datasets
  snapshots : inp'.snapshots.Perm inp.snapshots
  listed : objs'.Perm objs
  unique : inp.Unique
  named : (objs.map (·.name)).Nodup

theorem Reordered.symm {inp inp' : Input} {objs objs' : List Obj}
    (h : Reordered inp inp' objs objs') :
    Reordered inp' inp objs' objs where
  pools := h.pools.symm
  lastTransition := h.lastTransition.symm
  datasets := h.datasets.symm
  snapshots := h.snapshots.symm
  listed := h.listed.symm
  unique := by
    refine ⟨(h.datasets.map _).nodup_iff.mpr h.unique.datasets,
      (h.snapshots.map _).nodup_iff.mpr h.unique.snapshots, ?_⟩
    exact ((h.datasets.map _).append (h.snapshots.map _)).nodup_iff.mpr h.unique.uids
  named := (h.listed.map _).nodup_iff.mpr h.named

section Reordered

variable {inp inp' : Input} {objs objs' : List Obj} {now : Nat}

theorem Reordered.poolOf (h : Reordered inp inp' objs objs') (guid : String) : inp'.poolOf guid =
    inp.poolOf guid := by
  unfold Input.poolOf
  rw [h.pools]

theorem Reordered.datasetCR (h : Reordered inp inp' objs objs') (name : String) :
    inp'.datasetCR name = inp.datasetCR name := by
  have hperm : inp'.datasets.reverse.Perm inp.datasets.reverse :=
    (List.reverse_perm _).trans (h.datasets.trans (List.reverse_perm _).symm)
  have hnodup : (inp.datasets.reverse.map (·.name)).Nodup := by
    rw [List.map_reverse, List.nodup_reverse]
    exact h.unique.datasets
  exact find?_key_perm (·.name) hperm hnodup name

theorem Reordered.source (h : Reordered inp inp' objs objs') (s : ZfsSnapshot) : inp'.source s =
    inp.source s := by
  unfold Input.source
  rw [h.datasetCR]

theorem Reordered.byName (h : Reordered inp inp' objs objs') (name : String) : byName objs' name =
    byName objs name := by
  have hperm : objs'.reverse.Perm objs.reverse :=
    (List.reverse_perm _).trans (h.listed.trans (List.reverse_perm _).symm)
  have hnodup : (objs.reverse.map (·.name)).Nodup := by
    rw [List.map_reverse, List.nodup_reverse]
    exact h.named
  exact find?_key_perm (·.name) hperm hnodup name

theorem Reordered.snapsByShort (h : Reordered inp inp' objs objs') (short : String) :
    (snapsByShort objs' short).Perm (snapsByShort objs short) := h.listed.filter _

theorem Reordered.provisionedTime (h : Reordered inp inp' objs objs') (conds : List Condition) :
    inp'.provisionedTime now conds = inp.provisionedTime now conds := by
  unfold Input.provisionedTime
  rw [h.lastTransition]

theorem Reordered.rootList (h : Reordered inp inp' objs objs') : inp'.rootList = inp.rootList := by
  have hroot : inp'.root = inp.root := by
    funext guid dataset
    unfold Input.root
    rw [h.poolOf]
  unfold Input.rootList
  rw [hroot]
  refine List.Perm.eq_of_pairwise' (List.pairwise_insertionSort _ _)
    (List.pairwise_insertionSort _ _) ?_
  refine (List.perm_insertionSort _ _).trans (List.Perm.trans ?_ (List.perm_insertionSort _ _).symm)
  exact ((h.datasets.filterMap _).append (h.snapshots.filterMap _)).dedup

/-! ## The notes -/

theorem Reordered.rootNotes (h : Reordered inp inp' objs objs') :
    (rootNotes inp').Perm (rootNotes inp) := by
  unfold Migrate.rootNotes
  simp only [h.poolOf]
  exact (h.datasets.filterMap _).append (h.snapshots.filterMap _)

theorem Reordered.datasetNotes (h : Reordered inp inp' objs objs') (d : ZfsDataset) :
    (datasetNotes inp' objs' now d).Perm (datasetNotes inp objs now d) := by
  unfold Migrate.datasetNotes
  rw [h.poolOf]
  split
  · exact .refl _
  · simp only [h.byName, h.provisionedTime]
    split
    · exact .refl _
    · exact (List.Perm.append_left _ ((h.snapsByShort _).map _)).append_right _

/-- The raw snapshot of a `ZfsSnapshot` is the same one, unless its name is ambiguous. -/
theorem Reordered.rawNotes (h : Reordered inp inp' objs objs') (s : ZfsSnapshot)
    (hquiet : ∀ n ∈ rawNotes objs s, ¬ n.Blocks) : rawNotes objs' s = rawNotes objs s := by
  have hperm := h.snapsByShort s.spec.snapshotName
  unfold Migrate.rawNotes at hquiet ⊢
  rcases hraws : Migrate.snapsByShort objs s.spec.snapshotName with _ | ⟨raw, _ | ⟨raw', rest⟩⟩
  · rw [hraws] at hperm
    rw [hperm.eq_nil]
  · rw [hraws] at hperm
    rw [hperm.eq_singleton]
  · rw [hraws] at hquiet
    exact absurd rfl (hquiet _ (List.mem_singleton.mpr rfl))

theorem Reordered.snapshotNotes (h : Reordered inp inp' objs objs') (s : ZfsSnapshot)
    (hquiet : ∀ n ∈ snapshotNotes inp objs now s, ¬ n.Blocks) :
    snapshotNotes inp' objs' now s = snapshotNotes inp objs now s := by
  unfold Migrate.snapshotNotes at hquiet ⊢
  rw [h.poolOf]
  split
  · rfl
  · next pool hpool =>
    rw [hpool] at hquiet
    have hraw : ∀ n ∈ Migrate.rawNotes objs s, ¬ n.Blocks := fun n hn => hquiet n (by simp [hn])
    have hbacking : backingNotes inp' objs' pool s = backingNotes inp objs pool s := by
      unfold backingNotes
      simp only [h.source, h.byName]
    have htype : typeNotes inp' s = typeNotes inp s := by
      unfold typeNotes
      simp only [h.source]
    simp only [h.rawNotes s hraw, hbacking, htype, h.provisionedTime]

theorem Reordered.crNotes (h : Reordered inp inp' objs objs')
    (hquiet : ∀ n ∈ crNotes inp objs now, ¬ n.Blocks) :
    (crNotes inp' objs' now).Perm (crNotes inp objs now) := by
  refine (h.rootNotes.append (flatMap_perm h.datasets fun d _ => h.datasetNotes d)).append
    (flatMap_perm h.snapshots fun s hs => ?_)
  rw [h.snapshotNotes s fun n hn => hquiet n (mem_crNotes_snapshot hs hn)]

end Reordered

/-! ## The claims -/

/-- The claim of an object of the cluster in a role. -/
def Cr.claim : Cr → String → Claim
  | .dataset d, role =>
    ⟨role, uidText d,
      (if role = roleVolume then "volume of ZfsDataset " else "clone origin of ZfsDataset ") ++
      d.name⟩
  | .snapshot s, role =>
    ⟨role, uidText s, (if role = roleRaw then "raw snapshot of ZfsSnapshot " else
      "backing clone of ZfsSnapshot ") ++ s.name⟩

/-- The objects of the cluster. -/
def Input.crs (inp : Input) : List Cr := inp.datasets.map .dataset ++ inp.snapshots.map .snapshot

section Claims

variable {inp inp' : Input} {objs objs' : List Obj} {now : Nat} {name : String} {c c' : Claim}

theorem claim_of_note (h : Note.claim name c ∈ crNotes inp objs now) : ∃ cr ∈ inp.crs, c =
    cr.claim c.role := by
  unfold crNotes at h
  rcases List.mem_append.mp h with h | h
  · rcases List.mem_append.mp h with h | h
    · simp only [rootNotes, unknownPool, List.mem_append, List.mem_filterMap] at h
      rcases h with ⟨_, _, h⟩ | ⟨_, _, h⟩ <;> split_ifs at h <;> cases h
    · obtain ⟨d, hd, h⟩ := List.mem_flatMap.mp h
      refine ⟨.dataset d, List.mem_append_left _ (List.mem_map_of_mem hd), ?_⟩
      unfold datasetNotes at h
      split at h
      · cases h
      · dsimp only at h
        split at h
        · split_ifs at h <;> simp at h
        · rcases List.mem_append.mp h with h | h
          · rcases List.mem_append.mp h with h | h
            · obtain ⟨-, rfl⟩ := Note.claim.inj (List.mem_singleton.mp h)
              rfl
            · obtain ⟨o, -, heq⟩ := List.mem_map.mp h
              obtain ⟨-, rfl⟩ := Note.claim.inj heq
              rfl
          · split_ifs at h <;> simp at h
  · obtain ⟨s, hs, h⟩ := List.mem_flatMap.mp h
    refine ⟨.snapshot s, List.mem_append_right _ (List.mem_map_of_mem hs), ?_⟩
    unfold snapshotNotes at h
    split at h
    · cases h
    · rcases List.mem_append.mp h with h | h
      · rcases List.mem_append.mp h with h | h
        · rcases List.mem_append.mp h with h | h
          · unfold rawNotes at h
            dsimp only at h
            split at h
            · simp at h
            · obtain ⟨-, rfl⟩ := Note.claim.inj (List.mem_singleton.mp h)
              rfl
            · simp at h
          · unfold backingNotes at h
            dsimp only at h
            split_ifs at h
            · obtain ⟨-, rfl⟩ := Note.claim.inj (List.mem_singleton.mp h)
              rfl
            · simp at h
        · split_ifs at h <;> simp at h
      · unfold typeNotes at h
        split_ifs at h
        · split at h <;> simp at h
        · cases h

/-- Owners tell the objects of the cluster apart. -/
theorem Input.Unique.owner (h : inp.Unique) {cr cr' : Cr} (hcr : cr ∈ inp.crs)
    (hcr' : cr' ∈ inp.crs)
    (heq : cr.owner = cr'.owner) : cr = cr' := by
  have hinj {m n : Nat} (hmn : toString m = toString n) : m = n :=
    Text.eq_of_toString_eq (Text.digits?_toString n) hmn
  obtain ⟨hdatasets, hsnapshots, hdisjoint⟩ := List.nodup_append.mp h.uids
  have hapart {d : ZfsDataset} {s : ZfsSnapshot} (hd : d ∈ inp.datasets) (hs : s ∈ inp.snapshots) :
      toString d.metadata.uid ≠ toString s.metadata.uid := fun huid =>
    hdisjoint _ (List.mem_map_of_mem hd) _ (List.mem_map_of_mem hs) (hinj huid)
  rcases List.mem_append.mp hcr with hcr | hcr <;> obtain ⟨x, hx, rfl⟩ := List.mem_map.mp hcr
  · rcases List.mem_append.mp hcr' with hcr' | hcr' <;> obtain ⟨y, hy, rfl⟩ := List.mem_map.mp hcr'
    · rw [List.inj_on_of_nodup_map hdatasets hx hy (hinj heq)]
    · exact absurd heq (hapart hx hy)
  · rcases List.mem_append.mp hcr' with hcr' | hcr' <;> obtain ⟨y, hy, rfl⟩ := List.mem_map.mp hcr'
    · exact absurd heq.symm (hapart hy hx)
    · rw [List.inj_on_of_nodup_map hsnapshots hx hy (hinj heq)]

/-- Claims with the same labels are the same. -/
theorem Input.Unique.claim (h : inp.Unique) (hc : Note.claim name c ∈ crNotes inp objs now)
    (hc' : Note.claim name c' ∈ crNotes inp objs now)
    (hlabels : c'.labels = c.labels) : c' = c := by
  obtain ⟨cr, hcr, heq⟩ := claim_of_note hc
  obtain ⟨cr', hcr', heq'⟩ := claim_of_note hc'
  have howner (cr : Cr) (role : String) : (cr.claim role).owner = cr.owner := by cases cr <;> rfl
  have hsame : cr' = cr := by
    refine h.owner hcr' hcr ?_
    rw [← howner cr' c'.role, ← howner cr c.role, ← heq, ← heq']
    exact congrArg Prod.snd hlabels
  have hrole : c'.role = c.role := congrArg Prod.fst hlabels
  rw [heq, heq', hsame, hrole]

/-- Without blockers, the claims are those that were noted. -/
theorem Input.Unique.lookup_claimsOf (h : inp.Unique)
    (hquiet : ((crNotes inp objs now).foldl Audit.take {}).blockers = []) :
    (claimsOf inp objs now).lookup name = some c ↔ Note.claim name c ∈ crNotes inp objs now := by
  have hnoted {c : Claim} (hc : (claimsOf inp objs now).lookup name = some c) :
      Note.claim name c ∈ crNotes inp objs now := by
    rcases claims_foldl hc with hempty | hnote
    · simp at hempty
    · exact hnote
  refine ⟨hnoted, fun hc => ?_⟩
  obtain ⟨c', hc', hlabels⟩ := (foldl_quiet hquiet).2.2.1 name c hc
  rw [← h.claim hc (hnoted hc') hlabels]
  exact hc'

theorem audit_blockers (h : (audit inp objs now).blockers = []) :
    ((crNotes inp objs now).foldl Audit.take {}).blockers = [] := by
  rw [audit_eq, List.foldl_append] at h
  exact (foldl_quiet h).1

end Claims

section Later

variable {inp inp' : Input} {objs objs' : List Obj} {now : Nat}

/-- The claims of the other order. -/
theorem Reordered.claims (h : Reordered inp inp' objs objs')
    (hquiet : (audit inp objs now).blockers = []) :
    ((Migrate.crNotes inp' objs' now).foldl Audit.take {}).blockers = [] ∧
    ∀ name, (claimsOf inp' objs' now).lookup name = (claimsOf inp objs now).lookup name := by
  have hperm := h.crNotes fun n hn => (audit_quiet hquiet).1 n (List.mem_append_left _ hn)
  have hblockers : ((Migrate.crNotes inp' objs' now).foldl Audit.take {}).blockers = [] := by
    refine foldl_unblocked (fun name => ((claimsOf inp objs now).lookup name).map Claim.labels) rfl
      (by simp) ?_ ?_
    · exact fun n hn => (audit_quiet hquiet).1 n (List.mem_append_left _ (hperm.subset hn))
    · intro name c hc
      obtain ⟨c', hc', hlabels⟩ := (audit_quiet hquiet).2 name c (hperm.subset hc)
      rw [hc', Option.map_some, hlabels]
  refine ⟨hblockers, fun name => Option.ext fun c => ?_⟩
  rw [h.symm.unique.lookup_claimsOf hblockers, h.unique.lookup_claimsOf (audit_blockers hquiet),
    hperm.mem_iff]

theorem sortedKeys_congr {V : Type} {m m' : FinMap String V} (h : ∀ k, m'.lookup k = m.lookup k) :
    m'.sortedKeys = m.sortedKeys := by
  refine List.Perm.eq_of_pairwise' (List.pairwise_insertionSort _ _)
    (List.pairwise_insertionSort _ _) ?_
  rw [List.perm_ext_iff_of_nodup m'.nodup_sortedKeys m.nodup_sortedKeys]
  intro k
  rw [FinMap.mem_sortedKeys, FinMap.mem_sortedKeys, h]

theorem Reordered.laterNotes (h : Reordered inp inp' objs objs')
    {claims claims' : FinMap String Claim}
    (hclaims : ∀ name, claims'.lookup name = claims.lookup name) :
    (laterNotes inp' objs' claims').Perm (laterNotes inp objs claims) := by
  have hrestore : restoreNote claims' = restoreNote claims := by
    funext o
    unfold restoreNote
    rw [hclaims]
  have hlabel : labelNotes objs' claims' = labelNotes objs claims := by
    funext name
    unfold labelNotes
    simp only [hclaims, h.byName]
  have horphan : orphanNotes inp' claims' = orphanNotes inp claims := by
    funext o
    unfold orphanNotes
    simp only [hclaims, h.rootList]
  unfold Migrate.laterNotes restoreNotes
  rw [hrestore, hlabel, horphan, sortedKeys_congr hclaims]
  exact (((h.snapsByShort _).map _).append_right _).append (h.listed.flatMap_right _)

/-! ## The plan -/

def Note.isLabelled : Note → Bool
  | .labelled => true
  | _ => false

def Note.isMarked : Note → Bool
  | .marked => true
  | _ => false

theorem counts_foldl (notes : List Note) (a : Audit) :
    (notes.foldl Audit.take a).plan.labelled = a.plan.labelled + notes.countP Note.isLabelled ∧
    (notes.foldl Audit.take a).plan.marked = a.plan.marked + notes.countP Note.isMarked := by
  induction notes generalizing a with
  | nil => exact ⟨rfl, rfl⟩
  | cons n notes ih =>
    rw [List.foldl_cons, (ih (a.take n)).1, (ih (a.take n)).2, List.countP_cons, List.countP_cons]
    cases n with
    | claim name c =>
      have hadd : (a.add name c).plan.labelled = a.plan.labelled ∧ (a.add name c).plan.marked =
          a.plan.marked := by
        unfold Audit.add
        split
        · exact ⟨rfl, rfl⟩
        · split_ifs <;> exact ⟨rfl, rfl⟩
      simp [Audit.take, hadd.1, hadd.2, Note.isLabelled, Note.isMarked]
    | _ => simp [Audit.take, Audit.finding, Note.isLabelled, Note.isMarked] <;> omega

/-- All notes of an audit. -/
def auditNotes (inp : Input) (objs : List Obj) (now : Nat) : List Note :=
  crNotes inp objs now ++ laterNotes inp objs (claimsOf inp objs now)

theorem Reordered.auditNotes (h : Reordered inp inp' objs objs')
    (hquiet : (Migrate.audit inp objs now).blockers = []) :
    (Migrate.auditNotes inp' objs' now).Perm (Migrate.auditNotes inp objs now) := by
  obtain ⟨-, hclaims⟩ := h.claims hquiet
  exact (h.crNotes fun n hn => (audit_quiet hquiet).1 n (List.mem_append_left _ hn)).append
    (h.laterNotes hclaims)

/-- What one order does not block, another one does not, and plans the same. -/
theorem Reordered.audit (h : Reordered inp inp' objs objs')
    (hquiet : (audit inp objs now).blockers = []) :
    (audit inp' objs' now).blockers = [] ∧
      (audit inp' objs' now).actions.Perm (audit inp objs now).actions ∧
    (audit inp' objs' now).labelled = (audit inp objs now).labelled ∧
    (audit inp' objs' now).marked = (audit inp objs now).marked := by
  have hperm := h.auditNotes hquiet
  refine ⟨?_, ?_, ?_, ?_⟩
  · rw [audit_eq]
    refine foldl_unblocked (fun name => ((claimsOf inp objs now).lookup name).map Claim.labels) rfl
      (by simp) ?_ ?_
    · exact fun n hn => (audit_quiet hquiet).1 n (hperm.subset hn)
    · intro name c hc
      rcases List.mem_append.mp (hperm.subset hc) with hc | hc
      · obtain ⟨c', hc', hlabels⟩ := (audit_quiet hquiet).2 name c hc
        rw [hc', Option.map_some, hlabels]
      · exact absurd hc not_claim_laterNotes
  · rw [audit_actions, audit_actions]
    exact hperm.filterMap _
  · rw [audit_eq, audit_eq, (counts_foldl _ _).1, (counts_foldl _ _).1]
    exact congrArg _ (hperm.countP_eq _)
  · rw [audit_eq, audit_eq, (counts_foldl _ _).2, (counts_foldl _ _).2]
    exact congrArg _ (hperm.countP_eq _)

end Later

/-- The order of the objects does not matter: of two orders both are blocked or none is, and if none
is they plan the same changes. -/
theorem compute_reordered {inp inp' : Input} {list list' : List String → Except Err (List Obj)}
    {objs objs' : List Obj}
    (h : Reordered inp inp' objs objs') (hlist : list inp.rootList = .ok objs)
    (hlist' : list' inp.rootList = .ok objs')
    (now : Nat) : ∃ plan plan', compute inp list now = .ok plan ∧
    compute inp' list' now = .ok plan' ∧
      (plan.blockers = [] ↔ plan'.blockers = []) ∧
      (plan.blockers = [] → plan'.actions.Perm plan.actions ∧ plan'.labelled = plan.labelled ∧
        plan'.marked = plan.marked) := by
  refine ⟨audit inp objs now, audit inp' objs' now, ?_, ?_, ?_, fun hquiet => (h.audit hquiet).2⟩
  · rw [compute, hlist]
    rfl
  · rw [compute, h.rootList, hlist']
    rfl
  · exact ⟨fun hquiet => (h.audit hquiet).1, fun hquiet => (h.symm.audit hquiet).1⟩

/-- The cluster with its volumes and its pools in the other order. -/
def turned : Input := { twoPools.input with datasets := twoPools.datasets.reverse }

theorem compute_reordered_turned : ∃ plan plan', compute twoPools.input twoPools.list 0 = .ok plan ∧
    compute turned (fun _ => .ok twoPools.objs.reverse) 0 = .ok plan' ∧
    (plan.blockers = [] ↔ plan'.blockers = []) ∧
    (plan.blockers = [] → plan'.actions.Perm plan.actions ∧ plan'.labelled = plan.labelled ∧
      plan'.marked = plan.marked) := by
  have h : Reordered twoPools.input turned twoPools.objs twoPools.objs.reverse := by
    refine ⟨rfl, rfl, List.reverse_perm _, .refl _, List.reverse_perm _, ⟨?_, ?_, ?_⟩, ?_⟩
    · decide +kernel
    · decide +kernel
    · decide +kernel
    · decide +kernel
  exact compute_reordered h rfl rfl 0

end SimpleZfsCsi.Migrate
