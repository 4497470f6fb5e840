import SimpleZfsCsi.Library.Decimal
import SimpleZfsCsi.Migrate.Clean

/-!
# Who owns what the migration labels

A `ZfsDataset` claims its volume, and the snapshots of any pool that have the name of its clone
origin. A `ZfsSnapshot` claims its backing clone, and the snapshot of any pool that has its short
name if there is only one. The first claim of a name counts, and a second one is reported.
-/

namespace SimpleZfsCsi.Migrate

open Library Api Agent Memzfs

section Claimed

variable {inp : Input} {objs : List Obj} {name role : String} {cr : Cr} {now : Nat}

theorem ClaimedBy.pool (h : ClaimedBy inp objs name cr role) : ∃ pool, inp.poolOf cr.poolGUID =
    some pool := by
  cases h with
  | volume hd hpool hlisted hname => exact ⟨_, hpool⟩
  | cloneOrigin hd hpool hlisted ho hname => exact ⟨_, hpool⟩
  | raw hs hpool ho hname => exact ⟨_, hpool⟩
  | backing hs hpool hlisted hname => exact ⟨_, hpool⟩

theorem roles_ne_empty (h : ClaimedBy inp objs name cr role) : role ≠ "" := by
  cases h <;> decide

theorem owner_ne_empty (cr : Cr) : cr.owner ≠ "" := by
  cases cr with
  | dataset d => exact Text.toString_ne (by decide) d.metadata.uid
  | snapshot s => exact Text.toString_ne (by decide) s.metadata.uid

/-- A claim stays, and a note of one makes one. -/
theorem isSome_take {a : Audit} {n : Note}
    (h : (a.claims.lookup name).isSome ∨ ∃ c, n = .claim name c) :
    ((a.take n).claims.lookup name).isSome := by
  cases n with
  | claim m d =>
    have hname : (a.claims.lookup name).isSome ∨ name = m := by
      rcases h with h | ⟨c, heq⟩
      · exact .inl h
      · exact .inr (Note.claim.inj heq).1.symm
    unfold Audit.take Audit.add
    simp only
    split
    · simp only [FinMap.lookup_insert]
      split_ifs with hm
      · rfl
      · exact hname.resolve_right hm
    · next prev hprev =>
      split_ifs
      · rcases hname with h | rfl
        · exact h
        · simp [Audit.finding, hprev]
      · simp only [FinMap.lookup_insert]
        split_ifs with hm
        · rfl
        · exact hname.resolve_right hm
  | _ =>
    rcases h with h | ⟨c, heq⟩
    · exact h
    · cases heq

theorem isSome_foldl {notes : List Note} {a : Audit}
    (h : (a.claims.lookup name).isSome ∨ ∃ c, Note.claim name c ∈ notes) :
    ((notes.foldl Audit.take a).claims.lookup name).isSome := by
  induction notes generalizing a with
  | nil => simpa using h
  | cons n notes ih =>
    refine ih ?_
    rcases h with h | ⟨c, hc⟩
    · exact .inl (isSome_take (.inl h))
    · rcases List.mem_cons.mp hc with rfl | hc
      · exact .inl (isSome_take (.inr ⟨c, rfl⟩))
      · exact .inr ⟨c, hc⟩

/-- A name that is claimed has a claim. -/
theorem claims_isSome (h : ClaimedBy inp objs name cr role) (now : Nat) :
    ((claimsOf inp objs now).lookup name).isSome := by
  obtain ⟨c, hc, -⟩ := h.note now
  exact isSome_foldl (.inr ⟨c, hc⟩)

/-- The claim of a name is that of someone who claims it. -/
theorem claimedBy_of_claimsOf {c : Claim} (h : (claimsOf inp objs now).lookup name = some c) :
    ∃ cr, ClaimedBy inp objs name cr c.role ∧ c.owner = cr.owner :=
  claims_of_claimsOf h

end Claimed

theorem mem_labelNote {reason prop got want : String} {n p v r : String} :
    Note.act (.set n p v r) ∈ labelNote name reason prop got want ↔
      (n = name ∧ p = prop ∧ v = want ∧ r = reason) ∧ got = "" ∧ want ≠ "" := by
  unfold labelNote
  split_ifs with heq hne
  · subst heq
    constructor
    · nofun
    · rintro ⟨-, hgot, hwant⟩
      exact absurd hgot hwant
  · simp [hne]
  · have hgot : got = "" := not_not.mp hne
    have hwant : want ≠ "" := fun hwant => heq (hgot.trans hwant.symm)
    simp [hgot, hwant]

/-- The labels of a plan are those that a claimed object lacks. -/
theorem set_mem_actions {n p v r : String} : .set n p v r ∈ (audit inp objs now).actions ↔
    ∃ c, (claimsOf inp objs now).lookup n = some c ∧ r = c.reason ∧
      (p = propRole ∧ v = c.role ∧ ((byName objs n).getD {}).role = "" ∨
        p = propOwner ∧ v = c.owner ∧ ((byName objs n).getD {}).owner = "") ∧ v ≠ "" := by
  have hlabels : Note.act (.set n p v r) ∈ laterNotes inp objs (claimsOf inp objs now) ↔
      ∃ m ∈ (claimsOf inp objs now).sortedKeys,
        Note.act (.set n p v r) ∈ labelNotes objs (claimsOf inp objs now) m := by
    unfold laterNotes restoreNotes
    rw [List.mem_append, List.mem_append, List.mem_flatMap, List.mem_map]
    constructor
    · rintro ((⟨o, -, heq⟩ | h) | h)
      · unfold restoreNote at heq
        split_ifs at heq
        cases heq
      · exact h
      · obtain ⟨o, -, ho⟩ := List.mem_flatMap.mp h
        cases (orphanNotes_harmless _ ho).2
    · exact fun h => .inl (.inr h)
  rw [mem_actions, hlabels]
  constructor
  · rintro (h | ⟨m, -, hm⟩)
    · exact absurd rfl ((act_crNotes h).1 n p v r)
    · unfold labelNotes at hm
      split at hm
      · cases hm
      · next c hc =>
        dsimp only at hm
        rcases List.mem_append.mp hm with hm | hm
        · rcases List.mem_append.mp hm with hm | hm
          · obtain ⟨⟨rfl, rfl, rfl, rfl⟩, hgot, hwant⟩ := mem_labelNote.mp hm
            exact ⟨c, hc, rfl, .inl ⟨rfl, rfl, hgot⟩, hwant⟩
          · obtain ⟨⟨rfl, rfl, rfl, rfl⟩, hgot, hwant⟩ := mem_labelNote.mp hm
            exact ⟨c, hc, rfl, .inr ⟨rfl, rfl, hgot⟩, hwant⟩
        · split_ifs at hm <;> simp at hm
  · rintro ⟨c, hc, rfl, hlabel, hv⟩
    refine .inr ⟨n, by simp [hc], ?_⟩
    unfold labelNotes
    rw [hc]
    dsimp only
    refine List.mem_append_left _ (List.mem_append.mpr ?_)
    rcases hlabel with ⟨rfl, rfl, hgot⟩ | ⟨rfl, rfl, hgot⟩
    · exact .inl (mem_labelNote.mpr ⟨⟨rfl, rfl, rfl, rfl⟩, hgot, hv⟩)
    · exact .inr (mem_labelNote.mpr ⟨⟨rfl, rfl, rfl, rfl⟩, hgot, hv⟩)

/-- A dataset is claimed as a volume or a backing clone. -/
theorem ClaimedBy.role_of_plain (h : ClaimedBy inp objs name cr role) (hplain : Plain name) :
    role = roleVolume ∨ role = roleBacking := by
  cases h with
  | volume hd hpool hlisted hname => exact .inl rfl
  | backing hs hpool hlisted hname => exact .inr rfl
  | cloneOrigin hd hpool hlisted ho hname =>
    subst hname
    have hsnap := (mem_snapsByShort.mp ho).2.1
    rw [isSnapshot_of_plain hplain] at hsnap
    cases hsnap
  | @raw s pool o hs hpool ho hname =>
    subst hname
    have hsnap := (mem_snapsByShort.mp (List.mem_of_mem_head? (by rw [ho]; rfl))).2.1
    rw [isSnapshot_of_plain hplain] at hsnap
    cases hsnap

/-- Whether the migration owns the dataset of an old snapshot. -/
theorem owned_iff {o : Obj} : (((claimsOf inp objs now).lookup o.dataset).any fun c =>
      c.role = roleBacking || c.role = roleVolume) = true ↔
        ∃ cr role, ClaimedBy inp objs o.dataset cr role := by
  constructor
  · intro h
    obtain ⟨c, hc, -⟩ := (Option.any_eq_true _ _).mp h
    obtain ⟨cr, hcr, -⟩ := claimedBy_of_claimsOf hc
    exact ⟨cr, _, hcr⟩
  · rintro ⟨cr, role, h⟩
    obtain ⟨c, hc⟩ := Option.isSome_iff_exists.mp (claims_isSome h now)
    obtain ⟨cr', hcr', -⟩ := claimedBy_of_claimsOf hc
    rw [hc, Option.any_some]
    rcases hcr'.role_of_plain (plain_dataset o) with hrole | hrole <;> simp [hrole]

/-- A plan destroys the old snapshots that are not marked, on a dataset that is claimed. -/
theorem destroy_mem_actions {n : String} :
    (∃ r, .destroyDeferred n r ∈ (audit inp objs now).actions) ↔
    ∃ o ∈ snapsByShort objs restoreSourceSnapshot, o.name = n ∧ o.deferred = false ∧
      ∃ cr role, ClaimedBy inp objs o.dataset cr role := by
  constructor
  · rintro ⟨r, h⟩
    rcases mem_actions.mp h with h | h
    · exact absurd rfl ((act_crNotes h).2 n r)
    · unfold laterNotes at h
      rcases List.mem_append.mp h with h | h
      · rcases List.mem_append.mp h with h | h
        · obtain ⟨o, ho, heq⟩ := List.mem_map.mp h
          unfold restoreNote at heq
          split_ifs at heq with howned hdeferred
          cases heq
          exact ⟨o, ho, rfl, by simpa using hdeferred, owned_iff.mp howned⟩
        · obtain ⟨m, -, hm⟩ := List.mem_flatMap.mp h
          unfold labelNotes at hm
          split at hm
          · cases hm
          · dsimp only at hm
            rcases List.mem_append.mp hm with hm | hm
            · rcases List.mem_append.mp hm with hm | hm <;> cases labelNote_act hm
            · split_ifs at hm <;> simp at hm
      · obtain ⟨o, -, ho⟩ := List.mem_flatMap.mp h
        cases (orphanNotes_harmless _ ho).2
  · rintro ⟨o, ho, rfl, hdeferred, howned⟩
    refine ⟨"old restore-source snapshot",
      mem_actions.mpr (.inr (List.mem_append_left _ (List.mem_append_left _ ?_)))⟩
    refine List.mem_map.mpr ⟨o, ho, ?_⟩
    unfold restoreNote
    rw [if_pos (owned_iff.mpr howned), if_neg (by simp [hdeferred])]

/-! ## The plan -/

/-- The name is that of an object on a pool. -/
def OnPool (name pool : String) : Prop :=
  (split name).1 = pool ∨ Text.startsWith name (pool ++ "/") = true

instance (name pool : String) : Decidable (OnPool name pool) := inferInstanceAs (Decidable (_ ∨ _))

/-- The own value of a label. -/
def Entry.label (e : Entry) (prop : String) : String := if prop = propRole then e.role else e.owner

/-- Labels are given to what belongs to one object of the cluster and has none, and nothing that is
claimed as a snapshot is destroyed. -/
structure Rightful (w : Cluster) (plan : Plan) : Prop where
  labels : ∀ name prop value reason, .set name prop value reason ∈ plan.actions →
    ∃ cr role pool, ClaimedBy w.input w.objs name cr role ∧
      ((prop, value) = (propRole, role) ∨ (prop, value) = (propOwner, cr.owner)) ∧
      w.input.poolOf cr.poolGUID = some pool ∧ OnPool name pool ∧
      (∀ cr' role', ClaimedBy w.input w.objs name cr' role' → cr' = cr) ∧
      ∃ e, w.zfs.lookup name = some e ∧ e.label prop = ""
  destroyed : ∀ name reason, .destroyDeferred name reason ∈ plan.actions →
    ∀ cr, ¬ ClaimedBy w.input w.objs name cr roleRaw ∧
      ¬ ClaimedBy w.input w.objs name cr roleCloneOrigin

/-- The object lacks a label. -/
def Cluster.Bare (w : Cluster) (name : String) : Prop :=
  ∃ e, w.zfs.lookup name = some e ∧ (e.role = "" ∨ e.owner = "")

/-- What the names in a cluster have to be like. -/
structure Distinct (w : Cluster) : Prop where
  pool : ∀ name cr role pool, ClaimedBy w.input w.objs name cr role →
    role = roleRaw ∨ role = roleCloneOrigin →
    w.Bare name → w.input.poolOf cr.poolGUID = some pool → OnPool name pool
  single : ∀ name cr cr' role role', ClaimedBy w.input w.objs name cr role →
    ClaimedBy w.input w.objs name cr' role' →
    w.Bare name → cr' = cr
  restore : ∀ s o e, ClaimedBy w.input w.objs o.name (.snapshot s) roleRaw →
    o ∈ snapsByShort w.objs restoreSourceSnapshot → w.zfs.lookup o.name = some e →
      e.deferred = false →
    ∀ cr role, ¬ ClaimedBy w.input w.objs o.dataset cr role

section Rightful

variable {w : Cluster} {name role : String} {cr : Cr} {now : Nat}

/-- A volume and a backing clone are on the pool of who claims them. -/
theorem ClaimedBy.onPool (h : ClaimedBy w.input w.objs name cr role) (hrole : role ≠ roleRaw)
    (hrole' : role ≠ roleCloneOrigin)
    {pool : String} (hpool : w.input.poolOf cr.poolGUID = some pool) : OnPool name pool := by
  have hstarts (a b : String) : Text.startsWith (a ++ "/" ++ b) (a ++ "/") = true := by
    simp [Text.startsWith, List.isPrefixOf_iff_prefix]
  cases h with
  | @volume d pool' hd hpool' hlisted hname =>
    obtain rfl := Option.some_inj.mp (hpool'.symm.trans hpool)
    subst hname
    exact .inr (hstarts _ _)
  | @backing s pool' hs hpool' hlisted hname =>
    obtain rfl := Option.some_inj.mp (hpool'.symm.trans hpool)
    subst hname
    exact .inr (hstarts _ _)
  | cloneOrigin hd hpool' hlisted ho hname => exact absurd rfl hrole'
  | raw hs hpool' ho hname => exact absurd rfl hrole

theorem ClaimedBy.snapshot_of_raw {inp : Input} {objs : List Obj}
    (h : ClaimedBy inp objs name cr roleRaw) :
    ∃ s, cr = .snapshot s := by
  generalize hrole : roleRaw = role at h
  cases h with
  | volume hd hpool hlisted hname => exact absurd hrole (by decide)
  | cloneOrigin hd hpool hlisted ho hname => exact absurd hrole (by decide)
  | raw hs hpool ho hname => exact ⟨_, rfl⟩
  | backing hs hpool hlisted hname => exact ⟨_, rfl⟩

/-- A clone origin does not have the name of an old snapshot. -/
theorem ClaimedBy.ne_restoreSource {inp : Input} {objs : List Obj} {o : Obj}
    (h : ClaimedBy inp objs o.name cr roleCloneOrigin) : o.short ≠ restoreSourceSnapshot := by
  generalize hrole : roleCloneOrigin = role at h
  cases h with
  | volume hd hpool hlisted hname => exact absurd hrole (by decide)
  | raw hs hpool ho hname => exact absurd hrole (by decide)
  | backing hs hpool hlisted hname => exact absurd hrole (by decide)
  | @cloneOrigin d pool o' hd hpool hlisted ho' hname =>
    have hshort : o.short = "clone-" ++ d.name := by
      rw [← (mem_snapsByShort.mp ho').2.2, Obj.short, Obj.short, hname]
    rw [hshort]
    intro heq
    have hfirst := congrArg (fun s => s.toList.head?) heq
    simp [restoreSourceSnapshot] at hfirst

/-- What is claimed is in the pool and is shown to the audit as it is. -/
theorem ClaimedBy.entry (h : ClaimedBy w.input w.objs name cr role) :
    ∃ e, w.zfs.lookup name = some e ∧ byName w.objs name = some (e.obj name) := by
  obtain ⟨o, ho, rfl⟩ := h.listed
  obtain ⟨hn, e, he, heq⟩ := mem_listing.mp ho
  exact ⟨e, he, byName_listing.mpr ⟨heq ▸ ho, rfl⟩⟩

end Rightful

/-- The plan labels and destroys what it should just if the names in the cluster are distinct. -/
theorem rightful_iff (w : Cluster) (now : Nat) :
    (∃ plan, compute w.input w.list now = .ok plan ∧ Rightful w plan) ↔ Distinct w := by
  constructor
  · rintro ⟨plan, hplan, h⟩
    have heq : audit w.input w.objs now = plan := Except.ok.inj hplan
    subst heq
    -- a claimed object that lacks a label gets one
    have hbare : ∀ {name cr role}, ClaimedBy w.input w.objs name cr role → w.Bare name →
        (∀ pool, w.input.poolOf cr.poolGUID = some pool → OnPool name pool) ∧
          ∀ cr' role', ClaimedBy w.input w.objs name cr' role' → cr' = cr := by
      intro name cr role hclaimed ⟨e, he, hlacks⟩
      obtain ⟨c, hc⟩ := Option.isSome_iff_exists.mp (claims_isSome hclaimed now)
      obtain ⟨crc, hcrc, hcowner⟩ := claimedBy_of_claimsOf hc
      obtain ⟨e', he', hshown⟩ := hclaimed.entry
      obtain rfl := Option.some_inj.mp (he.symm.trans he')
      have hset : ∃ p v, .set name p v c.reason ∈ (audit w.input w.objs now).actions := by
        rcases hlacks with hlacks | hlacks
        · exact ⟨propRole, c.role,
            set_mem_actions.mpr ⟨c, hc, rfl, .inl ⟨rfl, rfl, by rw [hshown]; exact hlacks⟩,
            roles_ne_empty hcrc⟩⟩
        · exact ⟨propOwner, c.owner,
            set_mem_actions.mpr ⟨c, hc, rfl, .inr ⟨rfl, rfl, by rw [hshown]; exact hlacks⟩,
            hcowner ▸ owner_ne_empty crc⟩⟩
      obtain ⟨p, v, hset⟩ := hset
      obtain ⟨cr₀, role₀, pool₀, -, -, hpool₀, honpool, hsingle, -⟩ := h.labels _ _ _ _ hset
      obtain rfl := hsingle cr role hclaimed
      exact ⟨fun pool hpool => Option.some_inj.mp (hpool₀.symm.trans hpool) ▸ honpool, hsingle⟩
    refine ⟨fun name cr role pool hclaimed _ hlacks hpool => (hbare hclaimed hlacks).1 pool hpool,
      fun name cr cr' role role' hclaimed hclaimed' hlacks => (hbare hclaimed hlacks).2 cr' role'
        hclaimed', ?_⟩
    intro s o e hraw ho he hdeferred cr role hclaimed
    have hshown : o = e.obj o.name := by
      obtain ⟨-, e', he', heq⟩ := mem_listing.mp (mem_snapsByShort.mp ho).1
      obtain rfl := Option.some_inj.mp (he.symm.trans he')
      exact heq
    have hnot : o.deferred = false := by
      rw [hshown]
      exact hdeferred
    obtain ⟨r, hr⟩ : ∃ r, .destroyDeferred o.name r ∈ (audit w.input w.objs now).actions :=
      destroy_mem_actions.mpr ⟨o, ho, rfl, hnot, cr, role, hclaimed⟩
    exact (h.destroyed _ r hr _).1 hraw
  · intro h
    refine ⟨audit w.input w.objs now, rfl, fun name p v r hset => ?_, fun name r hdestroy cr => ?_⟩
    · obtain ⟨c, hc, -, hlabel, -⟩ := set_mem_actions.mp hset
      obtain ⟨cr, hclaimed, howner⟩ := claimedBy_of_claimsOf hc
      obtain ⟨e, he, hshown⟩ := hclaimed.entry
      obtain ⟨pool, hpool⟩ := hclaimed.pool
      rw [hshown] at hlabel
      have hlacks : w.Bare name := by
        rcases hlabel with ⟨-, -, hgot⟩ | ⟨-, -, hgot⟩
        · exact ⟨e, he, .inl hgot⟩
        · exact ⟨e, he, .inr hgot⟩
      have honpool : OnPool name pool := by
        by_cases hrole : c.role = roleRaw ∨ c.role = roleCloneOrigin
        · exact h.pool _ _ _ _ hclaimed hrole hlacks hpool
        · rw [not_or] at hrole
          exact hclaimed.onPool hrole.1 hrole.2 hpool
      refine ⟨cr, c.role, pool, hclaimed, ?_, hpool, honpool,
        fun cr' role' hclaimed' => h.single _ _ _ _ _ hclaimed hclaimed' hlacks,
        e, he, ?_⟩
      · rcases hlabel with ⟨rfl, rfl, -⟩ | ⟨rfl, rfl, -⟩
        · exact .inl rfl
        · exact .inr (by rw [howner])
      · rcases hlabel with ⟨rfl, -, hgot⟩ | ⟨rfl, -, hgot⟩
        · exact hgot
        · exact hgot
    · obtain ⟨o, ho, rfl, hdeferred, cr', role', hclaimed'⟩ := destroy_mem_actions.mp ⟨r, hdestroy⟩
      obtain ⟨hlisted, -, hshort⟩ := mem_snapsByShort.mp ho
      obtain ⟨-, e, he, heq⟩ := mem_listing.mp hlisted
      constructor
      · intro hraw
        have hnot : e.deferred = false := by
          rw [heq] at hdeferred
          exact hdeferred
        obtain ⟨s, rfl⟩ := hraw.snapshot_of_raw
        exact h.restore s o e hraw ho he hnot cr' role' hclaimed'
      · exact fun horigin => horigin.ne_restoreSource hshort

/-- Two pools: the volume of the snapshot is on `tank`, and only `dozer` has a snapshot of
its name. -/
def twoPools : Cluster where
  pools := FinMap.ofList [("1", "tank"), ("2", "dozer")]
  datasets := [{
    metadata := { name := "pvc-1", uid := 1 }
    spec := { poolGUID := "1", dataset := "k8s/pvc-1" }
    status := {} }, {
    metadata := { name := "pvc-2", uid := 2 }
    spec := { poolGUID := "2", dataset := "k8s/pvc-2" }
    status := {} }]
  snapshots := [{
    metadata := { name := "snap-1", uid := 3 }
    spec := {
      poolGUID := "1"
      dataset := "k8s/pvc-1"
      snapshotName := "daily"
      sourceVolume := "pvc-1"
      sourceType := some .filesystem }
    status := {} }]
  lastTransition _ := none
  zfs :=
    FinMap.ofList [("tank/k8s", {}), ("tank/k8s/pvc-1", {}), ("dozer/k8s", {}),
    ("dozer/k8s/pvc-2", {}), ("dozer/k8s/pvc-2@daily", {})]
  busy _ := false

/-- The snapshot on `dozer` is labelled as that of the one on `tank`, and nothing is reported. -/
theorem other_pool_labelled :
    compute twoPools.input twoPools.list 0 = .ok (audit twoPools.input twoPools.objs 0) ∧
    .set "dozer/k8s/pvc-2@daily" propOwner "3" "raw snapshot of ZfsSnapshot snap-1" ∈
      (audit twoPools.input twoPools.objs 0).actions ∧
    (audit twoPools.input twoPools.objs 0).blockers = [] ∧
    ¬ Rightful twoPools (audit twoPools.input twoPools.objs 0) := by
  have hset : .set "dozer/k8s/pvc-2@daily" propOwner "3" "raw snapshot of ZfsSnapshot snap-1" ∈
      (audit twoPools.input twoPools.objs 0).actions := by decide +kernel
  refine ⟨rfl, hset, by decide +kernel, fun h => ?_⟩
  obtain ⟨cr, role, pool, hclaimed, hvalue, hpool, honpool, -⟩ := h.labels _ _ _ _ hset
  have howner : cr.owner = "3" := by
    rcases hvalue with hvalue | hvalue
    · have hprop : propOwner = propRole := congrArg Prod.fst hvalue
      exact absurd hprop (by decide)
    · exact (congrArg Prod.snd hvalue).symm
  have hdatasets : ∀ d ∈ twoPools.datasets, uidText d ≠ "3" := by decide +kernel
  have hguid : cr.poolGUID = "1" := by
    have hsnapshots : ∀ s ∈ twoPools.snapshots, s.spec.poolGUID = "1" := by decide +kernel
    cases hclaimed with
    | volume hd => exact absurd howner (hdatasets _ hd)
    | cloneOrigin hd => exact absurd howner (hdatasets _ hd)
    | raw hs => exact hsnapshots _ hs
    | backing hs => exact hsnapshots _ hs
  have htank : twoPools.input.poolOf "1" = some "tank" := by decide +kernel
  rw [hguid, htank] at hpool
  obtain rfl := Option.some_inj.mp hpool
  revert honpool
  decide +kernel

end SimpleZfsCsi.Migrate
