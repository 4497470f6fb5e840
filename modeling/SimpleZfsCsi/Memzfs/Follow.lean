import SimpleZfsCsi.Memzfs.Lineage

/-!
# Following a snapshot

A dataset `b` that was cloned from a snapshot and takes none of its own points at that snapshot
for as long as both exist: the snapshot is its origin, or has been handed to it by a promote.
What `b` owns then is not younger, so a promote takes the snapshot away from `b` with a clone of
it only, unless another snapshot is of the same transaction group.
-/

namespace SimpleZfsCsi.Memzfs

open Library

/-! ## Calls that move nothing -/

/-- Snapshots may go, but none is new, and datasets keep their origins. -/
structure Quiet (m m' : Mem) : Prop where
  origin : ∀ e E E', m.ds.lookup e = some E → m'.ds.lookup e = some E' → E'.origin = E.origin
  snaps : ∀ d k τ, m'.lookupSnap d k = some τ → ∃ σ, m.lookupSnap d k = some σ ∧ σ.txg = τ.txg

section Quiet

variable {m m' m'' : Mem}

theorem Quiet.refl (m : Mem) : Quiet m m where
  origin e E E' hE hE' := by rw [Option.some.inj (hE.symm.trans hE')]
  snaps d k τ hτ := ⟨τ, hτ, rfl⟩

/-- A dataset that was not there is new. -/
theorem Quiet.trans (h : Quiet m m') (h' : Quiet m' m'')
    (hkeys : ∀ e, (m''.ds.lookup e).isSome → (m'.ds.lookup e).isSome) :
    Quiet m m'' where
  origin e E E'' hE hE'' := by
    obtain ⟨E', hE'⟩ := Option.isSome_iff_exists.mp (hkeys e (by simp [hE'']))
    rw [h'.origin e E' E'' hE' hE'', h.origin e E E' hE hE']
  snaps d k τ hτ := by
    obtain ⟨σ', hσ', htxg'⟩ := h'.snaps d k τ hτ
    obtain ⟨σ, hσ, htxg⟩ := h.snaps d k σ' hσ'
    exact ⟨σ, hσ, htxg.trans htxg'⟩

/-- A change of one dataset that keeps its origin and brings no snapshot. -/
theorem quiet_modify {d : String} {f : Dataset → Dataset} {txg : Nat}
    (horigin : ∀ D, (f D).origin = D.origin)
    (hsnaps : ∀ D, m.ds.lookup d = some D → ∀ k τ, (f D).snaps.lookup k = some τ →
      ∃ σ, D.snaps.lookup k = some σ ∧ σ.txg = τ.txg) :
    Quiet m { ds := m.ds.modify d f, txg } where
  origin e E E' hE hE' := by
    simp only [FinMap.lookup_modify, hE, Option.map_some, Option.some.injEq] at hE'
    subst hE'
    split_ifs
    · exact horigin E
    · rfl
  snaps e k τ hτ := by
    obtain ⟨E', hE', hk⟩ := lookup_of_lookupSnap hτ
    obtain ⟨E, hE, heq⟩ := Option.map_eq_some_iff.mp hE'
    simp only [Mem.lookupSnap, hE, Option.bind_some]
    dsimp only at heq
    split_ifs at heq with he
    · subst he heq
      exact hsnaps E hE k τ hk
    · subst heq
      exact ⟨τ, hk, rfl⟩

theorem quiet_erase {d n : String} :
    Quiet m { m with ds := m.ds.modify d fun D => { D with snaps := D.snaps.erase n } } := by
  refine quiet_modify (fun _ => rfl) fun D _ k τ hτ => ?_
  rw [FinMap.lookup_erase] at hτ
  split_ifs at hτ
  exact ⟨τ, hτ, rfl⟩

/-- A dataset is new, and has no snapshots. -/
theorem quiet_add {name : String} {D : Dataset} (hnew : m.ds.lookup name = none)
    (hD : D.snaps = FinMap.empty)
    (hlookup : ∀ x, m'.ds.lookup x = if x = name then some D else m.ds.lookup x) : Quiet m m' where
  origin e E E' hE hE' := by
    have he : e ≠ name := by
      rintro rfl
      rw [hnew] at hE
      cases hE
    rw [hlookup, if_neg he] at hE'
    rw [Option.some.inj (hE.symm.trans hE')]
  snaps e k τ hτ := by
    rw [Mem.lookupSnap, hlookup] at hτ
    by_cases he : e = name
    · simp [he, hD] at hτ
    · rw [if_neg he] at hτ
      exact ⟨τ, hτ, rfl⟩

theorem quiet_create (m : Mem) (name : String) (kind : DatasetKind) (size : Int)
    (props : FinMap String String) :
    Quiet m (m.create name kind size props).2 := by
  cases hresult : (m.create name kind size props).1 with
  | error err =>
    rw [create_error hresult]
    exact .refl m
  | ok _ =>
    obtain ⟨hnone, _, heq⟩ := create_ok hresult
    rw [heq]
    exact quiet_add hnone rfl fun x => FinMap.lookup_insert ..

/-- A clone call changes nothing, because it fails or the destination exists, or adds the clone. -/
theorem clone_adds (m : Mem) (snap dest : String) (props : FinMap String String) :
    ((m.clone snap dest props).2 = m ∧
      ((m.clone snap dest props).1 = .ok () → (m.ds.lookup dest).isSome)) ∨
    (m.ds.lookup dest = none ∧ ∃ D : Dataset, D.origin = snap ∧ D.snaps = FinMap.empty ∧
      ∀ x, (m.clone snap dest props).2.ds.lookup x = if x = dest then some D else
        m.ds.lookup x) := by
  unfold Mem.clone
  simp only
  split
  · exact .inl ⟨rfl, by rintro ⟨⟩⟩
  split
  · exact .inl ⟨rfl, by rintro ⟨⟩⟩
  rename_i src hsrc
  split_ifs with hnone hexists
  · exact .inl ⟨rfl, by rintro ⟨⟩⟩
  · exact .inl ⟨rfl, fun _ => hexists⟩
  cases hresult : (m.create dest src.kind src.volsize props).1 with
  | error err =>
    rw [← Prod.eta (m.create dest src.kind src.volsize props), hresult]
    exact .inl ⟨create_error hresult, by rintro ⟨⟩⟩
  | ok _ =>
    obtain ⟨hnone, _, heq⟩ := create_ok hresult
    rw [← Prod.eta (m.create dest src.kind src.volsize props), hresult]
    simp only [heq]
    refine .inr
      ⟨hnone, { name := dest, kind := src.kind, props, volsize := src.volsize, origin := snap },
      rfl, rfl, ?_⟩
    intro x
    by_cases hx : x = dest <;> simp [hx]

theorem quiet_clone (m : Mem) (snap dest : String) (props : FinMap String String) :
    Quiet m (m.clone snap dest props).2 := by
  rcases clone_adds m snap dest props with ⟨hm, _⟩ | ⟨hnone, D, _, hD, hlookup⟩
  · rw [hm]
    exact .refl m
  · exact quiet_add hnone hD hlookup

theorem quiet_dropIfDone (m : Mem) (full : String) : Quiet m (m.dropIfDone full) ∧
    ∀ e, ((m.dropIfDone full).ds.lookup e).isSome → (m.ds.lookup e).isSome := by
  unfold Mem.dropIfDone
  simp only
  split
  · split
    · exact ⟨.refl m, fun _ => id⟩
    · split
      · exact ⟨quiet_erase, by simp⟩
      · exact ⟨.refl m, fun _ => id⟩
  · exact ⟨.refl m, fun _ => id⟩

theorem quiet_dropAllDone (origins : List String) (m : Mem) :
    Quiet m (origins.foldl Mem.dropIfDone m) ∧
    ∀ e, ((origins.foldl Mem.dropIfDone m).ds.lookup e).isSome → (m.ds.lookup e).isSome := by
  induction origins generalizing m with
  | nil => exact ⟨.refl m, fun _ => id⟩
  | cons o origins ih =>
    obtain ⟨hquiet, hkeys⟩ := quiet_dropIfDone m o
    obtain ⟨hrest, hkeys'⟩ := ih (m.dropIfDone o)
    exact ⟨hquiet.trans hrest hkeys', fun e he => hkeys e (hkeys' e he)⟩

theorem quiet_destroy (m : Mem) (name : String) (recursive : Bool) :
    Quiet m (m.destroy name recursive).2 := by
  unfold Mem.destroy
  simp only
  split
  · split
    · exact .refl m
    · split
      · exact .refl m
      · exact quiet_erase
  · split
    · exact .refl m
    split_ifs
    · exact .refl m
    · exact .refl m
    have hgone : ∀ tree :
        List String, Quiet m { m with ds := m.ds.filterKeys fun n => n ∉ tree } := by
      intro tree
      refine ⟨fun e E E' hE hE' => ?_, fun d k τ hτ => ?_⟩
      · simp only [FinMap.lookup_filterKeys, hE] at hE'
        split_ifs at hE'
        rw [Option.some.inj hE']
      · simp only [Mem.lookupSnap, FinMap.lookup_filterKeys] at hτ
        split_ifs at hτ
        · exact ⟨τ, hτ, rfl⟩
        · cases hτ
    obtain ⟨hdone, hkeys⟩ := quiet_dropAllDone _ _
    exact (hgone _).trans hdone hkeys

theorem quiet_destroySnapshotDeferred (m : Mem) (name : String) :
    Quiet m (m.destroySnapshotDeferred name).2 := by
  unfold Mem.destroySnapshotDeferred
  simp only
  split
  · exact .refl m
  cases hσ : m.lookupSnap (split name).1 (split name).2.1 with
  | none => exact .refl m
  | some σ =>
    simp only
    split
    · exact quiet_erase
    · refine quiet_modify (fun _ => rfl) fun D hD k τ hτ => ?_
      rw [FinMap.lookup_insert] at hτ
      split_ifs at hτ with hk
      · obtain rfl := Option.some.inj hτ
        exact ⟨σ, by simpa [Mem.lookupSnap, hD, hk] using hσ, rfl⟩
      · exact ⟨τ, hτ, rfl⟩

theorem quiet_setProperty (m : Mem) (name prop value : String) :
    Quiet m (m.setProperty name prop value).2 := by
  unfold Mem.setProperty
  simp only
  split
  · exact .refl m
  split_ifs
  · exact .refl m
  · exact .refl m
  · exact .refl m
  · refine quiet_modify (fun _ => rfl) fun D _ k τ hτ => ?_
    obtain ⟨σ, hσ, rfl⟩ := Option.map_eq_some_iff.mp hτ
    refine ⟨σ, hσ, ?_⟩
    dsimp only
    split_ifs <;> rfl
  · exact .refl m
  · exact quiet_modify (fun _ => rfl) fun D _ k τ hτ => ⟨τ, hτ, rfl⟩
  · exact quiet_modify (fun _ => rfl) fun D _ k τ hτ => ⟨τ, hτ, rfl⟩

/-- Every call but two moves nothing. -/
theorem quiet_apply (m : Mem) (c : MachineCall) (hsnapshot : ∀ names, c ≠ .snapshot names)
    (hpromote : ∀ name, c ≠ .promote name) : Quiet m (c.apply m).2 := by
  cases c with
  | createDataset name props => exact quiet_create ..
  | createZvol name size props =>
    unfold MachineCall.apply Mem.createZvol
    simp only
    split_ifs
    · exact .refl m
    · exact quiet_create ..
  | snapshot names => exact absurd rfl (hsnapshot names)
  | clone snap dest props => exact quiet_clone ..
  | promote name => exact absurd rfl (hpromote name)
  | destroy name recursive => exact quiet_destroy ..
  | destroySnapshotDeferred name => exact quiet_destroySnapshotDeferred ..
  | setProperty name prop value => exact quiet_setProperty ..
  | inject i => exact .refl m
  | busyAfterZvolCreate n => exact .refl m

end Quiet

/-! ## The snapshot and the dataset -/

/-- The only snapshot named `s`, if there is one, is the origin of `b`, or is the youngest
of `b`. -/
def Follows (b s : String) (m : Mem) : Prop :=
  ∀ d σ, m.lookupSnap d s = some σ → (∀ d' σ', m.lookupSnap d' s = some σ' → d' = d) ∧
    ∃ D, m.ds.lookup b = some D ∧
      ((D.origin = snapPath d s ∧ ∀ k τ, m.lookupSnap b k ≠ some τ) ∨
        (d = b ∧ ∀ k τ, m.lookupSnap b k = some τ → τ.txg ≤ σ.txg))

section Follows

variable {b s c p n : String} {m m' : Mem} {o : Snapshot}

/-- What a call may not do to `b` and to `s`. -/
structure Spares (b s : String) (m m' : Mem) : Prop where
  lives : (m'.ds.lookup b).isSome
  origin : ∀ D D', m.ds.lookup b = some D → m'.ds.lookup b = some D' → D'.origin = D.origin
  named : ∀ d τ, m'.lookupSnap d s = some τ → ∃ σ, m.lookupSnap d s = some σ ∧ σ.txg = τ.txg
  owned : ∀ k τ, m'.lookupSnap b k = some τ → ∃ σ, m.lookupSnap b k = some σ ∧ σ.txg = τ.txg

theorem Quiet.spares (h : Quiet m m') (hlives : (m'.ds.lookup b).isSome) : Spares b s m m' :=
  ⟨hlives, h.origin b, fun d => h.snaps d s, fun k => h.snaps b k⟩

theorem Follows.spared (h : Follows b s m) (hspares : Spares b s m m') : Follows b s m' := by
  intro d τ hτ
  obtain ⟨σ, hσ, htxg⟩ := hspares.named d τ hτ
  obtain ⟨hunique, D, hD, hcase⟩ := h d σ hσ
  obtain ⟨D', hD'⟩ := Option.isSome_iff_exists.mp hspares.lives
  refine ⟨fun d' τ' hτ' => ?_, D', hD', ?_⟩
  · obtain ⟨σ', hσ', _⟩ := hspares.named d' τ' hτ'
    exact hunique d' σ' hσ'
  · rcases hcase with ⟨horigin, hnone⟩ | ⟨rfl, hold⟩
    · refine .inl ⟨(hspares.origin D D' hD hD').trans horigin, fun k υ hυ => ?_⟩
      obtain ⟨υ', hυ', _⟩ := hspares.owned k υ hυ
      exact hnone k υ' hυ'
    · refine .inr ⟨rfl, fun k υ hυ => ?_⟩
      obtain ⟨υ', hυ', htxg'⟩ := hspares.owned k υ hυ
      have hle := hold k υ' hυ'
      omega

/-- The promote of a clone of another snapshot of `b`, taken with `s`. -/
def TakesAlong (b s : String) (m : Mem) (c : String) : Prop :=
  ∃ C n σ τ, m.ds.lookup c = some C ∧ C.origin = snapPath b n ∧ n ≠ s ∧ m.lookupSnap b s = some σ ∧
    m.lookupSnap b n = some τ ∧ τ.txg = σ.txg

theorem Follows.promoted (h : Follows b s m) (hs : Sound m []) (hp : Promoted m m' c p n o)
    (happart : ¬ TakesAlong b s m c) : Follows b s m' := by
  intro d' σ hσ'
  have hsymm := hp.symm hs
  have hs' := hs.promoted hp
  -- where the snapshot was
  have hσ := hsymm.snap_kept hσ'
  have hd' := hsymm.handed_back hs' hσ'
  generalize handed p c o d' σ = d at hσ hd'
  obtain ⟨hunique, D, hD, hcase⟩ := h d σ hσ
  obtain ⟨C, hC, hpn⟩ := hp.origin
  obtain ⟨P, hP, _⟩ := lookup_of_lookupSnap hp.snap
  obtain ⟨C', hC', _⟩ := hp.lookup_of hC
  obtain ⟨P', hP', _⟩ := hp.lookup_of hP
  obtain ⟨_, hPorigin⟩ := hp.swapped P hP C' P' hC' hP'
  obtain ⟨D', hD', _⟩ := hp.lookup_of hD
  refine ⟨fun e τ hτ' => ?_, D', hD', ?_⟩
  · have hτ := hsymm.snap_kept hτ'
    have he := hunique _ τ hτ
    rw [← hsymm.handed_back hs' hτ', he, ← hd']
    rw [he, hσ] at hτ
    rw [Option.some.inj hτ]
  rcases hcase with ⟨horigin, hnone⟩ | ⟨rfl, hold⟩
  · by_cases hbc : b = c
    · -- `b` itself is promoted, and the snapshot is handed to it
      subst hbc
      obtain rfl := Option.some.inj (hC.symm.trans hD)
      obtain ⟨rfl, rfl⟩ := snapPath_inj (hs.plain hP) (hs.plain_of_snap hσ) (hpn.symm.trans horigin)
      obtain rfl := Option.some.inj (hp.snap.symm.trans hσ)
      rw [handed, if_pos ⟨rfl, Nat.le_refl _⟩] at hd'
      refine .inr ⟨hd'.symm, fun k τ hτ => ?_⟩
      rcases hp.snap_cases hτ with ⟨_, _, hle⟩ | ⟨hτ, _⟩
      · exact hle
      · exact absurd hτ (hnone k τ)
    · have hbp : b ≠ p := by
        rintro rfl
        exact hnone n o hp.snap
      obtain ⟨X', hX', horigin'⟩ := hp.clone_kept hs hσ hD horigin
      rw [Equiv.swap_apply_of_ne_of_ne hbc hbp, hD'] at hX'
      obtain rfl := Option.some.inj hX'
      refine .inl ⟨by rw [horigin', hd'], fun k τ hτ => ?_⟩
      rcases hp.snap_cases hτ with ⟨hbc', _⟩ | ⟨hτ, _⟩
      · exact hbc hbc'
      · exact hnone k τ hτ
  · by_cases hdp : d = p
    · subst hdp
      by_cases hns : n = s
      · -- the snapshot goes with a clone of it, and nothing is left
        subst hns
        obtain rfl := Option.some.inj (hp.snap.symm.trans hσ)
        obtain rfl := Option.some.inj (hP'.symm.trans hD')
        rw [handed, if_pos ⟨rfl, Nat.le_refl _⟩] at hd'
        refine .inl ⟨by rw [hPorigin, hd'], fun k τ hτ => ?_⟩
        rcases hp.snap_cases hτ with ⟨hdc, _⟩ | ⟨hτ, hlt⟩
        · exact hp.ne hdc.symm
        · have hle := hold k τ hτ
          have hlt := hlt rfl
          omega
      · have hne : o.txg ≠ σ.txg :=
          fun htxg => happart ⟨C, n, σ, o, hC, hpn, hns, hσ, hp.snap, htxg⟩
        have hle := hold n o hp.snap
        rw [handed, if_neg (by omega)] at hd'
        refine .inr ⟨hd'.symm, fun k τ hτ => ?_⟩
        rcases hp.snap_cases hτ with ⟨hdc, _⟩ | ⟨hτ, _⟩
        · exact absurd hdc.symm hp.ne
        · exact hold k τ hτ
    · rw [handed, if_neg (fun hup => hdp hup.1)] at hd'
      refine .inr ⟨hd'.symm, fun k τ hτ => ?_⟩
      rcases hp.snap_cases hτ with ⟨rfl, _, hle⟩ | ⟨hτ, _⟩
      · have hyounger := hp.younger hs hσ
        omega
      · exact hold k τ hτ

/-! ## Whole runs -/

/-- No snapshot is taken under a name with another `@`. -/
def MachineCall.Short : MachineCall → Prop
  | .snapshot names => ∀ n ∈ names, Plain (split n).2.1
  | _ => True

/-- One call of a run that `s` is followed through. -/
structure Careful (b s : String) (a : Machine) (c : MachineCall) : Prop where
  proper : c.Proper
  short : c.Short
  lives : ((a.call c).2.mem.ds.lookup b).isSome
  /-- no snapshot of `b` is taken, and none named `s` -/
  snapshot : ∀ names, c = .snapshot names →
    (∀ k, (a.call c).2.mem.lookupSnap b k = a.mem.lookupSnap b k) ∧
    ∀ d, (a.call c).2.mem.lookupSnap d s = a.mem.lookupSnap d s

/-- Every call of a run satisfies `P`, in the state that it is made in. -/
def EveryCall (P : Machine → MachineCall → Prop) : Machine → List MachineCall → Prop
  | _, [] => True
  | a, c :: calls => P a c ∧ EveryCall P (a.call c).2 calls

/-- The promote of a call takes nothing along. -/
def Apart (b s : String) (a : Machine) (c : MachineCall) : Prop :=
  ∀ name, c = .promote name → ¬ TakesAlong b s a.mem name

/-- A snapshot call took all that it names, or nothing. -/
theorem snapshot_cases (m : Mem) (names : List String) : (m.snapshot names).2 = m ∨
    m.snapshot names =
      (.ok (), { ds := names.foldl (Mem.addSnap (m.txg + 1)) m.ds, txg := m.txg + 1 }) := by
  unfold Mem.snapshot
  split_ifs
  · exact .inl rfl
  split
  · exact .inl rfl
  split
  · exact .inl rfl
  simp only
  split_ifs
  · exact .inl rfl
  · exact .inl rfl
  · exact .inr rfl

theorem origin_snapshot (m : Mem) (names : List String) {e : String} {E E' : Dataset}
    (hE : m.ds.lookup e = some E)
    (hE' : (m.snapshot names).2.ds.lookup e = some E') : E'.origin = E.origin := by
  rcases snapshot_cases m names with hm | hm
  · rw [hm, hE] at hE'
    rw [Option.some.inj hE']
  · rw [hm] at hE'
    obtain ⟨E₁, hE₁, hsame, _⟩ := (lookup_foldl_addSnap (m.txg + 1) names m.ds e).2 E hE
    obtain rfl := Option.some.inj (hE₁.symm.trans hE')
    exact congrArg Prod.snd hsame

/-- A call changes nothing, promotes, takes snapshots, or moves nothing. -/
theorem call_cases {a : Machine} (hs : Sound a.mem []) (call : MachineCall) :
    (a.call call).2.mem = a.mem ∨
    (∃ c p n o, call = .promote c ∧ Promoted a.mem (a.call call).2.mem c p n o) ∨
    (∃ names, call = .snapshot names ∧ (a.call call).2.mem = (a.mem.snapshot names).2) ∨
    Quiet a.mem (a.call call).2.mem := by
  rcases answered_call a call with ⟨err, hr⟩ | hr
  · exact .inl (congrArg Prod.snd hr)
  have hmem : (a.call call).2.mem = (call.apply a.mem).2 := congrArg Prod.snd hr
  rw [hmem]
  by_cases hpromote : ∃ c, call = .promote c
  · obtain ⟨c, rfl⟩ := hpromote
    rcases hs.promote_cases c with ⟨r, hr⟩ | ⟨p, n, o, _, hpromoted⟩
    · exact .inl (congrArg Prod.snd hr)
    · exact .inr (.inl ⟨c, p, n, o, rfl, hpromoted⟩)
  by_cases hsnapshot : ∃ names, call = .snapshot names
  · obtain ⟨names, rfl⟩ := hsnapshot
    exact .inr (.inr (.inl ⟨names, rfl, rfl⟩))
  · exact .inr
      (.inr
      (.inr (quiet_apply a.mem call (fun names h => hsnapshot ⟨names, h⟩) fun c
      h => hpromote ⟨c, h⟩)))

theorem Follows.call {a : Machine} {call : MachineCall} (h : Follows b s a.mem)
    (hs : Sound a.mem [])
    (hcareful : Careful b s a call) (happart : Apart b s a call) :
    Follows b s (a.call call).2.mem := by
  rcases call_cases hs call with hmem | ⟨c, p, n, o, rfl, hpromoted⟩ | ⟨names, rfl, hmem⟩ | hquiet
  · rwa [hmem]
  · exact h.promoted hs hpromoted (happart c rfl)
  · obtain ⟨howned, hnamed⟩ := hcareful.snapshot names rfl
    refine h.spared ⟨hcareful.lives, fun D D' hD hD' => ?_, fun d τ hτ => ?_, fun k τ hτ => ?_⟩
    · rw [hmem] at hD'
      exact origin_snapshot a.mem names hD hD'
    · exact ⟨τ, by rwa [hnamed] at hτ, rfl⟩
    · exact ⟨τ, by rwa [howned] at hτ, rfl⟩
  · exact h.spared (hquiet.spares hcareful.lives)

/-- A snapshot that is there after a snapshot call was there, or is among those that were taken. -/
theorem snapshot_lookupSnap {names : List String} {d k : String} {τ : Snapshot}
    (hτ : (m.snapshot names).2.lookupSnap d k = some τ) :
    m.lookupSnap d k = some τ ∨ ∃ name ∈ names, (split name).1 = d ∧ (split name).2.1 = k := by
  rcases snapshot_cases m names with hm | hm
  · exact .inl (by rwa [hm] at hτ)
  · rw [hm] at hτ
    obtain ⟨D', hD', hk⟩ := lookup_of_lookupSnap hτ
    obtain ⟨hnone, hsome⟩ := lookup_foldl_addSnap (m.txg + 1) names m.ds d
    cases hD : m.ds.lookup d with
    | none =>
      rw [hnone hD] at hD'
      cases hD'
    | some D =>
      obtain ⟨D₁, hD₁, _, hsnaps⟩ := hsome D hD
      obtain rfl := Option.some.inj (hD₁.symm.trans hD')
      rw [hsnaps] at hk
      split_ifs at hk with hname
      · exact .inr hname
      · exact .inl (by simpa [Mem.lookupSnap, hD] using hk)

/-- No short name has an `@`. -/
def Short (m : Mem) : Prop := ∀ d k σ, m.lookupSnap d k = some σ → Plain k

theorem Short.call {a : Machine} {call : MachineCall} (h : Short a.mem) (hs : Sound a.mem [])
    (hcall : call.Short) :
    Short (a.call call).2.mem := by
  intro d k τ hτ
  rcases call_cases hs call with hmem | ⟨c, p, n, o, rfl, hpromoted⟩ | ⟨names, rfl, hmem⟩ | hquiet
  · exact h d k τ (by rwa [hmem] at hτ)
  · rcases hpromoted.snap_cases hτ with ⟨_, hτ, _⟩ | ⟨hτ, _⟩
    · exact h p k τ hτ
    · exact h d k τ hτ
  · rw [hmem] at hτ
    rcases snapshot_lookupSnap hτ with hτ | ⟨name, hname, _, rfl⟩
    · exact h d k τ hτ
    · exact hcall name hname
  · obtain ⟨σ, hσ, _⟩ := hquiet.snaps d k τ hτ
    exact h d k σ hσ

theorem Short.run {a : Machine} {calls : List MachineCall} (h : Short a.mem) (hs : Sound a.mem [])
    (hcalls : ∀ c ∈ calls, c.Proper ∧ c.Short) : Short (a.run calls).mem := by
  induction calls generalizing a with
  | nil => exact h
  | cons c calls ih =>
    obtain ⟨⟨hproper, hshort⟩, hcalls⟩ := List.forall_mem_cons.mp hcalls
    exact ih (h.call hs hshort) ((behaves_call hproper).sound hs) hcalls

/-- The snapshots named `s` are of the transaction group `t`. -/
def TakenIn (s : String) (t : Nat) (m : Mem) : Prop := ∀ d σ, m.lookupSnap d s = some σ → σ.txg = t

theorem TakenIn.call {a : Machine} {call : MachineCall} {t : Nat} (h : TakenIn s t a.mem)
    (hs : Sound a.mem [])
    (hcareful : Careful b s a call) : TakenIn s t (a.call call).2.mem := by
  intro d τ hτ
  rcases call_cases hs call with hmem | ⟨c, p, n, o, rfl, hpromoted⟩ | ⟨names, rfl, hmem⟩ | hquiet
  · exact h d τ (by rwa [hmem] at hτ)
  · rcases hpromoted.snap_cases hτ with ⟨_, hτ, _⟩ | ⟨hτ, _⟩
    · exact h p τ hτ
    · exact h d τ hτ
  · rw [(hcareful.snapshot names rfl).2] at hτ
    exact h d τ hτ
  · obtain ⟨σ, hσ, htxg⟩ := hquiet.snaps d s τ hτ
    exact htxg ▸ h d σ hσ

/-- What holds from the moment on that `b` is cloned. -/
structure Followed (b s : String) (t : Nat) (m : Mem) : Prop where
  sound : Sound m []
  short : Short m
  follows : Follows b s m
  taken : TakenIn s t m

theorem Followed.run {a : Machine} {calls : List MachineCall} {t : Nat} (h : Followed b s t a.mem)
    (hcareful : EveryCall (Careful b s) a calls) (happart : EveryCall (Apart b s) a calls) :
    Followed b s t (a.run calls).mem := by
  induction calls generalizing a with
  | nil => exact h
  | cons c calls ih =>
    refine ih ⟨?_, ?_, ?_, ?_⟩ hcareful.2 happart.2
    · exact (behaves_call hcareful.1.proper).sound h.sound
    · exact h.short.call h.sound hcareful.1.short
    · exact h.follows.call h.sound hcareful.1 happart.1
    · exact h.taken.call h.sound hcareful.1

/-- `b` is new, and is cloned from the only snapshot named `s`. -/
structure Branches (a : Machine) (x s b : String) (props : FinMap String String)
    (σ : Snapshot) : Prop where
  snap : a.mem.lookupSnap x s = some σ
  only : ∀ d τ, a.mem.lookupSnap d s = some τ → d = x
  fresh : a.mem.ds.lookup b = none
  plain : Plain b
  ok : (a.call (.clone (snapPath x s) b props)).1 = .ok ()

theorem Branches.followed {a : Machine} {x : String} {props : FinMap String String} {σ : Snapshot}
    (h : Branches a x s b props σ) (hs : Sound a.mem []) (hshort : Short a.mem) :
    Followed b s σ.txg (a.call (.clone (snapPath x s) b props)).2.mem := by
  have hmem : (a.call (.clone (snapPath x s) b props)).2.mem =
      (a.mem.clone (snapPath x s) b props).2 ∧
      (a.mem.clone (snapPath x s) b props).1 = .ok () := by
    rcases answered_call a (.clone (snapPath x s) b props) with ⟨err, hr⟩ | hr
    · have hok := h.ok
      rw [show (a.call (.clone (snapPath x s) b props)).1 =
        .error err from congrArg Prod.fst hr] at hok
      cases hok
    · exact ⟨congrArg Prod.snd hr, (congrArg Prod.fst hr).symm.trans h.ok⟩
  have hproper : MachineCall.Proper (.clone (snapPath x s) b props) := h.plain
  have hquiet := quiet_clone a.mem (snapPath x s) b props
  rw [← hmem.1] at hquiet
  refine ⟨(behaves_call hproper).sound hs, hshort.call hs trivial, fun d τ hτ => ?_,
    fun d τ hτ => ?_⟩
  · -- the clone has the snapshot as its origin, and none of its own
    obtain ⟨_, hin⟩ | ⟨_, D, horigin, hsnaps, hlookup⟩ := clone_adds a.mem (snapPath x s) b props
    · have hin := hin hmem.2
      rw [h.fresh] at hin
      cases hin
    · have honly : ∀ d τ, (a.call (.clone (snapPath x s) b props)).2.mem.lookupSnap d s =
          some τ → d = x := by
        intro d τ hτ
        obtain ⟨σ', hσ', _⟩ := hquiet.snaps d s τ hτ
        exact h.only d σ' hσ'
      have hb : (a.call (.clone (snapPath x s) b props)).2.mem.ds.lookup b = some D := by
        rw [hmem.1, hlookup, if_pos rfl]
      obtain rfl := honly d τ hτ
      refine ⟨honly, D, hb, .inl ⟨horigin, fun k υ hυ => ?_⟩⟩
      simp [Mem.lookupSnap, hb, hsnaps] at hυ
  · obtain ⟨σ', hσ', htxg⟩ := hquiet.snaps d s τ hτ
    obtain rfl := h.only d σ' hσ'
    obtain rfl := Option.some.inj (h.snap.symm.trans hσ')
    exact htxg.symm

end Follows

end SimpleZfsCsi.Memzfs
