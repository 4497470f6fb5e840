import Mathlib.Logic.Equiv.Basic
import SimpleZfsCsi.Memzfs.Frame
import SimpleZfsCsi.Memzfs.Promote

/-!
# What every state keeps

Parents exist, an origin is a snapshot that is older than every snapshot of its clone, and a
snapshot that is marked for deferred destroy is cloned. Several snapshots may be taken in one
transaction group, so that none of this is said by the clone graph.
-/

namespace SimpleZfsCsi.Memzfs

open Library

/-- A name is that of a snapshot or that of a dataset. -/
theorem split_cases (name : String) :
    (∃ d n, Plain d ∧ name = snapPath d n ∧ split name = (d, n, true)) ∨
      (Plain name ∧ split name = (name, "", false)) := by
  by_cases hplain : Plain name
  · exact .inr ⟨hplain, split_plain hplain⟩
  · have hmem : '@' ∈ name.toList := by simpa [Plain] using hplain
    obtain ⟨s, t, hst, hs⟩ := List.eq_append_cons_of_mem hmem
    have hd : Plain (String.ofList s) := by simpa [Plain] using hs
    have hname : name = snapPath (String.ofList s) (String.ofList t) := by
      apply String.toList_injective
      simp [snapPath, String.toList_append, hst]
    exact .inl ⟨_, _, hd, hname, hname ▸ split_snapPath hd _⟩

namespace Mem

variable {m : Mem} {snap e : String}

/-- Some dataset has the origin `snap`. -/
def Cloned (m : Mem) (snap : String) : Prop := ∃ e E, m.ds.lookup e = some E ∧ E.origin = snap

theorem mem_clonesOf : e ∈ m.clonesOf snap ↔ ∃ E, m.ds.lookup e = some E ∧ E.origin = snap := by
  simp only [clonesOf, namesWhere, List.mem_filter, FinMap.mem_sortedKeys, Option.any_eq_true,
    decide_eq_true_eq]
  constructor
  · rintro ⟨_, E, hE, horigin⟩
    exact ⟨E, hE, horigin⟩
  · rintro ⟨E, hE, horigin⟩
    exact ⟨by simp [hE], E, hE, horigin⟩

theorem clonesOf_eq_nil : m.clonesOf snap = [] ↔ ¬ m.Cloned snap := by
  rw [List.eq_nil_iff_forall_not_mem]
  simp only [mem_clonesOf, Cloned, not_exists]

end Mem

/-- What a state keeps; the snapshots in `pending` may be marked without being cloned. -/
structure Sound (m : Mem) (pending : List String) : Prop where
  plain : ∀ {d D}, m.ds.lookup d = some D → Plain d
  named : ∀ {d D}, m.ds.lookup d = some D → D.name = d
  parent : ∀ {d D}, m.ds.lookup d = some D → parentOf d ≠ "" → (m.ds.lookup (parentOf d)).isSome
  snap : ∀ {d n σ}, m.lookupSnap d n = some σ → σ.name = n ∧ σ.txg ≤ m.txg
  origin : ∀ {d D}, m.ds.lookup d = some D → D.origin ≠ "" → ∃ p n σ, D.origin = snapPath p n ∧
    m.lookupSnap p n = some σ ∧ ∀ k τ, m.lookupSnap d k = some τ → σ.txg < τ.txg
  marked : ∀ {d n σ}, m.lookupSnap d n = some σ → σ.deferred = true →
    m.Cloned (snapPath d n) ∨ snapPath d n ∈ pending

section Sound

variable {m m' : Mem} {L L' : List String}

theorem lookup_of_lookupSnap {d n : String} {σ : Snapshot} (h : m.lookupSnap d n = some σ) :
    ∃ D, m.ds.lookup d = some D ∧ D.snaps.lookup n = some σ := Option.bind_eq_some_iff.mp h

theorem Sound.plain_of_snap (h : Sound m L) {d n : String} {σ : Snapshot}
    (hσ : m.lookupSnap d n = some σ) :
    Plain d := by
  obtain ⟨D, hD, _⟩ := lookup_of_lookupSnap hσ
  exact h.plain hD

theorem Sound.keyed (h : Sound m L) {d : String} {D : Dataset}
    (hD : m.ds.lookup d = some D) : Keyed D := by
  intro k s hs
  have hsnap : m.lookupSnap d k = some s := by simpa [Mem.lookupSnap, hD] using hs
  exact (h.snap hsnap).1

/-- Snapshots come and go, but those that are cloned stay, and what is new is younger than all that
was there. -/
theorem Sound.relabel (h : Sound m L) (htxg : m.txg ≤ m'.txg)
    (hds : ∀ d, (m'.ds.lookup d).map (fun D => (D.name, D.origin)) =
      (m.ds.lookup d).map fun D => (D.name, D.origin))
    (hold : ∀ d n τ, m'.lookupSnap d n = some τ →
      (∃ σ, m.lookupSnap d n = some σ ∧ σ.name = τ.name ∧ σ.txg = τ.txg ∧
        (τ.deferred = true → m.Cloned (snapPath d n) ∨ snapPath d n ∈ L')) ∨
      (τ.name = n ∧ m.txg < τ.txg ∧ τ.txg ≤ m'.txg ∧ τ.deferred = false))
    (hkept : ∀ d n σ, m.lookupSnap d n = some σ → m.Cloned (snapPath d n) →
      ∃ τ, m'.lookupSnap d n = some τ ∧ τ.txg = σ.txg) : Sound m' L' := by
  have hback : ∀ {d D'}, m'.ds.lookup d = some D' →
      ∃ D, m.ds.lookup d = some D ∧ D'.name = D.name ∧ D'.origin = D.origin := by
    intro d D' hD'
    have hmap := hds d
    rw [hD', Option.map_some] at hmap
    obtain ⟨D, hD, heq⟩ := Option.map_eq_some_iff.mp hmap.symm
    exact ⟨D, hD, (Prod.mk.inj heq).1.symm, (Prod.mk.inj heq).2.symm⟩
  have hforth : ∀ {d D}, m.ds.lookup d = some D → ∃ D', m'.ds.lookup d = some D' ∧
      D'.origin = D.origin := by
    intro d D hD
    have hmap := hds d
    rw [hD, Option.map_some] at hmap
    obtain ⟨D', hD', heq⟩ := Option.map_eq_some_iff.mp hmap
    exact ⟨D', hD', (Prod.mk.inj heq).2⟩
  refine ⟨?_, ?_, ?_, ?_, ?_, ?_⟩
  · intro d D' hD'
    obtain ⟨D, hD, _⟩ := hback hD'
    exact h.plain hD
  · intro d D' hD'
    obtain ⟨D, hD, hname, _⟩ := hback hD'
    rw [hname, h.named hD]
  · intro d D' hD' hparent
    obtain ⟨D, hD, _⟩ := hback hD'
    obtain ⟨P, hP⟩ := Option.isSome_iff_exists.mp (h.parent hD hparent)
    obtain ⟨P', hP', _⟩ := hforth hP
    simp [hP']
  · intro d n τ hτ
    rcases hold d n τ hτ with ⟨σ, hσ, hname, heq, _⟩ | ⟨hname, _, hle, _⟩
    · obtain ⟨hname', hle⟩ := h.snap hσ
      exact ⟨hname ▸ hname', by omega⟩
    · exact ⟨hname, hle⟩
  · intro d D' hD' horigin
    obtain ⟨D, hD, _, heq⟩ := hback hD'
    obtain ⟨p, n, σ, hpn, hσ, hyounger⟩ := h.origin hD (heq ▸ horigin)
    obtain ⟨τ, hτ, htxg'⟩ := hkept p n σ hσ ⟨d, D, hD, hpn⟩
    refine ⟨p, n, τ, heq.trans hpn, hτ, fun k υ hυ => ?_⟩
    rcases hold d k υ hυ with ⟨ρ, hρ, _, hρυ, _⟩ | ⟨_, hlt, _⟩
    · have := hyounger k ρ hρ
      omega
    · have := (h.snap hσ).2
      omega
  · intro d n τ hτ hdeferred
    rcases hold d n τ hτ with ⟨σ, hσ, _, _, hmarked⟩ | ⟨_, _, _, hfalse⟩
    · rcases hmarked hdeferred with ⟨e, E, hE, horigin⟩ | hmem
      · obtain ⟨E', hE', heq⟩ := hforth hE
        exact .inl ⟨e, E', hE', heq.trans horigin⟩
      · exact .inr hmem
    · rw [hdeferred] at hfalse
      cases hfalse

/-! ## Operations on one snapshot -/

theorem map_modify {d : String} {f : Dataset → Dataset}
    (hf : ∀ D, ((f D).name, (f D).origin) = (D.name, D.origin)) (ds : FinMap String Dataset)
    (x : String) :
    ((ds.modify d f).lookup x).map (fun D => (D.name, D.origin)) =
      (ds.lookup x).map fun D => (D.name, D.origin) := by
  rw [FinMap.lookup_modify, Option.map_map]
  congr 1
  funext D
  simp only [Function.comp_apply]
  split_ifs
  · exact hf D
  · rfl

/-- The snapshots of `d` are changed by `f`. -/
def Mem.withSnaps (m : Mem) (d : String)
    (f : FinMap String Snapshot → FinMap String Snapshot) : Mem :=
  { m with ds := m.ds.modify d fun D => { D with snaps := f D.snaps } }

theorem lookupSnap_withSnaps {d e n : String}
    {f : FinMap String Snapshot → FinMap String Snapshot} :
    (m.withSnaps d f).lookupSnap e n =
      if e = d then (m.ds.lookup d).bind fun D => (f D.snaps).lookup n else m.lookupSnap e n :=
  Represents.lookupSnap_modify

theorem Sound.withSnaps (h : Sound m L) {d : String}
    {f : FinMap String Snapshot → FinMap String Snapshot}
    (hold : ∀ D n τ, m.ds.lookup d = some D → (f D.snaps).lookup n = some τ →
      ∃ σ, D.snaps.lookup n = some σ ∧ σ.name = τ.name ∧ σ.txg = τ.txg ∧
        (τ.deferred = true → m.Cloned (snapPath d n) ∨ snapPath d n ∈ L'))
    (hkept : ∀ D n σ, m.ds.lookup d = some D → D.snaps.lookup n = some σ → m.Cloned (snapPath d n) →
      ∃ τ, (f D.snaps).lookup n = some τ ∧ τ.txg = σ.txg)
    (hL : ∀ e n σ, e ≠ d → m.lookupSnap e n = some σ → snapPath e n ∈ L → snapPath e n ∈ L') :
    Sound (m.withSnaps d f) L' := by
  refine h.relabel (Nat.le_refl _) (map_modify ?_ m.ds) ?_ ?_
  · exact fun _ => rfl
  · intro e n τ hτ
    rw [lookupSnap_withSnaps] at hτ
    split_ifs at hτ with he
    · subst he
      obtain ⟨D, hD, hτ⟩ := Option.bind_eq_some_iff.mp hτ
      obtain ⟨σ, hσ, hrest⟩ := hold D n τ hD hτ
      exact .inl ⟨σ, by simpa [Mem.lookupSnap, hD] using hσ, hrest⟩
    · refine .inl ⟨τ, hτ, rfl, rfl, fun hdeferred => ?_⟩
      exact (h.marked hτ hdeferred).imp_right (hL e n τ he hτ)
  · intro e n σ hσ hcloned
    rw [lookupSnap_withSnaps]
    split_ifs with he
    · subst he
      obtain ⟨D, hD, hσ⟩ := lookup_of_lookupSnap hσ
      obtain ⟨τ, hτ, htxg⟩ := hkept D n σ hD hσ hcloned
      exact ⟨τ, by simpa [hD] using hτ, htxg⟩
    · exact ⟨σ, hσ, rfl⟩

/-- A snapshot that nothing clones may go. -/
theorem Sound.eraseSnap (h : Sound m L) {d n : String} (hplain : Plain d)
    (hcloned : ¬ m.Cloned (snapPath d n))
    (hL : ∀ x ∈ L, x = snapPath d n ∨ x ∈ L') :
    Sound (m.withSnaps d fun snaps => snaps.erase n) L' := by
  refine h.withSnaps ?_ ?_ ?_
  · intro D k τ hD hτ
    rw [FinMap.lookup_erase] at hτ
    split_ifs at hτ with hk
    refine ⟨τ, hτ, rfl, rfl, fun hdeferred => ?_⟩
    have hsnap : m.lookupSnap d k = some τ := by simpa [Mem.lookupSnap, hD] using hτ
    refine (h.marked hsnap hdeferred).imp_right fun hmem => (hL _ hmem).resolve_left fun heq => ?_
    exact hk (snapPath_inj hplain hplain heq).2
  · intro D k σ hD hσ hcloned'
    have hk : k ≠ n := by
      rintro rfl
      exact hcloned hcloned'
    exact ⟨σ, by simpa [hk] using hσ, rfl⟩
  · intro e k σ he hσ hmem
    refine (hL _ hmem).resolve_left fun heq => ?_
    exact he (snapPath_inj (h.plain_of_snap hσ) hplain heq).1

theorem Sound.dropIfDone {full : String} (h : Sound m (full :: L)) :
    Sound (m.dropIfDone full) L := by
  -- nothing of that name is left marked without a clone
  have hweaken : (∀ d n σ, m.lookupSnap d n = some σ → snapPath d n = full → σ.deferred = true →
      m.Cloned full) → Sound m L := by
    intro hdone
    refine ⟨h.plain, h.named, h.parent, h.snap, h.origin, fun {d n σ} hσ hdeferred => ?_⟩
    rcases h.marked hσ hdeferred with hcloned | hmem
    · exact .inl hcloned
    · rcases List.mem_cons.mp hmem with heq | hmem
      · rw [heq]
        exact .inl (hdone d n σ hσ heq hdeferred)
      · exact .inr hmem
  unfold Mem.dropIfDone
  rcases split_cases full with ⟨d, n, hplain, rfl, hsplit⟩ | ⟨hplain, hsplit⟩
  · simp only [hsplit, if_true]
    have hsame : ∀ e k σ, m.lookupSnap e k = some σ → snapPath e k = snapPath d n → e = d ∧ k = n :=
      fun e k σ hσ heq => snapPath_inj (h.plain_of_snap hσ) hplain heq
    cases hσ : m.lookupSnap d n with
    | none =>
      refine hweaken fun e k τ hτ heq _ => ?_
      obtain ⟨rfl, rfl⟩ := hsame e k τ hτ heq
      rw [hσ] at hτ
      cases hτ
    | some σ =>
      simp only
      split_ifs with hdone
      · exact h.eraseSnap hplain (Mem.clonesOf_eq_nil.mp hdone.2) fun x hx => List.mem_cons.mp hx
      · refine hweaken fun e k τ hτ heq hdeferred => ?_
        obtain ⟨rfl, rfl⟩ := hsame e k τ hτ heq
        obtain rfl := Option.some_inj.mp (hσ.symm.trans hτ)
        by_contra hcloned
        exact hdone ⟨hdeferred, Mem.clonesOf_eq_nil.mpr hcloned⟩
  · simp only [hsplit, Bool.false_eq_true, if_false]
    refine hweaken fun e k τ hτ heq _ => ?_
    have hsnap := split_snapPath (h.plain_of_snap hτ) k
    rw [heq, hsplit] at hsnap
    simp at hsnap

theorem Sound.dropAllDone {origins : List String} (h : Sound m origins) :
    Sound (origins.foldl Mem.dropIfDone m) [] := by
  induction origins generalizing m with
  | nil => exact h
  | cons o origins ih => exact ih h.dropIfDone

theorem Sound.destroySnapshotDeferred (h : Sound m []) (name : String) :
    Sound (m.destroySnapshotDeferred name).2 [] := by
  unfold Mem.destroySnapshotDeferred
  rcases split_cases name with ⟨d, n, hplain, rfl, hsplit⟩ | ⟨_, hsplit⟩
  · simp only [hsplit, Bool.not_true, Bool.false_eq_true, if_false]
    cases hσ : m.lookupSnap d n with
    | none => exact h
    | some σ =>
      simp only
      split_ifs with hnil
      · exact h.eraseSnap hplain (Mem.clonesOf_eq_nil.mp hnil) (by simp)
      · have hcloned : m.Cloned (snapPath d n) := by
          by_contra hcloned
          exact hnil (Mem.clonesOf_eq_nil.mpr hcloned)
        obtain ⟨D, hD, hσD⟩ := lookup_of_lookupSnap hσ
        refine h.withSnaps (f := fun snaps => snaps.insert n { σ with deferred := true })
          ?_ ?_ (by simp)
        · intro D' k τ hD' hτ
          obtain rfl := Option.some_inj.mp (hD.symm.trans hD')
          rw [FinMap.lookup_insert] at hτ
          split_ifs at hτ with hk
          · obtain rfl := Option.some_inj.mp hτ
            exact ⟨σ, hk ▸ hσD, rfl, rfl, fun _ => .inl (hk ▸ hcloned)⟩
          · refine ⟨τ, hτ, rfl, rfl, h.marked ?_⟩
            simpa [Mem.lookupSnap, hD] using hτ
        · intro D' k τ hD' hτ _
          obtain rfl := Option.some_inj.mp (hD.symm.trans hD')
          by_cases hk : k = n
          · subst hk
            obtain rfl := Option.some_inj.mp (hσD.symm.trans hτ)
            exact ⟨{ σ with deferred := true }, by simp, rfl⟩
          · exact ⟨τ, by simpa [hk] using hτ, rfl⟩
  · simp [hsplit, h]

/-- Nothing is said of the properties of a dataset. -/
theorem Sound.modify (h : Sound m L) {d : String} {f : Dataset → Dataset}
    (hf : ∀ D, (f D).name = D.name ∧ (f D).origin = D.origin ∧ (f D).snaps = D.snaps) :
    Sound { m with ds := m.ds.modify d f } L := by
  have hsnap : ∀ e n, Mem.lookupSnap { m with ds := m.ds.modify d f } e n = m.lookupSnap e n := by
    intro e n
    rw [Represents.lookupSnap_modify]
    split_ifs with he
    · simp only [he, (hf _).2.2, Mem.lookupSnap]
    · rfl
  refine h.relabel (Nat.le_refl _) (map_modify ?_ m.ds) ?_ ?_
  · exact fun D => Prod.ext (hf D).1 (hf D).2.1
  · intro e n τ hτ
    rw [hsnap] at hτ
    exact .inl ⟨τ, hτ, rfl, rfl, h.marked hτ⟩
  · intro e n σ hσ _
    exact ⟨σ, by rw [hsnap, hσ], rfl⟩

theorem Sound.setProperty (h : Sound m []) (name prop value : String) :
    Sound (m.setProperty name prop value).2 [] := by
  have hmarked : ∀ {d n σ D}, m.ds.lookup d = some D → D.snaps.lookup n = some σ →
      σ.deferred = true →
      m.Cloned (snapPath d n) ∨ snapPath d n ∈ ([] : List String) := fun hD hσ =>
    h.marked (by simpa [Mem.lookupSnap, hD] using hσ)
  unfold Mem.setProperty
  simp only
  split
  · exact h
  split_ifs
  · exact h
  · exact h
  · exact h
  · -- the properties of a snapshot
    refine h.withSnaps
      (f := fun snaps => snaps.modify _ fun s => { s with props := s.props.insert prop value })
      ?_ ?_ (by simp)
    · intro D n τ hD hτ
      rw [FinMap.lookup_modify] at hτ
      obtain ⟨σ, hσ, rfl⟩ := Option.map_eq_some_iff.mp hτ
      have hmarked := hmarked hD hσ
      refine ⟨σ, hσ, ?_⟩
      split_ifs <;> exact ⟨rfl, rfl, hmarked⟩
    · intro D n σ hD hσ _
      refine ⟨_, by rw [FinMap.lookup_modify, hσ, Option.map_some], ?_⟩
      split_ifs <;> rfl
  · exact h
  -- those of a dataset
  · exact h.modify fun _ => ⟨rfl, rfl, rfl⟩
  · exact h.modify fun _ => ⟨rfl, rfl, rfl⟩

/-! ## New snapshots and datasets -/

/-- The snapshots of one transaction group. -/
theorem lookup_foldl_addSnap (txg : Nat) (names : List String) (ds : FinMap String Dataset)
    (e : String) :
    (ds.lookup e = none → (names.foldl (Mem.addSnap txg) ds).lookup e = none) ∧
    ∀ E, ds.lookup e = some E → ∃ E', (names.foldl (Mem.addSnap txg) ds).lookup e = some E' ∧
      (E'.name, E'.origin) = (E.name, E.origin) ∧ ∀ n, E'.snaps.lookup n =
        if ∃ name ∈ names, (split name).1 = e ∧ (split name).2.1 = n then some { name := n, txg }
        else E.snaps.lookup n := by
  induction names generalizing ds with
  | nil => exact ⟨id, fun E hE => ⟨E, hE, rfl, by simp⟩⟩
  | cons name names ih =>
    obtain ⟨hnone, hsome⟩ := ih (Mem.addSnap txg ds name)
    refine ⟨fun hE => hnone (by simp [Mem.addSnap, hE]), fun E hE => ?_⟩
    have hround : ∃ E₁, (Mem.addSnap txg ds name).lookup e = some E₁ ∧
        (E₁.name, E₁.origin) = (E.name, E.origin) ∧ ∀ n, E₁.snaps.lookup n =
          if (split name).1 = e ∧ (split name).2.1 = n then some { name := n, txg } else
            E.snaps.lookup n := by
      by_cases he : e = (split name).1
      · refine ⟨{ E with snaps := E.snaps.insert (split name).2.1 { name := (split name).2.1, txg }
          }, ?_, rfl, ?_⟩
        · simp [Mem.addSnap, hE, ← he]
        · intro n
          by_cases hn : n = (split name).2.1
          · simp [he, hn]
          · have hn' : ¬ (split name).2.1 = n := fun h => hn h.symm
            simp [hn, hn']
      · refine ⟨E, by simp [Mem.addSnap, hE, he], rfl, fun n => ?_⟩
        have he' : ¬ (split name).1 = e := fun h => he h.symm
        simp [he']
    obtain ⟨E₁, hE₁, hsame₁, hsnaps₁⟩ := hround
    obtain ⟨E', hE', hsame, hsnaps⟩ := hsome E₁ hE₁
    refine ⟨E', hE', hsame.trans hsame₁, fun n => ?_⟩
    rw [hsnaps n, hsnaps₁ n]
    by_cases hrest : ∃ name ∈ names, (split name).1 = e ∧ (split name).2.1 = n
    · simp [hrest]
    · by_cases hthis : (split name).1 = e ∧ (split name).2.1 = n
      · simp [hthis]
      · simp only [List.mem_cons, exists_eq_or_imp, hthis, hrest, or_self, if_false]

theorem Sound.snapshot (h : Sound m []) (names : List String) : Sound (m.snapshot names).2 [] := by
  unfold Mem.snapshot
  split_ifs
  · exact h
  split
  · exact h
  split
  · exact h
  simp only
  split_ifs with hexisting
  · exact h
  · exact h
  -- all of them are new
  have hfresh : ∀ name ∈ names, m.lookupSnap (split name).1 (split name).2.1 = none := by
    intro name hname
    have hzero := List.countP_eq_zero.mp (Nat.eq_zero_of_not_pos hexisting) name hname
    simpa using hzero
  have hfold := lookup_foldl_addSnap (m.txg + 1) names m.ds
  refine h.relabel (Nat.le_succ _) ?_ ?_ ?_
  · intro e
    cases hE : m.ds.lookup e with
    | none => simp [(hfold e).1 hE]
    | some E =>
      obtain ⟨E', hE', hsame, _⟩ := (hfold e).2 E hE
      simpa [hE'] using hsame
  · intro e n τ hτ
    obtain ⟨E', hE', hτ⟩ := lookup_of_lookupSnap hτ
    cases hE : m.ds.lookup e with
    | none =>
      rw [(hfold e).1 hE] at hE'
      cases hE'
    | some E =>
      obtain ⟨E'', hE'', _, hsnaps⟩ := (hfold e).2 E hE
      obtain rfl := Option.some_inj.mp (hE'.symm.trans hE'')
      rw [hsnaps n] at hτ
      split_ifs at hτ with hnew
      · obtain rfl := Option.some_inj.mp hτ
        exact .inr ⟨rfl, Nat.lt_succ_self _, Nat.le_refl _, rfl⟩
      · have hσ : m.lookupSnap e n = some τ := by simpa [Mem.lookupSnap, hE] using hτ
        exact .inl ⟨τ, hσ, rfl, rfl, h.marked hσ⟩
  · intro e n σ hσ _
    obtain ⟨E, hE, hσE⟩ := lookup_of_lookupSnap hσ
    obtain ⟨E', hE', _, hsnaps⟩ := (hfold e).2 E hE
    refine ⟨σ, ?_, rfl⟩
    simp only [Mem.lookupSnap, hE', Option.bind_some, hsnaps n]
    rw [if_neg, hσE]
    rintro ⟨name, hname, rfl, rfl⟩
    rw [hfresh name hname] at hσ
    cases hσ

/-- A new dataset. -/
theorem Sound.add (h : Sound m []) {e : String} {E : Dataset} (hplain : Plain e)
    (he : m.ds.lookup e = none)
    (hname : E.name = e) (hsnaps : E.snaps = FinMap.empty)
    (hparent : parentOf e ≠ "" → (m.ds.lookup (parentOf e)).isSome)
    (horigin : E.origin ≠ "" → ∃ p n σ, E.origin = snapPath p n ∧ m.lookupSnap p n = some σ)
    (htxg : m'.txg = m.txg) (hds : ∀ x, m'.ds.lookup x = if x = e then some E else m.ds.lookup x) :
    Sound m' [] := by
  have hsnap : ∀ d n, m'.lookupSnap d n = m.lookupSnap d n := by
    intro d n
    simp only [Mem.lookupSnap, hds]
    split_ifs with hd
    · simp [hd, he, hsnaps]
    · rfl
  have hsome : ∀ x, (m.ds.lookup x).isSome → (m'.ds.lookup x).isSome := by
    intro x hx
    rw [hds]
    split_ifs
    · rfl
    · exact hx
  refine ⟨?_, ?_, ?_, ?_, ?_, ?_⟩
  · intro d D hD
    rw [hds] at hD
    split_ifs at hD with hd
    · exact hd ▸ hplain
    · exact h.plain hD
  · intro d D hD
    rw [hds] at hD
    split_ifs at hD with hd
    · rw [hd, ← hname, Option.some_inj.mp hD]
    · exact h.named hD
  · intro d D hD hparent'
    refine hsome _ ?_
    rw [hds] at hD
    split_ifs at hD with hd
    · subst hd
      exact hparent hparent'
    · exact h.parent hD hparent'
  · intro d n σ hσ
    rw [hsnap] at hσ
    exact htxg ▸ h.snap hσ
  · intro d D hD horigin'
    rw [hds] at hD
    split_ifs at hD with hd
    · obtain rfl := Option.some_inj.mp hD
      obtain ⟨p, n, σ, hpn, hσ⟩ := horigin horigin'
      refine ⟨p, n, σ, hpn, (hsnap p n).trans hσ, fun k τ hτ => ?_⟩
      rw [hsnap, hd, Mem.lookupSnap, he] at hτ
      cases hτ
    · obtain ⟨p, n, σ, hpn, hσ, hyounger⟩ := h.origin hD horigin'
      refine ⟨p, n, σ, hpn, (hsnap p n).trans hσ, fun k τ hτ => hyounger k τ ?_⟩
      rwa [hsnap] at hτ
  · intro d n σ hσ hdeferred
    rw [hsnap] at hσ
    obtain ⟨x, X, hX, hXorigin⟩ := (h.marked hσ hdeferred).resolve_right (by simp)
    refine .inl ⟨x, X, ?_, hXorigin⟩
    rw [hds, if_neg]
    · exact hX
    · rintro rfl
      rw [he] at hX
      cases hX

/-- What a create that succeeds does. -/
theorem create_ok {name : String} {kind : DatasetKind} {size : Int} {props : FinMap String String}
    (hok : (m.create name kind size props).1 = .ok ()) :
    m.ds.lookup name = none ∧ (m.ds.lookup (parentOf name)).isSome ∧
      (m.create name kind size props).2 =
        { m with ds := m.ds.insert name { name, kind, props, volsize := size } } := by
  unfold Mem.create at hok ⊢
  split_ifs at hok ⊢ with hexists hparent
  refine ⟨by simpa using hexists, ?_, rfl⟩
  cases hp : m.ds.lookup (parentOf name) with
  | none => exact absurd (.inr (by simp [hp])) hparent
  | some P => rfl

theorem create_error {name : String} {kind : DatasetKind} {size : Int}
    {props : FinMap String String} {err : Err}
    (herror : (m.create name kind size props).1 = .error err) :
    (m.create name kind size props).2 = m := by
  unfold Mem.create at herror ⊢
  split_ifs at herror ⊢ <;> rfl

theorem Sound.create (h : Sound m []) {name : String} (hplain : Plain name)
    (kind : DatasetKind) (size : Int)
    (props : FinMap String String) : Sound (m.create name kind size props).2 [] := by
  cases hresult : (m.create name kind size props).1 with
  | error err => rwa [create_error hresult]
  | ok _ =>
    obtain ⟨hnone, hparent, heq⟩ := create_ok hresult
    rw [heq]
    exact h.add hplain hnone rfl rfl (fun _ => hparent) (by simp) rfl
      fun x => FinMap.lookup_insert ..

theorem Sound.createZvol (h : Sound m []) {name : String} (hplain : Plain name) (size : Int)
    (props : FinMap String String) : Sound (m.createZvol name size props).2 [] := by
  unfold Mem.createZvol
  split_ifs
  · exact h
  · exact h.create hplain ..

theorem Sound.clone (h : Sound m []) (snap : String) {dest : String} (hplain : Plain dest)
    (props : FinMap String String) : Sound (m.clone snap dest props).2 [] := by
  unfold Mem.clone
  rcases split_cases snap with ⟨d, n, hd, rfl, hsplit⟩ | ⟨_, hsplit⟩
  · simp only [hsplit, Bool.not_true, Bool.false_eq_true, if_false]
    split
    · exact h
    rename_i src hsrc
    split_ifs with hmissing
    · exact h
    · exact h
    obtain ⟨σ, hσ⟩ : ∃ σ, src.snaps.lookup n = some σ := by
      simpa [Option.isNone_iff_eq_none, Option.ne_none_iff_exists'] using hmissing
    cases hresult : (m.create dest src.kind src.volsize props).1 with
    | error err =>
      have hmem := create_error hresult
      rw [← Prod.eta (m.create dest src.kind src.volsize props), hresult]
      simpa [hmem] using h
    | ok _ =>
      obtain ⟨hnone, hparent, heq⟩ := create_ok hresult
      rw [← Prod.eta (m.create dest src.kind src.volsize props), hresult]
      simp only [heq]
      refine h.add
        (E :=
          { name := dest, kind := src.kind, props, volsize := src.volsize, origin := snapPath d n })
        hplain hnone rfl rfl (fun _ => hparent) (fun _ => ⟨d, n, σ, rfl, ?_⟩) rfl fun x => ?_
      · simpa [Mem.lookupSnap, hsrc] using hσ
      · by_cases hx : x = dest <;> simp [hx]
  · simp [hsplit, h]

/-! ## Destroy -/

/-- The parent of a dataset outside a tree is outside it. -/
theorem parentOf_not_mem_tree {name d : String} {D : Dataset} (hD : m.ds.lookup d = some D)
    (hd : d ∉ name :: m.children name) (hparent : parentOf d ≠ "") : parentOf d ∉ name ::
    m.children name := by
  intro hmem
  refine hd (List.mem_cons_of_mem _ ?_)
  -- the name of the parent and a slash start the name
  have hstarts : (parentOf d).toList ++ ['/'] <+: d.toList := by
    unfold parentOf Text.cutLast at hparent ⊢
    split at hparent
    · exact absurd rfl hparent
    · rename_i c rest hdrop
      simp only [Option.getD_some, String.toList_ofList] at hparent ⊢
      obtain ⟨tail, htail⟩ := List.dropWhile_suffix (l := d.toList.reverse) (· != '/')
      have hc : c = '/' := by
        have := List.head?_dropWhile_not (· != '/') d.toList.reverse
        rw [hdrop] at this
        simpa using this
      rw [hdrop, hc] at htail
      refine ⟨tail.reverse, ?_⟩
      have := congrArg List.reverse htail
      simpa using this
  simp only [Mem.children, Mem.namesWhere, List.mem_filter, FinMap.mem_sortedKeys, hD,
    Option.isSome_some, Option.any_some, true_and, Text.startsWith, List.isPrefixOf_iff_prefix,
    String.toList_append]
  rcases List.mem_cons.mp hmem with heq | hchild
  · rw [heq] at hstarts
    simpa using hstarts
  · simp only [Mem.children, Mem.namesWhere, List.mem_filter, Option.any_eq_true, Text.startsWith,
      List.isPrefixOf_iff_prefix, String.toList_append] at hchild
    obtain ⟨_, _, _, hbelow⟩ := hchild
    exact (hbelow.trans ⟨_, rfl⟩).trans hstarts

/-- A closed set of datasets goes, and what it has cloned may be done. -/
theorem Sound.remove (h : Sound m []) {tree : List String}
    (hclosed : ∀ d D, m.ds.lookup d = some D → d ∉ tree → parentOf d ≠ "" → parentOf d ∉ tree)
    (houtside : ∀ d n σ, d ∈ tree → m.lookupSnap d n = some σ → ∀ e E, m.ds.lookup e = some E →
      E.origin = snapPath d n → e ∈ tree) :
    Sound { m with ds := m.ds.filterKeys fun n => n ∉ tree }
      (((tree.filterMap m.ds.lookup).map (·.origin)).filter (· ≠ "")) := by
  have hlookup : ∀ {x X}, (m.ds.filterKeys fun n => n ∉ tree).lookup x = some X ↔
      x ∉ tree ∧ m.ds.lookup x = some X := by
    intro x X
    by_cases hx : x ∈ tree <;> simp [hx]
  have hsnap : ∀ {d n σ}, Mem.lookupSnap { m with ds := m.ds.filterKeys fun n => n ∉ tree }
    d n = some σ ↔
      d ∉ tree ∧ m.lookupSnap d n = some σ := by
    intro d n σ
    by_cases hd : d ∈ tree <;> simp [Mem.lookupSnap, hd]
  refine ⟨?_, ?_, ?_, ?_, ?_, ?_⟩
  · exact fun hD => h.plain (hlookup.mp hD).2
  · exact fun hD => h.named (hlookup.mp hD).2
  · intro d D hD hparent
    obtain ⟨hd, hD⟩ := hlookup.mp hD
    have hp := hclosed d D hD hd hparent
    obtain ⟨P, hP⟩ := Option.isSome_iff_exists.mp (h.parent hD hparent)
    exact Option.isSome_iff_exists.mpr ⟨P, hlookup.mpr ⟨hp, hP⟩⟩
  · exact fun hσ => h.snap (hsnap.mp hσ).2
  · intro d D hD horigin
    obtain ⟨hd, hD⟩ := hlookup.mp hD
    obtain ⟨p, n, σ, hpn, hσ, hyounger⟩ := h.origin hD horigin
    refine ⟨p, n, σ, hpn, hsnap.mpr ⟨fun hp => hd ?_, hσ⟩,
      fun k τ hτ => hyounger k τ (hsnap.mp hτ).2⟩
    exact houtside p n σ hp hσ d D hD hpn
  · intro d n σ hσ hdeferred
    obtain ⟨_, hσ⟩ := hsnap.mp hσ
    obtain ⟨e, E, hE, horigin⟩ := (h.marked hσ hdeferred).resolve_right (by simp)
    by_cases he : e ∈ tree
    · refine .inr (List.mem_filter.mpr ⟨List.mem_map.mpr ⟨E, ?_, horigin⟩, ?_⟩)
      · exact List.mem_filterMap.mpr ⟨e, he, hE⟩
      · simpa using snapPath_ne_empty d n
    · exact .inl ⟨e, E, hlookup.mpr ⟨he, hE⟩, horigin⟩

theorem Sound.destroy (h : Sound m []) (name : String) (recursive : Bool) :
    Sound (m.destroy name recursive).2 [] := by
  unfold Mem.destroy
  rcases split_cases name with ⟨d, n, hd, rfl, hsplit⟩ | ⟨_, hsplit⟩
  · simp only [hsplit, if_true]
    cases hσ : m.lookupSnap d n with
    | none => exact h
    | some σ =>
      simp only
      split_ifs with hcloned
      · exact h
      · exact h.eraseSnap hd (Mem.clonesOf_eq_nil.mp (by simpa using hcloned)) (by simp)
  · simp only [hsplit, Bool.false_eq_true, if_false]
    split
    · exact h
    split_ifs with hbusy houtside
    · exact h
    · exact h
    refine (h.remove (fun e E hE he hparent => parentOf_not_mem_tree hE he hparent) ?_).dropAllDone
    intro t n σ ht hσ e E hE horigin
    by_contra he
    refine houtside (List.ne_nil_of_mem (a := e) (List.mem_flatMap.mpr ?_))
    obtain ⟨T, hT, hσT⟩ := lookup_of_lookupSnap hσ
    refine ⟨T, List.mem_filterMap.mpr ⟨t, ht, hT⟩, List.mem_flatMap.mpr ⟨snapPath t n, ?_, ?_⟩⟩
    · refine List.mem_map.mpr ⟨σ, (h.keyed hT).mem_sorted.mpr ?_, ?_⟩
      · rwa [(h.snap hσ).1]
      · rw [h.named hT, (h.snap hσ).1]
    · refine List.mem_filter.mpr ⟨Mem.mem_clonesOf.mpr ⟨E, hE, horigin⟩, by simpa using he⟩

/-! ## Promote -/

/-- What a promote of `c` does, whose origin is the snapshot `o` of `p` under the name `n`. -/
structure Promoted (m m' : Mem) (c p n : String) (o : Snapshot) : Prop where
  ne : c ≠ p
  origin : ∃ C, m.ds.lookup c = some C ∧ C.origin = snapPath p n
  snap : m.lookupSnap p n = some o
  free : ∀ k s, m.lookupSnap p k = some s → s.txg ≤ o.txg → m.lookupSnap c k = none
  txg : m'.txg = m.txg
  face : ∀ e, m'.face e = m.face e
  snaps : ∀ e k, m'.lookupSnap e k =
    if e = c then ((m.lookupSnap p k).filter fun s => s.txg ≤ o.txg).or (m.lookupSnap c k)
    else if e = p then (m.lookupSnap p k).filter fun s => o.txg < s.txg
    else m.lookupSnap e k
  swapped : ∀ P, m.ds.lookup p = some P → ∀ C' P', m'.ds.lookup c = some C' →
    m'.ds.lookup p = some P' →
    C'.origin = P.origin ∧ P'.origin = snapPath c n
  others : ∀ e E E', e ≠ c → e ≠ p → m.ds.lookup e = some E → m'.ds.lookup e = some E' →
    (∃ k s, m.lookupSnap p k = some s ∧ s.txg ≤ o.txg ∧ E.origin = snapPath p k ∧
      E'.origin = snapPath c k) ∨
    ((∀ k s, m.lookupSnap p k = some s → s.txg ≤ o.txg → E.origin ≠ snapPath p k) ∧
      E'.origin = E.origin)

/-- Origins that are not moved stay, the others follow. -/
theorem handedOrigin_cases (c origin : String) {p : String} {P : Dataset}
    (hP : m.ds.lookup p = some P) (hkeyed : Keyed P)
    (o : Nat) :
    (∃ k s, m.lookupSnap p k = some s ∧ s.txg ≤ o ∧ origin = snapPath p k ∧
      handedOrigin c p (movedSnaps P o) origin = snapPath c k) ∨
    ((∀ k s, m.lookupSnap p k = some s → s.txg ≤ o → origin ≠ snapPath p k) ∧
      handedOrigin c p (movedSnaps P o) origin = origin) := by
  have hsnap : ∀ k, m.lookupSnap p k = P.snaps.lookup k := fun k => by simp [Mem.lookupSnap, hP]
  unfold handedOrigin
  cases hfind : (movedSnaps P o).find? fun s => origin = snapPath p s.name with
  | some s =>
    obtain ⟨hs, hle⟩ := hkeyed.mem_moved.mp (List.mem_of_find?_eq_some hfind)
    have horigin : origin = snapPath p s.name := by simpa using List.find?_some hfind
    exact .inl ⟨s.name, s, (hsnap _).trans hs, hle, horigin, rfl⟩
  | none =>
    refine .inr ⟨fun k s hs hle horigin => ?_, rfl⟩
    rw [hsnap] at hs
    have hname := hkeyed k s hs
    have hmem : s ∈ movedSnaps P o := hkeyed.mem_moved.mpr ⟨hname.symm ▸ hs, hle⟩
    exact List.find?_eq_none.mp hfind s hmem (by simp [horigin, hname])

/-- A promote of a clone meets a snapshot of the same name, or is what it should be. -/
theorem Sound.promote_clone (h : Sound m []) {c p n : String} {C : Dataset} {o : Snapshot}
    (hC : m.ds.lookup c = some C) (hpn : C.origin = snapPath p n) (ho : m.lookupSnap p n = some o) :
    ((∃ k s, m.lookupSnap p k = some s ∧ s.txg ≤ o.txg ∧ (m.lookupSnap c k).isSome) ∧
      ∃ err, m.promote c = (.error err, m)) ∨
    ((m.promote c).1 = .ok () ∧ Promoted m (m.promote c).2 c p n o) := by
  obtain ⟨P, hP, _⟩ := lookup_of_lookupSnap ho
  have hkeyed := h.keyed hP
  have hyounger : ∀ k τ, m.lookupSnap c k = some τ → o.txg < τ.txg := by
    obtain ⟨q, k, σ, hqk, hσ, hyounger⟩ := h.origin hC (hpn ▸ snapPath_ne_empty p n)
    obtain ⟨rfl, rfl⟩ := snapPath_inj (h.plain_of_snap hσ) (h.plain hP) (hqk.symm.trans hpn)
    obtain rfl := Option.some_inj.mp (ho.symm.trans hσ)
    exact hyounger
  have hne : c ≠ p := by
    rintro rfl
    exact Nat.lt_irrefl _ (hyounger n o ho)
  have hsnapP : ∀ k, m.lookupSnap p k = P.snaps.lookup k := fun k => by simp [Mem.lookupSnap, hP]
  have hsnapC : ∀ k, m.lookupSnap c k = C.snaps.lookup k := fun k => by simp [Mem.lookupSnap, hC]
  rcases Memzfs.promote_clone hne (h.plain hC) (h.plain hP) hC hP hkeyed hpn ho with
    ⟨s, hs, hsome, herror⟩ | ⟨hfree, hok, htxg, hnone, hsome⟩
  · obtain ⟨hs, hle⟩ := hkeyed.mem_moved.mp hs
    exact .inl ⟨⟨s.name, s, (hsnapP _).trans hs, hle, (hsnapC _).symm ▸ hsome⟩, herror⟩
  refine .inr ⟨hok, hne, ⟨C, hC, hpn⟩, ho, ?_, htxg, Mem.face_promote m c, ?_, ?_, ?_⟩
  · intro k s hs hle
    rw [hsnapP] at hs
    have hname := hkeyed k s hs
    rw [hsnapC, ← hname]
    exact hfree s (hkeyed.mem_moved.mpr ⟨hname.symm ▸ hs, hle⟩)
  · intro e k
    cases hE : m.ds.lookup e with
    | none =>
      have hec : e ≠ c := by
        rintro rfl
        rw [hC] at hE
        cases hE
      have hep : e ≠ p := by
        rintro rfl
        rw [hP] at hE
        cases hE
      simp [Mem.lookupSnap, hnone e hE, hE, hec, hep]
    | some E =>
      obtain ⟨E', hE', _, hsnaps, _⟩ := hsome e E hE
      have hleft : (m.promote c).2.lookupSnap e k = handedSnaps c p (movedSnaps P o.txg) e E k := by
        simp only [Mem.lookupSnap, hE', Option.bind_some, hsnaps k]
      have hright : m.lookupSnap e k = E.snaps.lookup k := by simp [Mem.lookupSnap, hE]
      rw [hleft, handedSnaps, hkeyed.find_moved, hsnapP]
      by_cases hec : e = c
      · subst hec
        rw [if_pos rfl, if_pos rfl, hright]
      · rw [if_neg hec, if_neg hec]
        by_cases hep : e = p
        · subst hep
          obtain rfl := Option.some_inj.mp (hP.symm.trans hE)
          rw [if_pos rfl]
          cases hk : P.snaps.lookup k with
          | none => simp
          | some s =>
            have hname := hkeyed k s hk
            have hiff : (∃ t ∈ movedSnaps P o.txg, t.name = k) ↔ s.txg ≤ o.txg := by
              constructor
              · rintro ⟨t, ht, rfl⟩
                obtain ⟨ht, hle⟩ := hkeyed.mem_moved.mp ht
                rw [hk] at ht
                exact Option.some_inj.mp ht ▸ hle
              · exact fun hle => ⟨s, hkeyed.mem_moved.mpr ⟨hname.symm ▸ hk, hle⟩, hname⟩
            rw [Option.filter_some]
            by_cases hle : s.txg ≤ o.txg
            · simp [hiff, hle]
            · simp [hiff, hle, Nat.lt_of_not_le hle]
        · simp [hep, hright]
  · intro P₀ hP₀ C' P' hC' hP'
    obtain rfl := Option.some_inj.mp (hP.symm.trans hP₀)
    obtain ⟨C'', hC'', _, _, hCorigin⟩ := hsome c C hC
    obtain ⟨P'', hP'', _, _, hPorigin⟩ := hsome p P hP
    obtain rfl := Option.some_inj.mp (hC'.symm.trans hC'')
    obtain rfl := Option.some_inj.mp (hP'.symm.trans hP'')
    rw [if_neg hne, if_pos rfl] at hCorigin
    rw [if_pos rfl] at hPorigin
    refine ⟨?_, hPorigin⟩
    -- the origin of `p` is none of its own snapshots
    rcases handedOrigin_cases c P.origin hP hkeyed o.txg with
      ⟨k, s, hs, _, hself, _⟩ | ⟨_, hsame⟩
    · have hPne : P.origin ≠ "" := hself ▸ snapPath_ne_empty p k
      obtain ⟨q, j, τ, hqj, hτ, hyounger'⟩ := h.origin hP hPne
      obtain ⟨rfl, rfl⟩ := snapPath_inj (h.plain_of_snap hτ) (h.plain hP) (hqj.symm.trans hself)
      exact absurd (hyounger' _ τ hτ) (Nat.lt_irrefl _)
    · exact hCorigin.trans hsame
  · intro e E E' hec hep hE hE'
    obtain ⟨E'', hE'', _, _, heorigin⟩ := hsome e E hE
    obtain rfl := Option.some_inj.mp (hE'.symm.trans hE'')
    rw [if_neg hep, if_neg hec] at heorigin
    rw [heorigin]
    exact handedOrigin_cases c E.origin hP hkeyed o.txg

/-- A promote changes nothing, or is what it should be. -/
theorem Sound.promote_cases (h : Sound m []) (c : String) :
    (∃ r, m.promote c = (r, m)) ∨
      ∃ p n o, (m.promote c).1 = .ok () ∧ Promoted m (m.promote c).2 c p n o := by
  cases hC : m.ds.lookup c with
  | none => exact .inl ⟨_, by simp only [Mem.promote, hC]; rfl⟩
  | some C =>
    by_cases horigin : C.origin = ""
    · exact .inl ⟨.ok (), by simp [Mem.promote, hC, horigin]⟩
    obtain ⟨p, n, o, hpn, ho, _⟩ := h.origin hC horigin
    rcases h.promote_clone hC hpn ho with ⟨_, err, herror⟩ | ⟨hok, hpromoted⟩
    · exact .inl ⟨.error err, herror⟩
    · exact .inr ⟨p, n, o, hok, hpromoted⟩

section Promoted

variable {c p n : String} {o : Snapshot}

/-- A dataset after a promote, and what it was before. -/
theorem Promoted.lookup (h : Promoted m m' c p n o) {e : String} {E' : Dataset}
    (hE' : m'.ds.lookup e = some E') :
    ∃ E, m.ds.lookup e = some E ∧ E'.name = E.name := by
  have hface := h.face e
  simp only [Mem.face, hE', Option.map_some] at hface
  obtain ⟨E, hE, heq⟩ := Option.map_eq_some_iff.mp hface.symm
  exact ⟨E, hE, (Prod.mk.inj heq).1.symm⟩

theorem Promoted.lookup_of (h : Promoted m m' c p n o) {e : String} {E : Dataset}
    (hE : m.ds.lookup e = some E) :
    ∃ E', m'.ds.lookup e = some E' ∧ E'.name = E.name := by
  have hface := h.face e
  simp only [Mem.face, hE, Option.map_some] at hface
  obtain ⟨E', hE', heq⟩ := Option.map_eq_some_iff.mp hface
  exact ⟨E', hE', (Prod.mk.inj heq).1⟩

/-- A snapshot after a promote was moved, or is where it was. -/
theorem Promoted.snap_cases (h : Promoted m m' c p n o) {e k : String} {τ : Snapshot}
    (hτ : m'.lookupSnap e k = some τ) :
    (e = c ∧ m.lookupSnap p k = some τ ∧ τ.txg ≤ o.txg) ∨
      (m.lookupSnap e k = some τ ∧ (e = p → o.txg < τ.txg)) := by
  rw [h.snaps] at hτ
  split_ifs at hτ with hec hep
  · rcases Option.or_eq_some_iff.mp hτ with hτ | ⟨_, hτ⟩
    · obtain ⟨hτ, hle⟩ := Option.filter_eq_some_iff.mp hτ
      exact .inl ⟨hec, hτ, by simpa using hle⟩
    · exact .inr ⟨hec ▸ hτ, fun hep => absurd (hec.symm.trans hep) h.ne⟩
  · obtain ⟨hτ, hlt⟩ := Option.filter_eq_some_iff.mp hτ
    exact .inr ⟨hep ▸ hτ, fun _ => by simpa using hlt⟩
  · exact .inr ⟨hτ, fun hep' => absurd hep' hep⟩

/-- Where a snapshot is after a promote. -/
def handed (c p : String) (o : Snapshot) (e : String) (σ : Snapshot) : String :=
  if e = p ∧ σ.txg ≤ o.txg then c else e

/-- Every snapshot is kept, here or there. -/
theorem Promoted.snap_kept (h : Promoted m m' c p n o) {e k : String} {σ : Snapshot}
    (hσ : m.lookupSnap e k = some σ) : m'.lookupSnap (handed c p o e σ) k = some σ := by
  unfold handed
  split_ifs with hmoved
  · obtain ⟨rfl, hle⟩ := hmoved
    simp [h.snaps, hσ, hle]
  · rw [h.snaps]
    split_ifs with hec hep
    · -- nothing of that name was moved over it
      subst hec
      have hfree : (m.lookupSnap p k).filter (fun s => s.txg ≤ o.txg) = none := by
        rw [Option.filter_eq_none_iff]
        intro s hs hle
        rw [h.free k s hs (by simpa using hle)] at hσ
        cases hσ
      rw [hfree, Option.none_or, hσ]
    · subst hep
      have hlt : o.txg < σ.txg := Nat.lt_of_not_le fun hle => hmoved ⟨rfl, hle⟩
      simp [hσ, hlt]
    · exact hσ

/-- The clones of a snapshot follow it, and `c` and `p` change places. -/
theorem Promoted.clone_kept (hs : Sound m []) (h : Promoted m m' c p n o) {e k x : String}
    {σ : Snapshot} {X : Dataset}
    (hσ : m.lookupSnap e k = some σ) (hX : m.ds.lookup x = some X)
    (horigin : X.origin = snapPath e k) :
    ∃ X', m'.ds.lookup (Equiv.swap c p x) = some X' ∧
      X'.origin = snapPath (handed c p o e σ) k := by
  have hplain := hs.plain_of_snap hσ
  obtain ⟨C, hC, hpn⟩ := h.origin
  obtain ⟨P, hP, _⟩ := lookup_of_lookupSnap h.snap
  obtain ⟨C', hC', _⟩ := h.lookup_of hC
  obtain ⟨P', hP', _⟩ := h.lookup_of hP
  obtain ⟨hCorigin, hPorigin⟩ := h.swapped P hP C' P' hC' hP'
  by_cases hxc : x = c
  · -- the origin itself, whose clone is now `p`
    subst hxc
    obtain rfl := Option.some_inj.mp (hC.symm.trans hX)
    obtain ⟨rfl, rfl⟩ := snapPath_inj hplain (hs.plain hP) (horigin.symm.trans hpn)
    obtain rfl := Option.some_inj.mp (hσ.symm.trans h.snap)
    rw [Equiv.swap_apply_left]
    refine ⟨P', hP', ?_⟩
    rw [hPorigin, handed, if_pos ⟨rfl, Nat.le_refl _⟩]
  by_cases hxp : x = p
  · -- the origin of `p`, whose clone is now `c`
    subst hxp
    obtain rfl := Option.some_inj.mp (hP.symm.trans hX)
    rw [Equiv.swap_apply_right]
    refine ⟨C', hC', ?_⟩
    rw [hCorigin, horigin, handed, if_neg]
    rintro ⟨rfl, _⟩
    obtain ⟨q, j, υ, hqj, hυ, hyounger⟩ := hs.origin hP (horigin ▸ snapPath_ne_empty _ _)
    obtain ⟨rfl, rfl⟩ := snapPath_inj (hs.plain_of_snap hυ) hplain (hqj.symm.trans horigin)
    exact Nat.lt_irrefl _ (hyounger _ υ hυ)
  · obtain ⟨X', hX', _⟩ := h.lookup_of hX
    rw [Equiv.swap_apply_of_ne_of_ne hxc hxp]
    refine ⟨X', hX', ?_⟩
    rcases h.others x X X' hxc hxp hX hX' with ⟨j, s, hs', hle, hj, hj'⟩ | ⟨hstays, hsame⟩
    · obtain ⟨rfl, rfl⟩ := snapPath_inj hplain (hs.plain hP) (horigin.symm.trans hj)
      obtain rfl := Option.some_inj.mp (hσ.symm.trans hs')
      rw [hj', handed, if_pos ⟨rfl, hle⟩]
    · rw [hsame, horigin, handed, if_neg]
      rintro ⟨rfl, hle⟩
      exact hstays k σ hσ hle horigin

/-- An origin after a promote is that of another dataset before, or of the same. -/
theorem Promoted.origin_cases (hs : Sound m []) (h : Promoted m m' c p n o) {e : String}
    {E' : Dataset}
    (hE' : m'.ds.lookup e = some E') (horigin : E'.origin ≠ "") :
    ∃ q k σ X, m.ds.lookup (Equiv.swap c p e) = some X ∧ X.origin = snapPath q k ∧
      m.lookupSnap q k = some σ ∧
      E'.origin = snapPath (handed c p o q σ) k := by
  obtain ⟨C, hC, hpn⟩ := h.origin
  obtain ⟨P, hP, _⟩ := lookup_of_lookupSnap h.snap
  obtain ⟨C', hC', _⟩ := h.lookup_of hC
  obtain ⟨P', hP', _⟩ := h.lookup_of hP
  obtain ⟨hCorigin, hPorigin⟩ := h.swapped P hP C' P' hC' hP'
  by_cases hec : e = c
  · subst hec
    obtain rfl := Option.some_inj.mp (hC'.symm.trans hE')
    rw [hCorigin] at horigin ⊢
    obtain ⟨q, k, σ, hqk, hσ, hyounger⟩ := hs.origin hP horigin
    refine ⟨q, k, σ, P, by rw [Equiv.swap_apply_left]; exact hP, hqk, hσ, ?_⟩
    rw [hqk, handed, if_neg]
    rintro ⟨rfl, _⟩
    exact Nat.lt_irrefl _ (hyounger k σ hσ)
  by_cases hep : e = p
  · subst hep
    obtain rfl := Option.some_inj.mp (hP'.symm.trans hE')
    refine ⟨e, n, o, C, by rw [Equiv.swap_apply_right]; exact hC, hpn, h.snap, ?_⟩
    rw [hPorigin, handed, if_pos ⟨rfl, Nat.le_refl _⟩]
  · obtain ⟨E, hE, _⟩ := h.lookup hE'
    rw [Equiv.swap_apply_of_ne_of_ne hec hep]
    rcases h.others e E E' hec hep hE hE' with ⟨k, σ, hσ, hle, hk, hk'⟩ | ⟨hstays, hsame⟩
    · refine ⟨p, k, σ, E, hE, hk, hσ, ?_⟩
      rw [hk', handed, if_pos ⟨rfl, hle⟩]
    · rw [hsame] at horigin ⊢
      obtain ⟨q, k, σ, hqk, hσ, _⟩ := hs.origin hE horigin
      refine ⟨q, k, σ, E, hE, hqk, hσ, ?_⟩
      rw [hqk, handed, if_neg]
      rintro ⟨rfl, hle⟩
      exact hstays k σ hσ hle hqk

/-- The clones of a snapshot before and after. -/
theorem Promoted.mem_clonesOf (hs : Sound m []) (h : Promoted m m' c p n o) {d k x : String}
    {σ : Snapshot}
    (hσ : m.lookupSnap d k = some σ) :
    x ∈ m'.clonesOf (snapPath (handed c p o d σ) k) ↔
      Equiv.swap c p x ∈ m.clonesOf (snapPath d k) := by
  simp only [Mem.mem_clonesOf]
  obtain ⟨C, hC, _⟩ := h.origin
  have hplain : ∀ {e j τ}, m.lookupSnap e j = some τ → Plain (handed c p o e τ) := by
    intro e j τ hτ
    unfold handed
    split_ifs
    · exact hs.plain hC
    · exact hs.plain_of_snap hτ
  constructor
  · rintro ⟨X', hX', horigin⟩
    obtain ⟨q, j, τ, X, hX, hqj, hτ, heq⟩ := h.origin_cases hs hX' (horigin ▸ snapPath_ne_empty _ _)
    obtain ⟨hhanded, rfl⟩ := snapPath_inj (hplain hτ) (hplain hσ) (heq.symm.trans horigin)
    obtain rfl : q = d := by
      -- one that was moved has its name to itself
      unfold handed at hhanded
      split_ifs at hhanded with hq hd hd
      · exact hq.1.trans hd.1.symm
      · have := h.free _ τ (hq.1 ▸ hτ) hq.2
        rw [hhanded, hσ] at this
        cases this
      · have := h.free _ σ (hd.1 ▸ hσ) hd.2
        rw [← hhanded, hτ] at this
        cases this
      · exact hhanded
    exact ⟨X, hX, hqj⟩
  · rintro ⟨X, hX, horigin⟩
    obtain ⟨X', hX', horigin'⟩ := h.clone_kept hs hσ hX horigin
    rw [Equiv.swap_apply_self] at hX'
    exact ⟨X', hX', horigin'⟩

theorem length_clonesOf_swap {m m' : Mem} {snap snap' c p : String}
    (h : ∀ x, x ∈ m'.clonesOf snap' ↔ Equiv.swap c p x ∈ m.clonesOf snap) :
    (m'.clonesOf snap').length = (m.clonesOf snap).length := by
  have hnodup : ∀ (m : Mem) snap, (m.clonesOf snap).Nodup := fun m snap =>
    ((List.perm_insertionSort _ _).nodup_iff.mpr m.ds.nodup).filter _
  have hperm : (m'.clonesOf snap').Perm ((m.clonesOf snap).map (Equiv.swap c p)) := by
    refine (List.perm_ext_iff_of_nodup (hnodup m' snap')
      ((hnodup m snap).map (Equiv.swap c p).injective)).mpr fun x => ?_
    rw [h, List.mem_map]
    constructor
    · exact fun hx => ⟨_, hx, Equiv.swap_apply_self c p x⟩
    · rintro ⟨y, hy, rfl⟩
      rwa [Equiv.swap_apply_self]
  rw [hperm.length_eq, List.length_map]

theorem Sound.promoted (hs : Sound m []) (h : Promoted m m' c p n o) : Sound m' [] := by
  obtain ⟨C, hC, hpn⟩ := h.origin
  obtain ⟨P, hP, _⟩ := lookup_of_lookupSnap h.snap
  refine ⟨?_, ?_, ?_, ?_, ?_, ?_⟩
  · intro d D hD
    obtain ⟨D₀, hD₀, _⟩ := h.lookup hD
    exact hs.plain hD₀
  · intro d D hD
    obtain ⟨D₀, hD₀, hname⟩ := h.lookup hD
    rw [hname, hs.named hD₀]
  · intro d D hD hparent
    obtain ⟨D₀, hD₀, _⟩ := h.lookup hD
    obtain ⟨Q, hQ⟩ := Option.isSome_iff_exists.mp (hs.parent hD₀ hparent)
    obtain ⟨Q', hQ', _⟩ := h.lookup_of hQ
    simp [hQ']
  · intro d k σ hσ
    rw [h.txg]
    rcases h.snap_cases hσ with ⟨_, hσ, _⟩ | ⟨hσ, _⟩ <;> exact hs.snap hσ
  · intro d D' hD' horigin
    obtain ⟨q, k, σ, X, hX, hqk, hσ, heq⟩ := h.origin_cases hs hD' horigin
    refine ⟨_, k, σ, heq, h.snap_kept hσ, fun j τ hτ => ?_⟩
    -- `x` had the origin before; its snapshots are younger
    generalize hx : Equiv.swap c p d = x at hX
    have hyounger : ∀ j τ, m.lookupSnap x j = some τ → σ.txg < τ.txg := by
      obtain ⟨q', k', σ', hqk', hσ', hyounger⟩ := hs.origin hX (hqk ▸ snapPath_ne_empty _ _)
      obtain ⟨rfl, rfl⟩ :=
        snapPath_inj (hs.plain_of_snap hσ') (hs.plain_of_snap hσ) (hqk'.symm.trans hqk)
      obtain rfl := Option.some_inj.mp (hσ.symm.trans hσ')
      exact hyounger
    have hold : ∀ j τ, m.lookupSnap c j = some τ → o.txg < τ.txg := by
      obtain ⟨q', k', σ', hqk', hσ', hyounger⟩ := hs.origin hC (hpn ▸ snapPath_ne_empty _ _)
      obtain ⟨rfl, rfl⟩ := snapPath_inj (hs.plain_of_snap hσ') (hs.plain hP) (hqk'.symm.trans hpn)
      obtain rfl := Option.some_inj.mp (h.snap.symm.trans hσ')
      exact hyounger
    by_cases hdc : d = c
    · obtain rfl : x = p := by rw [← hx, hdc, Equiv.swap_apply_left]
      rcases h.snap_cases hτ with ⟨_, hτ, _⟩ | ⟨hτ, _⟩
      · exact hyounger j τ hτ
      · have := hyounger n o h.snap
        have := hold j τ (hdc ▸ hτ)
        omega
    · by_cases hdp : d = p
      · obtain rfl : x = c := by rw [← hx, hdp, Equiv.swap_apply_right]
        have hσo : σ = o := by
          obtain rfl := Option.some_inj.mp (hC.symm.trans hX)
          obtain ⟨rfl, rfl⟩ := snapPath_inj (hs.plain_of_snap hσ) (hs.plain hP) (hqk.symm.trans hpn)
          exact Option.some_inj.mp (hσ.symm.trans h.snap)
        rcases h.snap_cases hτ with ⟨hdx, _⟩ | ⟨_, hlt⟩
        · exact absurd hdx hdc
        · exact hσo ▸ hlt hdp
      · obtain rfl : x = d := by rw [← hx, Equiv.swap_apply_of_ne_of_ne hdc hdp]
        rcases h.snap_cases hτ with ⟨hdx, _⟩ | ⟨hτ, _⟩
        · exact absurd hdx hdc
        · exact hyounger j τ hτ
  · intro d k σ hσ hdeferred
    rcases h.snap_cases hσ with ⟨rfl, hσp, hle⟩ | ⟨hσd, hstays⟩
    · obtain ⟨x, X, hX, hXorigin⟩ := (hs.marked hσp hdeferred).resolve_right (by simp)
      obtain ⟨X', hX', hXorigin'⟩ := h.clone_kept hs hσp hX hXorigin
      rw [handed, if_pos ⟨rfl, hle⟩] at hXorigin'
      exact .inl ⟨_, X', hX', hXorigin'⟩
    · obtain ⟨x, X, hX, hXorigin⟩ := (hs.marked hσd hdeferred).resolve_right (by simp)
      obtain ⟨X', hX', hXorigin'⟩ := h.clone_kept hs hσd hX hXorigin
      rw [handed, if_neg] at hXorigin'
      · exact .inl ⟨_, X', hX', hXorigin'⟩
      · rintro ⟨rfl, hle⟩
        exact Nat.not_le_of_lt (hstays rfl) hle

end Promoted

theorem Sound.promote (h : Sound m []) (c : String) : Sound (m.promote c).2 [] := by
  rcases h.promote_cases c with ⟨r, hr⟩ | ⟨p, n, o, _, hpromoted⟩
  · rwa [hr]
  · exact h.promoted hpromoted

end Sound

end SimpleZfsCsi.Memzfs
