import SimpleZfsCsi.Memzfs.Refinement

/-!
# Promote

`Mem.promote` moves one snapshot after the other and rewrites the origins of its clones each
time. What comes out is the promote of the clone graph.
-/

namespace SimpleZfsCsi.Memzfs

open Library

/-- Where the loop of `promote` leaves a snapshot name of the dataset `e`. -/
def handedSnaps (c p : String) (moved : List Snapshot) (e : String) (E : Dataset) (n : String) :
    Option Snapshot :=
  if e = c then (moved.find? (·.name = n)).or (E.snaps.lookup n)
  else if e = p ∧ ∃ s ∈ moved, s.name = n then none
  else E.snaps.lookup n

/-- Where the loop of `promote` leaves an origin. -/
def handedOrigin (c p : String) (moved : List Snapshot) (origin : String) : String :=
  match moved.find? fun s => origin = snapPath p s.name with
  | some s => snapPath c s.name
  | none => origin

theorem handedOrigin_cons {c p : String} (hne : c ≠ p) (hc : Plain c) (hp : Plain p) (s : Snapshot)
    (moved : List Snapshot) (origin : String) :
    handedOrigin c p (s :: moved) origin = handedOrigin c p moved
      (if origin = snapPath p s.name then snapPath c s.name else origin) := by
  unfold handedOrigin
  by_cases ho : origin = snapPath p s.name
  · have hnone : moved.find? (fun t => snapPath c s.name = snapPath p t.name) = none := by
      rw [List.find?_eq_none]
      intro t _ heq
      exact hne (snapPath_inj hc hp (by simpa using heq)).1
    simp [ho, hnone]
  · simp [ho]

/-- What the loop of `promote` does to a dataset. -/
theorem lookup_foldl_moveSnap {c p : String} (hne : c ≠ p) (hc : Plain c) (hp : Plain p)
    (moved : List Snapshot) (hnodup : (moved.map (·.name)).Nodup) (ds : FinMap String Dataset)
    (e : String) :
    (∀ E, ds.lookup e = some E → ∃ E', (moved.foldl (Mem.moveSnap c p) ds).lookup e = some E' ∧
      E'.name = E.name ∧ (∀ n, E'.snaps.lookup n = handedSnaps c p moved e E n) ∧
      E'.origin = handedOrigin c p moved E.origin) ∧
    (ds.lookup e = none → (moved.foldl (Mem.moveSnap c p) ds).lookup e = none) := by
  induction moved generalizing ds with
  | nil => exact ⟨fun E hE => ⟨E, hE, rfl, by simp [handedSnaps], rfl⟩, id⟩
  | cons s moved ih =>
    obtain ⟨hs, hnodup⟩ := List.nodup_cons.mp hnodup
    obtain ⟨hsome, hnone⟩ := ih hnodup (Mem.moveSnap c p ds s)
    refine ⟨fun E hE => ?_, fun hE => hnone (by simp [Mem.moveSnap, hE])⟩
    -- one round, and then the rest by induction
    obtain ⟨E₁, hE₁, hname₁, hsnaps₁, horigin₁⟩ : ∃ E₁, (Mem.moveSnap c p ds s).lookup e = some E₁ ∧
        E₁.name = E.name ∧ (∀ n, E₁.snaps.lookup n = handedSnaps c p [s] e E n) ∧
        E₁.origin = if E.origin = snapPath p s.name then snapPath c s.name else E.origin := by
      refine ⟨_, by simp only [Mem.moveSnap, FinMap.lookup_map, FinMap.lookup_modify, hE,
        Option.map_some]; rfl,
        ?_, ?_, ?_⟩
      · split_ifs <;> rfl
      · intro n
        by_cases hec : e = c
        · subst hec
          by_cases hn : s.name = n
          · split_ifs <;> simp_all [handedSnaps]
          · have hn' : ¬ n = s.name := fun h => hn h.symm
            split_ifs <;> simp_all [handedSnaps]
        · by_cases hep : e = p
          · by_cases hn : s.name = n
            · split_ifs <;> simp_all [handedSnaps]
            · have hn' : ¬ n = s.name := fun h => hn h.symm
              split_ifs <;> simp_all [handedSnaps]
          · split_ifs <;> simp_all [handedSnaps]
      · split_ifs <;> simp_all
    obtain ⟨E', hE', hname, hsnaps, horigin⟩ := hsome E₁ hE₁
    refine ⟨E', hE', hname.trans hname₁, fun n => ?_, ?_⟩
    · rw [hsnaps n]
      simp only [handedSnaps, hsnaps₁]
      have hfresh : s.name = n → moved.find? (·.name = n) = none := by
        rintro rfl
        rw [List.find?_eq_none]
        intro t ht heq
        exact hs (List.mem_map.mpr ⟨t, ht, by simpa using heq⟩)
      by_cases hec : e = c
      · by_cases hn : s.name = n
        · simp [hec, hn, hfresh hn]
        · simp [hec, hn]
      · by_cases hn : s.name = n
        · by_cases hep : e = p
          · have hpc : p ≠ c := Ne.symm hne
            simp [hep, hpc, hn]
          · simp [hec, hep]
        · simp [hec, hn]
    · rw [horigin, horigin₁, handedOrigin_cons hne hc hp]

/-! ## What is moved -/

section Moved

variable {m : Mem} {G : CloneGraph String String} {c p : String} {o : Nat} {P : Dataset}

/-- Every snapshot of the dataset stands under its own name. -/
def Keyed (P : Dataset) : Prop := ∀ k s, P.snaps.lookup k = some s → s.name = k

/-- `o` and the older snapshots of `P`. -/
def movedSnaps (P : Dataset) (o : Nat) : List Snapshot :=
  (Mem.sortedSnaps P).filter fun s => s.txg ≤ o

theorem Keyed.mem_sorted (hP : Keyed P) {s : Snapshot} :
    s ∈ Mem.sortedSnaps P ↔ P.snaps.lookup s.name = some s := by
  simp only [Mem.sortedSnaps, List.mem_insertionSort, FinMap.mem_values]
  refine ⟨?_, fun hs => ⟨s.name, hs⟩⟩
  rintro ⟨k, hk⟩
  rwa [hP k s hk]

theorem Keyed.mem_moved (hP : Keyed P) {s : Snapshot} :
    s ∈ movedSnaps P o ↔ P.snaps.lookup s.name = some s ∧ s.txg ≤ o := by
  simp only [movedSnaps, List.mem_filter, hP.mem_sorted, decide_eq_true_eq]

theorem Keyed.nodup_sorted (hP : Keyed P) : ((Mem.sortedSnaps P).map (·.name)).Nodup := by
  have hvalues : P.snaps.values.map (·.name) = P.snaps.keys := by
    rw [FinMap.values, List.map_filterMap]
    conv_rhs => rw [← List.filterMap_some (l := P.snaps.keys)]
    refine List.filterMap_congr fun k hk => ?_
    obtain ⟨s, hs⟩ := FinMap.lookup_of_mem_keys hk
    simp [hs, hP k s hs]
  have hperm : ((Mem.sortedSnaps P).map (·.name)).Perm P.snaps.keys := by
    rw [← hvalues]
    exact (List.perm_insertionSort _ _).map _
  exact hperm.nodup_iff.mpr P.snaps.nodup

theorem Keyed.nodup_moved (hP : Keyed P) : ((movedSnaps P o).map (·.name)).Nodup :=
  hP.nodup_sorted.sublist (List.filter_sublist.map _)

theorem Keyed.find_moved (hP : Keyed P) (n : String) :
    (movedSnaps P o).find? (·.name = n) = (P.snaps.lookup n).filter fun s => s.txg ≤ o := by
  cases hσ : P.snaps.lookup n with
  | none =>
    rw [Option.filter_none, List.find?_eq_none]
    intro s hs hn
    obtain rfl : s.name = n := by simpa using hn
    rw [(hP.mem_moved.mp hs).1] at hσ
    cases hσ
  | some σ =>
    have hname := hP n σ hσ
    by_cases hle : σ.txg ≤ o
    · have hmem : σ ∈ movedSnaps P o := hP.mem_moved.mpr ⟨by rwa [hname], hle⟩
      rw [Option.filter_some, if_pos (by simpa using hle)]
      cases hfind : (movedSnaps P o).find? (·.name = n) with
      | none => exact absurd (List.find?_eq_none.mp hfind σ hmem) (by simp [hname])
      | some τ =>
        have hτ := (hP.mem_moved.mp (List.mem_of_find?_eq_some hfind)).1
        obtain rfl : τ.name = n := by simpa using List.find?_some hfind
        exact congrArg some (Option.some_inj.mp (hτ.symm.trans hσ))
    · rw [Option.filter_some, if_neg (by simpa using hle), List.find?_eq_none]
      intro s hs hn
      obtain rfl : s.name = n := by simpa using hn
      obtain ⟨hs, hs'⟩ := hP.mem_moved.mp hs
      rw [hσ] at hs
      exact hle (Option.some_inj.mp hs ▸ hs')

theorem Represents.keyed (h : Represents m G) (hP : m.ds.lookup p = some P) : Keyed P := by
  intro k s hs
  have hsnap : m.lookupSnap p k = some s := by simpa [Mem.lookupSnap, hP] using hs
  exact (h.snap hsnap).1

theorem mem_movedSnaps (h : Represents m G) (hP : m.ds.lookup p = some P) {s : Snapshot} :
    s ∈ movedSnaps P o ↔ m.lookupSnap p s.name = some s ∧ s.txg ≤ o := by
  simp [(h.keyed hP).mem_moved, Mem.lookupSnap, hP]

theorem find_movedSnaps (h : Represents m G) (hP : m.ds.lookup p = some P) (n : String) :
    (movedSnaps P o).find? (·.name = n) = (m.lookupSnap p n).filter fun s => s.txg ≤ o := by
  simp [(h.keyed hP).find_moved, Mem.lookupSnap, hP]

/-- The clones of what is moved follow it; other origins stay. -/
theorem handedOrigin_movedSnaps (h : Represents m G) (hP : m.ds.lookup p = some P) {e : String}
    {E : Dataset} (hE : m.ds.lookup e = some E) :
    (G.origin e = none → handedOrigin c p (movedSnaps P o) E.origin = "") ∧
      ∀ y q, G.origin e = some y → G.owner y = some q →
        handedOrigin c p (movedSnaps P o) E.origin =
          snapPath (if q = p ∧ y ≤ o then c else q) (G.name y) := by
  unfold handedOrigin
  refine ⟨fun ho => ?_, fun y q ho hq => ?_⟩
  · have hnone : (movedSnaps P o).find? (fun s => E.origin = snapPath p s.name) = none := by
      rw [List.find?_eq_none, h.independent hE ho]
      intro s _ heq
      exact snapPath_ne_empty p s.name (by simpa using heq.symm)
    rw [hnone, h.independent hE ho]
  · have hpq := h.clone hE ho hq
    obtain ⟨σ, hσ, hname, htxg, _⟩ := h.lookupSnap_eq hq
    have hplain := h.plain (G.owner_alive hq)
    have hp := h.plain (h.alive_of_lookup hP)
    cases hfind : (movedSnaps P o).find? (fun s => E.origin = snapPath p s.name) with
    | some s =>
      have horigin : E.origin = snapPath p s.name := by simpa using List.find?_some hfind
      obtain ⟨hs, hle⟩ := (mem_movedSnaps h hP).mp (List.mem_of_find?_eq_some hfind)
      obtain ⟨rfl, hsname⟩ := snapPath_inj hplain hp (hpq.symm.trans horigin)
      rw [← hsname, hσ] at hs
      rw [← Option.some_inj.mp hs, htxg] at hle
      simp [hle, hsname]
    | none =>
      rw [if_neg]
      · exact hpq
      · rintro ⟨rfl, hle⟩
        have hmem : σ ∈ movedSnaps P o := (mem_movedSnaps h hP).mpr ⟨by rwa [hname], by omega⟩
        exact List.find?_eq_none.mp hfind σ hmem (by simp [hpq, hname])

/-- The state `promote` leaves: what its loop leaves, and the two origins it swaps. -/
theorem promoted (h : Represents m G) (hc : G.Promotable c p o) {P : Dataset}
    (hP : m.ds.lookup p = some P) {m' : Mem} (htxg : m'.txg = m.txg)
    (hnone : ∀ e, m.ds.lookup e = none → m'.ds.lookup e = none)
    (hsome : ∀ e E, m.ds.lookup e = some E → ∃ E', m'.ds.lookup e = some E' ∧ E'.name = E.name ∧
      (∀ n, E'.snaps.lookup n = handedSnaps c p (movedSnaps P o) e E n) ∧
      E'.origin = if e = p then snapPath c (G.name o)
        else if e = c then handedOrigin c p (movedSnaps P o) P.origin
        else handedOrigin c p (movedSnaps P o) E.origin) :
    Represents m' (G.promote c p o hc) := by
  have hne : c ≠ p := (CloneGraph.origin_ne hc.origin hc.owner).symm
  have hback : ∀ {e E'}, m'.ds.lookup e = some E' → ∃ E, m.ds.lookup e = some E ∧
      E'.name = E.name ∧ (∀ n, E'.snaps.lookup n = handedSnaps c p (movedSnaps P o) e E n) ∧
      E'.origin = if e = p then snapPath c (G.name o)
        else if e = c then handedOrigin c p (movedSnaps P o) P.origin
        else handedOrigin c p (movedSnaps P o) E.origin := by
    intro e E' hE'
    cases hE : m.ds.lookup e with
    | none => exact absurd (hnone e hE) (by simp [hE'])
    | some E =>
      obtain ⟨E'', hE'', hrest⟩ := hsome e E hE
      obtain rfl := Option.some_inj.mp (hE'.symm.trans hE'')
      exact ⟨E, rfl, hrest⟩
  have hsnapOf : ∀ {e E}, m.ds.lookup e = some E → ∀ n, E.snaps.lookup n = m.lookupSnap e n := by
    intro e E hE n
    simp [Mem.lookupSnap, hE]
  have hsnapOf' : ∀ {e E'}, m'.ds.lookup e = some E' → ∀ {n}, E'.snaps.lookup n =
      m'.lookupSnap e n := by
    intro e E' hE' n
    simp [Mem.lookupSnap, hE']
  refine ⟨?_, h.plain, ?_, ?_, ?_, ?_, ?_, htxg.trans h.txg⟩
  · intro e
    rw [show (G.promote c p o hc).alive e ↔ G.alive e from Iff.rfl, h.alive]
    cases hE : m.ds.lookup e with
    | none => simp [hnone e hE]
    | some E =>
      obtain ⟨E', hE', _⟩ := hsome e E hE
      simp [hE']
  · intro e E' hE'
    obtain ⟨E, hE, hname, _⟩ := hback hE'
    rw [hname, h.named hE]
  · intro e n τ hτ
    obtain ⟨E', hE', hτ⟩ := Option.bind_eq_some_iff.mp hτ
    obtain ⟨E, hE, _, hsnaps, _⟩ := hback hE'
    rw [hsnaps n] at hτ
    simp only [handedSnaps, find_movedSnaps h hP, hsnapOf hE] at hτ
    -- a snapshot that was moved, or one that stays where it was
    have hcase : (e = c ∧ m.lookupSnap p n = some τ ∧ τ.txg ≤ o) ∨
        (m.lookupSnap e n = some τ ∧ ¬ (e = p ∧ τ.txg ≤ o)) := by
      split_ifs at hτ with hec hep
      · rcases Option.or_eq_some_iff.mp hτ with hτ | ⟨_, hτ⟩
        · obtain ⟨hτ, hle⟩ := Option.filter_eq_some_iff.mp hτ
          exact .inl ⟨hec, hτ, by simpa using hle⟩
        · exact .inr ⟨hτ, fun hep => hne (hec.symm.trans hep.1)⟩
      · refine .inr ⟨hτ, fun hle => hep ⟨hle.1, τ, ?_, (h.snap hτ).1⟩⟩
        rw [mem_movedSnaps h hP, (h.snap hτ).1, ← hle.1]
        exact ⟨hτ, hle.2⟩
    simp only [CloneGraph.promote]
    obtain ⟨rfl, hτ, hle⟩ | ⟨hτ, hstays⟩ := hcase
    · obtain ⟨hname, howner, hn, hmarked⟩ := h.snap hτ
      exact ⟨hname, by rw [if_pos ⟨howner, hle⟩], hn, hmarked⟩
    · obtain ⟨hname, howner, hn, hmarked⟩ := h.snap hτ
      refine ⟨hname, ?_, hn, hmarked⟩
      rw [if_neg fun hmoved => hstays ⟨Option.some_inj.mp (howner.symm.trans hmoved.1), hmoved.2⟩]
      exact howner
  · intro x e hx
    simp only [CloneGraph.promote] at hx ⊢
    split_ifs at hx with hmoved
    · obtain rfl := Option.some_inj.mp hx
      obtain ⟨C, hC⟩ := h.lookup_of_alive (G.origin_alive hc.origin)
      obtain ⟨C', hC', _, hsnaps, _⟩ := hsome _ C hC
      obtain ⟨σ, hσ, _, htxg, _⟩ := h.lookupSnap_eq hmoved.1
      refine ⟨σ, ?_, htxg⟩
      have hle : σ.txg ≤ o := by omega
      rw [← hsnapOf' hC', hsnaps, handedSnaps, if_pos rfl, find_movedSnaps h hP, hσ,
        Option.filter_some, if_pos (by simpa using hle), Option.some_or]
    · obtain ⟨E, hE⟩ := h.lookup_of_alive (G.owner_alive hx)
      obtain ⟨E', hE', _, hsnaps, _⟩ := hsome _ E hE
      obtain ⟨σ, hσ, hname, htxg, _⟩ := h.lookupSnap_eq hx
      refine ⟨σ, ?_, htxg⟩
      rw [← hsnapOf' hE', hsnaps, handedSnaps, find_movedSnaps h hP, hsnapOf hE]
      split_ifs with hec hep
      · -- nothing of that name comes from `p`
        subst hec
        have hfree : (m.lookupSnap p (G.name x)).filter (fun s => s.txg ≤ o) = none := by
          cases hτ : m.lookupSnap p (G.name x) with
          | none => rfl
          | some τ =>
            obtain ⟨_, howner, hn, _⟩ := h.snap hτ
            have hle : ¬ τ.txg ≤ o := fun hle => hc.names _ _ howner hle hx hn
            rw [Option.filter_some, if_neg (by simpa using hle)]
        rw [hfree, Option.none_or, hσ]
      · obtain ⟨rfl, s, hs, hsn⟩ := hep
        obtain ⟨hs, hle⟩ := (mem_movedSnaps h hP).mp hs
        rw [hsn, hσ] at hs
        obtain rfl := Option.some_inj.mp hs
        exact absurd ⟨hx, by omega⟩ hmoved
      · exact hσ
  · intro e E' hE' ho
    obtain ⟨E, hE, _, _, horigin⟩ := hback hE'
    simp only [CloneGraph.promote] at ho
    split_ifs at ho with hec hep
    · rw [horigin, if_neg (fun hep => hne (hec.symm.trans hep)), if_pos hec]
      exact (handedOrigin_movedSnaps h hP hP).1 ho
    · rw [horigin, if_neg hep, if_neg hec]
      exact (handedOrigin_movedSnaps h hP hE).1 ho
  · intro e E' y q hE' ho hq
    obtain ⟨E, hE, _, _, horigin⟩ := hback hE'
    have hq' : ∃ q', G.owner y = some q' ∧ q = if q' = p ∧ y ≤ o then c else q' := by
      simp only [CloneGraph.promote] at hq
      split_ifs at hq with hmoved
      · exact ⟨p, hmoved.1, by rw [if_pos ⟨rfl, hmoved.2⟩]; exact (Option.some_inj.mp hq).symm⟩
      · refine ⟨q, hq, ?_⟩
        rw [if_neg]
        rintro ⟨rfl, hle⟩
        exact hmoved ⟨hq, hle⟩
    obtain ⟨q', hq', rfl⟩ := hq'
    simp only [CloneGraph.promote] at ho ⊢
    split_ifs at ho with hec hep
    · rw [horigin, if_neg (fun hep => hne (hec.symm.trans hep)), if_pos hec]
      exact (handedOrigin_movedSnaps h hP hP).2 y q' ho hq'
    · obtain rfl := Option.some_inj.mp ho
      obtain rfl := Option.some_inj.mp (hc.owner.symm.trans hq')
      rw [horigin, if_pos hep, if_pos ⟨rfl, Nat.le_refl _⟩]
    · rw [horigin, if_neg hep, if_neg hec]
      exact (handedOrigin_movedSnaps h hP hE).2 y q' ho hq'

/-- A promote of a clone meets a snapshot of the same name, or leaves what its loop leaves and swaps
two origins. -/
theorem promote_clone {n : String} {C P : Dataset} {σ : Snapshot} (hne : c ≠ p) (hc : Plain c)
    (hp : Plain p)
    (hC : m.ds.lookup c = some C) (hP : m.ds.lookup p = some P) (hkeyed : Keyed P)
    (horigin : C.origin = snapPath p n) (hσ : m.lookupSnap p n = some σ) :
    (∃ s ∈ movedSnaps P σ.txg, (C.snaps.lookup s.name).isSome ∧ ∃ e, m.promote c = (.error e, m)) ∨
    ((∀ s ∈ movedSnaps P σ.txg, C.snaps.lookup s.name = none) ∧ (m.promote c).1 = .ok () ∧
      (m.promote c).2.txg = m.txg ∧
        (∀ e, m.ds.lookup e = none → (m.promote c).2.ds.lookup e = none) ∧
      ∀ e E, m.ds.lookup e = some E → ∃ E', (m.promote c).2.ds.lookup e = some E' ∧
        E'.name = E.name ∧
        (∀ k, E'.snaps.lookup k = handedSnaps c p (movedSnaps P σ.txg) e E k) ∧
        E'.origin = if e = p then snapPath c n
          else if e = c then handedOrigin c p (movedSnaps P σ.txg) P.origin
          else handedOrigin c p (movedSnaps P σ.txg) E.origin) := by
  unfold Mem.promote
  simp only [hC, horigin, snapPath_ne_empty, if_false, split_snapPath hp, hP, hσ]
  rw [← movedSnaps]
  cases hfind : (movedSnaps P σ.txg).find? fun s => (C.snaps.lookup s.name).isSome with
  | some s =>
    have hsome := List.find?_some hfind
    exact .inl ⟨s, List.mem_of_find?_eq_some hfind, hsome, _, rfl⟩
  | none =>
    have hnodup : ((movedSnaps P σ.txg).map (·.name)).Nodup := hkeyed.nodup_moved
    have hfold := lookup_foldl_moveSnap hne hc hp _ hnodup m.ds
    obtain ⟨P', hP', _, _, hporigin⟩ := (hfold p).1 P hP
    refine .inr ⟨fun s hs => ?_, rfl, rfl, fun e he => ?_, fun e E hE => ?_⟩
    · simpa using List.find?_eq_none.mp hfind s hs
    · simp [(hfold e).2 he]
    · obtain ⟨E', hE', hname, hsnaps, horigin'⟩ := (hfold e).1 E hE
      refine ⟨_, by simp only [FinMap.lookup_modify, hE', Option.map_some]; rfl, ?_, ?_, ?_⟩
      · split_ifs <;> exact hname
      · split_ifs <;> exact hsnaps
      · by_cases hep : e = p
        · simp [hep]
        · by_cases hec : e = c
          · subst hec
            simp [hne, hP', hporigin]
          · simp [hep, hec, horigin']

/-- A promote finds no dataset or no origin, meets a snapshot of the same name, or is the promote
of the clone graph. -/
theorem Represents.promote_cases (h : Represents m G) (c : String) :
    (¬ G.alive c ∧ m.promote c = (.error (.notExist c), m)) ∨
      (G.alive c ∧ G.origin c = none ∧ m.promote c = (.ok (), m)) ∨
      ∃ p o, G.origin c = some o ∧ G.owner o = some p ∧
        ((¬ G.Promotable c p o ∧ ∃ e, m.promote c = (.error e, m)) ∨
          ∃ hc, (m.promote c).1 = .ok () ∧ Represents (m.promote c).2 (G.promote c p o hc)) := by
  cases hC : m.ds.lookup c with
  | none => exact .inl ⟨by simp [h.alive, hC], by simp only [Mem.promote, hC]⟩
  | some C =>
    have halive := h.alive_of_lookup hC
    cases ho : G.origin c with
    | none => exact .inr (.inl ⟨halive, rfl, by simp [Mem.promote, hC, h.independent hC ho]⟩)
    | some o =>
      obtain ⟨p, hp⟩ := G.origin_owned ho
      refine .inr (.inr ⟨p, o, rfl, hp, ?_⟩)
      have hne : c ≠ p := (CloneGraph.origin_ne ho hp).symm
      obtain ⟨P, hP⟩ := h.lookup_of_alive (G.owner_alive hp)
      obtain ⟨σ, hσ, _, rfl, _⟩ := h.lookupSnap_eq hp
      rcases promote_clone hne (h.plain halive) (h.plain (G.owner_alive hp)) hC hP (h.keyed hP)
        (h.clone hC ho hp) hσ with
        ⟨s, hs, hsome, herror⟩ | ⟨hfree, hok, htxg, hnone, hsome⟩
      · refine .inl ⟨fun hc => ?_, herror⟩
        obtain ⟨hs, hle⟩ := (mem_movedSnaps h hP).mp hs
        obtain ⟨τ, hτ⟩ := Option.isSome_iff_exists.mp hsome
        obtain ⟨_, howner, hn, _⟩ := h.snap hs
        obtain ⟨_, howner', hn', _⟩ :=
          h.snap (d := c) (n := s.name) (σ := τ) (by simpa [Mem.lookupSnap, hC] using hτ)
        exact hc.names _ _ howner hle howner' (hn.trans hn'.symm)
      · have hc : G.Promotable c p σ.txg := by
          refine ⟨ho, hp, fun x y hx hle hy hxy => ?_⟩
          obtain ⟨τ, hτ, hτname, hτtxg, _⟩ := h.lookupSnap_eq hx
          obtain ⟨υ, hυ, _⟩ := h.lookupSnap_eq hy
          have hmem : τ ∈ movedSnaps P σ.txg :=
            (mem_movedSnaps h hP).mpr ⟨by rwa [hτname], by omega⟩
          have hυC : C.snaps.lookup τ.name = some υ := by
            rw [hτname, hxy]
            simpa [Mem.lookupSnap, hC] using hυ
          rw [hfree τ hmem] at hυC
          cases hυC
        exact .inr ⟨hc, hok, promoted h hc hP htxg hnone hsome⟩

end Moved

end SimpleZfsCsi.Memzfs
