import SimpleZfsCsi.Memzfs.Invariant

/-!
# The history of a dataset

The lineage of a dataset is its own snapshots, those of its origin's dataset up to the origin,
and so on through the origins. A promote hands snapshots from one dataset to another, and turns
the edge between the two around, so that every dataset keeps its lineage. A promote is undone by
promoting back, so what it keeps one way it keeps the other way too.
-/

namespace SimpleZfsCsi.Memzfs

open Library

/-- The snapshot `k` of `d` is one of `e` that is not younger than `t`, or belongs to the lineage
of `e` through its origin. -/
inductive Upto (m : Mem) : String → Nat → String → String → Prop where
  | own {e k : String} {t : Nat} {σ : Snapshot} (hσ : m.lookupSnap e k = some σ) (ht : σ.txg ≤ t) :
    Upto m e t e k
  | origin {e q j d k : String} {t : Nat} {E : Dataset} {ω : Snapshot} (hE : m.ds.lookup e = some E)
      (horigin : E.origin = snapPath q j) (hω : m.lookupSnap q j = some ω)
        (h : Upto m q ω.txg d k) : Upto m e t d k

/-- The lineage of `e`: all its snapshots, and its lineage through its origin. -/
def Lineage (m : Mem) (e d k : String) : Prop := ∃ t, Upto m e t d k

section Lineage

variable {m m' : Mem} {c p n e d k : String} {o σ : Snapshot} {s t : Nat}

theorem Upto.mono (h : Upto m e s d k) (hst : s ≤ t) : Upto m e t d k := by
  cases h with
  | own hσ hs => exact .own hσ (hs.trans hst)
  | origin hE horigin hω h => exact .origin hE horigin hω h

/-- The origin of `e` is not younger than `t`. -/
def Reaches (m : Mem) (e : String) (t : Nat) : Prop :=
  ∀ E q j ω, m.ds.lookup e = some E → E.origin = snapPath q j →
    m.lookupSnap q j = some ω → ω.txg ≤ t

/-- The lineage of an origin reaches as far as the origin. -/
theorem Sound.reaches (hs : Sound m []) {q j : String} {ω : Snapshot}
    (hω : m.lookupSnap q j = some ω) :
    Reaches m q ω.txg := by
  intro Q r i ψ hQ horigin hψ
  obtain ⟨r', i', ψ', horigin', hψ', hyounger⟩ := hs.origin hQ (horigin ▸ snapPath_ne_empty _ _)
  obtain ⟨rfl, rfl⟩ :=
    snapPath_inj (hs.plain_of_snap hψ') (hs.plain_of_snap hψ) (horigin'.symm.trans horigin)
  obtain rfl := Option.some.inj (hψ'.symm.trans hψ)
  exact (hyounger j ω hω).le

/-- Where the lineage of `e` up to `t` is after a promote. -/
def handedAt (c p : String) (o : Snapshot) (e : String) (t : Nat) : String :=
  if e = p ∧ t ≤ o.txg then c else e

/-- After a promote, `p` continues in what was handed to `c`. -/
theorem Promoted.through (h : Promoted m m' c p n o) (hu : Upto m' c o.txg d k) :
    Upto m' p t d k := by
  obtain ⟨C, hC, _⟩ := h.origin
  obtain ⟨P, hP, _⟩ := lookup_of_lookupSnap h.snap
  obtain ⟨C', hC', _⟩ := h.lookup_of hC
  obtain ⟨P', hP', _⟩ := h.lookup_of hP
  have ho : m'.lookupSnap c n = some o := by
    have hkept := h.snap_kept h.snap
    rwa [handed, if_pos ⟨rfl, Nat.le_refl _⟩] at hkept
  exact .origin hP' (h.swapped P hP C' P' hC' hP').2 ho hu

/-- A promote keeps every part of a lineage that goes as far as the next origin. -/
theorem Promoted.upto (hs : Sound m []) (h : Promoted m m' c p n o) (hu : Upto m e t d k)
    (hσ : m.lookupSnap d k = some σ) (hreaches : Reaches m e t) :
    Upto m' (handedAt c p o e t) t (handed c p o d σ) k := by
  induction hu with
  | @own e k t σ' hσ' ht =>
    obtain rfl := Option.some.inj (hσ'.symm.trans hσ)
    have hkept := h.snap_kept hσ
    by_cases hmoved : e = p ∧ σ'.txg ≤ o.txg
    · rw [handed, if_pos hmoved] at hkept ⊢
      by_cases hup : e = p ∧ t ≤ o.txg
      · rw [handedAt, if_pos hup]
        exact .own hkept ht
      · -- the snapshot was handed to `c`, and `p` goes on to younger ones
        rw [handedAt, if_neg hup, hmoved.1]
        exact h.through (.own hkept hmoved.2)
    · have hup : ¬ (e = p ∧ t ≤ o.txg) := fun hup => hmoved ⟨hup.1, ht.trans hup.2⟩
      rw [handed, if_neg hmoved] at hkept ⊢
      rw [handedAt, if_neg hup]
      exact .own hkept ht
  | @origin e q j d k t E ω hE horigin hω hu ih =>
    have hq : Upto m' (handed c p o q ω) ω.txg (handed c p o d σ) k := ih hσ (hs.reaches hω)
    obtain ⟨X', hX', horigin'⟩ := h.clone_kept hs hω hE horigin
    -- the edge of `e` goes to the same snapshot, from `e` or from the other end of the promote
    have hedge : ∀ t, Upto m' (Equiv.swap c p e) t (handed c p o d σ) k := fun t =>
      .origin hX' horigin' (h.snap_kept hω) hq
    by_cases hec : e = c
    · subst hec
      obtain ⟨C, hC, hpn⟩ := h.origin
      obtain rfl := Option.some.inj (hC.symm.trans hE)
      obtain ⟨P, hP, _⟩ := lookup_of_lookupSnap h.snap
      obtain ⟨rfl, rfl⟩ := snapPath_inj (hs.plain_of_snap hω) (hs.plain hP) (horigin.symm.trans hpn)
      obtain rfl := Option.some.inj (hω.symm.trans h.snap)
      rw [handedAt, if_neg (fun hup => h.ne hup.1)]
      rw [handed, if_pos ⟨rfl, Nat.le_refl _⟩] at hq
      exact hq.mono (hreaches _ _ _ _ hE horigin hω)
    by_cases hep : e = p
    · subst hep
      rw [Equiv.swap_apply_right] at hedge
      unfold handedAt
      split_ifs with hup
      · exact hedge t
      · exact h.through (hedge o.txg)
    · rw [Equiv.swap_apply_of_ne_of_ne hec hep] at hedge
      rw [handedAt, if_neg (fun hup => hep hup.1)]
      exact hedge t

theorem Promoted.lineage (hs : Sound m []) (h : Promoted m m' c p n o) (hu : Lineage m e d k)
    (hσ : m.lookupSnap d k = some σ) : Lineage m' e (handed c p o d σ) k := by
  obtain ⟨t, hu⟩ := hu
  have hreaches : Reaches m e (max t (m.txg + 1)) := by
    intro E q j ω _ _ hω
    have htxg := (hs.snap hω).2
    omega
  have hkept := h.upto hs (hu.mono (Nat.le_max_left t (m.txg + 1))) hσ hreaches
  have ho := (hs.snap h.snap).2
  rw [handedAt, if_neg (by omega)] at hkept
  exact ⟨_, hkept⟩

/-- The snapshots of a clone are younger than its origin. -/
theorem Promoted.younger (hs : Sound m []) (h : Promoted m m' c p n o) {j : String} {τ : Snapshot}
    (hτ : m.lookupSnap c j = some τ) : o.txg < τ.txg := by
  obtain ⟨C, hC, hpn⟩ := h.origin
  obtain ⟨P, hP, _⟩ := lookup_of_lookupSnap h.snap
  obtain ⟨q, j', ω, hqj, hω, hyounger⟩ := hs.origin hC (hpn ▸ snapPath_ne_empty _ _)
  obtain ⟨rfl, rfl⟩ := snapPath_inj (hs.plain_of_snap hω) (hs.plain hP) (hqj.symm.trans hpn)
  obtain rfl := Option.some.inj (hω.symm.trans h.snap)
  exact hyounger j τ hτ

/-- Which snapshots of `c` were handed to it. -/
theorem Promoted.handed_iff (hs : Sound m []) (h : Promoted m m' c p n o) {τ : Snapshot} :
    (m'.lookupSnap c k = some τ ∧ τ.txg ≤ o.txg) ↔ m.lookupSnap p k = some τ ∧ τ.txg ≤ o.txg := by
  constructor
  · rintro ⟨hτ, hle⟩
    rcases h.snap_cases hτ with ⟨_, hτ, _⟩ | ⟨hτ, _⟩
    · exact ⟨hτ, hle⟩
    · exact absurd hle (Nat.not_le_of_lt (h.younger hs hτ))
  · rintro ⟨hτ, hle⟩
    have hkept := h.snap_kept hτ
    rw [handed, if_pos ⟨rfl, hle⟩] at hkept
    exact ⟨hkept, hle⟩

/-- A promote back undoes a promote. -/
theorem Promoted.symm (hs : Sound m []) (h : Promoted m m' c p n o) : Promoted m' m p c n o := by
  obtain ⟨C, hC, hpn⟩ := h.origin
  obtain ⟨P, hP, _⟩ := lookup_of_lookupSnap h.snap
  obtain ⟨C', hC', _⟩ := h.lookup_of hC
  obtain ⟨P', hP', _⟩ := h.lookup_of hP
  obtain ⟨hCorigin, hPorigin⟩ := h.swapped P hP C' P' hC' hP'
  have hfree : ∀ k s, m'.lookupSnap c k = some s → s.txg ≤ o.txg → m'.lookupSnap p k = none := by
    intro k s hs' hle
    have hp := ((h.handed_iff hs).mp ⟨hs', hle⟩).1
    rw [h.snaps, if_neg h.ne.symm, if_pos rfl, hp]
    simpa using hle
  refine ⟨h.ne.symm, ⟨P', hP', hPorigin⟩, ((h.handed_iff hs).mpr ⟨h.snap, Nat.le_refl _⟩).1,
    hfree, h.txg.symm,
    fun e => (h.face e).symm, fun e k => ?_, ?_, ?_⟩
  · split_ifs with hep hec
    · subst hep
      cases hσ : m.lookupSnap e k with
      | none =>
        have hnone : (m'.lookupSnap c k).filter (fun s => s.txg ≤ o.txg) = none := by
          rw [Option.filter_eq_none_iff]
          intro s hs' hle
          have hp := ((h.handed_iff hs).mp ⟨hs', by simpa using hle⟩).1
          rw [hσ] at hp
          cases hp
        rw [hnone, Option.none_or, h.snaps, if_neg h.ne.symm, if_pos rfl, hσ]
        rfl
      | some σ =>
        have hkept := h.snap_kept hσ
        by_cases hle : σ.txg ≤ o.txg
        · rw [handed, if_pos ⟨rfl, hle⟩] at hkept
          rw [hkept, Option.filter_some, if_pos (by simpa using hle), Option.some_or]
        · rw [handed, if_neg (by simp [hle])] at hkept
          have hnone : (m'.lookupSnap c k).filter (fun s => s.txg ≤ o.txg) = none := by
            rw [Option.filter_eq_none_iff]
            intro s hs' hle'
            rw [hfree k s hs' (by simpa using hle')] at hkept
            cases hkept
          rw [hnone, Option.none_or, hkept]
    · subst hec
      cases hσ : m.lookupSnap e k with
      | none =>
        rw [eq_comm, Option.filter_eq_none_iff]
        intro s hs' hlt
        rcases h.snap_cases hs' with ⟨_, _, hle⟩ | ⟨hs'', _⟩
        · exact absurd hle (by simpa using hlt)
        · rw [hσ] at hs''
          cases hs''
      | some σ =>
        have hkept := h.snap_kept hσ
        rw [handed, if_neg (fun hup => h.ne hup.1)] at hkept
        rw [hkept, Option.filter_some, if_pos (by simpa using h.younger hs hσ)]
    · rw [h.snaps, if_neg hec, if_neg hep]
  · intro D hD E F hE hF
    obtain rfl := Option.some.inj (hC'.symm.trans hD)
    obtain rfl := Option.some.inj (hP.symm.trans hE)
    obtain rfl := Option.some.inj (hC.symm.trans hF)
    exact ⟨hCorigin.symm, hpn⟩
  · intro e E' E hep hec hE' hE
    rcases h.others e E E' hec hep hE hE' with ⟨k, s, hs', hle, hk, hk'⟩ | ⟨_, hsame⟩
    · obtain ⟨hmoved, _⟩ := (h.handed_iff hs).mpr ⟨hs', hle⟩
      exact .inl ⟨k, s, hmoved, hle, hk', hk⟩
    · refine .inr ⟨fun k s hs' hle horigin => ?_, hsame.symm⟩
      -- no snapshot of `c` had the name of one that was handed to it
      have hp := ((h.handed_iff hs).mp ⟨hs', hle⟩).1
      have heq : E.origin = snapPath c k := hsame.symm.trans horigin
      obtain ⟨q, j, ω, hqj, hω, _⟩ := hs.origin hE (heq ▸ snapPath_ne_empty _ _)
      obtain ⟨rfl, rfl⟩ := snapPath_inj (hs.plain_of_snap hω) (hs.plain hC) (hqj.symm.trans heq)
      rw [h.free _ s hp hle] at hω
      cases hω

/-- Nothing is lost or merged on the way there and back. -/
theorem Promoted.handed_back (hs : Sound m []) (h : Promoted m m' c p n o)
    (hσ : m.lookupSnap d k = some σ) :
    handed p c o (handed c p o d σ) σ = d := by
  unfold handed
  by_cases hmoved : d = p ∧ σ.txg ≤ o.txg
  · rw [if_pos hmoved, if_pos ⟨rfl, hmoved.2⟩, hmoved.1]
  · rw [if_neg hmoved, if_neg]
    rintro ⟨rfl, hle⟩
    exact Nat.not_le_of_lt (h.younger hs hσ) hle

theorem Promoted.lineage_iff (hs : Sound m []) (h : Promoted m m' c p n o)
    (hσ : m.lookupSnap d k = some σ) :
    Lineage m' e (handed c p o d σ) k ↔ Lineage m e d k := by
  constructor
  · intro hu
    have hback := (h.symm hs).lineage (hs.promoted h) hu (h.snap_kept hσ)
    rwa [h.handed_back hs hσ] at hback
  · exact fun hu => h.lineage hs hu hσ

end Lineage

/-! ## What a promote keeps -/

/-- From `m` to `m'` snapshots have moved, and nothing else has happened to the history of any
dataset; the snapshot `k` of `d` is now one of `place d k`. -/
structure HistoryKept (place : String → String → String) (m m' : Mem) : Prop where
  datasets : ∀ d, (m'.ds.lookup d).isSome = (m.ds.lookup d).isSome
  kept : ∀ d k σ, m.lookupSnap d k = some σ → m'.lookupSnap (place d k) k = some σ
  came : ∀ d' k σ, m'.lookupSnap d' k = some σ → ∃ d, m.lookupSnap d k = some σ ∧ place d k = d'
  distinct : ∀ d₁ d₂ k σ₁ σ₂, m.lookupSnap d₁ k = some σ₁ → m.lookupSnap d₂ k = some σ₂ →
    place d₁ k = place d₂ k → d₁ = d₂
  clones : ∀ d k σ, m.lookupSnap d k = some σ →
    (m'.clonesOf (snapPath (place d k) k)).length = (m.clonesOf (snapPath d k)).length
  lineage : ∀ e d k σ, m.lookupSnap d k = some σ → (Lineage m' e (place d k) k ↔ Lineage m e d k)

theorem HistoryKept.refl (m : Mem) : HistoryKept (fun d _ => d) m m where
  datasets _ := rfl
  kept _ _ _ hσ := hσ
  came d' _ _ hσ := ⟨d', hσ, rfl⟩
  distinct _ _ _ _ _ _ _ h := h
  clones _ _ _ _ := rfl
  lineage _ _ _ _ _ := Iff.rfl

theorem Promoted.historyKept {m m' : Mem} {c p n : String} {o : Snapshot} (hs : Sound m [])
    (h : Promoted m m' c p n o) : ∃ place, HistoryKept place m m' := by
  -- where the snapshot of a name goes, if there is one
  let place : String → String → String :=
    fun d k => ((m.lookupSnap d k).map (handed c p o d)).getD d
  have hplace : ∀ {d k σ}, m.lookupSnap d k = some σ → place d k = handed c p o d σ := by
    intro d k σ hσ
    simp [place, hσ]
  refine ⟨place, fun d => ?_, fun d k σ hσ => ?_, fun d' k σ hσ => ?_,
    fun d₁ d₂ k σ₁ σ₂ hσ₁ hσ₂ heq => ?_,
    fun d k σ hσ => ?_, fun e d k σ hσ => ?_⟩
  · rw [← Mem.isSome_face, ← Mem.isSome_face, h.face]
  · rw [hplace hσ]
    exact h.snap_kept hσ
  · have hback := (h.symm hs).snap_kept hσ
    exact ⟨_, hback, (hplace hback).trans ((h.symm hs).handed_back (hs.promoted h) hσ)⟩
  · rw [hplace hσ₁, hplace hσ₂] at heq
    have hkept₁ := h.snap_kept hσ₁
    rw [heq, h.snap_kept hσ₂] at hkept₁
    obtain rfl := Option.some.inj hkept₁
    rw [← h.handed_back hs hσ₁, heq, h.handed_back hs hσ₂]
  · rw [hplace hσ]
    exact length_clonesOf_swap fun x => h.mem_clonesOf hs hσ
  · rw [hplace hσ]
    exact h.lineage_iff hs hσ

/-- A promote of a machine that succeeds is one of its memory. -/
theorem Machine.promote_ok {a : Machine} {c : String} (hok : (a.call (.promote c)).1 = .ok ()) :
    (a.call (.promote c)).2.mem = (a.mem.promote c).2 := by
  rcases answered_call a (.promote c) with ⟨err, hr⟩ | hr
  · rw [show (a.call (.promote c)).1 = .error err from congrArg Prod.fst hr] at hok
    cases hok
  · exact congrArg Prod.snd hr

/-- In every state that a run of calls on a fresh in-memory ZFS reaches, a promote that fails
changes nothing, and one that succeeds keeps the history of every dataset. -/
theorem promote_keeps_history (pools : List String) (hpools : ∀ p ∈ pools, '/' ∉ p.toList ∧ Plain p)
    (calls : List MachineCall) (hcalls : ∀ c ∈ calls, c.Proper) (c : String) :
    (∀ err, (((Machine.new pools).run calls).call (.promote c)).1 = .error err →
      (((Machine.new pools).run calls).call (.promote c)).2.mem =
        ((Machine.new pools).run calls).mem) ∧
    ((((Machine.new pools).run calls).call (.promote c)).1 = .ok () →
      ∃ place, HistoryKept place ((Machine.new pools).run calls).mem
        (((Machine.new pools).run calls).call (.promote c)).2.mem) := by
  have hs : Sound ((Machine.new pools).run calls).mem [] :=
    Sound.run (a := Machine.new pools) (Sound.new hpools) hcalls
  refine ⟨fun err herr => (behaves_call (c := .promote c) trivial).error err herr, fun hok => ?_⟩
  rw [Machine.promote_ok hok]
  rcases hs.promote_cases c with ⟨r, hr⟩ | ⟨p, n, o, _, hpromoted⟩
  · rw [hr]
    exact ⟨_, .refl _⟩
  · exact hpromoted.historyKept hs

/-- A clone of a clone, and a sibling. -/
def familyPool : List MachineCall :=
  [.createDataset "tank/a" FinMap.empty, .snapshot ["tank/a@s"],
    .clone "tank/a@s" "tank/b" FinMap.empty, .snapshot ["tank/b@t"],
    .clone "tank/b@t" "tank/c" FinMap.empty, .clone "tank/a@s" "tank/e" FinMap.empty]

/-- Promoting `b` keeps the snapshot of `a` in the lineage of `c`. -/
theorem promote_keeps_history_family :
    (((Machine.new ["tank"]).run familyPool).call (.promote "tank/b")).1 = .ok () ∧
    ∃ place, HistoryKept place ((Machine.new ["tank"]).run familyPool).mem
        (((Machine.new ["tank"]).run familyPool).call (.promote "tank/b")).2.mem ∧
      Lineage (((Machine.new ["tank"]).run familyPool).call (.promote "tank/b")).2.mem "tank/c"
        (place "tank/a" "s") "s" := by
  have hpools : ∀ p ∈ ["tank"], '/' ∉ p.toList ∧ Plain p := by
    unfold Plain
    decide
  have hcalls : ∀ c ∈ familyPool, c.Proper := by
    simp [familyPool, MachineCall.Proper, Plain]
  have hok : (((Machine.new ["tank"]).run familyPool).call (.promote "tank/b")).1 = .ok () := rfl
  obtain ⟨place, hkept⟩ := (promote_keeps_history ["tank"] hpools familyPool hcalls "tank/b").2 hok
  refine ⟨hok, place, hkept, ?_⟩
  have hs : ((Machine.new ["tank"]).run familyPool).mem.lookupSnap "tank/a" "s" =
      some ⟨"s", 1, FinMap.empty, false⟩ := rfl
  refine (hkept.lineage "tank/c" "tank/a" "s" _ hs).mpr ⟨0, ?_⟩
  refine .origin (q := "tank/b") (j := "t") rfl rfl rfl ?_
  exact .origin (q := "tank/a") (j := "s") rfl rfl rfl (.own hs (Nat.le_refl _))

end SimpleZfsCsi.Memzfs
