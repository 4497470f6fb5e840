import Mathlib.Data.List.Dedup
import SimpleZfsCsi.Agent.Rounds
import SimpleZfsCsi.Memzfs.Invariant
import SimpleZfsCsi.Memzfs.Listing

/-!
# The detach loop on a pool

A promote moves the snapshot that was picked and every older one, so the rounds go through the
transaction groups of the cloned snapshots in ascending order, and stop at some of them. How many
rounds there are is decided before the first: `stops` are the transaction groups of the picks.
-/

namespace SimpleZfsCsi.Agent

open Library Api Memzfs Program

/-! ## Where the rounds stop -/

/-- The snapshots of `full` that are cloned. -/
def clonedSnaps (m : Mem) (full : String) : List Snapshot :=
  (clonedOf m full (shortNames m full)).filterMap (m.lookupSnap full)

/-- Some clone of the snapshot carries the label of a backing clone. -/
def backed (m : Mem) (full : String) (σ : Snapshot) : Bool :=
  (m.clonesOf (snapPath full σ.name)).any (labelled m)

/-- A transaction group with a snapshot that is picked: one with a backing clone, or any later than
all of those. -/
def isStop (m : Mem) (full : String) (t : Nat) : Bool :=
  (clonedSnaps m full).any (fun σ => σ.txg = t && backed m full σ) ||
    (clonedSnaps m full).all fun σ => !backed m full σ || σ.txg < t

/-- The transaction groups of the picks. -/
def stops (m : Mem) (full : String) : List Nat :=
  ((clonedSnaps m full).map (·.txg)).dedup.filter (isStop m full)

section Stops

variable {m : Mem} {full : String}

theorem mem_clonedSnaps (h : Sound m []) {σ : Snapshot} :
    σ ∈ clonedSnaps m full ↔ m.lookupSnap full σ.name = some σ ∧
      m.Cloned (snapPath full σ.name) := by
  simp only [clonedSnaps, clonedOf, List.mem_filterMap, List.mem_filter, mem_shortNames h,
    decide_eq_true_eq, ne_eq, Mem.clonesOf_eq_nil, not_not]
  constructor
  · rintro ⟨k, ⟨_, hcloned⟩, hσ⟩
    have hname := (h.snap hσ).1
    exact ⟨hname.symm ▸ hσ, hname.symm ▸ hcloned⟩
  · rintro ⟨hσ, hcloned⟩
    exact ⟨σ.name, ⟨by simp [hσ], hcloned⟩, hσ⟩

theorem mem_stops {t : Nat} : t ∈ stops m full ↔
    (∃ σ ∈ clonedSnaps m full, σ.txg = t) ∧
      ((∃ σ ∈ clonedSnaps m full, σ.txg = t ∧ backed m full σ = true) ∨
        ∀ σ ∈ clonedSnaps m full, backed m full σ = true → σ.txg < t) := by
  simp only [stops, List.mem_filter, List.mem_dedup, List.mem_map, isStop, Bool.or_eq_true,
    List.any_eq_true, Bool.and_eq_true, decide_eq_true_eq, List.all_eq_true, Bool.not_eq_true']
  refine and_congr_right fun _ => or_congr_right (forall₂_congr fun σ _ => ?_)
  cases backed m full σ <;> simp

theorem nodup_stops : (stops m full).Nodup := (List.nodup_dedup _).filter _

theorem txg_le_of_pairwise (h : Sound m []) : (choices m full).Pairwise fun x y => ∀ σ τ,
    m.lookupSnap full x.1 = some σ → m.lookupSnap full y.1 = some τ → σ.txg ≤ τ.txg := by
  have hnames : (shortNames m full).Pairwise fun j k => ∀ σ τ,
      m.lookupSnap full j = some σ → m.lookupSnap full k = some τ → σ.txg ≤ τ.txg := by
    unfold shortNames
    cases hD : m.ds.lookup full with
    | none => exact List.Pairwise.nil
    | some D =>
      have hkeyed := h.keyed hD
      have hsnap : ∀ k, m.lookupSnap full k = D.snaps.lookup k := fun k => by
        simp [Mem.lookupSnap, hD]
      rw [List.pairwise_map]
      refine List.Pairwise.imp_of_mem (fun {a b} ha hb hab σ τ hσ hτ => ?_)
        (List.pairwise_insertionSort Mem.Snapshot.before D.snaps.values)
      rw [hsnap, hkeyed.mem_sorted.mp ha] at hσ
      rw [hsnap, hkeyed.mem_sorted.mp hb] at hτ
      obtain rfl := Option.some_inj.mp hσ
      obtain rfl := Option.some_inj.mp hτ
      unfold Mem.Snapshot.before at hab
      omega
  unfold choices
  rw [List.pairwise_flatMap]
  refine ⟨fun k _ => ?_, (hnames.filter _).imp fun {j k} hjk x hx y hy => ?_⟩
  · rw [List.pairwise_map]
    refine List.pairwise_of_forall fun c c' σ τ hσ hτ => ?_
    rw [Option.some_inj.mp (hσ.symm.trans hτ)]
  · obtain ⟨_, _, rfl⟩ := List.mem_map.mp hx
    obtain ⟨_, _, rfl⟩ := List.mem_map.mp hy
    exact hjk

/-- A cloned snapshot can be chosen with each of its clones. -/
theorem mem_choices_of {σ : Snapshot} {c : String} (h : Sound m []) (hσ : σ ∈ clonedSnaps m full)
    (hc : c ∈ m.clonesOf (snapPath full σ.name)) : (σ.name, c) ∈ choices m full := by
  have hlookup := ((mem_clonedSnaps h).mp hσ).1
  refine List.mem_flatMap.mpr ⟨σ.name, List.mem_filter.mpr ⟨?_, ?_⟩, List.mem_map.mpr ⟨c, hc, rfl⟩⟩
  · exact (mem_shortNames h).mpr (by simp [hlookup])
  · simpa using List.ne_nil_of_mem hc

/-- What is known of a pick. -/
structure Pick (m : Mem) (full k c : String) (o : Snapshot) : Prop where
  snap : m.lookupSnap full k = some o
  clone : c ∈ m.clonesOf (snapPath full k)
  first : (labelled m c = true ∧ ∀ σ ∈ clonedSnaps m full, backed m full σ = true → o.txg ≤ σ.txg) ∨
    ∀ σ ∈ clonedSnaps m full, backed m full σ = false ∧ o.txg ≤ σ.txg

theorem pick_of_picked (h : Sound m []) {k c : String} (hpicked : picked m full = some (k, c)) :
    ∃ o, Pick m full k c o := by
  have hmem : (k, c) ∈ choices m full := by
    unfold picked at hpicked
    cases hfind : (choices m full).find? fun x => labelled m x.2 with
    | some y =>
      rw [hfind] at hpicked
      obtain rfl := Option.some_inj.mp hpicked
      exact List.mem_of_find?_eq_some hfind
    | none =>
      rw [hfind] at hpicked
      exact List.mem_of_mem_head? hpicked
  obtain ⟨hk, hc⟩ := mem_choices hmem
  obtain ⟨o, ho⟩ := Option.isSome_iff_exists.mp ((mem_shortNames h).mp hk)
  refine ⟨o, ho, hc, ?_⟩
  have hsorted : (choices m full).Pairwise _ := txg_le_of_pairwise h
  unfold picked at hpicked
  cases hfind : (choices m full).find? fun x => labelled m x.2 with
  | some y =>
    rw [hfind] at hpicked
    obtain rfl := Option.some_inj.mp hpicked
    have hfirst := List.find?_some hfind
    refine .inl ⟨hfirst, fun σ hσ hbacked => ?_⟩
    obtain ⟨x, hx, hlabelled⟩ := List.any_eq_true.mp hbacked
    obtain ⟨_, before, after, heq, hbefore⟩ := List.find?_eq_some_iff_append.mp hfind
    have hchoice := mem_choices_of h hσ hx
    have hlookup := ((mem_clonedSnaps h).mp hσ).1
    rw [heq] at hchoice hsorted
    rcases List.mem_append.mp hchoice with hin | hin
    · have := hbefore _ hin
      simp [hlabelled] at this
    · rcases List.mem_cons.mp hin with heq' | hin
      · obtain ⟨rfl, _⟩ := Prod.mk.inj heq'
        rw [Option.some_inj.mp (ho.symm.trans hlookup)]
      · have hpair := (List.pairwise_append.mp hsorted).2.1
        exact (List.pairwise_cons.mp hpair).1 _ hin o σ ho hlookup
  | none =>
    rw [hfind] at hpicked
    refine .inr fun σ hσ => ?_
    have hunlabelled : backed m full σ = false := by
      unfold backed
      rw [List.any_eq_false]
      intro x hx
      exact List.find?_eq_none.mp hfind _ (mem_choices_of h hσ hx)
    refine ⟨hunlabelled, ?_⟩
    obtain ⟨hlookup, x, X, hX, hXorigin⟩ := (mem_clonedSnaps h).mp hσ
    have hchoice := mem_choices_of h hσ (Mem.mem_clonesOf.mpr ⟨X, hX, hXorigin⟩)
    cases hchoices : choices m full with
    | nil =>
      rw [hchoices] at hchoice
      cases hchoice
    | cons y ys =>
      rw [hchoices] at hchoice hsorted hpicked
      obtain rfl : y = (k, c) := by simpa using hpicked
      rcases List.mem_cons.mp hchoice with heq | hin
      · obtain ⟨rfl, _⟩ := Prod.mk.inj heq
        rw [Option.some_inj.mp (ho.symm.trans hlookup)]
      · exact (List.pairwise_cons.mp hsorted).1 _ hin o σ ho hlookup

theorem stops_of_picked_none (h : Sound m []) (hpicked : picked m full = none) :
    clonedSnaps m full = [] ∧ stops m full = [] := by
  have hnone : clonedSnaps m full = [] := by
    rw [List.eq_nil_iff_forall_not_mem]
    intro σ hσ
    obtain ⟨_, x, X, hX, hXorigin⟩ := (mem_clonedSnaps h).mp hσ
    have hchoice := mem_choices_of h hσ (Mem.mem_clonesOf.mpr ⟨X, hX, hXorigin⟩)
    unfold picked at hpicked
    obtain ⟨_, hhead⟩ := Option.or_eq_none_iff.mp hpicked
    rw [List.head?_eq_none_iff.mp hhead] at hchoice
    cases hchoice
  exact ⟨hnone, by simp [stops, hnone]⟩

section Pick

variable {k c : String} {o : Snapshot}

theorem Pick.cloned (h : Sound m []) (hp : Pick m full k c o) : o ∈ clonedSnaps m full := by
  have hname := (h.snap hp.snap).1
  obtain ⟨C, hC, horigin⟩ := Mem.mem_clonesOf.mp hp.clone
  exact (mem_clonedSnaps h).mpr ⟨hname.symm ▸ hp.snap, c, C, hC, hname.symm ▸ horigin⟩

theorem Pick.backed (h : Sound m []) (hp : Pick m full k c o) (hlabelled : labelled m c = true) :
    backed m full o = true :=
  List.any_eq_true.mpr ⟨c, (h.snap hp.snap).1.symm ▸ hp.clone, hlabelled⟩

/-- The pick is at the first stop. -/
theorem Pick.stop (h : Sound m []) (hp : Pick m full k c o) :
    o.txg ∈ stops m full ∧ ∀ t ∈ stops m full, o.txg ≤ t := by
  have hcloned := hp.cloned h
  rcases hp.first with ⟨hlabelled, hfirst⟩ | hnone
  · have hbacked := hp.backed h hlabelled
    refine ⟨mem_stops.mpr ⟨⟨o, hcloned, rfl⟩, .inl ⟨o, hcloned, rfl, hbacked⟩⟩, fun t ht => ?_⟩
    obtain ⟨_, ⟨σ, hσ, rfl, hσbacked⟩ | hall⟩ := mem_stops.mp ht
    · exact hfirst σ hσ hσbacked
    · exact Nat.le_of_lt (hall o hcloned hbacked)
  · refine ⟨mem_stops.mpr ⟨⟨o, hcloned, rfl⟩, .inr fun σ hσ hσbacked => ?_⟩, fun t ht => ?_⟩
    · rw [(hnone σ hσ).1] at hσbacked
      cases hσbacked
    · obtain ⟨⟨σ, hσ, rfl⟩, _⟩ := mem_stops.mp ht
      exact (hnone σ hσ).2

end Pick

end Stops

/-! ## A round: what is not cloned is swept, and the pick is promoted -/

/-- No two snapshots share a short name. -/
def UniqueNames (m : Mem) : Prop :=
  ∀ d d' k σ σ', m.lookupSnap d k = some σ → m.lookupSnap d' k = some σ' → d = d'

theorem clonesOf_congr {m m' : Mem} {snap snap' : String}
    (h : ∀ x, x ∈ m'.clonesOf snap' ↔ x ∈ m.clonesOf snap) : m'.clonesOf snap' =
    m.clonesOf snap := by
  have hnodup : ∀ (m : Mem) snap, (m.clonesOf snap).Nodup := fun m snap =>
    ((List.perm_insertionSort _ _).nodup_iff.mpr m.ds.nodup).filter _
  have hperm := (List.perm_ext_iff_of_nodup (hnodup m' snap') (hnodup m snap)).mpr h
  exact hperm.eq_of_pairwise' (Mem.pairwise_clonesOf m' snap') (Mem.pairwise_clonesOf m snap)

/-- From `m` to `m'` in a round that promotes `c`, a clone of the snapshot `o` of `full`. -/
structure Round (m m' : Mem) (full k c : String) (o : Snapshot) : Prop where
  before : Sound m []
  pick : Pick m full k c o
  turned : ∃ m₁, Swept m m₁ full (shortNames m full) ∧ Promoted m₁ m' c full k o

section Round

variable {m m' : Mem} {full k c : String} {o : Snapshot}

theorem Swept.lookupSnap (hs : Sound m []) {m₁ : Mem}
    (h : Swept m m₁ full (shortNames m full)) {d j : String}
    {σ : Snapshot} : m₁.lookupSnap d j = some σ ↔
      m.lookupSnap d j = some σ ∧ (d = full → m.Cloned (snapPath full j)) := by
  rw [h.snaps]
  by_cases hd : d = full
  · subst hd
    by_cases hcloned : m.Cloned (snapPath d j)
    · have hne : m.clonesOf (snapPath d j) ≠ [] := fun hnil => Mem.clonesOf_eq_nil.mp hnil hcloned
      simp [hne, hcloned]
    · have hnil := Mem.clonesOf_eq_nil.mpr hcloned
      simp only [true_and, hnil, and_true, mem_shortNames hs, hcloned, forall_const,
        and_false, iff_false]
      split_ifs with hsome
      · simp
      · intro hσ
        simp [hσ] at hsome
  · simp [hd]

theorem Round.face (h : Round m m' full k c o) (e : String) : m'.face e = m.face e := by
  obtain ⟨m₁, hswept, hpromoted⟩ := h.turned
  rw [hpromoted.face, hswept.face]

theorem Round.sound (h : Round m m' full k c o) : Sound m' [] := by
  obtain ⟨m₁, hswept, hpromoted⟩ := h.turned
  exact hswept.sound.promoted hpromoted

theorem Round.labelled (h : Round m m' full k c o) {x : String} (hx : Plain x) : labelled m' x =
    labelled m x :=
  labelled_of_face h.face hx

/-- What is left on the dataset: the cloned snapshots that are younger. -/
theorem Round.left (h : Round m m' full k c o) {j : String} {σ : Snapshot} :
    m'.lookupSnap full j = some σ ↔ m.lookupSnap full j = some σ ∧ m.Cloned (snapPath full j) ∧
      o.txg < σ.txg := by
  obtain ⟨m₁, hswept, hpromoted⟩ := h.turned
  rw [hpromoted.snaps, if_neg hpromoted.ne.symm, if_pos rfl, Option.filter_eq_some_iff,
    hswept.lookupSnap h.before]
  simp [and_assoc]

/-- A snapshot that is not swept is kept with as many clones, and none comes to `full`. -/
theorem Round.kept (h : Round m m' full k c o) {d j : String} {σ : Snapshot}
    (hσ : m.lookupSnap d j = some σ)
    (hcloned : d = full → m.Cloned (snapPath full j)) :
    m'.lookupSnap (handed c full o d σ) j = some σ ∧
      ∀ x, x ∈ m'.clonesOf (snapPath (handed c full o d σ) j) ↔
        Equiv.swap c full x ∈ m.clonesOf (snapPath d j) := by
  obtain ⟨m₁, hswept, hpromoted⟩ := h.turned
  have hσ₁ := (hswept.lookupSnap h.before).mpr ⟨hσ, hcloned⟩
  refine ⟨hpromoted.snap_kept hσ₁, fun x => ?_⟩
  rw [hpromoted.mem_clonesOf hswept.sound hσ₁, hswept.clones]

/-- Every snapshot was there before. -/
theorem Round.came (h : Round m m' full k c o) {d j : String} {σ : Snapshot}
    (hσ : m'.lookupSnap d j = some σ) :
    ∃ d₀, m.lookupSnap d₀ j = some σ ∧ (d₀ = full → m.Cloned (snapPath full j)) ∧
      d = handed c full o d₀ σ := by
  obtain ⟨m₁, hswept, hpromoted⟩ := h.turned
  rcases hpromoted.snap_cases hσ with ⟨rfl, hσ₁, hle⟩ | ⟨hσ₁, hstays⟩
  · obtain ⟨hσ, hcloned⟩ := (hswept.lookupSnap h.before).mp hσ₁
    exact ⟨full, hσ, hcloned, by rw [handed, if_pos ⟨rfl, hle⟩]⟩
  · obtain ⟨hσ, hcloned⟩ := (hswept.lookupSnap h.before).mp hσ₁
    refine ⟨d, hσ, hcloned, ?_⟩
    rw [handed, if_neg]
    rintro ⟨rfl, hle⟩
    exact Nat.not_le_of_lt (hstays rfl) hle

/-- What is left has the clones it had. -/
theorem Round.clones (h : Round m m' full k c o) {j : String} {σ : Snapshot}
    (hσ : m'.lookupSnap full j = some σ) :
    m'.clonesOf (snapPath full j) = m.clonesOf (snapPath full j) := by
  obtain ⟨hσ₀, hcloned, hlt⟩ := h.left.mp hσ
  obtain ⟨_, hclones⟩ := h.kept hσ₀ fun _ => hcloned
  rw [handed, if_neg fun hmoved => Nat.not_le_of_lt hlt hmoved.2] at hclones
  obtain ⟨C, hC, hCorigin⟩ := Mem.mem_clonesOf.mp h.pick.clone
  have hplain := h.before.plain_of_snap hσ₀
  -- neither `c` nor `full` is a clone of it
  have hc : c ∉ m.clonesOf (snapPath full j) := by
    intro hmem
    obtain ⟨C', hC', hC'origin⟩ := Mem.mem_clonesOf.mp hmem
    obtain rfl := Option.some_inj.mp (hC.symm.trans hC')
    obtain ⟨_, rfl⟩ := snapPath_inj hplain hplain (hCorigin.symm.trans hC'origin)
    rw [Option.some_inj.mp (h.pick.snap.symm.trans hσ₀)] at hlt
    exact Nat.lt_irrefl _ hlt
  have hfull : full ∉ m.clonesOf (snapPath full j) := by
    intro hmem
    obtain ⟨F, hF, hForigin⟩ := Mem.mem_clonesOf.mp hmem
    obtain ⟨q, i, τ, hqi, hτ, hyounger⟩ := h.before.origin hF (hForigin ▸ snapPath_ne_empty _ _)
    obtain ⟨rfl, rfl⟩ := snapPath_inj (h.before.plain_of_snap hτ) hplain (hqi.symm.trans hForigin)
    exact Nat.lt_irrefl _ (hyounger _ τ hτ)
  refine clonesOf_congr fun x => ?_
  rw [hclones]
  by_cases hxc : x = c
  · subst hxc
    simp [Equiv.swap_apply_left, hc, hfull]
  by_cases hxf : x = full
  · subst hxf
    simp [Equiv.swap_apply_right, hc, hfull]
  · rw [Equiv.swap_apply_of_ne_of_ne hxc hxf]

theorem Round.mem_clonedSnaps (h : Round m m' full k c o) {σ : Snapshot} :
    σ ∈ clonedSnaps m' full ↔ σ ∈ clonedSnaps m full ∧ o.txg < σ.txg := by
  rw [Agent.mem_clonedSnaps h.sound, Agent.mem_clonedSnaps h.before]
  constructor
  · rintro ⟨hσ, _⟩
    obtain ⟨hσ, hcloned, hlt⟩ := h.left.mp hσ
    exact ⟨⟨hσ, hcloned⟩, hlt⟩
  · rintro ⟨⟨hσ, hcloned⟩, hlt⟩
    have hσ' := h.left.mpr ⟨hσ, hcloned, hlt⟩
    refine ⟨hσ', ?_⟩
    by_contra hnot
    rw [← Mem.clonesOf_eq_nil, h.clones hσ', Mem.clonesOf_eq_nil] at hnot
    exact hnot hcloned

theorem Round.backed (h : Round m m' full k c o) {σ : Snapshot} (hσ : σ ∈ clonedSnaps m' full) :
    backed m' full σ = backed m full σ := by
  unfold Agent.backed
  rw [h.clones ((Agent.mem_clonedSnaps h.sound).mp hσ).1]
  have hsame : ∀ x ∈ m.clonesOf (snapPath full σ.name), Agent.labelled m' x =
      Agent.labelled m x := by
    intro x hx
    obtain ⟨X, hX, _⟩ := Mem.mem_clonesOf.mp hx
    exact h.labelled (h.before.plain hX)
  rw [Bool.eq_iff_iff, List.any_eq_true, List.any_eq_true]
  exact exists_congr fun x => and_congr_right fun hx => by rw [hsame x hx]

/-- The stops that are left are those after the pick. -/
theorem Round.mem_stops (h : Round m m' full k c o) {t : Nat} :
    t ∈ stops m' full ↔ t ∈ stops m full ∧ o.txg < t := by
  rw [Agent.mem_stops, Agent.mem_stops]
  constructor
  · rintro ⟨⟨σ, hσ, rfl⟩, hstop⟩
    obtain ⟨hσ₀, hlt⟩ := h.mem_clonedSnaps.mp hσ
    refine ⟨⟨⟨σ, hσ₀, rfl⟩, ?_⟩, hlt⟩
    rcases hstop with ⟨τ, hτ, htxg, hbacked⟩ | hall
    · exact .inl ⟨τ, (h.mem_clonedSnaps.mp hτ).1, htxg, h.backed hτ ▸ hbacked⟩
    · refine .inr fun τ hτ hbacked => ?_
      by_cases hle : τ.txg ≤ o.txg
      · omega
      · have hτ' := h.mem_clonedSnaps.mpr ⟨hτ, Nat.lt_of_not_le hle⟩
        exact hall τ hτ' ((h.backed hτ').symm ▸ hbacked)
  · rintro ⟨⟨⟨σ, hσ, rfl⟩, hstop⟩, hlt⟩
    refine ⟨⟨σ, h.mem_clonedSnaps.mpr ⟨hσ, hlt⟩, rfl⟩, ?_⟩
    rcases hstop with ⟨τ, hτ, htxg, hbacked⟩ | hall
    · have hτ' := h.mem_clonedSnaps.mpr ⟨hτ, by omega⟩
      exact .inl ⟨τ, hτ', htxg, (h.backed hτ').symm ▸ hbacked⟩
    · refine .inr fun τ hτ hbacked => ?_
      exact hall τ (h.mem_clonedSnaps.mp hτ).1 (h.backed hτ ▸ hbacked)

/-- One stop is behind. -/
theorem Round.length_stops (h : Round m m' full k c o) : (stops m full).length =
    (stops m' full).length + 1 := by
  obtain ⟨hmem, hfirst⟩ := h.pick.stop h.before
  have hperm : (stops m full).Perm (o.txg :: stops m' full) := by
    have hnodup : (o.txg :: stops m' full).Nodup :=
      List.nodup_cons.mpr ⟨fun hin => Nat.lt_irrefl _ (h.mem_stops.mp hin).2, nodup_stops⟩
    refine (List.perm_ext_iff_of_nodup nodup_stops hnodup).mpr fun t => ?_
    rw [List.mem_cons, h.mem_stops]
    constructor
    · intro ht
      rcases Nat.eq_or_lt_of_le (hfirst t ht) with heq | hlt
      · exact .inl heq.symm
      · exact .inr ⟨ht, hlt⟩
    · rintro (rfl | ⟨ht, _⟩)
      · exact hmem
      · exact ht
  rw [hperm.length_eq, List.length_cons]

theorem Round.unique (h : Round m m' full k c o) (hunique : UniqueNames m) : UniqueNames m' := by
  intro d d' j σ σ' hσ hσ'
  obtain ⟨e, he, _, rfl⟩ := h.came hσ
  obtain ⟨e', he', _, rfl⟩ := h.came hσ'
  obtain rfl := hunique e e' j σ σ' he he'
  rw [Option.some_inj.mp (he.symm.trans he')]

/-- Fewer snapshots are left. -/
theorem Round.fewer (h : Round m m' full k c o) :
    (shortNames m' full).length < (shortNames m full).length := by
  have hsub : k :: shortNames m' full ⊆ shortNames m full := by
    intro j hj
    rw [mem_shortNames h.before]
    rcases List.mem_cons.mp hj with rfl | hj
    · simp [h.pick.snap]
    · obtain ⟨σ, hσ⟩ := Option.isSome_iff_exists.mp ((mem_shortNames h.sound).mp hj)
      simp [(h.left.mp hσ).1]
  have hnodup : (k :: shortNames m' full).Nodup := by
    refine List.nodup_cons.mpr ⟨fun hk => ?_, nodup_shortNames h.sound⟩
    obtain ⟨σ, hσ⟩ := Option.isSome_iff_exists.mp ((mem_shortNames h.sound).mp hk)
    obtain ⟨hσ, _, hlt⟩ := h.left.mp hσ
    rw [Option.some_inj.mp (h.pick.snap.symm.trans hσ)] at hlt
    exact Nat.lt_irrefl _ hlt
  have hle := (List.subperm_of_subset hnodup hsub).length_le
  rw [List.length_cons] at hle
  omega

end Round

/-! ## The whole loop -/

/-- What the loop relies on: a sound pool, only snapshots of the driver on the dataset, only known
clones of them, and no short name twice. -/
structure Ready (w : World) (poolGUID poolName full : String) : Prop where
  sound : Sound w.mem []
  driver : ∀ k σ, w.mem.lookupSnap full k = some σ → isDriverSnapshotSuffix k = true
  known : ∀ k σ, w.mem.lookupSnap full k = some σ → ∀ c ∈ w.mem.clonesOf (snapPath full k),
    knownClone w poolGUID poolName c = true
  unique : UniqueNames w.mem

/-- What the rounds keep: the datasets, and every snapshot but those of `full` that
nothing cloned. -/
structure Drained (m m' : Mem) (full : String) : Prop where
  face : ∀ e, m'.face e = m.face e
  kept : ∀ d k σ, m.lookupSnap d k = some σ → (d = full → m.Cloned (snapPath full k)) →
    ∃ d', m'.lookupSnap d' k = some σ ∧ (d' = full → d = full) ∧
      (m'.clonesOf (snapPath d' k)).length = (m.clonesOf (snapPath d k)).length
  came : ∀ d' k σ, m'.lookupSnap d' k = some σ →
    ∃ d, m.lookupSnap d k = some σ ∧ (d = full → m.Cloned (snapPath full k))

section Loop

variable {w : World} {m m' m'' : Mem} {poolGUID poolName full k c : String} {o : Snapshot}

theorem Drained.refl (hall : ∀ k σ, m.lookupSnap full k = some σ → m.Cloned (snapPath full k)) :
    Drained m m full := by
  refine ⟨fun _ => rfl, fun d k σ hσ _ => ⟨d, hσ, id, rfl⟩, fun d k σ hσ => ⟨d, hσ, ?_⟩⟩
  rintro rfl
  exact hall k σ hσ

theorem Drained.trans (h : Drained m m' full) (h' : Drained m' m'' full) : Drained m m'' full := by
  refine ⟨fun e => (h'.face e).trans (h.face e), fun d k σ hσ hcloned => ?_, fun d k σ hσ => ?_⟩
  · obtain ⟨d', hσ', hd', hlength⟩ := h.kept d k σ hσ hcloned
    have hcloned' : d' = full → m'.Cloned (snapPath full k) := by
      rintro rfl
      obtain rfl := hd' rfl
      by_contra hnot
      rw [← Mem.clonesOf_eq_nil] at hnot
      rw [hnot, List.length_nil] at hlength
      exact Mem.clonesOf_eq_nil.mp (List.eq_nil_of_length_eq_zero hlength.symm) (hcloned rfl)
    obtain ⟨d'', hσ'', hd'', hlength'⟩ := h'.kept d' k σ hσ' hcloned'
    exact ⟨d'', hσ'', fun heq => hd' (hd'' heq), hlength'.trans hlength⟩
  · obtain ⟨d', hσ', _⟩ := h'.came d k σ hσ
    exact h.came d' k σ hσ'

theorem Round.drained (h : Round m m' full k c o) : Drained m m' full := by
  have hc : c ≠ full := by
    obtain ⟨_, _, hpromoted⟩ := h.turned
    exact hpromoted.ne
  refine ⟨h.face, fun d j σ hσ hcloned => ?_, fun d j σ hσ => ?_⟩
  · obtain ⟨hσ', hclones⟩ := h.kept hσ hcloned
    refine ⟨_, hσ', fun heq => ?_, length_clonesOf_swap hclones⟩
    unfold handed at heq
    split_ifs at heq with hmoved
    · exact absurd heq hc
    · exact heq
  · obtain ⟨d₀, hσ₀, hcloned, _⟩ := h.came hσ
    exact ⟨d₀, hσ₀, hcloned⟩

theorem Swept.drained (hs : Sound m []) (h : Swept m m' full (shortNames m full)) :
    Drained m m' full := by
  refine ⟨h.face, fun d j σ hσ hcloned => ?_, fun d j σ hσ => ?_⟩
  · exact ⟨d, (h.lookupSnap hs).mpr ⟨hσ, hcloned⟩, id, by rw [h.clones]⟩
  · exact ⟨d, (h.lookupSnap hs).mp hσ⟩

theorem Round.ready (h : Round w.mem m' full k c o) (hready : Ready w poolGUID poolName full) :
    Ready { w with mem := m' } poolGUID poolName full := by
  refine ⟨h.sound, fun j σ hσ => ?_, fun j σ hσ x hx => ?_, h.unique hready.unique⟩
  · exact hready.driver j σ (h.left.mp hσ).1
  · rw [h.clones hσ] at hx
    exact hready.known j σ (h.left.mp hσ).1 x hx

theorem Ready.driverNames (h : Ready w poolGUID poolName full) :
    ∀ k ∈ shortNames w.mem full, isDriverSnapshotSuffix k = true := by
  intro k hk
  obtain ⟨σ, hσ⟩ := Option.isSome_iff_exists.mp ((mem_shortNames h.sound).mp hk)
  exact h.driver k σ hσ

/-- A round that has something to promote does so. -/
theorem Ready.round (h : Ready w poolGUID poolName full)
    (hpicked : picked w.mem full = some (k, c)) :
    ∃ o m₁ m', Round w.mem m' full k c o ∧
      (pickRound poolGUID poolName full).run.exec World.handle w =
        (.ok (some (snapPath full k, c)), { w with mem := m₁ }) ∧
      m₁.promote c = (.ok (), m') := by
  obtain ⟨o, hpick⟩ := pick_of_picked h.sound hpicked
  obtain ⟨D, hD, _⟩ := lookup_of_lookupSnap hpick.snap
  have hswept := swept_sweep h.sound (h.sound.plain hD) (shortNames w.mem full)
  generalize hm₁ : sweep full (shortNames w.mem full) w.mem = m₁ at hswept
  -- the origin of the clone is still there, and no name is in the way
  obtain ⟨C, hC, hCorigin⟩ := Mem.mem_clonesOf.mp ((hswept.clones _).symm ▸ hpick.clone)
  have ho₁ : m₁.lookupSnap full k = some o := by
    obtain ⟨x, hx⟩ : ∃ x, x ∈ w.mem.clonesOf (snapPath full k) := ⟨c, hpick.clone⟩
    obtain ⟨X, hX, hXorigin⟩ := Mem.mem_clonesOf.mp hx
    exact (hswept.lookupSnap h.sound).mpr ⟨hpick.snap, fun _ => ⟨x, X, hX, hXorigin⟩⟩
  rcases hswept.sound.promote_clone hC hCorigin ho₁ with ⟨⟨j, s, hs, hle, hsome⟩,
    _⟩ | ⟨hok, hpromoted⟩
  · obtain ⟨τ, hτ⟩ := Option.isSome_iff_exists.mp hsome
    have hsame :=
      h.unique full c j s τ ((hswept.lookupSnap h.sound).mp hs).1
      ((hswept.lookupSnap h.sound).mp hτ).1
    subst hsame
    obtain ⟨q, i, υ, hqi, hυ, hyounger⟩ := hswept.sound.origin hC (hCorigin ▸ snapPath_ne_empty _ _)
    obtain ⟨rfl, rfl⟩ :=
      snapPath_inj (hswept.sound.plain_of_snap hυ) (hswept.sound.plain hC) (hqi.symm.trans hCorigin)
    exact absurd (hyounger _ υ hυ) (Nat.lt_irrefl _)
  · have hround := pickRound_exec poolGUID poolName h.sound h.driverNames
    rw [pickResult_known hpicked (h.known k o hpick.snap), hm₁] at hround
    exact ⟨o, m₁, (m₁.promote c).2, ⟨h.sound, hpick, m₁, hswept, hpromoted⟩, hround,
      Prod.ext hok rfl⟩

/-- A round that has nothing to promote is the last. -/
theorem Ready.last (h : Ready w poolGUID poolName full) (hpicked : picked w.mem full = none) :
    ∃ m', (pickRound poolGUID poolName full).run.exec World.handle w =
      (.ok none, { w with mem := m' }) ∧
      Drained w.mem m' full ∧ shortNames m' full = [] ∧
        Ready { w with mem := m' } poolGUID poolName full := by
  have hround := pickRound_exec poolGUID poolName h.sound h.driverNames
  have hresult : pickResult w poolGUID poolName full = .ok none := by simp [pickResult, hpicked]
  rw [hresult] at hround
  obtain ⟨hnone, _⟩ := stops_of_picked_none h.sound hpicked
  have huncloned : ∀ k σ, w.mem.lookupSnap full k = some σ → ¬ w.mem.Cloned (snapPath full k) := by
    intro k σ hσ hcloned
    have hname := (h.sound.snap hσ).1
    have hmem : σ ∈ clonedSnaps w.mem full :=
      (mem_clonedSnaps h.sound).mpr ⟨hname.symm ▸ hσ, hname.symm ▸ hcloned⟩
    rw [hnone] at hmem
    cases hmem
  by_cases hempty : shortNames w.mem full = []
  · rw [hempty] at hround
    refine ⟨w.mem, hround, Drained.refl fun k σ hσ => ?_, hempty, h⟩
    have hk := (mem_shortNames h.sound).mpr (Option.isSome_iff_exists.mpr ⟨σ, hσ⟩)
    rw [hempty] at hk
    cases hk
  · obtain ⟨k, hk⟩ := List.exists_mem_of_ne_nil _ hempty
    obtain ⟨σ, hσ⟩ := Option.isSome_iff_exists.mp ((mem_shortNames h.sound).mp hk)
    obtain ⟨D, hD, _⟩ := lookup_of_lookupSnap hσ
    have hswept := swept_sweep h.sound (h.sound.plain hD) (shortNames w.mem full)
    have hgone : ∀ j σ, (sweep full (shortNames w.mem full) w.mem).lookupSnap full j ≠ some σ := by
      intro j τ hτ
      obtain ⟨hτ, hcloned⟩ := (hswept.lookupSnap h.sound).mp hτ
      exact huncloned j τ hτ (hcloned rfl)
    refine ⟨_, hround, hswept.drained h.sound, ?_, hswept.sound, ?_, ?_, ?_⟩
    · rw [List.eq_nil_iff_forall_not_mem]
      intro j hj
      obtain ⟨τ, hτ⟩ := Option.isSome_iff_exists.mp ((mem_shortNames hswept.sound).mp hj)
      exact hgone j τ hτ
    · exact fun j τ hτ => absurd hτ (hgone j τ)
    · exact fun j τ hτ => absurd hτ (hgone j τ)
    · intro d d' j τ τ' hτ hτ'
      exact h.unique d d' j τ τ' ((hswept.lookupSnap h.sound).mp hτ).1
        ((hswept.lookupSnap h.sound).mp hτ').1

/-- The snapshots that are left after a round are all cloned, so none is left just when no
stop is. -/
theorem Round.done_iff (h : Round m m' full k c o) : shortNames m' full = [] ↔
    stops m' full = [] := by
  constructor
  · intro hempty
    simp [stops, clonedSnaps, clonedOf, hempty]
  · intro hstops
    have hnone : picked m' full = none := by
      cases hpicked : picked m' full with
      | none => rfl
      | some x =>
        obtain ⟨o', hpick⟩ := pick_of_picked h.sound hpicked
        have hmem := (hpick.stop h.sound).1
        rw [hstops] at hmem
        cases hmem
    obtain ⟨hcloned, _⟩ := stops_of_picked_none h.sound hnone
    rw [List.eq_nil_iff_forall_not_mem]
    intro j hj
    obtain ⟨σ, hσ⟩ := Option.isSome_iff_exists.mp ((mem_shortNames h.sound).mp hj)
    obtain ⟨hσ₀, hcloned₀, hlt⟩ := h.left.mp hσ
    have hname := (h.before.snap hσ₀).1
    have hmem : σ ∈ clonedSnaps m' full := by
      refine h.mem_clonedSnaps.mpr
        ⟨(Agent.mem_clonedSnaps h.before).mpr ⟨hname.symm ▸ hσ₀, hname.symm ▸ hcloned₀⟩, hlt⟩
    rw [hcloned] at hmem
    cases hmem

/-- How the loop ends. -/
structure Ends (w : World) (poolGUID poolName full : String) (rounds : Nat)
    (r : Except Err Unit × World) : Prop where
  drained : Drained w.mem r.2.mem full
  ready : Ready r.2 poolGUID poolName full
  done : (stops w.mem full).length < rounds → r.1 = .ok () ∧ shortNames r.2.mem full = []
  short : rounds ≤ (stops w.mem full).length →
    r.1 = .error (.notConverged full maxDetachRounds) ∧
      (stops w.mem full).length = (stops r.2.mem full).length + rounds ∧
      (shortNames r.2.mem full = [] ↔ stops r.2.mem full = [])

/-- The rounds end well just when there are more of them than stops. -/
theorem Ready.ends (h : Ready w poolGUID poolName full) (rounds : Nat) :
    Ends w poolGUID poolName full (rounds + 1)
      ((detachRounds poolGUID poolName full (rounds + 1)).run.exec World.handle w) := by
  induction rounds generalizing w with
  | zero =>
    cases hpicked : picked w.mem full with
    | none =>
      obtain ⟨m', hround, hdrained, hempty, hready⟩ := h.last hpicked
      rw [detachRounds_succ, Proc.exec_bind hround]
      refine ⟨hdrained, hready, fun _ => ⟨rfl, hempty⟩, fun hle => ?_⟩
      rw [(stops_of_picked_none h.sound hpicked).2] at hle
      simp at hle
    | some x =>
      obtain ⟨o, m₁, m', hround, hpick, hok⟩ := h.round hpicked
      have hlength := hround.length_stops
      rw [detachRounds_succ, Proc.exec_bind hpick, promoteRound_ok hok]
      refine ⟨hround.drained, hround.ready h, fun hlt => ?_,
        fun _ => ⟨rfl, hlength, hround.done_iff⟩⟩
      omega
  | succ rounds ih =>
    cases hpicked : picked w.mem full with
    | none =>
      obtain ⟨m', hround, hdrained, hempty, hready⟩ := h.last hpicked
      rw [detachRounds_succ, Proc.exec_bind hround]
      refine ⟨hdrained, hready, fun _ => ⟨rfl, hempty⟩, fun hle => ?_⟩
      rw [(stops_of_picked_none h.sound hpicked).2] at hle
      simp at hle
    | some x =>
      obtain ⟨o, m₁, m', hround, hpick, hok⟩ := h.round hpicked
      have hlength := hround.length_stops
      obtain ⟨hdrained, hready, hdone, hshort⟩ := ih (hround.ready h)
      rw [detachRounds_succ, Proc.exec_bind hpick, promoteRound_ok hok]
      simp only
      refine ⟨hround.drained.trans hdrained, hready, fun hlt => hdone ?_, fun hle => ?_⟩
      · change (stops m' full).length < rounds + 1
        omega
      · obtain ⟨herror, heq, hiff⟩ := hshort (by change rounds + 1 ≤ (stops m' full).length; omega)
        change (stops m' full).length = _ at heq
        exact ⟨herror, by omega, hiff⟩

end Loop

end SimpleZfsCsi.Agent
