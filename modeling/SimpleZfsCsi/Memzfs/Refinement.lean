import SimpleZfsCsi.Library.CloneGraph
import SimpleZfsCsi.Memzfs.Mem
import Mathlib.Data.List.TakeWhile

/-!
# The in-memory ZFS is a clone graph

`Represents m G` says that `m` holds the datasets and snapshots of the clone graph `G`, the
transaction group of a snapshot being its number. Every operation of `Mem` that succeeds is
an operation of the graph, or changes nothing; one that fails changes nothing.
-/

namespace SimpleZfsCsi.Memzfs

open Library

/-! ## Names -/

/-- A dataset name: one without `@`. -/
def Plain (d : String) : Prop := '@' ∉ d.toList

theorem takeWhile_plain {l : List Char} (h : '@' ∉ l) : l.takeWhile (· != '@') = l := by
  rw [List.takeWhile_eq_self_iff]
  intro c hc
  simpa using fun heq : c = '@' => h (heq ▸ hc)

theorem dropWhile_plain {l : List Char} (h : '@' ∉ l) : l.dropWhile (· != '@') = [] := by
  rw [List.dropWhile_eq_nil_iff]
  intro c hc
  simpa using fun heq : c = '@' => h (heq ▸ hc)

theorem split_snapPath {d : String} (h : Plain d) (n : String) :
    split (snapPath d n) = (d, n, true) := by
  have hlist : (snapPath d n).toList = d.toList ++ '@' :: n.toList := by
    simp [snapPath, String.toList_append]
  have hdrop : (d.toList ++ '@' :: n.toList).dropWhile (· != '@') = '@' :: n.toList := by
    rw [List.dropWhile_append, dropWhile_plain h]
    simp
  have htake : (d.toList ++ '@' :: n.toList).takeWhile (· != '@') = d.toList := by
    rw [List.takeWhile_append, takeWhile_plain h]
    simp
  unfold split Text.cut
  rw [hlist, hdrop]
  simp only [htake, String.ofList_toList]

/-- A name with an `@` is the name of a snapshot. -/
theorem isSnap_append (d n : String) : (split (d ++ "@" ++ n)).2.2 = true := by
  unfold split Text.cut
  have hmem : '@' ∈ (d ++ "@" ++ n).toList := by simp [String.toList_append]
  cases h : (d ++ "@" ++ n).toList.dropWhile (· != '@') with
  | nil =>
    rw [List.dropWhile_eq_nil_iff] at h
    simpa using h '@' hmem
  | cons => rfl

theorem split_plain {d : String} (h : Plain d) : split d = (d, "", false) := by
  unfold split Text.cut
  rw [dropWhile_plain h]

theorem snapPath_inj {d d' n n' : String} (h : Plain d) (h' : Plain d')
    (heq : snapPath d n = snapPath d' n') : d = d' ∧ n = n' := by
  have := congrArg split heq
  rw [split_snapPath h, split_snapPath h'] at this
  simpa using this

theorem snapPath_ne_empty (d n : String) : snapPath d n ≠ "" := by
  intro h
  have := congrArg String.toList h
  simp [snapPath, String.toList_append] at this

/-! ## The relation -/

/-- `m` holds the datasets and snapshots of `G`. -/
structure Represents (m : Mem) (G : CloneGraph String String) : Prop where
  alive : ∀ {d}, G.alive d ↔ (m.ds.lookup d).isSome
  plain : ∀ {d}, G.alive d → Plain d
  named : ∀ {d D}, m.ds.lookup d = some D → D.name = d
  snap : ∀ {d n σ}, m.lookupSnap d n = some σ → σ.name = n ∧ G.owner σ.txg = some d ∧
    G.name σ.txg = n ∧ (σ.deferred = true ↔ G.marked σ.txg)
  owned : ∀ {x d}, G.owner x = some d → ∃ σ, m.lookupSnap d (G.name x) = some σ ∧ σ.txg = x
  independent : ∀ {d D}, m.ds.lookup d = some D → G.origin d = none → D.origin = ""
  clone : ∀ {d D x p}, m.ds.lookup d = some D → G.origin d = some x → G.owner x = some p →
    D.origin = snapPath p (G.name x)
  txg : m.txg = G.last

section Represents

variable {m : Mem} {G : CloneGraph String String} {d e n : String} {x : Nat}

namespace Represents

theorem alive_of_lookup (h : Represents m G) {D : Dataset} (hD : m.ds.lookup d = some D) :
    G.alive d := h.alive.mpr (by simp [hD])

theorem lookup_of_alive (h : Represents m G) (hd : G.alive d) : ∃ D, m.ds.lookup d = some D :=
  Option.isSome_iff_exists.mp (h.alive.mp hd)

/-- There is a snapshot of that name, or none. -/
theorem lookupSnap_cases (h : Represents m G) (d n : String) :
    (m.lookupSnap d n = none ∧ ∀ x, G.owner x = some d → G.name x ≠ n) ∨
      ∃ σ, m.lookupSnap d n = some σ ∧ σ.name = n ∧ G.owner σ.txg = some d ∧ G.name σ.txg = n ∧
        (σ.deferred = true ↔ G.marked σ.txg) := by
  cases hσ : m.lookupSnap d n with
  | none =>
    refine .inl ⟨rfl, fun x hx hn => ?_⟩
    obtain ⟨σ, hσ', _⟩ := h.owned hx
    rw [hn, hσ] at hσ'
    cases hσ'
  | some σ => exact .inr ⟨σ, rfl, h.snap hσ⟩

theorem lookupSnap_eq (h : Represents m G) (hx : G.owner x = some d) :
    ∃ σ, m.lookupSnap d (G.name x) = some σ ∧ σ.name = G.name x ∧ σ.txg = x ∧
      (σ.deferred = true ↔ G.marked x) := by
  obtain ⟨σ, hσ, rfl⟩ := h.owned hx
  obtain ⟨hname, _, _, hmarked⟩ := h.snap hσ
  exact ⟨σ, hσ, hname, rfl, hmarked⟩

/-- The datasets whose origin is a given name are the clones of the snapshot of that name. -/
theorem origin_eq_iff (h : Represents m G) (hx : G.owner x = some d) {E : Dataset}
    (hE : m.ds.lookup e = some E) : E.origin = snapPath d (G.name x) ↔ G.origin e = some x := by
  constructor
  · intro horigin
    cases ho : G.origin e with
    | none =>
      rw [h.independent hE ho] at horigin
      exact absurd horigin.symm (snapPath_ne_empty _ _)
    | some y =>
      obtain ⟨q, hq⟩ := G.origin_owned ho
      rw [h.clone hE ho hq] at horigin
      obtain ⟨rfl, hname⟩ :=
        snapPath_inj (h.plain (G.owner_alive hq)) (h.plain (G.owner_alive hx)) horigin
      rw [G.name_inj hq hx hname]
  · exact fun ho => h.clone hE ho hx

theorem mem_clonesOf (h : Represents m G) (hx : G.owner x = some d) :
    e ∈ m.clonesOf (snapPath d (G.name x)) ↔ G.origin e = some x := by
  simp only [Mem.clonesOf, Mem.namesWhere, List.mem_filter, FinMap.mem_sortedKeys]
  constructor
  · rintro ⟨_, he⟩
    cases hE : m.ds.lookup e with
    | none => simp [hE] at he
    | some E => exact (h.origin_eq_iff hx hE).mp (by simpa [hE] using he)
  · intro ho
    obtain ⟨E, hE⟩ := h.lookup_of_alive (G.origin_alive ho)
    exact ⟨by simp [hE], by simpa [hE] using (h.origin_eq_iff hx hE).mpr ho⟩

theorem clonesOf_eq_nil (h : Represents m G) (hx : G.owner x = some d) :
    m.clonesOf (snapPath d (G.name x)) = [] ↔ ¬ G.Cloned x := by
  rw [List.eq_nil_iff_forall_not_mem]
  simp only [h.mem_clonesOf hx, CloneGraph.Cloned, not_exists]

/-! ## Operations -/

theorem lookupSnap_insert {D : Dataset} (hD : D.snaps = FinMap.empty) (hd : m.ds.lookup d = none) :
    Mem.lookupSnap { m with ds := m.ds.insert d D } e n = m.lookupSnap e n := by
  by_cases he : e = d
  · subst he
    simp [Mem.lookupSnap, hD, hd]
  · simp [Mem.lookupSnap, he]

theorem lookupSnap_modify {f : Dataset → Dataset} {txg : Nat} :
    Mem.lookupSnap ⟨m.ds.modify d f, txg⟩ e n =
      if e = d then (m.ds.lookup d).bind fun D => (f D).snaps.lookup n else m.lookupSnap e n := by
  by_cases he : e = d
  · subst he
    cases hD : m.ds.lookup e <;> simp [Mem.lookupSnap, hD]
  · cases hD : m.ds.lookup e <;> simp [Mem.lookupSnap, hD, he]

/-- Changes to properties, kinds and sizes are not seen. -/
theorem modify (h : Represents m G) {f : Dataset → Dataset} (hname : ∀ D, (f D).name = D.name)
    (horigin : ∀ D, (f D).origin = D.origin)
    (hsnaps : ∀ D n, ((f D).snaps.lookup n).map (fun σ => (σ.name, σ.txg, σ.deferred)) =
      (D.snaps.lookup n).map fun σ => (σ.name, σ.txg, σ.deferred)) :
    Represents { m with ds := m.ds.modify d f } G where
  alive {e} := by simp [h.alive]
  plain := h.plain
  named {e D} hD := by
    simp only [FinMap.lookup_modify, Option.map_eq_some_iff] at hD
    obtain ⟨E, hE, rfl⟩ := hD
    split_ifs
    · rw [hname, h.named hE]
    · exact h.named hE
  snap {e n σ} hσ := by
    rw [lookupSnap_modify] at hσ
    split_ifs at hσ with he
    · subst he
      obtain ⟨D, hD, hσ⟩ := Option.bind_eq_some_iff.mp hσ
      have hmap := hsnaps D n
      rw [hσ, Option.map_some, eq_comm, Option.map_eq_some_iff] at hmap
      obtain ⟨τ, hτ, heq⟩ := hmap
      have hsnap := h.snap (d := e) (n := n) (σ := τ) (by simp [Mem.lookupSnap, hD, hτ])
      simp only [Prod.mk.injEq] at heq
      rwa [heq.1, heq.2.1, heq.2.2] at hsnap
    · exact h.snap hσ
  owned {x e} hx := by
    obtain ⟨σ, hσ, rfl⟩ := h.owned hx
    rw [lookupSnap_modify]
    split_ifs with he
    · subst he
      obtain ⟨D, hD, hσ⟩ := Option.bind_eq_some_iff.mp hσ
      have hmap := hsnaps D (G.name σ.txg)
      rw [hσ, Option.map_some, Option.map_eq_some_iff] at hmap
      obtain ⟨τ, hτ, heq⟩ := hmap
      simp only [Prod.mk.injEq] at heq
      exact ⟨τ, by simp [hD, hτ], heq.2.1⟩
    · exact ⟨σ, hσ, rfl⟩
  independent {e D} hD ho := by
    simp only [FinMap.lookup_modify, Option.map_eq_some_iff] at hD
    obtain ⟨E, hE, rfl⟩ := hD
    split_ifs
    · rw [horigin, h.independent hE ho]
    · exact h.independent hE ho
  clone {e D x p} hD ho hp := by
    simp only [FinMap.lookup_modify, Option.map_eq_some_iff] at hD
    obtain ⟨E, hE, rfl⟩ := hD
    split_ifs
    · rw [horigin, h.clone hE ho hp]
    · exact h.clone hE ho hp
  txg := h.txg

/-- A create fails, or makes a new dataset. -/
theorem create_cases (h : Represents m G) (hplain : Plain d) (kind : DatasetKind) (size : Int)
    (props : FinMap String String) :
    (∃ e, m.create d kind size props = (.error e, m)) ∨
      (¬ G.alive d ∧ (m.create d kind size props).1 = .ok () ∧
        Represents (m.create d kind size props).2 (G.create d)) := by
  unfold Mem.create
  split_ifs with hsome hparent
  · exact .inl ⟨_, rfl⟩
  · exact .inl ⟨_, rfl⟩
  have hnone : m.ds.lookup d = none := by simpa using hsome
  have hdead : ¬ G.alive d := by simp [h.alive, hnone]
  refine .inr ⟨hdead, rfl, ?_, ?_, ?_, ?_, ?_, ?_, ?_, h.txg⟩
  · intro e
    by_cases he : e = d <;> simp [CloneGraph.create, he, h.alive]
  · rintro e (rfl | he)
    · exact hplain
    · exact h.plain he
  · intro e E hE
    simp only [FinMap.lookup_insert] at hE
    split_ifs at hE with he
    · exact (congrArg Dataset.name (Option.some_inj.mp hE)).symm.trans he.symm
    · exact h.named hE
  · intro e n σ hσ
    rw [lookupSnap_insert rfl hnone] at hσ
    exact h.snap hσ
  · intro x e hx
    rw [lookupSnap_insert rfl hnone]
    exact h.owned hx
  · intro e E hE ho
    simp only [FinMap.lookup_insert] at hE
    split_ifs at hE with he
    · exact (congrArg Dataset.origin (Option.some_inj.mp hE)).symm
    · exact h.independent hE ho
  · intro e E x p hE ho hp
    simp only [FinMap.lookup_insert] at hE
    split_ifs at hE with he
    · exact absurd (he ▸ G.origin_alive ho) hdead
    · exact h.clone hE ho hp

theorem setProperty (h : Represents m G) (name prop value : String) :
    Represents (m.setProperty name prop value).2 G := by
  unfold Mem.setProperty
  simp only
  split
  · exact h
  split_ifs
  · exact h
  · exact h
  · exact h
  · refine h.modify (fun _ => rfl) (fun _ => rfl) fun D n => ?_
    simp only [FinMap.lookup_modify, Option.map_map]
    congr 1
    funext σ
    by_cases hn : n = (split name).2.1 <;> simp [hn]
  · exact h
  all_goals exact h.modify (fun _ => rfl) (fun _ => rfl) fun D n => rfl

theorem taken (h : Represents m G) {D : Dataset} (hD : m.ds.lookup d = some D)
    (hn : ∀ x, G.owner x = some d → G.name x ≠ n) :
    Represents { ds := m.ds.modify d fun D =>
        { D with snaps := D.snaps.insert n { name := n, txg := m.txg + 1 } }
                 txg := m.txg + 1 } (G.take d n (h.alive_of_lookup hD) hn) where
  alive {e} := by simp [h.alive, CloneGraph.take]
  plain := h.plain
  named {e E} hE := by
    simp only [FinMap.lookup_modify, Option.map_eq_some_iff] at hE
    obtain ⟨E', hE', rfl⟩ := hE
    have hname := h.named hE'
    split_ifs <;> exact hname
  snap {e k σ} hσ := by
    have hold : ∀ {k σ}, m.lookupSnap e k = some σ →
        σ.name = k ∧ (G.take d n (h.alive_of_lookup hD) hn).owner σ.txg = some e ∧
        (G.take d n (h.alive_of_lookup hD) hn).name σ.txg = k ∧
        (σ.deferred = true ↔ (G.take d n (h.alive_of_lookup hD) hn).marked σ.txg) := by
      intro k σ hσ
      obtain ⟨hname, howner, hk, hmarked⟩ := h.snap hσ
      have hne := CloneGraph.owned_ne_last ⟨e, howner⟩
      simp only [CloneGraph.take, hne, reduceIte, ne_eq, not_false_eq_true, true_and]
      exact ⟨hname, howner, hk, hmarked⟩
    rw [lookupSnap_modify] at hσ
    split_ifs at hσ with he
    · subst he
      simp only [hD, Option.bind_some, FinMap.lookup_insert] at hσ
      split_ifs at hσ with hk
      · obtain rfl := Option.some_inj.mp hσ
        simp [CloneGraph.take, hk, h.txg]
      · exact hold (by simpa [Mem.lookupSnap, hD] using hσ)
    · exact hold hσ
  owned {x e} hx := by
    simp only [CloneGraph.take] at hx ⊢
    rw [lookupSnap_modify]
    by_cases hlast : x = G.last + 1
    · obtain rfl : d = e := by simpa [hlast] using hx
      exact ⟨{ name := n, txg := m.txg + 1 }, by simp [hD, hlast], by rw [h.txg, hlast]⟩
    · rw [if_neg hlast] at hx
      obtain ⟨σ, hσ, htxg⟩ := h.owned hx
      refine ⟨σ, ?_, htxg⟩
      rw [if_neg hlast]
      split_ifs with he
      · subst he
        simp only [hD, Option.bind_some, FinMap.lookup_insert]
        rw [if_neg (hn x hx)]
        simpa [Mem.lookupSnap, hD] using hσ
      · exact hσ
  independent {e E} hE ho := by
    simp only [FinMap.lookup_modify, Option.map_eq_some_iff] at hE
    obtain ⟨E', hE', rfl⟩ := hE
    have horigin := h.independent hE' ho
    split_ifs <;> exact horigin
  clone {e E x p} hE ho hp := by
    simp only [FinMap.lookup_modify, Option.map_eq_some_iff] at hE
    obtain ⟨E', hE', rfl⟩ := hE
    obtain ⟨q, hq⟩ := G.origin_owned ho
    have hne := CloneGraph.owned_ne_last ⟨q, hq⟩
    simp only [CloneGraph.take, hne, reduceIte] at hp ⊢
    have horigin := h.clone hE' ho hp
    split_ifs <;> exact horigin
  txg := by simp [CloneGraph.take, h.txg]

/-- A snapshot of one name fails, finds the snapshot, or takes it. -/
theorem snapshot_cases (h : Represents m G) (hplain : Plain d) (n : String) :
    (¬ G.alive d ∧ ∃ e, m.snapshot [snapPath d n] = (.error e, m)) ∨
      ((∃ x, G.owner x = some d ∧ G.name x = n) ∧ m.snapshot [snapPath d n] = (.ok (), m)) ∨
      ∃ hd hn, (m.snapshot [snapPath d n]).1 = .ok () ∧
        Represents (m.snapshot [snapPath d n]).2 (G.take d n hd hn) := by
  unfold Mem.snapshot
  simp only [List.cons_ne_self, reduceIte, List.find?_cons, List.find?_nil, split_snapPath hplain,
    Bool.not_true, List.countP_cons, List.countP_nil, List.length_singleton, or_true]
  cases hD : m.ds.lookup d with
  | none => exact .inl ⟨by simp [h.alive, hD], _, rfl⟩
  | some D =>
    simp only [Option.isNone_some]
    obtain ⟨hnone, hfree⟩ | ⟨σ, hσ, _, howner, hname, _⟩ := h.lookupSnap_cases d n
    · refine .inr (.inr ⟨h.alive_of_lookup hD, hfree, by simp [hnone], ?_⟩)
      simp only [hnone, Option.isSome_none, Bool.false_eq_true, reduceIte, Nat.lt_irrefl,
        List.foldl_cons, List.foldl_nil, Mem.addSnap, split_snapPath hplain]
      exact h.taken hD hfree
    · exact .inr (.inl ⟨⟨σ.txg, howner, hname⟩, by simp [hσ]⟩)

theorem cloned (h : Represents m (G.create e)) (hx : G.owner x = some d) (he : ¬ G.alive e) :
    Represents { m with ds := m.ds.modify e fun E => { E with origin := snapPath d (G.name x) } }
      (G.clone x e ⟨d, hx⟩ he) where
  alive {f} := by simpa [CloneGraph.clone, CloneGraph.create] using h.alive (d := f)
  plain := h.plain
  named {f F} hF := by
    simp only [FinMap.lookup_modify, Option.map_eq_some_iff] at hF
    obtain ⟨F', hF', rfl⟩ := hF
    have hname := h.named hF'
    split_ifs <;> exact hname
  snap {f n σ} hσ := by
    rw [lookupSnap_modify] at hσ
    split_ifs at hσ with hf
    · exact h.snap (by simpa [Mem.lookupSnap, hf] using hσ)
    · exact h.snap hσ
  owned {y f} hy := by
    obtain ⟨σ, hσ, htxg⟩ := h.owned hy
    refine ⟨σ, ?_, htxg⟩
    rw [lookupSnap_modify]
    split_ifs with hf
    · simpa [Mem.lookupSnap, hf, CloneGraph.clone, CloneGraph.create] using hσ
    · exact hσ
  independent {f F} hF ho := by
    simp only [FinMap.lookup_modify, Option.map_eq_some_iff] at hF
    obtain ⟨F', hF', rfl⟩ := hF
    simp only [CloneGraph.clone] at ho
    split_ifs at ho ⊢ with hf
    exact h.independent hF' ho
  clone {f F y p} hF ho hp := by
    simp only [FinMap.lookup_modify, Option.map_eq_some_iff] at hF
    obtain ⟨F', hF', rfl⟩ := hF
    simp only [CloneGraph.clone] at ho hp ⊢
    split_ifs at ho ⊢ with hf
    · obtain rfl := Option.some_inj.mp ho
      rw [Option.some_inj.mp (hx.symm.trans hp)]
    · exact h.clone hF' ho hp
  txg := h.txg

/-- A clone fails, finds its destination, or makes it. -/
theorem clone_cases (h : Represents m G) (hplain : Plain d) (hdest : Plain e) (n : String)
    (props : FinMap String String) :
    (∃ err, m.clone (snapPath d n) e props = (.error err, m)) ∨
      (G.alive e ∧ m.clone (snapPath d n) e props = (.ok (), m)) ∨
      ∃ x hx hd, G.owner x = some d ∧ G.name x = n ∧
        (m.clone (snapPath d n) e props).1 = .ok () ∧
        Represents (m.clone (snapPath d n) e props).2 (G.clone x e hx hd) := by
  unfold Mem.clone
  simp only [split_snapPath hplain, Bool.not_true, Bool.false_eq_true, reduceIte]
  cases hD : m.ds.lookup d with
  | none => exact .inl ⟨_, rfl⟩
  | some D =>
    simp only
    obtain ⟨hnone, _⟩ | ⟨σ, hσ, _, howner, hname, _⟩ := h.lookupSnap_cases d n
    · have : D.snaps.lookup n = none := by simpa [Mem.lookupSnap, hD] using hnone
      exact .inl ⟨notExist (snapPath d n), by simp [this]⟩
    · have hsome : D.snaps.lookup n = some σ := by simpa [Mem.lookupSnap, hD] using hσ
      simp only [hsome, Option.isNone_some, Bool.false_eq_true, reduceIte]
      split_ifs with hdest'
      · exact .inr (.inl ⟨h.alive.mpr hdest', rfl⟩)
      obtain ⟨err, hcreate⟩ | ⟨hdead, hok, hcreated⟩ :=
        h.create_cases hdest D.kind D.volsize props
      · exact .inl ⟨err, by rw [hcreate]⟩
      · generalize m.create e D.kind D.volsize props = r at hok hcreated
        obtain ⟨r, m'⟩ := r
        simp only at hok hcreated
        subst hok
        refine .inr (.inr ⟨σ.txg, ⟨d, howner⟩, hdead, howner, hname, rfl, ?_⟩)
        exact hname ▸ hcreated.cloned howner hdead

theorem discarded (h : Represents m G) (hx : G.owner x = some d) (hcloned : ¬ G.Cloned x) :
    Represents { m with ds := m.ds.modify d fun D => { D with snaps := D.snaps.erase (G.name x) } }
      (G.discard x hcloned) where
  alive {f} := by simp [h.alive, CloneGraph.discard]
  plain := h.plain
  named {f F} hF := by
    simp only [FinMap.lookup_modify, Option.map_eq_some_iff] at hF
    obtain ⟨F', hF', rfl⟩ := hF
    have hname := h.named hF'
    split_ifs <;> exact hname
  snap {f n σ} hσ := by
    have hσ' : m.lookupSnap f n = some σ ∧ ¬ (f = d ∧ n = G.name x) := by
      rw [lookupSnap_modify] at hσ
      split_ifs at hσ with hf
      · subst hf
        obtain ⟨D, hD, hσ⟩ := Option.bind_eq_some_iff.mp hσ
        simp only [FinMap.lookup_erase] at hσ
        split_ifs at hσ with hn
        exact ⟨by simpa [Mem.lookupSnap, hD] using hσ, by simp [hn]⟩
      · exact ⟨hσ, fun hfd => hf hfd.1⟩
    obtain ⟨hσ', hne⟩ := hσ'
    obtain ⟨hname, howner, hn, hmarked⟩ := h.snap hσ'
    refine ⟨hname, ?_, hn, hmarked⟩
    rw [CloneGraph.owner_discard]
    · exact howner
    · intro heq
      rw [heq] at howner hn
      exact hne ⟨Option.some_inj.mp (howner.symm.trans hx), hn.symm⟩
  owned {y f} hy := by
    obtain ⟨hyx, hy⟩ := CloneGraph.owner_of_discard hy
    obtain ⟨σ, hσ, htxg⟩ := h.owned hy
    refine ⟨σ, ?_, htxg⟩
    rw [lookupSnap_modify]
    split_ifs with hf
    · subst hf
      obtain ⟨D, hD, hσ⟩ := Option.bind_eq_some_iff.mp hσ
      have hn : G.name y ≠ G.name x := fun hn => hyx (G.name_inj hy hx hn)
      simpa [hD, CloneGraph.discard, hn] using hσ
    · exact hσ
  independent {f F} hF ho := by
    simp only [FinMap.lookup_modify, Option.map_eq_some_iff] at hF
    obtain ⟨F', hF', rfl⟩ := hF
    have horigin := h.independent hF' ho
    split_ifs <;> exact horigin
  clone {f F y p} hF ho hp := by
    simp only [FinMap.lookup_modify, Option.map_eq_some_iff] at hF
    obtain ⟨F', hF', rfl⟩ := hF
    have horigin := h.clone hF' ho (CloneGraph.owner_of_discard hp).2
    split_ifs <;> exact horigin
  txg := h.txg

theorem marked {σ : Snapshot} (h : Represents m G) (hσ : m.lookupSnap d n = some σ)
    (hcloned : G.Cloned σ.txg) :
    Represents { m with ds := m.ds.modify d fun D =>
        { D with snaps := D.snaps.insert n { σ with deferred := true } } }
      (G.mark σ.txg hcloned) where
  alive {f} := by simp [h.alive, CloneGraph.mark]
  plain := h.plain
  named {f F} hF := by
    simp only [FinMap.lookup_modify, Option.map_eq_some_iff] at hF
    obtain ⟨F', hF', rfl⟩ := hF
    have hname := h.named hF'
    split_ifs <;> exact hname
  snap {f k τ} hτ := by
    have hτ' : (f = d ∧ k = n ∧ τ = { σ with deferred := true }) ∨
        (m.lookupSnap f k = some τ ∧ ¬ (f = d ∧ k = n)) := by
      rw [lookupSnap_modify] at hτ
      split_ifs at hτ with hf
      · subst hf
        obtain ⟨D, hD, hτ⟩ := Option.bind_eq_some_iff.mp hτ
        simp only [FinMap.lookup_insert] at hτ
        split_ifs at hτ with hk
        · exact .inl ⟨rfl, hk, (Option.some_inj.mp hτ).symm⟩
        · exact .inr ⟨by simpa [Mem.lookupSnap, hD] using hτ, by simp [hk]⟩
      · exact .inr ⟨hτ, fun hfd => hf hfd.1⟩
    obtain ⟨rfl, rfl, rfl⟩ | ⟨hτ', hne⟩ := hτ'
    · obtain ⟨hname, howner, hn, _⟩ := h.snap hσ
      exact ⟨hname, howner, hn, by simp [CloneGraph.mark]⟩
    · obtain ⟨hname, howner, hk, hmarked⟩ := h.snap hτ'
      refine ⟨hname, howner, hk, ?_⟩
      simp only [CloneGraph.mark, hmarked]
      refine ⟨.inr, fun hm => hm.resolve_left fun heq => hne ?_⟩
      obtain ⟨_, howner', hn, _⟩ := h.snap hσ
      rw [heq] at howner hk
      exact ⟨Option.some_inj.mp (howner.symm.trans howner'), hk.symm.trans hn⟩
  owned {y f} hy := by
    obtain ⟨τ, hτ, htxg⟩ := h.owned hy
    rw [lookupSnap_modify]
    split_ifs with hf
    · subst hf
      obtain ⟨D, hD, hτ'⟩ := Option.bind_eq_some_iff.mp hτ
      by_cases hk : G.name y = n
      · rw [hk, hσ] at hτ
        refine ⟨{ σ with deferred := true }, by simp [hD, CloneGraph.mark, hk], ?_⟩
        rw [← htxg, Option.some_inj.mp hτ]
      · exact ⟨τ, by simpa [hD, CloneGraph.mark, hk] using hτ', htxg⟩
    · exact ⟨τ, hτ, htxg⟩
  independent {f F} hF ho := by
    simp only [FinMap.lookup_modify, Option.map_eq_some_iff] at hF
    obtain ⟨F', hF', rfl⟩ := hF
    have horigin := h.independent hF' ho
    split_ifs <;> exact horigin
  clone {f F y p} hF ho hp := by
    simp only [FinMap.lookup_modify, Option.map_eq_some_iff] at hF
    obtain ⟨F', hF', rfl⟩ := hF
    have horigin := h.clone hF' ho hp
    split_ifs <;> exact horigin
  txg := h.txg

/-- `destroy -d` finds nothing, destroys the snapshot, or marks it. -/
theorem destroySnapshotDeferred_cases (h : Represents m G) (hplain : Plain d) (n : String) :
    ((∀ x, G.owner x = some d → G.name x ≠ n) ∧
        m.destroySnapshotDeferred (snapPath d n) = (.ok (), m)) ∨
      ∃ x, G.owner x = some d ∧ G.name x = n ∧
        (m.destroySnapshotDeferred (snapPath d n)).1 = .ok () ∧
        ((∃ hx, Represents (m.destroySnapshotDeferred (snapPath d n)).2 (G.discard x hx)) ∨
          ∃ hx, Represents (m.destroySnapshotDeferred (snapPath d n)).2 (G.mark x hx)) := by
  unfold Mem.destroySnapshotDeferred
  simp only [split_snapPath hplain, Bool.not_true, Bool.false_eq_true, reduceIte]
  obtain ⟨hnone, hfree⟩ | ⟨σ, hσ, _, howner, hname, _⟩ := h.lookupSnap_cases d n
  · exact .inl ⟨hfree, by rw [hnone]⟩
  · refine .inr ⟨σ.txg, howner, hname, ?_, ?_⟩
    · rw [hσ]
      simp only
      split_ifs <;> rfl
    · rw [hσ]
      simp only
      subst hname
      split_ifs with hclones
      · exact .inl ⟨(h.clonesOf_eq_nil howner).mp hclones, h.discarded howner _⟩
      · refine .inr ⟨?_, h.marked hσ _⟩
        by_contra hx
        exact hclones ((h.clonesOf_eq_nil howner).mpr hx)

/-- What is left when a dataset is gone, and with it a marked snapshot it was the last clone of. -/
theorem destroyed (h : Represents m G) (hd : ∀ x, G.owner x ≠ some d) {m' : Mem}
    (hlookup : ∀ e, (m'.ds.lookup e).map (fun E => (E.name, E.origin)) =
      if e = d then none else (m.ds.lookup e).map fun E => (E.name, E.origin))
    (hsnap : ∀ e n σ, m'.lookupSnap e n = some σ ↔ m.lookupSnap e n = some σ ∧
      ¬ (G.marked σ.txg ∧ ∀ f, G.origin f = some σ.txg → f = d))
    (htxg : m'.txg = m.txg) : Represents m' (G.destroy d hd) := by
  have hold : ∀ {e E}, m'.ds.lookup e = some E → e ≠ d ∧ ∃ E', m.ds.lookup e = some E' ∧
      E'.name = E.name ∧ E'.origin = E.origin := by
    intro e E hE
    have hmap := hlookup e
    rw [hE, Option.map_some] at hmap
    split_ifs at hmap with he
    obtain ⟨E', hE', heq⟩ := Option.map_eq_some_iff.mp hmap.symm
    simp only [Prod.mk.injEq] at heq
    exact ⟨he, E', hE', heq⟩
  refine ⟨?_, fun he => h.plain he.2, ?_, ?_, ?_, ?_, ?_, htxg.trans h.txg⟩
  · intro e
    have hmap := congrArg Option.isSome (hlookup e)
    rw [Option.isSome_map] at hmap
    rw [hmap]
    by_cases he : e = d <;> simp [CloneGraph.destroy, he, h.alive]
  · intro e E hE
    obtain ⟨_, E', hE', hname, _⟩ := hold hE
    rw [← hname, h.named hE']
  · intro e n σ hσ
    obtain ⟨hσ', hkept⟩ := (hsnap e n σ).mp hσ
    obtain ⟨hname, howner, hn, hmarked⟩ := h.snap hσ'
    refine ⟨hname, ?_, hn, hmarked⟩
    simp only [CloneGraph.destroy]
    rw [if_neg hkept]
    exact howner
  · intro x e hx
    simp only [CloneGraph.destroy] at hx ⊢
    split_ifs at hx with hdropped
    obtain ⟨σ, hσ, rfl⟩ := h.owned hx
    exact ⟨σ, (hsnap _ _ _).mpr ⟨hσ, hdropped⟩, rfl⟩
  · intro e E hE ho
    obtain ⟨he, E', hE', _, horigin⟩ := hold hE
    simp only [CloneGraph.destroy, he, if_false] at ho
    rw [← horigin, h.independent hE' ho]
  · intro e E x p hE ho hp
    obtain ⟨he, E', hE', _, horigin⟩ := hold hE
    simp only [CloneGraph.destroy, he, if_false] at ho
    rw [← horigin]
    exact h.clone hE' ho (CloneGraph.owner_of_destroy hp)

theorem snapNames_eq_nil (h : Represents m G) {D : Dataset} (hD : m.ds.lookup d = some D) :
    Mem.snapNames D = [] ↔ ∀ x, G.owner x ≠ some d := by
  have hmem : Mem.snapNames D = [] ↔ ∀ n, D.snaps.lookup n = none := by
    simp only [Mem.snapNames, List.map_eq_nil_iff, Mem.sortedSnaps]
    rw [← List.length_eq_zero_iff, List.length_insertionSort, List.length_eq_zero_iff,
      List.eq_nil_iff_forall_not_mem]
    simp only [FinMap.mem_values, not_exists]
    constructor
    · intro hnone n
      cases hn : D.snaps.lookup n with
      | none => rfl
      | some σ => exact absurd hn (hnone σ n)
    · intro hnone σ n
      simp [hnone n]
  rw [hmem]
  constructor
  · intro hnone x hx
    obtain ⟨σ, hσ, _⟩ := h.owned hx
    simp [Mem.lookupSnap, hD, hnone] at hσ
  · intro hnone n
    obtain ⟨hfree, _⟩ | ⟨σ, _, _, howner, _⟩ := h.lookupSnap_cases d n
    · simpa [Mem.lookupSnap, hD] using hfree
    · exact absurd howner (hnone _)

/-- The datasets without `d`. -/
def without (m : Mem) (d : String) : Mem := { m with ds := m.ds.filterKeys fun n => n ∉ [d] }

theorem lookup_without (e : String) :
    (without m d).ds.lookup e = if e = d then none else m.ds.lookup e := by
  by_cases he : e = d <;> simp [without, he]

theorem lookupSnap_without (h : Represents m G) (hd : ∀ x, G.owner x ≠ some d) (e n : String) :
    (without m d).lookupSnap e n = m.lookupSnap e n := by
  by_cases he : e = d
  · subst he
    obtain ⟨hnone, _⟩ | ⟨σ, _, _, howner, _⟩ := h.lookupSnap_cases e n
    · rw [hnone]
      simp [Mem.lookupSnap, lookup_without]
    · exact absurd howner (hd _)
  · simp [Mem.lookupSnap, lookup_without, he]

theorem clonesOf_without (h : Represents m G) {o : Nat} {p : String} (ho : G.owner o = some p) :
    (without m d).clonesOf (snapPath p (G.name o)) = [] ↔ ∀ f, G.origin f = some o → f = d := by
  rw [List.eq_nil_iff_forall_not_mem]
  simp only [← h.mem_clonesOf ho]
  refine forall_congr' fun f => ?_
  by_cases hf : f = d <;> simp [Mem.clonesOf, Mem.namesWhere, lookup_without, hf]

/-- A marked origin goes with its last clone. -/
theorem dropIfDone_without (h : Represents m G) (hd : ∀ x, G.owner x ≠ some d) {o : Nat}
    {p : String} (horigin : G.origin d = some o) (ho : G.owner o = some p) :
    Represents ((without m d).dropIfDone (snapPath p (G.name o))) (G.destroy d hd) := by
  have hp := h.plain (G.owner_alive ho)
  obtain ⟨σ, hσ, _, htxg, hmarked⟩ := h.lookupSnap_eq ho
  -- only the origin can lose its last clone
  have hothers : ∀ x q, G.owner x = some q → x ≠ o →
      ¬ (G.marked x ∧ ∀ f, G.origin f = some x → f = d) := by
    rintro x q hx hne ⟨hm, hlast⟩
    obtain ⟨e, he⟩ := G.marked_cloned hm hx
    rw [hlast e he, horigin] at he
    exact hne (Option.some_inj.mp he).symm
  have hlookup : ∀ e, ((without m d).ds.lookup e).map (fun E => (E.name, E.origin)) =
      if e = d then none else (m.ds.lookup e).map fun E => (E.name, E.origin) := by
    intro e
    by_cases he : e = d <;> simp [lookup_without, he]
  unfold Mem.dropIfDone
  simp only [split_snapPath hp, if_true, h.lookupSnap_without hd, hσ]
  split_ifs with hdone
  · refine h.destroyed hd ?_ ?_ rfl
    · intro e
      rw [← hlookup e]
      simp only [FinMap.lookup_modify, Option.map_map]
      congr 1
      funext E
      by_cases he : e = p <;> simp [he]
    · intro e n τ
      rw [lookupSnap_modify, h.lookupSnap_without hd]
      by_cases hen : e = p ∧ n = G.name o
      · obtain ⟨rfl, rfl⟩ := hen
        simp only [if_true, FinMap.lookup_erase, hσ]
        refine ⟨fun hnone => ?_, fun hτ => ?_⟩
        · cases hw : (without m d).ds.lookup e <;> simp [hw] at hnone
        · obtain rfl := Option.some_inj.mp hτ.1
          rw [htxg] at hτ
          exact absurd ⟨hmarked.mp hdone.1, (h.clonesOf_without ho).mp hdone.2⟩ hτ.2
      · have hkept : (if e = p then ((without m d).ds.lookup p).bind fun D =>
            ((D.snaps.erase (G.name o)).lookup n) else m.lookupSnap e n) = m.lookupSnap e n := by
          split_ifs with he
          · subst he
            have hn : n ≠ G.name o := fun hn => hen ⟨rfl, hn⟩
            simpa [hn, Mem.lookupSnap] using h.lookupSnap_without hd e n
          · rfl
        rw [hkept]
        refine ⟨fun hτ => ⟨hτ, ?_⟩, And.left⟩
        obtain ⟨_, howner, hn, _⟩ := h.snap hτ
        refine hothers _ _ howner fun heq => hen ?_
        rw [heq] at howner hn
        exact ⟨Option.some_inj.mp (howner.symm.trans ho), hn.symm⟩
  · refine h.destroyed hd hlookup (fun e n τ => ?_) rfl
    rw [h.lookupSnap_without hd]
    refine ⟨fun hτ => ⟨hτ, ?_⟩, And.left⟩
    obtain ⟨_, howner, _, _⟩ := h.snap hτ
    by_cases hne : τ.txg = o
    · rw [hne]
      exact fun hlost => hdone ⟨hmarked.mpr hlost.1, (h.clonesOf_without ho).mpr hlost.2⟩
    · exact hothers _ _ howner hne

/-- A destroy of a dataset finds nothing, refuses while there are children or snapshots, or
destroys it. -/
theorem destroy_cases (h : Represents m G) (hplain : Plain d) :
    (¬ G.alive d ∧ m.destroy d false = (.ok (), m)) ∨
      ((m.children d ≠ [] ∨ ∃ x, G.owner x = some d) ∧ ∃ e, m.destroy d false = (.error e, m)) ∨
      ∃ hd, (m.destroy d false).1 = .ok () ∧ Represents (m.destroy d false).2 (G.destroy d hd) := by
  unfold Mem.destroy
  simp only [split_plain hplain, Bool.false_eq_true, if_false, Bool.not_false, true_and]
  cases hD : m.ds.lookup d with
  | none => exact .inl ⟨by simp [h.alive, hD], rfl⟩
  | some D =>
    simp only
    split_ifs with hbusy houtside
    · refine .inr (.inl ⟨hbusy.imp id fun hsnaps => ?_, _, rfl⟩)
      rw [Ne, h.snapNames_eq_nil hD] at hsnaps
      simpa using hsnaps
    · simp only [not_or, not_not] at hbusy
      simp [hbusy.1, hD, hbusy.2] at houtside
    · simp only [not_or, not_not] at hbusy
      have hd := (h.snapNames_eq_nil hD).mp hbusy.2
      refine .inr (.inr ⟨hd, rfl, ?_⟩)
      cases ho : G.origin d with
      | none =>
        have horigin := h.independent hD ho
        simp only [hbusy.1, List.filterMap_cons, hD, List.filterMap_nil,
          List.map_cons, List.map_nil, horigin, ne_eq, not_true_eq_false, decide_false,
          List.filter_cons_of_neg, Bool.false_eq_true, not_false_eq_true, List.filter_nil,
          List.foldl_nil]
        change Represents (without m d) (G.destroy d hd)
        refine h.destroyed hd (fun e => ?_) (fun e n τ => ?_) rfl
        · by_cases he : e = d <;> simp [lookup_without, he]
        · rw [h.lookupSnap_without hd]
          refine ⟨fun hτ => ⟨hτ, ?_⟩, And.left⟩
          rintro ⟨hm, hlast⟩
          obtain ⟨_, howner, _, _⟩ := h.snap hτ
          obtain ⟨e, he⟩ := G.marked_cloned hm howner
          rw [hlast e he, ho] at he
          cases he
      | some o =>
        obtain ⟨p, hp⟩ := G.origin_owned ho
        have horigin := h.clone hD ho hp
        have hne := snapPath_ne_empty p (G.name o)
        simp only [hbusy.1, List.filterMap_cons, hD, List.filterMap_nil,
          List.map_cons, List.map_nil, horigin, ne_eq, hne, not_false_eq_true, decide_true,
          List.filter_cons_of_pos, List.filter_nil, List.foldl_cons, List.foldl_nil]
        exact h.dropIfDone_without hd ho hp

end Represents

end Represents

end SimpleZfsCsi.Memzfs
