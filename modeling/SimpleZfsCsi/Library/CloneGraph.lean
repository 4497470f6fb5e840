import Mathlib.Logic.Basic
import Mathlib.Tactic.ByContra
import Mathlib.Tactic.SplitIfs
import Mathlib.Tactic.Spread

/-!
# Clone graphs

Datasets own snapshots, and a dataset may be a clone of a snapshot, its origin. Snapshots
are numbered in the order they are taken, and the number is the identity of a snapshot: it
keeps it, its name and its mark when a promote hands it to another dataset. A snapshot
that is marked disappears with its last clone.

`promote c` makes the clone `c` the owner of its origin `o` and of everything older on the
dataset `p` that owned it; `p` becomes a clone of `o`, and `c` takes over the origin of `p`.

A dataset holds a snapshot as a vessel when it takes no snapshots of its own: it is a clone
of the snapshot and owns nothing, or it owns the snapshot and otherwise only older ones.
No promote whatsoever changes that.
-/

namespace SimpleZfsCsi.Library

/-- A well-formed state of datasets `D`, snapshots and their names `N`. -/
structure CloneGraph (D N : Type) where
  alive : D → Prop
  /-- the dataset a snapshot is on; `none` if there is no such snapshot -/
  owner : Nat → Option D
  name : Nat → N
  /-- marked for deferred destruction -/
  marked : Nat → Prop
  origin : D → Option Nat
  /-- the number of the last snapshot taken -/
  last : Nat
  owner_alive : ∀ {x d}, owner x = some d → alive d
  owner_le : ∀ {x d}, owner x = some d → x ≤ last
  origin_alive : ∀ {d x}, origin d = some x → alive d
  origin_owned : ∀ {d x}, origin d = some x → ∃ p, owner x = some p
  /-- the snapshots of a clone are younger than its origin -/
  younger : ∀ {d x y}, origin d = some x → owner y = some d → x < y
  marked_cloned : ∀ {x d}, marked x → owner x = some d → ∃ e, origin e = some x
  name_inj : ∀ {x y d}, owner x = some d → owner y = some d → name x = name y → x = y

namespace CloneGraph

variable {D N : Type} {G : CloneGraph D N} {d e h c p : D} {x y o : Nat} {n : N}

/-- A dataset is not a clone of its own snapshots. -/
theorem origin_ne (hc : G.origin c = some o) (ho : G.owner o = some p) : p ≠ c := by
  rintro rfl
  exact absurd (G.younger hc ho) (Nat.lt_irrefl o)

/-- Some dataset is a clone of `x`. -/
def Cloned (G : CloneGraph D N) (x : Nat) : Prop := ∃ d, G.origin d = some x

/-! ## Operations -/

open Classical in
/-- A new dataset. -/
noncomputable def create (G : CloneGraph D N) (d : D) : CloneGraph D N where
  __ := G
  alive e := e = d ∨ G.alive e
  owner_alive hx := .inr (G.owner_alive hx)
  origin_alive hd := .inr (G.origin_alive hd)

open Classical in
/-- Take a snapshot of `d`. -/
noncomputable def take (G : CloneGraph D N) (d : D) (n : N) (hd : G.alive d)
    (hn : ∀ x, G.owner x = some d → G.name x ≠ n) : CloneGraph D N where
  alive := G.alive
  owner x := if x = G.last + 1 then some d else G.owner x
  name x := if x = G.last + 1 then n else G.name x
  marked x := x ≠ G.last + 1 ∧ G.marked x
  origin := G.origin
  last := G.last + 1
  owner_alive {x e} hx := by
    split_ifs at hx
    · exact Option.some_inj.mp hx ▸ hd
    · exact G.owner_alive hx
  owner_le {x e} hx := by
    split_ifs at hx with h
    · omega
    · exact Nat.le_succ_of_le (G.owner_le hx)
  origin_alive := G.origin_alive
  origin_owned {e x} he := by
    obtain ⟨p, hp⟩ := G.origin_owned he
    have := G.owner_le hp
    exact ⟨p, by rw [if_neg (by omega)]; exact hp⟩
  younger {e x y} he hy := by
    obtain ⟨p, hp⟩ := G.origin_owned he
    have := G.owner_le hp
    split_ifs at hy with h
    · omega
    · exact G.younger he hy
  marked_cloned {x e} hx hy := by
    rw [if_neg hx.1] at hy
    exact G.marked_cloned hx.2 hy
  name_inj {x y e} hx hy hxy := by
    split_ifs at hx hy hxy with h h' h' <;> grind [G.name_inj]

open Classical in
/-- A new clone `d` of the snapshot `x`. -/
noncomputable def clone (G : CloneGraph D N) (x : Nat) (d : D) (hx : ∃ p, G.owner x = some p)
    (hd : ¬ G.alive d) : CloneGraph D N where
  __ := G
  alive e := e = d ∨ G.alive e
  origin e := if e = d then some x else G.origin e
  owner_alive hy := .inr (G.owner_alive hy)
  origin_alive {e y} he := by
    split_ifs at he with h
    · exact .inl h
    · exact .inr (G.origin_alive he)
  origin_owned {e y} he := by
    split_ifs at he with h
    · exact Option.some_inj.mp he ▸ hx
    · exact G.origin_owned he
  younger {e y z} he hz := by
    split_ifs at he with h
    · exact absurd (G.owner_alive (h ▸ hz)) hd
    · exact G.younger he hz
  marked_cloned {y e} hy hye := by
    obtain ⟨f, hf⟩ := G.marked_cloned hy hye
    refine ⟨f, ?_⟩
    rw [if_neg]
    · exact hf
    · rintro rfl
      exact hd (G.origin_alive hf)

/-- `c` is a clone of `o`, which is on `p`, and a promote of `c` meets no name twice. -/
structure Promotable (G : CloneGraph D N) (c p : D) (o : Nat) : Prop where
  origin : G.origin c = some o
  owner : G.owner o = some p
  names : ∀ x y, G.owner x = some p → x ≤ o → G.owner y = some c → G.name x ≠ G.name y

open Classical in
/-- Hand `o` and what is older on `p` to the clone `c`. -/
noncomputable def promote (G : CloneGraph D N) (c p : D) (o : Nat) (hc : G.Promotable c p o) :
    CloneGraph D N where
  alive := G.alive
  owner x := if G.owner x = some p ∧ x ≤ o then some c else G.owner x
  name := G.name
  marked := G.marked
  origin d := if d = c then G.origin p else if d = p then some o else G.origin d
  last := G.last
  owner_alive {x d} hx := by
    split_ifs at hx
    · exact Option.some_inj.mp hx ▸ G.origin_alive hc.origin
    · exact G.owner_alive hx
  owner_le {x d} hx := by
    split_ifs at hx with h
    · exact G.owner_le h.1
    · exact G.owner_le hx
  origin_alive {d x} hd := by
    split_ifs at hd with h h'
    · exact h ▸ G.origin_alive hc.origin
    · exact h' ▸ G.owner_alive hc.owner
    · exact G.origin_alive hd
  origin_owned {d x} hd := by
    have hx : ∃ q, G.owner x = some q := by
      split_ifs at hd with h h'
      · exact G.origin_owned hd
      · exact ⟨p, Option.some_inj.mp hd ▸ hc.owner⟩
      · exact G.origin_owned hd
    obtain ⟨q, hq⟩ := hx
    split_ifs
    · exact ⟨c, rfl⟩
    · exact ⟨q, hq⟩
  younger {d x y} hd hy := by
    split_ifs at hd hy with h h' h' h'
    · -- what `c` takes over is younger than the origin it takes over
      exact G.younger hd h'.1
    · have h₁ := G.younger hd hc.owner
      have h₂ := G.younger hc.origin (h ▸ hy)
      omega
    · exact absurd (Option.some_inj.mp hy).symm h
    · rename_i hp
      have hlt : ¬ y ≤ o := fun hle => h' ⟨hp ▸ hy, hle⟩
      have : o = x := Option.some_inj.mp hd
      omega
    · exact absurd (Option.some_inj.mp hy).symm h
    · exact G.younger hd hy
  marked_cloned {x d} hx hy := by
    have hcloned : ∃ e, G.origin e = some x := by
      split_ifs at hy with h
      · exact G.marked_cloned hx h.1
      · exact G.marked_cloned hx hy
    obtain ⟨e, he⟩ := hcloned
    by_cases h : e = c
    · have hox : o = x := Option.some_inj.mp (hc.origin.symm.trans (h ▸ he))
      refine ⟨p, ?_⟩
      rw [if_neg (origin_ne hc.origin hc.owner), if_pos rfl, hox]
    by_cases h' : e = p
    · exact ⟨c, by rw [if_pos rfl]; exact h' ▸ he⟩
    · exact ⟨e, by rw [if_neg h, if_neg h']; exact he⟩
  name_inj {x y d} hx hy hxy := by
    split_ifs at hx hy with h h' h'
    · exact G.name_inj h.1 h'.1 hxy
    · exact absurd hxy (hc.names x y h.1 h.2 (hy.trans hx.symm))
    · exact absurd hxy.symm (hc.names y x h'.1 h'.2 (hx.trans hy.symm))
    · exact G.name_inj hx hy hxy

open Classical in
/-- Destroy a dataset that owns no snapshot; a marked origin disappears with its last clone. -/
noncomputable def destroy (G : CloneGraph D N) (d : D) (hd : ∀ x, G.owner x ≠ some d) :
    CloneGraph D N where
  alive e := e ≠ d ∧ G.alive e
  owner x := if G.marked x ∧ ∀ e, G.origin e = some x → e = d then none else G.owner x
  name := G.name
  marked := G.marked
  origin e := if e = d then none else G.origin e
  last := G.last
  owner_alive {x e} hx := by
    split_ifs at hx
    refine ⟨?_, G.owner_alive hx⟩
    rintro rfl
    exact hd x hx
  owner_le {x e} hx := by
    split_ifs at hx
    exact G.owner_le hx
  origin_alive {e x} he := by
    split_ifs at he with h
    exact ⟨h, G.origin_alive he⟩
  origin_owned {e x} he := by
    split_ifs at he with h
    rw [if_neg]
    · exact G.origin_owned he
    · exact fun hx => h (hx.2 e he)
  younger {e x y} he hy := by
    split_ifs at he hy
    exact G.younger he hy
  marked_cloned {x e} hx hy := by
    split_ifs at hy with h
    by_contra hnone
    refine h ⟨hx, fun f hf => ?_⟩
    by_contra hne
    exact hnone ⟨f, by rw [if_neg hne]; exact hf⟩
  name_inj {x y e} hx hy := by
    split_ifs at hx hy
    exact G.name_inj hx hy

open Classical in
/-- Destroy a snapshot that nothing clones. -/
noncomputable def discard (G : CloneGraph D N) (x : Nat) (hx : ¬ G.Cloned x) : CloneGraph D N where
  __ := G
  owner y := if y = x then none else G.owner y
  owner_alive {y e} hy := by
    split_ifs at hy
    exact G.owner_alive hy
  owner_le {y e} hy := by
    split_ifs at hy
    exact G.owner_le hy
  origin_owned {e y} he := by
    rw [if_neg]
    · exact G.origin_owned he
    · rintro rfl
      exact hx ⟨e, he⟩
  younger {e y z} he hz := by
    split_ifs at hz
    exact G.younger he hz
  marked_cloned {y e} hy hye := by
    split_ifs at hye
    exact G.marked_cloned hy hye
  name_inj {y z e} hy hz := by
    split_ifs at hy hz
    exact G.name_inj hy hz

/-- Mark a cloned snapshot. -/
def mark (G : CloneGraph D N) (x : Nat) (hx : G.Cloned x) : CloneGraph D N where
  __ := G
  marked y := y = x ∨ G.marked y
  marked_cloned {y e} hy hye := by
    rcases hy with rfl | hy
    · exact hx
    · exact G.marked_cloned hy hye

/-! ## Vessels -/

/-- `h` holds `x`: it is a clone of `x`, or owns it. -/
def Linked (G : CloneGraph D N) (h : D) (x : Nat) : Prop :=
  G.origin h = some x ∨ G.owner x = some h

/-- `h` holds `x` and no younger snapshot. -/
def Vessel (G : CloneGraph D N) (h : D) (x : Nat) : Prop :=
  (G.origin h = some x ∧ ∀ y, G.owner y ≠ some h) ∨
    (G.owner x = some h ∧ ∀ y, G.owner y = some h → y ≤ x)

theorem Vessel.linked (hv : G.Vessel h x) : G.Linked h x := hv.imp And.left And.left

theorem Linked.owned (hl : G.Linked h x) : ∃ p, G.owner x = some p := by
  rcases hl with hl | hl
  · exact G.origin_owned hl
  · exact ⟨h, hl⟩

theorem Linked.alive (hl : G.Linked h x) : G.alive h := by
  rcases hl with hl | hl
  · exact G.origin_alive hl
  · exact G.owner_alive hl

theorem owned_ne_last (hx : ∃ p, G.owner x = some p) : x ≠ G.last + 1 := by
  obtain ⟨p, hp⟩ := hx
  have := G.owner_le hp
  omega

section Promote

variable {hc : G.Promotable c p o}

/-- Whatever is promoted, a vessel keeps what it holds. -/
theorem Vessel.promote (hv : G.Vessel h x) : (G.promote c p o hc).Vessel h x := by
  have hne := origin_ne hc.origin hc.owner
  simp only [Vessel, CloneGraph.promote]
  by_cases hhc : h = c
  · -- the vessel is promoted: it becomes the owner, or takes over what is still older
    subst hhc
    refine .inr ?_
    rcases hv with ⟨hx, hnone⟩ | ⟨hx, hle⟩
    · obtain rfl : o = x := Option.some_inj.mp (hc.origin.symm.trans hx)
      refine ⟨by rw [if_pos ⟨hc.owner, Nat.le_refl o⟩], fun y hy => ?_⟩
      split_ifs at hy with hmoved
      · exact hmoved.2
      · exact absurd hy (hnone y)
    · have hlt := G.younger hc.origin hx
      refine ⟨by
        rw [if_neg fun hmoved => hne (Option.some_inj.mp (hmoved.1.symm.trans hx))]; exact hx,
        fun y hy => ?_⟩
      split_ifs at hy with hmoved
      · omega
      · exact hle y hy
  by_cases hhp : h = p
  · -- something is promoted away from the vessel: at most `x` goes, and then it is the origin
    subst hhp
    rcases hv with ⟨hx, hnone⟩ | ⟨hx, hle⟩
    · exact absurd hc.owner (hnone o)
    · have hox := hle o hc.owner
      rcases Nat.lt_or_eq_of_le hox with hlt | rfl
      · refine .inr ⟨by rw [if_neg fun hmoved => by omega]; exact hx, fun y hy => ?_⟩
        split_ifs at hy with hmoved
        · exact absurd (Option.some_inj.mp hy).symm hhc
        · exact hle y hy
      · refine .inl ⟨by rw [if_neg hhc, if_pos rfl], fun y hy => ?_⟩
        split_ifs at hy with hmoved
        · exact hhc (Option.some_inj.mp hy).symm
        · exact hmoved ⟨hy, hle y hy⟩
  · rcases hv with ⟨hx, hnone⟩ | ⟨hx, hle⟩
    · refine .inl ⟨by rw [if_neg hhc, if_neg hhp]; exact hx, fun y hy => ?_⟩
      split_ifs at hy with hmoved
      · exact hhc (Option.some_inj.mp hy).symm
      · exact hnone y hy
    · refine .inr
        ⟨by rw [if_neg fun hmoved => hhp (Option.some_inj.mp (hx.symm.trans hmoved.1))]; exact hx,
        fun y hy => ?_⟩
      split_ifs at hy with hmoved
      · exact absurd (Option.some_inj.mp hy).symm hhc
      · exact hle y hy

/-- A dataset keeps what it holds while nothing is promoted away from it. -/
theorem Linked.promote (hl : G.Linked h x) (hhp : h ≠ p) : (G.promote c p o hc).Linked h x := by
  have hne := origin_ne hc.origin hc.owner
  simp only [Linked, CloneGraph.promote]
  rcases hl with hx | hx
  · by_cases hhc : h = c
    · subst hhc
      obtain rfl : o = x := Option.some_inj.mp (hc.origin.symm.trans hx)
      exact .inr (by rw [if_pos ⟨hc.owner, Nat.le_refl o⟩])
    · exact .inl (by rw [if_neg hhc, if_neg hhp]; exact hx)
  · refine .inr ?_
    rw [if_neg fun hmoved => hhp (Option.some_inj.mp (hx.symm.trans hmoved.1))]
    exact hx

end Promote

theorem Vessel.create (hv : G.Vessel h x) : (G.create d).Vessel h x := hv

theorem Linked.create (hl : G.Linked h x) : (G.create d).Linked h x := hl

theorem Vessel.take (hv : G.Vessel h x) {hd : G.alive d}
    {hn : ∀ x, G.owner x = some d → G.name x ≠ n} (hne : d ≠ h) :
    (G.take d n hd hn).Vessel h x := by
  have hx := owned_ne_last hv.linked.owned
  simp only [Vessel, CloneGraph.take]
  rcases hv with ⟨ho, hnone⟩ | ⟨ho, hle⟩
  · refine .inl ⟨ho, fun y hy => ?_⟩
    split_ifs at hy
    · exact hne (Option.some_inj.mp hy)
    · exact hnone y hy
  · refine .inr ⟨by rw [if_neg hx]; exact ho, fun y hy => ?_⟩
    split_ifs at hy
    · exact absurd (Option.some_inj.mp hy) hne
    · exact hle y hy

theorem Linked.take (hl : G.Linked h x) {hd : G.alive d}
    {hn : ∀ x, G.owner x = some d → G.name x ≠ n} : (G.take d n hd hn).Linked h x := by
  have hx := owned_ne_last hl.owned
  exact hl.imp id fun ho => by simp only [CloneGraph.take]; rw [if_neg hx]; exact ho

section Clone

variable {hy : ∃ p, G.owner y = some p} {hd : ¬ G.alive d}

theorem origin_clone (hh : G.alive h) : (G.clone y d hy hd).origin h = G.origin h := by
  simp only [CloneGraph.clone]
  rw [if_neg]
  rintro rfl
  exact hd hh

theorem Vessel.clone (hv : G.Vessel h x) : (G.clone y d hy hd).Vessel h x := by
  rw [Vessel, origin_clone hv.linked.alive]
  exact hv

theorem Linked.clone (hl : G.Linked h x) : (G.clone y d hy hd).Linked h x := by
  rw [Linked, origin_clone hl.alive]
  exact hl

end Clone

section Destroy

variable {hd : ∀ x, G.owner x ≠ some d}

/-- An unmarked snapshot, or one that another dataset clones, survives a destroy. -/
theorem owner_destroy (hx : G.marked x → ∃ e, e ≠ d ∧ G.origin e = some x) :
    (G.destroy d hd).owner x = G.owner x := by
  simp only [CloneGraph.destroy]
  rw [if_neg]
  rintro ⟨hmarked, hlast⟩
  obtain ⟨e, hne, he⟩ := hx hmarked
  exact hne (hlast e he)

theorem owner_of_destroy {q : D} (hx : (G.destroy d hd).owner x = some q) : G.owner x = some q := by
  simp only [CloneGraph.destroy] at hx
  split_ifs at hx
  exact hx

theorem Linked.destroy (hl : G.Linked h x) (hne : h ≠ d) (hx : ¬ G.marked x) :
    (G.destroy d hd).Linked h x := by
  rw [Linked, owner_destroy (absurd · hx)]
  exact hl.imp (fun ho => by simp only [CloneGraph.destroy]; rw [if_neg hne]; exact ho) id

theorem Vessel.destroy (hv : G.Vessel h x) (hne : h ≠ d) (hx : ¬ G.marked x) :
    (G.destroy d hd).Vessel h x := by
  rcases hv with ⟨ho, hnone⟩ | ⟨ho, hle⟩
  · refine .inl ⟨by simp only [CloneGraph.destroy]; rw [if_neg hne]; exact ho, fun y hy => ?_⟩
    exact hnone y (owner_of_destroy hy)
  · refine .inr ⟨by rw [owner_destroy (absurd · hx)]; exact ho, fun y hy => ?_⟩
    exact hle y (owner_of_destroy hy)

end Destroy

section Discard

variable {hy : ¬ G.Cloned y}

theorem owner_discard (hne : x ≠ y) : (G.discard y hy).owner x = G.owner x := by
  simp only [CloneGraph.discard]
  rw [if_neg hne]

theorem owner_of_discard {q : D} (hx : (G.discard y hy).owner x = some q) :
    x ≠ y ∧ G.owner x = some q := by
  simp only [CloneGraph.discard] at hx
  split_ifs at hx with hne
  exact ⟨hne, hx⟩

theorem Linked.discard (hl : G.Linked h x) (hne : x ≠ y) : (G.discard y hy).Linked h x := by
  rw [Linked, owner_discard hne]
  exact hl

theorem Vessel.discard (hv : G.Vessel h x) (hne : x ≠ y) : (G.discard y hy).Vessel h x := by
  rcases hv with ⟨ho, hnone⟩ | ⟨ho, hle⟩
  · exact .inl ⟨ho, fun z hz => hnone z (owner_of_discard hz).2⟩
  · exact .inr ⟨by rw [owner_discard hne]; exact ho, fun z hz => hle z (owner_of_discard hz).2⟩

end Discard

theorem Linked.mark (hl : G.Linked h x) {hy : G.Cloned y} : (G.mark y hy).Linked h x := hl

theorem Vessel.mark (hv : G.Vessel h x) {hy : G.Cloned y} : (G.mark y hy).Vessel h x := hv

end CloneGraph

end SimpleZfsCsi.Library
