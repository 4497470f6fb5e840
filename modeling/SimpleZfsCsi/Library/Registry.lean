import SimpleZfsCsi.Library.Holding
import Mathlib.Data.Finset.Card
import Mathlib.Logic.Function.Basic

/-!
# Registries

A registry says who is in charge of what in a region of a clone graph. Each of its posts has
a seat, the dataset it is in charge of, and may have a tag: the snapshot its seat is cloned
from, for which it then answers. `Keeps` is the invariant: every dataset of the region is
the seat of a post, every snapshot that is not marked has a post that answers for it, every
name has been taken once, and no tag is lost before its post is given up.

A post is vacated in three moves: its tag is released, whatever depends on its seat is promoted
away, and the seat is destroyed. The lemmas below are about the single operations, so that each
of the moves may be interrupted.
-/

namespace SimpleZfsCsi.Library

structure Post (D N : Type) where
  seat : D
  tag : Option N
  /-- where the snapshot of the tag is taken -/
  home : D → Prop
  /-- it is being given up -/
  ending : Prop
  /-- it does not go away by itself -/
  held : Prop
  /-- the seat has been there -/
  done : Prop

/-- The holding of a post with the tag `n`. -/
def Post.holding {D N : Type} (P : Post D N) (n : N) : Holding D N := ⟨P.seat, n, P.home, P.ending⟩

namespace CloneGraph

variable {D N K : Type} {G : CloneGraph D N} {In : D → Prop} {ok : N → Prop}
  {posts posts' : K → Option (Post D N)} {taken : N → Option Nat} {k : K} {P P' : Post D N}
  {d e p c : D} {x y o : Nat} {n : N}

/-- The invariant of a registry. -/
structure Keeps (G : CloneGraph D N) (In : D → Prop) (ok : N → Prop) (posts : K → Option (Post D N))
    (taken : N → Option Nat) : Prop where
  seat_in : ∀ {k P}, posts k = some P → In P.seat
  seat_inj : ∀ {k k' P P'}, posts k = some P → posts k' = some P' → P.seat = P'.seat → k = k'
  tag_inj : ∀ {k k' P P' n}, posts k = some P → posts k' = some P' → P.tag = some n →
    P'.tag = some n → k = k'
  tag_ok : ∀ {k P n}, posts k = some P → P.tag = some n → ok n
  closed : G.Closed In
  owned : ∀ {d}, G.alive d → In d → ∃ k P, posts k = some P ∧ P.seat = d ∧ P.held
  named : ∀ {x d}, G.owner x = some d → In d → ok (G.name x)
  taken : ∀ {x d}, G.owner x = some d → In d → taken (G.name x) = some x
  answered : ∀ {x d}, G.owner x = some d → In d → ¬ G.marked x →
    ∃ k P, posts k = some P ∧ P.tag = some (G.name x) ∧ P.held
  kept : ∀ {k P n}, posts k = some P → P.tag = some n → G.Held In (P.holding n)
  settled : ∀ {k P}, posts k = some P → P.done →
    G.alive P.seat ∨ (P.ending ∧ ∀ n, P.tag = some n → G.Released In n)

/-- The post is being given up, and its tag has been released. -/
def Dying (G : CloneGraph D N) (In : D → Prop) (P : Post D N) : Prop :=
  P.ending ∧ ∀ n, P.tag = some n → G.Released In n

namespace Keeps

/-- A name is that of one snapshot. -/
theorem name_unique (h : G.Keeps In ok posts taken) (hx : G.owner x = some d) (hd : In d)
    (hy : G.owner y = some e) (he : In e) (hname : G.name x = G.name y) : x = y := by
  have hxt := h.taken hx hd
  rw [hname, h.taken hy he] at hxt
  exact (Option.some_inj.mp hxt).symm

/-- Only its own post is in charge of a dataset. -/
theorem dying_of_seat (h : G.Keeps In ok posts taken) (hk : posts k = some P)
    (hdying : G.Dying In P)
    {k' : K} (hk' : posts k' = some P') (hseat : P'.seat = P.seat) : G.Dying In P' := by
  obtain rfl := h.seat_inj hk' hk hseat
  rw [hk] at hk'
  exact Option.some_inj.mp hk' ▸ hdying

/-! ## Creating -/

/-- The seat of a post without a tag is created. -/
theorem create (h : G.Keeps In ok posts taken) (hk : posts k = some P) (htag : P.tag = none)
    (hheld : P.held) : (G.create P.seat).Keeps In ok posts taken where
  __ := h
  closed := h.closed
  owned {e} he hin := by
    rcases he with rfl | he
    · exact ⟨k, P, hk, rfl, hheld⟩
    · exact h.owned he hin
  kept {k' P' n} hk' hn := by
    refine (h.kept hk' hn).create fun hseat => ?_
    obtain rfl := h.seat_inj hk' hk hseat
    rw [hk] at hk'
    rw [← Option.some_inj.mp hk', htag] at hn
    cases hn
  settled hk' hdone := (h.settled hk' hdone).imp .inr id

section Take

variable {hd : G.alive d} {hn : ∀ x, G.owner x = some d → G.name x ≠ n}

theorem closed_take (h : G.Closed In) : (G.take d n hd hn).Closed In := by
  intro e x q he hx
  obtain ⟨rfl, _⟩ | ⟨_, hx⟩ := owner_of_take hx
  · exact absurd rfl (owned_ne_last (G.origin_owned he))
  · exact h e x q he hx

theorem released_take {t : N} (hne : t ≠ n) (h : G.Released In t) :
    (G.take d n hd hn).Released In t := by
  intro x e hx he hname
  obtain ⟨rfl, _⟩ | ⟨hxl, hx⟩ := owner_of_take hx
  · simp only [CloneGraph.take, if_true] at hname
    exact absurd hname.symm hne
  · simp only [CloneGraph.take, if_neg hxl] at hname
    exact ⟨hxl, h x e hx he hname⟩

/-- The snapshot of a post is taken. -/
theorem take [DecidableEq N] (h : G.Keeps In ok posts taken) (hk : posts k = some P)
    (htag : P.tag = some n) (hheld : P.held) (hhome : P.home d) (hseat : ¬ G.alive P.seat)
    (hending : ¬ P.ending) (hunused : G.Unused In n) :
    (G.take d n hd hn).Keeps In ok posts (Function.update taken n (some (G.last + 1))) where
  __ := h
  closed := closed_take h.closed
  owned := h.owned
  named {x e} hx he := by
    obtain ⟨rfl, _⟩ | ⟨hxl, hx⟩ := owner_of_take hx
    · simp only [CloneGraph.take, if_true]
      exact h.tag_ok hk htag
    · simp only [CloneGraph.take, if_neg hxl]
      exact h.named hx he
  taken {x e} hx he := by
    obtain ⟨rfl, _⟩ | ⟨hxl, hx⟩ := owner_of_take hx
    · simp only [CloneGraph.take, if_true, Function.update_self]
    · simp only [CloneGraph.take, if_neg hxl]
      rw [Function.update_of_ne (hunused x e hx he)]
      exact h.taken hx he
  answered {x e} hx he hm := by
    obtain ⟨rfl, _⟩ | ⟨hxl, hx⟩ := owner_of_take hx
    · exact ⟨k, P, hk, by simp only [CloneGraph.take, if_true, htag], hheld⟩
    · simp only [CloneGraph.take, if_neg hxl]
      exact h.answered hx he fun hm' => hm ⟨hxl, hm'⟩
  kept {k' P' n'} hk' hn' := by
    by_cases hne : n = n'
    · subst hne
      obtain rfl := h.tag_inj hk' hk hn' htag
      rw [hk] at hk'
      obtain rfl := Option.some_inj.mp hk'
      exact Held.take_tag hunused hhome hseat
    · exact (h.kept hk' hn').take hne
  settled {k' P'} hk' hdone := by
    refine (h.settled hk' hdone).imp id fun hdying => ⟨hdying.1, fun n' hn' => ?_⟩
    refine released_take ?_ (hdying.2 n' hn')
    rintro rfl
    obtain rfl := h.tag_inj hk' hk hn' htag
    rw [hk] at hk'
    obtain rfl := Option.some_inj.mp hk'
    exact hending hdying.1

end Take

section Clone

variable {hy : ∃ p, G.owner y = some p} {he : ¬ G.alive e}

theorem closed_clone (h : G.Closed In) (hyin : ∀ q, G.owner y = some q → In q) (hein : In e) :
    (G.clone y e hy he).Closed In := by
  intro f x q hf hx
  simp only [CloneGraph.clone] at hf
  split_ifs at hf with hfe
  · subst hfe
    rw [← Option.some_inj.mp hf] at hx
    exact iff_of_true hein (hyin q hx)
  · exact h f x q hf hx

/-- The seat of a post is cloned from a snapshot: from that of its own tag if it has one, and
never from one whose own post still waits for its seat. -/
theorem clone (h : G.Keeps In ok posts taken) (hk : posts k = some P) (hseat : P.seat = e)
    (hheld : P.held) (hyin : ∀ q, G.owner y = some q → In q)
    (htag : ∀ n, P.tag = some n → G.name y = n)
    (hother : ∀ {k' P'}, posts k' = some P' → k' ≠ k → P'.tag = some (G.name y) → G.alive P'.seat) :
    (G.clone y e hy he).Keeps In ok posts taken where
  __ := h
  closed := closed_clone h.closed hyin (hseat ▸ h.seat_in hk)
  owned {f} hf hin := by
    rcases hf with rfl | hf
    · exact ⟨k, P, hk, hseat, hheld⟩
    · exact h.owned hf hin
  kept {k' P' n} hk' hn := by
    by_cases heq : k' = k
    · subst heq
      rw [hk] at hk'
      obtain rfl := Option.some_inj.mp hk'
      obtain ⟨q, hq⟩ := id hy
      refine (h.kept hk hn).clone_holder (htag n hn) (fun x d hx hd hname => ?_) hseat
      exact h.name_unique hx hd hq (hyin q hq) (hname.trans (htag n hn).symm)
    · refine (h.kept hk' hn).clone ?_ fun hname =>
        hother hk' heq (hn.trans (congrArg some hname.symm))
      intro hseat'
      exact heq (h.seat_inj hk' hk (hseat'.trans hseat.symm))
  settled hk' hdone := (h.settled hk' hdone).imp .inr id

end Clone

/-! ## Vacating a post -/

section Promote

variable {hc : G.Promotable c p o}

theorem inside_of_promote (h : G.Closed In)
    (hx : (G.promote c p o hc).owner x = some d) (hd : In d) :
    ∃ q, G.owner x = some q ∧ In q := by
  obtain ⟨rfl, hx, _⟩ | hx := owner_of_promote hx
  · exact ⟨p, hx, (h d o p hc.origin hc.owner).mp hd⟩
  · exact ⟨d, hx, hd⟩

theorem closed_promote (h : G.Closed In) : (G.promote c p o hc).Closed In := by
  have hin : In c ↔ In p := h c o p hc.origin hc.owner
  intro f x q hf hx
  have hq : ∀ q', G.owner x = some q' → (In q' ↔ In q) := by
    intro q' hq'
    obtain ⟨rfl, hxp, _⟩ | hxq := owner_of_promote hx
    · rw [hxp] at hq'
      rw [← Option.some_inj.mp hq', hin]
    · rw [hxq] at hq'
      rw [Option.some_inj.mp hq']
  simp only [CloneGraph.promote] at hf
  split_ifs at hf with hfc hfp
  · subst hfc
    obtain ⟨q', hq'⟩ := G.origin_owned hf
    rw [hin, h p x q' hf hq', hq q' hq']
  · subst hfp
    rw [← hq f (Option.some_inj.mp hf ▸ hc.owner)]
  · obtain ⟨q', hq'⟩ := G.origin_owned hf
    rw [h f x q' hf hq', hq q' hq']

theorem released_promote (h : G.Closed In) (hn : G.Released In n) :
    (G.promote c p o hc).Released In n := by
  intro x d hx hd hname
  obtain ⟨q, hq, hqin⟩ := inside_of_promote h hx hd
  exact hn x q hq hqin hname

/-- Something is promoted away from the seat of a dying post that has only cloned snapshots. -/
theorem promote (h : G.Keeps In ok posts taken) (hk : posts k = some P) (hseat : P.seat = p)
    (hdying : G.Dying In P) (hall : ∀ y, G.owner y = some p → G.Cloned y) :
    (G.promote c p o hc).Keeps In ok posts taken where
  __ := h
  closed := closed_promote h.closed
  owned := h.owned
  named {x d} hx hd := by
    obtain ⟨q, hq, hqin⟩ := inside_of_promote h.closed hx hd
    exact h.named hq hqin
  taken {x d} hx hd := by
    obtain ⟨q, hq, hqin⟩ := inside_of_promote h.closed hx hd
    exact h.taken hq hqin
  answered {x d} hx hd hm := by
    obtain ⟨q, hq, hqin⟩ := inside_of_promote h.closed hx hd
    exact h.answered hq hqin hm
  kept {k' P' n} hk' hn := by
    refine (h.kept hk' hn).promote h.closed (fun hholder => ?_) hall
    have hdying' := h.dying_of_seat hk hdying hk' (hholder.trans hseat.symm)
    exact ⟨hdying'.1, hdying'.2 n hn⟩
  settled hk' hdone := (h.settled hk' hdone).imp id fun hdying' =>
    ⟨hdying'.1, fun n hn => released_promote h.closed (hdying'.2 n hn)⟩

/-- No promote inside the region meets a name twice. -/
theorem promotable (h : G.Keeps In ok posts taken) (hc : G.origin c = some o)
    (ho : G.owner o = some p)
    (hp : In p) : G.Promotable c p o where
  origin := hc
  owner := ho
  names x y hx _ hy hname := by
    obtain rfl := h.name_unique hx hp hy ((h.closed c o p hc ho).mpr hp) hname
    rw [hx] at hy
    exact origin_ne hc ho (Option.some_inj.mp hy)

end Promote

section Destroy

variable {hd : ∀ x, G.owner x ≠ some d}

theorem closed_destroy (h : G.Closed In) : (G.destroy d hd).Closed In := by
  intro f x q hf hx
  simp only [CloneGraph.destroy] at hf
  split_ifs at hf
  exact h f x q hf (owner_of_destroy hx)

theorem released_destroy (h : G.Released In n) : (G.destroy d hd).Released In n :=
  fun x e hx he hname => h x e (owner_of_destroy hx) he hname

/-- The seat of a dying post is destroyed. -/
theorem destroy (h : G.Keeps In ok posts taken) (hk : posts k = some P) (hseat : P.seat = d)
    (hdying : G.Dying In P) : (G.destroy d hd).Keeps In ok posts taken where
  __ := h
  closed := closed_destroy h.closed
  owned he hin := h.owned he.2 hin
  named hx he := h.named (owner_of_destroy hx) he
  taken hx he := h.taken (owner_of_destroy hx) he
  answered hx he hm := h.answered (owner_of_destroy hx) he hm
  kept {k' P' n} hk' hn := by
    refine (h.kept hk' hn).destroy h.closed (h.seat_in hk') fun hholder => ?_
    have hdying' := h.dying_of_seat hk hdying hk' (hholder.trans hseat.symm)
    exact ⟨hdying'.1, hdying'.2 n hn⟩
  settled {k' P'} hk' hdone := by
    by_cases hholder : P'.seat = d
    · have hdying' := h.dying_of_seat hk hdying hk' (hholder.trans hseat.symm)
      exact .inr ⟨hdying'.1, fun n hn => released_destroy (hdying'.2 n hn)⟩
    · exact (h.settled hk' hdone).imp (fun halive => ⟨hholder, halive⟩) fun hdying' =>
        ⟨hdying'.1, fun n hn => released_destroy (hdying'.2 n hn)⟩

end Destroy

section Discard

variable {hy : ¬ G.Cloned y}

theorem released_discard (h : G.Released In n) : (G.discard y hy).Released In n :=
  fun x e hx he hname => h x e (owner_of_discard hx).2 he hname

/-- A snapshot that nothing clones is destroyed: one on the seat of a post that is given up, or
the one that such a post answers for. -/
theorem discard (h : G.Keeps In ok posts taken) (hk : posts k = some P) (hending : P.ending)
    (hwhich : G.owner y = some P.seat ∨ P.tag = some (G.name y)) :
    (G.discard y hy).Keeps In ok posts taken where
  __ := h
  closed := fun f x q hf hx => h.closed f x q hf (owner_of_discard hx).2
  owned := h.owned
  named hx he := h.named (owner_of_discard hx).2 he
  taken hx he := h.taken (owner_of_discard hx).2 he
  answered hx he hm := h.answered (owner_of_discard hx).2 he hm
  kept {k' P' n} hk' hn := by
    refine (h.kept hk' hn).discard fun hnot hlinked hname => ?_
    have heq : k' = k := by
      rcases hwhich with howner | htag
      · rcases hlinked with horigin | howner'
        · exact absurd ⟨_, horigin⟩ hy
        · exact h.seat_inj hk' hk (Option.some_inj.mp (howner'.symm.trans howner))
      · exact h.tag_inj hk' hk hn (htag.trans (congrArg some hname))
    subst heq
    rw [hk] at hk'
    exact hnot (Option.some_inj.mp hk' ▸ hending)
  settled hk' hdone := (h.settled hk' hdone).imp id fun hdying =>
    ⟨hdying.1, fun n hn => released_discard (hdying.2 n hn)⟩

end Discard

section Mark

variable {hy : G.Cloned y}

/-- The snapshot that a post answers for is marked. -/
theorem mark (h : G.Keeps In ok posts taken) (hk : posts k = some P) (hending : P.ending)
    (htag : P.tag = some (G.name y)) : (G.mark y hy).Keeps In ok posts taken where
  __ := h
  closed := h.closed
  owned := h.owned
  named := h.named
  taken := h.taken
  answered hx he hm := h.answered hx he fun hm' => hm (.inr hm')
  kept {k' P' n} hk' hn := by
    refine (h.kept hk' hn).mark fun hname => ?_
    obtain rfl := h.tag_inj hk' hk hn (htag.trans (congrArg some hname))
    rw [hk] at hk'
    exact Option.some_inj.mp hk' ▸ hending
  settled hk' hdone := (h.settled hk' hdone).imp id fun hdying =>
    ⟨hdying.1, fun n hn x e hx he hname => .inr (hdying.2 n hn x e hx he hname)⟩

end Mark

/-! ## Posts that come, change and go -/

/-- What may become of a post while the graph stays as it is. -/
structure Follows (G : CloneGraph D N) (P P' : Post D N) : Prop where
  seat : P'.seat = P.seat
  tag : P'.tag = P.tag
  home : ∀ d, G.alive d → P.home d → P'.home d
  ending : P.ending → P'.ending
  held : P.held → P'.held
  done : P'.done → P.done ∨ G.alive P.seat

theorem Follows.refl (G : CloneGraph D N) (P : Post D N) : Follows G P P :=
  ⟨rfl, rfl, fun _ _ => id, id, id, .inl⟩

/-- Every post goes on, and no new one comes. -/
theorem follow (h : G.Keeps In ok posts taken)
    (hpost : ∀ {k P}, posts k = some P → ∃ P', posts' k = some P')
    (hfollows : ∀ {k P'}, posts' k = some P' → ∃ P, posts k = some P ∧ Follows G P P') :
    G.Keeps In ok posts' taken where
  seat_in hk := by
    obtain ⟨P, hP, hf⟩ := hfollows hk
    exact hf.seat ▸ h.seat_in hP
  seat_inj hk hk' hseat := by
    obtain ⟨P, hP, hf⟩ := hfollows hk
    obtain ⟨P', hP', hf'⟩ := hfollows hk'
    exact h.seat_inj hP hP' (hf.seat.symm.trans (hseat.trans hf'.seat))
  tag_inj hk hk' hn hn' := by
    obtain ⟨P, hP, hf⟩ := hfollows hk
    obtain ⟨P', hP', hf'⟩ := hfollows hk'
    exact h.tag_inj hP hP' (hf.tag ▸ hn) (hf'.tag ▸ hn')
  tag_ok hk hn := by
    obtain ⟨P, hP, hf⟩ := hfollows hk
    exact h.tag_ok hP (hf.tag ▸ hn)
  closed := h.closed
  owned hd hin := by
    obtain ⟨k, P, hk, hseat, hheld⟩ := h.owned hd hin
    obtain ⟨P', hk'⟩ := hpost hk
    obtain ⟨P₁, hP₁, hf⟩ := hfollows hk'
    rw [hk] at hP₁
    obtain rfl := Option.some_inj.mp hP₁
    exact ⟨k, P', hk', hf.seat.trans hseat, hf.held hheld⟩
  named := h.named
  taken := h.taken
  answered hx hd hm := by
    obtain ⟨k, P, hk, htag, hheld⟩ := h.answered hx hd hm
    obtain ⟨P', hk'⟩ := hpost hk
    obtain ⟨P₁, hP₁, hf⟩ := hfollows hk'
    rw [hk] at hP₁
    obtain rfl := Option.some_inj.mp hP₁
    exact ⟨k, P', hk', hf.tag.trans htag, hf.held hheld⟩
  kept hk hn := by
    obtain ⟨P, hP, hf⟩ := hfollows hk
    exact (h.kept hP (hf.tag ▸ hn)).mono hf.seat rfl hf.home hf.ending
  settled hk hdone := by
    obtain ⟨P, hP, hf⟩ := hfollows hk
    rw [hf.seat, hf.tag]
    rcases hf.done hdone with hdone | halive
    · exact (h.settled hP hdone).imp id fun hdying => ⟨hf.ending hdying.1, hdying.2⟩
    · exact .inl halive

variable [DecidableEq K]

/-- A new post, with a seat and a tag that nothing uses. -/
theorem add (h : G.Keeps In ok posts taken) (hk : posts k = none) (hin : In P.seat)
    (hseat : ∀ {k' P'}, posts k' = some P' → P'.seat ≠ P.seat)
    (htag : ∀ {k' P' n}, posts k' = some P' → P.tag = some n → P'.tag ≠ some n)
    (hok : ∀ n, P.tag = some n → ok n) (hunused : ∀ n, P.tag = some n → G.Unused In n)
    (halive : ¬ G.alive P.seat) (hdone : ¬ P.done) :
    G.Keeps In ok (Function.update posts k (some P)) taken := by
  have hcases : ∀ {k' P'}, Function.update posts k (some P) k' = some P' →
      (k' = k ∧ P' = P) ∨ posts k' = some P' := by
    intro k' P' hk'
    by_cases heq : k' = k
    · subst heq
      rw [Function.update_self] at hk'
      exact .inl ⟨rfl, (Option.some_inj.mp hk').symm⟩
    · rw [Function.update_of_ne heq] at hk'
      exact .inr hk'
  have hold : ∀ {k' P'}, posts k' = some P' → Function.update posts k (some P) k' = some P' := by
    intro k' P' hk'
    rw [Function.update_of_ne]
    · exact hk'
    · rintro rfl
      rw [hk] at hk'
      cases hk'
  refine {
    closed := h.closed, named := h.named, taken := h.taken
    seat_in := fun hk' => ?_, seat_inj := fun hk₁ hk₂ heq => ?_
    tag_inj := fun hk₁ hk₂ hn₁ hn₂ => ?_, tag_ok := fun hk' hn => ?_
    owned := fun hd hin => ?_, answered := fun hx hd hm => ?_
    kept := fun hk' hn => ?_, settled := fun hk' hd => ?_ }
  · obtain ⟨rfl, rfl⟩ | hk' := hcases hk'
    · exact hin
    · exact h.seat_in hk'
  · obtain ⟨rfl, rfl⟩ | hold₁ := hcases hk₁ <;> obtain ⟨rfl, rfl⟩ | hold₂ := hcases hk₂
    · rfl
    · exact absurd heq.symm (hseat hold₂)
    · exact absurd heq (hseat hold₁)
    · exact h.seat_inj hold₁ hold₂ heq
  · obtain ⟨rfl, rfl⟩ | hold₁ := hcases hk₁ <;> obtain ⟨rfl, rfl⟩ | hold₂ := hcases hk₂
    · rfl
    · exact absurd hn₂ (htag hold₂ hn₁)
    · exact absurd hn₁ (htag hold₁ hn₂)
    · exact h.tag_inj hold₁ hold₂ hn₁ hn₂
  · obtain ⟨rfl, rfl⟩ | hk' := hcases hk'
    · exact hok _ hn
    · exact h.tag_ok hk' hn
  · obtain ⟨k', P', hk', hrest⟩ := h.owned hd hin
    exact ⟨k', P', hold hk', hrest⟩
  · obtain ⟨k', P', hk', hrest⟩ := h.answered hx hd hm
    exact ⟨k', P', hold hk', hrest⟩
  · obtain ⟨rfl, rfl⟩ | hk' := hcases hk'
    · have hnone := hunused _ hn
      exact ⟨fun x d hx hd hname => absurd hname (hnone x d hx hd),
        fun x d hx hd hname => absurd hname (hnone x d hx hd),
        fun _ x d hx hd hname => absurd hname (hnone x d hx hd), fun _ ha => absurd ha halive⟩
    · exact h.kept hk' hn
  · obtain ⟨rfl, rfl⟩ | hk' := hcases hk'
    · exact absurd hd hdone
    · exact h.settled hk' hd

/-- A post goes away that has nothing to hold. -/
theorem drop (h : G.Keeps In ok posts taken) (hk : posts k = some P)
    (hseat : P.held → ¬ G.alive P.seat) (htag : P.held → ∀ n, P.tag = some n → G.Released In n) :
    G.Keeps In ok (Function.update posts k none) taken := by
  have hold : ∀ {k' P'}, Function.update posts k none k' = some P' → posts k' = some P' := by
    intro k' P' hk'
    by_cases heq : k' = k
    · subst heq
      rw [Function.update_self] at hk'
      cases hk'
    · rwa [Function.update_of_ne heq] at hk'
  refine {
    closed := h.closed, named := h.named, taken := h.taken
    seat_in := fun hk' => h.seat_in (hold hk')
    seat_inj := fun hk₁ hk₂ => h.seat_inj (hold hk₁) (hold hk₂)
    tag_inj := fun hk₁ hk₂ => h.tag_inj (hold hk₁) (hold hk₂)
    tag_ok := fun hk' => h.tag_ok (hold hk')
    owned := fun hd hin => ?_, answered := fun hx hd hm => ?_
    kept := fun hk' => h.kept (hold hk'), settled := fun hk' => h.settled (hold hk') }
  · obtain ⟨k', P', hk', hseat', hheld⟩ := h.owned hd hin
    refine ⟨k', P', ?_, hseat', hheld⟩
    rw [Function.update_of_ne]
    · exact hk'
    · rintro rfl
      rw [hk] at hk'
      obtain rfl := Option.some_inj.mp hk'
      exact hseat hheld (hseat' ▸ hd)
  · obtain ⟨k', P', hk', htag', hheld⟩ := h.answered hx hd hm
    refine ⟨k', P', ?_, htag', hheld⟩
    rw [Function.update_of_ne]
    · exact hk'
    · rintro rfl
      rw [hk] at hk'
      obtain rfl := Option.some_inj.mp hk'
      exact hm (htag hheld _ htag' _ _ hx hd rfl)

end Keeps

/-! ## Counting the snapshots of a seat -/

open Classical in
/-- The number of snapshots of a dataset. -/
noncomputable def count (G : CloneGraph D N) (d : D) : Nat :=
  ((Finset.range (G.last + 1)).filter fun x => G.owner x = some d).card

theorem mem_count : (x ∈ Finset.range (G.last + 1) ∧ G.owner x = some d) ↔ G.owner x = some d := by
  refine ⟨And.right, fun hx => ⟨?_, hx⟩⟩
  have := G.owner_le hx
  rw [Finset.mem_range]
  omega

theorem length_eq_count {l : List Nat} (hnodup : l.Nodup) (hl : ∀ x, x ∈ l ↔ G.owner x = some d) :
    l.length = G.count d := by
  classical
  rw [← List.toFinset_card_of_nodup hnodup, count]
  congr 1
  ext x
  rw [List.mem_toFinset, hl, Finset.mem_filter, mem_count]

theorem count_le {G' : CloneGraph D N} (h : ∀ x, G'.owner x = some d → G.owner x = some d) :
    G'.count d ≤ G.count d := by
  classical
  refine Finset.card_le_card fun x hx => ?_
  rw [Finset.mem_filter, mem_count] at hx ⊢
  exact h x hx

theorem count_lt {G' : CloneGraph D N} (h : ∀ y, G'.owner y = some d → G.owner y = some d)
    (hx : G.owner x = some d) (hgone : G'.owner x ≠ some d) : G'.count d < G.count d := by
  classical
  refine Finset.card_lt_card ⟨fun y hy => ?_, fun hsub => ?_⟩
  · rw [Finset.mem_filter, mem_count] at hy ⊢
    exact h y hy
  · have hmem := hsub (Finset.mem_filter.mpr (mem_count.mpr hx))
    rw [Finset.mem_filter, mem_count] at hmem
    exact hgone hmem

/-- A promote takes at least the origin away. -/
theorem count_promote_lt {hc : G.Promotable c p o} : (G.promote c p o hc).count p < G.count p := by
  have hne := origin_ne hc.origin hc.owner
  refine count_lt (fun y hy => ?_) hc.owner ?_
  · obtain ⟨hpc, _⟩ | hy := owner_of_promote hy
    · exact absurd hpc hne
    · exact hy
  · simp only [CloneGraph.promote, hc.owner, Nat.le_refl, and_self, if_true]
    exact fun heq => hne (Option.some_inj.mp heq).symm

/-- Only snapshots of `d` that nothing cloned are missing. -/
structure Pruned (d : D) (G G' : CloneGraph D N) : Prop where
  origin : G'.origin = G.origin
  name : G'.name = G.name
  marked : G'.marked = G.marked
  owner : ∀ x, G'.owner x = G.owner x ∨ (G'.owner x = none ∧ G.owner x = some d ∧ ¬ G.Cloned x)

theorem Pruned.refl (d : D) (G : CloneGraph D N) : Pruned d G G :=
  ⟨rfl, rfl, rfl, fun _ => .inl rfl⟩

theorem Pruned.cloned {G' : CloneGraph D N} (h : Pruned d G G') : G'.Cloned x ↔ G.Cloned x := by
  unfold Cloned
  rw [h.origin]

theorem Pruned.trans {G' G'' : CloneGraph D N} (h : Pruned d G G') (h' : Pruned d G' G'') :
    Pruned d G G'' where
  origin := h'.origin.trans h.origin
  name := h'.name.trans h.name
  marked := h'.marked.trans h.marked
  owner x := by
    rcases h'.owner x with heq' | ⟨hnone, howner, hcloned⟩
    · rw [heq']
      exact h.owner x
    · rcases h.owner x with heq | ⟨hnone', _⟩
      · exact .inr ⟨hnone, heq ▸ howner, fun hc => hcloned (h.cloned.mpr hc)⟩
      · rw [hnone'] at howner
        cases howner

theorem Pruned.discard (hx : G.owner x = some d) (hcloned : ¬ G.Cloned x) :
    Pruned d G (G.discard x hcloned) where
  origin := rfl
  name := rfl
  marked := rfl
  owner y := by
    by_cases hy : y = x
    · subst hy
      exact .inr ⟨by simp [CloneGraph.discard], hx, hcloned⟩
    · exact .inl (owner_discard hy)

theorem Pruned.owner_of {G' : CloneGraph D N} (h : Pruned d G G') (hx : G'.owner x = some e) :
    G.owner x = some e := by
  rcases h.owner x with heq | ⟨hnone, _⟩
  · rw [← heq, hx]
  · rw [hnone] at hx
    cases hx

theorem Pruned.owner_of_cloned {G' : CloneGraph D N} (h : Pruned d G G') (hcloned : G.Cloned x) :
    G'.owner x = G.owner x := (h.owner x).resolve_right fun hx => hx.2.2 hcloned

/-! ## Outside the region -/

/-- Outside the region, `G` is as `G₀` was. -/
structure Apart (In : D → Prop) (G₀ G : CloneGraph D N) : Prop where
  alive : ∀ {d}, ¬ In d → (G.alive d ↔ G₀.alive d)
  owner : ∀ {x d}, ¬ In d → (G.owner x = some d ↔ G₀.owner x = some d)
  name : ∀ {x d}, ¬ In d → G.owner x = some d → G.name x = G₀.name x

namespace Apart

variable {G₀ : CloneGraph D N}

theorem refl (In : D → Prop) (G : CloneGraph D N) : Apart In G G :=
  ⟨fun _ => Iff.rfl, fun _ => Iff.rfl, fun _ _ => rfl⟩

theorem create (h : Apart In G₀ G) (hd : In d) : Apart In G₀ (G.create d) where
  __ := h
  alive {e} he := by
    have hne : e ≠ d := fun heq => he (heq ▸ hd)
    rw [← h.alive he]
    simp [CloneGraph.create, hne]

theorem take (h : Apart In G₀ G) (hin : In d) {hd : G.alive d}
    {hn : ∀ x, G.owner x = some d → G.name x ≠ n} : Apart In G₀ (G.take d n hd hn) := by
  have hold : ∀ {x e}, ¬ In e → ((G.take d n hd hn).owner x = some e ↔ G.owner x = some e) := by
    intro x e he
    constructor
    · intro hx
      obtain ⟨_, rfl⟩ | ⟨_, hx⟩ := owner_of_take hx
      · exact absurd hin he
      · exact hx
    · intro hx
      simp only [CloneGraph.take, if_neg (owned_ne_last ⟨e, hx⟩), hx]
  refine ⟨h.alive, fun he => (hold he).trans (h.owner he), fun {x e} he hx => ?_⟩
  have hx := (hold he).mp hx
  simp only [CloneGraph.take, if_neg (owned_ne_last ⟨e, hx⟩)]
  exact h.name he hx

theorem clone (h : Apart In G₀ G) (hin : In e) {hy : ∃ p, G.owner y = some p} {he : ¬ G.alive e} :
    Apart In G₀ (G.clone y e hy he) where
  __ := h
  alive {f} hf := by
    have hne : f ≠ e := fun heq => hf (heq ▸ hin)
    rw [← h.alive hf]
    simp [CloneGraph.clone, hne]

theorem promote (h : Apart In G₀ G) (hclosed : G.Closed In) (hp : In p) {hc : G.Promotable c p o} :
    Apart In G₀ (G.promote c p o hc) := by
  have hcin : In c := (hclosed c o p hc.origin hc.owner).mpr hp
  have hold : ∀ {x d}, ¬ In d → ((G.promote c p o hc).owner x = some d ↔ G.owner x = some d) := by
    intro x d hd
    constructor
    · intro hx
      obtain ⟨rfl, _⟩ | hx := owner_of_promote hx
      · exact absurd hcin hd
      · exact hx
    · intro hx
      have hne : ¬ (G.owner x = some p ∧ x ≤ o) := by
        rintro ⟨hxp, _⟩
        rw [hx] at hxp
        exact hd (Option.some_inj.mp hxp ▸ hp)
      simp only [CloneGraph.promote, if_neg hne, hx]
  exact ⟨h.alive, fun hd => (hold hd).trans (h.owner hd), fun hd hx => h.name hd ((hold hd).mp hx)⟩

theorem destroy (h : Apart In G₀ G) (hclosed : G.Closed In) (hin : In d)
    {hd : ∀ x, G.owner x ≠ some d} : Apart In G₀ (G.destroy d hd) := by
  have hold : ∀ {x e}, ¬ In e → ((G.destroy d hd).owner x = some e ↔ G.owner x = some e) := by
    intro x e he
    refine ⟨owner_of_destroy, fun hx => ?_⟩
    rw [owner_destroy]
    · exact hx
    · intro hm
      obtain ⟨f, hf⟩ := G.marked_cloned hm hx
      refine ⟨f, ?_, hf⟩
      rintro rfl
      exact he ((hclosed f x e hf hx).mp hin)
  refine ⟨fun {e} he => ?_, fun he => (hold he).trans (h.owner he),
    fun he hx => h.name he ((hold he).mp hx)⟩
  have hne : e ≠ d := fun heq => he (heq ▸ hin)
  rw [← h.alive he]
  simp [CloneGraph.destroy, hne]

theorem discard (h : Apart In G₀ G) (hin : ∀ q, G.owner y = some q → In q) {hy : ¬ G.Cloned y} :
    Apart In G₀ (G.discard y hy) := by
  have hold : ∀ {x e}, ¬ In e → ((G.discard y hy).owner x = some e ↔ G.owner x = some e) := by
    intro x e he
    refine ⟨fun hx => (owner_of_discard hx).2, fun hx => ?_⟩
    rw [owner_discard]
    · exact hx
    · rintro rfl
      exact he (hin e hx)
  exact ⟨h.alive, fun he => (hold he).trans (h.owner he), fun he hx => h.name he ((hold he).mp hx)⟩

theorem mark (h : Apart In G₀ G) {hy : G.Cloned y} : Apart In G₀ (G.mark y hy) :=
  ⟨h.alive, h.owner, h.name⟩

end Apart

end CloneGraph

end SimpleZfsCsi.Library
