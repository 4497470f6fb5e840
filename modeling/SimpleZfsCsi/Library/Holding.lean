import SimpleZfsCsi.Library.CloneGraph

/-!
# Snapshots that someone answers for

A holding is a dataset that is to hold the snapshot of a given name: the snapshot is taken
first, on one of the datasets of `home`, and the holder is cloned from it. From then on the
two stay linked, whatever is promoted, and the snapshot is unmarked until the holding is given
up. `Keeping` says so of all holdings in a region of a clone graph that no origin leaves, in
which every name has been taken once.
-/

namespace SimpleZfsCsi.Library

variable {D N : Type}

/-- The dataset `holder` is to hold the snapshot named `tag`, which is taken on one of `home`. -/
structure Holding (D N : Type) where
  holder : D
  tag : N
  home : D → Prop
  /-- it is being given up -/
  ending : Prop

namespace CloneGraph

variable {G : CloneGraph D N} {In : D → Prop} {H : Holding D N} {d e p c : D} {x y o : Nat} {n : N}

/-- The snapshots of a name are all marked. -/
def Released (G : CloneGraph D N) (In : D → Prop) (n : N) : Prop :=
  ∀ x d, G.owner x = some d → In d → G.name x = n → G.marked x

/-- Nothing has a name. -/
def Unused (G : CloneGraph D N) (In : D → Prop) (n : N) : Prop :=
  ∀ x d, G.owner x = some d → In d → G.name x ≠ n

/-- No origin leads into the region or out of it. -/
def Closed (G : CloneGraph D N) (In : D → Prop) : Prop :=
  ∀ d x p, G.origin d = some x → G.owner x = some p → (In d ↔ In p)

/-- A holding is kept. -/
structure Held (G : CloneGraph D N) (In : D → Prop) (H : Holding D N) : Prop where
  linked : ∀ x d, G.owner x = some d → In d → G.name x = H.tag → ¬ G.marked x → G.alive H.holder →
    G.Linked H.holder x
  waiting : ∀ x d, G.owner x = some d → In d → G.name x = H.tag → ¬ G.marked x →
    ¬ G.alive H.holder →
    H.home d ∧ ¬ G.Cloned x
  unmarked : ¬ H.ending → ∀ x d, G.owner x = some d → In d → G.name x = H.tag → ¬ G.marked x
  backed : ¬ H.ending → G.alive H.holder → ∃ x, G.Linked H.holder x ∧ G.name x = H.tag

theorem Linked.inside (hl : G.Linked d x) (hclosed : G.Closed In) (hd : In d) :
    ∃ p, G.owner x = some p ∧ In p := by
  rcases hl with hx | hx
  · obtain ⟨p, hp⟩ := G.origin_owned hx
    exact ⟨p, hp, (hclosed d x p hx hp).mp hd⟩
  · exact ⟨d, hx, hd⟩

/-- A holding that is given up, or whose home is described in another way. -/
theorem Held.mono (h : G.Held In H) {H' : Holding D N} (hholder : H'.holder = H.holder)
    (htag : H'.tag = H.tag) (hhome : ∀ d, G.alive d → H.home d → H'.home d)
    (hending : H.ending → H'.ending) : G.Held In H' where
  linked := by
    rw [hholder, htag]
    exact h.linked
  waiting x d hx hd hn hm ha := by
    rw [hholder] at ha
    rw [htag] at hn
    obtain ⟨hhomed, hcloned⟩ := h.waiting x d hx hd hn hm ha
    exact ⟨hhome d (G.owner_alive hx) hhomed, hcloned⟩
  unmarked he := by
    rw [htag]
    exact h.unmarked fun he' => he (hending he')
  backed he := by
    rw [hholder, htag]
    exact h.backed fun he' => he (hending he')

/-! ## What the operations do to a holding -/

theorem Held.create (h : G.Held In H) (hne : H.holder ≠ d) : (G.create d).Held In H where
  linked x e hx he hn hm ha := h.linked x e hx he hn hm (ha.resolve_left hne)
  waiting x e hx he hn hm ha := h.waiting x e hx he hn hm fun h => ha (.inr h)
  unmarked := h.unmarked
  backed he ha := h.backed he (ha.resolve_left hne)

section Take

variable {hd : G.alive d} {hn : ∀ x, G.owner x = some d → G.name x ≠ n}

theorem owner_of_take (hx : (G.take d n hd hn).owner x = some e) :
    (x = G.last + 1 ∧ e = d) ∨ (x ≠ G.last + 1 ∧ G.owner x = some e) := by
  simp only [CloneGraph.take] at hx
  split_ifs at hx with h
  · exact .inl ⟨h, (Option.some_inj.mp hx).symm⟩
  · exact .inr ⟨h, hx⟩

/-- A snapshot with another name is taken. -/
theorem Held.take (h : G.Held In H) (hne : n ≠ H.tag) : (G.take d n hd hn).Held In H := by
  have hold : ∀ x e, (G.take d n hd hn).owner x = some e → (G.take d n hd hn).name x = H.tag →
      G.owner x = some e ∧ G.name x = H.tag ∧ x ≠ G.last + 1 := by
    intro x e hx hname
    obtain ⟨rfl, _⟩ | ⟨hxl, hx⟩ := owner_of_take hx
    · simp only [CloneGraph.take, if_true] at hname
      exact absurd hname hne
    · simp only [CloneGraph.take, if_neg hxl] at hname
      exact ⟨hx, hname, hxl⟩
  refine ⟨fun x e hx he hname hm ha => ?_, fun x e hx he hname hm ha => ?_,
    fun hend x e hx he hname hm => ?_, fun hend ha => ?_⟩
  · obtain ⟨hx, hname, hxl⟩ := hold x e hx hname
    exact (h.linked x e hx he hname (fun hm' => hm ⟨hxl, hm'⟩) ha).take
  · obtain ⟨hx, hname, hxl⟩ := hold x e hx hname
    exact h.waiting x e hx he hname (fun hm' => hm ⟨hxl, hm'⟩) ha
  · obtain ⟨hx, hname, hxl⟩ := hold x e hx hname
    exact h.unmarked hend x e hx he hname hm.2
  · obtain ⟨x, hl, hname⟩ := h.backed hend ha
    refine ⟨x, hl.take, ?_⟩
    simp only [CloneGraph.take, if_neg (owned_ne_last hl.owned), hname]

/-- The snapshot of the holding is taken. -/
theorem Held.take_tag (hunused : G.Unused In H.tag) (hhome : H.home d)
    (hholder : ¬ G.alive H.holder) : (G.take d n hd hn).Held In H := by
  have hnew : ∀ x e, (G.take d n hd hn).owner x = some e → In e →
      (G.take d n hd hn).name x = H.tag → x = G.last + 1 ∧ e = d := by
    intro x e hx he hname
    obtain hx | ⟨hxl, hx⟩ := owner_of_take hx
    · exact hx
    · simp only [CloneGraph.take, if_neg hxl] at hname
      exact absurd hname (hunused x e hx he)
  refine ⟨fun x e hx he hname hm ha => absurd ha hholder, fun x e hx he hname hm _ => ?_,
    fun hend x e hx he hname hm => ?_, fun hend ha => absurd ha hholder⟩
  · obtain ⟨rfl, rfl⟩ := hnew x e hx he hname
    refine ⟨hhome, ?_⟩
    rintro ⟨f, hf⟩
    exact owned_ne_last (G.origin_owned hf) rfl
  · obtain ⟨rfl, rfl⟩ := hnew x e hx he hname
    exact hm.1 rfl

end Take

section Clone

variable {hy : ∃ p, G.owner y = some p} {he : ¬ G.alive e}

/-- Something else is cloned, unless the holder is there. -/
theorem Held.clone (h : G.Held In H) (hne : H.holder ≠ e)
    (hname : G.name y = H.tag → G.alive H.holder) :
    (G.clone y e hy he).Held In H where
  linked x d hx hd hn hm ha := (h.linked x d hx hd hn hm (ha.resolve_left hne)).clone
  waiting x d hx hd hn hm ha := by
    have ha' : ¬ G.alive H.holder := fun h => ha (.inr h)
    obtain ⟨hhome, hcloned⟩ := h.waiting x d hx hd hn hm ha'
    refine ⟨hhome, ?_⟩
    rintro ⟨f, hf⟩
    simp only [CloneGraph.clone] at hf
    split_ifs at hf with hfe
    · rw [← Option.some_inj.mp hf] at hn
      exact ha' (hname hn)
    · exact hcloned ⟨f, hf⟩
  unmarked := h.unmarked
  backed hend ha := by
    obtain ⟨x, hl, hn⟩ := h.backed hend (ha.resolve_left hne)
    exact ⟨x, hl.clone, hn⟩

/-- The holder is cloned from the snapshot. -/
theorem Held.clone_holder (h : G.Held In H) (htag : G.name y = H.tag)
    (hunique : ∀ x d, G.owner x = some d → In d → G.name x = H.tag → x = y) (heq : H.holder = e) :
    (G.clone y e hy he).Held In H := by
  have horigin : (G.clone y e hy he).origin H.holder = some y := by
    simp only [CloneGraph.clone, if_pos heq]
  refine ⟨fun x d hx hd hn _ _ => ?_, fun x d hx hd hn hm ha => ?_, h.unmarked, fun _ _ => ?_⟩
  · exact .inl (by rw [horigin, hunique x d hx hd hn])
  · exact absurd (.inl heq) ha
  · exact ⟨y, .inl horigin, htag⟩

end Clone

section Promote

variable {hc : G.Promotable c p o}

/-- A promote trades the origins of two datasets. -/
theorem cloned_promote : (G.promote c p o hc).Cloned x ↔ G.Cloned x := by
  have hne := origin_ne hc.origin hc.owner
  simp only [Cloned, CloneGraph.promote]
  constructor
  · rintro ⟨f, hf⟩
    split_ifs at hf with h h'
    · exact ⟨p, hf⟩
    · exact ⟨c, by rw [← Option.some_inj.mp hf]; exact hc.origin⟩
    · exact ⟨f, hf⟩
  · rintro ⟨f, hf⟩
    by_cases h : f = c
    · refine ⟨p, ?_⟩
      rw [if_neg hne, if_pos rfl]
      exact hc.origin.symm.trans (h ▸ hf)
    by_cases h' : f = p
    · exact ⟨c, by rw [if_pos rfl]; exact h' ▸ hf⟩
    · exact ⟨f, by rw [if_neg h, if_neg h']; exact hf⟩

/-- Where a snapshot was before a promote. -/
theorem owner_of_promote (hx : (G.promote c p o hc).owner x = some d) :
    (d = c ∧ G.owner x = some p ∧ x ≤ o) ∨ G.owner x = some d := by
  simp only [CloneGraph.promote] at hx
  split_ifs at hx with h
  · exact .inl ⟨(Option.some_inj.mp hx).symm, h⟩
  · exact .inr hx

/-- A promote away from a dataset that is not the holder, or from one that has been released, and
that takes away nothing that is not cloned. -/
theorem Held.promote (h : G.Held In H) (hclosed : G.Closed In)
    (hp : H.holder = p → H.ending ∧ G.Released In H.tag)
    (hall : ∀ y, G.owner y = some p → G.Cloned y) : (G.promote c p o hc).Held In H := by
  have hin : In c ↔ In p := hclosed c o p hc.origin hc.owner
  have hbefore : ∀ x d, (G.promote c p o hc).owner x = some d → In d → ∃ q, G.owner x =
      some q ∧ In q := by
    intro x d hx hd
    obtain ⟨rfl, hx, _⟩ | hx := owner_of_promote hx
    · exact ⟨p, hx, hin.mp hd⟩
    · exact ⟨d, hx, hd⟩
  refine ⟨fun x d hx hd hn hm ha => ?_, fun x d hx hd hn hm ha => ?_,
    fun hend x d hx hd hn => ?_, fun hend ha => ?_⟩
  · obtain ⟨q, hq, hqin⟩ := hbefore x d hx hd
    refine (h.linked x q hq hqin hn hm ha).promote fun hholder => ?_
    exact hm ((hp hholder).2 x q hq hqin hn)
  · obtain ⟨q, hq, hqin⟩ := hbefore x d hx hd
    obtain ⟨hhome, hcloned⟩ := h.waiting x q hq hqin hn hm ha
    obtain ⟨_, hxp, _⟩ | hxd := owner_of_promote hx
    · exact absurd (hall x hxp) hcloned
    · rw [hq] at hxd
      obtain rfl := Option.some_inj.mp hxd
      exact ⟨hhome, fun h => hcloned (cloned_promote.mp h)⟩
  · obtain ⟨q, hq, hqin⟩ := hbefore x d hx hd
    exact h.unmarked hend x q hq hqin hn
  · obtain ⟨x, hl, hn⟩ := h.backed hend ha
    exact ⟨x, hl.promote fun hholder => hend (hp hholder).1, hn⟩

end Promote

section Destroy

variable {hd : ∀ x, G.owner x ≠ some d}

/-- A dataset that is not the holder is destroyed, or one that has been released. -/
theorem Held.destroy (h : G.Held In H) (hclosed : G.Closed In) (hin : In H.holder)
    (hholder : H.holder = d → H.ending ∧ G.Released In H.tag) : (G.destroy d hd).Held In H := by
  refine ⟨fun x e hx he hn hm ha => ?_, fun x e hx he hn hm ha => ?_,
    fun hend x e hx he hn => ?_, fun hend ha => ?_⟩
  · exact (h.linked x e (owner_of_destroy hx) he hn hm ha.2).destroy ha.1 hm
  · have hx := owner_of_destroy hx
    have ha' : ¬ G.alive H.holder := by
      intro halive
      refine ha ⟨fun heq => hm ((hholder heq).2 x e hx he hn), halive⟩
    obtain ⟨hhome, hcloned⟩ := h.waiting x e hx he hn hm ha'
    refine ⟨hhome, ?_⟩
    rintro ⟨f, hf⟩
    simp only [CloneGraph.destroy] at hf
    split_ifs at hf
    exact hcloned ⟨f, hf⟩
  · exact h.unmarked hend x e (owner_of_destroy hx) he hn
  · obtain ⟨x, hl, hn⟩ := h.backed hend ha.2
    obtain ⟨q, hq, hqin⟩ := hl.inside hclosed hin
    exact ⟨x, hl.destroy ha.1 (h.unmarked hend x q hq hqin hn), hn⟩

end Destroy

section Discard

variable {hy : ¬ G.Cloned y}

/-- A snapshot is destroyed that is not the one the holding is about, unless it is given up. -/
theorem Held.discard (h : G.Held In H)
    (hkeep : ¬ H.ending → G.Linked H.holder y → G.name y ≠ H.tag) :
    (G.discard y hy).Held In H where
  linked x e hx he hn hm ha := by
    obtain ⟨hne, hx⟩ := owner_of_discard hx
    exact (h.linked x e hx he hn hm ha).discard hne
  waiting x e hx he hn hm ha := h.waiting x e (owner_of_discard hx).2 he hn hm ha
  unmarked hend x e hx := h.unmarked hend x e (owner_of_discard hx).2
  backed hend ha := by
    obtain ⟨x, hl, hn⟩ := h.backed hend ha
    refine ⟨x, hl.discard fun hxy => ?_, hn⟩
    subst hxy
    exact hkeep hend hl hn

end Discard

/-- A snapshot is marked whose holding is given up, or another one. -/
theorem Held.mark {hy : G.Cloned y} (h : G.Held In H) (hend : G.name y = H.tag → H.ending) :
    (G.mark y hy).Held In H where
  linked x e hx he hn hm ha := h.linked x e hx he hn (fun hm' => hm (.inr hm')) ha
  waiting x e hx he hn hm ha := h.waiting x e hx he hn (fun hm' => hm (.inr hm')) ha
  unmarked hend' x e hx he hn hm := by
    rcases hm with rfl | hm
    · exact hend' (hend hn)
    · exact h.unmarked hend' x e hx he hn hm
  backed := h.backed

end CloneGraph

end SimpleZfsCsi.Library
