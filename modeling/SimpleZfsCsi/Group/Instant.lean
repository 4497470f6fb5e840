import SimpleZfsCsi.Agent.Locate
import SimpleZfsCsi.Group.Frozen
import SimpleZfsCsi.Group.Passes

/-!
# One instant

The snapshots of a group are of one transaction group, in every configuration that is reached,
whatever has become of the sources meanwhile. A pass takes them in one call, but it looks for
earlier ones before that, member by member, and others may act in between. What makes the looks
count is that a snapshot of a member never comes back to its source: it leaves the source only
when the source is being deleted, and a source that is being deleted blocks the group.
-/

namespace SimpleZfsCsi.Group

open Library Api Agent Memzfs Program Concurrent

/-! ## The system -/

namespace Plan

variable (P : Plan)

/-- The snapshots of the members are of one transaction group, and on their sources unless these
are being deleted. -/
def Instant (s : GroupWorld) : Prop :=
  ∃ txg, ∀ m ∈ P.members, ∀ d σ, s.mem.lookupSnap d m.snapshotName = some σ →
    σ.txg = txg ∧ (d = P.source m ∨ P.Leaving m s)

/-- There is no snapshot of a member. -/
def Blank (m : ZfsGroupSnapshotMember) (s : GroupWorld) : Prop :=
  ∀ d, s.mem.lookupSnap d m.snapshotName = none

variable {P} {s t : GroupWorld} {m : ZfsGroupSnapshotMember}

theorem Fair.instant (h : P.Fair s t) (hs : P.Instant s) : P.Instant t := by
  obtain ⟨txg, hs⟩ := hs
  refine ⟨txg, fun m hm d' τ hτ => ?_⟩
  obtain ⟨d, σ, hσ, htxg, hmoved⟩ := h.snaps m hm d' τ hτ
  obtain ⟨hσtxg, hplace⟩ := hs m hm d σ hσ
  refine ⟨htxg ▸ hσtxg, ?_⟩
  rcases hplace with hd | hleaving
  · rcases hmoved with rfl | hne | hleaving
    · exact .inl hd
    · exact absurd hd hne
    · exact .inr hleaving
  · exact .inr (h.leaving m hm hleaving)

theorem Fair.blank (h : P.Fair s t) (hm : m ∈ P.members) (hs : Blank m s) : Blank m t := by
  intro d
  cases hτ : t.mem.lookupSnap d m.snapshotName with
  | none => rfl
  | some τ =>
    obtain ⟨d', σ, hσ, _⟩ := h.snaps m hm d τ hτ
    rw [hs d'] at hσ
    cases hσ

/-- A member without a snapshot on its source has none, or its source is being deleted. -/
theorem Instant.clean (h : P.Instant s) (hm : m ∈ P.members)
    (hnone : s.mem.lookupSnap (P.source m) m.snapshotName = none) : Blank m s ∨ P.Leaving m s := by
  obtain ⟨txg, h⟩ := h
  by_cases hblank : Blank m s
  · exact .inl hblank
  · obtain ⟨d, hd⟩ := not_forall.mp hblank
    obtain ⟨σ, hσ⟩ := Option.ne_none_iff_exists'.mp hd
    obtain ⟨-, rfl | hleaving⟩ := h m hm d σ hσ
    · exact absurd hnone hd
    · exact .inr hleaving

end Plan

/-! ## What the pass of a group relies on and guarantees -/

/-- What the pass of a group relies on. -/
structure GroupRely (P : Plan) (name : String) (s t : GroupWorld) : Prop where
  base : P.Base s → P.Base t
  fair : name = P.group → P.Fair s t

/-- What each call of it guarantees. -/
structure GroupGuar (P : Plan) (name : String) (s t : GroupWorld) : Prop where
  base : P.Base s → P.Base t
  instant : P.Instant s → P.Instant t
  aside : Aside s t
  fair : name ≠ P.group → P.Fair s t

/-- What a pass knows at all times. -/
structure Known (P : Plan) (name : String) (s : GroupWorld) : Prop where
  base : P.Base s
  instant : name = P.group → P.Instant s

section Known

variable {P : Plan} {name : String} {s t : GroupWorld} {α β : Type}

theorem GroupGuar.of_fair (h : P.Fair s t) (haside : Aside s t) : GroupGuar P name s t :=
  ⟨h.base, h.instant, haside, fun _ => h⟩

theorem GroupGuar.refl (s : GroupWorld) : GroupGuar P name s s := .of_fair (.refl P s) (.refl s)

theorem Known.rely (h : Known P name s) (ht : GroupRely P name s t) : Known P name t :=
  ⟨ht.base h.base, fun hname => (ht.fair hname).instant (h.instant hname)⟩

theorem Known.guar (h : Known P name s) (ht : GroupGuar P name s t) : Known P name t :=
  ⟨ht.base h.base, fun hname => ht.instant (h.instant hname)⟩

/-- The calls of a pass that take no snapshot. -/
def Mild (P : Plan) : GroupCall → Prop
  | .agent e => e.Reads ∨ ∃ name, e = .destroy name false ∧ (Memzfs.split name).2.2 = true
  | .createSnapshot _ spec => P.Shot spec
  | .updateGroup o => P.Batch o.name o.spec
  | _ => True

/-- Destroying a snapshot leaves the origins alone. -/
theorem origin_destroy_snap {mem : Mem} {name : String} (hsnap : (Memzfs.split name).2.2 = true)
    (recursive : Bool) (n : String) :
    ((mem.destroy name recursive).2.ds.lookup n).map (·.origin) =
      (mem.ds.lookup n).map (·.origin) := by
  unfold Mem.destroy
  simp only [hsnap, if_true]
  split
  · rfl
  · split_ifs
    · rfl
    · simp only [FinMap.lookup_modify, Option.map_map]
      congr 1
      funext D
      simp only [Function.comp]
      split_ifs <;> rfl

theorem seat_empty (s : GroupWorld) : Seat P "" s :=
  ⟨by simp [Plain], fun m _ hsource => absurd hsource (source_ne_empty m)⟩

theorem Mild.guar {e : GroupCall} (he : Mild P e) (s : GroupWorld) :
    GroupGuar P name s (GroupWorld.handle e s).2 := by
  cases e with
  | agent e =>
    rcases he with he | ⟨raw, rfl, hsnap⟩
    · have hsame : (GroupWorld.handle (.agent e) s).2 = s := answer_reads he s
      rw [hsame]
      exact .refl s
    · have htame : Tame P "" (.destroy raw false) := trivial
      exact .of_fair (htame.fair (seat_empty s)) (.of_eq (origin_destroy_snap hsnap false) rfl)
  | createSnapshot n spec =>
    exact .of_fair
      (.of_mem rfl (fun h => { h with snapshots := h.snapshots.create he }) fun _ _ => .of_eq rfl)
      (.of_eq (fun _ => rfl) rfl)
  | deleteSnapshot n =>
    exact .of_fair
      (.of_mem rfl (fun h => { h with snapshots := h.snapshots.delete }) fun _ _ => .of_eq rfl)
      (.of_eq (fun _ => rfl) rfl)
  | updateGroup o =>
    exact .of_fair
      (.of_mem rfl (fun h => { h with groups := h.groups.update he }) fun _ _ => .of_eq rfl)
      (.of_eq (fun _ => rfl) rfl)
  | patchGroupStatus n read patched =>
    have hgroups : (GroupWorld.handle (.patchGroupStatus n read patched) s).2.groups =
        (s.groups.patchStatus mergeStatus n read patched).2 :=
          patchGroup_store s.groups n read patched
    exact .of_fair (.of_mem rfl (fun h => { h with groups := hgroups ▸ h.groups.patchStatus }) fun _
      _ => .of_eq rfl)
      (.of_eq (fun _ => rfl) rfl)
  | _ => exact .refl s

end Known

/-! ## What follows once the snapshots are there -/

section Calls

open ZfsGroupSnapshotReconciler

variable {P : Plan} {α : Type}

end Calls

/-! ## The names of the members -/

section Members

open ZfsGroupSnapshotReconciler

variable {P : Plan} {name : String} {s t : GroupWorld} {I : GroupWorld → Prop}
  (hI : ∀ s t, I s → GroupRely P name s t → I t) (hbase : ∀ s, I s → P.Base s)

include hI hbase

end Members

/-! ## Looking for earlier snapshots -/

section Survey

open ZfsGroupSnapshotReconciler

variable {P : Plan} {s t : GroupWorld} {I : GroupWorld → Prop}

/-- The names of the raw snapshot of a member, and of its source. -/
def Plan.names (P : Plan) (m : ZfsGroupSnapshotMember) : String × String :=
  (P.source m ++ "@" ++ m.snapshotName, P.source m)

/-- A stable fact that holds throughout the pass of the group. -/
structure Lasting (P : Plan) (I : GroupWorld → Prop) : Prop where
  stable : ∀ s t, I s → GroupRely P P.group s t → I t
  base : ∀ s, I s → P.Base s
  instant : ∀ s, I s → P.Instant s

theorem Lasting.and {J : GroupWorld → Prop} (hI : Lasting P I)
    (hJ : ∀ s t, I s → J s → P.Fair s t → J t) : Lasting P fun s => I s ∧ J s where
  stable s t hs ht := ⟨hI.stable s t hs.1 ht, hJ s t hs.1 hs.2 (ht.fair rfl)⟩
  base _ hs := hI.base _ hs.1
  instant _ hs := hI.instant _ hs.1

end Survey

/-! ## Taking the snapshots -/

section Take

open ZfsGroupSnapshotReconciler

variable {P : Plan} {name : String} {s t : GroupWorld} {I : GroupWorld → Prop}

end Take

/-! ## Whole passes of groups -/

section Pass

open ZfsGroupSnapshotReconciler

variable {P : Plan} {name : String} {s : GroupWorld}

end Pass

/-! ## Every run -/

section Run

variable {P : Plan}

end Run

/-! ## A run -/

end SimpleZfsCsi.Group
