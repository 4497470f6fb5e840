import SimpleZfsCsi.Library.Registry
import SimpleZfsCsi.Memzfs.Refinement

/-!
# What is listed and read

The snapshots of a dataset are listed in the order they were taken, and the clones of a snapshot
by name. A property can be read of whatever exists.
-/

namespace SimpleZfsCsi.Memzfs

open Library

variable {m : Mem} {G : CloneGraph String String} {d : String} {D : Dataset}

theorem Mem.pairwise_clonesOf (m : Mem) (snap : String) : (m.clonesOf snap).Pairwise (· ≤ ·) := by
  unfold clonesOf namesWhere FinMap.sortedKeys
  exact (List.pairwise_insertionSort _ _).filter _

instance : IsTrans Snapshot Mem.Snapshot.before where
  trans a b c hab hbc := by
    unfold Mem.Snapshot.before at *
    rcases hab with hab | ⟨hab, hname⟩ <;> rcases hbc with hbc | ⟨hbc, hname'⟩
    · exact .inl (by omega)
    · exact .inl (by omega)
    · exact .inl (by omega)
    · exact .inr ⟨by omega, le_trans hname hname'⟩

instance : Std.Total Mem.Snapshot.before where
  total a b := by
    unfold Mem.Snapshot.before
    rcases Nat.lt_trichotomy a.txg b.txg with h | h | h
    · exact .inl (.inl h)
    · exact (le_total a.name b.name).imp (fun hle => .inr ⟨h, hle⟩) fun hle => .inr ⟨h.symm, hle⟩
    · exact .inr (.inl h)

namespace Represents

/-- The snapshots that are listed, with their numbers. -/
theorem mem_sortedSnaps (h : Represents m G) (hD : m.ds.lookup d = some D) {σ : Snapshot} :
    σ ∈ Mem.sortedSnaps D ↔ m.lookupSnap d σ.name = some σ := by
  simp only [Mem.sortedSnaps, List.mem_insertionSort, FinMap.mem_values]
  constructor
  · rintro ⟨n, hn⟩
    have hσ : m.lookupSnap d n = some σ := by simpa [Mem.lookupSnap, hD] using hn
    rw [(h.snap hσ).1, hσ]
  · intro hσ
    exact ⟨σ.name, by simpa [Mem.lookupSnap, hD] using hσ⟩

theorem mem_snapNames (h : Represents m G) (hD : m.ds.lookup d = some D) {snap : String} :
    snap ∈ Mem.snapNames D ↔ ∃ x, G.owner x = some d ∧ snap = snapPath d (G.name x) := by
  simp only [Mem.snapNames, List.mem_map, h.mem_sortedSnaps hD, h.named hD]
  constructor
  · rintro ⟨σ, hσ, rfl⟩
    obtain ⟨_, howner, hname, _⟩ := h.snap hσ
    exact ⟨σ.txg, howner, by rw [hname]⟩
  · rintro ⟨x, hx, rfl⟩
    obtain ⟨σ, hσ, hname, _⟩ := h.lookupSnap_eq hx
    exact ⟨σ, by rw [hname]; exact hσ, by rw [hname]⟩

/-- Each snapshot of a dataset has its own number. -/
theorem txg_inj (h : Represents m G) (hD : m.ds.lookup d = some D) {σ τ : Snapshot}
    (hσ : σ ∈ Mem.sortedSnaps D) (hτ : τ ∈ Mem.sortedSnaps D) (heq : σ.txg = τ.txg) : σ = τ := by
  rw [h.mem_sortedSnaps hD] at hσ hτ
  have hname := (h.snap hσ).2.2.1
  rw [heq, (h.snap hτ).2.2.1] at hname
  rw [hname, hσ] at hτ
  exact Option.some_inj.mp hτ

theorem nodup_sortedSnaps (h : Represents m G) (hD : m.ds.lookup d = some D) :
    (Mem.sortedSnaps D).Nodup := by
  refine (List.perm_insertionSort _ _).nodup_iff.mpr ?_
  refine D.snaps.nodup.filterMap fun n n' σ hn hn' => ?_
  have hσ : m.lookupSnap d n = some σ := by simpa [Mem.lookupSnap, hD] using hn
  have hσ' : m.lookupSnap d n' = some σ := by simpa [Mem.lookupSnap, hD] using hn'
  rw [← (h.snap hσ).1, ← (h.snap hσ').1]

/-- The snapshots are listed in the order they were taken. -/
theorem pairwise_snapNames (h : Represents m G) (hD : m.ds.lookup d = some D) :
    (Mem.snapNames D).Pairwise fun a b => ∀ x y, G.owner x = some d → G.owner y = some d →
      a = snapPath d (G.name x) → b = snapPath d (G.name y) → x < y := by
  have hsorted : (Mem.sortedSnaps D).Pairwise fun σ τ => σ.txg < τ.txg := by
    have hboth := (List.pairwise_insertionSort Mem.Snapshot.before D.snaps.values).and
      (h.nodup_sortedSnaps hD)
    refine List.Pairwise.imp_of_mem (fun {σ τ} hσ hτ hστ => ?_) hboth
    obtain ⟨hbefore, hne⟩ := hστ
    have hne' : σ.txg ≠ τ.txg := fun heq => hne (h.txg_inj hD hσ hτ heq)
    unfold Mem.Snapshot.before at hbefore
    omega
  rw [Mem.snapNames, List.pairwise_map]
  refine List.Pairwise.imp_of_mem (fun {σ τ} hσ hτ hlt x y hx hy ha hb => ?_) hsorted
  have hplain := h.plain (h.alive_of_lookup hD)
  have htxg : ∀ {υ : Snapshot} {z : Nat}, υ ∈ Mem.sortedSnaps D → G.owner z = some d →
      snapPath D.name υ.name = snapPath d (G.name z) → υ.txg = z := by
    intro υ z hυ hz heq
    rw [h.named hD] at heq
    obtain ⟨_, hname⟩ := snapPath_inj hplain hplain heq
    rw [h.mem_sortedSnaps hD] at hυ
    obtain ⟨_, howner, hname', _⟩ := h.snap hυ
    exact G.name_inj howner hz (hname'.trans hname)
  rw [← htxg hσ hx ha, ← htxg hτ hy hb]
  exact hlt

theorem length_snapNames (h : Represents m G) (hD : m.ds.lookup d = some D) :
    (Mem.snapNames D).length = G.count d := by
  have hnodup : ((Mem.sortedSnaps D).map (·.txg)).Nodup :=
    List.Nodup.map_on (fun σ hσ τ hτ heq => h.txg_inj hD hσ hτ heq) (h.nodup_sortedSnaps hD)
  rw [Mem.snapNames, List.length_map, ← List.length_map (·.txg)]
  refine CloneGraph.length_eq_count hnodup fun x => ?_
  rw [List.mem_map]
  constructor
  · rintro ⟨σ, hσ, rfl⟩
    exact (h.snap ((h.mem_sortedSnaps hD).mp hσ)).2.1
  · intro hx
    obtain ⟨σ, hσ, hname, htxg, _⟩ := h.lookupSnap_eq hx
    exact ⟨σ, (h.mem_sortedSnaps hD).mpr (by rw [hname]; exact hσ), htxg⟩

/-! ## Reading properties -/

theorem get_snap_cases (h : Represents m G) (hplain : Plain d) (n prop : String) :
    (m.get (snapPath d n) prop = .error (.notExist (snapPath d n)) ∧
        ∀ x, G.owner x = some d → G.name x ≠ n) ∨
      ∃ x v, G.owner x = some d ∧ G.name x = n ∧ m.get (snapPath d n) prop = .ok v := by
  simp only [Mem.get, split_snapPath hplain]
  cases hD : m.ds.lookup d with
  | none =>
    refine .inl ⟨rfl, fun x hx => ?_⟩
    obtain ⟨D, hD'⟩ := h.lookup_of_alive (G.owner_alive hx)
    rw [hD] at hD'
    cases hD'
  | some D =>
    simp only [if_true]
    obtain ⟨hnone, hfree⟩ | ⟨σ, hσ, _, howner, hname, _⟩ := h.lookupSnap_cases d n
    · have hn : D.snaps.lookup n = none := by simpa [Mem.lookupSnap, hD] using hnone
      rw [hn]
      exact .inl ⟨rfl, hfree⟩
    · have hn : D.snaps.lookup n = some σ := by simpa [Mem.lookupSnap, hD] using hσ
      rw [hn]
      exact .inr ⟨σ.txg, _, howner, hname, rfl⟩

theorem get_cases (h : Represents m G) (hplain : Plain d) (prop : String) :
    (¬ G.alive d ∧ m.get d prop = .error (.notExist d)) ∨
      ∃ D, m.ds.lookup d = some D ∧ m.get d prop = .ok (m.getDataset d D prop) := by
  simp only [Mem.get, split_plain hplain]
  cases hD : m.ds.lookup d with
  | none => exact .inl ⟨by rw [h.alive, hD]; simp, rfl⟩
  | some D => exact .inr ⟨D, rfl, rfl⟩

theorem get_origin_cases (h : Represents m G) (hplain : Plain d) :
    (¬ G.alive d ∧ m.get d "origin" = .error (.notExist d)) ∨
      (G.alive d ∧ G.origin d = none ∧ m.get d "origin" = .ok "-") ∨
      ∃ x p, G.origin d = some x ∧ G.owner x = some p ∧
        m.get d "origin" = .ok (snapPath p (G.name x)) := by
  obtain hdead | ⟨D, hD, hget⟩ := h.get_cases hplain "origin"
  · exact .inl hdead
  have horigin : m.getDataset d D "origin" = if D.origin = "" then "-" else D.origin := by
    simp [Mem.getDataset]
  rw [hget, horigin]
  cases ho : G.origin d with
  | none =>
    rw [if_pos (h.independent hD ho)]
    exact .inr (.inl ⟨h.alive_of_lookup hD, rfl, rfl⟩)
  | some x =>
    obtain ⟨p, hp⟩ := G.origin_owned ho
    rw [h.clone hD ho hp, if_neg (snapPath_ne_empty _ _)]
    exact .inr (.inr ⟨x, p, rfl, hp, rfl⟩)

end Represents

end SimpleZfsCsi.Memzfs
