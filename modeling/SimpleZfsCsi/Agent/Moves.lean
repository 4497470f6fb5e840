import SimpleZfsCsi.Agent.Posts

/-!
# What a pass may do to an orderly site

`Moves` says once what the calls of a pass for an object can be, and under which conditions they
are made: the post of the object is filled, or it is vacated. Each of these moves leaves the
site orderly. That passes make no other calls is shown later, and whatever is to hold of
every run is derived from the moves.
-/

namespace SimpleZfsCsi.Agent

open Library Api Memzfs Text

/-- The role of the datasets of an object. -/
def AgentTask.role : AgentTask → String
  | .dataset _ => roleVolume
  | .snapshot _ => roleBacking

/-- A dataset is labelled as a backing clone. -/
def IsBacking (m : Mem) (c : String) : Prop :=
  ∃ role, m.get c propRole = .ok role ∧ trimSpace role = roleBacking

namespace Site

variable {S : Site} {t : Tracked Taken} {G₀ G : CloneGraph String String} {k : AgentTask}
  {P : Post String String}

/-- The calls that a pass for `k`, with the post `P`, may make where the pool is as `G` says. -/
inductive Moves (S : Site) (t : Tracked Taken) (G : CloneGraph String String) (k : AgentTask)
    (P : Post String String) : AgentCall → Prop where
  | make {props : Props} (tag : P.tag = none) (held : P.held)
      (role : (FinMap.ofList props).lookup propRole = some k.role) :
      Moves S t G k P (.createDataset P.seat props)
  | makeZvol {size : Int} {props : Props} (tag : P.tag = none) (held : P.held)
      (role : (FinMap.ofList props).lookup propRole = some k.role) :
      Moves S t G k P (.createZvol P.seat size props)
  | take {d n : String} (inside : S.Inside d) (tag : P.tag = some n) (held : P.held)
    (home : P.home d)
      (going : ¬ P.ending) (empty : ¬ G.alive P.seat)
      (once : G.Unused S.Inside n ∨ ∃ x, G.owner x = some d ∧ G.name x = n) :
      Moves S t G k P (.snapshot [snapPath d n])
  | clone {d n : String} {props : Props} (inside : S.Inside d) (held : P.held)
      (tag : ∀ n', P.tag = some n' → n = n')
      (other : ∀ {k' P'}, S.posts t.world k' = some P' → k' ≠ k → P'.tag = some n → G.alive P'.seat)
      (role : (FinMap.ofList props).lookup propRole = some k.role) :
      Moves S t G k P (.clone (snapPath d n) P.seat props)
  | label {name prop value : String} (which : (Memzfs.split name).2.2 = true ∨
      name = P.seat ∧ (prop = propRole → value = k.role)) :
      Moves S t G k P (.setProperty name prop value)
  | ownership {mountpoint : String} {uid gid : Option Int} {mode : String} :
      Moves S t G k P (.applyOwnership mountpoint uid gid mode)
  | mark {d n : String} (inside : S.Inside d) (ending : P.ending) (tag : P.tag = some n) :
      Moves S t G k P (.destroySnapshotDeferred (snapPath d n))
  | clean {x : Nat} (dying : G.Dying S.Inside P) (owner : G.owner x = some P.seat)
      (uncloned : ¬ G.Cloned x) :
        Moves S t G k P (.destroySnapshotDeferred (snapPath P.seat (G.name x)))
  | promote {c : String} {o : Nat} (dying : G.Dying S.Inside P) (origin : G.origin c = some o)
      (owner : G.owner o = some P.seat) (cloned : ∀ y, G.owner y = some P.seat → G.Cloned y)
      (pick : ∀ {c' o'}, G.origin c' = some o' → G.owner o' = some P.seat →
        IsBacking t.world.mem c' →
        IsBacking t.world.mem c ∧ (o < o' ∨ o = o' ∧ c ≤ c')) :
      Moves S t G k P (.promote c)
  | destroy (dying : G.Dying S.Inside P) (free : ∀ x, G.owner x ≠ some P.seat) :
      Moves S t G k P (.destroy P.seat false)
  | holdDataset {n : String} {X : ZfsDataset} (key : k = .dataset n)
      (object : t.world.datasets.lookup n = some X) (going : X.metadata.terminating = false) :
      Moves S t G k P (.updateDataset (X.addFinalizer zfsDatasetFinalizer))
  | releaseDataset {n : String} {X : ZfsDataset} (key : k = .dataset n)
      (object : t.world.datasets.lookup n = some X) (dying : G.Dying S.Inside P)
      (gone : ¬ G.alive P.seat) :
        Moves S t G k P (.updateDataset (X.removeFinalizer zfsDatasetFinalizer))
  | patchDataset {n : String} {X : ZfsDataset} {status : ZfsDatasetStatus} (key : k = .dataset n)
      (object : t.world.datasets.lookup n = some X)
      (stays : X.metadata.terminating = false ∨ X.containsFinalizer zfsDatasetFinalizer = true)
      (done : status.provisionedAt.isSome = true → datasetProvisioned X = true ∨ G.alive P.seat)
      (lasts : datasetProvisioned X = true → status.provisionedAt.isSome = true) :
      Moves S t G k P (.patchDatasetStatus n X.status status)
  | holdSnapshot {n : String} {s : ZfsSnapshot} (key : k = .snapshot n)
      (object : t.world.snapshots.lookup n = some s) (going : s.metadata.terminating = false) :
      Moves S t G k P (.updateSnapshot (s.addFinalizer zfsSnapshotFinalizer))
  | releaseSnapshot {n : String} {s : ZfsSnapshot} (key : k = .snapshot n)
      (object : t.world.snapshots.lookup n = some s) (dying : G.Dying S.Inside P)
      (gone : ¬ G.alive P.seat) :
      Moves S t G k P (.updateSnapshot (s.removeFinalizer zfsSnapshotFinalizer))
  | patchSnapshot {n : String} {s : ZfsSnapshot} {status : ZfsSnapshotStatus}
    (key : k = .snapshot n)
      (object : t.world.snapshots.lookup n = some s) (going : s.metadata.terminating = false)
      (unready : s.status.provisionedAt = none)
      (ready : status.phase = some .ready ↔ status.provisionedAt.isSome = true)
      -- Ready is set of the snapshot on the source, whose backing clone is there
      (pinned : status.phase = some .ready → G.alive P.seat ∧
        (∃ x, G.owner x = some (S.full s.spec.dataset) ∧ G.name x = s.spec.snapshotName) ∧
        status.creationTime.map (·.snapshot) =
          some (snapPath (S.full s.spec.dataset) s.spec.snapshotName)) :
      Moves S t G k P (.patchSnapshotStatus n s.status status)

/-! ## The pool -/

/-- A site with another pool. -/
theorem Orderly.withMem (h : S.Orderly G₀ t G) {m' : Mem} {taken' : Taken}
    {G' : CloneGraph String String} (hrep : Represents m' G')
    (hkeeps : G'.Keeps S.Inside Driver (S.posts t.world) taken')
    (halive : ∀ {e}, G'.alive e → S.Inside e ∨ G.alive e)
    (hapart : CloneGraph.Apart S.Inside G₀ G') :
    S.Orderly G₀ ⟨{ t.world with mem := m' }, taken'⟩ G' where
  represents := hrep
  roster := ⟨h.roster.hosted, h.roster.volume, h.roster.snapshot, h.roster.source⟩
  keeps := hkeeps
  below {d e} hd he := by
    rcases halive he with ⟨_, hspot, rfl⟩ | he
    · obtain ⟨_, hspot', rfl⟩ := hd
      exact hspot'.not_below hspot
    · exact h.below hd he
  apart := hapart
  foreign := h.foreign

section Pool

variable (h : S.Orderly G₀ t G) (hk : S.posts t.world k = some P)

include h hk

theorem Orderly.create (htag : P.tag = none) (hheld : P.held) (kind : DatasetKind) (size : Int)
    (props : FinMap String String) :
    ∃ G', S.Orderly G₀
      ⟨{ t.world with mem := (t.world.mem.create P.seat kind size props).2 }, t.ghost⟩ G' ∧
      ((t.world.mem.create P.seat kind size props).1 = .ok () → G'.alive P.seat) := by
  have hin := h.keeps.seat_in hk
  obtain ⟨e, heq⟩ | ⟨_, _, hrep⟩ := h.represents.create_cases hin.plain kind size props
  · rw [heq]
    exact ⟨G, h, by rintro ⟨⟩⟩
  · refine ⟨_, h.withMem hrep (h.keeps.create hk htag hheld) (fun he => ?_) (h.apart.create hin),
      fun _ => .inl rfl⟩
    rcases he with rfl | he
    · exact .inl hin
    · exact .inr he

theorem Orderly.take {d n : String} (hin : S.Inside d) (htag : P.tag = some n) (hheld : P.held)
    (hhome : P.home d) (hgoing : ¬ P.ending) (hempty : ¬ G.alive P.seat)
    (honce : G.Unused S.Inside n ∨ ∃ x, G.owner x = some d ∧ G.name x = n) :
    ∃ G', S.Orderly G₀ (Tracked.handle recordTaken (.snapshot [snapPath d n]) t).2 G' ∧
      ((t.world.mem.snapshot [snapPath d n]).1 = .ok () → ∃ x, G'.owner x = some d ∧
        G'.name x = n) ∧
      (G'.alive P.seat ↔ G.alive P.seat) := by
  have hsame : ∀ r, t.world.mem.snapshot [snapPath d n] = (r, t.world.mem) →
      (Tracked.handle recordTaken (.snapshot [snapPath d n]) t).2 = t := by
    intro r hr
    simp [Tracked.handle, World.handle, recordTaken, AgentCall.reads, hr]
  obtain ⟨_, e, heq⟩ | ⟨_, heq⟩ | ⟨hd, hn, _, hrep⟩ := h.represents.snapshot_cases hin.plain n
  · exact ⟨G, by rw [hsame _ heq]; exact h, by rw [heq]; rintro ⟨⟩, Iff.rfl⟩
  · exact ⟨G, by rw [hsame _ heq]; exact h, fun _ => by assumption, Iff.rfl⟩
  · have hunused : G.Unused S.Inside n := by
      rcases honce with hunused | ⟨x, hx, hname⟩
      · exact hunused
      · exact absurd hname (hn x hx)
    have htxg : (t.world.mem.snapshot [snapPath d n]).2.txg = G.last + 1 := hrep.txg
    have hghost : (Tracked.handle recordTaken (.snapshot [snapPath d n]) t).2.ghost =
        Function.update t.ghost n (some (G.last + 1)) := by
      have hne : G.last + 1 ≠ t.world.mem.txg := by
        rw [h.represents.txg]
        omega
      funext m
      simp [Tracked.handle, World.handle, recordTaken, AgentCall.reads, htxg, hne,
        split_snapPath hin.plain, Function.update_apply]
    refine ⟨G.take d n hd hn, ?_, fun _ => ⟨G.last + 1, by simp [CloneGraph.take]⟩, Iff.rfl⟩
    have := h.withMem hrep (h.keeps.take hk htag hheld hhome hempty hgoing hunused) .inr
      (h.apart.take hin)
    rw [← hghost] at this
    exact this

theorem Orderly.clone {d n : String} (hin : S.Inside d) (hheld : P.held)
    (htag : ∀ n', P.tag = some n' → n = n')
    (hother : ∀ {k' P'}, S.posts t.world k' = some P' → k' ≠ k → P'.tag = some n → G.alive P'.seat)
    (props : FinMap String String) :
    ∃ G', S.Orderly G₀ ⟨{ t.world with mem := (t.world.mem.clone (snapPath d n) P.seat props).2 },
      t.ghost⟩ G' ∧ ((t.world.mem.clone (snapPath d n) P.seat props).1 = .ok () → G'.alive P.seat) ∧
      G'.owner = G.owner ∧ G'.name = G.name := by
  have hseat := h.keeps.seat_in hk
  obtain ⟨e, heq⟩ | ⟨_, heq⟩ | ⟨x, hx, hdead, hxd, hname, _, hrep⟩ :=
    h.represents.clone_cases hin.plain hseat.plain n props
  · rw [heq]
    exact ⟨G, h, by rintro ⟨⟩, rfl, rfl⟩
  · rw [heq]
    exact ⟨G, h, fun _ => by assumption, rfl, rfl⟩
  · have hxin : ∀ q, G.owner x = some q → S.Inside q := by
      intro q hq
      rw [hxd] at hq
      exact Option.some_inj.mp hq ▸ hin
    refine ⟨_, h.withMem hrep (h.keeps.clone hk rfl hheld hxin (fun n' hn' => ?_)
      (fun hk' hne hn' => ?_)) (fun he => ?_) (h.apart.clone hseat), fun _ => .inl rfl, rfl, rfl⟩
    · rw [hname]
      exact htag n' hn'
    · rw [hname] at hn'
      exact hother hk' hne hn'
    · rcases he with rfl | he
      · exact .inl hseat
      · exact .inr he

/-- A snapshot is destroyed, or marked, that its post answers for; then its tag is released. -/
theorem Orderly.mark {d n : String} (hin : S.Inside d) (hending : P.ending)
    (htag : P.tag = some n) :
    (t.world.mem.destroySnapshotDeferred (snapPath d n)).1 = .ok () ∧
      ∃ G', S.Orderly G₀ ⟨{ t.world with
        mem := (t.world.mem.destroySnapshotDeferred (snapPath d n)).2 }, t.ghost⟩ G' ∧
        G'.count P.seat ≤ G.count P.seat ∧
        ((∃ x, G.owner x = some d ∧ G.name x = n) → G'.Dying S.Inside P) := by
  have hreleased : ∀ {G' : CloneGraph String String}, G'.Released S.Inside n →
      G'.Dying S.Inside P := by
    refine fun hn => ⟨hending, fun n' hn' => ?_⟩
    rw [htag] at hn'
    exact Option.some_inj.mp hn' ▸ hn
  obtain ⟨hnone, heq⟩ | ⟨x, hx, rfl, hok, hrep⟩ :=
    h.represents.destroySnapshotDeferred_cases hin.plain n
  · rw [heq]
    exact ⟨rfl, G, h, Nat.le_refl _, fun ⟨x, hx, hname⟩ => absurd hname (hnone x hx)⟩
  · have hunique : ∀ {y e}, G.owner y = some e → S.Inside e → G.name y = G.name x → y = x :=
      fun hy he hname => h.keeps.name_unique hy he hx hin hname
    rcases hrep with ⟨huncloned, hrep⟩ | ⟨hcloned, hrep⟩
    · refine ⟨hok, _, h.withMem hrep (h.keeps.discard hk hending (.inr htag)) .inr
        (h.apart.discard fun q hq => ?_), CloneGraph.count_le fun y
          hy => (CloneGraph.owner_of_discard hy).2,
        fun _ => hreleased fun y e hy he hname => ?_⟩
      · rw [hx] at hq
        exact Option.some_inj.mp hq ▸ hin
      · obtain ⟨hne, hy⟩ := CloneGraph.owner_of_discard hy
        exact absurd (hunique hy he hname) hne
    · refine ⟨hok, _, h.withMem hrep (h.keeps.mark hk hending htag) .inr h.apart.mark,
        CloneGraph.count_le fun y hy => hy, fun _ => hreleased fun y e hy he hname => .inl
          (hunique hy he hname)⟩

/-- A snapshot of the seat is destroyed that nothing clones. -/
theorem Orderly.clean {x : Nat} (hending : P.ending) (hx : G.owner x = some P.seat)
    (huncloned : ¬ G.Cloned x) :
    (t.world.mem.destroySnapshotDeferred (snapPath P.seat (G.name x))).1 = .ok () ∧
      S.Orderly G₀ ⟨{ t.world with
        mem := (t.world.mem.destroySnapshotDeferred (snapPath P.seat (G.name x))).2 }, t.ghost⟩
        (G.discard x huncloned) := by
  have hin := h.keeps.seat_in hk
  obtain ⟨hnone, _⟩ | ⟨y, hy, hname, hok, hrep⟩ :=
    h.represents.destroySnapshotDeferred_cases hin.plain (G.name x)
  · exact absurd rfl (hnone x hx)
  · obtain rfl := G.name_inj hy hx hname
    rcases hrep with ⟨_, hrep⟩ | ⟨hcloned, _⟩
    · refine ⟨hok, h.withMem hrep (h.keeps.discard hk hending (.inl hx)) .inr
        (h.apart.discard fun q hq => ?_)⟩
      rw [hx] at hq
      exact Option.some_inj.mp hq ▸ hin
    · exact absurd hcloned huncloned

theorem Orderly.promote {c : String} {o : Nat} (hdying : G.Dying S.Inside P)
    (ho : G.origin c = some o)
    (hp : G.owner o = some P.seat) (hall : ∀ y, G.owner y = some P.seat → G.Cloned y) :
    ∃ hc : G.Promotable c P.seat o, (t.world.mem.promote c).1 = .ok () ∧
      S.Orderly G₀ ⟨{ t.world with mem := (t.world.mem.promote c).2 }, t.ghost⟩
        (G.promote c P.seat o hc) := by
  have hin := h.keeps.seat_in hk
  have hpromotable := h.keeps.promotable ho hp hin
  obtain ⟨hdead, _⟩ | ⟨_, hnone, _⟩ | ⟨p, o', ho', hp', hrest⟩ := h.represents.promote_cases c
  · exact absurd (G.origin_alive ho) hdead
  · rw [ho] at hnone
    cases hnone
  · rw [ho] at ho'
    obtain rfl := Option.some_inj.mp ho'
    rw [hp] at hp'
    obtain rfl := Option.some_inj.mp hp'
    rcases hrest with ⟨hnot, _⟩ | ⟨hc, hok, hrep⟩
    · exact absurd hpromotable hnot
    · exact ⟨hc, hok, h.withMem hrep (h.keeps.promote hk rfl hdying hall) .inr
        (h.apart.promote h.keeps.closed hin)⟩

/-- Nothing is below a spot, so that a dataset there can be destroyed. -/
theorem Orderly.children_eq_nil : t.world.mem.children P.seat = [] := by
  rw [List.eq_nil_iff_forall_not_mem]
  intro e he
  simp only [Mem.children, Mem.namesWhere, List.mem_filter, FinMap.mem_sortedKeys] at he
  have hbelow := h.below (h.keeps.seat_in hk) (h.represents.alive.mpr he.1)
  obtain ⟨_, he⟩ := he
  rw [Option.any_eq_true] at he
  obtain ⟨_, _, he⟩ := he
  rw [hbelow] at he
  cases he

theorem Orderly.destroy (hdying : G.Dying S.Inside P) (hfree : ∀ x, G.owner x ≠ some P.seat) :
    (t.world.mem.destroy P.seat false).1 = .ok () ∧
      ∃ G',
        S.Orderly G₀ ⟨{ t.world with mem := (t.world.mem.destroy P.seat false).2 }, t.ghost⟩ G' ∧
        ¬ G'.alive P.seat ∧ G'.Dying S.Inside P := by
  have hin := h.keeps.seat_in hk
  obtain ⟨hdead, heq⟩ | ⟨hbusy, _⟩ | ⟨_, hok, hrep⟩ := h.represents.destroy_cases hin.plain
  · rw [heq]
    exact ⟨rfl, G, h, hdead, hdying⟩
  · rcases hbusy with hchildren | ⟨x, hx⟩
    · exact absurd (h.children_eq_nil hk) hchildren
    · exact absurd hx (hfree x)
  · refine ⟨hok, _, h.withMem hrep (h.keeps.destroy hk rfl hdying) (fun he => .inr he.2)
      (h.apart.destroy h.keeps.closed hin), fun he => he.1 rfl, hdying.1, fun n hn => ?_⟩
    exact CloneGraph.Keeps.released_destroy (hdying.2 n hn)

end Pool

/-! ## The objects -/

theorem mergeField_self {α : Type} [DecidableEq α] (a b : α) : mergeField a b a = b := by
  unfold mergeField
  split_ifs with hab
  · exact hab
  · rfl

/-- A patch computed from the current status writes the new one. -/
theorem mergeDataset_self (read patched : ZfsDatasetStatus) :
    ZfsDatasetStatus.merge read patched read = patched := by
  simp only [ZfsDatasetStatus.merge, mergeField_self]

theorem mergeSnapshot_self (read patched : ZfsSnapshotStatus) :
    ZfsSnapshotStatus.merge read patched read = patched := by
  simp only [ZfsSnapshotStatus.merge, mergeField_self]

/-- Only its own finalizer holds an object. -/
theorem released_removeFinalizer {Spec Status : Type} {o : Object Spec Status} {f : String}
    (hfinalizers : ∀ f' ∈ o.metadata.finalizers, f' = f) (hending : o.metadata.terminating = true) :
    (o.removeFinalizer f).released = true := by
  simpa [Object.released, Object.removeFinalizer, hending] using hfinalizers

section Objects

variable {n : String} {X : ZfsDataset} {s : ZfsSnapshot} (h : S.Orderly G₀ t G)

include h

theorem Orderly.updateDataset_eq (hX : t.world.datasets.lookup n = some X)
    (finalizers : List String) :
    t.world.datasets.update { X with metadata := { X.metadata with finalizers } } =
      (.ok (), t.world.datasets.put n { X with metadata := { X.metadata with finalizers } }) := by
  have hname : Object.name { X with metadata := { X.metadata with finalizers } } = n :=
    (h.roster.volume hX).1
  unfold Store.update
  rw [hname, hX]
  simp

theorem Orderly.holdDataset (hX : t.world.datasets.lookup n = some X)
    (hgoing : X.metadata.terminating = false) :
    S.Orderly G₀ (withDatasets t
      (t.world.datasets.update (X.addFinalizer zfsDatasetFinalizer)).2) G := by
  obtain ⟨hname, hfits⟩ := h.roster.volume hX
  have heq := h.updateDataset_eq hX (X.metadata.finalizers ++ [zfsDatasetFinalizer])
  rw [Object.addFinalizer, heq]
  refine h.putVolume hX rfl hname ⟨hfits.guid, hfits.name, hfits.spot, hfits.source, fun f hf => ?_⟩
    (by simp [Object.released, hgoing]) id (fun _ => by simp [Object.containsFinalizer]) .inl
  rcases List.mem_append.mp hf with hf | hf
  · exact hfits.finalizers f hf
  · exact List.mem_singleton.mp hf

theorem Orderly.releaseDataset (hX : t.world.datasets.lookup n = some X)
    (hdying : G.Dying S.Inside (S.volumePost t.world X))
    (hgone : ¬ G.alive (S.full X.spec.dataset)) :
    S.Orderly G₀ (withDatasets t
      (t.world.datasets.update (X.removeFinalizer zfsDatasetFinalizer)).2) G := by
  have hfits := (h.roster.volume hX).2
  have hreleased := released_removeFinalizer hfits.finalizers hdying.1
  have heq := h.updateDataset_eq hX (X.metadata.finalizers.filter (· ≠ zfsDatasetFinalizer))
  rw [Object.removeFinalizer, heq]
  exact h.dropVolume hX hreleased fun _ => ⟨hgone, hdying.2⟩

theorem Orderly.patchDataset (hX : t.world.datasets.lookup n = some X) {status : ZfsDatasetStatus}
    (hstays : X.metadata.terminating = false ∨ X.containsFinalizer zfsDatasetFinalizer = true)
    (hdone : status.provisionedAt.isSome = true → datasetProvisioned X = true ∨
      G.alive (S.full X.spec.dataset)) :
    S.Orderly G₀ (withDatasets t
      (t.world.datasets.patchStatus ZfsDatasetStatus.merge n X.status status).2) G := by
  obtain ⟨hname, hfits⟩ := h.roster.volume hX
  have hreleased : Object.released { X with status } = false := by
    rcases hstays with hgoing | hheld
    · simp [Object.released, hgoing]
    · have hne : X.metadata.finalizers ≠ [] := by
        intro hnil
        simp [Object.containsFinalizer, hnil] at hheld
      simp [Object.released, hne]
  simp only [Store.patchStatus, hX, mergeDataset_self]
  exact h.putVolume hX rfl hname ⟨hfits.guid, hfits.name, hfits.spot, hfits.source,
    hfits.finalizers⟩
    hreleased id id hdone

theorem Orderly.updateSnapshot_eq (hs : t.world.snapshots.lookup n = some s)
    (finalizers : List String) :
    t.world.snapshots.update { s with metadata := { s.metadata with finalizers } } =
      (.ok (), t.world.snapshots.put n { s with metadata := { s.metadata with finalizers } }) := by
  have hname : Object.name { s with metadata := { s.metadata with finalizers } } = n :=
    (h.roster.snapshot hs).1
  unfold Store.update
  rw [hname, hs]
  simp

theorem Orderly.holdSnapshot (hs : t.world.snapshots.lookup n = some s)
    (hgoing : s.metadata.terminating = false) :
    S.Orderly G₀ (withSnapshots t
      (t.world.snapshots.update (s.addFinalizer zfsSnapshotFinalizer)).2) G := by
  obtain ⟨hname, hfits⟩ := h.roster.snapshot hs
  have heq := h.updateSnapshot_eq hs (s.metadata.finalizers ++ [zfsSnapshotFinalizer])
  rw [Object.addFinalizer, heq]
  refine h.putSnapshot hs rfl hname
    ⟨hfits.guid, hfits.spot, hfits.raw, hfits.backing, fun f hf => ?_, hfits.ready⟩
    (by simp [Object.released, hgoing]) id (fun _ => by simp [Object.containsFinalizer]) .inl
  rcases List.mem_append.mp hf with hf | hf
  · exact hfits.finalizers f hf
  · exact List.mem_singleton.mp hf

theorem Orderly.releaseSnapshot (hs : t.world.snapshots.lookup n = some s)
    (hdying : G.Dying S.Inside (S.snapshotPost s)) (hgone : ¬ G.alive (S.backing s)) :
    S.Orderly G₀ (withSnapshots t
      (t.world.snapshots.update (s.removeFinalizer zfsSnapshotFinalizer)).2) G := by
  have hfits := (h.roster.snapshot hs).2
  have hreleased := released_removeFinalizer hfits.finalizers hdying.1
  have heq := h.updateSnapshot_eq hs (s.metadata.finalizers.filter (· ≠ zfsSnapshotFinalizer))
  rw [Object.removeFinalizer, heq]
  exact h.dropSnapshot hs hreleased fun _ => ⟨hgone, hdying.2 _ rfl⟩

theorem Orderly.patchSnapshot (hs : t.world.snapshots.lookup n = some s)
    {status : ZfsSnapshotStatus}
    (hgoing : s.metadata.terminating = false)
    (hready : status.phase = some .ready ↔ status.provisionedAt.isSome = true)
    (hdone : status.phase = some .ready → G.alive (S.backing s)) :
    S.Orderly G₀ (withSnapshots t
      (t.world.snapshots.patchStatus ZfsSnapshotStatus.merge n s.status status).2) G := by
  obtain ⟨hname, hfits⟩ := h.roster.snapshot hs
  simp only [Store.patchStatus, hs, mergeSnapshot_self]
  exact h.putSnapshot hs rfl hname
    ⟨hfits.guid, hfits.spot, hfits.raw, hfits.backing, hfits.finalizers, hready⟩
    (by simp [Object.released, hgoing]) id id fun hsome => .inr (hdone (hready.mpr hsome))

end Objects

/-- Every move leaves the site orderly. -/
theorem Moves.orderly (h : S.Orderly G₀ t G) (hk : S.posts t.world k = some P) {e : AgentCall}
    (hm : S.Moves t G k P e) : ∃ G', S.Orderly G₀ (Tracked.handle recordTaken e t).2 G' := by
  have hvolume : ∀ {n X}, k = .dataset n → t.world.datasets.lookup n = some X →
      P = S.volumePost t.world X := by
    rintro n X rfl hX
    rw [posts_dataset hX] at hk
    exact (Option.some_inj.mp hk).symm
  have hsnapshot : ∀ {n s}, k = .snapshot n → t.world.snapshots.lookup n = some s →
      P = S.snapshotPost s := by
    rintro n s rfl hs
    rw [posts_snapshot hs] at hk
    exact (Option.some_inj.mp hk).symm
  cases hm with
  | make tag held role =>
    obtain ⟨G', horderly, _⟩ := h.create hk tag held _ _ _
    exact ⟨G', horderly⟩
  | @makeZvol size props tag held role =>
    show ∃ G', S.Orderly G₀ ⟨{ t.world with
      mem := (t.world.mem.createZvol P.seat size (FinMap.ofList props)).2 }, t.ghost⟩ G'
    unfold Mem.createZvol
    split_ifs
    · exact ⟨G, h⟩
    · obtain ⟨G', horderly, _⟩ := h.create hk tag held .volume size (FinMap.ofList props)
      exact ⟨G', horderly⟩
  | take inside tag held home going empty once =>
    obtain ⟨G', horderly, _⟩ := h.take hk inside tag held home going empty once
    exact ⟨G', horderly⟩
  | clone inside held tag other role =>
    obtain ⟨G', horderly, _⟩ := h.clone hk inside held tag other _
    exact ⟨G', horderly⟩
  | label which => exact ⟨G, h.withMem (h.represents.setProperty _ _ _) h.keeps .inr h.apart⟩
  | ownership => exact ⟨G, h⟩
  | mark inside ending tag =>
    obtain ⟨_, G', horderly, _⟩ := h.mark hk inside ending tag
    exact ⟨G', horderly⟩
  | clean dying owner uncloned => exact ⟨_, (h.clean hk dying.1 owner uncloned).2⟩
  | promote dying origin owner cloned pick =>
    obtain ⟨_, _, horderly⟩ := h.promote hk dying origin owner cloned
    exact ⟨_, horderly⟩
  | destroy dying free =>
    obtain ⟨_, G', horderly, _⟩ := h.destroy hk dying free
    exact ⟨G', horderly⟩
  | holdDataset key object going => exact ⟨G, h.holdDataset object going⟩
  | releaseDataset key object dying gone =>
    obtain rfl := hvolume key object
    exact ⟨G, h.releaseDataset object dying gone⟩
  | patchDataset key object stays done lasts =>
    obtain rfl := hvolume key object
    exact ⟨G, h.patchDataset object stays done⟩
  | holdSnapshot key object going => exact ⟨G, h.holdSnapshot object going⟩
  | releaseSnapshot key object dying gone =>
    obtain rfl := hsnapshot key object
    exact ⟨G, h.releaseSnapshot object dying gone⟩
  | patchSnapshot key object going unready ready pinned =>
    obtain rfl := hsnapshot key object
    exact ⟨G, h.patchSnapshot object going ready fun hready => (pinned hready).1⟩

end Site

end SimpleZfsCsi.Agent
