import SimpleZfsCsi.Agent.Passes
import SimpleZfsCsi.Memzfs.Frame
import SimpleZfsCsi.Memzfs.Refinement

/-!
# Whose dataset a ZfsSnapshot touches

The backing clone of a ZfsSnapshot is whatever is at the path computed from its source and
its `snapshotName`. The passes of a ZfsSnapshot destroy, empty and label nothing but the
dataset at that path. So they touch only what the ZfsSnapshot created itself exactly as far as
paths are not shared: `home` sets paths aside for ZfsSnapshots, one for each path, and the
passes of a run keep to it.
-/

namespace SimpleZfsCsi.Agent

open Library Api Memzfs Program

/-- The ZfsSnapshot, by its uid, that created a dataset as its backing clone. -/
abbrev MadeBy := String → Option Nat

/-- A dataset that appears was made by `maker`. -/
def recordMaker (maker : Option Nat) (_ : AgentCall) (before after : World)
    (madeBy : MadeBy) : MadeBy :=
  fun n =>
    if (before.mem.ds.lookup n).isSome = (after.mem.ds.lookup n).isSome then madeBy n
    else if (after.mem.ds.lookup n).isSome then maker else none

/-- A pass, and the ZfsSnapshot that makes what it creates. -/
structure Turn where
  task : AgentTask
  maker : Option Nat

/-- The uid of a ZfsSnapshot; the passes of a ZfsDataset create no backing clones. -/
def makerOf (w : World) : AgentTask → Option Nat
  | .dataset _ => none
  | .snapshot name => (w.snapshots.lookup name).map (·.metadata.uid)

def ownedPasses (nodeName : String) :
    Serial (Tracked MadeBy) Turn AgentCall AgentCall.Ret (Except Err Result) where
  handle t := Tracked.handle (recordMaker t.maker)
  fails := AgentCall.fails
  program t := t.task.program nodeName
  starts t s := t.maker = makerOf s.world t.task
  change s s' := Request s.world s'.world ∧ s'.ghost = s.ghost

instance {nodeName : String} {t : Turn} {s : Tracked MadeBy} :
    Decidable ((ownedPasses nodeName).starts t s) := inferInstanceAs (Decidable (_ = _))

/-- The labels of the dataset at `n`. -/
def labels (m : Mem) (n : String) : Option (Option String × Option String) :=
  (m.ds.lookup n).map fun D => (D.props.lookup propRole, D.props.lookup propOwner)

/-- The call destroys the dataset at `n`, promotes another one away from it, or changes its
labels. -/
def Touches (e : AgentCall) (m m' : Mem) (n : String) : Prop :=
  (m.ds.lookup n).isSome ∧ ((m'.ds.lookup n).isNone ∨
    ((∃ c, e = .promote c) ∧ ∃ x, (m.lookupSnap n x).isSome ∧ (m'.lookupSnap n x).isNone) ∨
    labels m' n ≠ labels m n)

/-- No ZfsDataset names the dataset at `n`. -/
def Unnamed (nodeName : String) (w : World) (n : String) : Prop :=
  ∀ vol ∈ w.datasets.values, datasetPath nodeName w vol ≠ some n

/-- The passes keep to the paths that are set aside: a ZfsDataset is at a path that is not,
and a ZfsSnapshot has its backing clone at one that is set aside for it. -/
def KeepsApart (nodeName : String) (home : String → Option Nat) (t : Turn) (s : Tracked MadeBy) :
    Prop :=
  match t.task with
  | .dataset name => ∀ vol full, s.world.datasets.lookup name = some vol →
      datasetPath nodeName s.world vol = some full → home full = none
  | .snapshot name => ∀ snap full, s.world.snapshots.lookup name = some snap →
      backingPath nodeName s.world snap = some full →
      Plain full ∧ home full = some snap.metadata.uid ∧ Unnamed nodeName s.world full

instance {nodeName : String} {w : World} {n : String} : Decidable (Unnamed nodeName w n) :=
  inferInstanceAs (Decidable (∀ vol ∈ w.datasets.values, datasetPath nodeName w vol ≠ some n))

instance {nodeName : String} {home : String → Option Nat} {t : Turn} {s : Tracked MadeBy} :
    Decidable (KeepsApart nodeName home t s) :=
  match htask : t.task with
  | .dataset name =>
    decidable_of_iff (∀ vol ∈ s.world.datasets.lookup name,
      ∀ full ∈ datasetPath nodeName s.world vol,
      home full = none) (by
        simp only [KeepsApart, htask]
        exact ⟨fun h vol full hvol => h vol hvol full, fun h vol hvol full => h vol full hvol⟩)
  | .snapshot name =>
    decidable_of_iff (∀ snap ∈ s.world.snapshots.lookup name,
      ∀ full ∈ backingPath nodeName s.world snap,
      '@' ∉ full.toList ∧ home full = some snap.metadata.uid ∧ Unnamed nodeName s.world full) (by
        simp only [KeepsApart, htask]
        exact ⟨fun h snap full hsnap => h snap hsnap full,
          fun h snap hsnap full => h snap full hsnap⟩)

/-! ## What a call does -/

section Guarantee

variable {nodeName : String} {home : String → Option Nat} {t : Turn} {s s' : Tracked MadeBy}
  {e : AgentCall} {b n : String}

/-- What is at a path that is set aside was made by the ZfsSnapshot it is set aside for. -/
structure Apart (home : String → Option Nat) (s : Tracked MadeBy) : Prop where
  named : s.world.mem.Named
  made : ∀ n u, (s.world.mem.ds.lookup n).isSome → home n = some u → s.ghost n = some u

structure OwnGuar (nodeName : String) (home : String → Option Nat) (t : Turn) (e : AgentCall)
    (s s' : Tracked MadeBy) : Prop where
  named : s.world.mem.Named → s'.world.mem.Named
  creates : ∀ n, (s.world.mem.ds.lookup n).isNone → (s'.world.mem.ds.lookup n).isSome →
    home n = t.maker
  touches : ∀ name, t.task = .snapshot name → ∀ n, Touches e s.world.mem s'.world.mem n →
    (∃ u, t.maker = some u ∧ home n = some u) ∧ Unnamed nodeName s.world n

theorem labels_of_face {m m' : Mem} (h : m'.face n = m.face n) : labels m' n = labels m n := by
  have hlabels : ∀ m : Mem, labels m n =
      (m.face n).map fun f => (f.2.lookup propRole, f.2.lookup propOwner) := by
    intro m
    simp only [labels, Mem.face, Option.map_map]
    rfl
  rw [hlabels, hlabels, h]

/-- A call other than a promote that leaves `n` alone does not touch it. -/
theorem not_touches_of_face {m m' : Mem} (h : m'.face n = m.face n) (he : ∀ c, e ≠ .promote c) :
    ¬ Touches e m m' n := by
  rintro ⟨hsome, hnone | ⟨⟨c, hc⟩, _⟩ | hlabels⟩
  · rw [← Mem.isSome_face, ← h, Mem.isSome_face] at hsome
    simp_all
  · exact he c hc
  · exact hlabels (labels_of_face h)

variable {ok : String → Prop}

/-- What a pass may call that creates datasets at the paths `ok` only. -/
def AgentCall.createsAt (ok : String → Prop) : AgentCall → Prop
  | .createDataset name _ | .createZvol name _ _ | .clone _ name _ => ok name
  | _ => True

/-- What a pass of a ZfsSnapshot may call, apart from promotes, that has its backing clone at a
path in `ok`. -/
def AgentCall.within (ok : String → Prop) : AgentCall → Prop
  | .createDataset _ _ | .createZvol _ _ _ | .promote _ | .updateDataset _
  | .patchDatasetStatus _ _ _ => False
  | .clone _ dest _ => ok dest
  | .destroy name recursive => ok name ∧ recursive = false
  | .setProperty name _ _ => ok name ∨ (Memzfs.split name).2.2 = true
  | _ => True

theorem AgentCall.within.createsAt (he : e.within ok) : e.createsAt ok := by
  cases e <;> trivial

theorem AgentCall.Reads.within (he : e.Reads) : e.within ok := by
  cases e <;> trivial

theorem named_handle (he : e.createsAt ok) {w : World} (h : w.mem.Named) :
    (World.handle e w).2.mem.Named := by
  have hface : ∀ {m' : Mem}, (∀ n, m'.face n = w.mem.face n) → m'.Named :=
    fun hm => h.of_face fun n => by rw [hm]
  cases e with
  | createDataset name props => exact h.create _ _ _ _
  | createZvol name size props => exact h.createZvol _ _ _
  | snapshot names => exact hface (Mem.face_snapshot _ _)
  | clone snap dest props => exact h.clone _ _ _
  | promote name => exact hface (Mem.face_promote _ _)
  | destroy name recursive => exact h.destroy _ _
  | destroySnapshotDeferred name => exact hface (Mem.face_destroySnapshotDeferred _ _)
  | setProperty name prop value => exact h.setProperty _ _ _
  | _ => exact h

/-- A dataset that appears is at a path in `ok`. -/
theorem createsAt_creates (he : e.createsAt ok) {w : World} (hnone : (w.mem.ds.lookup n).isNone)
    (hsome : ((World.handle e w).2.mem.ds.lookup n).isSome) : ok n := by
  by_contra hne
  have habsurd : ∀ {m' : Mem}, m'.face n = w.mem.face n → ¬ (m'.ds.lookup n).isSome := by
    intro m' hface hsome'
    rw [← Mem.isSome_face, hface, Mem.isSome_face] at hsome'
    simp_all
  have hother : ∀ {b}, ok b → n ≠ b := by
    rintro b hb rfl
    exact hne hb
  cases e with
  | createDataset name props => exact habsurd (Mem.create_sameBut _ _ _ _ _ n (hother he)) hsome
  | createZvol name size props => exact habsurd (Mem.createZvol_sameBut _ _ _ _ n (hother he)) hsome
  | snapshot names => exact habsurd (Mem.face_snapshot _ _ n) hsome
  | clone snap dest props => exact habsurd (Mem.clone_sameBut _ _ _ _ n (hother he)) hsome
  | promote name => exact habsurd (Mem.face_promote _ _ n) hsome
  | destroy name recursive =>
    obtain hface | ⟨_, hface⟩ := Mem.face_destroy w.mem name n recursive
    · exact habsurd hface hsome
    · rw [← Mem.isSome_face] at hsome
      simp only [World.handle, hface] at hsome
      cases hsome
  | destroySnapshotDeferred name => exact habsurd (Mem.face_destroySnapshotDeferred _ _ n) hsome
  | setProperty name prop value =>
    simp only [World.handle, Mem.isSome_setProperty] at hsome
    simp_all
  | _ => exact habsurd rfl hsome

/-- A call within `ok` leaves the other datasets alone. -/
theorem face_within (he : e.within ok) (hplain : ∀ b, ok b → Plain b) (hn : ¬ ok n) (w : World) :
    (World.handle e w).2.mem.face n = w.mem.face n := by
  have hother : ∀ {b}, ok b → n ≠ b := by
    rintro b hb rfl
    exact hn hb
  cases e with
  | createDataset name props => cases he
  | createZvol name size props => cases he
  | snapshot names => exact Mem.face_snapshot _ _ n
  | clone snap dest props => exact Mem.clone_sameBut _ _ _ _ n (hother he)
  | promote name => cases he
  | destroy name recursive =>
    obtain ⟨hname, rfl⟩ : ok name ∧ recursive = false := he
    exact Mem.destroy_sameBut _ _ n (hother hname)
  | destroySnapshotDeferred name => exact Mem.face_destroySnapshotDeferred _ _ n
  | setProperty name prop value =>
    rcases he with hname | hsnap
    · refine Mem.setProperty_sameBut _ _ _ _ n ?_
      rw [split_plain (hplain name hname)]
      exact hother hname
    · exact Mem.face_setProperty_snap _ hsnap _ _ n
  | _ => rfl

/-- A call within `ok` leaves ZfsDatasets and pools alone. -/
theorem within_objects (he : e.within ok) (w : World) :
    (World.handle e w).2.datasets = w.datasets ∧ (World.handle e w).2.pools = w.pools := by
  cases e <;> first | exact ⟨rfl, rfl⟩ | cases he

theorem Unnamed.congr {w w' : World} (h : Unnamed nodeName w n)
    (hdatasets : w'.datasets = w.datasets)
    (hpools : w'.pools = w.pools) : Unnamed nodeName w' n := by
  intro vol hvol
  rw [hdatasets] at hvol
  have := h vol hvol
  simpa only [datasetPath, poolHere, hpools] using this

/-- The passes of a ZfsSnapshot begin in `w`, and keep within the paths `ok`. -/
structure Allows (nodeName : String) (home : String → Option Nat) (t : Turn) (w : World)
    (ok : String → Prop) : Prop where
  plain : ∀ b, ok b → Plain b
  home : ∀ b, ok b → ∃ u, t.maker = some u ∧ home b = some u
  unnamed : ∀ b, ok b → Unnamed nodeName w b

/-- What stays as it is while a ZfsSnapshot is reconciled. -/
structure Settled (w : World) (s : Tracked MadeBy) : Prop where
  named : s.world.mem.Named
  datasets : s.world.datasets = w.datasets
  pools : s.world.pools = w.pools

variable {w : World}

theorem within_guar (hok : Allows nodeName home t w ok) (he : e.within ok) (hs : Settled w s) :
    OwnGuar nodeName home t e s (Tracked.handle (recordMaker t.maker) e s).2 ∧
      Settled w (Tracked.handle (recordMaker t.maker) e s).2 := by
  obtain ⟨hdatasets, hpools⟩ := within_objects he s.world
  refine ⟨⟨named_handle he.createsAt, ?_, ?_⟩, ?_⟩
  · intro n hnone hsome
    obtain ⟨u, hmaker, hhome⟩ := hok.home n (createsAt_creates he.createsAt hnone hsome)
    exact hhome.trans hmaker.symm
  · intro name _ n hn
    have hokn : ok n := by
      by_contra hne
      refine not_touches_of_face (face_within he hok.plain hne s.world) ?_ hn
      rintro c rfl
      cases he
    exact ⟨hok.home n hokn, (hok.unnamed n hokn).congr hs.datasets hs.pools⟩
  · exact ⟨named_handle he.createsAt hs.named, hdatasets.trans hs.datasets, hpools.trans hs.pools⟩

theorem ownGuar_reads (e : AgentCall) (s : Tracked MadeBy) (_ : e.Reads) :
    OwnGuar nodeName home t e s s where
  named := id
  creates n hnone hsome := by simp_all
  touches name _ n hn := by
    obtain ⟨hsome, hnone | ⟨_, x, hx, hx'⟩ | hlabels⟩ := hn
    · simp_all
    · simp_all
    · exact absurd rfl hlabels

/-- A promote of a clone of a snapshot of `b` takes snapshots from `b` only. -/
theorem promote_guar (hok : Allows nodeName home t w ok) (hb : ok b) {c x : String}
    (hc : (s.world.mem.ds.lookup c).map (·.origin) = some (snapPath b x)) (hs : Settled w s) :
    OwnGuar nodeName home t (.promote c) s (Tracked.handle (recordMaker t.maker) (.promote c) s).2 ∧
      Settled w (Tracked.handle (recordMaker t.maker) (.promote c) s).2 := by
  have he : (AgentCall.promote c).createsAt ok := trivial
  refine ⟨⟨named_handle he, ?_, ?_⟩, ⟨named_handle he hs.named, hs.datasets, hs.pools⟩⟩
  · intro n hnone hsome
    obtain ⟨u, hmaker, hhome⟩ := hok.home n (createsAt_creates he hnone hsome)
    exact hhome.trans hmaker.symm
  · intro name _ n hn
    obtain rfl : n = b := by
      obtain ⟨hsome, hnone | ⟨_, x, hx, hx'⟩ | hlabels⟩ := hn
      · rw [← Mem.isSome_face, ← Mem.face_promote s.world.mem c n, Mem.isSome_face] at hsome
        simp_all [World.handle]
      · by_contra hne
        have hparent : ∀ D, s.world.mem.ds.lookup c = some D → (Memzfs.split D.origin).1 = b := by
          intro D hD
          rw [hD, Option.map_some, Option.some_inj] at hc
          rw [hc, split_snapPath (hok.plain b hb)]
        have := Mem.promote_keeps hparent hne hx
        simp_all [World.handle]
      · exact absurd (labels_of_face (Mem.face_promote s.world.mem c n)) hlabels
    exact ⟨hok.home n hb, (hok.unnamed n hb).congr hs.datasets hs.pools⟩

end Guarantee

/-! ## The pass of a ZfsSnapshot -/

section SnapshotPass

variable {nodeName : String} {home : String → Option Nat} {t : Turn}
    {s : Tracked MadeBy} {w : World}
  {ok : String → Prop} {α β : Type}

abbrev ownWp (nodeName : String) (home : String → Option Nat) (t : Turn) (p : AgentProc α)
    (Q : Except Err α → Tracked MadeBy → Prop) (s : Tracked MadeBy) : Prop :=
  passWp (recordMaker t.maker) AgentCall.fails (OwnGuar nodeName home t) p Q s

theorem within_wp (hok : Allows nodeName home t w ok) {p : AgentProc α}
    (hp : p.run.Calls (AgentCall.within ok)) (hs : Settled w s) :
    ownWp nodeName home t p (fun _ s => Settled w s) s := by
  have hcall : ∀ e s, e.within ok → Settled w s →
      OwnGuar nodeName home t e s (Tracked.handle (recordMaker t.maker) e s).2 ∧
        Settled w (Tracked.handle (recordMaker t.maker) e s).2 :=
    fun e s he hs => within_guar hok he hs
  exact hp.wp (fun _ s s' _ hs hss' => hss' ▸ hs) hcall hs

/-- Calls within `ok` come before the rest. -/
theorem within_bind_wp (hok : Allows nodeName home t w ok) {p : AgentProc α} {f : α → AgentProc β}
    (hp : p.run.Calls (AgentCall.within ok)) (hs : Settled w s)
    (hf : ∀ a s, Settled w s → ownWp nodeName home t (f a) (fun _ s => Settled w s) s) :
    ownWp nodeName home t (p >>= f) (fun _ s => Settled w s) s :=
  calls_pass hp (fun _ _ he hs => within_guar hok he hs) hs hf fun _ _ hs => hs

/-- The snapshots that are collected are cloned by what is collected with them. -/
theorem cleanSnapshots_wp (hok : Allows nodeName home t w ok) (snaps : List String)
    (hs : Settled w s) :
    ownWp nodeName home t (cleanSnapshots snaps) (fun r s' => Settled w s' ∧
      (∀ n, (s'.world.mem.ds.lookup n).map (·.origin) = (s.world.mem.ds.lookup n).map (·.origin)) ∧
      ∀ cloned, r = .ok cloned → ∀ entry ∈ cloned, entry.1 ∈ snaps ∧ ∀ c ∈ entry.2,
        (s'.world.mem.ds.lookup c).map (·.origin) = some entry.1) s := by
  induction snaps generalizing s with
  | nil => exact ⟨hs, fun _ => rfl, by rintro _ ⟨⟩; simp⟩
  | cons snap rest ih =>
    have hskip : ∀ {s'}, Settled w s' →
        (∀ n, (s'.world.mem.ds.lookup n).map (·.origin) =
          (s.world.mem.ds.lookup n).map (·.origin)) →
        ownWp nodeName home t (cleanSnapshots rest) (fun r s' => Settled w s' ∧
          (∀ n, (s'.world.mem.ds.lookup n).map (·.origin) =
            (s.world.mem.ds.lookup n).map (·.origin)) ∧
          ∀ cloned, r = .ok cloned → ∀ entry ∈ cloned, entry.1 ∈ snap :: rest ∧ ∀ c ∈ entry.2,
            (s'.world.mem.ds.lookup c).map (·.origin) = some entry.1) s' := by
      intro s' hs' horigin
      refine wp_mono ?_ (ih hs')
      rintro r s'' ⟨hs'', horigin', hcloned⟩
      refine ⟨hs'', fun n => (horigin' n).trans (horigin n), fun cloned hr entry hentry => ?_⟩
      exact ⟨List.mem_cons_of_mem _ (hcloned cloned hr entry hentry).1,
        (hcloned cloned hr entry hentry).2⟩
    have hfail : ∀ msg : String, ownWp nodeName home t
        (throw (Err.other msg) : AgentProc (List (String × List String)))
        (fun r s' => Settled w s' ∧
          (∀ n, (s'.world.mem.ds.lookup n).map (·.origin) =
            (s.world.mem.ds.lookup n).map (·.origin)) ∧
          ∀ cloned, r = .ok cloned → ∀ entry ∈ cloned, entry.1 ∈ snap :: rest ∧ ∀ c ∈ entry.2,
            (s'.world.mem.ds.lookup c).map (·.origin) = some entry.1) s :=
      fun msg => ⟨hs, fun _ => rfl, fun _ h => by cases h⟩
    refine read_pass (fun _ _ => id) ownGuar_reads rfl ?_ fun msg _ => hfail msg
    simp only [World.handle]
    cases hclones : s.world.mem.clones snap with
    | error e =>
      simp only
      split_ifs
      · exact hskip hs fun _ => rfl
      · exact ⟨hs, fun _ => rfl, fun _ h => by cases h⟩
    | ok clones =>
      cases clones with
      | nil =>
        have he : (AgentCall.destroySnapshotDeferred snap).within ok := trivial
        have horigin :
            ∀ n, ((World.handle (.destroySnapshotDeferred snap) s.world).2.mem.ds.lookup n).map
            (·.origin) = (s.world.mem.ds.lookup n).map (·.origin) :=
          Mem.origin_destroySnapshotDeferred s.world.mem snap
        refine outcome_pass (fun _ _ => id) (within_guar hok he hs).1 ?_ fun msg
          _ => ⟨hs, fun _ => rfl, fun _ h => by cases h⟩
        cases (World.handle (.destroySnapshotDeferred snap) s.world).1 with
        | ok => exact hskip (within_guar hok he hs).2 horigin
        | error e => exact ⟨(within_guar hok he hs).2, horigin, fun _ h => by cases h⟩
      | cons c clones =>
        refine Proc.wp_bind (wp_mono ?_ (ih hs))
        rintro (e | others) s' ⟨hs', horigin, hcloned⟩
        · exact ⟨hs', horigin, fun _ h => by cases h⟩
        · refine ⟨hs', horigin, ?_⟩
          rintro _ ⟨⟩ entry hentry
          rcases List.mem_cons.mp hentry with rfl | hentry
          · exact ⟨List.mem_cons_self,
              fun d hd => (horigin d).trans (Mem.origin_of_mem_clones hclones hd)⟩
          · have := hcloned others rfl entry hentry
            exact ⟨List.mem_cons_of_mem _ this.1, this.2⟩

theorem promoteAway_wp (hok : Allows nodeName home t w ok) (poolGUID poolName : String) {b : String}
    (hb : ok b) {cloned : List (String × List String)} {first : String × String}
    (hcloned : ∀ cd ∈ first :: candidates cloned, ∃ x,
      (s.world.mem.ds.lookup cd.2).map (·.origin) = some (snapPath b x)) (hs : Settled w s) :
    ownWp nodeName home t (promoteAway poolGUID poolName cloned first)
      (fun _ s => Settled w s) s := by
  refine pickBacking_pass (fun _ _ => id) ownGuar_reads (fun pick hpick => ?_) fun _ _ => hs
  refine reads_pass ownGuar_reads (assertKnownDatasets_reads _ _ _ _) (fun _ => ?_) fun _ => hs
  obtain ⟨x, hx⟩ := hcloned pick hpick
  obtain ⟨hguar, hs'⟩ := promote_guar hok hb hx hs
  refine outcome_pass (fun _ _ => id) hguar ?_ fun _ _ => hs
  cases (World.handle (.promote pick.2) s.world).1 <;> exact hs'

theorem detachRounds_wp (hok : Allows nodeName home t w ok)
    (poolGUID poolName : String) {b : String}
    (hb : ok b) (rounds : Nat) (hs : Settled w s) :
    ownWp nodeName home t (detachRounds poolGUID poolName b rounds) (fun _ s => Settled w s) s := by
  induction rounds generalizing s with
  | zero => exact hs
  | succ rounds ih =>
    refine read_pass (fun _ _ => id) ownGuar_reads rfl ?_ fun _ _ => hs
    simp only [World.handle, Mem.listSnapshots]
    cases hD : s.world.mem.ds.lookup b with
    | none => exact hs
    | some D =>
      simp only
      cases hsnaps : Mem.snapNames D with
      | nil => exact hs
      | cons snap snaps =>
        simp only
        -- the snapshots are named after the dataset they are on
        have hnames : ∀ full ∈ snap :: snaps, ∃ x, full = snapPath b x := by
          rw [← hsnaps, Mem.snapNames, hs.named b D hD]
          intro full hfull
          obtain ⟨σ, _, rfl⟩ := List.mem_map.mp hfull
          exact ⟨σ.name, rfl⟩
        refine reads_pass ownGuar_reads (liftExcept_calls _) (fun _ => ?_) fun _ => hs
        refine Proc.wp_bind (wp_mono ?_ (cleanSnapshots_wp hok (snap :: snaps) hs))
        rintro (e | cloned) s' ⟨hs', _, hcloned⟩
        · exact hs'
        simp only
        split
        · exact hs'
        case h_2 first rest hcands =>
          refine Proc.wp_bind (wp_mono ?_ (promoteAway_wp hok poolGUID poolName hb ?_ hs'))
          · rintro (e | _) s'' hs''
            · exact hs''
            · exact ih hs''
          · intro cd hcd
            have hcd : cd ∈ candidates cloned := by
              rcases List.mem_cons.mp hcd with rfl | hcd
              · rw [hcands]
                exact List.mem_cons_self
              · exact hcd
            obtain ⟨entry, hentry, hcd⟩ := List.mem_flatMap.mp hcd
            obtain ⟨c, hc, rfl⟩ := List.mem_map.mp hcd
            obtain ⟨hmem, horigin⟩ := hcloned cloned rfl entry hentry
            obtain ⟨x, hx⟩ := hnames entry.1 hmem
            exact ⟨x, hx ▸ horigin c hc⟩

section Calls

open ZfsSnapshotReconciler

variable (r : ZfsSnapshotReconciler) (snap : ZfsSnapshot) (pool : ZfsPool)

theorem setSnapshotStatus_within (phase : SnapshotPhase) (ready : Bool)
    (creation : Option SnapshotTime)
    (restore : Option Nat) (reason message : String) :
    (setSnapshotStatus snap phase ready creation restore reason message).run.Calls
      (AgentCall.within ok) := by
  refine Proc.bind_calls ?_ fun _ => ask_calls trivial
  split_ifs
  · exact Proc.map_calls (ask_calls trivial)
  · simp

theorem setError_within (reason message : String) :
    (setError snap reason message).run.Calls (AgentCall.within ok) :=
  Proc.bind_calls (setSnapshotStatus_within snap _ _ _ _ _ _) fun _ => by simp

theorem ensureLabels_within {name : String} (hname : ok name ∨ (Memzfs.split name).2.2 = true)
    (role owner : String) : (ensureLabels name role owner).run.Calls (AgentCall.within ok) :=
  ensureProps_calls (fun _ => trivial) (fun _ _ => hname) _

theorem becomeReady_within {backingFull : String} (hb : ok backingFull) (rawFull : String) :
    (r.becomeReady snap rawFull backingFull).run.Calls (AgentCall.within ok) :=
  Proc.bind_calls (ensureLabels_within (.inl hb) _ _) fun _ =>
    Proc.bind_calls ((snapshotCreationTime_reads _).mono fun _ => AgentCall.Reads.within) fun _ =>
      Proc.bind_calls ((snapshotRestoreSize_reads _).mono fun _ => AgentCall.Reads.within) fun _ =>
        Proc.bind_calls (setSnapshotStatus_within snap _ _ _ _ _ _) fun _ => by simp

theorem reconcileBackingClone_within {datasetPath : String}
    (hb :
      ∀ full, datasetName pool.status.poolName (backingDataset datasetPath snap.spec.snapshotName) =
      .ok full → ok full) (rawFull : String) :
    (r.reconcileBackingClone snap pool datasetPath rawFull).run.Calls (AgentCall.within ok) := by
  unfold reconcileBackingClone
  split
  · exact setError_within snap _ _
  case h_2 backingFull hfull =>
    have hbacking := hb backingFull hfull
    split
    · exact setError_within snap _ _
    refine outcome_bind_calls trivial fun got => ?_
    cases got with
    | ok => exact becomeReady_within r snap hbacking rawFull
    | error e =>
      simp only
      split_ifs
      · refine outcome_bind_calls hbacking fun cloned => ?_
        cases cloned with
        | error e => exact setError_within snap _ _
        | ok => exact becomeReady_within r snap hbacking rawFull
      · exact setError_within snap _ _

theorem isSnap_snapshotFullName {poolName dataset snapName full : String}
    (h : snapshotFullName poolName dataset snapName = .ok full) :
    (Memzfs.split full).2.2 = true := by
  unfold snapshotFullName at h
  split_ifs at h
  obtain rfl := Except.ok.inj h
  exact isSnap_append _ _

theorem pin_within {datasetPath full : String} (hfull : (Memzfs.split full).2.2 = true)
    (hb :
      ∀ full, datasetName pool.status.poolName (backingDataset datasetPath snap.spec.snapshotName) =
      .ok full → ok full) : (r.pin snap pool datasetPath full).run.Calls (AgentCall.within ok) :=
  Proc.bind_calls (ensureLabels_within (.inr hfull) _ _) fun _ =>
    reconcileBackingClone_within r snap pool hb _

theorem provision_within {datasetPath : String} (hb : ∀ full, datasetName pool.status.poolName
      (backingDataset datasetPath snap.spec.snapshotName) = .ok full → ok full) :
    (r.provision snap pool datasetPath).run.Calls (AgentCall.within ok) := by
  unfold ZfsSnapshotReconciler.provision
  split
  · exact setError_within snap _ _
  case h_2 full hfull =>
    have hsnap := isSnap_snapshotFullName hfull
    refine outcome_bind_calls trivial fun got => ?_
    cases got with
    | ok => exact pin_within r snap pool hsnap hb
    | error e =>
      simp only
      split_ifs
      · refine Proc.bind_calls ((resolveDatasetPath_reads _ _).mono fun _ => AgentCall.Reads.within)
          fun direct => ?_
        split_ifs
        · simp
        · exact setError_within snap _ _
        · refine outcome_bind_calls trivial fun taken => ?_
          cases taken with
          | error e => exact setError_within snap _ _
          | ok => exact pin_within r snap pool hsnap hb
      · exact setError_within snap _ _

theorem reconcileSettled_within (datasetPath : String) :
    (reconcileSettled snap pool datasetPath).run.Calls (AgentCall.within ok) := by
  refine Proc.bind_calls ((locateRawSnapshot_reads _ _ _).mono fun _ => AgentCall.Reads.within)
    fun raw => ?_
  split_ifs
  · simp
  · exact Proc.bind_calls (setSnapshotStatus_within snap _ _ _ _ _ _) fun _ => by simp
  · simp
  · exact Proc.bind_calls (setSnapshotStatus_within snap _ _ _ _ _ _) fun _ => by simp

theorem releaseRaw_within (backingFull rawFull : String) :
    (releaseRaw snap backingFull rawFull).run.Calls (AgentCall.within ok) := by
  refine Proc.bind_calls ((locateRawSnapshot_reads _ _ _).mono fun _ => AgentCall.Reads.within)
    fun raw => ?_
  split_ifs
  · simp
  · exact ask_calls trivial

end Calls

theorem reconcileDelete_wp (hok : Allows nodeName home t w ok) (snap : ZfsSnapshot) (pool : ZfsPool)
    (hb : ∀ full, datasetName pool.status.poolName
      (backingDataset (sourcePath s.world snap) snap.spec.snapshotName) = .ok full → ok full)
    (hs : Settled w s) :
    ownWp nodeName home t (ZfsSnapshotReconciler.reconcileDelete snap pool)
      (fun _ s => Settled w s) s := by
  refine resolveDatasetPath_pass (fun _ _ => id) ownGuar_reads ?_ fun _ _ => hs
  refine reads_pass ownGuar_reads (liftExcept_calls _) (fun rawFull => ?_) fun _ => hs
  refine liftExcept_pass (fun backingFull hfull => ?_) fun _ _ => hs
  have hbacking := hb backingFull hfull
  refine within_bind_wp hok (releaseRaw_within snap backingFull rawFull) hs fun _ s hs => ?_
  refine Proc.wp_bind (wp_mono ?_ (detachRounds_wp hok _ _ hbacking _ hs))
  rintro (e | _) s hs
  · exact hs
  refine within_bind_wp hok (ask_calls ⟨hbacking, rfl⟩) hs fun _ s hs => ?_
  refine within_bind_wp hok ?_ hs fun _ s hs => hs
  exact releaseSnapshotFinalizer_calls _ trivial fun _ => trivial

/-- A pass of a ZfsSnapshot touches the dataset at the path of its backing clone only. -/
theorem reconcileSnapshot_owned {name : String} (ht : t.task = .snapshot name)
    (hmaker : t.maker = makerOf s.world t.task) (hcond : KeepsApart nodeName home t s)
    (hnamed : s.world.mem.Named) :
    ownWp nodeName home t (ZfsSnapshotReconciler.reconcile ⟨nodeName⟩ name)
      (fun _ _ => True) s := by
  refine read_pass (fun _ _ => id) ownGuar_reads rfl ?_ fun _ _ => trivial
  simp only [World.handle, Store.get]
  cases hsnap : s.world.snapshots.lookup name with
  | none => trivial
  | some snap =>
    simp only
    have hs : Settled s.world s := ⟨hnamed, rfl, rfl⟩
    have hok : Allows nodeName home t s.world (backingPath nodeName s.world snap = some ·) := by
      simp only [KeepsApart, ht] at hcond
      rw [ht] at hmaker
      simp only [makerOf, hsnap, Option.map_some] at hmaker
      refine ⟨fun b hb => (hcond snap b hsnap hb).1, fun b hb => ?_,
        fun b hb => (hcond snap b hsnap hb).2.2⟩
      exact ⟨_, hmaker, (hcond snap b hsnap hb).2.1⟩
    refine findPool_pass (fun _ _ => id) ownGuar_reads ?_ fun _ _ => trivial
    have hweaken :
        ∀ {p : AgentProc Result}, ownWp nodeName home t p (fun _ s' => Settled s.world s') s →
        ownWp nodeName home t p (fun _ _ => True) s := fun hp => wp_mono (fun _ _ _ => trivial) hp
    refine hweaken ?_
    cases hpool : s.world.pools.lookup (resourceName snap.spec.poolGUID) with
    | none =>
      simp only
      split_ifs
      · refine within_bind_wp hok ?_ hs fun _ s hs => hs
        exact releaseSnapshotFinalizer_calls _ trivial fun _ => trivial
      · exact hs
      · exact hs
    | some pool =>
      by_cases hhosted : hostedHere nodeName (some pool) = true
      · have hb : ∀ full, datasetName pool.status.poolName
            (backingDataset (sourcePath s.world snap) snap.spec.snapshotName) = .ok full →
            backingPath nodeName s.world snap = some full := by
          exact fun full hfull => backingPath_eq hpool hhosted rfl hfull
        simp only [hhosted, if_true]
        split_ifs
        · exact reconcileDelete_wp hok snap pool hb hs
        · exact hs
        · refine resolveDatasetPath_pass (fun _ _ => id) ownGuar_reads ?_ fun _ _ => hs
          split_ifs
          · exact within_wp hok (reconcileSettled_within snap pool _) hs
          · exact within_wp hok (provision_within _ snap pool hb) hs
        · exact within_bind_wp hok (ask_calls trivial) hs fun _ s hs => hs
      · simp only [hhosted, Bool.false_eq_true, if_false]
        split_ifs <;> exact hs

end SnapshotPass

/-! ## The pass of a ZfsDataset -/

section DatasetPass

open ZfsDatasetReconciler

variable {nodeName : String} {home : String → Option Nat} {t : Turn}
    {s : Tracked MadeBy} {w : World}
  {ok : String → Prop} {α β : Type}

theorem AgentCall.createsAt_of_plain {e : AgentCall} (he : e.creates = false) : e.createsAt ok := by
  cases e <;> trivial

theorem setStatusAt_createsAt (vol : ZfsDataset) (phase : DatasetPhase)
    (volPath reason message : String) (creation : Option Nat) :
    (setStatusAt vol phase volPath reason message creation).run.Calls (AgentCall.createsAt ok) := by
  refine Proc.bind_calls ?_ fun _ => ask_calls trivial
  split_ifs
  · exact Proc.map_calls (ask_calls trivial)
  · simp

theorem setStatus_return_createsAt (vol : ZfsDataset) (phase : DatasetPhase)
    (volPath reason message : String) (creation : Option Nat) (result : Result) :
    (do
      setStatusAt vol phase volPath reason message creation
      return result : AgentProc Result).run.Calls (AgentCall.createsAt ok) :=
  Proc.bind_calls (setStatusAt_createsAt vol _ _ _ _ _) fun _ => by simp

theorem create_createsAt (vol : ZfsDataset) (poolName : String) {full : String} (hfull : ok full) :
    (create vol poolName full).run.Calls (AgentCall.createsAt ok) := by
  have hclone : ∀ srcPath props, (cloneFromDataset vol poolName srcPath full props).run.Calls
      (AgentCall.createsAt ok) := by
    intro srcPath props
    refine Proc.bind_calls (ask_calls trivial) fun _ => Proc.bind_calls ?_ fun _ => ask_calls hfull
    exact (ensureLabels_plain _ _ _).mono fun _ h => AgentCall.createsAt_of_plain h.1
  unfold create
  split
  · unfold clone
    split
    · split_ifs
      · simp
      · exact ask_calls hfull
    · split_ifs
      · simp
      · exact hclone _ _
    · refine Proc.bind_calls ?_ fun _ => ask_calls hfull
      exact (resolveSnapshotRef_plain _ _ _).mono fun _ h => AgentCall.createsAt_of_plain h.1
    · refine outcome_bind_calls trivial fun got => ?_
      cases got with
      | error e =>
        simp only
        split_ifs <;> simp
      | ok src =>
        simp only
        split_ifs
        · simp
        · simp
        · exact hclone _ _
  · split
    · exact ask_calls hfull
    · split
      · simp
      · exact ask_calls hfull

theorem settle_createsAt (r : ZfsDatasetReconciler) (vol : ZfsDataset) (pool : ZfsPool)
    (full : String) :
    (r.settle vol pool full).run.Calls (AgentCall.createsAt ok) := by
  refine Proc.bind_calls ((ensureVolumeLabels_plain _ _).mono fun _ h =>
    AgentCall.createsAt_of_plain h.1) fun _ => ?_
  refine Proc.bind_calls (Proc.outcome_calls ((ensureSize_plain _ _).mono fun _ h =>
    AgentCall.createsAt_of_plain h.1)) fun sized => ?_
  cases sized with
  | error e => exact setStatus_return_createsAt vol _ _ _ _ _ _
  | ok =>
    simp only
    split
    · exact setStatus_return_createsAt vol _ _ _ _ _ _
    · refine Proc.bind_calls ?_ fun _ => setStatus_return_createsAt vol _ _ _ _ _ _
      split_ifs
      · exact Proc.map_calls ((snapshotCreationTime_plain _).mono fun _ h =>
          AgentCall.createsAt_of_plain h.1)
      · simp

theorem ensure_createsAt (r : ZfsDatasetReconciler) (vol : ZfsDataset) (pool : ZfsPool)
    (hfull : ∀ full, datasetName pool.status.poolName vol.spec.dataset = .ok full → ok full) :
    (r.ensure vol pool).run.Calls (AgentCall.createsAt ok) := by
  unfold ZfsDatasetReconciler.ensure
  split
  · exact setStatus_return_createsAt vol _ _ _ _ _ _
  case h_2 full hname =>
    refine outcome_bind_calls trivial fun found => ?_
    cases found with
    | ok => exact settle_createsAt r vol pool full
    | error e =>
      simp only
      split_ifs
      · unfold ZfsDatasetReconciler.provision
        split_ifs
        · exact setStatus_return_createsAt vol _ _ _ _ _ _
        · simp
        refine Proc.bind_calls (Proc.outcome_calls (create_createsAt vol _ (hfull full hname)))
          fun created => ?_
        cases created with
        | error e =>
          simp only
          split_ifs <;> exact setStatus_return_createsAt vol _ _ _ _ _ _
        | ok =>
          refine Proc.bind_calls
            (Proc.outcome_calls ((applyRootOwnership_plain _ _ _).mono fun _ h =>
            AgentCall.createsAt_of_plain h.1)) fun owned => ?_
          cases owned with
          | error e => exact setStatus_return_createsAt vol _ _ _ _ _ _
          | ok => exact settle_createsAt r vol pool full
      · exact setStatus_return_createsAt vol _ _ _ _ _ _

theorem reconcileDelete_createsAt (vol : ZfsDataset) (pool : ZfsPool) :
    (ZfsDatasetReconciler.reconcileDelete vol pool).run.Calls (AgentCall.createsAt ok) := by
  refine Proc.bind_calls (liftExcept_calls _) fun full => ?_
  refine Proc.bind_calls (Proc.outcome_calls ((beforeDestroy_plain _ _ _).mono fun _ h =>
    AgentCall.createsAt_of_plain h.1)) fun done => ?_
  cases done with
  | error e =>
    exact Proc.bind_calls (Proc.outcome_calls (setStatusAt_createsAt vol _ _ _ _ _)) fun _ => by
      simp
  | ok =>
    refine Proc.bind_calls (ask_calls trivial) fun _ => Proc.bind_calls ?_ fun _ => by simp
    exact releaseFinalizer_calls _ trivial fun _ => trivial

theorem createsAt_guar (hok : ∀ n, ok n → home n = t.maker) {name : String}
    (ht : t.task = .dataset name) {e : AgentCall} (he : e.createsAt ok) (s : Tracked MadeBy) :
    OwnGuar nodeName home t e s (Tracked.handle (recordMaker t.maker) e s).2 where
  named := named_handle he
  creates n hnone hsome := hok n (createsAt_creates he hnone hsome)
  touches name' ht' := by
    rw [ht] at ht'
    cases ht'

/-- A pass of a ZfsDataset creates a dataset at its path only. -/
theorem reconcileDataset_owned {name : String} (ht : t.task = .dataset name)
    (hmaker : t.maker = none) (hcond : KeepsApart nodeName home t s) :
    ownWp nodeName home t (ZfsDatasetReconciler.reconcile ⟨nodeName⟩ name) (fun _ _ => True) s := by
  refine read_pass (fun _ _ => id) ownGuar_reads rfl ?_ fun _ _ => trivial
  simp only [World.handle, Store.get]
  cases hvol : s.world.datasets.lookup name with
  | none => trivial
  | some vol =>
    simp only [KeepsApart, ht] at hcond
    set w := s.world
    have hok : ∀ n, datasetPath nodeName w vol = some n → home n = t.maker := by
      intro n hn
      rw [hmaker]
      exact hcond vol n hvol hn
    have hcalls : ∀ {p : AgentProc Result},
        p.run.Calls (AgentCall.createsAt (datasetPath nodeName w vol = some ·)) →
        ownWp nodeName home t p (fun _ _ => True) s := by
      intro p hp
      have hcall : ∀ e s, e.createsAt (datasetPath nodeName w vol = some ·) → True →
          OwnGuar nodeName home t e s (Tracked.handle (recordMaker t.maker) e s).2 ∧ True :=
        fun e s he _ => ⟨createsAt_guar hok ht he s, trivial⟩
      exact hp.wp (fun _ _ _ _ _ _ => trivial) hcall trivial
    simp only
    refine findPool_pass (fun _ _ => id) ownGuar_reads (hcalls ?_) fun _ _ => trivial
    cases hpool : s.world.pools.lookup (resourceName vol.spec.poolGUID) with
    | none =>
      simp only
      split_ifs
      · refine Proc.bind_calls ?_ fun _ => by simp
        exact releaseFinalizer_calls _ trivial fun _ => trivial
      · simp
      · simp
    | some pool =>
      by_cases hhosted : hostedHere nodeName (some pool) = true
      · simp only [hhosted, if_true]
        split_ifs
        · exact reconcileDelete_createsAt vol pool
        · simp
        · exact ensure_createsAt _ vol pool fun full hfull => datasetPath_eq hpool hhosted rfl hfull
        · exact Proc.bind_calls (ask_calls trivial) fun _ => by simp
      · simp only [hhosted, Bool.false_eq_true, if_false]
        split_ifs <;> simp

end DatasetPass

/-! ## Runs -/

section Runs

variable {nodeName : String} {home : String → Option Nat} {s₀ s : Tracked MadeBy}

/-- In every run that keeps to `cond`, what a pass of a ZfsSnapshot destroys, promotes others
away from or labels was created by that ZfsSnapshot as its backing clone, and is not the
dataset of an existing ZfsDataset. -/
def OwnsWhatItTouches (nodeName : String) (cond : Turn → Tracked MadeBy → Prop)
    (s₀ : Tracked MadeBy) : Prop :=
  ∀ s t name l o s', (ownedPasses nodeName).Reach cond s₀ s → t.task = .snapshot name →
    (ownedPasses nodeName).starts t s → cond t s → (ownedPasses nodeName).Pass t s l o s' →
    ∀ c ∈ l, ∀ n, Touches c.1 c.2.world.mem (World.handle c.1 c.2.world).2.mem n →
      c.2.ghost n = t.maker ∧ Unnamed nodeName c.2.world n

theorem Apart.call {t : Turn} {e : AgentCall} (h : Apart home s)
    (hguar : OwnGuar nodeName home t e s (Tracked.handle (recordMaker t.maker) e s).2) :
    Apart home (Tracked.handle (recordMaker t.maker) e s).2 where
  named := hguar.named h.named
  made n u hn hu := by
    simp only [Tracked.world_handle] at hn
    cases hold : (s.world.mem.ds.lookup n).isSome with
    | true =>
      have := h.made n u hold hu
      simp only [Tracked.handle]
      split_ifs
      · exact this
      · simp [recordMaker, hold, hn, this]
    | false =>
      have hnew := hguar.creates n (by simpa using hold) hn
      simp only [Tracked.handle]
      split_ifs with hreads
      · rw [World.handle_reads hreads, hold] at hn
        cases hn
      · simp [recordMaker, hold, hn, ← hnew, hu]

theorem Apart.request (h : Apart home s) {s' : Tracked MadeBy} (hs' : Request s.world s'.world)
    (hghost : s'.ghost = s.ghost) : Apart home s' := by
  have hmem : s'.world.mem = s.world.mem := by
    generalize s'.world = w' at hs'
    cases hs' <;> rfl
  refine ⟨hmem ▸ h.named, fun n u hn hu => ?_⟩
  rw [hghost]
  exact h.made n u (hmem ▸ hn) hu

theorem pass_owned {t : Turn} (hs : s.world.mem.Named) (hstarts : (ownedPasses nodeName).starts t s)
    (hcond : KeepsApart nodeName home t s) :
    ((ownedPasses nodeName).program t).wpAlone ((ownedPasses nodeName).handle t) AgentCall.fails
      (OwnGuar nodeName home t) (fun _ _ => True) s := by
  have hmaker : t.maker = makerOf s.world t.task := hstarts
  cases htask : t.task with
  | dataset name =>
    rw [htask] at hmaker
    simp only [ownedPasses, htask, AgentTask.program]
    exact reconcileDataset_owned htask hmaker hcond
  | snapshot name =>
    simp only [ownedPasses, htask, AgentTask.program]
    exact reconcileSnapshot_owned htask hmaker hcond hs

/-- Where every pass keeps to the paths that are set aside, and nothing is at such a path at
first, a ZfsSnapshot touches what it created itself and nothing else. -/
theorem ownership_safety (hnamed : s₀.world.mem.Named)
    (hfree : ∀ n, (s₀.world.mem.ds.lookup n).isSome → home n = none) :
    OwnsWhatItTouches nodeName (KeepsApart nodeName home) s₀ := by
  intro s t name l o s' hs htask hstarts hcond hpass c hc n hn
  have hstart : Apart home s₀ := by
    refine ⟨hnamed, fun n u hn hu => ?_⟩
    rw [hfree n hn] at hu
    cases hu
  have hrequest : ∀ s s', Apart home s → (ownedPasses nodeName).change s s' → Apart home s' :=
    fun s s' h h' => h.request h'.1 h'.2
  have hapart : Apart home s := by
    refine hs.invariant (OwnGuar nodeName home) hstart hrequest
      (fun _ _ _ h hguar => h.call hguar) ?_
    exact fun _ _ h hstarts hcond => pass_owned h.named hstarts hcond
  obtain ⟨hc', hguar⟩ := hpass.calls (fun _ _ h hguar => h.call hguar)
    (pass_owned hapart.named hstarts hcond) hapart c hc
  obtain ⟨⟨u, hmaker, hhome⟩, hunnamed⟩ := hguar.touches name htask n hn
  exact ⟨(hc'.made n u hn.1 hhome).trans hmaker.symm, hunnamed⟩

end Runs

/-! ## Paths that are shared, and paths that are not -/

section Shared

variable {cond : Turn → Tracked MadeBy → Prop} (s : Tracked MadeBy)

abbrev OwnedMove := Serial.Move (Tracked MadeBy) Turn

/-- Nothing has been created yet. -/
def tankStart : Tracked MadeBy := ⟨tankWorld, fun _ => none⟩

def createVolumeMove (name : String) : OwnedMove :=
  .change fun s => { s with world := { s.world with
      datasets := (s.world.datasets.create s.world.clock name
        { poolGUID := "1", dataset := "k8s/" ++ name } {}).2 } }

def createSnapshotMove (snapshotName : String) : OwnedMove :=
  .change fun s => { s with world := { s.world with
      snapshots := (s.world.snapshots.create s.world.clock "snap"
        { poolGUID := "1", dataset := "k8s/pvc-1", snapshotName, sourceVolume := "pvc-1"
          sourceType := some .filesystem } {}).2 } }

def deleteSnapshotMove : OwnedMove :=
  .change
    fun s => { s with world := { s.world with snapshots := (s.world.snapshots.delete "snap").2 } }

/-- A pass of a volume. -/
def volumePass (name : String) : OwnedMove := .pass ⟨.dataset name, none⟩

/-- A pass of the ZfsSnapshot. -/
def snapshotTurn : Turn := ⟨.snapshot "snap", some 1⟩

/-- Two volumes are provisioned, a ZfsSnapshot of the first becomes Ready, and it is deleted. -/
def deletingMoves (snapshotName : String) : List OwnedMove :=
  [createVolumeMove "pvc-1", volumePass "pvc-1", volumePass "pvc-1", createVolumeMove "pvc-2",
    volumePass "pvc-2", volumePass "pvc-2", createSnapshotMove snapshotName, .pass snapshotTurn,
    .pass snapshotTurn, deleteSnapshotMove]

/-- The state in which the ZfsSnapshot is torn down. -/
def deleting (snapshotName : String) : Tracked MadeBy :=
  (deletingMoves snapshotName).foldl (ownedPasses "node-a").make tankStart

theorem createVolumeMove_legal (name : String) :
    (createVolumeMove name).Legal (ownedPasses "node-a") cond s := ⟨.createDataset _ _ _, rfl⟩

theorem createSnapshotMove_legal (snapshotName : String) :
    (createSnapshotMove snapshotName).Legal (ownedPasses "node-a") cond s :=
      ⟨.createSnapshot _ _ _, rfl⟩

theorem deleteSnapshotMove_legal : deleteSnapshotMove.Legal (ownedPasses "node-a") cond s :=
  ⟨.deleteSnapshot _ _, rfl⟩

theorem tankWorld_named : tankWorld.mem.Named := by
  refine Mem.Named.create ?_ _ _ _ _
  intro n D hD
  simp only [Mem.new, List.map_cons, List.map_nil, FinMap.ofList, FinMap.contains_eq,
    FinMap.lookup_empty, Option.isSome_none, Bool.false_eq_true, if_false,
      FinMap.lookup_insert] at hD
  split_ifs at hD with hn
  rw [← Option.some_inj.mp hD, hn]

/-- The call destroys a dataset that was made by `maker`. -/
def destroysMadeBy (maker : Option Nat) (c : AgentCall × Tracked MadeBy) : Bool :=
  match c.1 with
  | .destroy n false => (c.2.world.mem.ds.lookup n).isSome &&
      ((World.handle (.destroy n false) c.2.world).2.mem.ds.lookup n).isNone && c.2.ghost n = maker
  | _ => false

/-- The path of the backing clone is set aside for the ZfsSnapshot. -/
def sampleHome (n : String) : Option Nat := if n = "tank/k8s/csi-snap-1" then some 1 else none

/-- A ZfsSnapshot with a name of its own destroys the backing clone it made. -/
theorem ownership_safety_sample :
    OwnsWhatItTouches "node-a" (KeepsApart "node-a" sampleHome) tankStart ∧
      (ownedPasses "node-a").Reach (KeepsApart "node-a" sampleHome) tankStart
        (deleting "csi-snap-1") ∧
      (((ownedPasses "node-a").program snapshotTurn).trace
        ((ownedPasses "node-a").handle snapshotTurn)
        (deleting "csi-snap-1")).any (destroysMadeBy (some 1)) = true := by
  refine ⟨ownership_safety tankWorld_named fun n hn => ?_, ?_, by decide +kernel⟩
  · refine if_neg ?_
    rintro rfl
    revert hn
    decide +kernel
  · refine Serial.Reach.start.play (deletingMoves "csi-snap-1") ⟨createVolumeMove_legal _ _, ?_⟩
    refine ⟨⟨rfl, ?_⟩, ⟨rfl, ?_⟩, createVolumeMove_legal _ _, ⟨rfl, ?_⟩, ⟨rfl, ?_⟩,
      createSnapshotMove_legal _ _, ⟨?_, ?_⟩, ⟨?_, ?_⟩, deleteSnapshotMove_legal _, trivial⟩ <;>
      decide +kernel

/-- A ZfsSnapshot that is named like another volume destroys the dataset of that volume. -/
theorem collision_destroys_volume : ¬ ∀ (nodeName : String) (s₀ : Tracked MadeBy),
    s₀.world.mem.Named → OwnsWhatItTouches nodeName (fun _ _ => True) s₀ := by
  intro hclaim
  let S := ownedPasses "node-a"
  have hreach : S.Reach (fun _ _ => True) tankStart (deleting "pvc-2") := by
    refine Serial.Reach.start.play (deletingMoves "pvc-2") ⟨createVolumeMove_legal _ _, ?_⟩
    refine ⟨⟨rfl, trivial⟩, ⟨rfl, trivial⟩, createVolumeMove_legal _ _, ⟨rfl, trivial⟩,
      ⟨rfl, trivial⟩,
      createSnapshotMove_legal _ _, ⟨?_, trivial⟩, ⟨?_, trivial⟩, deleteSnapshotMove_legal
        _, trivial⟩ <;>
      decide +kernel
  have hany : ((S.program snapshotTurn).trace (S.handle snapshotTurn) (deleting "pvc-2")).any
      (destroysMadeBy none) = true := by
    decide +kernel
  obtain ⟨⟨e, s⟩, hc, hdestroys⟩ := List.any_eq_true.mp hany
  cases e with
  | destroy n recursive =>
    cases recursive with
    | true => cases hdestroys
    | false =>
      simp only [destroysMadeBy, Bool.and_eq_true, decide_eq_true_eq] at hdestroys
      obtain ⟨⟨hsome, hnone⟩, hghost⟩ := hdestroys
      have hstarts : S.starts snapshotTurn (deleting "pvc-2") := by decide +kernel
      have := hclaim "node-a" tankStart tankWorld_named (deleting "pvc-2") snapshotTurn "snap" _ _ _
        hreach rfl hstarts trivial
        (Runs.exec (fun _ _ => rfl) _ _) ⟨_, s⟩ hc n ⟨hsome, .inl hnone⟩
      rw [hghost] at this
      cases this.1
  | _ => cases hdestroys

end Shared

end SimpleZfsCsi.Agent
