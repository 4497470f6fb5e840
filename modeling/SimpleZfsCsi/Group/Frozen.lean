import SimpleZfsCsi.Agent.Frozen
import SimpleZfsCsi.Group.Reconcile

/-!
# provisionedAt freezes a group

Every node runs an agent, which is routed by a cache of its own that may lag behind by any number
of versions; but before it creates anything it reads the group from the API server. As long as no
two nodes provision a group at once, only one worker writes its status, so what that read found
missing stays missing until the worker sets it: neither `provisionedAt` nor `creationTime` is ever
written over, and nothing is created for a group that has been provisioned. No condition on the
caches is needed.
-/

namespace SimpleZfsCsi.Group

open Library Api Agent Program Concurrent

/-! ## Groups behind caches -/

/-- The agent of a node, and one of its groups. -/
abbrev GroupWorker := String × String

structure CachedGroups where
  site : CachedWorld
  groups : Store ZfsGroupSnapshotSpec ZfsGroupSnapshotStatus
  /-- the copies that the agent of each node holds -/
  copies : String → Informer String ZfsGroupSnapshot
  /-- the node whose pass has read the group from the API server, to provision it, while it is
  under way; no answer depends on it -/
  provisioner : String → Option String := fun _ => none

namespace CachedGroups

/-- Write the groups, and tell the caches of the new version of `name` if there is one. -/
def writeGroups (s : CachedGroups) (name : String)
    (st : Store ZfsGroupSnapshotSpec ZfsGroupSnapshotStatus) : CachedGroups :=
  { s with
    groups := st
    copies := if st.revision = s.groups.revision then s.copies
      else fun node => (s.copies node).notify name (st.lookup name) }

/-- Answer a call of the agent of a node. -/
def answer (node : String) : (e : GroupCall) → CachedGroups → e.Ret × CachedGroups
  | .agent e, s => ((CachedWorld.answer node e s.site).1,
      { s with site := (CachedWorld.answer node e s.site).2 })
  | .readDataset name, s => (s.site.world.datasets.get name, s)
  | .readSnapshot name, s => (s.site.world.snapshots.get name, s)
  | .getGroup name, s => (CachedWorld.copy (s.copies node) name, s)
  | .readGroup name, s => (s.groups.get name, s)
  | .createSnapshot name spec, s =>
    let r := s.site.world.snapshots.create s.site.world.clock name spec {}
    (r.1, { s with site := s.site.writeSnapshots name r.2 })
  | .deleteSnapshot name, s =>
    let r := s.site.world.snapshots.delete name
    (r.1, { s with site := s.site.writeSnapshots name r.2 })
  | .updateGroup o, s =>
    let r := s.groups.update o
    (r.1, s.writeGroups o.name r.2)
  | .patchGroupStatus name read patched, s =>
    let r := patchGroup s.groups name read patched
    (r.1, s.writeGroups name r.2)

/-- A pass reads its group from the API server, and goes on to provision it. -/
def enters (s : CachedGroups) (i : GroupWorker) : GroupCall → Bool
  | .readGroup name => name = i.2 && (s.groups.lookup name).any fun grp =>
      !grp.metadata.terminating && grp.status.provisionedAt = none
  | _ => false

/-- Note what a pass is about to read. -/
def note (s : CachedGroups) (i : GroupWorker) (e : GroupCall) : CachedGroups :=
  { s with provisioner := if s.enters i e then Function.update s.provisioner i.2 (some i.1)
      else s.provisioner }

@[simp] theorem note_groups (s : CachedGroups) (i : GroupWorker) (e : GroupCall) :
    (s.note i e).groups = s.groups := rfl

@[simp] theorem note_copies (s : CachedGroups) (i : GroupWorker) (e : GroupCall) :
    (s.note i e).copies = s.copies := rfl

theorem note_provisioner (s : CachedGroups) (i : GroupWorker) (e : GroupCall)
    (h : s.enters i e = true) : (s.note i e).provisioner i.2 = some i.1 := by
  simp [note, h]

/-- Answer a call of a worker. -/
def handle (i : GroupWorker) (e : GroupCall) (s : CachedGroups) : e.Ret × CachedGroups :=
  answer i.1 e (s.note i e)

/-- The pass of a worker is over. -/
def finish (i : GroupWorker) (s : CachedGroups) : CachedGroups :=
  { s with provisioner := if s.provisioner i.2 = some i.1 then
    Function.update s.provisioner i.2 none
      else s.provisioner }

end CachedGroups

/-- What others do: copies arrive, groups are created, updated and deleted, and everything else
changes in any way. -/
inductive Elsewhere : CachedGroups → CachedGroups → Prop where
  | deliver (s : CachedGroups) (node name : String) :
      Elsewhere s { s with
        copies := Function.update s.copies node ((s.copies node).deliver name) }
  | create (s : CachedGroups) (now : Nat) (name : String) (spec : ZfsGroupSnapshotSpec) :
      Elsewhere s (s.writeGroups name (s.groups.create now name spec {}).2)
  | update (s : CachedGroups) (o : ZfsGroupSnapshot) :
      Elsewhere s (s.writeGroups o.name (s.groups.update o).2)
  | delete (s : CachedGroups) (name : String) :
      Elsewhere s (s.writeGroups name (s.groups.delete name).2)
  | site (s : CachedGroups) (site : CachedWorld) : Elsewhere s { s with site }

/-- The agents of all nodes: at each node one worker for each group. -/
def cachedGroups :
    System CachedGroups GroupWorker GroupWorker GroupCall GroupCall.Ret (Except Err Result) where
  handle := CachedGroups.handle
  fails := GroupCall.fails
  program i := (ZfsGroupSnapshotReconciler.reconcile ⟨i.1⟩ i.2).run
  takes i t := i = t
  starts _ _ := True
  finish i _ s := s.finish i
  env := Elsewhere

abbrev GroupConfig :=
  Config CachedGroups GroupWorker GroupWorker GroupCall GroupCall.Ret (Except Err Result)

/-! ## Stamps -/

/-- `provisionedAt` of a group, and its `creationTime`. -/
abbrev groupStamp (s : ZfsGroupSnapshotStatus) : Option Nat := s.provisionedAt

abbrev groupTime (s : ZfsGroupSnapshotStatus) : Option Nat := s.creationTime

/-- Every group, and every copy of it, is kept under its own name. -/
structure NamedGroups (s : CachedGroups) : Prop where
  groups : Named s.groups
  copies : ∀ node name o, some o ∈ (s.copies node).versions name → o.name = name

/-- The calls that take snapshots and create members. -/
def GroupCall.creates : GroupCall → Bool
  | .agent e => e.creates
  | .createSnapshot _ _ => true
  | _ => false

/-- A status patch that writes a `provisionedAt`. -/
def GroupCall.stamps : GroupCall → Bool
  | .patchGroupStatus _ read patched => read.provisionedAt ≠ patched.provisionedAt
  | _ => false

/-- A status patch that writes a `creationTime`. -/
def GroupCall.times : GroupCall → Bool
  | .patchGroupStatus _ read patched => read.creationTime ≠ patched.creationTime
  | _ => false

/-- The calls that create nothing, and write neither. -/
abbrev GroupCall.Frozen (e : GroupCall) : Prop :=
  e.creates = false ∧ e.stamps = false ∧ e.times = false

/-- The calls that write no status. -/
def GroupCall.silent : GroupCall → Bool
  | .patchGroupStatus _ _ _ => false
  | _ => true

abbrev GroupCall.Silent (e : GroupCall) : Prop := e.silent = true

/-- No `provisionedAt` and no `creationTime` is written. -/
structure SteadyGroups (s t : CachedGroups) : Prop where
  named : NamedGroups s → NamedGroups t
  stamps : Steady groupStamp s.groups t.groups
  times : Steady groupTime s.groups t.groups

section Steady

variable {s : CachedGroups} {name : String}

theorem NamedGroups.writeGroups {st : Store ZfsGroupSnapshotSpec ZfsGroupSnapshotStatus}
    (h : NamedGroups s)
    (hst : Named st) : NamedGroups (s.writeGroups name st) :=
  ⟨hst, named_notify hst h.copies⟩

theorem SteadyGroups.same (site : CachedWorld) : SteadyGroups s { s with site } :=
  ⟨fun h => ⟨h.groups, h.copies⟩, .refl _, .refl _⟩

theorem SteadyGroups.writeGroups {st : Store ZfsGroupSnapshotSpec ZfsGroupSnapshotStatus}
    (hstamp : Steady groupStamp s.groups st) (htime : Steady groupTime s.groups st) :
    SteadyGroups s (s.writeGroups name st) :=
  ⟨fun h => h.writeGroups (hstamp.named h.groups), hstamp, htime⟩

/-- What others do writes neither. -/
theorem Elsewhere.steady {t : CachedGroups} (h : Elsewhere s t) : SteadyGroups s t := by
  cases h with
  | deliver node name =>
    refine ⟨fun h => ⟨h.groups, fun n k o ho => ?_⟩, .refl _, .refl _⟩
    exact h.copies n k o ((versions_delivered _ _ _ _ _).subset ho)
  | create now name spec => exact .writeGroups (Steady.create rfl _ _) (Steady.create rfl _ _)
  | update o => exact .writeGroups (Steady.update _ _) (Steady.update _ _)
  | delete name => exact .writeGroups Steady.delete Steady.delete
  | site site => exact .same site

theorem answer_steady {e : GroupCall} (hstamps : e.stamps = false) (htimes : e.times = false)
    (node : String) (s : CachedGroups) : SteadyGroups s (CachedGroups.answer node e s).2 := by
  cases e with
  | updateGroup o => exact .writeGroups (Steady.update _ _) (Steady.update _ _)
  | patchGroupStatus name read patched =>
    have hstamp : read.provisionedAt = patched.provisionedAt := by
      simpa [GroupCall.stamps] using hstamps
    have htime : read.creationTime = patched.creationTime := by simpa [GroupCall.times] using htimes
    simp only [CachedGroups.answer, patchGroup_store]
    exact .writeGroups (Steady.patchStatus fun cur => by simp [mergeStatus, mergeField, hstamp])
      (Steady.patchStatus fun cur => by simp [mergeStatus, mergeField, htime])
  | _ => exact .same _

theorem note_steady (i : GroupWorker) (e : GroupCall) (s : CachedGroups) :
    SteadyGroups s (s.note i e) := ⟨fun h => ⟨h.groups, h.copies⟩, .refl _, .refl _⟩

theorem handle_steady {e : GroupCall} (hstamps : e.stamps = false) (htimes : e.times = false)
    (i : GroupWorker) (s : CachedGroups) : SteadyGroups s (CachedGroups.handle i e s).2 :=
  have h := answer_steady hstamps htimes i.1 (s.note i e)
  ⟨fun hs => h.named ((note_steady i e s).named hs), h.stamps, h.times⟩

theorem finish_steady (i : GroupWorker) (s : CachedGroups) : SteadyGroups s (s.finish i) :=
  ⟨fun h => ⟨h.groups, h.copies⟩, .refl _, .refl _⟩

theorem answer_provisioner (node : String) (e : GroupCall) (s : CachedGroups) :
    (CachedGroups.answer node e s).2.provisioner = s.provisioner := by
  cases e <;> rfl

end Steady

/-! ## A pass and the others -/

/-- A pass sets out to provision a group while another node is at it. -/
def Late (i : GroupWorker) (e : GroupCall) (s : CachedGroups) : Prop :=
  s.enters i e = true ∧ (s.provisioner i.2).any (· ≠ i.1) = true

instance (i : GroupWorker) (e : GroupCall) (s : CachedGroups) : Decidable (Late i e s) :=
  inferInstanceAs (Decidable (_ ∧ _))

/-- No two nodes provision a group at once. -/
def Alone (c : GroupConfig) (i : GroupWorker) (e : GroupCall) : Prop := ¬ Late i e c.shared

instance (c : GroupConfig) (i : GroupWorker) (e : GroupCall) : Decidable (Alone c i e) :=
  inferInstanceAs (Decidable (¬ _))

theorem alone_of_writes {e : GroupCall} (he : e.creates = true ∨ e.times = true) (c : GroupConfig)
    (i : GroupWorker) : Alone c i e := by
  rintro ⟨henters, _⟩
  cases e with
  | readGroup name => rcases he with he | he <;> cases he
  | _ => cases henters

/-- Answer a call, but not one that sets out to provision a group twice. -/
def aloneHandle (i : GroupWorker) (e : GroupCall) (s : CachedGroups) : e.Ret × CachedGroups :=
  if Late i e s then (.error (.other "two provision"), s) else CachedGroups.handle i e s

/-- The others leave alone a group that a pass provisions. -/
structure FreezeRely (i : GroupWorker) (s t : CachedGroups) : Prop where
  named : NamedGroups s → NamedGroups t
  provisioner : s.provisioner i.2 = some i.1 → t.provisioner i.2 = some i.1
  unstamped : s.provisioner i.2 = some i.1 → Unstamped groupStamp s.groups i.2 →
    Unstamped groupStamp t.groups i.2
  untimed : s.provisioner i.2 = some i.1 → Unstamped groupTime s.groups i.2 →
    Unstamped groupTime t.groups i.2

theorem FreezeRely.refl (i : GroupWorker) (s : CachedGroups) : FreezeRely i s s :=
  ⟨id, id, fun _ => id, fun _ => id⟩

theorem FreezeRely.trans {i : GroupWorker} {s t u : CachedGroups} (h : FreezeRely i s t)
    (h' : FreezeRely i t u) : FreezeRely i s u :=
  ⟨h'.named ∘ h.named, h'.provisioner ∘ h.provisioner,
    fun hs => h'.unstamped (h.provisioner hs) ∘ h.unstamped hs,
    fun hs => h'.untimed (h.provisioner hs) ∘ h.untimed hs⟩

def freezeRely (i : GroupWorker) (_ : GroupCall) (s t : CachedGroups) : Prop := FreezeRely i s t

/-- What a call of a pass guarantees. -/
structure FreezeGuar (i : GroupWorker) (e : GroupCall) (s t : CachedGroups) : Prop where
  named : NamedGroups s → NamedGroups t
  creates : e.creates = true ∨ e.times = true → Unstamped groupStamp s.groups i.2
  stamps : Keeps groupStamp s.groups t.groups
  times : Keeps groupTime s.groups t.groups
  /-- only the node that provisions a group writes these -/
  others : ∀ n, n ≠ i.2 ∨ s.provisioner i.2 ≠ some i.1 →
    (Unstamped groupStamp s.groups n → Unstamped groupStamp t.groups n) ∧
    (Unstamped groupTime s.groups n → Unstamped groupTime t.groups n)
  provisioner : ∀ j : GroupWorker, j ≠ i → s.provisioner j.2 = some j.1 →
    t.provisioner j.2 = some j.1

/-- A call of one worker is within what another relies on. -/
theorem FreezeGuar.rely {i j : GroupWorker} {e : GroupCall} {s t : CachedGroups}
    (h : FreezeGuar i e s t) (hj : j ≠ i) : FreezeRely j s t := by
  have hothers : s.provisioner j.2 = some j.1 → j.2 ≠ i.2 ∨ s.provisioner i.2 ≠ some i.1 := by
    intro hprovisioner
    by_cases hname : j.2 = i.2
    · refine .inr fun hself => hj (Prod.ext ?_ hname)
      rw [hname, hself] at hprovisioner
      exact (Option.some_inj.mp hprovisioner).symm
    · exact .inl hname
  exact ⟨h.named, h.provisioner j hj, fun hs => (h.others _ (hothers hs)).1,
    fun hs => (h.others _ (hothers hs)).2⟩

abbrev freezeWp {α : Type} (i : GroupWorker) (p : GroupProc α)
    (Q : Except Err α → CachedGroups → Prop) (s : CachedGroups) : Prop :=
  p.run.wp (aloneHandle i) GroupCall.fails (freezeRely i) (FreezeGuar i) Q s

/-- What a pass knows of its group from the direct read until it writes `provisionedAt`. -/
structure Open (node : String) (grp : ZfsGroupSnapshot) (s : CachedGroups) : Prop where
  named : NamedGroups s
  provisioner : s.provisioner grp.name = some node
  unstamped : Unstamped groupStamp s.groups grp.name
  untimed : grp.status.creationTime = none → Unstamped groupTime s.groups grp.name

section Wp

variable {node : String} {i : GroupWorker} {grp : ZfsGroupSnapshot} {s t : CachedGroups}
  {e : GroupCall} {α β : Type}

theorem aloneHandle_eq (h : ¬ Late i e s) : aloneHandle i e s =
    CachedGroups.handle i e s := if_neg h

/-- A worker that takes over from nobody leaves the others provisioning. -/
theorem handle_provisioner (he : ¬ Late i e s) {j : GroupWorker} (hj : j ≠ i)
    (hprovisioner : s.provisioner j.2 = some j.1) :
    (CachedGroups.handle i e s).2.provisioner j.2 = some j.1 := by
  rw [CachedGroups.handle, answer_provisioner]
  simp only [CachedGroups.note]
  split_ifs with henters
  · by_cases hname : j.2 = i.2
    · refine absurd ⟨henters, ?_⟩ he
      rw [← hname, hprovisioner]
      exact decide_eq_true fun hnode => hj (Prod.ext hnode hname)
    · rwa [Function.update_of_ne hname]
  · exact hprovisioner

/-- A worker that provisions its group stays the one that does. -/
theorem handle_provisioner_self (hprovisioner : s.provisioner i.2 = some i.1) :
    (CachedGroups.handle i e s).2.provisioner i.2 = some i.1 := by
  rw [CachedGroups.handle, answer_provisioner]
  simp only [CachedGroups.note]
  split_ifs
  · simp
  · exact hprovisioner

theorem aloneHandle_steady (hstamps : e.stamps = false) (htimes : e.times = false)
    (s : CachedGroups) : SteadyGroups s (aloneHandle i e s).2 := by
  unfold aloneHandle
  split_ifs
  · exact ⟨id, .refl _, .refl _⟩
  · exact handle_steady hstamps htimes i s

/-- A call that writes neither. -/
theorem steady_guar (hstamps : e.stamps = false) (htimes : e.times = false)
    (hcreates : e.creates = true ∨ e.times = true → Unstamped groupStamp s.groups i.2) :
    FreezeGuar i e s (aloneHandle i e s).2 := by
  have h : SteadyGroups s (aloneHandle i e s).2 := aloneHandle_steady hstamps htimes s
  refine ⟨h.named, hcreates, h.stamps.keeps, h.times.keeps,
    fun _ _ => ⟨h.stamps.unstamped, h.times.unstamped⟩, fun j hj hprovisioner => ?_⟩
  unfold aloneHandle
  split_ifs with hlate
  · exact hprovisioner
  · exact handle_provisioner hlate hj hprovisioner

theorem Open.rely (hs : Open node grp s) (ht : FreezeRely (node, grp.name) s t) : Open node grp t :=
  ⟨ht.named hs.named, ht.provisioner hs.provisioner, ht.unstamped hs.provisioner hs.unstamped,
    fun h => ht.untimed hs.provisioner (hs.untimed h)⟩

/-- What creates nothing and writes neither. -/
theorem frozen_wp {p : GroupProc α} (hp : p.run.Calls GroupCall.Frozen) (s : CachedGroups) :
    freezeWp i p (fun _ _ => True) s := by
  refine hp.wp (fun _ _ _ _ _ _ => trivial) (fun e t he _ => ⟨?_, trivial⟩) trivial
  refine steady_guar he.2.1 he.2.2 fun h => ?_
  rw [he.1, he.2.2] at h
  simp at h

/-- What writes no status leaves the group open. -/
theorem open_wp {p : GroupProc α} (hp : p.run.Calls GroupCall.Silent) (hs : Open node grp s) :
    freezeWp (node, grp.name) p (fun _ t => Open node grp t) s := by
  refine hp.wp (fun _ _ _ _ hs ht => hs.rely ht) (fun e t he ht => ?_) hs
  have hstamps : e.stamps = false := by cases e <;> first | rfl | cases he
  have htimes : e.times = false := by cases e <;> first | rfl | cases he
  have hsteady : SteadyGroups t (aloneHandle (node, grp.name) e t).2 :=
    aloneHandle_steady hstamps htimes t
  refine ⟨steady_guar hstamps htimes fun _ => ht.unstamped, hsteady.named ht.named, ?_,
    hsteady.stamps.unstamped ht.unstamped, fun h => hsteady.times.unstamped (ht.untimed h)⟩
  unfold aloneHandle
  split_ifs
  · exact ht.provisioner
  · exact handle_provisioner_self ht.provisioner

theorem open_bind_wp {p : GroupProc α} {f : α → GroupProc β} (hp : p.run.Calls GroupCall.Silent)
    (hs : Open node grp s)
    (hf : ∀ a t, Open node grp t → freezeWp (node, grp.name) (f a) (fun _ _ => True) t) :
    freezeWp (node, grp.name) (p >>= f) (fun _ _ => True) s := by
  refine Proc.wp_bind (wp_mono ?_ (open_wp hp hs))
  rintro (e | a) t ht
  · trivial
  · exact hf a t ht

end Wp

/-! ## Which calls the reconciler can make -/

section Calls

open ZfsGroupSnapshotReconciler

variable {P : GroupCall → Prop} {α : Type}

theorem ask_calls {e : GroupCall} (he : P e) : (ask e).run.Calls P := by
  simp [ask, he]

theorem outcome_bind_calls {e : GroupCall} {f : Except Err e.Val → GroupProc α} (he : P e)
    (hf : ∀ r, (f r).run.Calls P) : ((ask e).outcome >>= f).run.Calls P :=
  Proc.bind_calls (Proc.outcome_calls (ask_calls he)) hf

/-- The reads of a reader. -/
def GroupCall.looks : GroupCall → Bool
  | .agent e => e.reads
  | .readDataset _ | .readSnapshot _ | .getGroup _ | .readGroup _ => true
  | _ => false

abbrev GroupCall.Looks (e : GroupCall) : Prop := e.looks = true

theorem GroupCall.Looks.frozen {e : GroupCall} (he : e.Looks) : e.Frozen := by
  cases e with
  | agent e => exact ⟨(AgentCall.Reads.plain he).1, rfl, rfl⟩
  | readDataset | readSnapshot | getGroup | readGroup => exact ⟨rfl, rfl, rfl⟩
  | createSnapshot | deleteSnapshot | updateGroup | patchGroupStatus => cases he

theorem GroupCall.Looks.silent {e : GroupCall} (he : e.Looks) : e.Silent := by
  cases e <;> first | rfl | cases he

theorem shared_looks {reader : Reader} {p : AgentProc α} (hp : p.run.Calls AgentCall.Reads) :
    (shared reader p).run.Calls GroupCall.Looks := by
  refine Calls.expand hp fun e he => ?_
  cases reader with
  | cache => exact ⟨he, fun _ => trivial⟩
  | gate =>
    cases e with
    | getDataset name => exact ⟨rfl, fun _ => trivial⟩
    | getSnapshot name => exact ⟨rfl, fun _ => trivial⟩
    | _ => exact ⟨he, fun _ => trivial⟩

theorem memberRaw_looks (reader : Reader) (poolName : String) (m : ZfsGroupSnapshotMember) :
    (memberRaw reader poolName m).run.Calls GroupCall.Looks :=
  Proc.bind_calls (shared_looks (resolveDatasetPath_reads _ _)) fun _ =>
    Proc.bind_calls (liftExcept_calls _) fun _ => Proc.bind_calls (liftExcept_calls _) fun _ => by
      simp

theorem existsName_looks (name : String) : (existsName name).run.Calls GroupCall.Looks :=
  shared_looks (existsZFS_reads name)

theorem survey_looks (poolName : String) (members : List ZfsGroupSnapshotMember) :
    (survey poolName members).run.Calls GroupCall.Looks := by
  induction members with
  | nil => simp [survey]
  | cons m rest ih =>
    refine Proc.bind_calls (Proc.outcome_calls (memberRaw_looks _ _ _)) fun names => ?_
    cases names with
    | error e => simp
    | ok names =>
      refine Proc.bind_calls (existsName_looks _) fun found => Proc.bind_calls ih fun others => ?_
      rcases others with e | ⟨others, present⟩ <;> simp

theorem sourceMissing_looks (m : ZfsGroupSnapshotMember) (datasetFull : String) :
    (sourceMissing m datasetFull).run.Calls GroupCall.Looks := by
  refine Proc.bind_calls (existsName_looks _) fun found => ?_
  cases found <;> simp

theorem firstBlocker_looks (members : List (ZfsGroupSnapshotMember × String)) :
    (firstBlocker members).run.Calls GroupCall.Looks := by
  induction members with
  | nil => simp [firstBlocker]
  | cons m rest ih =>
    obtain ⟨m, datasetFull⟩ := m
    refine Proc.bind_calls (outcome_bind_calls rfl fun src => ?_) fun msg => ?_
    · cases src with
      | error e =>
        simp only
        split_ifs
        · exact sourceMissing_looks _ _
        · simp
      | ok src =>
        simp only
        split_ifs
        · simp
        · exact sourceMissing_looks _ _
    · split_ifs
      · simp
      · exact ih

theorem inspect_looks (members : List ZfsGroupSnapshotMember) (found : Members) :
    (inspect members found).run.Calls GroupCall.Looks := by
  induction members generalizing found with
  | nil => simp [inspect]
  | cons m rest ih =>
    refine outcome_bind_calls rfl fun child => ?_
    cases child with
    | error e =>
      simp only
      split_ifs
      · exact ih _
      · simp
    | ok child =>
      simp only
      split_ifs <;> exact ih _

theorem createChildren_silent (grp : ZfsGroupSnapshot) (members : List ZfsGroupSnapshotMember) :
    (createChildren grp members).run.Calls GroupCall.Silent := by
  induction members with
  | nil => simp [createChildren]
  | cons m rest ih =>
    refine outcome_bind_calls rfl fun created => ?_
    cases created with
    | ok => exact ih
    | error e => cases e <;> first | exact ih | simp

/-- A status that is not the first Ready writes neither. -/
theorem setStatus_frozen {grp : ZfsGroupSnapshot} {phase : GroupSnapshotPhase}
    (h : grp.status.provisionedAt ≠ none ∨ phase ≠ .ready) (reason message : String) :
    (setStatus grp phase reason message).run.Calls GroupCall.Frozen := by
  have hnot : ¬ (phase = .ready ∧ grp.status.provisionedAt = none) := by
    rintro ⟨hphase, hnone⟩
    rcases h with h | h
    · exact h hnone
    · exact h hphase
  unfold setStatus patchStatus
  rw [if_neg hnot, Proc.run_bind, Proc.run_pure, Program.pure_bind]
  refine Proc.bind_calls ?_ fun _ => by simp
  split_ifs
  · simp
  · exact Proc.bind_calls (ask_calls ⟨rfl, by simp [GroupCall.stamps], by simp [GroupCall.times]⟩)
      fun _ => by simp

theorem settle_frozen {grp : ZfsGroupSnapshot} {phase : GroupSnapshotPhase}
    (h : grp.status.provisionedAt ≠ none ∨ phase ≠ .ready) (reason message : String)
    (result : Result) :
    (settle grp phase reason message result).run.Calls GroupCall.Frozen :=
  Proc.bind_calls (setStatus_frozen h _ _) fun _ => by simp

theorem observe_frozen {grp : ZfsGroupSnapshot} (h : grp.status.provisionedAt ≠ none) :
    (observe grp).run.Calls GroupCall.Frozen := by
  refine Proc.bind_calls ((inspect_looks _ _).mono fun _ => GroupCall.Looks.frozen) fun found => ?_
  split_ifs <;> exact settle_frozen (.inl h) _ _ _

theorem dropRaw_frozen (grp : ZfsGroupSnapshot) (poolHere : Option String)
    (m : ZfsGroupSnapshotMember) :
    (dropRaw grp poolHere m).run.Calls GroupCall.Frozen := by
  unfold dropRaw
  split_ifs
  · simp
  · cases poolHere with
    | none => simp
    | some poolName =>
      exact Proc.bind_calls
        ((memberRaw_looks _ _ _).mono fun _ => GroupCall.Looks.frozen) fun names =>
        ask_calls ⟨rfl, rfl, rfl⟩

theorem deleteMembers_frozen (grp : ZfsGroupSnapshot) (poolHere : Option String)
    (members : List ZfsGroupSnapshotMember) (remaining : Nat) :
    (deleteMembers grp poolHere members remaining).run.Calls GroupCall.Frozen := by
  induction members generalizing remaining with
  | nil => simp [deleteMembers]
  | cons m rest ih =>
    refine outcome_bind_calls ⟨rfl, rfl, rfl⟩ fun child => ?_
    cases child with
    | ok child =>
      simp only
      split_ifs
      · exact ih _
      · refine outcome_bind_calls ⟨rfl, rfl, rfl⟩ fun deleted => ?_
        cases deleted with
        | ok => exact ih _
        | error e =>
          simp only
          split_ifs
          · exact ih _
          · simp
    | error e =>
      simp only
      split_ifs
      · exact Proc.bind_calls (dropRaw_frozen _ _ _) fun _ => ih _
      · simp

theorem releaseFinalizer_calls (grp : ZfsGroupSnapshot) (hget : P (.getGroup grp.name))
    (hupdate : ∀ o, P (.updateGroup o)) : (releaseFinalizer grp).run.Calls P := by
  refine retryOnConflict_calls (outcome_bind_calls hget fun r => ?_) _
  cases r with
  | error e =>
    simp only
    split_ifs <;> simp
  | ok cur =>
    simp only
    split_ifs
    · exact ask_calls (hupdate _)
    · simp

theorem reconcileDelete_frozen (grp : ZfsGroupSnapshot) (poolHere : Option String) :
    (reconcileDelete grp poolHere).run.Calls GroupCall.Frozen := by
  refine outcome_bind_calls ⟨rfl, rfl, rfl⟩ fun fresh => ?_
  cases fresh with
  | error e =>
    simp only
    split_ifs <;> simp
  | ok fresh =>
    refine Proc.bind_calls (deleteMembers_frozen _ _ _ _) fun remaining => ?_
    split_ifs
    · simp
    · exact Proc.bind_calls (releaseFinalizer_calls _ ⟨rfl, rfl, rfl⟩ fun _ => ⟨rfl, rfl, rfl⟩)
        fun _ => by simp

end Calls

/-! ## A pass -/

section Pass

open ZfsGroupSnapshotReconciler

variable {node : String} {grp : ZfsGroupSnapshot} {s : CachedGroups}

/-- A status patch of a pass, which may write `provisionedAt`, and `creationTime` if there
is none. -/
theorem patchGroupStatus_guar {read patched : ZfsGroupSnapshotStatus} (hs : Open node grp s)
    (htime : read.creationTime = patched.creationTime ∨ grp.status.creationTime = none) :
    FreezeGuar (node, grp.name) (.patchGroupStatus grp.name read patched) s
      (aloneHandle (node, grp.name) (.patchGroupStatus grp.name read patched) s).2 := by
  have hlate : ¬ Late (node, grp.name) (.patchGroupStatus grp.name read patched) s :=
    fun h => by cases h.1
  have hstore :
      (CachedGroups.handle (node, grp.name) (.patchGroupStatus grp.name read patched) s).2.groups =
      (s.groups.patchStatus mergeStatus grp.name read patched).2 := patchGroup_store _ _ _ _
  rw [aloneHandle_eq hlate]
  refine ⟨fun h => ?_, fun _ => hs.unstamped, ?_, ?_, fun n hn => ?_,
    fun _ => handle_provisioner hlate⟩
  · refine NamedGroups.writeGroups ((note_steady _ _ s).named h) ?_
    rw [patchGroup_store]
    exact Named.patchStatus h.groups
  · rw [hstore]
    exact Keeps.patchStatus hs.unstamped
  · rw [hstore]
    rcases htime with htime | hnone
    · exact (Steady.patchStatus fun cur => by simp [mergeStatus, mergeField, htime]).keeps
    · exact Keeps.patchStatus (hs.untimed hnone)
  · have hne : n ≠ grp.name := hn.resolve_right fun h => h hs.provisioner
    rw [hstore]
    exact ⟨Unstamped.patchStatus_of_ne hne, Unstamped.patchStatus_of_ne hne⟩

theorem setStatus_wp (hs : Open node grp s) (phase : GroupSnapshotPhase) (reason message : String) :
    freezeWp (node, grp.name) (setStatus grp phase reason message) (fun _ _ => True) s := by
  refine open_bind_wp ?_ hs fun provisionedAt t ht => Proc.wp_bind ?_
  · split_ifs
    · exact Proc.map_calls (ask_calls rfl)
    · simp
  · unfold patchStatus
    split_ifs
    · trivial
    · refine Proc.wp_bind fun u hu => ⟨patchGroupStatus_guar (ht.rely hu) (.inl rfl), ?_, ?_⟩
      · rw [aloneHandle_eq (e := .patchGroupStatus _ _ _) fun h => by cases h.1]
        simp only [CachedGroups.handle, CachedGroups.answer, CachedGroups.note_groups, patchGroup]
        cases u.groups.lookup grp.name <;> trivial
      · rintro _ ⟨msg, rfl⟩
        trivial

theorem settle_wp (hs : Open node grp s) (phase : GroupSnapshotPhase) (reason message : String)
    (result : Result) :
    freezeWp (node, grp.name) (settle grp phase reason message result) (fun _ _ => True) s := by
  refine Proc.wp_bind (wp_mono ?_ (setStatus_wp hs phase reason message))
  rintro (e | ⟨⟩) t _ <;> trivial

theorem derive_wp (hs : Open node grp s) (provisioning : Bool) :
    freezeWp (node, grp.name) (derive grp provisioning) (fun _ _ => True) s := by
  refine open_bind_wp ((inspect_looks _ _).mono fun _ => GroupCall.Looks.silent) hs
    fun found t ht => ?_
  split_ifs <;> exact settle_wp ht _ _ _ _

/-- The creation time is recorded in a group that has none. -/
theorem recordTime_wp (hs : Open node grp s) (hnone : grp.status.creationTime = none)
    (creation : Nat) :
    freezeWp (node, grp.name) (patchStatus grp { grp.status with creationTime := some creation })
      (fun r t => ∀ grp', r = .ok grp' → grp'.name = grp.name ∧ grp'.spec = grp.spec ∧
        Open node grp' t) s := by
  unfold patchStatus
  rw [if_neg fun h => by rw [h] at hnone; cases hnone]
  refine Proc.wp_bind fun t ht => ?_
  have hopen := hs.rely ht
  refine ⟨patchGroupStatus_guar hopen (.inr hnone), ?_, ?_⟩
  · have hlate : ¬ Late (node, grp.name) (.patchGroupStatus grp.name grp.status
        { grp.status with creationTime := some creation }) t := fun h => by cases h.1
    have hsteady : Steady groupStamp t.groups (t.groups.patchStatus mergeStatus grp.name grp.status
        { grp.status with creationTime := some creation }).2 :=
      Steady.patchStatus fun cur => by simp [mergeStatus, mergeField]
    have hprovisioner := handle_provisioner_self (e := .patchGroupStatus grp.name grp.status
      { grp.status with creationTime := some creation }) (i := (node, grp.name)) hopen.provisioner
    have hstore :=
      patchGroup_store t.groups grp.name grp.status
      { grp.status with creationTime := some creation }
    rw [aloneHandle_eq hlate]
    simp only [CachedGroups.handle, CachedGroups.answer, CachedGroups.note_groups] at hprovisioner ⊢
    cases hcur : t.groups.lookup grp.name with
    | none =>
      simp only [patchGroup, hcur]
      rintro _ ⟨⟩
    | some cur =>
      rw [hstore] at hprovisioner ⊢
      simp only [patchGroup, hcur]
      rintro _ ⟨⟩
      refine ⟨rfl, rfl, ((note_steady _ _ t).named hopen.named).writeGroups
        (Named.patchStatus hopen.named.groups), hprovisioner, hsteady.unstamped
          hopen.unstamped, fun h => ?_⟩
      simp [mergeStatus, mergeField, hnone] at h
  · rintro _ ⟨msg, rfl⟩ _ ⟨⟩

theorem adopt_wp (hs : Open node grp s) (raws : List String) :
    freezeWp (node, grp.name) (adopt grp raws) (fun _ _ => True) s := by
  have hrest : ∀ {grp' : ZfsGroupSnapshot} {t : CachedGroups}, grp'.name = grp.name →
      Open node grp' t →
      freezeWp (node, grp.name) (do
        ensureChildren grp'
        derive grp' true) (fun _ _ => True) t := by
    intro grp' t hname ht
    rw [← hname]
    exact open_bind_wp (createChildren_silent _ _) ht fun _ _ ht => derive_wp ht true
  refine Proc.wp_bind ?_
  split_ifs with hnone
  · cases raws with
    | nil => trivial
    | cons first rest =>
      refine Proc.wp_bind
        (wp_mono ?_ (open_wp ((shared_looks (snapshotCreationTime_reads first)).mono
        fun _ => GroupCall.Looks.silent) hs))
      rintro (e | creation) t ht
      · trivial
      refine wp_mono ?_ (recordTime_wp ht hnone creation)
      rintro (e | grp') u hu
      · trivial
      · obtain ⟨hname, -, hopen⟩ := hu grp' rfl
        exact hrest hname hopen
  · exact hrest rfl hs

theorem takeAll_wp (hs : Open node grp s) (raws : List String) :
    freezeWp (node, grp.name) (takeAll grp raws) (fun _ _ => True) s := by
  refine open_bind_wp (Proc.outcome_calls (ask_calls rfl)) hs fun taken t ht => ?_
  have herror : ∀ e : Err, freezeWp (node, grp.name) (do
      let _ ← (setStatus grp .pending "SnapshotFailed" e.message).outcome
      throw e : GroupProc Result) (fun _ _ => True) t := by
    intro e
    exact Proc.wp_outcome_bind (wp_mono (fun _ _ _ => trivial) (setStatus_wp ht _ _ _))
  cases taken with
  | ok => exact adopt_wp ht raws
  | error e =>
    cases e with
    | snapshotsPartiallyExist => exact settle_wp ht _ _ _ _
    | _ => exact herror _

theorem decideRaws_wp (hs : Open node grp s) (names : List (String × String)) (present : Nat) :
    freezeWp (node, grp.name) (decideRaws grp names present) (fun _ _ => True) s := by
  refine open_bind_wp ?_ hs fun msg t ht => ?_
  · split_ifs
    · exact (firstBlocker_looks _).mono fun _ => GroupCall.Looks.silent
    · simp
  · split_ifs
    · exact settle_wp ht _ _ _ _
    · exact adopt_wp ht _
    · exact takeAll_wp ht _
    · exact settle_wp ht _ _ _ _

/-- The direct read finds the group as it is, so it is open if the read does not end the pass. -/
theorem provision_wp (hs : NamedGroups s) (pool : ZfsPool) :
    freezeWp (node, grp.name) (provision grp pool) (fun _ _ => True) s := by
  refine Proc.outcome_ask_wp fun t ht =>
    ⟨steady_guar rfl rfl (by simp [GroupCall.creates, GroupCall.times]), ?_, ?_⟩
  swap
  · rintro _ ⟨msg, rfl⟩
    trivial
  by_cases hlate : Late (node, grp.name) (.readGroup grp.name) t
  · unfold aloneHandle
    rw [if_pos hlate]
    trivial
  rw [aloneHandle_eq hlate]
  simp only [CachedGroups.handle, CachedGroups.answer, CachedGroups.note_groups, Store.get]
  cases hfresh : t.groups.lookup grp.name with
  | none => trivial
  | some fresh =>
    simp only
    split_ifs with hclosed
    · trivial
    obtain ⟨hactive, hstamp⟩ := not_or.mp hclosed
    have henters : t.enters (node, grp.name) (.readGroup grp.name) = true := by
      simp [CachedGroups.enters, hfresh, hactive, not_not.mp hstamp]
    have hopen : Open node { grp with status := fresh.status }
        (t.note (node, grp.name) (.readGroup grp.name)) := by
      refine ⟨(note_steady _ _ t).named (ht.named hs), t.note_provisioner _ _ henters,
        fun o ho => ?_,
        fun hnone o ho => ?_⟩
      · obtain rfl := Option.some_inj.mp (hfresh.symm.trans ho)
        exact not_not.mp hstamp
      · obtain rfl := Option.some_inj.mp (hfresh.symm.trans ho)
        exact hnone
    have hsurvey : freezeWp (node, grp.name) (survey pool.status.poolName grp.spec.members)
        (fun _ t => Open node { grp with status := fresh.status } t)
        (t.note (node, grp.name) (.readGroup grp.name)) :=
      open_wp ((survey_looks _ _).mono fun _ => GroupCall.Looks.silent) hopen
    refine Proc.wp_bind (wp_mono ?_ hsurvey)
    rintro (e | e | ⟨names, present⟩) u hu
    · trivial
    · exact settle_wp hu _ _ _ _
    · exact decideRaws_wp hu names present

/-- A pass keeps the guarantee. -/
theorem reconcile_wp (r : ZfsGroupSnapshotReconciler) (name : String) (hs : NamedGroups s) :
    freezeWp (r.nodeName, name) (r.reconcile name) (fun _ _ => True) s := by
  refine Proc.outcome_ask_wp fun t ht =>
    ⟨steady_guar rfl rfl (by simp [GroupCall.creates, GroupCall.times]), ?_, ?_⟩
  swap
  · rintro _ ⟨msg, rfl⟩
    trivial
  have hnamed := (note_steady (r.nodeName, name) (.getGroup name) t).named (ht.named hs)
  rw [aloneHandle_eq (e := .getGroup name) fun h => by cases h.1]
  simp only [CachedGroups.handle, CachedGroups.answer, CachedGroups.note_copies, CachedWorld.copy]
  cases hgrp : (t.copies r.nodeName).seen.lookup name with
  | none => trivial
  | some grp =>
    obtain rfl : grp.name = name :=
      hnamed.copies r.nodeName name grp (by simp [Informer.versions, hgrp])
    have hpool : freezeWp (r.nodeName, grp.name) (shared .cache (findPool grp.spec.poolGUID))
        (fun _ t => NamedGroups t) (t.note (r.nodeName, grp.name) (.getGroup grp.name)) := by
      refine (shared_looks (findPool_reads _)).wp (fun _ _ _ _ hs ht => ht.named hs)
        (fun e t he ht => ?_) hnamed
      have hsteady : SteadyGroups t (aloneHandle (r.nodeName, grp.name) e t).2 :=
        aloneHandle_steady he.frozen.2.1 he.frozen.2.2 t
      refine ⟨steady_guar he.frozen.2.1 he.frozen.2.2 fun h => ?_, hsteady.named ht⟩
      rw [he.frozen.1, he.frozen.2.2] at h
      simp at h
    refine Proc.wp_bind (wp_mono ?_ hpool)
    rintro (e | found) u hu
    · trivial
    cases found with
    | none =>
      simp only
      split_ifs
      · exact frozen_wp (reconcileDelete_frozen _ _) u
      · trivial
      · trivial
    | some pool =>
      simp only
      split_ifs with hdeleted hfin hhosted hhosted hfin hstamp
      · exact frozen_wp (reconcileDelete_frozen _ _) u
      · trivial
      · trivial
      · exact frozen_wp (observe_frozen hstamp) u
      · exact provision_wp hu pool
      · exact frozen_wp (Proc.bind_calls (ask_calls ⟨rfl, rfl, rfl⟩) fun _ => by simp) u
      · trivial

end Pass

/-! ## Every run -/

/-- When one worker is done, the others that provision go on. -/
theorem finish_freezeRely {i j : GroupWorker} (hj : j ≠ i) (s : CachedGroups) :
    FreezeRely j s (s.finish i) where
  named := (finish_steady i s).named
  provisioner hprovisioner := by
    simp only [CachedGroups.finish]
    split_ifs with hself
    · have hname : j.2 ≠ i.2 := by
        intro hname
        rw [hname, hself] at hprovisioner
        exact hj (Prod.ext (Option.some_inj.mp hprovisioner).symm hname)
      rwa [Function.update_of_ne hname]
    · exact hprovisioner
  unstamped _ := id
  untimed _ := id

theorem Elsewhere.freezeRely {s t : CachedGroups} (h : Elsewhere s t) (i : GroupWorker) :
    FreezeRely i s t := by
  refine ⟨h.steady.named, ?_, fun _ => h.steady.stamps.unstamped, fun _ => h.steady.times.unstamped⟩
  cases h <;> exact id

/-- The rely-guarantee proof, of agents that are not answered when another node provisions. -/
def freezeOutline : Outline { cachedGroups with handle := aloneHandle } Alone where
  inv := NamedGroups
  rely := freezeRely
  guar := FreezeGuar
  post _ _ _ := True
  refl i _ s _ := FreezeRely.refl i s
  trans _ _ _ _ _ := FreezeRely.trans
  starts _ i _ hs _ _ := reconcile_wp ⟨i.1⟩ i.2 hs
  call_inv _ _ _ _ hs _ _ _ hguar := hguar.named hs
  call_rely c i t e hs hi _ _ hguar j t' e' hj ht' _ := by
    obtain rfl : i = t := hi
    obtain rfl : j = t' := ht'
    exact hguar.rely hj
  finish_inv i _ s hs _ := (finish_steady i s).named hs
  finish_rely i t _ s _ hi _ j t' _ hj ht' := by
    obtain rfl : i = t := hi
    obtain rfl : j = t' := ht'
    exact finish_freezeRely hj s
  env_inv _ _ hs h := h.steady.named hs
  env_rely _ _ _ h i _ := Elsewhere.freezeRely h i

/-- No `provisionedAt` and no `creationTime` of a group changes. -/
structure KeepsTimes (s t : CachedGroups) : Prop where
  stamps : Keeps groupStamp s.groups t.groups
  times : Keeps groupTime s.groups t.groups

theorem KeepsTimes.refl (s : CachedGroups) : KeepsTimes s s :=
  ⟨(Steady.refl _).keeps, (Steady.refl _).keeps⟩

/-- However far the caches lag behind, as long as no two nodes provision a group at once, no step
changes a `provisionedAt` or a `creationTime` that is set, and no pass takes a snapshot, creates a
member or records a creation time for a group that has been provisioned. -/
theorem group_frozen (s₀ : CachedGroups) (h₀ : NamedGroups s₀) (c : GroupConfig)
    (hc : Reach cachedGroups Alone s₀ c) :
    (∀ c', Step cachedGroups Alone c c' → KeepsTimes c.shared c'.shared) ∧
      ∀ i e, c.Waits i i e → e.creates = true ∨ e.times = true →
        Unstamped groupStamp c.shared.groups i.2 := by
  have halone : Reach { cachedGroups with handle := aloneHandle } Alone s₀ c := by
    refine hc.of_handle_eq aloneHandle ?_
    rintro c i _ e rfl halone
    exact aloneHandle_eq halone
  have hholds := Outline.holds_of_reach (O := freezeOutline) h₀ halone
  have hguar : ∀ i t e k, c.running i = some (t, .call e k) → Alone c i e →
      FreezeGuar t e c.shared (CachedGroups.handle t e c.shared).2 := by
    intro i t e k hrunning hallowed
    obtain rfl : i = t := hholds.takes i t _ hrunning
    have hguar := (hholds.safe i i _ hrunning c.shared (FreezeRely.refl i _)).1
    rw [show ({ cachedGroups with handle := aloneHandle } : System _ _ _ _ _ _).handle
      i e c.shared =
      CachedGroups.handle i e c.shared from aloneHandle_eq hallowed] at hguar
    exact hguar
  refine ⟨fun c' hstep => ?_, fun i e ⟨k, hrunning⟩ hwrites =>
    (hguar _ _ e k hrunning (alone_of_writes hwrites c i)).creates hwrites⟩
  -- the end of a pass is no write
  have hadvance : ∀ (c : GroupConfig) i t p,
      KeepsTimes c.shared (cachedGroups.advance c i t p).shared := by
    intro c i t p
    cases p with
    | pure a =>
      exact ⟨(finish_steady t c.shared).stamps.keeps, (finish_steady t c.shared).times.keeps⟩
    | call e k => exact KeepsTimes.refl _
  cases hstep with
  | start idle takes starts => exact hadvance _ _ _ _
  | @call i t e k waits allowed =>
    have hcall := hguar i t e k waits allowed
    cases hk : k (cachedGroups.handle t e c.shared).1 with
    | pure a => exact ⟨hcall.stamps, hcall.times⟩
    | call e' k' => exact ⟨hcall.stamps, hcall.times⟩
  | fail waits fails => exact hadvance _ _ _ _
  | env change =>
    have hsteady := Elsewhere.steady change
    exact ⟨hsteady.stamps.keeps, hsteady.times.keeps⟩

/-! ## A run -/

def sampleGroup : ZfsGroupSnapshot where
  metadata := { name := "grp-1", finalizers := [zfsGroupSnapshotFinalizer] }
  spec := { poolGUID := "1", members := [{ sourceVolume := "pvc-1", dataset := "pvc-1"
                                           snapshotName := "csi-snap-1", zfsSnapshotRef :=
                                             "grp-1-a" }] }
  status := {}

def sampleMember : ZfsSnapshot where
  metadata := { name := "grp-1-a" }
  spec := { poolGUID := "1", dataset := "pvc-1", snapshotName :=
    "csi-snap-1", groupSnapshotID := "grp-1" }
  status := { phase := some .ready, readyToUse := true }

/-- The raw snapshot of the only member has been taken and adopted; the group is not Ready yet. -/
def sampleGroups : CachedGroups where
  site := {
    world := { sampleCached.world with
      snapshots := Store.ofList [("grp-1-a", sampleMember)]
      mem := ((sampleCached.world.mem.createDataset "tank/pvc-1" FinMap.empty).2.snapshot
        ["tank/pvc-1@csi-snap-1"]).2 }
    datasets := sampleCached.datasets
    snapshots _ := .synced (FinMap.ofList [("grp-1-a", sampleMember)])
    pools := sampleCached.pools }
  groups := Store.ofList [("grp-1", sampleGroup)]
  copies _ := .synced (FinMap.ofList [("grp-1", sampleGroup)])

abbrev GroupMove := Move CachedGroups GroupWorker GroupWorker

/-- A pass of `grp-1` at a node. -/
def groupPass (node : String) : List GroupMove :=
  .begin (node, "grp-1") (node, "grp-1") :: List.replicate 12 (.call (node, "grp-1"))

/-- Two seconds pass. -/
def later (s : CachedGroups) : CachedGroups := { s with site := tick s.site }

/-- The pool moves to another node. -/
def movePool (node : String) (s : CachedGroups) : CachedGroups :=
  { s with site := { s.site with pools := fun _ => hostedBy node } }

theorem groupPass_legal (node : String) : ∀ m ∈ groupPass node, m.Legal cachedGroups := by
  intro m hm
  obtain rfl | rfl : m = .begin _ _ ∨ m = .call _ := by
    simpa [groupPass, List.mem_replicate] using hm
  · exact ⟨rfl, fun _ => trivial⟩
  · trivial

theorem namedGroups_sample : NamedGroups sampleGroups := by
  have hlookup : ∀ name (o : ZfsGroupSnapshot), (FinMap.ofList [("grp-1", sampleGroup)]).lookup
      name = some o →
      o.name = name := by
    intro name o ho
    simp only [FinMap.ofList, FinMap.contains_eq, FinMap.lookup_empty, Option.isSome_none,
      Bool.false_eq_true, if_false, FinMap.lookup_insert] at ho
    split_ifs at ho with hname
    obtain rfl := Option.some_inj.mp ho
    exact hname.symm
  exact ⟨hlookup, fun _ name o ho => hlookup name o (List.mem_singleton.mp ho).symm⟩

/-- Two passes over one copy of the group, at two nodes: the first one has provisioned it. -/
def groupTwice : GroupConfig :=
  (groupPass "node-a" ++ .change later :: .change (movePool "node-b") :: groupPass "node-b").foldl
    (cachedGroups.make Alone) ⟨sampleGroups, fun _ => none⟩

/-- The second pass is routed by a copy from before the stamp, and yet the stamp stays. -/
theorem groupTwice_frozen :
    ((groupTwice.shared.copies "node-b").seen.lookup "grp-1").map (·.status.provisionedAt)
      = some none ∧
    (groupTwice.shared.groups.lookup "grp-1").map (·.status.provisionedAt) = some (some 5) ∧
      ∀ c', Step cachedGroups Alone groupTwice c' → KeepsTimes groupTwice.shared c'.shared := by
  refine ⟨by decide +kernel, by decide +kernel, ?_⟩
  refine (group_frozen sampleGroups namedGroups_sample groupTwice ?_).1
  refine Reach.start.play _ fun m hm => ?_
  rcases List.mem_append.mp hm with hm | hm
  · exact groupPass_legal "node-a" m hm
  simp only [List.mem_cons] at hm
  rcases hm with rfl | rfl | hm
  · exact fun s => .site s _
  · exact fun s => .site s _
  · exact groupPass_legal "node-b" m hm

end SimpleZfsCsi.Group
