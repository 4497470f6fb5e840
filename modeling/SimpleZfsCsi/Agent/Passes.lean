import SimpleZfsCsi.Agent.Effects
import SimpleZfsCsi.Library.Serial
import SimpleZfsCsi.Memzfs.Frame

/-!
# One pass after the other

The passes of the agent run one at a time and read the API server's current objects; the source
reads a cache, which may lag behind, and what that comes to is the subject of `Cached`. Any call may
fail and any pass may be cut short; between two passes, and never during one, objects are created,
updated and deleted. `Tracked` is the world together with what a statement remembers of the run:
`record` says what a call adds to that, and a call that only reads adds nothing.
-/

namespace SimpleZfsCsi.Agent

open Library Api Memzfs Program

/-- What others ask of the API server, and what becomes of the pools. -/
inductive Request : World → World → Prop where
  | createDataset (w : World) (name : String) (spec : ZfsDatasetSpec) :
      Request w { w with datasets := (w.datasets.create w.clock name spec {}).2 }
  | updateDataset (w : World) (o : ZfsDataset) :
      Request w { w with datasets := (w.datasets.update o).2 }
  | deleteDataset (w : World) (name : String) :
      Request w { w with datasets := (w.datasets.delete name).2 }
  | createSnapshot (w : World) (name : String) (spec : ZfsSnapshotSpec) :
      Request w { w with snapshots := (w.snapshots.create w.clock name spec {}).2 }
  | updateSnapshot (w : World) (o : ZfsSnapshot) :
      Request w { w with snapshots := (w.snapshots.update o).2 }
  | deleteSnapshot (w : World) (name : String) :
      Request w { w with snapshots := (w.snapshots.delete name).2 }
  | pools (w : World) (pools : Store Unit ZfsPoolStatus) (clock : Nat) (hclock : w.clock ≤ clock) :
      Request w { w with pools, clock }

/-- The world, and what is remembered of the run. -/
structure Tracked (γ : Type) where
  world : World
  ghost : γ

variable {γ α β : Type}

/-- Answer a call. -/
def Tracked.handle (record : AgentCall → World → World → γ → γ) (e : AgentCall) (s : Tracked γ) :
    e.Ret × Tracked γ :=
  ((World.handle e s.world).1,
    ⟨(World.handle e s.world).2,
      if e.reads then s.ghost else record e s.world (World.handle e s.world).2 s.ghost⟩)

theorem Tracked.handle_reads {record : AgentCall → World → World → γ → γ} {e : AgentCall}
    (he : e.Reads) (s : Tracked γ) :
    Tracked.handle record e s = ((World.handle e s.world).1, s) := by
  simp only [Tracked.handle, World.handle_reads he, he, if_true]

@[simp] theorem Tracked.world_handle (record : AgentCall → World → World → γ → γ) (e : AgentCall)
    (s : Tracked γ) : (Tracked.handle record e s).2.world = (World.handle e s.world).2 := rfl

/-! ## Where things are -/

/-- The pool of a GUID, if this node hosts it. -/
def poolHere (nodeName : String) (w : World) (guid : String) : Option ZfsPool :=
  (w.pools.lookup (resourceName guid)).filter fun pool => hostedHere nodeName (some pool)

/-- The full name of the dataset of a ZfsDataset. -/
def datasetPath (nodeName : String) (w : World) (vol : ZfsDataset) : Option String :=
  (poolHere nodeName w vol.spec.poolGUID).bind fun pool =>
    (datasetName pool.status.poolName vol.spec.dataset).toOption

/-- The path of the source of a ZfsSnapshot. -/
def sourcePath (w : World) (snap : ZfsSnapshot) : String :=
  if snap.spec.sourceVolume = "" then snap.spec.dataset
  else ((w.datasets.lookup snap.spec.sourceVolume).map (·.spec.dataset)).getD snap.spec.dataset

/-- The full name of the backing clone of a ZfsSnapshot. -/
def backingPath (nodeName : String) (w : World) (snap : ZfsSnapshot) : Option String :=
  (poolHere nodeName w snap.spec.poolGUID).bind fun pool =>
    (datasetName pool.status.poolName
      (backingDataset (sourcePath w snap) snap.spec.snapshotName)).toOption

section Where

variable {nodeName guid : String} {w : World} {pool : ZfsPool}
  (hpool : w.pools.lookup (resourceName guid) = some pool)
  (hhosted : hostedHere nodeName (some pool) = true)

include hpool hhosted

theorem poolHere_eq : poolHere nodeName w guid = some pool := by
  simp only [poolHere, hpool, Option.filter_some, hhosted, if_true]

theorem datasetPath_eq {vol : ZfsDataset} (hguid : vol.spec.poolGUID = guid) {full : String}
    (hfull : datasetName pool.status.poolName vol.spec.dataset = .ok full) :
    datasetPath nodeName w vol = some full := by
  rw [datasetPath, hguid, poolHere_eq hpool hhosted, Option.bind_some, hfull, Except.toOption]

theorem backingPath_eq {snap : ZfsSnapshot} (hguid : snap.spec.poolGUID = guid) {full : String}
    (hfull : datasetName pool.status.poolName
      (backingDataset (sourcePath w snap) snap.spec.snapshotName) = .ok full) :
    backingPath nodeName w snap = some full := by
  rw [backingPath, hguid, poolHere_eq hpool hhosted, Option.bind_some, hfull, Except.toOption]

end Where

/-! ## Rules for passes -/

section Rules

variable {record : AgentCall → World → World → γ → γ} {fails : (e : AgentCall) → e.Ret → Prop}
  {guar : AgentCall → Tracked γ → Tracked γ → Prop} {s : Tracked γ}
    {Q : Except Err β → Tracked γ → Prop}

/-- The weakest precondition of a part of a pass. -/
abbrev passWp (record : AgentCall → World → World → γ → γ) (fails : (e : AgentCall) → e.Ret → Prop)
    (guar : AgentCall → Tracked γ → Tracked γ → Prop) (p : AgentProc α)
    (Q : Except Err α → Tracked γ → Prop) (s : Tracked γ) : Prop :=
  p.run.wpAlone (Tracked.handle record) fails guar Q s

/-- Some call may fail. -/
def Failing (fails : (e : AgentCall) → e.Ret → Prop) : Prop := ∃ e r, fails e r

/-- A call whose error is looked at. -/
theorem outcome_pass (hfails : ∀ e r, fails e r → e.fails r) {e : AgentCall}
    {f : Except Err e.Val → AgentProc β} (hguar : guar e s (Tracked.handle record e s).2)
    (hanswer :
      passWp record fails guar (f (World.handle e s.world).1) Q (Tracked.handle record e s).2)
    (hfail : ∀ msg, fails e (.error (.other msg)) →
      passWp record fails guar (f (.error (.other msg))) Q s) :
    passWp record fails guar ((ask e).outcome >>= f) Q s := by
  refine Proc.outcome_ask_wp fun t ht => ?_
  subst ht
  refine ⟨hguar, hanswer, fun r hr => ?_⟩
  obtain ⟨msg, rfl⟩ := hfails e r hr
  exact hfail msg hr

/-- A call whose error is returned. -/
theorem ask_pass (hfails : ∀ e r, fails e r → e.fails r) {e : AgentCall} {f : e.Val → AgentProc β}
    (hguar : guar e s (Tracked.handle record e s).2)
    (hok : ∀ a, (World.handle e s.world).1 = .ok a →
      passWp record fails guar (f a) Q (Tracked.handle record e s).2)
    (herror : ∀ err, (World.handle e s.world).1 = .error err →
      Q (.error err) (Tracked.handle record e s).2)
    (hfail : ∀ msg, fails e (.error (.other msg)) → Q (.error (.other msg)) s) :
    passWp record fails guar (ask e >>= f) Q s := by
  refine Proc.ask_wp fun t ht => ?_
  subst ht
  refine ⟨hguar, hok, herror, fun r hr => ?_⟩
  obtain ⟨msg, rfl⟩ := hfails e r hr
  exact hfail msg hr

/-- A call that comes last. -/
theorem last_pass (hfails : ∀ e r, fails e r → e.fails r) {e : AgentCall}
    {Q : Except Err e.Val → Tracked γ → Prop} (hguar : guar e s (Tracked.handle record e s).2)
    (hanswer : Q (World.handle e s.world).1 (Tracked.handle record e s).2)
    (hfail : ∀ msg, fails e (.error (.other msg)) → Q (.error (.other msg)) s) :
    passWp record fails guar (ask e) Q s := by
  rintro t rfl
  refine ⟨hguar, ?_, fun r hr => ?_⟩
  · show Q ((World.handle e s.world).1.mapError id) _
    cases hr : (World.handle e s.world).1 with
    | ok a =>
      rw [hr] at hanswer
      exact hanswer
    | error err =>
      rw [hr] at hanswer
      exact hanswer
  · obtain ⟨msg, rfl⟩ := hfails e r hr
    exact hfail msg hr

/-- Calls of a kind that keeps an invariant come before the rest. -/
theorem calls_pass {P : AgentCall → Prop} {inv : Tracked γ → Prop} {p : AgentProc α}
    {f : α → AgentProc β} (hp : p.run.Calls P)
    (hcall : ∀ e s, P e → inv s →
      guar e s (Tracked.handle record e s).2 ∧ inv (Tracked.handle record e s).2) (hs : inv s)
    (hf : ∀ a t, inv t → passWp record fails guar (f a) Q t)
    (herror : ∀ e t, inv t → Q (.error e) t) :
    passWp record fails guar (p >>= f) Q s := by
  refine Proc.wp_bind (wp_mono ?_ (hp.wp (fun _ _ _ _ hs ht => ht ▸ hs) hcall hs))
  rintro (e | a) t ht
  · exact herror e t ht
  · exact hf a t ht

theorem liftExcept_pass {r : Except Err α} {f : α → AgentProc β}
    (hok : ∀ a, r = .ok a → passWp record fails guar (f a) Q s)
    (herror : ∀ e, r = .error e → Q (.error e) s) :
    passWp record fails guar (liftExcept r >>= f) Q s := by
  cases r with
  | ok a => exact hok a rfl
  | error e => exact herror e rfl

/-- A part that never conflicts is not repeated. -/
theorem retryOnConflict_pass {p : AgentProc Unit} {Q : Except Err Unit → Tracked γ → Prop}
    (retries : Nat)
    (hp :
      passWp record fails guar p (fun r t => Q r t ∧ ∀ e, r = .error e → e.isConflict = false) s) :
    passWp record fails guar (retryOnConflict p retries) Q s := by
  cases retries with
  | zero => exact wp_mono (fun _ _ h => h.1) hp
  | succ retries =>
    refine Proc.wp_outcome_bind (wp_mono ?_ hp)
    rintro (e | ⟨⟩) t ⟨hQ, hconflict⟩
    · simp only [hconflict e rfl, Bool.false_eq_true, if_false]
      exact hQ
    · exact hQ

variable (hfails : ∀ e r, fails e r → e.fails r) (hreads : ∀ e s, e.Reads → guar e s s)

include hfails hreads

/-- A read whose error is looked at. -/
theorem read_pass {e : AgentCall} (he : e.Reads) {f : Except Err e.Val → AgentProc β}
    (hanswer : passWp record fails guar (f (World.handle e s.world).1) Q s)
    (hfail : ∀ msg, fails e (.error (.other msg)) →
      passWp record fails guar (f (.error (.other msg))) Q s) :
    passWp record fails guar ((ask e).outcome >>= f) Q s := by
  refine outcome_pass hfails ?_ ?_ hfail
  · rw [Tracked.handle_reads he]
    exact hreads e s he
  · rw [Tracked.handle_reads he]
    exact hanswer

omit hfails in
/-- Reads come before the rest, whatever they are answered. -/
theorem reads_pass {p : AgentProc α} {f : α → AgentProc β} (hp : p.run.Calls AgentCall.Reads)
    (hf : ∀ a, passWp record fails guar (f a) Q s) (herror : ∀ e, Q (.error e) s) :
    passWp record fails guar (p >>= f) Q s := by
  have hcall : ∀ e t, e.Reads → t = s →
      guar e t (Tracked.handle record e t).2 ∧ (Tracked.handle record e t).2 = s := by
    rintro e t he rfl
    rw [Tracked.handle_reads he]
    exact ⟨hreads e _ he, rfl⟩
  refine calls_pass hp hcall rfl ?_ ?_
  · rintro a _ rfl
    exact hf a
  · rintro e _ rfl
    exact herror e

/-- One of the candidates is picked. -/
theorem pickBacking_wp (pick : String × String) (cands : List (String × String)) :
    passWp record fails guar (pickBacking pick cands)
      (fun r t => t = s ∧ (∀ cd, r = .ok cd → cd ∈ pick :: cands) ∧ ∀ e, r = .error e →
        Failing fails) s := by
  induction cands with
  | nil => exact ⟨rfl, by rintro _ ⟨⟩; simp, by rintro _ ⟨⟩⟩
  | cons cd rest ih =>
    have hrest : passWp record fails guar (pickBacking pick rest)
        (fun r t => t = s ∧ (∀ cd', r = .ok cd' → cd' ∈ pick :: cd :: rest) ∧
          ∀ e, r = .error e → Failing fails) s := by
      refine wp_mono ?_ ih
      rintro r t ⟨ht, hpick, hfailing⟩
      refine ⟨ht, fun cd' hr => ?_, hfailing⟩
      have := hpick cd' hr
      grind
    refine read_pass hfails hreads rfl ?_ fun msg hmsg =>
      ⟨rfl, fun _ h => (by cases h), fun _ _ => ⟨_, _, hmsg⟩⟩
    cases hget : (World.handle (.get cd.2 propRole) s.world).1 with
    | error e =>
      have he : e.isNotExist = true := Mem.get_error hget
      simp only [he, if_true]
      exact hrest
    | ok role =>
      simp only
      split_ifs
      · exact ⟨rfl, by rintro _ ⟨⟩; simp, by rintro _ ⟨⟩⟩
      · exact hrest

theorem pickBacking_pass {pick : String × String} {cands : List (String × String)}
    {f : String × String → AgentProc β}
    (hf : ∀ cd ∈ pick :: cands, passWp record fails guar (f cd) Q s)
    (herror : ∀ e, Failing fails → Q (.error e) s) :
    passWp record fails guar (pickBacking pick cands >>= f) Q s := by
  refine Proc.wp_bind (wp_mono ?_ (pickBacking_wp hfails hreads pick cands))
  rintro (e | cd) t ⟨rfl, hpick, hfailing⟩
  · exact herror e (hfailing e rfl)
  · exact hf cd (hpick cd rfl)

theorem findPool_pass {guid : String} {f : Option ZfsPool → AgentProc β}
    (hf : passWp record fails guar (f (s.world.pools.lookup (resourceName guid))) Q s)
    (herror : ∀ msg, Failing fails → Q (.error (.other msg)) s) :
    passWp record fails guar (findPool guid >>= f) Q s := by
  refine Proc.wp_bind (read_pass hfails hreads rfl ?_ fun msg hmsg => herror msg ⟨_, _, hmsg⟩)
  simp only [World.handle, Store.get]
  cases hpool : s.world.pools.lookup (resourceName guid) with
  | none =>
    rw [hpool] at hf
    exact hf
  | some pool =>
    rw [hpool] at hf
    exact hf

/-- The clock is read where a time has to be stamped. -/
theorem stamp_pass {c : Prop} [Decidable c] {old : Option Nat} {f : Option Nat → AgentProc β}
    (hnow : c → ∀ now, passWp record fails guar (f (some now)) Q s)
    (hold : ¬ c → passWp record fails guar (f old) Q s)
    (herror : ∀ msg, Failing fails → Q (.error (.other msg)) s) :
    passWp record fails guar ((if c then some <$> ask .now else pure old) >>= f) Q s := by
  by_cases hc : c
  · rw [if_pos hc]
    refine Proc.wp_bind ?_
    rintro t rfl
    rw [Tracked.handle_reads rfl]
    refine ⟨hreads _ _ rfl, hnow hc s.world.clock, fun r hr => ?_⟩
    obtain ⟨msg, rfl⟩ := hfails _ r hr
    exact herror msg ⟨_, _, hr⟩
  · rw [if_neg hc]
    exact hold hc

theorem resolveDatasetPath_pass {snap : ZfsSnapshot} {f : String → AgentProc β}
    (hf : passWp record fails guar (f (sourcePath s.world snap)) Q s)
    (herror : ∀ msg, Failing fails → Q (.error (.other msg)) s) :
    passWp record fails guar
      (resolveDatasetPath snap.spec.sourceVolume snap.spec.dataset >>= f) Q s := by
  unfold resolveDatasetPath
  unfold sourcePath at hf
  split_ifs with hempty
  · rw [if_pos hempty] at hf
    exact hf
  rw [if_neg hempty] at hf
  refine Proc.wp_bind (read_pass hfails hreads rfl ?_ fun msg hmsg => herror msg ⟨_, _, hmsg⟩)
  simp only [World.handle, Store.get]
  cases hsrc : s.world.datasets.lookup snap.spec.sourceVolume with
  | none =>
    rw [hsrc] at hf
    exact hf
  | some src =>
    rw [hsrc] at hf
    exact hf

end Rules

/-! ## A small world -/

/-- The node `node-a` hosts the pool `tank`, which has an empty folder `k8s`. -/
def tankWorld : World where
  datasets := .empty
  snapshots := .empty
  pools := .ofList [("zpool-1", {
    metadata := { name := "zpool-1" }
    spec := ()
    status := { guid := "1", poolName := "tank", currentNode := "node-a", baseMountPath := "/tank"
                health := .online } })]
  mem := ((Mem.new ["tank"]).createDataset "tank/k8s" FinMap.empty).2
  clock := 100

end SimpleZfsCsi.Agent
