import SimpleZfsCsi.Api.Storage
import SimpleZfsCsi.Library.Program
import SimpleZfsCsi.Memzfs.Mem

/-!
# The node agent and what it calls

The agent reconciles `ZfsDataset` and `ZfsSnapshot` objects against a pool. `AgentCall` are
its calls: those of the interface `zpool.ZFS`, those to the API server, and the clock.
`World` answers them, the pool being the in-memory one. `ask` returns the error of a call as
it is; the source wraps some of them.
-/

namespace SimpleZfsCsi.Agent

open Library Api Memzfs

/-- ZFS properties. -/
abbrev Props := List (String × String)

inductive AgentCall where
  | get (name prop : String)
  | createDataset (name : String) (props : Props)
  | createZvol (name : String) (size : Int) (props : Props)
  | snapshot (names : List String)
  | clone (snap dest : String) (props : Props)
  | promote (name : String)
  | destroy (name : String) (recursive : Bool)
  | destroySnapshotDeferred (name : String)
  | listSnapshots (dataset : String)
  | clones (snap : String)
  | setProperty (name prop value : String)
  | applyOwnership (mountpoint : String) (uid gid : Option Int) (mode : String)
  | getPool (name : String)
  | getDataset (name : String)
  | listDatasets
  | updateDataset (o : ZfsDataset)
  | patchDatasetStatus (name : String) (read patched : ZfsDatasetStatus)
  | getSnapshot (name : String)
  | listZfsSnapshots
  | updateSnapshot (o : ZfsSnapshot)
  | patchSnapshotStatus (name : String) (read patched : ZfsSnapshotStatus)
  | now

@[reducible] def AgentCall.Val : AgentCall → Type
  | .get _ _ => String
  | .listSnapshots _ | .clones _ => List String
  | .getPool _ => ZfsPool
  | .getDataset _ => ZfsDataset
  | .listDatasets => List ZfsDataset
  | .getSnapshot _ => ZfsSnapshot
  | .listZfsSnapshots => List ZfsSnapshot
  | .now => Nat
  | _ => Unit

abbrev AgentCall.Ret (e : AgentCall) : Type := Except Err e.Val

/-- A call that fails returns an error without taking effect; it is none of the errors the
agent reads as an answer. -/
def AgentCall.fails (e : AgentCall) (r : e.Ret) : Prop := ∃ msg, r = .error (.other msg)

abbrev AgentProc := Program.Proc AgentCall AgentCall.Ret Err

structure World where
  datasets : Store ZfsDatasetSpec ZfsDatasetStatus
  snapshots : Store ZfsSnapshotSpec ZfsSnapshotStatus
  pools : Store Unit ZfsPoolStatus
  mem : Mem
  clock : Nat

/-- Answer a call. -/
def World.handle : (e : AgentCall) → World → e.Ret × World
  | .get name prop, w => (w.mem.get name prop, w)
  | .createDataset name props, w =>
    let r := w.mem.createDataset name (FinMap.ofList props)
    (r.1, { w with mem := r.2 })
  | .createZvol name size props, w =>
    let r := w.mem.createZvol name size (FinMap.ofList props)
    (r.1, { w with mem := r.2 })
  | .snapshot names, w =>
    let r := w.mem.snapshot names
    (r.1, { w with mem := r.2 })
  | .clone snap dest props, w =>
    let r := w.mem.clone snap dest (FinMap.ofList props)
    (r.1, { w with mem := r.2 })
  | .promote name, w =>
    let r := w.mem.promote name
    (r.1, { w with mem := r.2 })
  | .destroy name recursive, w =>
    let r := w.mem.destroy name recursive
    (r.1, { w with mem := r.2 })
  | .destroySnapshotDeferred name, w =>
    let r := w.mem.destroySnapshotDeferred name
    (r.1, { w with mem := r.2 })
  | .listSnapshots dataset, w => (w.mem.listSnapshots dataset, w)
  | .clones snap, w => (w.mem.clones snap, w)
  | .setProperty name prop value, w =>
    let r := w.mem.setProperty name prop value
    (r.1, { w with mem := r.2 })
  | .applyOwnership _ _ _ _, w => (.ok (), w)
  | .getPool name, w => (w.pools.get name, w)
  | .getDataset name, w => (w.datasets.get name, w)
  | .listDatasets, w => (.ok w.datasets.values, w)
  | .updateDataset o, w =>
    let r := w.datasets.update o
    (r.1, { w with datasets := r.2 })
  | .patchDatasetStatus name read patched, w =>
    let r := w.datasets.patchStatus ZfsDatasetStatus.merge name read patched
    (r.1, { w with datasets := r.2 })
  | .getSnapshot name, w => (w.snapshots.get name, w)
  | .listZfsSnapshots, w => (.ok w.snapshots.values, w)
  | .updateSnapshot o, w =>
    let r := w.snapshots.update o
    (r.1, { w with snapshots := r.2 })
  | .patchSnapshotStatus name read patched, w =>
    let r := w.snapshots.patchStatus ZfsSnapshotStatus.merge name read patched
    (r.1, { w with snapshots := r.2 })
  | .now, w => (.ok w.clock, w)

/-- Make one call, returning its error. -/
def ask (e : AgentCall) : AgentProc e.Val := Program.Proc.ask e id

section Proc

variable {E : Type} {R : E → Type} {α : Type}

/-- `retry.RetryOnConflict`: one attempt, and `retries` more while it conflicts. -/
def retryOnConflict (p : Program.Proc E R Err α) : Nat → Program.Proc E R Err α
  | 0 => p
  | retries + 1 => do
    match ← p.outcome with
    | .ok a => return a
    | .error e => if e.isConflict then retryOnConflict p retries else throw e

/-- The number of retries of `retry.DefaultRetry`. -/
def defaultRetries : Nat := 4

/-- Attempts are made until one does not conflict. -/
theorem retryOnConflict_wp {σ : Type} {h : (e : E) → σ → R e × σ} {fails : (e : E) → R e → Prop}
    {rely guar : E → σ → σ → Prop} {p : Program.Proc E R Err α} {I : σ → Prop}
    {Q : Except Err α → σ → Prop}
    (hp : ∀ s, I s → p.run.wp h fails rely guar Q s) (hagain : ∀ e s, Q (.error e) s → I s)
    (retries : Nat) {s : σ} (hs : I s) :
    (retryOnConflict p retries).run.wp h fails rely guar Q s := by
  induction retries generalizing s with
  | zero => exact hp s hs
  | succ retries ih =>
    refine Program.Proc.wp_outcome_bind (Program.wp_mono ?_ (hp s hs))
    rintro (e | a) t ht
    · simp only
      split
      · exact ih (hagain e t ht)
      · exact ht
    · exact ht

theorem retryOnConflict_calls {P : E → Prop} {p : Program.Proc E R Err α} (hp : p.run.Calls P)
    (retries : Nat) : (retryOnConflict p retries).run.Calls P := by
  induction retries with
  | zero => exact hp
  | succ retries ih =>
    refine Program.Proc.bind_calls (Program.Proc.outcome_calls hp) fun r => ?_
    cases r with
    | ok => simp
    | error e =>
      simp only
      split
      · exact ih
      · simp

theorem liftExcept_calls {P : E → Prop} (r : Except Err α) :
    (liftExcept r : Program.Proc E R Err α).run.Calls P := by
  cases r <;> simp [liftExcept]

end Proc

/-- `ctrl.Result`; the interval is in seconds, and zero if there is none. -/
structure Result where
  requeueAfter : Nat := 0
  deriving DecidableEq, Repr

end SimpleZfsCsi.Agent
