import SimpleZfsCsi.Csi.Common
import SimpleZfsCsi.Nfs.Controller

/-!
# The exporters of a node

Two exporters run on every node, one for each protocol. They are one reconciler: it adds a
finalizer to an export, renders all exports of its node and protocol when an export changes,
and renders them once more before it lets go of one that is being deleted. What differs is
the rendering. Here the rendered table is applied to the host in one call; carried out by
`ExportManager.apply`, the NFS reconciler is the one of `Nfs.NFSReconciler`.
-/

namespace SimpleZfsCsi.Exporter

open Library Api

/-- `nvmet.Subsystem`. -/
structure Subsystem where
  nqn : String
  devicePath : String
  allowedHosts : List String := []
  dhchapKey : String := ""
  deriving DecidableEq, Repr

/-- What an exporter applies to its host. -/
inductive HostExport where
  | nfs (e : Nfs.Export)
  | nvmeof (s : Subsystem)
  deriving DecidableEq, Repr

inductive ExporterCall where
  | getExport (name : String)
  | listExports
  | updateExport (e : NetworkExport)
  | patchExportStatus (name : String) (read patched : NetworkExportStatus)
  | getSecret (ns name : String)
  | apply (desired : List HostExport)

@[reducible] def ExporterCall.Val : ExporterCall → Type
  | .getExport _ => NetworkExport
  | .listExports => List NetworkExport
  | .getSecret _ _ => String → String
  | _ => Unit

abbrev ExporterCall.Ret (e : ExporterCall) : Type := Except Err e.Val

abbrev ExporterProgram := Program ExporterCall ExporterCall.Ret

/-- Make one call. -/
def ask (e : ExporterCall) : ExporterProgram e.Ret := Program.perform e

/-- `Exports.Apply` and `Target.Reconcile`. -/
def applyExports (desired : List HostExport) : ExporterProgram (Except Err Unit) :=
  ask (.apply desired)

/-! ## The common part -/

def updateStatus (e : NetworkExport) (phase : NetworkExportPhase) (reason message nqn : String) :
    ExporterProgram (Except Err Unit) :=
  ask (.patchExportStatus e.name e.status (e.withStatus phase reason message nqn))

/-- A failed status update is only logged. -/
def markInvalid (s : NetworkExport) (msg : String) : ExporterProgram Unit := do
  let _ ← updateStatus s .error "InvalidSpec" msg ""

def markError (s : NetworkExport) (cause : Err) : ExporterProgram Unit := do
  let _ ← updateStatus s .error "ExportFailed" cause.message ""

def getRequested (nodeName : String) (protocol : Protocol) (name : String) :
    ExporterProgram (Option NetworkExport) := do
  match ← ask (.getExport name) with
  | .error _ => return none
  | .ok s =>
    if s.spec.nodeName ≠ nodeName ∨ s.spec.protocol ≠ protocol then return none else return some s

/-- `Reconcile`, of a reconciler that renders with `render` and reports with `markExported`. -/
def reconcile {ρ : Type} (nodeName : String) (protocol : Protocol)
    (render : ExporterProgram (Except Err ρ)) (markExported : NetworkExport → ρ →
      ExporterProgram Unit)
    (name : String) : ExporterProgram (Except Err Unit) := do
  match ← getRequested nodeName protocol name with
  | none => return .ok ()
  | some export_ =>
    if export_.metadata.terminating then
      if export_.containsFinalizer networkExportFinalizer then
        match ← render with
        | .error e => return .error e
        | .ok _ =>
          return Nfs.NFSReconciler.ignoreNotFound
            (← ask (.updateExport (export_.removeFinalizer networkExportFinalizer)))
      else return .ok ()
    else if !export_.containsFinalizer networkExportFinalizer then
      ask (.updateExport (export_.addFinalizer networkExportFinalizer))
    else
      match ← render with
      | .error e =>
        markError export_ e
        return .error e
      | .ok rendered =>
        markExported export_ rendered
        return .ok ()

/-! ## NFS -/

namespace NFSReconciler

def markExported (s : NetworkExport) (_ : Unit) : ExporterProgram Unit := do
  match s.spec.nfs with
  | none => return ()
  | some nfs =>
    if nfs.clients.isEmpty then return ()
    let _ ← updateStatus s .exported "Exported" ("exported " ++ s.spec.path ++ " over NFS") ""

/-- The loop of `renderExports`. -/
def collect : List NetworkExport → ExporterProgram (List Nfs.Export)
  | [] => return []
  | s :: rest =>
    match Nfs.NFSReconciler.toExport s with
    | none => do
      markInvalid s "missing spec.nfs.clients"
      collect rest
    | some e => do
      return e :: (← collect rest)

def renderExports (nodeName : String) : ExporterProgram (Except Err Unit) := do
  match ← ask .listExports with
  | .error e => return .error e
  | .ok items =>
    let exports ← collect (listOwnedExports items nodeName .nfs)
    applyExports (exports.map .nfs)

def reconcile (nodeName name : String) : ExporterProgram (Except Err Unit) :=
  Exporter.reconcile nodeName .nfs (renderExports nodeName) markExported name

end NFSReconciler

/-! ## NVMe-oF -/

namespace NVMeoFReconciler

/-- `effectiveNQN`: the explicit NQN or a derived one. -/
def effectiveNQN (nqnStart : String) (s : NetworkExport) : String :=
  match s.spec.nvmeof with
  | some v => if v.nqn ≠ "" then v.nqn else nqnStart ++ ":" ++ s.spec.nodeName ++ ":" ++ s.name
  | none => nqnStart ++ ":" ++ s.spec.nodeName ++ ":" ++ s.name

/-- `dhchapKey`. -/
def dhchapKey (ns name dataKey : String) : ExporterProgram (Except Err String) := do
  if ns =
    "" then return .error (.other ("dhchap secret " ++ Err.quoted name ++ " has no namespace"))
  else
    match ← ask (.getSecret ns name) with
    | .error e => return .error (.wrap ("get dhchap secret " ++ ns ++ "/" ++ name) e)
    | .ok data =>
      let k := Csi.resolveSecretKey dataKey
      if data k = "" then
        return .error
          (.other ("dhchap secret " ++ ns ++ "/" ++ name ++ " missing data key " ++ Err.quoted k))
      else return .ok (data k)

/-- The subsystem of an export, with a given key. -/
def subsystem (nqnStart : String) (s : NetworkExport) (key : String) : Subsystem where
  nqn := effectiveNQN nqnStart s
  devicePath := s.spec.path
  allowedHosts := (s.spec.nvmeof.map (·.allowedHosts)).getD []
  dhchapKey := key

/-- The key of an export, or "" if it names no secret. -/
def keyOf (s : NetworkExport) : ExporterProgram (Except Err String) :=
  match s.spec.nvmeof with
  | none => return .ok ""
  | some v =>
    if v.dhchapSecretName ≠ "" then
      dhchapKey v.dhchapSecretNamespace v.dhchapSecretName v.dhchapSecretKey
    else return .ok ""

/-- The loop of `renderTarget`; a key that cannot be read ends it. -/
def collect (nqnStart : String) : List NetworkExport → ExporterProgram (Except Err (List Subsystem))
  | [] => return .ok []
  | s :: rest => do
    match ← keyOf s with
    | .error e => return .error e
    | .ok key =>
      match ← collect nqnStart rest with
      | .error e => return .error e
      | .ok desired => return .ok (subsystem nqnStart s key :: desired)

/-- `renderTarget`, and the NQN each export was rendered with. -/
def renderTarget (nqnStart nodeName : String) :
    ExporterProgram (Except Err (List (String × String))) := do
  match ← ask .listExports with
  | .error e => return .error e
  | .ok items =>
    let shares := listOwnedExports items nodeName .nvmeof
    match ← collect nqnStart shares with
    | .error e => return .error e
    | .ok desired =>
      match ← applyExports (desired.map .nvmeof) with
      | .error e => return .error e
      | .ok () => return .ok (shares.map fun s => (s.name, effectiveNQN nqnStart s))

def markExported (nqnStart : String) (s : NetworkExport) (nqnByName : List (String × String)) :
    ExporterProgram Unit := do
  let found := (nqnByName.lookup s.name).getD ""
  let nqn := if found = "" then effectiveNQN nqnStart s else found
  let _ ← updateStatus s .exported "Exported" ("exported " ++ s.spec.path ++ " as " ++ nqn) nqn

def reconcile (nqnStart nodeName name : String) : ExporterProgram (Except Err Unit) :=
  Exporter.reconcile nodeName .nvmeof (renderTarget nqnStart nodeName) (markExported nqnStart) name

end NVMeoFReconciler

/-! ## The host behind the NFS exporter -/

/-- Each call as the NFS exporter carries it out on its host. -/
def onNfsHost (m : Nfs.ExportManager) : (e : ExporterCall) → Nfs.NfsProgram e.Ret
  | .getExport name => Nfs.ask (.getExport name)
  | .listExports => Nfs.ask .listExports
  | .updateExport e => Nfs.ask (.updateExport e)
  | .patchExportStatus name read patched => Nfs.ask (.patchExportStatus name read patched)
  | .getSecret _ name => .pure (.error (.notFound name))
  | .apply desired => m.apply (desired.filterMap fun
      | .nfs e => some e
      | .nvmeof _ => none)

theorem collect_expand (m : Nfs.ExportManager) (shares : List NetworkExport) :
    (NFSReconciler.collect shares).expand (onNfsHost m) = Nfs.NFSReconciler.collect shares := by
  induction shares with
  | nil => rfl
  | cons s rest ih =>
    rw [NFSReconciler.collect, Nfs.NFSReconciler.collect]
    cases Nfs.NFSReconciler.toExport s with
    | none =>
      show Program.call _ (fun r => (NFSReconciler.collect rest).expand (onNfsHost m)) = _
      rw [ih]
      rfl
    | some e =>
      show ((NFSReconciler.collect rest).bind fun a => Program.pure (e :: a)).expand
        (onNfsHost m) = _
      rw [Program.expand_bind, ih]
      rfl

theorem renderExports_expand (m : Nfs.ExportManager) (nodeName : String) :
    (NFSReconciler.renderExports nodeName).expand (onNfsHost m) =
      Nfs.NFSReconciler.renderExports ⟨nodeName, m⟩ := by
  have happly : ∀ exports :
      List Nfs.Export, (applyExports (exports.map .nfs)).expand (onNfsHost m) =
      m.apply exports := by
    intro exports
    have hnfs : (exports.map HostExport.nfs).filterMap (fun
        | .nfs e => some e
        | .nvmeof _ => none) = exports := by
      induction exports with
      | nil => rfl
      | cons e exports ih => simp [ih]
    show ((m.apply _).bind fun r => Program.pure r) = _
    rw [hnfs, Program.bind_pure]
  show Program.call _ _ = Program.call _ _
  congr 1
  funext r
  cases r with
  | error e => rfl
  | ok items =>
    show ((NFSReconciler.collect _).bind fun exports => applyExports _).expand (onNfsHost m) = _
    rw [Program.expand_bind, collect_expand]
    exact congrArg _ (funext happly)

/-- Carried out on the host, the NFS exporter is the one that writes the exports file. -/
theorem reconcile_expand (m : Nfs.ExportManager) (nodeName name : String) :
    (NFSReconciler.reconcile nodeName name).expand (onNfsHost m) =
      Nfs.NFSReconciler.reconcile ⟨nodeName, m⟩ name := by
  have hrender : ∀ {α : Type} (f : Except Err Unit → ExporterProgram α),
      ((NFSReconciler.renderExports nodeName).bind f).expand (onNfsHost m) =
        (Nfs.NFSReconciler.renderExports ⟨nodeName, m⟩).bind fun a => (f a).expand
          (onNfsHost m) := by
    intro α f
    rw [Program.expand_bind, renderExports_expand]
  unfold NFSReconciler.reconcile reconcile getRequested Nfs.NFSReconciler.reconcile
    Nfs.NFSReconciler.getRequested
  show Program.call _ _ = Program.call _ _
  congr 1
  funext r
  cases r with
  | error e => rfl
  | ok s =>
    simp only [Program.bind_eq, Program.pure_eq]
    by_cases hmine : s.spec.nodeName ≠ nodeName ∨ s.spec.protocol ≠ .nfs
    · simp only [if_pos hmine, Program.pure_bind]
      rfl
    simp only [if_neg hmine, Program.pure_bind]
    by_cases hdying : s.metadata.terminating = true
    · simp only [hdying, if_true]
      by_cases hfin : s.containsFinalizer networkExportFinalizer = true
      · simp only [hfin, if_true]
        rw [hrender]
        congr 1
        funext a
        cases a <;> rfl
      · simp only [hfin]
        rfl
    · simp only [hdying]
      by_cases hfin : s.containsFinalizer networkExportFinalizer = true
      · simp only [hfin, Bool.not_true, Bool.false_eq_true, if_false]
        rw [hrender]
        congr 1
        funext a
        cases a with
        | error e => rfl
        | ok rendered =>
          simp only [NFSReconciler.markExported, Nfs.NFSReconciler.markExported]
          cases s.spec.nfs with
          | none => rfl
          | some nfs =>
            simp only
            split_ifs <;> rfl
      · simp only [hfin]
        rfl

end SimpleZfsCsi.Exporter
