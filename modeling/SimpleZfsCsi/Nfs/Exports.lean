import SimpleZfsCsi.Api.NetworkExport
import SimpleZfsCsi.Library.Program

/-!
# The exports file and the kernel export table

`ExportManager.Apply` renders the desired exports, replaces the exports file when its
content changed, and only then runs `exportfs -ra`. The calls an exporter makes, on its
host and to the API server, are `NfsCall`; `NfsHost.handle` answers them. The kernel
table is represented by the content it was loaded from.
-/

namespace SimpleZfsCsi.Nfs

open Library Api

/-- A single export client rule. -/
structure Client where
  client : String
  options : List String := []
  deriving DecidableEq, Repr

/-- One exported path with its client rules. -/
structure Export where
  path : String
  clients : List Client
  deriving DecidableEq, Repr

def defaultOptions : List String := ["rw", "sync", "no_subtree_check", "no_root_squash"]

def renderClient (c : Client) : String :=
  let opts := if c.options.isEmpty then defaultOptions else c.options
  " " ++ c.client ++ "(" ++ ",".intercalate opts ++ ")"

def renderLine (e : Export) : String := e.path ++ String.join (e.clients.map renderClient) ++ "\n"

/-- The content of the exports file, sorted by path. -/
def renderExports (exports : List Export) : String :=
  "# Managed by simple-zfs-csi nfs-controller. DO NOT EDIT.\n" ++
    String.join ((exports.insertionSort (fun a b => a.path ≤ b.path)).map renderLine)

/-- What an exporter asks of its host and of the API server. -/
inductive NfsCall where
  | getExport (name : String)
  | listExports
  | updateExport (e : NetworkExport)
  | patchExportStatus (name : String) (read patched : NetworkExportStatus)
  | readFile (path : String)
  | writeFile (path content : String)
  | rename (old new : String)
  | exportfs

/-- What a call returns when it succeeds. -/
@[reducible] def NfsCall.Val : NfsCall → Type
  | .getExport _ => NetworkExport
  | .listExports => List NetworkExport
  | .readFile _ => String
  | _ => Unit

/-- The answer to a call. -/
abbrev NfsCall.Ret (e : NfsCall) : Type := Except Err e.Val

/-- The calls that do not go to the API server. -/
def NfsCall.onHost : NfsCall → Bool
  | .readFile _ | .writeFile _ _ | .rename _ _ | .exportfs => true
  | _ => false

/-- A call may fail for reasons of its own, without effect. -/
def NfsCall.fails (e : NfsCall) (r : e.Ret) : Prop := ∃ msg, r = .error (.other msg)

abbrev NfsProgram := Program NfsCall NfsCall.Ret

/-- The owner of the exports file. -/
structure ExportManager where
  path : String := "/etc/exports"

/-- The API server, the files of the host and the kernel export table. -/
structure NfsHost where
  exports : Store NetworkExportSpec NetworkExportStatus
  files : FinMap String String
  kernel : String

/-- Answer a call. A reload makes the kernel table equal to the exports file. -/
def NfsHost.handle (m : ExportManager) : (e : NfsCall) → NfsHost → e.Ret × NfsHost
  | .getExport name, s => (s.exports.get name, s)
  | .listExports, s => (.ok s.exports.values, s)
  | .updateExport e, s =>
    let (r, exports) := s.exports.update e
    (r, { s with exports })
  | .patchExportStatus name read patched, s =>
    let (r, exports) := s.exports.patchStatus NetworkExportStatus.merge name read patched
    (r, { s with exports })
  | .readFile path, s =>
    match s.files.lookup path with
    | none => (.error (.notExist path), s)
    | some content => (.ok content, s)
  | .writeFile path content, s => (.ok (), { s with files := s.files.insert path content })
  | .rename old new, s =>
    match s.files.lookup old with
    | none => (.error (.notExist old), s)
    | some content => (.ok (), { s with files := (s.files.erase old).insert new content })
  | .exportfs, s => (.ok (), { s with kernel := (s.files.lookup m.path).getD "" })

/-- Make one call. -/
def ask (e : NfsCall) : NfsProgram e.Ret := Program.perform e

namespace ExportManager

/-- Replace the file through a temporary one. -/
def write (m : ExportManager) (content : String) : NfsProgram (Except Err Bool) := do
  match ← ask (.writeFile (m.path ++ ".tmp") content) with
  | .error e => return .error e
  | .ok () =>
    match ← ask (.rename (m.path ++ ".tmp") m.path) with
    | .error e => return .error e
    | .ok () => return .ok true

def writeIfChanged (m : ExportManager) (content : String) : NfsProgram (Except Err Bool) := do
  match ← ask (.readFile m.path) with
  | .ok cur => if cur = content then return .ok false else m.write content
  | .error e => if e.isNotExist then m.write content else return .error e

def reload : NfsProgram (Except Err Unit) := do
  match ← ask .exportfs with
  | .error e => return .error (.wrap "exportfs -ra failed" e)
  | .ok () => return .ok ()

/-- Write the desired exports file if it changed, and reload the kernel table if it did. -/
def apply (m : ExportManager) (exports : List Export) : NfsProgram (Except Err Unit) := do
  match ← m.writeIfChanged (renderExports exports) with
  | .error e => return .error e
  | .ok false => return .ok ()
  | .ok true => reload

end ExportManager

/-! ## What an Apply leaves behind -/

/-- What the rest of the cluster may do to the host's state: anything to the API objects. -/
def apiChanges (s t : NfsHost) : Prop := t.files = s.files ∧ t.kernel = s.kernel

theorem apiChanges_refl (s : NfsHost) : apiChanges s s := ⟨rfl, rfl⟩

/-- The runs of an exporter's program: any call may fail, the program may stop before any call,
and the API objects change underneath it. -/
abbrev Runs {α : Type} (m : ExportManager) (p : NfsProgram α) (s : NfsHost)
    (l : List (NfsCall × NfsHost)) (o : Option α) (t : NfsHost) : Prop :=
  Program.Runs (NfsHost.handle m) NfsCall.fails (fun _ => apiChanges) p s l o t

/-- The exports file holds the rendering of `exports` only if the kernel does too. -/
def Synced (m : ExportManager) (exports : List Export) (s : NfsHost) : Prop :=
  s.files.lookup m.path = some (renderExports exports) → s.kernel = renderExports exports

instance (m : ExportManager) (exports : List Export) (s : NfsHost) :
    Decidable (Synced m exports s) := inferInstanceAs (Decidable (_ → _))

namespace ExportManager

open Program

variable {m : ExportManager} {exports : List Export} {content : String} {s t : NfsHost}

/-- The weakest precondition of an exporter's program that makes no call to the API server. -/
abbrev wp {α : Type} (m : ExportManager) (p : NfsProgram α) (Q : α → NfsHost → Prop)
    (s : NfsHost) : Prop :=
  Program.wp (NfsHost.handle m) NfsCall.fails (fun _ => apiChanges) (fun e _ _ => e.onHost) p Q s

theorem write_ne_false : m.wp (m.write content) (fun r _ => r ≠ .ok false) s := by
  intro t _
  refine ⟨rfl, ?_, ?_⟩
  · intro u _
    refine ⟨rfl, ?_, ?_⟩
    · simp only [NfsHost.handle]
      cases u.files.lookup (m.path ++ ".tmp") <;> intro hr <;> cases hr
    · rintro _ ⟨msg, rfl⟩ hr
      cases hr
  · rintro _ ⟨msg, rfl⟩ hr
    cases hr

theorem write_wp : m.wp (m.write content)
    (fun r t => r = .ok true → t.files.lookup m.path = some content) s := by
  intro t _
  refine ⟨rfl, ?_, ?_⟩
  · intro u hu
    have htmp : u.files.lookup (m.path ++ ".tmp") = some content := by
      rw [hu.1]
      simp [NfsHost.handle]
    refine ⟨rfl, ?_, ?_⟩
    · simp only [NfsHost.handle, htmp]
      intro _
      simp
    · rintro _ ⟨msg, rfl⟩ hr
      cases hr
  · rintro _ ⟨msg, rfl⟩ hr
    cases hr

theorem writeIfChanged_wp : m.wp (m.writeIfChanged content)
    (fun r t => (r = .ok false → s.files.lookup m.path = some content ∧ t.kernel = s.kernel) ∧
      (r = .ok true → t.files.lookup m.path = some content)) s := by
  have hwrite : ∀ u, m.wp (m.write content)
      (fun r t => (r = .ok false → s.files.lookup m.path = some content ∧ t.kernel = s.kernel) ∧
        (r = .ok true → t.files.lookup m.path = some content)) u := by
    intro u
    refine wp_mono ?_ (wp_and write_ne_false write_wp)
    rintro r t ⟨hne, h⟩
    exact ⟨fun hr => absurd hr hne, h⟩
  intro t ht
  refine ⟨rfl, ?_, ?_⟩
  · simp only [NfsHost.handle]
    cases hfile : t.files.lookup m.path with
    | none => simpa [Err.isNotExist] using hwrite t
    | some cur =>
      by_cases hcur : cur = content
      · subst hcur
        simp only [pure_bind, ↓reduceIte]
        rw [ht.1] at hfile
        exact ⟨fun _ => ⟨hfile, ht.2⟩, fun hr => by cases hr⟩
      · simpa [hcur] using hwrite t
  · rintro _ ⟨msg, rfl⟩
    exact ⟨fun hr => (by cases hr), fun hr => by cases hr⟩

theorem reload_wp (hs : s.files.lookup m.path = some content) :
    m.wp reload (fun r t => r = .ok () → t.kernel = content) s := by
  intro t ht
  refine ⟨rfl, ?_, ?_⟩
  · intro _
    simp [NfsHost.handle, ht.1, hs]
  · rintro _ ⟨msg, rfl⟩ hr
    cases hr

/-- An Apply that returns nil leaves the kernel table equal to its rendering, if it does not
find that rendering in the file without finding it in the kernel. -/
theorem apply_wp (hs : Synced m exports s) : m.wp (m.apply exports)
    (fun r t => r = .ok () → t.kernel = renderExports exports) s := by
  refine wp_bind (wp_mono ?_ writeIfChanged_wp)
  rintro (e | _ | _) t ⟨hfalse, htrue⟩
  · intro hr
    cases hr
  · intro _
    obtain ⟨hfile, hkernel⟩ := hfalse rfl
    rw [hkernel, hs hfile]
  · exact reload_wp (htrue rfl)

/-- An Apply that finds its rendering in the file does nothing. -/
theorem apply_exec_unchanged (hs : s.files.lookup m.path = some (renderExports exports)) :
    (m.apply exports).exec (NfsHost.handle m) s = (.ok (), s) := by
  simp [apply, writeIfChanged, ask, NfsHost.handle, hs]

end ExportManager

end SimpleZfsCsi.Nfs
