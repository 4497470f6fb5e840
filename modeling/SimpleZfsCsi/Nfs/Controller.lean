import SimpleZfsCsi.Nfs.Exports

/-!
# The NFS exporter

`NFSReconciler` keeps the exports file of one node equal to the nfs exports pinned to it.
Every pass renders all of them: before an export that is being deleted is let go, and
before one is marked as exported. A run of the exporter is a sequence of passes, each of
which may fail or stop at any call, with the API objects changing at any time.
-/

namespace SimpleZfsCsi.Nfs

open Library Api

structure NFSReconciler where
  nodeName : String
  exports : ExportManager

namespace NFSReconciler

variable (r : NFSReconciler)

def updateStatus (e : NetworkExport) (phase : NetworkExportPhase) (reason message : String) :
    NfsProgram (Except Err Unit) :=
  ask (.patchExportStatus e.name e.status (e.withStatus phase reason message ""))

/-- A failed status update is only logged. -/
def markInvalid (s : NetworkExport) (msg : String) : NfsProgram Unit := do
  let _ ← updateStatus s .error "InvalidSpec" msg

def markError (s : NetworkExport) (cause : Err) : NfsProgram Unit := do
  let _ ← updateStatus s .error "ExportFailed" cause.message

def markExported (s : NetworkExport) : NfsProgram Unit := do
  match s.spec.nfs with
  | none => return ()
  | some nfs =>
    if nfs.clients.isEmpty then return ()
    let _ ← updateStatus s .exported "Exported" ("exported " ++ s.spec.path ++ " over NFS")

/-- The export of the spec, unless it names no client. -/
def toExport (s : NetworkExport) : Option Export :=
  match s.spec.nfs with
  | none => none
  | some nfs =>
    if nfs.clients.isEmpty then none
    else some { path := s.spec.path, clients := nfs.clients.map fun c => ⟨c.client, c.options⟩ }

/-- The loop of `renderExports`: collect the exports, marking those without a client. -/
def collect : List NetworkExport → NfsProgram (List Export)
  | [] => return []
  | s :: rest =>
    match toExport s with
    | none => do
      markInvalid s "missing spec.nfs.clients"
      collect rest
    | some e => do
      return e :: (← collect rest)

/-- Re-list every current export of this node and apply the resulting desired state. -/
def renderExports : NfsProgram (Except Err Unit) := do
  match ← ask .listExports with
  | .error e => return .error e
  | .ok items =>
    let exports ← collect (listOwnedExports items r.nodeName .nfs)
    r.exports.apply exports

def getRequested (name : String) : NfsProgram (Option NetworkExport) := do
  match ← ask (.getExport name) with
  | .error _ => return none
  | .ok s =>
    if s.spec.nodeName ≠ r.nodeName ∨ s.spec.protocol ≠ .nfs then return none else return some s

/-- `client.IgnoreNotFound`. -/
def ignoreNotFound : Except Err Unit → Except Err Unit
  | .error e => if e.isNotFound then .ok () else .error e
  | .ok () => .ok ()

def reconcile (name : String) : NfsProgram (Except Err Unit) := do
  match ← r.getRequested name with
  | none => return .ok ()
  | some export_ =>
    if export_.metadata.terminating then
      if export_.containsFinalizer networkExportFinalizer then
        match ← r.renderExports with
        | .error e => return .error e
        | .ok () =>
          return ignoreNotFound
            (← ask (.updateExport (export_.removeFinalizer networkExportFinalizer)))
      else return .ok ()
    else if !export_.containsFinalizer networkExportFinalizer then
      ask (.updateExport (export_.addFinalizer networkExportFinalizer))
    else
      match ← r.renderExports with
      | .error e =>
        markError export_ e
        return .error e
      | .ok () =>
        markExported export_
        return .ok ()

/-- What the exporter renders when the API server lists `items`. -/
def desired (items : List NetworkExport) : List Export :=
  (listOwnedExports items r.nodeName .nfs).filterMap toExport

end NFSReconciler

/-- An update that releases an export: it is written back without the finalizer. -/
def NfsCall.Releases : NfsCall → Prop
  | .updateExport e => ¬ e.containsFinalizer networkExportFinalizer
  | _ => False

/-- A status patch that marks an export as exported. -/
def NfsCall.MarksExported : NfsCall → Prop
  | .patchExportStatus _ _ patched => patched.phase = some .exported
  | _ => False

/-- The call that lists the exports. -/
def NfsCall.lists : NfsCall → Bool
  | .listExports => true
  | _ => false

/-- The calls that neither release nor mark an export, nor list the exports. -/
def NfsCall.Quiet (e : NfsCall) : Prop := ¬ e.Releases ∧ ¬ e.MarksExported ∧ ¬ e.lists

theorem NfsCall.Quiet.of_onHost {e : NfsCall} (he : e.onHost) : e.Quiet := by
  cases e <;> simp_all [NfsCall.onHost, NfsCall.Quiet, NfsCall.Releases, NfsCall.MarksExported,
    NfsCall.lists]

/-- In a pass with the calls `l`, each release and each mark finds the kernel table equal to
what the pass rendered. -/
def NFSReconciler.Sound (r : NFSReconciler) (l : List (NfsCall × NfsHost)) : Prop :=
  ∀ l₁ e u l₂, l = l₁ ++ (e, u) :: l₂ → e.Releases ∨ e.MarksExported →
    ∃ c ∈ l₁, c.1.lists ∧ u.kernel = Nfs.renderExports (r.desired c.2.exports.values)

/-- The exporter's history: its passes, in order, each with the calls that took effect. -/
inductive History (r : NFSReconciler) : NfsHost → List (List (NfsCall × NfsHost)) →
    NfsHost → Prop where
  | start (s : NfsHost) : History r s [] s
  | pass {s u t : NfsHost} {passes : List (List (NfsCall × NfsHost))} {name : String}
      {l : List (NfsCall × NfsHost)} {o : Option (Except Err Unit)} (before : History r s passes u)
      (pass : Runs r.exports (r.reconcile name) u l o t) : History r s (passes ++ [l]) t
  | api {s u t : NfsHost} {passes : List (List (NfsCall × NfsHost))} (before : History r s passes u)
      (change : apiChanges u t) : History r s passes t

/-! ## One pass -/

namespace NFSReconciler

open Program

variable {r : NFSReconciler} {s t : NfsHost} {l : List (NfsCall × NfsHost)}

theorem collect_wp (m : ExportManager) (shares : List NetworkExport) (hs : apiChanges s t) :
    (collect shares).wp (NfsHost.handle m) NfsCall.fails (fun _ => apiChanges)
      (fun e _ _ => e.Quiet) (fun a t => a = shares.filterMap toExport ∧ apiChanges s t) t := by
  induction shares generalizing t with
  | nil => exact ⟨rfl, hs⟩
  | cons share rest ih =>
    rw [collect]
    cases hshare : toExport share with
    | none =>
      intro u hu
      have hsu : apiChanges s u := ⟨hu.1.trans hs.1, hu.2.trans hs.2⟩
      have hrest : List.filterMap toExport (share :: rest) = List.filterMap toExport rest := by
        simp [hshare]
      rw [hrest]
      refine ⟨?_, ih hsu, fun _ _ => ih hsu⟩
      simp [NfsCall.Quiet, NfsCall.Releases, NfsCall.MarksExported, NfsCall.lists,
        NetworkExport.withStatus]
    | some e =>
      refine wp_bind (wp_mono ?_ (ih hs))
      rintro a u ⟨rfl, hu⟩
      exact ⟨by simp [hshare], hu⟩

/-- The part of `renderExports` after the listing. -/
theorem apply_collect_wp (items : List NetworkExport) (hs : Synced r.exports (r.desired items) s) :
    ((collect (listOwnedExports items r.nodeName .nfs)).bind r.exports.apply).wp
      (NfsHost.handle r.exports) NfsCall.fails (fun _ => apiChanges) (fun e _ _ => e.Quiet)
      (fun a t => a = .ok () → t.kernel = Nfs.renderExports (r.desired items)) s := by
  refine wp_bind (wp_mono ?_ (collect_wp _ _ (apiChanges_refl s)))
  rintro a t ⟨rfl, ht⟩
  have hsynced : Synced r.exports (r.desired items) t := by
    intro hfile
    rw [ht.2]
    exact hs (ht.1 ▸ hfile)
  exact wp_guar_mono (fun _ _ _ => NfsCall.Quiet.of_onHost) (ExportManager.apply_wp hsynced)

theorem renderExports_runs {o : Option (Except Err Unit)}
    (hr : Runs r.exports r.renderExports s l o t)
    (hl : ∀ c ∈ l, c.1.lists → Synced r.exports (r.desired c.2.exports.values) c.2) :
    (∀ c ∈ l, ¬ c.1.Releases ∧ ¬ c.1.MarksExported) ∧
      (o = some (.ok ()) → ∃ c ∈ l, c.1.lists ∧
        t.kernel = Nfs.renderExports (r.desired c.2.exports.values)) := by
  cases hr with
  | stop => exact ⟨by simp, by simp⟩
  | @answer _ _ _ u _ l' _ _ rest =>
    have hwp := apply_collect_wp u.exports.values (hl (.listExports, u) (by simp) rfl)
    obtain ⟨hquiet, hkernel⟩ := wp_runs hwp rest
    refine ⟨?_, fun ho => ⟨(.listExports, u), by simp, rfl, hkernel _ ho rfl⟩⟩
    intro c hc
    rcases List.mem_cons.mp hc with rfl | hc
    · exact ⟨fun h => h, fun h => h⟩
    · exact ⟨(hquiet c hc).1, (hquiet c hc).2.1⟩
  | fail _ hfail rest =>
    obtain ⟨msg, rfl⟩ := hfail
    cases rest with
    | done => exact ⟨by simp, by simp⟩

theorem sound_of_quiet (hquiet : ∀ c ∈ l, ¬ c.1.Releases ∧ ¬ c.1.MarksExported) : r.Sound l := by
  rintro l₁ e u l₂ rfl he
  have := hquiet (e, u) (by simp)
  tauto

/-- Calls that come after a listing and find the kernel as the listing asks may do anything. -/
theorem sound_after {l₁ l₂ : List (NfsCall × NfsHost)} {v : NfsCall × NfsHost}
    (hquiet : ∀ c ∈ l₁, ¬ c.1.Releases ∧ ¬ c.1.MarksExported) (hv : v ∈ l₁)
    (hlists : v.1.lists)
    (hkernel : ∀ c ∈ l₂, c.2.kernel = Nfs.renderExports (r.desired v.2.exports.values)) :
    r.Sound (l₁ ++ l₂) := by
  intro k₁ e u k₂ heq he
  obtain ⟨m, rfl, hm⟩ | ⟨m, rfl, hm⟩ := List.append_eq_append_iff.mp heq
  · refine ⟨v, List.mem_append_left _ hv, hlists, hkernel (e, u) ?_⟩
    simp [hm]
  · cases m with
    | nil =>
      refine ⟨v, by simpa using hv, hlists, hkernel (e, u) ?_⟩
      rw [List.nil_append] at hm
      exact hm ▸ List.mem_cons_self
    | cons c m =>
      obtain ⟨rfl, _⟩ : (e, u) = c ∧ _ := by simpa using hm
      have := hquiet (e, u) (by simp)
      tauto

theorem sound_append_left {l₁ l₂ : List (NfsCall × NfsHost)}
    (hquiet : ∀ c ∈ l₁, ¬ c.1.Releases ∧ ¬ c.1.MarksExported) (hl₂ : r.Sound l₂) :
    r.Sound (l₁ ++ l₂) := by
  intro k₁ e u k₂ heq he
  obtain ⟨m, rfl, hm⟩ | ⟨m, rfl, hm⟩ := List.append_eq_append_iff.mp heq
  · obtain ⟨v, hv, hkernel⟩ := hl₂ m e u k₂ hm he
    exact ⟨v, List.mem_append_right _ hv, hkernel⟩
  · cases m with
    | nil =>
      obtain ⟨v, hv, _⟩ := hl₂ [] e u k₂ hm.symm he
      simp at hv
    | cons c m =>
      obtain ⟨rfl, _⟩ : (e, u) = c ∧ _ := by simpa using hm
      have := hquiet (e, u) (by simp)
      tauto

/-- What a pass does after rendering is sound when it only releases and marks if the rendering
succeeded, and leaves the kernel alone until then. -/
theorem renderExports_then_sound {k : Except Err Unit → NfsProgram (Except Err Unit)}
    {o : Option (Except Err Unit)}
    (herror : ∀ e u, (k (.error e)).wp (NfsHost.handle r.exports) NfsCall.fails
      (fun _ => apiChanges) (fun e _ _ => ¬ e.Releases ∧ ¬ e.MarksExported) (fun _ _ => True) u)
    (hok : ∀ K u, u.kernel = K → (k (.ok ())).wp (NfsHost.handle r.exports) NfsCall.fails
      (fun _ => apiChanges) (fun _ s _ => s.kernel = K) (fun _ _ => True) u)
    (hr : Runs r.exports (r.renderExports.bind k) s l o t)
    (hl : ∀ c ∈ l, c.1.lists → Synced r.exports (r.desired c.2.exports.values) c.2) :
    r.Sound l := by
  obtain ⟨a, u, l₁, l₂, hrender, hk, rfl⟩ | ⟨hrender, _⟩ := Runs.of_bind hr
  · obtain ⟨hquiet, hkernel⟩ :=
      renderExports_runs hrender fun c hc => hl c (List.mem_append_left _ hc)
    cases a with
    | error e =>
      have := (wp_runs (herror e u) hk).1
      exact sound_append_left hquiet (sound_of_quiet this)
    | ok a =>
      obtain ⟨v, hv, hlists, hK⟩ := hkernel rfl
      exact sound_after hquiet hv hlists (wp_runs (hok _ u hK) hk).1
  · exact sound_of_quiet (renderExports_runs hrender hl).1

theorem getRequested_runs {name : String} {o : Option (Option NetworkExport)}
    (hr : Runs r.exports (r.getRequested name) s l o t) :
    ∀ c ∈ l, ¬ c.1.Releases ∧ ¬ c.1.MarksExported := by
  have hwp : (r.getRequested name).wp (NfsHost.handle r.exports) NfsCall.fails
      (fun _ => apiChanges) (fun e _ _ => ¬ e.Releases ∧ ¬ e.MarksExported)
      (fun _ _ => True) s := by
    intro u _
    refine ⟨⟨fun h => h, fun h => h⟩, ?_, ?_⟩
    · cases hget : (NfsHost.handle r.exports (.getExport name) u).1 with
      | error e => trivial
      | ok e =>
        simp only [pure_bind]
        split_ifs <;> trivial
    · rintro _ ⟨msg, rfl⟩
      trivial
  exact (wp_runs hwp hr).1

/-- The calls after the rendering find the kernel table as it left it. -/
theorem release_wp {e : NetworkExport} {K : String} (hs : s.kernel = K) :
    ((ask (.updateExport e)).bind fun a =>
      (Program.pure (ignoreNotFound a) : NfsProgram (Except Err Unit))).wp
      (NfsHost.handle r.exports) NfsCall.fails (fun _ => apiChanges) (fun _ s _ => s.kernel = K)
      (fun _ _ => True) s := by
  intro u hu
  exact ⟨hu.2.trans hs, trivial, fun _ _ => trivial⟩

theorem markExported_wp {e : NetworkExport} {K : String} (hs : s.kernel = K) :
    ((markExported e).bind fun _ =>
      (Program.pure (.ok ()) : NfsProgram (Except Err Unit))).wp
      (NfsHost.handle r.exports) NfsCall.fails (fun _ => apiChanges) (fun _ s _ => s.kernel = K)
      (fun _ _ => True) s := by
  unfold markExported
  split
  · trivial
  · split_ifs
    · trivial
    · intro u hu
      exact ⟨hu.2.trans hs, trivial, fun _ _ => trivial⟩

theorem markError_wp {e : NetworkExport} {err : Err} :
    ((markError e err).bind fun _ =>
      (Program.pure (.error err) : NfsProgram (Except Err Unit))).wp
      (NfsHost.handle r.exports) NfsCall.fails (fun _ => apiChanges)
      (fun e _ _ => ¬ e.Releases ∧ ¬ e.MarksExported) (fun _ _ => True) s := by
  intro u _
  refine ⟨⟨fun h => h, ?_⟩, trivial, fun _ _ => trivial⟩
  simp [NfsCall.MarksExported, NetworkExport.withStatus]

theorem addFinalizer_wp (e : NetworkExport) :
    (ask (.updateExport (e.addFinalizer networkExportFinalizer))).wp (NfsHost.handle r.exports)
      NfsCall.fails (fun _ => apiChanges) (fun e _ _ => ¬ e.Releases ∧ ¬ e.MarksExported)
      (fun _ _ => True) s := by
  intro u _
  refine ⟨⟨?_, fun h => h⟩, trivial, fun _ _ => trivial⟩
  simp [NfsCall.Releases, Object.containsFinalizer, Object.addFinalizer]

/-- Every pass whose listing finds the file and the kernel in step is sound. -/
theorem reconcile_sound {name : String} {o : Option (Except Err Unit)}
    (hr : Runs r.exports (r.reconcile name) s l o t)
    (hl : ∀ c ∈ l, c.1.lists → Synced r.exports (r.desired c.2.exports.values) c.2) :
    r.Sound l := by
  obtain ⟨req, u, l₁, l₂, hget, hrest, rfl⟩ | ⟨hget, _⟩ := Runs.of_bind hr
  swap
  · exact sound_of_quiet (getRequested_runs hget)
  refine sound_append_left (getRequested_runs hget) ?_
  have hl₂ : ∀ c ∈ l₂, c.1.lists → Synced r.exports (r.desired c.2.exports.values) c.2 :=
    fun c hc => hl c (List.mem_append_right _ hc)
  cases req with
  | none =>
    cases hrest with
    | done => exact sound_of_quiet (by simp)
  | some e =>
    simp only at hrest
    split_ifs at hrest with hdel hfin hfin
    · refine renderExports_then_sound ?_ ?_ hrest hl₂
      · exact fun _ _ => trivial
      · exact fun K u hu => release_wp hu
    · cases hrest with
      | done => exact sound_of_quiet (by simp)
    · exact sound_of_quiet (wp_runs (addFinalizer_wp e) hrest).1
    · refine renderExports_then_sound ?_ ?_ hrest hl₂
      · exact fun _ _ => markError_wp
      · exact fun K u hu => markExported_wp hu

end NFSReconciler

/-! ## Every run -/

/-- One call of `Apply` in a sequence of them: its argument, the states around it and what it
returned, if it returned. -/
structure ApplyCall where
  exports : List Export
  before : NfsHost
  result : Option (Except Err Unit)
  after : NfsHost

/-- A sequence of `Apply` calls, of which every write and every reload may fail. -/
inductive Applies (m : ExportManager) : NfsHost → List ApplyCall → NfsHost → Prop where
  | start (s : NfsHost) : Applies m s [] s
  | apply {s u t : NfsHost} {calls : List ApplyCall} {exports : List Export}
      {l : List (NfsCall × NfsHost)} {o : Option (Except Err Unit)} (before : Applies m s calls u)
      (run : Runs m (m.apply exports) u l o t) : Applies m s (calls ++ [⟨exports, u, o, t⟩]) t

theorem synced_of_apply_sound {m : ExportManager} {exports : List Export} {s : NfsHost}
    (hs : ∀ l t, Runs m (m.apply exports) s l (some (.ok ())) t →
      t.kernel = renderExports exports) :
    Synced m exports s := by
  intro hfile
  have hexec := ExportManager.apply_exec_unchanged hfile
  have hrun : Runs m (m.apply exports) s _ _ _ :=
    Program.Runs.exec (fun _ => apiChanges_refl) (m.apply exports) s
  rw [hexec] at hrun
  exact hs _ _ hrun

theorem Applies.sound {m : ExportManager} {s t : NfsHost} {calls : List ApplyCall}
    (hr : Applies m s calls t) (hcalls : ∀ c ∈ calls, Synced m c.exports c.before) :
    ∀ c ∈ calls, c.result = some (.ok ()) → c.after.kernel = renderExports c.exports := by
  induction hr with
  | start => simp
  | @apply u t calls exports l o _ run ih =>
    intro c hc hresult
    rcases List.mem_append.mp hc with hc | hc
    · exact ih (fun c hc => hcalls c (List.mem_append_left _ hc)) c hc hresult
    · obtain rfl := List.mem_singleton.mp hc
      have hsynced := hcalls ⟨exports, u, o, t⟩ (by simp)
      exact (Program.wp_runs (ExportManager.apply_wp hsynced) run).2 _ hresult rfl

theorem History.sound {r : NFSReconciler} {s t : NfsHost}
    {passes : List (List (NfsCall × NfsHost))} (hr : History r s passes t)
    (hpasses : ∀ l ∈ passes, ∀ c ∈ l, c.1.lists →
      Synced r.exports (r.desired c.2.exports.values) c.2) : ∀ l ∈ passes, r.Sound l := by
  induction hr with
  | start => simp
  | pass _ pass ih =>
    intro l hl
    rcases List.mem_append.mp hl with hl | hl
    · exact ih (fun l hl => hpasses l (List.mem_append_left _ hl)) l hl
    · obtain rfl := List.mem_singleton.mp hl
      exact NFSReconciler.reconcile_sound pass (hpasses l (by simp))
  | api _ _ ih => exact ih hpasses

/-- An `Apply` that returns nil leaves the kernel table equal to its rendering exactly when it
does not find that rendering in the file with another one in the kernel; in every sequence of
`Apply` calls that meet this, and in every run of the exporter whose listings meet it, the
kernel holds what was rendered whenever the exporter relies on it. -/
theorem apply_fidelity (s : NfsHost) :
    (∀ (m : ExportManager) (exports : List Export),
      (∀ l t, Runs m (m.apply exports) s l (some (.ok ())) t → t.kernel = renderExports exports) ↔
        Synced m exports s) ∧
    (∀ (m : ExportManager) (t : NfsHost) (calls : List ApplyCall), Applies m s calls t →
      (∀ c ∈ calls, Synced m c.exports c.before) →
      ∀ c ∈ calls, c.result = some (.ok ()) → c.after.kernel = renderExports c.exports) ∧
    (∀ (r : NFSReconciler) (t : NfsHost) (passes : List (List (NfsCall × NfsHost))),
      History r s passes t →
      (∀ l ∈ passes, ∀ c ∈ l, c.1.lists → Synced r.exports (r.desired c.2.exports.values) c.2) →
      ∀ l ∈ passes, r.Sound l) := by
  refine ⟨fun m exports => ⟨synced_of_apply_sound, ?_⟩, ?_, ?_⟩
  · intro hs l t hr
    exact (Program.wp_runs (ExportManager.apply_wp hs) hr).2 _ rfl rfl
  · exact fun m t calls hr hcalls => hr.sound hcalls
  · exact fun r t passes hr hpasses => hr.sound hpasses

/-- A node with one export that has its finalizer, nothing in the file and nothing exported. -/
def freshHost : NfsHost where
  exports := Store.ofList [("e1", {
    metadata := { name := "e1", finalizers := [networkExportFinalizer] }
    spec := { nodeName := "n1", protocol := .nfs, path := "/tank/v",
              nfs := some { clients := [{ client := "10.0.0.0/8" }] } }
    status := {} })]
  files := FinMap.empty
  kernel := ""

def freshExporter : NFSReconciler := { nodeName := "n1", exports := {} }

/-- The first `Apply` of a fresh host is faithful, and so is a pass that marks the export. -/
theorem apply_fidelity_freshHost :
    (∀ l t, Runs {} (ExportManager.apply {} [⟨"/tank/v", []⟩]) freshHost l (some (.ok ())) t →
      t.kernel = renderExports [⟨"/tank/v", []⟩]) ∧
    freshExporter.Sound ((freshExporter.reconcile "e1").trace (NfsHost.handle {}) freshHost) := by
  have hrun : Runs {} (freshExporter.reconcile "e1") freshHost _ _ _ :=
    Program.Runs.exec (fun _ => apiChanges_refl) (freshExporter.reconcile "e1") freshHost
  refine ⟨((apply_fidelity freshHost).1 {} [⟨"/tank/v", []⟩]).mpr (by decide), ?_⟩
  refine (apply_fidelity freshHost).2.2 freshExporter _ _ (.pass (.start freshHost) hrun)
    ?_ _ (by simp)
  intro l hl
  obtain rfl := List.mem_singleton.mp hl
  decide

/-- The reload of the first `Apply` fails after the file was written; the second finds the file
in place, skips the reload and returns nil with the kernel table still empty. -/
theorem apply_skips_lost_reload :
    ¬ ∀ (m : ExportManager) (s t : NfsHost) (calls : List ApplyCall), Applies m s calls t →
      ∀ c ∈ calls, c.result = some (.ok ()) → c.after.kernel = renderExports c.exports := by
  intro hclaim
  let exports : List Export := [⟨"/tank/v", [⟨"10.0.0.0/8", []⟩]⟩]
  let lost : NfsHost := { freshHost with
    files := ((freshHost.files.insert "/etc/exports.tmp" (renderExports exports)).erase
      "/etc/exports.tmp").insert "/etc/exports" (renderExports exports) }
  have hfirst : ∃ l, Runs {} (ExportManager.apply {} exports) freshHost l
      (some (.error (.wrap "exportfs -ra failed" (.other "killed")))) lost := by
    refine ⟨_, .answer (apiChanges_refl _) (.answer (apiChanges_refl _) (.answer (apiChanges_refl _)
      (.fail (apiChanges_refl _) ⟨"killed", rfl⟩ (.done _ _))))⟩
  have hsecond : Runs {} (ExportManager.apply {} exports) lost _ _ _ :=
    Program.Runs.exec (fun _ => apiChanges_refl) (ExportManager.apply {} exports) lost
  rw [ExportManager.apply_exec_unchanged rfl] at hsecond
  obtain ⟨l, hfirst⟩ := hfirst
  have := hclaim {} freshHost lost _ (.apply (.apply (.start freshHost) hfirst) hsecond)
    ⟨exports, lost, some (.ok ()), lost⟩ (by simp) rfl
  revert this
  decide

end SimpleZfsCsi.Nfs
