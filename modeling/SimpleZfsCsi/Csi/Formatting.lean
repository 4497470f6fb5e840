import SimpleZfsCsi.Csi.Connections
import SimpleZfsCsi.Library.Dialogue

/-!
# What is formatted

`detectFS` takes every error of `blkid` for the answer that the device carries no
signature. A device is therefore formatted over its file system exactly when `blkid` fails
on it for another reason; everything else the node plugin runs respects what it finds.
-/

namespace SimpleZfsCsi.Csi

open Library Api Program

/-- The type of the file system on a device, or "". -/
def NodeHost.fsOn (s : NodeHost) (device : String) : String :=
  Text.trimSpace ((s.filesystems.lookup device).getD "")

abbrev NodeExchange := Exchange NodeCall NodeCall.Ret NodeHost

/-- A device is formatted only while it carries no file system, and mounted only as the type
found on it or just created. -/
def Spares (x : NodeExchange) : Prop :=
  match x.call with
  | .mkfs _ _ device => x.state.fsOn device = ""
  | .mount ("-t" :: fsType :: _) device _ =>
    x.state.fsOn device = fsType ∨ x.state.filesystems.lookup device = some fsType
  | _ => True

/-- The call was answered by an error. -/
def Refused (x : NodeExchange) : Bool :=
  match x.answer with
  | .error _ => true
  | .ok _ => false

/-- `blkid` fails on a device that carries a file system. -/
def Misled (x : NodeExchange) : Prop :=
  match x.call with
  | .blkid device => Refused x ∧ x.state.fsOn device ≠ ""
  | _ => False

instance : DecidablePred Spares := fun x => by
  unfold Spares
  split <;> infer_instance

instance : DecidablePred Misled := fun x => by
  unfold Misled
  split <;> infer_instance

/-- The program spares file systems in exactly those of its dialogues in which `blkid` does not
mislead it. -/
def Judged {ε α : Type} (p : Proc NodeCall NodeCall.Ret ε α) : Prop :=
  ∀ s l r t, Dialogue NodeHost.handle NodeCall.fails p.run s l r t →
    ((∀ x ∈ l, Spares x) ↔ ∀ x ∈ l, ¬ Misled x)

/-- The call neither probes, formats nor mounts a device by its type. -/
def Harmless : NodeCall → Prop
  | .blkid _ | .mkfs _ _ _ | .mount ("-t" :: _ :: _) _ _ => False
  | _ => True

theorem Resolves.harmless {e : NodeCall} (he : Resolves e) : Harmless e := by
  cases e <;> trivial

namespace Judged

variable {ε ε' α β : Type}

theorem of_calls {p : Proc NodeCall NodeCall.Ret ε α} (hp : p.run.Calls Harmless) : Judged p := by
  intro s l r t hd
  have hspares : ∀ x ∈ l, Spares x ∧ ¬ Misled x := by
    intro x hx
    have hcall := hd.calls hp x hx
    obtain ⟨e, answer, u⟩ := x
    cases e with
    | blkid _ => exact hcall.elim
    | mkfs _ _ _ => exact hcall.elim
    | mount args source target =>
      refine ⟨?_, not_false⟩
      simp only [Spares]
      split <;> simp_all [Harmless]
    | _ => exact ⟨trivial, not_false⟩
  exact ⟨fun _ x hx => (hspares x hx).2, fun _ x hx => (hspares x hx).1⟩

theorem bind {p : Proc NodeCall NodeCall.Ret ε α} {f : α → Proc NodeCall NodeCall.Ret ε β}
    (hp : Judged p) (hf : ∀ a, Judged (f a)) : Judged (p >>= f) := by
  intro s l r t hd
  obtain ⟨a, u, l₁, l₂, h₁, h₂, rfl⟩ | ⟨e, -, h₁⟩ := Proc.dialogue_bind hd
  · simp only [List.forall_mem_append, hp _ _ _ _ h₁, hf _ _ _ _ _ h₂]
  · exact hp _ _ _ _ h₁

theorem outcome {p : Proc NodeCall NodeCall.Ret ε α} (hp : Judged p) :
    Judged (p.outcome : Proc NodeCall NodeCall.Ret ε' (Except ε α)) := by
  intro s l r t hd
  obtain ⟨r', -, hd'⟩ := Proc.dialogue_outcome hd
  exact hp _ _ _ _ hd'

theorem orStatus {p : MountProc α} {f : Err → Status} (hp : Judged p) : Judged (orStatus p f) := by
  refine bind hp.outcome fun r => of_calls ?_
  cases r <;> simp

end Judged

/-! ## Formatting and mounting -/

section FormatAndMount

variable {device target fsType : String} {options : List String} {s t : NodeHost}
  {l : List NodeExchange}

/-- What `blkid` was told to `detectFS`: an error, which it takes for no file system, or what the
device carries. -/
theorem detectFS_dialogue {r : Except Err String}
    (hd : Dialogue NodeHost.handle NodeCall.fails (detectFS device).run s l r t) :
    t = s ∧ ∃ answer, l = [⟨.blkid device, answer, s⟩] ∧
      ((∃ e, answer = .error e ∧ r = .ok "") ∨
        ∃ out, answer = .ok out ∧ r = .ok (s.fsOn device)) := by
  obtain ⟨answer, u, l', rfl, hanswer, rest⟩ := Proc.dialogue_outcome_ask hd
  have hu : u = s ∧ ∀ out, answer = .ok out → Text.trimSpace out = s.fsOn device := by
    obtain hhandle | ⟨⟨msg, rfl⟩, rfl⟩ := hanswer
    · simp only [NodeHost.handle] at hhandle
      split at hhandle
      · cases hhandle
        exact ⟨rfl, by rintro _ ⟨⟩⟩
      · rename_i fs hfs
        cases hhandle
        refine ⟨rfl, ?_⟩
        rintro out ⟨⟩
        simp [NodeHost.fsOn, hfs]
    · exact ⟨rfl, by rintro _ ⟨⟩⟩
  obtain ⟨rfl, hout⟩ := hu
  cases answer with
  | error e =>
    cases rest with
    | done => exact ⟨rfl, _, rfl, .inl ⟨e, rfl, rfl⟩⟩
  | ok out =>
    cases rest with
    | done => exact ⟨rfl, _, rfl, .inr ⟨out, rfl, by rw [hout out rfl]⟩⟩

/-- `ensureFS` spares the file system on the device unless it is misled; then the device carries
the type that was asked for. -/
theorem ensureFS_dialogue {r : Except Err Unit}
    (hd : Dialogue NodeHost.handle NodeCall.fails (ensureFS device fsType).run s l r t) :
    ((∀ x ∈ l, Spares x) ↔ ∀ x ∈ l, ¬ Misled x) ∧
    ((∀ x ∈ l, ¬ Misled x) → r = .ok () →
      t.fsOn device = fsType ∨ t.filesystems.lookup device = some fsType) := by
  obtain ⟨existing, u, l₁, l₂, hdetect, rest, rfl⟩ | ⟨e, -, hdetect⟩ := Proc.dialogue_bind hd
  swap
  · obtain ⟨-, -, -, ⟨-, -, h⟩ | ⟨-, -, h⟩⟩ := detectFS_dialogue hdetect <;> cases h
  obtain ⟨rfl, answer, rfl, hanswer⟩ := detectFS_dialogue hdetect
  -- the probe is no formatting, so it only counts for whether `blkid` misleads
  have hprobe : Spares ⟨.blkid device, answer, u⟩ := trivial
  have hmisled : (existing = "" → (¬ Misled ⟨.blkid device, answer, u⟩ ↔ u.fsOn device = "")) ∧
      (existing ≠ "" → ¬ Misled ⟨.blkid device, answer, u⟩ ∧ existing = u.fsOn device) := by
    obtain ⟨e, rfl, h⟩ | ⟨out, rfl, h⟩ := hanswer <;> cases h
    · exact ⟨fun _ => by simp [Misled, Refused], fun h => absurd rfl h⟩
    · exact ⟨fun h => by simp [Misled, h], fun _ => ⟨by simp [Misled, Refused], rfl⟩⟩
  simp only [List.forall_mem_append, List.forall_mem_singleton, hprobe, true_and]
  split_ifs at rest with hblank hother
  · obtain ⟨answer', v, l', rfl, hanswer', rest⟩ := Proc.dialogue_outcome_ask rest
    have hl' : l' = [] ∧ (r = .ok () → v = t ∧ answer' = .ok ()) := by
      cases answer' with
      | error e => cases rest with | done => exact ⟨rfl, nofun⟩
      | ok => cases rest with | done => exact ⟨rfl, fun _ => ⟨rfl, rfl⟩⟩
    obtain ⟨rfl, hok⟩ := hl'
    refine ⟨?_, fun _ hr => ?_⟩
    · simp only [List.forall_mem_singleton, hmisled.1 hblank]
      exact (and_iff_left not_false).symm
    obtain ⟨rfl, rfl⟩ := hok hr
    obtain hhandle | ⟨⟨msg, h⟩, -⟩ := hanswer'
    · cases hhandle
      exact .inr (by simp)
    · cases h
  · cases rest with
    | done => exact ⟨by simp [(hmisled.2 hblank).1], nofun⟩
  · cases rest with
    | done =>
      refine ⟨by simp [(hmisled.2 hblank).1], fun _ _ => .inl ?_⟩
      rw [← (hmisled.2 hblank).2]
      exact not_not.mp hother

theorem formatAndMount_judged (device target fsType : String) (options : List String) :
    Judged (formatAndMount device target fsType options) := by
  intro s l r t hd
  obtain ⟨_, u, l₁, l₂, hensure, rest, rfl⟩ | ⟨e, -, hensure⟩ := Proc.dialogue_bind hd
  swap
  · exact (ensureFS_dialogue hensure).1
  obtain ⟨hjudged, hfs⟩ := ensureFS_dialogue hensure
  obtain ⟨answer, v, l', rfl, -, rest⟩ := Proc.dialogue_ask_bind rest
  have hl' : l' = [] := by
    obtain ⟨-, rfl, rest⟩ | ⟨-, -, h, -⟩ := rest
    · cases rest with | done => rfl
    · exact h
  subst hl'
  simp only [List.forall_mem_append, List.forall_mem_singleton]
  constructor
  · rintro ⟨h, -⟩
    exact ⟨hjudged.mp h, not_false⟩
  · rintro ⟨h, -⟩
    exact ⟨hjudged.mpr h, hfs h rfl⟩

end FormatAndMount

/-! ## Publishing -/

theorem recordFSType_harmless (volumeID fsType : String) :
    (NodeServer.recordFSType volumeID fsType).run.Calls Harmless := by
  unfold NodeServer.recordFSType
  split_ifs
  · simp
  · refine outcome_bind_calls trivial fun r => ?_
    cases r with
    | error e =>
      simp only
      split_ifs <;> simp
    | ok vol =>
      simp only
      split_ifs
      · simp
      · exact ask_calls trivial

theorem publishDevice_judged (volumeID device targetPath : String) (block readOnly : Bool)
    (fsType : String) (flags : List String) :
    Judged (NodeServer.publishDevice volumeID device targetPath block readOnly fsType flags) := by
  unfold NodeServer.publishDevice
  split_ifs
  · refine .of_calls (Proc.bind_calls (orStatus_calls (ask_calls trivial)) fun _ => ?_)
    refine orStatus_calls (ask_calls ?_)
    simp [Harmless]
  · refine .bind (.of_calls (orStatus_calls (ask_calls trivial))) fun _ => ?_
    refine .bind (formatAndMount_judged _ _ _ _).orStatus fun effectiveFS => .of_calls ?_
    exact Proc.bind_calls (Proc.outcome_calls (recordFSType_harmless _ _)) fun _ => by simp

theorem publishLocalZvol_judged (volumeID devicePath targetPath : String) (block readOnly : Bool)
    (fsType : String) (flags : List String) :
    Judged
      (NodeServer.publishLocalZvol volumeID devicePath targetPath block readOnly fsType flags) := by
  unfold NodeServer.publishLocalZvol
  split_ifs
  · exact .of_calls (by simp)
  · exact publishDevice_judged _ _ _ _ _ _ _

theorem publishNVMeoF_judged (n : NodeServer) (volumeID : String) (pool : ZfsPool)
    (targetPath : String) (block readOnly : Bool) (fsType : String) (flags : List String) :
    Judged (n.publishNVMeoF volumeID pool targetPath block readOnly fsType flags) := by
  refine .bind (.of_calls (orStatus_calls (ask_calls trivial))) fun e => ?_
  dsimp only
  split_ifs
  · exact .of_calls (by simp)
  · have hkey := (dhchapKey_resolves e).mono fun _ => Resolves.harmless
    refine .bind (.of_calls (orStatus_calls hkey)) fun key => ?_
    have hconnect := fun o => (nvmeConnect_resolves o).mono fun _ => Resolves.harmless
    refine .bind (.of_calls (orStatus_calls (hconnect _))) fun device => ?_
    exact publishDevice_judged _ _ _ _ _ _ _

/-- What a call returns to `orStatus` is the host's answer, or one it may fail with. -/
theorem orStatus_ask_dialogue {e : NodeCall} {f : Err → Status} {s t : NodeHost}
    {l : List NodeExchange} {a : e.Val}
    (hd : Dialogue NodeHost.handle NodeCall.fails (orStatus (ask e) f).run s l (.ok a) t) :
    (.ok a, t) = NodeHost.handle e s ∨ e.fails (.ok a) := by
  obtain ⟨answer, u, l', rfl, hanswer, rest⟩ := Proc.dialogue_outcome_ask hd
  cases answer with
  | error err => cases rest
  | ok b =>
    cases rest with
    | done => exact hanswer.imp id And.left

/-- A volume that is resolved from a zvol is published over NVMe-oF or from its local device. -/
theorem resolveVolume_dialogue {volumeID : String} {s t : NodeHost} {l : List NodeExchange}
    {v : NodeServer.ResolvedVolume}
    (hzvol : ∀ ds, s.datasets.lookup volumeID = some ds → ds.spec.type = .volume)
    (hd : Dialogue NodeHost.handle NodeCall.fails (NodeServer.resolveVolume volumeID).run s
      l (.ok v) t) :
    v.protocol = .nvmeof := by
  obtain ⟨ds, u, l₁, l₂, hget, rest, rfl⟩ | ⟨e, h, -⟩ := Proc.dialogue_bind hd
  · have htype : ds.spec.type = .volume := by
      obtain hhandle | ⟨msg, h⟩ := orStatus_ask_dialogue hget
      · refine hzvol ds ?_
        simp only [NodeHost.handle, Store.get] at hhandle
        cases hlookup : s.datasets.lookup volumeID <;> simp_all
      · cases h
    split_ifs at rest
    · cases rest
    · cases rest
    · cases rest with
      | done => simp [htype]
  · cases h

theorem publishByProtocol_judged (n : NodeServer) (req : NodePublishVolumeRequest)
    (volCap : VolumeCapability) {v : NodeServer.ResolvedVolume} (hv : v.protocol = .nvmeof)
    (pool : ZfsPool) : Judged (n.publishByProtocol req volCap v pool) := by
  unfold NodeServer.publishByProtocol
  rw [hv]
  dsimp only
  split_ifs
  · exact publishLocalZvol_judged _ _ _ _ _ _ _
  · exact publishNVMeoF_judged _ _ _ _ _ _ _ _

theorem nodePublishVolume_judged (n : NodeServer) (req : NodePublishVolumeRequest) {s t : NodeHost}
    {l : List NodeExchange} {r : Except Status Unit}
    (hzvol : ∀ ds, s.datasets.lookup req.volumeID = some ds → ds.spec.type = .volume)
    (hd : Dialogue NodeHost.handle NodeCall.fails (n.nodePublishVolume req).run s l r t) :
    (∀ x ∈ l, Spares x) ↔ ∀ x ∈ l, ¬ Misled x := by
  have hrefused : ∀ st : Status, Judged (throw st : NodeProc Unit) := fun st => .of_calls (by simp)
  unfold NodeServer.nodePublishVolume at hd
  split_ifs at hd
  · exact hrefused _ _ _ _ _ hd
  · exact hrefused _ _ _ _ _ hd
  · cases hcap : req.volumeCapability with
    | none =>
      rw [hcap] at hd
      exact hrefused _ _ _ _ _ hd
    | some volCap =>
      rw [hcap] at hd
      have hresolve : Judged (NodeServer.resolveVolume req.volumeID) :=
        .of_calls ((resolveVolume_resolves _).mono fun _ => Resolves.harmless)
      obtain ⟨v, u, l₁, l₂, hvolume, rest, rfl⟩ | ⟨e, -, hvolume⟩ := Proc.dialogue_bind hd
      · have hrest : Judged (do
            let pool ← NodeServer.resolvePool v.poolGUID
            let mounted ← orStatus (ask (.isMountPoint req.targetPath))
              (internal ("check mount " ++ Err.quoted req.targetPath))
            if mounted then return () else n.publishByProtocol req volCap v pool) := by
          refine .bind (.of_calls ((resolvePool_resolves _).mono fun _ => Resolves.harmless))
            fun pool => ?_
          refine .bind (.of_calls (orStatus_calls (ask_calls trivial))) fun mounted => ?_
          split_ifs
          · exact .of_calls (by simp)
          · exact publishByProtocol_judged n req volCap (resolveVolume_dialogue hzvol hvolume) pool
        simp only [List.forall_mem_append, hresolve _ _ _ _ hvolume, hrest _ _ _ _ rest]
      · exact hresolve _ _ _ _ hvolume

/-! ## The result -/

/-- Formatting and mounting a device, and publishing a zvol, formats a device only while it
carries no file system and mounts it only as the type found or just created, in exactly
those runs in which `blkid` never fails on a device that carries a file system. -/
theorem spares_iff_not_misled (n : NodeServer) :
    (∀ device target fsType options s l r t,
      Dialogue NodeHost.handle NodeCall.fails
        (formatAndMount device target fsType options).run s l r t →
      ((∀ x ∈ l, Spares x) ↔ ∀ x ∈ l, ¬ Misled x)) ∧
    ∀ req s l r t, (∀ ds, s.datasets.lookup req.volumeID = some ds → ds.spec.type = .volume) →
      Dialogue NodeHost.handle NodeCall.fails (n.nodePublishVolume req).run s l r t →
      ((∀ x ∈ l, Spares x) ↔ ∀ x ∈ l, ¬ Misled x) :=
  ⟨fun _ _ _ _ => formatAndMount_judged _ _ _ _,
    fun req _ _ _ _ hzvol hd => nodePublishVolume_judged n req hzvol hd⟩

/-- A node that hosts the pool of a zvol, which carries a file system. -/
def localZvol : NodeHost where
  datasets := Store.ofList [("pvc-1", {
    metadata := { name := "pvc-1" }
    spec :=
      { poolGUID := "1", dataset := "k8s/pvc-1", type := .volume, volume := some { size := 1 } }
    status := { phase := some .ready, path := "/dev/zvol/tank/k8s/pvc-1" } })]
  pools := Store.ofList [("zpool-1", {
    metadata := { name := "zpool-1" }
    spec := ()
    status := { currentNode := "node-a", currentIP := "10.0.0.1", health := .online } })]
  exports := Store.empty
  secrets := FinMap.empty
  mounts := FinMap.empty
  filesystems := FinMap.ofList [("/dev/zvol/tank/k8s/pvc-1", "ext4")]
  connected := FinMap.empty
  nextDevice := 1

def publishLocal : NodePublishVolumeRequest := { volumeID := "pvc-1", targetPath := "/pods/a" }

/-- The zvol is mounted with the file system `blkid` finds on it. -/
theorem spares_iff_not_misled_local :
    let l := (nodeA.nodePublishVolume publishLocal).run.transcript NodeHost.handle localZvol
    (∀ x ∈ l, ¬ Misled x) ∧ ∀ x ∈ l, Spares x := by
  have hmisled :
      ∀ x ∈ (nodeA.nodePublishVolume publishLocal).run.transcript NodeHost.handle localZvol,
      ¬ Misled x := by decide +kernel
  refine ⟨hmisled, ((spares_iff_not_misled nodeA).2 publishLocal localZvol _ _ _ ?_
    (Dialogue.transcript (fun _ _ => .inl rfl) _ _)).mpr hmisled⟩
  rintro ds ⟨⟩
  rfl

/-- The host, but `blkid` fails with an I/O error. -/
def unreadable : (e : NodeCall) → NodeHost → e.Ret × NodeHost
  | .blkid _, s => (.error (.other "exit status 1: input/output error"), s)
  | e, s => NodeHost.handle e s

/-- `blkid` fails on a zvol that carries a file system, and the zvol is formatted. -/
theorem unreadable_formatted :
    ¬ ∀ (n : NodeServer) req s l r t,
      (∀ ds, s.datasets.lookup req.volumeID = some ds → ds.spec.type = .volume) →
      Dialogue NodeHost.handle NodeCall.fails (n.nodePublishVolume req).run s l r t →
      ∀ x ∈ l, Spares x := by
  intro hclaim
  have hfails : ∀ e s, unreadable e s = NodeHost.handle e s ∨
      NodeCall.fails e (unreadable e s).1 ∧ (unreadable e s).2 = s := by
    intro e s
    cases e with
    | blkid device => exact .inr ⟨⟨_, rfl⟩, rfl⟩
    | _ => exact .inl rfl
  have hspares := hclaim nodeA publishLocal localZvol _ _ _
    (by rintro ds ⟨⟩; rfl) (Dialogue.transcript hfails _ _)
  exact absurd hspares (by decide +kernel)

end SimpleZfsCsi.Csi
