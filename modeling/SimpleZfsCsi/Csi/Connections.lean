import SimpleZfsCsi.Csi.Node

/-!
# How long a subsystem stays connected

A volume counts as published at a target path from the return of a `NodePublishVolume` to
that of a `NodeUnpublishVolume` for both. The connection belongs to the volume and not to
the target path, so an unpublish keeps what is published connected only when no other
published target path uses the same subsystem.
-/

namespace SimpleZfsCsi.Csi

open Library Api Program

/-- The NQN the node plugin finds for a volume. -/
def NodeHost.volumeNQN (s : NodeHost) (v : String) : String :=
  match s.exports.lookup v with
  | some e => exportNQN e
  | none => ""

/-- The volume is a zvol of a pool that another node hosts. -/
def NodeHost.Remote (n : NodeServer) (s : NodeHost) (v : String) : Prop :=
  ∃ ds pool, s.datasets.lookup v = some ds ∧ ds.spec.type = .volume ∧
    s.pools.lookup (resourceName ds.spec.poolGUID) = some pool ∧ ¬ isLocalToPool n.nodeID pool

/-- The subsystem of the volume is connected. -/
def NodeHost.Connected (s : NodeHost) (v : String) : Prop :=
  (s.connected.lookup (s.volumeNQN v)).isSome

/-- The call disconnects no subsystem but `lost`. -/
def Keeps (lost : Option String) (e : NodeCall) : Prop :=
  ∀ nqn, e = .nvmeDisconnect nqn → lost = some nqn

/-- From `s` to `t` no subsystem but `lost` was disconnected, and the objects a volume is
resolved from stayed as they were. -/
structure Grows (lost : Option String) (s t : NodeHost) : Prop where
  exports : t.exports = s.exports
  pools : t.pools = s.pools
  datasets : ∀ v ds, t.datasets.lookup v = some ds →
    ∃ ds', s.datasets.lookup v = some ds' ∧ ds'.spec = ds.spec
  connected : ∀ nqn, lost ≠ some nqn → (s.connected.lookup nqn).isSome →
    (t.connected.lookup nqn).isSome

namespace Grows

variable {n : NodeServer} {lost : Option String} {s t u : NodeHost} {v : String}

theorem refl (s : NodeHost) : Grows lost s s :=
  ⟨rfl, rfl, fun _ ds h => ⟨ds, h, rfl⟩, fun _ _ h => h⟩

theorem weaken (h : Grows none s t) : Grows lost s t :=
  ⟨h.exports, h.pools, h.datasets, fun nqn _ => h.connected nqn nofun⟩

theorem volumeNQN (h : Grows lost s t) : t.volumeNQN v = s.volumeNQN v := by
  simp [NodeHost.volumeNQN, h.exports]

theorem isConnected (h : Grows lost s t) (hv : lost ≠ some (s.volumeNQN v)) (hs : s.Connected v) :
    t.Connected v := by
  have hc := h.connected _ hv hs
  rwa [← h.volumeNQN] at hc

theorem remote (h : Grows lost s t) (ht : t.Remote n v) : s.Remote n v := by
  obtain ⟨ds, pool, hds, htype, hpool, hlocal⟩ := ht
  obtain ⟨ds', hds', hspec⟩ := h.datasets v ds hds
  exact ⟨ds', pool, hds', hspec ▸ htype, hspec ▸ h.pools ▸ hpool, hlocal⟩

theorem handle (h : Grows lost s t) {e : NodeCall} (he : Keeps lost e) :
    Grows lost s (NodeHost.handle e t).2 := by
  cases e with
  | nvmeDisconnect nqn =>
    have hlost := he nqn rfl
    simp only [NodeHost.handle]
    split_ifs
    · refine ⟨h.exports, h.pools, h.datasets, ?_⟩
      intro q hq hs
      have hne : q ≠ nqn := by
        rintro rfl
        exact hq hlost
      simpa [hne] using h.connected q hq hs
    · exact h
  | patchDatasetStatus name read patched =>
    refine ⟨h.exports, h.pools, ?_, h.connected⟩
    intro v ds hds
    obtain ⟨ds', hds', hspec'⟩ := Store.patchStatus_spec hds
    obtain ⟨ds'', hds'', hspec''⟩ := h.datasets v ds' hds'
    exact ⟨ds'', hds'', hspec''.trans hspec'⟩
  | nvmeConnect o =>
    simp only [NodeHost.handle]
    split_ifs with hc
    · exact h
    · refine ⟨h.exports, h.pools, h.datasets, ?_⟩
      intro nqn hq hnqn
      have := h.connected nqn hq hnqn
      by_cases hn : nqn = o.nqn
      · simp [hn]
      · simpa [hn] using this
  | getSecret ns name =>
    simp only [NodeHost.handle]
    split <;> exact h
  | blkid device =>
    simp only [NodeHost.handle]
    split <;> exact h
  | _ => exact ⟨h.exports, h.pools, h.datasets, h.connected⟩

end Grows

/-! ## Publishing never disconnects -/

/-- The call resolves a volume from its objects, or connects its subsystem. -/
def Resolves : NodeCall → Prop
  | .getDataset _ | .getPool _ | .getExport _ | .getSecret _ _ | .isMountPoint _ => True
  | .nvmeDevice _ | .waitNVMeDevice _ | .nvmeConnect _ => True
  | _ => False

theorem Resolves.keeps {α : Type} {p : Program NodeCall NodeCall.Ret α} (hp : p.Calls Resolves) :
    p.Calls (Keeps none) := by
  refine hp.mono fun e he nqn h => ?_
  subst h
  exact he.elim

section Calls

variable {P : NodeCall → Prop}

theorem ask_calls {e : NodeCall} (he : P e) : (ask e).run.Calls P := by simp [ask, he]

theorem orStatus_calls {α : Type} {p : MountProc α} {f : Err → Status} (hp : p.run.Calls P) :
    (orStatus p f).run.Calls P := by
  refine Proc.bind_calls (Proc.outcome_calls hp) fun r => ?_
  cases r <;> simp

theorem outcome_bind_calls {ε α : Type} {e : NodeCall}
    {f : Except Err e.Val → Proc NodeCall NodeCall.Ret ε α} (he : P e)
    (hf : ∀ r, (f r).run.Calls P) : ((ask e).outcome >>= f).run.Calls P :=
  Proc.bind_calls (Proc.outcome_calls (ask_calls he)) hf

theorem ensureFS_calls (device fsType : String) :
    (ensureFS device fsType).run.Calls (Keeps none) := by
  refine Proc.bind_calls (outcome_bind_calls nofun fun r => ?_)
    fun existing => ?_
  · cases r <;> simp
  · split_ifs
    · refine outcome_bind_calls nofun fun r => ?_
      cases r <;> simp
    · simp
    · simp

theorem formatAndMount_calls (device target fsType : String) (options : List String) :
    (formatAndMount device target fsType options).run.Calls (Keeps none) := by
  refine Proc.bind_calls (ensureFS_calls _ _) fun _ => ?_
  exact Proc.bind_calls (ask_calls nofun) fun _ => by simp

theorem recordFSType_calls (volumeID fsType : String) :
    (NodeServer.recordFSType volumeID fsType).run.Calls (Keeps none) := by
  unfold NodeServer.recordFSType
  split_ifs
  · simp
  · refine outcome_bind_calls nofun fun r => ?_
    cases r with
    | error e =>
      simp only
      split_ifs <;> simp
    | ok vol =>
      simp only
      split_ifs
      · simp
      · exact ask_calls nofun

theorem publishDevice_calls (volumeID device targetPath : String) (block readOnly : Bool)
    (fsType : String) (flags : List String) :
    (NodeServer.publishDevice volumeID device targetPath block readOnly fsType flags).run.Calls
      (Keeps none) := by
  unfold NodeServer.publishDevice
  split_ifs
  · refine Proc.bind_calls (orStatus_calls (ask_calls nofun)) fun _ => ?_
    exact orStatus_calls (ask_calls nofun)
  · refine Proc.bind_calls (orStatus_calls (ask_calls nofun)) fun _ => ?_
    refine Proc.bind_calls (orStatus_calls (formatAndMount_calls _ _ _ _)) fun _ => ?_
    exact Proc.bind_calls (Proc.outcome_calls (recordFSType_calls _ _)) fun _ => by simp

theorem nvmeConnect_resolves (o : NVMeConnectOptions) : (nvmeConnect o).run.Calls Resolves := by
  have hwait : (connectAndWait.waitDevice o).run.Calls Resolves := by
    refine Proc.bind_calls (ask_calls trivial) fun dev => ?_
    split_ifs <;> simp
  have hconnect : (connectAndWait o).run.Calls Resolves := by
    refine outcome_bind_calls trivial fun r => ?_
    cases r with
    | error e =>
      simp only
      split_ifs
      · exact hwait
      · simp
    | ok => exact hwait
  refine outcome_bind_calls trivial fun r => ?_
  cases r with
  | error e => exact hconnect
  | ok dev =>
    simp only
    split_ifs
    · simp
    · exact hconnect

theorem dhchapKey_resolves (e : NetworkExport) : (NodeServer.dhchapKey e).run.Calls Resolves := by
  unfold NodeServer.dhchapKey
  cases e.spec.nvmeof with
  | none => simp
  | some spec =>
    simp only
    split_ifs
    · simp
    · simp
    · refine outcome_bind_calls trivial fun r => ?_
      cases r with
      | error e => simp
      | ok data =>
        simp only
        split_ifs <;> simp

theorem resolveVolume_resolves (volumeID : String) :
    (NodeServer.resolveVolume volumeID).run.Calls Resolves := by
  refine Proc.bind_calls (orStatus_calls (ask_calls trivial)) fun ds => ?_
  split_ifs <;> simp

theorem resolvePool_resolves (poolGUID : String) :
    (NodeServer.resolvePool poolGUID).run.Calls Resolves := by
  refine Proc.bind_calls (orStatus_calls (ask_calls trivial)) fun pool => ?_
  split_ifs <;> simp

theorem publishNVMeoF_calls (n : NodeServer) (volumeID : String) (pool : ZfsPool)
    (targetPath : String) (block readOnly : Bool) (fsType : String) (flags : List String) :
    (n.publishNVMeoF volumeID pool targetPath block readOnly fsType flags).run.Calls
      (Keeps none) := by
  refine Proc.bind_calls (orStatus_calls (ask_calls nofun)) fun e => ?_
  dsimp only
  split_ifs
  · simp
  · refine Proc.bind_calls (orStatus_calls (Resolves.keeps (dhchapKey_resolves e))) fun key => ?_
    refine Proc.bind_calls (orStatus_calls (Resolves.keeps (nvmeConnect_resolves _)))
      fun device => ?_
    exact publishDevice_calls _ _ _ _ _ _ _

theorem publishByProtocol_calls (n : NodeServer) (req : NodePublishVolumeRequest)
    (volCap : VolumeCapability) (v : NodeServer.ResolvedVolume) (pool : ZfsPool) :
    (n.publishByProtocol req volCap v pool).run.Calls (Keeps none) := by
  unfold NodeServer.publishByProtocol
  cases v.protocol with
  | nfs =>
    simp only [NodeServer.publishLocalDataset, NodeServer.publishNFS]
    split_ifs
    · simp
    · simp
    · refine Proc.bind_calls (orStatus_calls (ask_calls nofun)) fun _ => ?_
      exact orStatus_calls (ask_calls nofun)
    · simp
    · refine Proc.bind_calls (orStatus_calls (ask_calls nofun)) fun _ => ?_
      exact orStatus_calls (ask_calls nofun)
  | nvmeof =>
    simp only [NodeServer.publishLocalZvol]
    split_ifs
    · simp
    · exact publishDevice_calls _ _ _ _ _ _ _
    · exact publishNVMeoF_calls _ _ _ _ _ _ _ _

theorem nodePublishVolume_calls (n : NodeServer) (req : NodePublishVolumeRequest) :
    (n.nodePublishVolume req).run.Calls (Keeps none) := by
  unfold NodeServer.nodePublishVolume
  split_ifs
  · simp
  · simp
  · cases req.volumeCapability with
    | none => simp
    | some volCap =>
      refine Proc.bind_calls (Resolves.keeps (resolveVolume_resolves _)) fun v => ?_
      refine Proc.bind_calls (Resolves.keeps (resolvePool_resolves _)) fun pool => ?_
      refine Proc.bind_calls (orStatus_calls (ask_calls nofun)) fun mounted => ?_
      split_ifs
      · simp
      · exact publishByProtocol_calls n req volCap v pool

end Calls

/-! ## A successful publish leaves the subsystem connected -/

section Publish

variable {n : NodeServer} {s : NodeHost}

/-- The weakest precondition of a program of the node plugin that runs alone. -/
abbrev nodeWp {α : Type} (p : Program NodeCall NodeCall.Ret α) (Q : α → NodeHost → Prop)
    (s : NodeHost) : Prop :=
  p.wpAlone NodeHost.handle NodeCall.fails (fun _ _ _ => True) Q s

theorem ask_wp {e : NodeCall} {Q : Except Err e.Val → NodeHost → Prop}
    (hQ : Q (NodeHost.handle e s).1 (NodeHost.handle e s).2) (hfails : ∀ r, e.fails r → Q r s) :
    nodeWp (ask e).run Q s := by
  have hid : ∀ r : Except Err e.Val, r.mapError id = r := by rintro (_ | _) <;> rfl
  simp only [nodeWp, ask, Proc.run_ask, wpAlone_call, wpAlone_pure, hid, true_and]
  exact ⟨hQ, hfails⟩

theorem orStatus_wp {α : Type} {p : MountProc α} {f : Err → Status}
    {Q : Except Status α → NodeHost → Prop}
    (hp : nodeWp p.run (fun r t => Q (r.mapError f) t) s) : nodeWp (orStatus p f).run Q s := by
  simp only [orStatus, Proc.run_bind, Proc.run_outcome, bind_assoc]
  refine wpAlone_bind (wp_mono ?_ hp)
  intro r t hr
  cases r with
  | ok a => simpa [Except.mapError] using hr
  | error e => simpa [Except.mapError] using hr

theorem grows_wp {α : Type} {p : Program NodeCall NodeCall.Ret α} {lost : Option String}
    {t : NodeHost} (hp : p.Calls (Keeps lost)) (ht : Grows lost s t) :
    nodeWp p (fun _ u => Grows lost s u) t :=
  hp.wpAlone (fun _ _ he hu => hu.handle he) ht

theorem outcome_bind_wp {ε α : Type} {e : NodeCall}
    {f : Except Err e.Val → Proc NodeCall NodeCall.Ret ε α} {Q : Except ε α → NodeHost → Prop}
    (hf : nodeWp (f (NodeHost.handle e s).1).run Q (NodeHost.handle e s).2)
    (hfails : ∀ r, e.fails r → nodeWp (f r).run Q s) :
    nodeWp ((ask e).outcome >>= f).run Q s := by
  simp only [Proc.run_bind, Proc.run_outcome, bind_assoc]
  exact wpAlone_bind (ask_wp hf hfails)

theorem waitDevice_wp (o : NVMeConnectOptions) : nodeWp (connectAndWait.waitDevice o).run
    (fun r t => ∀ dev, r = .ok dev → (t.connected.lookup o.nqn).isSome) s := by
  refine Proc.wp_bind (ask_wp ?_ ?_)
  · simp only [NodeHost.handle]
    cases hdev : s.connected.lookup o.nqn with
    | none => simp
    | some dev => split_ifs <;> simp [hdev]
  · rintro r (rfl | ⟨msg, rfl⟩) <;> simp [wp]

/-- Whatever `nvme connect` answers, a device is only returned for a connected subsystem. -/
theorem connectAndWait_wp (o : NVMeConnectOptions) : nodeWp (connectAndWait o).run
    (fun r t => ∀ dev, r = .ok dev → (t.connected.lookup o.nqn).isSome) s := by
  have herror : ∀ (e : Err) (t : NodeHost), nodeWp (if Text.contains (Text.toLower e.message)
      "already connected" then connectAndWait.waitDevice o
      else throw (.wrap ("nvme connect " ++ o.nqn) e) : MountProc String).run
      (fun r t => ∀ dev, r = .ok dev → (t.connected.lookup o.nqn).isSome) t := by
    intro e t
    split_ifs
    · exact waitDevice_wp o
    · simp [nodeWp]
  refine outcome_bind_wp ?_ ?_
  · cases hr : (NodeHost.handle (.nvmeConnect o) s).1 with
    | error e => exact herror e _
    | ok => exact waitDevice_wp o
  · rintro r ⟨msg, rfl⟩
    exact herror _ s

theorem nvmeConnect_wp (o : NVMeConnectOptions) : nodeWp (nvmeConnect o).run
    (fun r t => ∀ dev, r = .ok dev → (t.connected.lookup o.nqn).isSome) s := by
  refine outcome_bind_wp ?_ ?_
  · simp only [NodeHost.handle]
    cases hdev : s.connected.lookup o.nqn with
    | none => simpa using connectAndWait_wp o
    | some dev =>
      simp only [Option.getD_some]
      split_ifs
      · simp [nodeWp, hdev]
      · exact connectAndWait_wp o
  · rintro r ⟨msg, rfl⟩
    exact connectAndWait_wp o

theorem publishNVMeoF_wp (volumeID : String) (pool : ZfsPool) (targetPath : String)
    (block readOnly : Bool) (fsType : String) (flags : List String) :
    nodeWp (n.publishNVMeoF volumeID pool targetPath block readOnly fsType flags).run
      (fun r t => r = .ok () → t.Connected volumeID) s := by
  refine Proc.wp_bind (orStatus_wp (ask_wp ?_ ?_))
  swap
  · rintro r ⟨msg, rfl⟩
    simp [Except.mapError]
  simp only [NodeHost.handle, Store.get]
  cases hexport : s.exports.lookup volumeID with
  | none => simp [Except.mapError]
  | some e =>
    simp only [Except.mapError]
    split_ifs
    · simp
    -- from here on no call disconnects, so the objects stay and the connection too
    have hnqn : ∀ t, Grows none s t → t.volumeNQN volumeID = exportNQN e := by
      intro t ht
      rw [ht.volumeNQN]
      simp [NodeHost.volumeNQN, hexport]
    refine Proc.wp_bind (orStatus_wp (wp_mono ?_
      (grows_wp (Resolves.keeps (dhchapKey_resolves e)) (Grows.refl s))))
    rintro (_ | key) t ht
    · simp [Except.mapError]
    simp only [Except.mapError]
    refine Proc.wp_bind (orStatus_wp (wp_mono ?_
      (wp_and (grows_wp (Resolves.keeps (nvmeConnect_resolves _)) ht) (nvmeConnect_wp _))))
    rintro (_ | device) u ⟨hu, hconnected⟩
    · simp [Except.mapError]
    simp only [Except.mapError]
    have hcalls := publishDevice_calls volumeID device targetPath block readOnly fsType flags
    refine wp_mono (fun _ v hv _ => ?_)
      (wp_and (grows_wp hcalls (Grows.refl u)) (grows_wp hcalls hu))
    have := hv.1.connected _ nofun (hconnected device rfl)
    rwa [NodeHost.Connected, hnqn v hv.2]

/-- What `resolveVolume` makes of a dataset. -/
def NodeServer.ResolvedVolume.ofDataset (ds : ZfsDataset) : NodeServer.ResolvedVolume where
  poolGUID := ds.spec.poolGUID
  dataset := ds.spec.dataset
  statusPath := ds.status.path
  protocol := match ds.spec.type with
    | .filesystem => .nfs
    | .volume => .nvmeof

/-- A dataset that `resolveVolume` does not refuse. -/
structure Resolvable (ds : ZfsDataset) : Prop where
  poolGUID : ds.spec.poolGUID ≠ ""
  dataset : ds.spec.dataset ≠ ""
  found : ds.status.phase ≠ some .lost

/-- A pool that `resolvePool` does not refuse. -/
structure Addressable (pool : ZfsPool) : Prop where
  online : pool.status.health ≠ .nodeOffline
  address : pool.status.currentIP ≠ ""

/-- Reading an object changes nothing, and what is returned is what is stored. -/
theorem resolveVolume_wp (volumeID : String) : nodeWp (NodeServer.resolveVolume volumeID).run
    (fun r t => t = s ∧ ∀ v, r = .ok v → ∃ ds, s.datasets.lookup volumeID = some ds ∧
      Resolvable ds ∧ v = .ofDataset ds) s := by
  refine Proc.wp_bind (orStatus_wp (ask_wp ?_ ?_))
  · simp only [NodeHost.handle, Store.get]
    cases hds : s.datasets.lookup volumeID with
    | none => simp [Except.mapError]
    | some ds =>
      simp only [Except.mapError]
      split_ifs with hempty hlost
      · simp
      · simp
      · simp only [Proc.run_pure, wpAlone_pure, true_and]
        rintro v hv
        cases hv
        obtain ⟨hguid, hdataset⟩ := not_or.mp hempty
        exact ⟨ds, rfl, ⟨hguid, hdataset, hlost⟩, rfl⟩
  · rintro r ⟨msg, rfl⟩
    simp [Except.mapError]

theorem resolvePool_wp (poolGUID : String) : nodeWp (NodeServer.resolvePool poolGUID).run
    (fun r t => t = s ∧ ∀ pool, r = .ok pool →
      s.pools.lookup (resourceName poolGUID) = some pool ∧ Addressable pool) s := by
  refine Proc.wp_bind (orStatus_wp (ask_wp ?_ ?_))
  · simp only [NodeHost.handle, Store.get]
    cases hpool : s.pools.lookup (resourceName poolGUID) with
    | none => simp [Except.mapError]
    | some pool =>
      simp only [Except.mapError]
      split_ifs with hoffline haddress
      · simp
      · simp
      · simp only [Proc.run_pure, wpAlone_pure, true_and]
        rintro v hv
        cases hv
        exact ⟨rfl, hoffline, haddress⟩
  · rintro r ⟨msg, rfl⟩
    simp [Except.mapError]

theorem nodePublishVolume_wp (req : NodePublishVolumeRequest) (hremote : s.Remote n req.volumeID)
    (hmounted : (s.mounts.lookup (Text.clean req.targetPath)).isSome → s.Connected req.volumeID) :
    nodeWp (n.nodePublishVolume req).run (fun r t => r = .ok () → t.Connected req.volumeID) s := by
  obtain ⟨ds, pool, hds, htype, hpool, hlocal⟩ := hremote
  unfold NodeServer.nodePublishVolume
  split_ifs
  · simp [nodeWp]
  · simp [nodeWp]
  cases req.volumeCapability with
  | none => simp [nodeWp]
  | some volCap =>
    refine Proc.wp_bind (wp_mono ?_ (resolveVolume_wp req.volumeID))
    rintro (_ | v) t ⟨rfl, hv⟩
    · simp
    obtain ⟨ds', hds', _, rfl⟩ := hv v rfl
    obtain rfl : ds = ds' := by simpa [hds] using hds'
    have hproto : (NodeServer.ResolvedVolume.ofDataset ds).protocol = .nvmeof := by
      simp [NodeServer.ResolvedVolume.ofDataset, htype]
    refine Proc.wp_bind (wp_mono ?_ (resolvePool_wp ds.spec.poolGUID))
    rintro (_ | pool') u ⟨rfl, hpool'⟩
    · simp
    obtain rfl : pool = pool' := Option.some_inj.mp (hpool.symm.trans (hpool' pool' rfl).1)
    refine Proc.wp_bind (orStatus_wp (ask_wp ?_ ?_))
    · simp only [NodeHost.handle, Except.mapError]
      split_ifs with hm
      · simpa using hmounted hm
      · simp only [NodeServer.publishByProtocol, hproto, hlocal]
        exact publishNVMeoF_wp _ _ _ _ _ _ _
    · rintro r ⟨msg, rfl⟩
      simp [Except.mapError]

/-- The subsystem an unpublish of the volume disconnects, if any. -/
def NodeHost.unpublished (s : NodeHost) (v : String) : Option String :=
  if s.volumeNQN v = "" then none else some (s.volumeNQN v)

theorem lookupExportNQN_wp (volumeID : String) : nodeWp (NodeServer.lookupExportNQN volumeID).run
    (fun r t => t = s ∧ ∀ nqn, r = .ok nqn → nqn = "" ∨ nqn = s.volumeNQN volumeID) s := by
  refine outcome_bind_wp ?_ ?_
  · simp only [NodeHost.handle, Store.get, NodeHost.volumeNQN]
    cases hexport : s.exports.lookup volumeID <;> simp [nodeWp]
  · rintro r ⟨msg, rfl⟩
    simp [nodeWp]

theorem nvmeDisconnect_calls (nqn : String) :
    (nvmeDisconnect nqn).run.Calls (Keeps (some nqn)) := by
  refine outcome_bind_calls ?_ fun r => ?_
  · rintro q hq
    cases hq
    rfl
  · cases r with
    | error e =>
      simp only
      split_ifs <;> simp
    | ok => simp

/-- An unpublish disconnects the subsystem of its volume only on the way to a success. -/
theorem nodeUnpublishVolume_wp (volumeID targetPath : String) :
    nodeWp (NodeServer.nodeUnpublishVolume volumeID targetPath).run
      (fun r t => Grows (s.unpublished volumeID) s t ∧ (r ≠ .ok () → Grows none s t)) s := by
  have hrefl : Grows none s s := Grows.refl s
  unfold NodeServer.nodeUnpublishVolume
  split_ifs
  · simpa [nodeWp] using ⟨hrefl.weaken, hrefl⟩
  · simpa [nodeWp] using ⟨hrefl.weaken, hrefl⟩
  refine Proc.wp_bind (orStatus_wp (ask_wp ?_ ?_))
  swap
  · rintro r ⟨msg, rfl⟩
    simpa [Except.mapError] using ⟨hrefl.weaken, hrefl⟩
  have hunmounted := hrefl.handle (e := .unmount targetPath) nofun
  refine Proc.wp_bind (orStatus_wp (ask_wp ?_ ?_))
  swap
  · rintro r ⟨msg, rfl⟩
    simpa [Except.mapError] using ⟨hunmounted.weaken, hunmounted⟩
  have hremoved := hunmounted.handle (e := .removePath targetPath) nofun
  refine Proc.wp_bind (wp_mono ?_ (lookupExportNQN_wp volumeID))
  rintro (_ | nqn) t ⟨rfl, hnqn⟩
  · simpa using ⟨hremoved.weaken, hremoved⟩
  simp only
  split_ifs with hne
  · have hlost : s.unpublished volumeID = some nqn := by
      obtain h | rfl := hnqn nqn rfl
      · exact absurd h hne
      · rw [hremoved.volumeNQN] at hne ⊢
        simp [NodeHost.unpublished, hne]
    rw [hlost]
    -- the disconnect is best effort: whatever it answers, the call succeeds
    rw [Proc.run_bind, Proc.run_outcome, bind_assoc]
    refine wpAlone_bind (wp_mono ?_ (grows_wp (nvmeDisconnect_calls nqn) hremoved.weaken))
    intro r u hu
    simpa using hu
  · simpa [nodeWp] using hremoved.weaken

end Publish

/-! ## Every sequence of calls -/

/-- A call of the node service. -/
inductive NodeOp where
  | publish (req : NodePublishVolumeRequest)
  | unpublish (volumeID targetPath : String)

/-- The host, and the pairs of a volume and a target path that are published. -/
structure NodeState where
  host : NodeHost
  published : List (String × String)

def NodeServer.serve (n : NodeServer) : NodeOp → NodeProc Unit
  | .publish req => n.nodePublishVolume req
  | .unpublish volumeID targetPath => NodeServer.nodeUnpublishVolume volumeID targetPath

/-- What is published after a call returned `r`. -/
def NodeOp.record (r : Except Status Unit) (published : List (String × String)) :
    NodeOp → List (String × String)
  | .publish req => if r = .ok () then (req.volumeID, req.targetPath) :: published else published
  | .unpublish volumeID targetPath =>
    if r = .ok () then published.filter (· ≠ (volumeID, targetPath)) else published

/-- The states a node reaches through calls of the node service that meet `cond`. Every call
runs to its return; each of its steps on the host may fail. -/
inductive NodeReach (n : NodeServer) (cond : NodeOp → NodeState → Prop) (s₀ : NodeState) :
    NodeState → Prop where
  | start : NodeReach n cond s₀ s₀
  | call {s : NodeState} {op : NodeOp} {l : List (NodeCall × NodeHost)} {r : Except Status Unit}
      {t : NodeHost} (before : NodeReach n cond s₀ s) (meets : cond op s)
      (run :
        Runs NodeHost.handle NodeCall.fails (fun _ => Eq) (n.serve op).run s.host l (some r) t) :
      NodeReach n cond s₀ ⟨t, op.record r s.published⟩

/-- Every published remote volume has its subsystem connected. -/
def AllConnected (n : NodeServer) (s : NodeState) : Prop :=
  ∀ p ∈ s.published, s.host.Remote n p.1 → s.host.Connected p.1

/-- A publish does not find its target mounted while its subsystem is not connected, and an
unpublish disconnects no subsystem that another published target path uses. -/
def NodeOp.Safe (n : NodeServer) : NodeOp → NodeState → Prop
  | .publish req, s => (s.host.mounts.lookup (Text.clean req.targetPath)).isSome →
      s.host.Remote n req.volumeID → s.host.Connected req.volumeID
  | .unpublish volumeID targetPath, s => ∀ p ∈ s.published, p ≠ (volumeID, targetPath) →
      s.host.Remote n p.1 → s.host.unpublished volumeID ≠ some (s.host.volumeNQN p.1)

/-- One call that meets the condition keeps every published volume connected. -/
theorem AllConnected.call {n : NodeServer} {s : NodeState} {op : NodeOp}
    {l : List (NodeCall × NodeHost)} {r : Except Status Unit} {t : NodeHost}
    (hs : AllConnected n s) (hsafe : op.Safe n s)
    (run : Runs NodeHost.handle NodeCall.fails (fun _ => Eq) (n.serve op).run s.host l (some r) t) :
    AllConnected n ⟨t, op.record r s.published⟩ := by
  cases op with
  | publish req =>
    have hgrows : Grows none s.host t := (nodePublishVolume_calls n req).invariant
      (fun e u he hu => hu.handle he) (Grows.refl s.host) run
    have hold : ∀ p ∈ s.published, t.Remote n p.1 → t.Connected p.1 := fun p hp hremote =>
      hgrows.isConnected nofun (hs p hp (hgrows.remote hremote))
    intro p hp hremote
    simp only [NodeOp.record] at hp
    split_ifs at hp with hr
    · rcases List.mem_cons.mp hp with rfl | hp
      · have hremote' := hgrows.remote hremote
        exact (wp_runs (nodePublishVolume_wp req hremote' fun hm => hsafe hm hremote')
          run).2 _ rfl hr
      · exact hold p hp hremote
    · exact hold p hp hremote
  | unpublish volumeID targetPath =>
    obtain ⟨hgrows, hfailed⟩ := (wp_runs (nodeUnpublishVolume_wp volumeID targetPath) run).2 _ rfl
    intro p hp hremote
    simp only [NodeOp.record] at hp
    split_ifs at hp with hr
    · obtain ⟨hp, hne⟩ := List.mem_filter.mp hp
      have hremote' := hgrows.remote hremote
      exact hgrows.isConnected (hsafe p hp (by simpa using hne) hremote') (hs p hp hremote')
    · have hgrows := hfailed hr
      exact hgrows.isConnected nofun (hs p hp (hgrows.remote hremote))

/-- In every sequence of publishes and unpublishes that meet the condition, a remote volume with
a published target path has its subsystem connected. -/
theorem published_connected (n : NodeServer) (s₀ s : NodeState) (h₀ : s₀.published = [])
    (hs : NodeReach n (NodeOp.Safe n) s₀ s) : AllConnected n s := by
  induction hs with
  | start =>
    intro p hp
    simp [h₀] at hp
  | call _ meets run ih => exact ih.call meets run

/-- A node `node-a` and a zvol of a pool that `node-b` hosts. -/
def remoteZvol : NodeState where
  host := {
    datasets := Store.ofList [("pvc-1", {
      metadata := { name := "pvc-1" }
      spec :=
        { poolGUID := "1", dataset := "k8s/pvc-1", type := .volume, volume := some { size := 1 } }
      status := { phase := some .ready } })]
    pools := Store.ofList [("zpool-1", {
      metadata := { name := "zpool-1" }
      spec := ()
      status := { currentNode := "node-b", currentIP := "10.0.0.2", health := .online } })]
    exports := Store.ofList [("pvc-1", {
      metadata := { name := "pvc-1" }
      spec := { nodeName := "node-b", protocol := .nvmeof, path := "/dev/zvol/tank/k8s/pvc-1" }
      status := { nqn := "nqn.pvc-1" } })]
    secrets := FinMap.empty
    mounts := FinMap.empty
    filesystems := FinMap.empty
    connected := FinMap.empty
    nextDevice := 1 }
  published := []

def nodeA : NodeServer := { nodeID := "node-a", hostUUID := id }

/-- The state after the calls `ops`, none of whose steps fails. -/
def NodeState.serve (n : NodeServer) (s : NodeState) : List NodeOp → NodeState
  | [] => s
  | op :: ops =>
    let (r, t) := (n.serve op).run.exec NodeHost.handle s.host
    NodeState.serve n ⟨t, op.record r s.published⟩ ops


theorem NodeState.serve_reach (n : NodeServer) {s₀ s : NodeState} (ops : List NodeOp)
    (hs : NodeReach n (fun _ _ => True) s₀ s) :
    NodeReach n (fun _ _ => True) s₀ (s.serve n ops) := by
  induction ops generalizing s with
  | nil => exact hs
  | cons op ops ih =>
    exact ih (.call hs trivial (Runs.exec (fun _ _ => rfl) _ _))

/-- One pod publishes the volume: its target is fresh, so the subsystem gets connected. -/
theorem published_connected_one_pod :
    let s := remoteZvol.serve nodeA [.publish { volumeID := "pvc-1", targetPath := "/pods/a" }]
    s.published = [("pvc-1", "/pods/a")] ∧ AllConnected nodeA s := by
  refine ⟨by decide, published_connected nodeA remoteZvol _ rfl ?_⟩
  refine .call .start ?_ (Runs.exec (fun _ _ => rfl) _ _)
  intro hmounted
  exact absurd hmounted (by decide)

/-- Two pods share the volume on one node; the unpublish of the first disconnects the
subsystem under the second. -/
theorem shared_volume_disconnected :
    ¬ ∀ (n : NodeServer) (s₀ s : NodeState), s₀.published = [] →
      NodeReach n (fun _ _ => True) s₀ s → AllConnected n s := by
  intro hclaim
  have hstart : NodeReach nodeA (fun _ _ => True) remoteZvol remoteZvol := .start
  have hreach := NodeState.serve_reach nodeA [
    .publish { volumeID := "pvc-1", targetPath := "/pods/a" },
    .publish { volumeID := "pvc-1", targetPath := "/pods/b" },
    .unpublish "pvc-1" "/pods/a"] hstart
  have hall := hclaim nodeA remoteZvol _ rfl hreach
  have hconnected := hall ("pvc-1", "/pods/b") (by decide)
    ⟨_, _, rfl, by decide, rfl, by decide⟩
  exact absurd hconnected (by unfold NodeHost.Connected; decide)

end SimpleZfsCsi.Csi
