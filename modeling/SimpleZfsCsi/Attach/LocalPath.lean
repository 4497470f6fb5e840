import SimpleZfsCsi.Attach.SingleNode
import SimpleZfsCsi.Csi.LocalUse

/-!
# Local or over the network

Whether a volume is used on the pool's own node without an export is decided twice: by the
operator, from the attach requests, and by the node service, from the access mode of one call.
-/

namespace SimpleZfsCsi.Attach

open Library Api Csi Program

/-- The share is not being deleted, and no finalizer would hold it. -/
structure Unheld (volume : String) (share : Share) : Prop where
  name : share.name = volume
  finalizers : share.metadata.finalizers = []
  terminating : share.metadata.terminating = false

/-- What a pass for the request `ar` of the key `name` starts from: the objects it reads, and that
every request of the volume was made with the capability `cap`. No ZfsShare has a finalizer. -/
structure Setting (s : AttachWorld) (name : String) (ar : AttachRequest) (cap : VolumeCapability)
    (ds : ZfsDataset) (pool : ZfsPool) : Prop where
  request : s.requests.lookup name = some ar
  dataset : s.datasets.lookup ar.spec.volumeName = some ds
  pool : s.pools.lookup (resourceName ds.spec.poolGUID) = some pool
  made : ∀ key x, s.requests.lookup key = some x → x.spec.volumeName = ar.spec.volumeName →
    x.spec.singleNode = !hasMultiNodeAccessMode cap
  shares : ∀ share, s.shares.lookup ar.spec.volumeName = some share →
    Unheld ar.spec.volumeName share

/-- Requests, datasets, pools and nodes stay as they are, and of a share the status
alone changes. -/
structure Steady (volume : String) (s t : AttachWorld) : Prop where
  requests : t.requests = s.requests
  datasets : t.datasets = s.datasets
  pools : t.pools = s.pools
  nodes : t.nodes = s.nodes
  shares : (t.shares.lookup volume).map
    (fun x => (x.spec, x.name, x.metadata.finalizers, x.metadata.terminating)) =
    (s.shares.lookup volume).map
      fun x => (x.spec, x.name, x.metadata.finalizers, x.metadata.terminating)

/-- The share names the node among its clients, or as its only host. -/
def NamesNode (r : Operator) (s : AttachWorld) (volume node : String) (spec : ShareSpec) : Prop :=
  match spec.protocol with
  | .nfs =>
    ∃ ip nfs, internalIP s node = some ip ∧ spec.nfs = some nfs ∧ { client := ip } ∈ nfs.clients
  | .nvmeof => ∃ nvmeof, spec.nvmeof = some nvmeof ∧
      nvmeof.allowedHosts = [(hostIdentity r.hostUUID node volume).1]

/-- A filesystem with a single-node access mode, on the pool's own node. -/
def AtHome (cap : VolumeCapability) (ds : ZfsDataset) (pool : ZfsPool) (node : String) : Prop :=
  ds.spec.type = .filesystem ∧ hasMultiNodeAccessMode cap = false ∧
    Operator.isCurrentNode pool node = true

/-- Any call may fail, but the list of the attach requests when so much depends on it. -/
def passFails (atHome : Prop) (e : AttachCall) (a : e.Ret) : Prop :=
  (∃ msg, a = .error (.other msg)) ∧ (e = .listRequests → ¬ atHome)

/-! ## What a pass leaves as it is -/

/-- Everything but the shares is the same, and the share of the volume is free to be deleted. -/
structure Kept (volume : String) (s t : AttachWorld) : Prop where
  requests : t.requests = s.requests
  datasets : t.datasets = s.datasets
  pools : t.pools = s.pools
  nodes : t.nodes = s.nodes
  free : ∀ share, t.shares.lookup volume = some share → Unheld volume share

section Kept

variable {volume : String} {s t u : AttachWorld}

theorem Setting.kept {name : String} {ar : AttachRequest} {cap : VolumeCapability} {ds : ZfsDataset}
    {pool : ZfsPool} (h : Setting s name ar cap ds pool) : Kept ar.spec.volumeName s s :=
  ⟨rfl, rfl, rfl, rfl, h.shares⟩

theorem Kept.trans (h : Kept volume s t) (h' : Kept volume t u) : Kept volume s u :=
  ⟨h'.requests.trans h.requests, h'.datasets.trans h.datasets, h'.pools.trans h.pools,
    h'.nodes.trans h.nodes, h'.free⟩

theorem Kept.steady (h : Kept volume s t) (h' : Steady volume t u) : Kept volume s u := by
  refine ⟨h'.requests.trans h.requests, h'.datasets.trans h.datasets, h'.pools.trans h.pools,
    h'.nodes.trans h.nodes, fun share hshare => ?_⟩
  have hsame := h'.shares
  rw [hshare] at hsame
  obtain ⟨share', hshare', heq⟩ := Option.map_eq_some_iff.mp hsame.symm
  obtain ⟨_, hname, hfinalizers, hterminating⟩ : _ ∧ _ ∧ _ ∧ _ := by simpa using heq
  obtain ⟨h₁, h₂, h₃⟩ := h.free share' hshare'
  exact ⟨hname ▸ h₁, hfinalizers ▸ h₂, hterminating ▸ h₃⟩

theorem Steady.none (h : Steady volume s t) (hs : s.shares.lookup volume = none) :
    t.shares.lookup volume = none := by
  have hsame := h.shares
  rw [hs] at hsame
  simpa using hsame

theorem Steady.some (h : Steady volume s t) {share : Share}
    (hs : s.shares.lookup volume = some share) :
    ∃ share', t.shares.lookup volume = some share' ∧ share'.spec = share.spec := by
  have hsame := h.shares
  rw [hs] at hsame
  obtain ⟨share', hshare', heq⟩ := Option.map_eq_some_iff.mp hsame
  exact ⟨share', hshare', (Prod.mk.inj heq).1⟩

end Kept

section Wp

variable {α β : Type} {atHome : Prop} {volume : String} {s : AttachWorld}

/-- The weakest precondition of a part of a pass, while the others leave everything but statuses
alone. -/
abbrev passWp (atHome : Prop) (volume : String) (p : AttachProc Err α)
    (Q : Except Err α → AttachWorld → Prop)
    (s : AttachWorld) : Prop :=
  p.run.wp AttachWorld.handle (passFails atHome) (fun _ => Steady volume) (fun _ _ _ => True) Q s

end Wp

/-! ## The parts of a pass -/

section Parts

variable {atHome : Prop} {volume : String} {s : AttachWorld}

end Parts

/-! ## The aggregation -/

/-- What the aggregation makes of the node: it is local and there is no share, or the
share names it. -/
def Fits (r : Operator) (cap : VolumeCapability) (ds : ZfsDataset) (pool : ZfsPool)
    (volume node : String)
    (agg : Aggregated) (t : AttachWorld) : Prop :=
  node ∈ agg.exported →
    (t.shares.lookup volume = none ∧ Operator.isCurrentNode pool node = true ∧
      (ds.spec.type = .filesystem → hasMultiNodeAccessMode cap = false)) ∨
    ((∃ share, t.shares.lookup volume = some share ∧ NamesNode r t volume node share.spec) ∧
      ¬ (ds.spec.type = .volume ∧ Operator.isCurrentNode pool node = true) ∧
        ¬ AtHome cap ds pool node)

section Aggregation

variable {r : Operator} {cap : VolumeCapability} {name node : String} {ar : AttachRequest}
    {ds : ZfsDataset}
  {pool : ZfsPool} {s t : AttachWorld}

theorem Fits.steady {volume : String} {agg : Aggregated} {u : AttachWorld}
    (h : Fits r cap ds pool volume node agg t)
    (hu : Steady volume t u) : Fits r cap ds pool volume node agg u := by
  intro hnode
  rcases h hnode with ⟨hnone, hrest⟩ | ⟨⟨share, hshare, hnames⟩, hrest⟩
  · exact .inl ⟨hu.none hnone, hrest⟩
  · obtain ⟨share', hshare', hspec⟩ := hu.some hshare
    refine .inr ⟨⟨share', hshare', ?_⟩, hrest⟩
    rw [hspec]
    unfold NamesNode internalIP at hnames ⊢
    rwa [hu.nodes]

theorem Setting.next (h : Setting s name ar cap ds pool) (ht : Kept ar.spec.volumeName s t) :
    Setting t name ar cap ds pool :=
  ⟨ht.requests ▸ h.request, ht.datasets ▸ h.dataset, ht.pools ▸ h.pool,
    ht.requests ▸ h.made, ht.free⟩

/-- The requests of the volume all say what the capability says. -/
theorem Setting.active (h : Setting s name ar cap ds pool) :
    ∀ x ∈ Operator.active s.requests.values ar.spec.volumeName, x.spec.singleNode =
      !hasMultiNodeAccessMode cap := by
  intro x hx
  simp only [Operator.active, List.mem_filter, Bool.and_eq_true, decide_eq_true_eq] at hx
  obtain ⟨key, hkey⟩ := Store.mem_values.mp hx.1
  exact h.made key x hkey hx.2.1

end Aggregation

/-! ## What the operator reports -/

/-- A zvol on the pool's own node. -/
def OwnZvol (ds : ZfsDataset) (pool : ZfsPool) (node : String) : Prop :=
  ds.spec.type = .volume ∧ Operator.isCurrentNode pool node = true

/-- The two sides decide alike: a filesystem with a single-node access mode is used on the pool's
own node as one, with one of the two modes the node service knows; and what the operator leaves to
the node without a share is not refused there. -/
structure Served (cap : VolumeCapability) (ds : ZfsDataset) (pool : ZfsPool)
    (node : String) : Prop where
  mode : AtHome cap ds pool node → cap.block = false ∧ localMode cap = true
  usable : AtHome cap ds pool node ∨ OwnZvol ds pool node → Usable ds pool

section Report

variable {r : Operator} {n : NodeServer} {cap : VolumeCapability} {name volume : String}
    {ar : AttachRequest}
  {ds : ZfsDataset} {pool : ZfsPool} {s : AttachWorld} {req : NodePublishVolumeRequest}
    {host : NodeHost}

/-- What holds when a request is reported ready. -/
def ReportsTruly (P : AttachWorld → Prop) (e : AttachCall) (s _t : AttachWorld) : Prop :=
  ∀ key read patched, e = .patchRequestStatus key read patched → patched.ready = true → P s

/-- A part that does not write the status of a request. -/
theorem ReportsTruly.silent {α : Type} {P : AttachWorld → Prop} {atHome : Prop}
    {p : AttachProc Err α}
    (hp : p.run.Calls fun e => ∀ key read patched, e ≠ .patchRequestStatus key read patched)
    (s : AttachWorld) :
    p.run.wp AttachWorld.handle (passFails atHome) (fun _ => Steady volume) (ReportsTruly P)
      (fun _ _ => True) s :=
  hp.wp (fun _ _ _ _ _ _ => trivial)
    (fun _ _ he _ => ⟨fun key read patched heq => absurd heq (he key read patched), trivial⟩)
    trivial

end Report

end SimpleZfsCsi.Attach
