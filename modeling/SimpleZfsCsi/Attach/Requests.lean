import SimpleZfsCsi.Attach.Controller
import SimpleZfsCsi.Attach.Operator
import SimpleZfsCsi.Library.Concurrent
import Mathlib.Data.Set.Function

/-!
# One node at a time

Any number of publishes and unpublishes run beside the operator's one worker, their calls
to the API server interleaved. The operator exports a single-node volume to the node of its
oldest request, by creation time and then by name, while requests are in truth ordered by
their creation. As long as the two orders agree, a request that was ever found oldest stays
so until it is deleted, and no two nodes are published at once. Every call may fail but the
list of the requests, which is always current; what comes of a list that fails is the subject of
`SingleNode`.
-/

namespace SimpleZfsCsi.Attach

open Library Api Csi Program Concurrent

/-- What the workers do: the RPCs of the controller service and the operator's reconciles. -/
inductive Task where
  | publish (req : PublishRequest) (rounds : Nat)
  | unpublish (volumeID nodeID : String)
  | reconcile (name : String)

/-- The operator has one worker; the controller service serves any number of calls. -/
inductive Worker where
  | rpc (id : Nat)
  | operator
  deriving DecidableEq

def Task.isRpc : Task → Bool
  | .reconcile _ => false
  | _ => true

/-- The RPC names one of the cluster's nodes, and a publish of `volume` asks for a single-node
access mode. -/
def Task.Admissible (volume : String) (nodes : Set String) : Task → Prop
  | .publish req _ => req.nodeID ∈ nodes ∧
      (req.volumeID = volume → hasMultiNodeAccessMode req.volumeCapability = false)
  | .unpublish _ nodeID => nodeID ∈ nodes
  | .reconcile _ => True

def Task.program (c : ControllerServer) (r : Operator) :
    Task → Program AttachCall AttachCall.Ret Bool
  | .publish req rounds => (c.controllerPublishVolume req rounds).run.bind fun r => .pure r.toBool
  | .unpublish volumeID nodeID =>
    (c.controllerUnpublishVolume volumeID nodeID).run.bind fun r => .pure r.toBool
  | .reconcile name => (r.reconcile name).run.bind fun r => .pure r.toBool

/-- The delete of an unpublish ends the publication of its volume on its node. -/
def Task.handle : Task → (e : AttachCall) → AttachWorld → e.Ret × AttachWorld
  | .unpublish volumeID nodeID, .deleteRequest name, s =>
    let w := AttachWorld.handle (.deleteRequest name) s
    (w.1, { w.2 with published := s.published.filter (· ≠ (volumeID, nodeID)) })
  | _, e, s => AttachWorld.handle e s

/-- A publish that returns success has published its volume on its node. -/
def Task.finish : Task → Bool → AttachWorld → AttachWorld
  | .publish req _, true, s => { s with published := (req.volumeID, req.nodeID) :: s.published }
  | _, _, s => s

/-- Everything but the attach requests changes freely, and time goes on. -/
def clusterChanges (s t : AttachWorld) : Prop :=
  t.requests = s.requests ∧ t.published = s.published ∧ s.clock ≤ t.clock

/-- A call that fails returns an error without taking effect. -/
def AttachCall.fails : (e : AttachCall) → e.Ret → Prop
  | .listRequests, _ => False
  | _, r => ∃ msg, r = .error (.other msg)

def attachSystem (c : ControllerServer) (r : Operator) (volume : String) (nodes : Set String) :
    System AttachWorld Worker Task AttachCall AttachCall.Ret Bool where
  handle := Task.handle
  fails := AttachCall.fails
  program := Task.program c r
  takes i t := i = .operator ↔ t.isRpc = false
  starts t _ := t.Admissible volume nodes
  finish := Task.finish
  env := clusterChanges

abbrev AttachConfig := Config AttachWorld Worker Task AttachCall AttachCall.Ret Bool

/-- No request of the volume is created in the second of an active one unless its name comes
after that request's. -/
def NoTie (volume : String) (s : AttachWorld) : AttachCall → Prop
  | .createRequest name spec => spec.volumeName = volume → s.requests.lookup name = none →
      ∀ x ∈ s.requests.values, x.spec.volumeName = volume →
        x.metadata.terminating = false → x.metadata.creationTimestamp < s.clock ∨ x.name < name
  | _ => True

instance (volume : String) (s : AttachWorld) : (e : AttachCall) → Decidable (NoTie volume s e)
  | .createRequest _ _ => by unfold NoTie; infer_instance
  | .getDataset _ | .getPool _ | .getNode _ | .listRequests | .getRequest _ | .updateRequest _
  | .patchRequestStatus _ _ _ | .deleteRequest _ | .getShare _ | .createShare _ _ | .updateShare _
  | .deleteShare _ | .getSecret _ _ | .createSecret _ _ _ | .deleteSecret _ _
  | .generateDHChapKey => .isTrue trivial

/-! ## The invariant -/

/-- Every other active request of the volume was created after `uid`. -/
def Oldest (s : AttachWorld) (volume name : String) (uid : Nat) : Prop :=
  ∀ n x, s.requests.lookup n = some x → x.spec.volumeName = volume →
    x.metadata.terminating = false → n ≠ name → uid < x.metadata.uid

structure Inv (c : ControllerServer) (volume : String) (nodes : Set String) (s : AttachWorld) :
    Prop where
  named : ∀ n x, s.requests.lookup n = some x → x.name = n ∧ x.spec.nodeName ∈ nodes ∧
    n = c.attachRequestName x.spec.volumeName x.spec.nodeName
  single : ∀ n x, s.requests.lookup n = some x → x.spec.volumeName = volume →
    x.spec.singleNode = true
  created : ∀ n x, s.requests.lookup n = some x → x.metadata.uid ≤ s.requests.revision ∧
    x.metadata.creationTimestamp ≤ s.clock
  version : ∀ n x, s.requests.lookup n = some x → x.metadata.resourceVersion ≤ s.requests.revision
  distinct : ∀ n m x y, s.requests.lookup n = some x → s.requests.lookup m = some y →
    x.metadata.uid = y.metadata.uid → n = m
  /-- creation time and name agree with the order of creation -/
  ordered : ∀ n m x y, s.requests.lookup n = some x → s.requests.lookup m = some y →
    x.spec.volumeName = volume → y.spec.volumeName = volume → x.metadata.terminating = false →
    y.metadata.terminating = false → x.metadata.uid < y.metadata.uid →
    x.metadata.creationTimestamp < y.metadata.creationTimestamp ∨
      (x.metadata.creationTimestamp = y.metadata.creationTimestamp ∧ n < m)
  observed : ∀ n x, s.requests.lookup n = some x →
    x.status.observedGeneration ≤ x.metadata.generation ∧
    (x.metadata.terminating = true → x.status.observedGeneration < x.metadata.generation)
  /-- only a request that was found oldest is ready -/
  ready : ∀ n x, s.requests.lookup n = some x → x.spec.volumeName = volume →
    x.status.ready = true → Oldest s volume n x.metadata.uid
  published : ∀ n, (volume, n) ∈ s.published → ∃ x,
    s.requests.lookup (c.attachRequestName volume n) = some x ∧ x.spec.volumeName = volume ∧
    x.spec.nodeName = n ∧ x.metadata.terminating = false ∧
    Oldest s volume (c.attachRequestName volume n) x.metadata.uid

/-- What the controller service does to the requests: it creates new ones, and it deletes, which
keeps those the operator holds. -/
structure ByService (s t : AttachWorld) : Prop where
  revision : s.requests.revision ≤ t.requests.revision
  held : ∀ n x, s.requests.lookup n = some x →
    x.containsFinalizer zfsShareAttachRequestFinalizer = true → ∃ y,
    t.requests.lookup n = some y ∧ y.metadata.uid = x.metadata.uid ∧ y.spec = x.spec ∧
    y.status = x.status ∧ y.metadata.finalizers = x.metadata.finalizers ∧
    ((y.metadata.terminating = x.metadata.terminating ∧
        y.metadata.generation = x.metadata.generation) ∨
      (y.metadata.terminating = true ∧ x.metadata.generation < y.metadata.generation))
  old : ∀ n y, t.requests.lookup n = some y → s.requests.revision < y.metadata.uid ∨ ∃ x,
    s.requests.lookup n = some x ∧ x.metadata.uid = y.metadata.uid ∧ x.spec = y.spec ∧
    (y.metadata.terminating = false → x.metadata.terminating = false)
  version : ∀ n y, t.requests.lookup n = some y → s.requests.lookup n = some y ∨
    s.requests.revision < y.metadata.resourceVersion

theorem ByService.of_eq {s t : AttachWorld} (h : t.requests = s.requests) : ByService s t where
  revision := by rw [h]
  held n x hx _ := ⟨x, by rwa [h], rfl, rfl, rfl, rfl, .inl ⟨rfl, rfl⟩⟩
  old n y hy := .inr ⟨y, by rwa [h] at hy, rfl, rfl, fun h => h⟩
  version n y hy := .inl (by rwa [h] at hy)

theorem ByService.trans {s t u : AttachWorld} (h : ByService s t) (h' : ByService t u) :
    ByService s u where
  revision := h.revision.trans h'.revision
  held n x hx hfin := by
    obtain ⟨y, hy, huid, hspec, hstatus, hfinalizers, hgen⟩ := h.held n x hx hfin
    have hfin' : y.containsFinalizer zfsShareAttachRequestFinalizer = true := by
      simpa [Object.containsFinalizer, hfinalizers] using hfin
    obtain ⟨z, hz, huid', hspec', hstatus', hfinalizers', hgen'⟩ := h'.held n y hy hfin'
    refine ⟨z, hz, huid'.trans huid, hspec'.trans hspec, hstatus'.trans hstatus,
      hfinalizers'.trans hfinalizers, ?_⟩
    rcases hgen with ⟨h1, h2⟩ | ⟨h1, h2⟩ <;> rcases hgen' with ⟨h3, h4⟩ | ⟨h3, h4⟩
    · exact .inl ⟨h3.trans h1, h4.trans h2⟩
    · exact .inr ⟨h3, by omega⟩
    · exact .inr ⟨h3.trans h1, by omega⟩
    · exact .inr ⟨h3, by omega⟩
  old n z hz := by
    have := h.revision
    obtain hnew | ⟨y, hy, huid, hspec, hterm⟩ := h'.old n z hz
    · exact .inl (by omega)
    · obtain hnew | ⟨x, hx, huid', hspec', hterm'⟩ := h.old n y hy
      · exact .inl (by omega)
      · exact .inr ⟨x, hx, huid'.trans huid, hspec'.trans hspec, fun hz => hterm' (hterm hz)⟩
  version n z hz := by
    have := h.revision
    obtain hz | hnew := h'.version n z hz
    · exact h.version n z hz
    · exact .inr (by omega)

theorem Oldest.byService {s t : AttachWorld} {volume name : String} {uid : Nat}
    (h : Oldest s volume name uid) (hst : ByService s t) (huid : uid ≤ s.requests.revision) :
    Oldest t volume name uid := by
  intro n y hy hvol hactive hne
  obtain hnew | ⟨x, hx, huid', hspec, hterm⟩ := hst.old n y hy
  · omega
  · rw [← huid']
    exact h n x hx (hspec ▸ hvol) (hterm hactive) hne

/-! ## Writing one request -/

section Write

variable {c : ControllerServer} {volume : String} {nodes : Set String} {s : AttachWorld}
  {name : String} {x y : AttachRequest}

/-- `y` may take the place of `x`: it is the same object, and active only if `x` is. -/
structure Succeeds (x y : AttachRequest) : Prop where
  name : y.metadata.name = x.metadata.name
  uid : y.metadata.uid = x.metadata.uid
  creationTimestamp : y.metadata.creationTimestamp = x.metadata.creationTimestamp
  spec : y.spec = x.spec
  terminating : y.metadata.terminating = false → x.metadata.terminating = false

/-- Every request in the store after a write succeeds one before it. -/
theorem Succeeds.of_put (hx : s.requests.lookup name = some x) (hxy : Succeeds x y) {n : String}
    {z : AttachRequest} (hz : (s.requests.put name y).lookup n = some z) :
    ∃ w, s.requests.lookup n = some w ∧ Succeeds w z := by
  obtain ⟨_, hz⟩ | ⟨rfl, rfl⟩ := Store.lookup_put hz
  · exact ⟨z, hz, rfl, rfl, rfl, rfl, fun h => h⟩
  · exact ⟨x, hx, hxy.name, hxy.uid, hxy.creationTimestamp, hxy.spec, hxy.terminating⟩

theorem Oldest.put {n : String} {uid : Nat} (h : Oldest s volume n uid)
    (hx : s.requests.lookup name = some x) (hxy : Succeeds x y) (p : List (String × String)) :
    Oldest { s with requests := s.requests.put name y, published := p } volume n uid := by
  intro m z hz hvol hactive hne
  obtain ⟨w, hw, hwz⟩ := hxy.of_put hx hz
  rw [hwz.uid]
  exact h m w hw (hwz.spec ▸ hvol) (hwz.terminating hactive) hne

theorem Inv.put (hs : Inv c volume nodes s) (hx : s.requests.lookup name = some x)
    (hxy : Succeeds x y)
    (hobserved : y.status.observedGeneration ≤ y.metadata.generation ∧
      (y.metadata.terminating = true → y.status.observedGeneration < y.metadata.generation))
    (hready : x.spec.volumeName = volume → y.status.ready = true →
      Oldest s volume name x.metadata.uid)
    (p : List (String × String)) (hp : ∀ n, (volume, n) ∈ p → (volume, n) ∈ s.published ∧
      (c.attachRequestName volume n = name → y.metadata.terminating = false)) :
    Inv c volume nodes { s with requests := s.requests.put name y, published := p } where
  named n z hz := by
    obtain ⟨w, hw, hwz⟩ := hxy.of_put hx hz
    obtain ⟨h1, h2, h3⟩ := hs.named n w hw
    refine ⟨hwz.name.trans h1, ?_, ?_⟩
    · rw [hwz.spec]
      exact h2
    · rw [hwz.spec]
      exact h3
  single n z hz hvol := by
    obtain ⟨w, hw, hwz⟩ := hxy.of_put hx hz
    rw [hwz.spec] at hvol ⊢
    exact hs.single n w hw hvol
  created n z hz := by
    obtain ⟨w, hw, hwz⟩ := hxy.of_put hx hz
    have := hs.created n w hw
    rw [hwz.uid, hwz.creationTimestamp]
    exact ⟨Nat.le_succ_of_le this.1, this.2⟩
  version n z hz := by
    obtain ⟨_, hz⟩ | ⟨rfl, rfl⟩ := Store.lookup_put hz
    · exact Nat.le_succ_of_le (hs.version n z hz)
    · exact Nat.le_refl _
  distinct n m z z' hz hz' huid := by
    obtain ⟨w, hw, hwz⟩ := hxy.of_put hx hz
    obtain ⟨w', hw', hwz'⟩ := hxy.of_put hx hz'
    rw [hwz.uid, hwz'.uid] at huid
    exact hs.distinct n m w w' hw hw' huid
  ordered n m z z' hz hz' hvol hvol' hactive hactive' huid := by
    obtain ⟨w, hw, hwz⟩ := hxy.of_put hx hz
    obtain ⟨w', hw', hwz'⟩ := hxy.of_put hx hz'
    rw [hwz.uid, hwz'.uid] at huid
    rw [hwz.spec] at hvol
    rw [hwz'.spec] at hvol'
    rw [hwz.creationTimestamp, hwz'.creationTimestamp]
    exact hs.ordered n m w w' hw hw' hvol hvol' (hwz.terminating hactive)
      (hwz'.terminating hactive') huid
  observed n z hz := by
    obtain ⟨_, hz⟩ | ⟨rfl, rfl⟩ := Store.lookup_put hz
    · exact hs.observed n z hz
    · exact hobserved
  ready n z hz hvol hr := by
    refine Oldest.put ?_ hx hxy p
    obtain ⟨_, hz⟩ | ⟨rfl, rfl⟩ := Store.lookup_put hz
    · exact hs.ready n z hz hvol hr
    · show Oldest s volume n y.metadata.uid
      rw [hxy.uid]
      exact hready (hxy.spec ▸ hvol) hr
  published n hn := by
    obtain ⟨hn, hname⟩ := hp n hn
    obtain ⟨w, hw, hvol, hnode, hactive, hold⟩ := hs.published n hn
    by_cases hne : c.attachRequestName volume n = name
    · have hyactive := hname hne
      obtain rfl : x = w := by
        rw [hne, hx] at hw
        simpa using hw
      refine ⟨{ y with metadata := { y.metadata with resourceVersion := s.requests.revision + 1 } },
        ?_, ?_, ?_, hyactive, ?_⟩
      · rw [hne]
        exact (Store.lookup_put_self _ _ _).trans (by simp [Object.released, hyactive])
      · rw [hxy.spec]
        exact hvol
      · rw [hxy.spec]
        exact hnode
      · show Oldest _ volume _ y.metadata.uid
        rw [hxy.uid]
        exact hold.put hx hxy p
    · exact ⟨w, (Store.lookup_put_of_ne _ _ hne).trans hw, hvol, hnode, hactive, hold.put hx hxy p⟩

/-- A write that only moves finalizers, the resource version or the deletion mark is within what
the operator relies on, if it keeps what the operator holds. -/
theorem ByService.put (hx : s.requests.lookup name = some x) (hxy : Succeeds x y)
    (hstatus : y.status = x.status) (hfinalizers : y.metadata.finalizers = x.metadata.finalizers)
    (hterm : y.metadata.terminating = true) (hgen : x.metadata.generation < y.metadata.generation)
    (p : List (String × String)) :
    ByService s { s with requests := s.requests.put name y, published := p } where
  revision := Nat.le_succ _
  held n w hw hheld := by
    by_cases hn : n = name
    · subst hn
      obtain rfl : x = w := by simpa [hx] using hw
      have hfin : y.metadata.finalizers ≠ [] := by
        rw [hfinalizers]
        intro hnil
        simp [Object.containsFinalizer, hnil] at hheld
      refine ⟨{ y with metadata := { y.metadata with resourceVersion := s.requests.revision + 1 } },
        ?_, hxy.uid, hxy.spec, hstatus, hfinalizers, .inr ⟨hterm, hgen⟩⟩
      exact (Store.lookup_put_self _ _ _).trans (by simp [Object.released, hfin])
    · exact ⟨w, (Store.lookup_put_of_ne _ _ hn).trans hw, rfl, rfl, rfl, rfl, .inl ⟨rfl, rfl⟩⟩
  old n z hz := by
    obtain ⟨w, hw, hwz⟩ := hxy.of_put hx hz
    exact .inr ⟨w, hw, hwz.uid.symm, hwz.spec.symm, hwz.terminating⟩
  version n z hz := by
    obtain ⟨_, hz⟩ | ⟨rfl, rfl⟩ := Store.lookup_put hz
    · exact .inl hz
    · exact .inr (Nat.lt_succ_self _)

/-- A request as the API server creates it. -/
def newRequest (s : AttachWorld) (name : String) (spec : AttachRequestSpec) : AttachRequest where
  metadata := { name, uid := s.requests.revision + 1, creationTimestamp := s.clock
                resourceVersion := s.requests.revision + 1 }
  spec := spec
  status := {}

/-- What the store holds after a request was created. -/
theorem lookup_create {spec : AttachRequestSpec} (hnone : s.requests.lookup name = none)
    (n : String) :
    (s.requests.create s.clock name spec {}).2.lookup n =
      if n = name then some (newRequest s name spec) else s.requests.lookup n := by
  simp only [Store.create, hnone, Option.isSome_none, Bool.false_eq_true, if_false]
  by_cases hn : n = name
  · subst hn
    rw [Store.lookup_put_self]
    simp [Object.released, newRequest]
  · simp [Store.lookup_put_of_ne _ _ hn, hn]

theorem revision_create {spec : AttachRequestSpec} (hnone : s.requests.lookup name = none) :
    (s.requests.create s.clock name spec {}).2.revision = s.requests.revision + 1 := by
  simp [Store.create, hnone]

theorem Oldest.create {spec : AttachRequestSpec} {n : String} {uid : Nat}
    (h : Oldest s volume n uid) (hnone : s.requests.lookup name = none)
    (huid : uid ≤ s.requests.revision) :
    Oldest { s with requests := (s.requests.create s.clock name spec {}).2 } volume n uid := by
  intro m z hz hvol hactive hne
  rw [lookup_create hnone] at hz
  split_ifs at hz with hm
  · obtain rfl : newRequest s name spec = z := by simpa using hz
    exact Nat.lt_succ_of_le huid
  · exact h m z hz hvol hactive hne

theorem Inv.create {spec : AttachRequestSpec} (hs : Inv c volume nodes s)
    (hnone : s.requests.lookup name = none)
    (hname : name = c.attachRequestName spec.volumeName spec.nodeName)
    (hnode : spec.nodeName ∈ nodes) (hsingle : spec.volumeName = volume → spec.singleNode = true)
    (htie : spec.volumeName = volume → ∀ x ∈ s.requests.values, x.spec.volumeName = volume →
      x.metadata.terminating = false → x.metadata.creationTimestamp < s.clock ∨ x.name < name) :
    Inv c volume nodes { s with requests := (s.requests.create s.clock name spec {}).2 } := by
  have hcases : ∀ n z, (s.requests.create s.clock name spec {}).2.lookup n = some z →
      (n = name ∧ z = newRequest s name spec) ∨ (n ≠ name ∧ s.requests.lookup n = some z) := by
    intro n z hz
    rw [lookup_create hnone] at hz
    split_ifs at hz with hn
    · exact .inl ⟨hn, by simpa using hz.symm⟩
    · exact .inr ⟨hn, hz⟩
  refine ⟨?_, ?_, ?_, ?_, ?_, ?_, ?_, ?_, ?_⟩
  · intro n z hz
    obtain ⟨rfl, rfl⟩ | ⟨_, hz⟩ := hcases n z hz
    · exact ⟨rfl, hnode, hname⟩
    · exact hs.named n z hz
  · intro n z hz hvol
    obtain ⟨rfl, rfl⟩ | ⟨_, hz⟩ := hcases n z hz
    · exact hsingle hvol
    · exact hs.single n z hz hvol
  · intro n z hz
    simp only [revision_create hnone]
    obtain ⟨rfl, rfl⟩ | ⟨_, hz⟩ := hcases n z hz
    · exact ⟨Nat.le_refl _, Nat.le_refl _⟩
    · have := hs.created n z hz
      exact ⟨by omega, this.2⟩
  · intro n z hz
    simp only [revision_create hnone]
    obtain ⟨rfl, rfl⟩ | ⟨_, hz⟩ := hcases n z hz
    · exact Nat.le_refl _
    · exact Nat.le_succ_of_le (hs.version n z hz)
  · intro n m z w hz hw huid
    obtain ⟨rfl, rfl⟩ | ⟨_, hz'⟩ := hcases n z hz <;> obtain ⟨rfl, rfl⟩ | ⟨_, hw'⟩ := hcases m w hw
    · rfl
    · have := (hs.created m w hw').1
      simp only [newRequest] at huid
      omega
    · have := (hs.created n z hz').1
      simp only [newRequest] at huid
      omega
    · exact hs.distinct n m z w hz' hw' huid
  · intro n m z w hz hw hvol hvol' hactive hactive' huid
    obtain ⟨rfl, rfl⟩ | ⟨_, hz'⟩ := hcases n z hz <;> obtain ⟨rfl, rfl⟩ | ⟨_, hw'⟩ := hcases m w hw
    · omega
    · have := (hs.created m w hw').1
      simp only [newRequest] at huid
      omega
    · have hle := (hs.created n z hz').2
      have hlt := htie hvol' z (Store.mem_values.mpr ⟨n, hz'⟩) hvol hactive
      rw [(hs.named n z hz').1] at hlt
      simp only [newRequest]
      rcases hlt with hlt | hlt
      · exact .inl hlt
      · rcases Nat.lt_or_ge z.metadata.creationTimestamp s.clock with h | h
        · exact .inl h
        · exact .inr ⟨by omega, hlt⟩
    · exact hs.ordered n m z w hz' hw' hvol hvol' hactive hactive' huid
  · intro n z hz
    obtain ⟨rfl, rfl⟩ | ⟨_, hz⟩ := hcases n z hz
    · simp [newRequest]
    · exact hs.observed n z hz
  · intro n z hz hvol hr
    obtain ⟨rfl, rfl⟩ | ⟨_, hz⟩ := hcases n z hz
    · simp [newRequest] at hr
    · exact (hs.ready n z hz hvol hr).create hnone (hs.created n z hz).1
  · intro n hn
    obtain ⟨w, hw, hvol, hnode, hactive, hold⟩ := hs.published n hn
    refine ⟨w, ?_, hvol, hnode, hactive, hold.create hnone (hs.created _ w hw).1⟩
    show (s.requests.create s.clock name spec {}).2.lookup _ = some w
    rw [lookup_create hnone, if_neg]
    · exact hw
    · rintro rfl
      simp [hnone] at hw

theorem ByService.create {spec : AttachRequestSpec} (hnone : s.requests.lookup name = none) :
    ByService s { s with requests := (s.requests.create s.clock name spec {}).2 } where
  revision := by simp only [revision_create hnone]; omega
  held n w hw _ := by
    refine ⟨w, ?_, rfl, rfl, rfl, rfl, .inl ⟨rfl, rfl⟩⟩
    show (s.requests.create s.clock name spec {}).2.lookup n = some w
    rw [lookup_create hnone, if_neg]
    · exact hw
    · rintro rfl
      simp [hnone] at hw
  old n z hz := by
    simp only [lookup_create hnone] at hz
    split_ifs at hz with hn
    · obtain rfl : newRequest s name spec = z := by simpa using hz
      exact .inl (Nat.lt_succ_self _)
    · exact .inr ⟨z, hz, rfl, rfl, fun h => h⟩
  version n z hz := by
    simp only [lookup_create hnone] at hz
    split_ifs at hz with hn
    · obtain rfl : newRequest s name spec = z := by simpa using hz
      exact .inr (Nat.lt_succ_self _)
    · exact .inl hz

end Write

/-! ## The calls of the two services -/

section Steps

variable {c : ControllerServer} {volume : String} {nodes : Set String} {s t : AttachWorld}

/-- Two nodes of the cluster do not share the digits that name their requests. -/
structure Distinguishes (c : ControllerServer) (nodes : Set String) : Prop where
  length : ∀ n, (c.nodeHash n).length = 12
  inj : Set.InjOn c.nodeHash nodes

theorem Distinguishes.attachRequestName (h : Distinguishes c nodes) {v v' n n' : String}
    (hn : n ∈ nodes) (hn' : n' ∈ nodes)
    (heq : c.attachRequestName v n = c.attachRequestName v' n') : v = v' ∧ n = n' := by
  have hlist := congrArg String.toList heq
  simp only [ControllerServer.attachRequestName, String.toList_append] at hlist
  have hlen : (c.nodeHash n).toList.length = (c.nodeHash n').toList.length := by
    rw [String.length_toList, String.length_toList, h.length, h.length]
  obtain ⟨hv, hhash⟩ := List.append_inj' hlist hlen
  refine ⟨?_, h.inj hn hn' (String.toList_injective hhash)⟩
  exact String.toList_injective (List.append_inj_left' hv rfl)

theorem Inv.of_eq (hs : Inv c volume nodes s) (hrequests : t.requests = s.requests)
    (hpublished : t.published = s.published) (hclock : s.clock ≤ t.clock) :
    Inv c volume nodes t where
  named n x hx := hs.named n x (hrequests ▸ hx)
  single n x hx := hs.single n x (hrequests ▸ hx)
  created n x hx := by
    have := hs.created n x (hrequests ▸ hx)
    rw [hrequests]
    exact ⟨this.1, by omega⟩
  version n x hx := hrequests ▸ hs.version n x (hrequests ▸ hx)
  distinct n m x y hx hy := hs.distinct n m x y (hrequests ▸ hx) (hrequests ▸ hy)
  ordered n m x y hx hy := hs.ordered n m x y (hrequests ▸ hx) (hrequests ▸ hy)
  observed n x hx := hs.observed n x (hrequests ▸ hx)
  ready n x hx hvol hr := by
    intro m y hy
    exact hs.ready n x (hrequests ▸ hx) hvol hr m y (hrequests ▸ hy)
  published n hn := by
    obtain ⟨x, hx, hvol, hnode, hactive, hold⟩ := hs.published n (hpublished ▸ hn)
    exact ⟨x, hrequests ▸ hx, hvol, hnode, hactive, fun m y hy => hold m y (hrequests ▸ hy)⟩

/-- An unpublish marks the request of its node and ends the publication there. -/
theorem Inv.unpublish (h : Distinguishes c nodes) (hs : Inv c volume nodes s) {v n : String}
    (hn : n ∈ nodes) :
    let s' := (Task.handle (.unpublish v n) (.deleteRequest (c.attachRequestName v n)) s).2
    Inv c volume nodes s' ∧ ByService s s' := by
  have hpublished : ∀ m, (volume, m) ∈ s.published.filter (· ≠ (v, n)) →
      (volume, m) ∈ s.published ∧ c.attachRequestName volume m ≠ c.attachRequestName v n := by
    intro m hm
    obtain ⟨hm, hne⟩ := List.mem_filter.mp hm
    refine ⟨hm, fun heq => ?_⟩
    obtain ⟨x, hx, _, hnode, _⟩ := hs.published m hm
    have hmem := (hs.named _ x hx).2.1
    obtain ⟨rfl, rfl⟩ := h.attachRequestName (hnode ▸ hmem) hn heq
    simp at hne
  have hkept : Inv c volume nodes { s with published := s.published.filter (· ≠ (v, n)) } := by
    refine { hs with ready := hs.ready, published := ?_ }
    exact fun m hm => hs.published m (hpublished m hm).1
  simp only [Task.handle, AttachWorld.handle, Store.delete]
  cases hx : s.requests.lookup (c.attachRequestName v n) with
  | none => exact ⟨hkept, .of_eq rfl⟩
  | some x =>
    by_cases hterm : x.metadata.terminating = true
    · simp only [hterm, if_true]
      exact ⟨hkept, .of_eq rfl⟩
    · simp only [hterm, Bool.false_eq_true, if_false]
      have hobserved := (hs.observed _ x hx).1
      have hsucceeds : Succeeds x { x with metadata := { x.metadata with
          terminating := true, generation := x.metadata.generation + 1 } } :=
        ⟨rfl, rfl, rfl, rfl, by simp⟩
      refine ⟨hs.put hx hsucceeds ⟨by simp; omega, by simp; omega⟩ ?_ _ ?_, ?_⟩
      · exact fun hvol hr => hs.ready _ x hx hvol hr
      · exact fun m hm => ⟨(hpublished m hm).1, fun heq => absurd heq (hpublished m hm).2⟩
      · exact ByService.put hx hsucceeds rfl rfl rfl (by simp) _

end Steps

/-! ## Rely and guarantee -/

section RelyGuarantee

variable (c : ControllerServer) (volume : String) (nodes : Set String)

def attachRely (t : Task) (_ : AttachCall) (s s' : AttachWorld) : Prop :=
  Inv c volume nodes s' ∧ (t.isRpc = false → ByService s s')

def attachGuar (t : Task) (e : AttachCall) (s s' : AttachWorld) : Prop :=
  (t.isRpc = true → ByService s s') ∧
    (Inv c volume nodes s → NoTie volume s e → Inv c volume nodes s')

/-- The weakest precondition of a task beside the others. -/
abbrev taskWp {α : Type} (t : Task) (p : Program AttachCall AttachCall.Ret α)
    (Q : α → AttachWorld → Prop) (s : AttachWorld) : Prop :=
  p.wp t.handle AttachCall.fails (attachRely c volume nodes t) (attachGuar c volume nodes t) Q s

variable {c volume nodes} {s : AttachWorld} {T : Task}

theorem Task.handle_of_quiet {e : AttachCall} (he : e.writesRequests = false) :
    T.handle e = AttachWorld.handle e := by
  cases T <;> cases e <;> first | rfl | simp [AttachCall.writesRequests] at he

/-- A call that writes no request guarantees everything. -/
theorem attachGuar_quiet {e : AttachCall} (he : e.writesRequests = false) (s : AttachWorld) :
    attachGuar c volume nodes T e s (T.handle e s).2 := by
  rw [Task.handle_of_quiet he]
  obtain ⟨hrequests, hpublished, hclock⟩ := AttachWorld.handle_quiet he s
  exact ⟨fun _ => .of_eq hrequests, fun hs _ => hs.of_eq hrequests hpublished hclock.ge⟩

theorem ask_wp {e : AttachCall} {Q : Except Err e.Val → AttachWorld → Prop}
    (hQ : ∀ t, attachRely c volume nodes T e s t →
      attachGuar c volume nodes T e t (T.handle e t).2 ∧ Q (T.handle e t).1 (T.handle e t).2 ∧
        ∀ r, e.fails r → Q r t) :
    taskWp c volume nodes T (ask e).run Q s := by
  have hid : ∀ r : Except Err e.Val, r.mapError id = r := by rintro (_ | _) <;> rfl
  intro t ht
  obtain ⟨hguar, hQ, hfails⟩ := hQ t ht
  refine ⟨hguar, ?_, fun r hr => ?_⟩
  · show Q ((T.handle e t).1.mapError id) (T.handle e t).2
    rwa [hid]
  · show Q (r.mapError id) t
    rw [hid]
    exact hfails r hr

theorem outcome_bind_wp {ε α : Type} {e : AttachCall}
    {f : Except Err e.Val → Proc AttachCall AttachCall.Ret ε α}
    {Q : Except ε α → AttachWorld → Prop}
    (hf : ∀ t, attachRely c volume nodes T e s t →
      attachGuar c volume nodes T e t (T.handle e t).2 ∧
        taskWp c volume nodes T (f (T.handle e t).1).run Q (T.handle e t).2 ∧
        ∀ r, e.fails r → taskWp c volume nodes T (f r).run Q t) :
    taskWp c volume nodes T ((ask e).outcome >>= f).run Q s := by
  simp only [Proc.run_bind, Proc.run_outcome, bind_assoc]
  exact wp_bind (ask_wp hf)

end RelyGuarantee

end SimpleZfsCsi.Attach
