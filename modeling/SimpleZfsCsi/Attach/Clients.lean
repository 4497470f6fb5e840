import SimpleZfsCsi.Attach.Requests

/-!
# The two clients of the API server

Each call of the controller service and of the operator keeps the invariant of the requests.
A publish succeeds only on a request found ready, and the operator reports a request ready
only after it found it the oldest of its volume; what it found stays true while the service
goes on, since a request the operator holds is marked but not lost, and newer ones are
younger.
-/

namespace SimpleZfsCsi.Attach

open Library Api Csi Program Concurrent

/-! ## The controller service -/

section Service

variable {c : ControllerServer} {volume : String} {nodes : Set String} {s : AttachWorld}

theorem ask_calls {P : AttachCall → Prop} {e : AttachCall} (he : P e) : (ask e).run.Calls P := by
  simp [ask, he]

theorem orStatus_calls {α : Type} {P : AttachCall → Prop} {p : AttachProc Err α} {f : Err → Status}
    (hp : p.run.Calls P) : (orStatus p f).run.Calls P := by
  refine Proc.bind_calls (Proc.outcome_calls hp) fun r => ?_
  cases r <;> simp

theorem outcome_bind_calls {ε α : Type} {P : AttachCall → Prop} {e : AttachCall}
    {f : Except Err e.Val → Proc AttachCall AttachCall.Ret ε α} (he : P e)
    (hf : ∀ r, (f r).run.Calls P) : ((ask e).outcome >>= f).run.Calls P :=
  Proc.bind_calls (Proc.outcome_calls (ask_calls he)) hf

/-- The calls a publish may make: it creates no request but its own. -/
def Publishing (c : ControllerServer) (volume : String) (nodes : Set String)
    (e : AttachCall) : Prop :=
  e.writesRequests = false ∨ ∃ spec, e = .createRequest
    (c.attachRequestName spec.volumeName spec.nodeName) spec ∧ spec.nodeName ∈ nodes ∧
    (spec.volumeName = volume → spec.singleNode = true)

theorem ensureAttachRequest_calls {v n : String} {singleNode : Bool} (hn : n ∈ nodes)
    (hsingle : v = volume → singleNode = true) (rounds : Nat) :
    (ControllerServer.ensureAttachRequest (c.attachRequestName v n) v n singleNode rounds).run.Calls
      (Publishing c volume nodes) := by
  induction rounds with
  | zero => simp [ControllerServer.ensureAttachRequest]
  | succ rounds ih =>
    refine outcome_bind_calls (.inl rfl) fun r => ?_
    cases r with
    | ok existing =>
      simp only
      split_ifs <;> simp
    | error e =>
      simp only
      split_ifs
      · refine outcome_bind_calls (.inr ⟨⟨v, n, singleNode⟩, rfl, hn, hsingle⟩) fun r => ?_
        cases r with
        | ok => simp
        | error e => cases e <;> first | exact ih | simp
      · simp

theorem waitAttachReady_calls (name : String) (rounds : Nat) :
    (ControllerServer.waitAttachReady name rounds).run.Calls (Publishing c volume nodes) := by
  induction rounds with
  | zero => simp [ControllerServer.waitAttachReady]
  | succ rounds ih =>
    refine Proc.bind_calls (orStatus_calls (ask_calls (.inl rfl))) fun ar => ?_
    split_ifs
    · simp
    · exact ih

theorem controllerPublishVolume_calls {req : PublishRequest} (rounds : Nat)
    (hn : req.nodeID ∈ nodes)
    (hsingle : req.volumeID = volume → hasMultiNodeAccessMode req.volumeCapability = false) :
    (c.controllerPublishVolume req rounds).run.Calls (Publishing c volume nodes) := by
  unfold ControllerServer.controllerPublishVolume
  split_ifs
  · simp
  · simp
  refine Proc.bind_calls (orStatus_calls (ask_calls (.inl rfl))) fun vol => ?_
  split_ifs
  · simp
  refine Proc.bind_calls ?_ fun _ => Proc.bind_calls ?_ fun _ => waitAttachReady_calls _ _
  · unfold ControllerServer.checkSingleNode
    split_ifs
    · simp
    · refine Proc.bind_calls
        (orStatus_calls (Proc.bind_calls (ask_calls (.inl rfl)) fun items => ?_))
        fun other => ?_
      · split <;> simp
      · split_ifs <;> simp
  · exact ensureAttachRequest_calls hn (fun hv => by simp [hsingle hv]) rounds

theorem Publishing.guar {e : AttachCall} (he : Publishing c volume nodes e) {req : PublishRequest}
    {rounds : Nat} (s : AttachWorld) :
    attachGuar c volume nodes (.publish req rounds) e s
      ((Task.publish req rounds).handle e s).2 := by
  obtain hquiet | ⟨spec, rfl, hn, hsingle⟩ := he
  · exact attachGuar_quiet hquiet s
  · show attachGuar c volume nodes _ _ s { s with requests := (s.requests.create _ _ spec {}).2 }
    cases hx : s.requests.lookup (c.attachRequestName spec.volumeName spec.nodeName) with
    | none =>
      exact ⟨fun _ => .create hx, fun hs htie => hs.create hx rfl hn hsingle fun hv => htie hv hx⟩
    | some x =>
      have hsame : (s.requests.create s.clock (c.attachRequestName spec.volumeName spec.nodeName)
          spec {}).2 = s.requests := by simp [Store.create, hx]
      rw [hsame]
      exact ⟨fun _ => .of_eq rfl, fun hs _ => hs⟩

/-- The node's request is active, and was found oldest. -/
def PublishedAt (c : ControllerServer) (volume n : String) (s : AttachWorld) : Prop :=
  ∃ x, s.requests.lookup (c.attachRequestName volume n) = some x ∧ x.spec.volumeName = volume ∧
    x.spec.nodeName = n ∧ x.metadata.terminating = false ∧
    Oldest s volume (c.attachRequestName volume n) x.metadata.uid

/-- A request that is ready for its current generation is not being deleted. -/
theorem waitAttachReady_wp (h : Distinguishes c nodes) (T : Task) {n : String} (hn : n ∈ nodes)
    (volume : String) (rounds : Nat) (s : AttachWorld) :
    (ControllerServer.waitAttachReady (c.attachRequestName volume n) rounds).run.wp T.handle
      AttachCall.fails (attachRely c volume nodes T) (fun _ _ _ => True)
      (fun r t => r = .ok () → PublishedAt c volume n t) s := by
  induction rounds generalizing s with
  | zero => simp [ControllerServer.waitAttachReady, wp]
  | succ rounds ih =>
    rw [ControllerServer.waitAttachReady, Proc.run_bind, orStatus, Proc.run_bind, Proc.run_outcome]
    rintro t ⟨hinv, _⟩
    refine ⟨trivial, ?_, ?_⟩
    swap
    · rintro _ ⟨msg, rfl⟩
      simp [Except.mapError, wp]
    have hhandle : T.handle (.getRequest (c.attachRequestName volume n)) t =
      (t.requests.get (c.attachRequestName volume n), t) := by rw [Task.handle_of_quiet rfl]; rfl
    rw [hhandle]
    simp only [Store.get]
    cases hx : t.requests.lookup (c.attachRequestName volume n) with
    | none => simp [Except.mapError, wp]
    | some x =>
      simp only [Except.mapError, pure_bind, Proc.run_pure]
      split_ifs with hready
      · intro _
        obtain ⟨_, hmem, hname⟩ := hinv.named _ x hx
        obtain ⟨hvol, hnode⟩ := h.attachRequestName hn hmem hname
        have hactive : x.metadata.terminating = false := by
          by_contra hterm
          have := (hinv.observed _ x hx).2 (by simpa using hterm)
          omega
        exact ⟨x, hx, hvol.symm, hnode.symm, hactive, hinv.ready _ x hx hvol.symm hready.1⟩
      · exact ih t

theorem publish_wp (h : Distinguishes c nodes) {req : PublishRequest} (rounds : Nat)
    (hn : req.nodeID ∈ nodes)
    (hsingle : req.volumeID = volume → hasMultiNodeAccessMode req.volumeCapability = false) :
    taskWp c volume nodes (.publish req rounds) (c.controllerPublishVolume req rounds).run
      (fun r t => r = .ok () → req.volumeID = volume → PublishedAt c volume req.nodeID t) s := by
  have hguar : taskWp c volume nodes (.publish req rounds)
      (c.controllerPublishVolume req rounds).run (fun _ _ => True) s :=
    (controllerPublishVolume_calls rounds hn hsingle).wp (fun _ _ _ _ _ _ => trivial)
      (fun e t he _ => ⟨he.guar t, trivial⟩) trivial
  refine wp_mono (fun _ _ hr => hr.2) (wp_strengthen hguar ?_)
  by_cases hv : req.volumeID = volume
  swap
  · exact wp_mono (fun _ _ _ _ hv' => absurd hv' hv) (wp_trivial _ s)
  subst hv
  have hwait := waitAttachReady_wp h (.publish req rounds) hn req.volumeID rounds
  refine wp_mono (fun _ _ hr hok _ => hr hok) (Q := fun r t => r = .ok () →
    PublishedAt c req.volumeID req.nodeID t) ?_
  -- an error comes out of nothing, and a success only out of the wait
  unfold ControllerServer.controllerPublishVolume
  split_ifs
  · simp [wp]
  · simp [wp]
  refine Proc.wp_bind_last (fun _ _ hr => by cases hr) (fun vol t => ?_) s
  split_ifs
  · simp [wp]
  refine Proc.wp_bind_last (fun _ _ hr => by cases hr) (fun _ t => ?_) t
  exact Proc.wp_bind_last (fun _ _ hr => by cases hr) (fun _ t => hwait t) t

theorem unpublish_wp (h : Distinguishes c nodes) {v n : String} (hn : n ∈ nodes) :
    taskWp c volume nodes (.unpublish v n) (c.controllerUnpublishVolume v n).run
      (fun _ _ => True) s := by
  unfold ControllerServer.controllerUnpublishVolume
  split_ifs
  · simp [wp]
  · simp [wp]
  refine outcome_bind_wp fun t hrely => ⟨?_, ?_, ?_⟩
  · obtain ⟨hinv', hby⟩ := hrely.1.unpublish h hn
    exact ⟨fun _ => hby, fun _ _ => hinv'⟩
  · split
    · simp [wp]
    · split_ifs <;> simp [wp]
  · rintro _ ⟨msg, rfl⟩
    trivial

end Service

/-! ## The operator -/

section Operator

/-- The calls that write no request. -/
abbrev Quiet (e : AttachCall) : Prop := e.writesRequests = false

theorem deleteIgnoringAbsence_calls {P : AttachCall → Prop} {e : AttachCall} (he : P e) :
    (Operator.deleteIgnoringAbsence e).run.Calls P := by
  refine outcome_bind_calls he fun r => ?_
  cases r with
  | ok => simp
  | error err =>
    simp only
    split_ifs <;> simp

theorem deleteShareIfPresent_calls {P : AttachCall → Prop} {v : String} (hget : P (.getShare v))
    (hdelete : P (.deleteShare v)) : (Operator.deleteShareIfPresent v).run.Calls P := by
  refine outcome_bind_calls hget fun r => ?_
  cases r with
  | ok => exact deleteIgnoringAbsence_calls hdelete
  | error err =>
    simp only
    split_ifs <;> simp

theorem deleteDHChapSecret_calls {P : AttachCall → Prop}
    (hdelete : ∀ ns name, P (.deleteSecret ns name))
    (r : Operator) (v : String) : (r.deleteDHChapSecret v).run.Calls P := by
  unfold Operator.deleteDHChapSecret
  split_ifs
  · simp
  · exact deleteIgnoringAbsence_calls (hdelete _ _)

theorem nfsClientsForNodes_calls (ns : List String) :
    (Operator.nfsClientsForNodes ns).run.Calls Quiet := by
  have hall : ∀ ns, (Operator.nfsClientsOf ns).run.Calls Quiet := by
    intro ns
    induction ns with
    | nil => simp [Operator.nfsClientsOf]
    | cons n ns ih =>
      refine Proc.bind_calls (outcome_bind_calls rfl fun r => ?_) fun ip =>
        Proc.bind_calls ih fun _ => by simp
      cases r with
      | error e => simp
      | ok addresses =>
        simp only
        split <;> simp
  refine Proc.bind_calls (hall ns) fun clients => ?_
  split_ifs <;> simp

theorem createOrUpdateShare_calls (v : String) (spec : ShareSpec) :
    (Operator.createOrUpdateShare v spec).run.Calls Quiet := by
  refine outcome_bind_calls rfl fun r => ?_
  cases r with
  | error e =>
    simp only
    split_ifs
    · exact ask_calls rfl
    · simp
  | ok cur =>
    simp only
    split_ifs
    · simp
    · exact ask_calls rfl

theorem ensureDHChapSecret_calls {P : AttachCall → Prop} (hget : ∀ ns name, P (.getSecret ns name))
    (hkey : P .generateDHChapKey) (hcreate : ∀ ns name data, P (.createSecret ns name data))
    (r : Operator) (v : String) : (r.ensureDHChapSecret v).run.Calls P := by
  unfold Operator.ensureDHChapSecret
  split_ifs
  · simp
  · refine outcome_bind_calls (hget _ _) fun a => ?_
    cases a with
    | ok => simp
    | error e =>
      simp only
      split_ifs
      · refine Proc.bind_calls (ask_calls hkey) fun key =>
          outcome_bind_calls (hcreate _ _ _) fun a => ?_
        cases a with
        | ok => simp
        | error e => cases e <;> simp
      · simp

theorem nvmeExportSpec_calls (r : Operator) (v n : String) :
    (r.nvmeExportSpec v n).run.Calls Quiet := by
  unfold Operator.nvmeExportSpec
  split_ifs
  · have hsecret :=
      ensureDHChapSecret_calls (P := Quiet) (fun _ _ => rfl) rfl (fun _ _ _ => rfl) r v
    exact Proc.bind_calls hsecret fun _ => by simp
  · simp

theorem getPool_calls (guid : String) : (Operator.getPool guid).run.Calls Quiet := by
  refine outcome_bind_calls rfl fun r => ?_
  cases r <;> simp

theorem activeNodes_calls (v : String) : (Operator.activeNodes v).run.Calls Quiet :=
  Proc.bind_calls (ask_calls rfl) fun _ => by simp

theorem oldestAttachNode_calls (v : String) : (Operator.oldestAttachNode v).run.Calls Quiet := by
  refine Proc.bind_calls (ask_calls rfl) fun items => ?_
  split <;> simp

theorem isSingleNodeVolume_calls (v : String) :
    (Operator.isSingleNodeVolume v).run.Calls Quiet := by
  refine outcome_bind_calls rfl fun r => ?_
  cases r with
  | error e => simp
  | ok items =>
    simp only
    split <;> simp

/-- The aggregation writes shares and secrets, and no request. -/
theorem reconcileVolume_calls (r : Operator) (v : String) :
    (r.reconcileVolume v).run.Calls Quiet := by
  refine Proc.bind_calls (activeNodes_calls v) fun cached => Proc.bind_calls ?_ fun active => ?_
  · split_ifs
    · exact activeNodes_calls v
    · simp
  split_ifs
  · exact Proc.bind_calls (deleteIgnoringAbsence_calls rfl) fun _ =>
      Proc.bind_calls (deleteDHChapSecret_calls (fun _ _ => rfl) r v) fun _ => by simp
  refine outcome_bind_calls rfl fun a => ?_
  cases a with
  | error e => simp
  | ok ds =>
    simp only
    split
    · refine Proc.bind_calls (getPool_calls _) fun pool =>
        Proc.bind_calls (isSingleNodeVolume_calls v) fun single => ?_
      split_ifs
      · refine Proc.bind_calls (oldestAttachNode_calls v) fun node => ?_
        split_ifs
        · exact Proc.bind_calls (deleteShareIfPresent_calls rfl rfl) fun _ => by simp
        · exact Proc.bind_calls (nfsClientsForNodes_calls _) fun clients =>
            Proc.bind_calls (createOrUpdateShare_calls v _) fun _ => by simp
      · exact Proc.bind_calls (nfsClientsForNodes_calls _) fun clients =>
          Proc.bind_calls (createOrUpdateShare_calls v _) fun _ => by simp
    · refine Proc.bind_calls (oldestAttachNode_calls v) fun node =>
        Proc.bind_calls (getPool_calls _) fun pool => ?_
      split_ifs
      · exact Proc.bind_calls (deleteShareIfPresent_calls rfl rfl) fun _ =>
          Proc.bind_calls (deleteDHChapSecret_calls (fun _ _ => rfl) r v) fun _ => by simp
      · exact Proc.bind_calls (nvmeExportSpec_calls r v node) fun spec => Proc.bind_calls
          (createOrUpdateShare_calls v _) fun _ => by simp

/-- The order the operator compares requests by. -/
def Earlier (x y : AttachRequest) : Prop :=
  x.metadata.creationTimestamp < y.metadata.creationTimestamp ∨
    (x.metadata.creationTimestamp = y.metadata.creationTimestamp ∧ x.name ≤ y.name)

theorem Earlier.refl (x : AttachRequest) : Earlier x x := .inr ⟨rfl, le_refl _⟩

theorem Earlier.trans {x y z : AttachRequest} (h : Earlier x y) (h' : Earlier y z) :
    Earlier x z := by
  rcases h with h | ⟨h, hn⟩ <;> rcases h' with h' | ⟨h', hn'⟩
  · exact .inl (h.trans h')
  · exact .inl (h' ▸ h)
  · exact .inl (h ▸ h')
  · exact .inr ⟨h.trans h', hn.trans hn'⟩

/-- One round of the loop keeps the earlier of the two. -/
theorem older_some (x y : AttachRequest) :
    ∃ o, Operator.older (some x) y = some o ∧ (o = x ∨ o = y) ∧ Earlier o x ∧ Earlier o y := by
  simp only [Operator.older]
  split_ifs with heq hname hlt
  · exact ⟨y, rfl, .inr rfl, .inr ⟨heq, hname.le⟩, .refl y⟩
  · exact ⟨x, rfl, .inl rfl, .refl x, .inr ⟨heq.symm, not_lt.mp hname⟩⟩
  · exact ⟨y, rfl, .inr rfl, .inl hlt, .refl y⟩
  · exact ⟨x, rfl, .inl rfl, .refl x, .inl (by omega)⟩

theorem foldl_older (l : List AttachRequest) (x o : AttachRequest)
    (h : l.foldl Operator.older (some x) = some o) :
    (o = x ∨ o ∈ l) ∧ Earlier o x ∧ ∀ y ∈ l, Earlier o y := by
  induction l generalizing x with
  | nil =>
    obtain rfl : x = o := by simpa using h
    exact ⟨.inl rfl, .refl x, by simp⟩
  | cons y l ih =>
    obtain ⟨z, hz, hmem, hx, hy⟩ := older_some x y
    rw [List.foldl_cons, hz] at h
    obtain ⟨ho, hoz, hl⟩ := ih z h
    refine ⟨?_, hoz.trans hx, ?_⟩
    · rcases ho with rfl | ho
      · rcases hmem with rfl | rfl
        · exact .inl rfl
        · exact .inr List.mem_cons_self
      · exact .inr (List.mem_cons_of_mem _ ho)
    · intro w hw
      rcases List.mem_cons.mp hw with rfl | hw
      · exact hoz.trans hy
      · exact hl w hw

/-- The loop of `oldestAttachNode` returns a first request in its order. -/
theorem foldl_older_none {l : List AttachRequest} {o : AttachRequest}
    (h : l.foldl Operator.older none = some o) : o ∈ l ∧ ∀ y ∈ l, Earlier o y := by
  cases l with
  | nil => simp at h
  | cons x l =>
    obtain ⟨ho, hx, hl⟩ := foldl_older l x o h
    refine ⟨?_, ?_⟩
    · rcases ho with rfl | ho
      · exact List.mem_cons_self
      · exact List.mem_cons_of_mem _ ho
    · intro w hw
      rcases List.mem_cons.mp hw with rfl | hw
      · exact hx
      · exact hl w hw

variable {c : ControllerServer} {volume : String} {nodes : Set String} {s s₀ : AttachWorld}
  {name : String} {ar : AttachRequest}

/-- The first request in the operator's order was created before every other active one. -/
theorem Inv.oldest_of_earlier (hs : Inv c volume nodes s) {n : String} {o : AttachRequest}
    (ho : s.requests.lookup n = some o) (hactive : o.metadata.terminating = false)
    (hvol : o.spec.volumeName = volume)
    (hfirst : ∀ y ∈ Operator.active s.requests.values volume, Earlier o y) :
    Oldest s volume n o.metadata.uid := by
  intro m x hx hxvol hxactive hne
  by_contra huid
  have hlt : x.metadata.uid < o.metadata.uid := by
    have : x.metadata.uid ≠ o.metadata.uid := fun heq => hne (hs.distinct m n x o hx ho heq)
    omega
  have hearlier := hfirst x (by simpa [Operator.active, hxvol, hxactive] using ⟨m, hx⟩)
  have hordered := hs.ordered m n x o hx ho hxvol hvol hxactive hactive hlt
  have hmx := (hs.named m x hx).1
  have hno := (hs.named n o ho).1
  rcases hearlier with h | ⟨h, hname⟩ <;> rcases hordered with h' | ⟨h', hname'⟩
  · omega
  · omega
  · omega
  · rw [hmx, hno] at hname
    exact absurd hname' (not_lt.mpr hname)

/-- Since the operator read `ar` in `s₀` only the controller service wrote requests; and, once
`found`, the request is the oldest of its volume. -/
structure Since (c : ControllerServer) (volume : String) (nodes : Set String) (s₀ : AttachWorld)
    (ar : AttachRequest) (found : Prop) (s : AttachWorld) : Prop where
  inv : Inv c volume nodes s
  service : ByService s₀ s
  oldest : found → ar.spec.volumeName = volume → Oldest s volume ar.name ar.metadata.uid

theorem Since.weaken {found found' : Prop} (h : Since c volume nodes s₀ ar found s)
    (hf : found' → found) : Since c volume nodes s₀ ar found' s :=
  ⟨h.inv, h.service, fun hf' => h.oldest (hf hf')⟩

/-- What the operator has found stays true while the service goes on. -/
theorem Since.rely {found : Prop} (h₀ : Inv c volume nodes s₀)
    (har : s₀.requests.lookup ar.name = some ar) (hs : Since c volume nodes s₀ ar found s)
    {e : AttachCall} {t : AttachWorld} (ht : attachRely c volume nodes (.reconcile name) e s t) :
    Since c volume nodes s₀ ar found t := by
  obtain ⟨hinv, hservice⟩ := ht
  refine ⟨hinv, hs.service.trans (hservice rfl), fun hf hvol => ?_⟩
  have huid := (h₀.created _ ar har).1
  exact (hs.oldest hf hvol).byService (hservice rfl) (huid.trans hs.service.revision)

theorem Since.quiet {found : Prop} {e : AttachCall} (he : Quiet e)
    (hs : Since c volume nodes s₀ ar found s) :
    Since c volume nodes s₀ ar found ((Task.reconcile name).handle e s).2 := by
  rw [Task.handle_of_quiet he]
  obtain ⟨hrequests, hpublished, hclock⟩ := AttachWorld.handle_quiet he s
  refine ⟨hs.inv.of_eq hrequests hpublished hclock.ge, hs.service.trans (.of_eq hrequests), ?_⟩
  intro hf hvol n x hx
  exact hs.oldest hf hvol n x (hrequests ▸ hx)

theorem Since.quiet_wp {α : Type} {found : Prop} {p : Program AttachCall AttachCall.Ret α}
    (h₀ : Inv c volume nodes s₀) (har : s₀.requests.lookup ar.name = some ar) (hp : p.Calls Quiet)
    (hs : Since c volume nodes s₀ ar found s) :
    taskWp c volume nodes (.reconcile name) p
      (fun _ t => Since c volume nodes s₀ ar found t) s :=
  hp.wp (fun _ _ _ _ hs ht => hs.rely h₀ har ht)
    (fun _ _ he hs => ⟨attachGuar_quiet he _, hs.quiet he⟩) hs

/-- The request the operator holds is still the same object. -/
theorem Since.held {found : Prop} (hs : Since c volume nodes s₀ ar found s)
    (har : s₀.requests.lookup ar.name = some ar)
    (hfin : ar.containsFinalizer zfsShareAttachRequestFinalizer = true) :
    ∃ x, s.requests.lookup ar.name = some x ∧ x.metadata.uid = ar.metadata.uid ∧
      x.spec = ar.spec := by
  obtain ⟨x, hx, huid, hspec, _⟩ := hs.service.held _ ar har hfin
  exact ⟨x, hx, huid, hspec⟩

theorem oldestAttachNode_wp (h₀ : Inv c volume nodes s₀)
    (har : s₀.requests.lookup ar.name = some ar)
    (hfin : ar.containsFinalizer zfsShareAttachRequestFinalizer = true)
    (hs : Since c volume nodes s₀ ar False s) :
    taskWp c volume nodes (.reconcile name) (Operator.oldestAttachNode ar.spec.volumeName).run
      (fun r t => ∀ node, r = .ok node →
        Since c volume nodes s₀ ar (node = ar.spec.nodeName) t) s := by
  refine Proc.wp_bind (ask_wp fun t ht => ⟨attachGuar_quiet rfl t, ?_, fun _ hr => hr.elim⟩)
  have ht := hs.rely h₀ har ht
  rw [Task.handle_of_quiet rfl]
  simp only [AttachWorld.handle]
  cases ho : (Operator.active t.requests.values ar.spec.volumeName).foldl Operator.older none with
  | none => simp [wp]
  | some o =>
    intro node hnode
    obtain rfl : o.spec.nodeName = node := by simpa using hnode
    refine ⟨ht.inv, ht.service, fun hnode hvol => ?_⟩
    obtain ⟨hmem, hfirst⟩ := foldl_older_none ho
    obtain ⟨hmem, hovol, hactive⟩ : o ∈ t.requests.values ∧
        o.spec.volumeName = ar.spec.volumeName ∧ o.metadata.terminating = false := by
      simpa [Operator.active] using hmem
    obtain ⟨n, hn⟩ := Store.mem_values.mp hmem
    -- the oldest request of the node is the one the operator holds
    have hname : n = ar.name := by
      rw [(ht.inv.named n o hn).2.2, hovol, hnode, ← (h₀.named _ ar har).2.2]
    obtain ⟨x, hx, huid, _⟩ := ht.held har hfin
    obtain rfl : o = x := by
      rw [hname, hx] at hn
      simpa using hn.symm
    rw [← huid]
    exact ht.inv.oldest_of_earlier hx hactive (hovol.trans hvol) (hvol ▸ hfirst)

theorem isSingleNodeVolume_wp (h₀ : Inv c volume nodes s₀)
    (har : s₀.requests.lookup ar.name = some ar) (hs : Since c volume nodes s₀ ar False s) :
    taskWp c volume nodes (.reconcile name) (Operator.isSingleNodeVolume ar.spec.volumeName).run
      (fun r t => ∀ single, r = .ok single →
        Since c volume nodes s₀ ar (single = false) t) s := by
  refine outcome_bind_wp fun t ht => ⟨attachGuar_quiet rfl t, ?_, fun _ hr => hr.elim⟩
  have ht := hs.rely h₀ har ht
  rw [Task.handle_of_quiet rfl]
  simp only [AttachWorld.handle]
  cases hactive : Operator.active t.requests.values ar.spec.volumeName with
  | nil =>
    intro single _
    refine ⟨ht.inv, ht.service, fun _ hvol m x hx hxvol hxactive _ => ?_⟩
    have hmem : x ∈ Operator.active t.requests.values ar.spec.volumeName := by
      simpa [Operator.active, hxvol, hxactive, hvol] using ⟨m, hx⟩
    simp [hactive] at hmem
  | cons it rest =>
    intro single hsingle
    obtain rfl : it.spec.singleNode = single := by simpa using hsingle
    refine ⟨ht.inv, ht.service, fun hfalse hvol => ?_⟩
    have hmem : it ∈ Operator.active t.requests.values ar.spec.volumeName := by simp [hactive]
    obtain ⟨hmem, hitvol, _⟩ : it ∈ t.requests.values ∧
        it.spec.volumeName = ar.spec.volumeName ∧ it.metadata.terminating = false := by
      simpa [Operator.active] using hmem
    obtain ⟨n, hn⟩ := Store.mem_values.mp hmem
    rw [ht.inv.single n it hn (hitvol.trans hvol)] at hfalse
    cases hfalse

/-- Steps that write no request keep what the operator has found. -/
theorem Since.then_wp {α β : Type} {found : Prop} {p : AttachProc Err α} {f : α → AttachProc Err β}
    {Q : Except Err β → AttachWorld → Prop} (h₀ : Inv c volume nodes s₀)
    (har : s₀.requests.lookup ar.name = some ar) (hp : p.run.Calls Quiet)
    (hs : Since c volume nodes s₀ ar found s) (herror : ∀ e t, Q (.error e) t)
    (hf : ∀ a t, Since c volume nodes s₀ ar found t →
      taskWp c volume nodes (.reconcile name) (f a).run Q t) :
    taskWp c volume nodes (.reconcile name) (p >>= f).run Q s := by
  refine Proc.wp_bind (wp_mono ?_ (Since.quiet_wp h₀ har hp hs))
  rintro (e | a) t ht
  · exact herror e t
  · exact hf a t ht

/-- If the aggregation exports the volume to the request's node, the request is the oldest. -/
abbrev Exporting (c : ControllerServer) (volume : String) (nodes : Set String) (s₀ : AttachWorld)
    (ar : AttachRequest) (r : Except Err Aggregated) (t : AttachWorld) : Prop :=
  ∀ agg, r = .ok agg → Since c volume nodes s₀ ar (ar.spec.nodeName ∈ agg.exported) t

theorem Exporting.error (e : Err) (t : AttachWorld) :
    Exporting c volume nodes s₀ ar (.error e) t := by
  intro agg hagg
  cases hagg

theorem Since.export_one {node : String} {agg : Aggregated} {t : AttachWorld}
    (ht : Since c volume nodes s₀ ar (node = ar.spec.nodeName) t) (hagg : agg.exported = [node]) :
    taskWp c volume nodes (.reconcile name) (pure agg : AttachProc Err Aggregated).run
      (Exporting c volume nodes s₀ ar) t := by
  rintro _ ⟨⟩
  refine ht.weaken fun hmem => ?_
  rw [hagg] at hmem
  exact (List.mem_singleton.mp hmem).symm

section Aggregate

variable (h₀ : Inv c volume nodes s₀) (har : s₀.requests.lookup ar.name = some ar)
  (hfin : ar.containsFinalizer zfsShareAttachRequestFinalizer = true)

include h₀ har hfin

theorem reconcileNFS_wp (hs : Since c volume nodes s₀ ar False s) (ds : ZfsDataset)
    (active : List String) :
    taskWp c volume nodes (.reconcile name)
      (Operator.reconcileNFS ar.spec.volumeName ds active).run
      (Exporting c volume nodes s₀ ar) s := by
  unfold Operator.reconcileNFS
  refine hs.then_wp h₀ har (getPool_calls _) Exporting.error fun pool t ht => ?_
  refine Proc.wp_bind (wp_mono ?_ (isSingleNodeVolume_wp h₀ har ht))
  rintro (e | single) t ht
  · exact .error e t
  have ht := ht single rfl
  cases single with
  | true =>
    simp only [if_true]
    refine Proc.wp_bind (wp_mono ?_ (oldestAttachNode_wp h₀ har hfin (ht.weaken False.elim)))
    rintro (e | node) t ht
    · exact .error e t
    have ht := ht node rfl
    simp only
    split_ifs
    · exact ht.then_wp h₀ har (deleteShareIfPresent_calls rfl rfl) Exporting.error
        fun _ t ht => ht.export_one rfl
    · refine ht.then_wp h₀ har (nfsClientsForNodes_calls _) Exporting.error fun clients t ht => ?_
      exact ht.then_wp h₀ har (createOrUpdateShare_calls _ _) Exporting.error
        fun share t ht => ht.export_one rfl
  | false =>
    simp only [Bool.false_eq_true, if_false]
    refine ht.then_wp h₀ har (nfsClientsForNodes_calls _) Exporting.error fun clients t ht => ?_
    refine ht.then_wp h₀ har (createOrUpdateShare_calls _ _) Exporting.error fun share t ht => ?_
    rintro _ ⟨⟩
    exact ht.weaken fun _ => rfl

theorem reconcileNVMeoF_wp (r : Operator) (hs : Since c volume nodes s₀ ar False s)
    (ds : ZfsDataset) :
    taskWp c volume nodes (.reconcile name) (r.reconcileNVMeoF ar.spec.volumeName ds).run
      (Exporting c volume nodes s₀ ar) s := by
  unfold Operator.reconcileNVMeoF
  refine Proc.wp_bind (wp_mono ?_ (oldestAttachNode_wp h₀ har hfin hs))
  rintro (e | node) t ht
  · exact .error e t
  refine (ht node rfl).then_wp h₀ har (getPool_calls _) Exporting.error fun pool t ht => ?_
  split_ifs
  · refine ht.then_wp h₀ har (deleteShareIfPresent_calls rfl rfl) Exporting.error fun _ t ht => ?_
    exact ht.then_wp h₀ har (deleteDHChapSecret_calls (fun _ _ => rfl) _ _) Exporting.error
      fun _ t ht => ht.export_one rfl
  · refine ht.then_wp h₀ har (nvmeExportSpec_calls _ _ _) Exporting.error fun spec t ht => ?_
    exact ht.then_wp h₀ har (createOrUpdateShare_calls _ _) Exporting.error
      fun share t ht => ht.export_one rfl

theorem reconcileVolume_wp (r : Operator) (hs : Since c volume nodes s₀ ar False s) :
    taskWp c volume nodes (.reconcile name) (r.reconcileVolume ar.spec.volumeName).run
      (Exporting c volume nodes s₀ ar) s := by
  unfold Operator.reconcileVolume
  refine hs.then_wp h₀ har (activeNodes_calls _) Exporting.error fun cached t ht => ?_
  refine ht.then_wp h₀ har ?_ Exporting.error fun active t ht => ?_
  · split_ifs
    · exact activeNodes_calls _
    · simp
  split_ifs
  · refine ht.then_wp h₀ har (deleteIgnoringAbsence_calls rfl) Exporting.error fun _ t ht => ?_
    refine ht.then_wp h₀ har (deleteDHChapSecret_calls (fun _ _ => rfl) _ _) Exporting.error
      fun _ t ht => ?_
    rintro _ ⟨⟩
    exact ht.weaken (by simp)
  · refine ht.then_wp h₀ har (Proc.outcome_calls (ask_calls rfl)) Exporting.error fun a t ht => ?_
    cases a with
    | error e => exact .error _ t
    | ok ds =>
      simp only
      split
      · exact reconcileNFS_wp h₀ har hfin ht ds active
      · exact reconcileNVMeoF_wp h₀ har hfin r ht ds

end Aggregate

/-- An update of the finalizers of the copy that was read takes effect only on that copy. -/
theorem Since.updateRequest_guar (h₀ : Inv c volume nodes s₀)
    (har : s₀.requests.lookup ar.name = some ar) (hs : Since c volume nodes s₀ ar False s)
    (finalizers : List String) :
    attachGuar c volume nodes (.reconcile name)
      (.updateRequest { ar with metadata := { ar.metadata with finalizers } }) s
      (AttachWorld.handle
        (.updateRequest { ar with metadata := { ar.metadata with finalizers } }) s).2 := by
  refine ⟨by simp [Task.isRpc], fun hinv _ => ?_⟩
  simp only [AttachWorld.handle]
  obtain ⟨e, hfail⟩ | ⟨cur, hcur, hversion, hok⟩ := s.requests.update_cases
    { ar with metadata := { ar.metadata with finalizers } }
  · rwa [hfail]
  · -- the resource version did not move, so neither did the request
    have hle := h₀.version _ ar har
    obtain rfl : cur = ar := by
      obtain hold | hnew := hs.service.version _ cur hcur
      · exact Option.some_inj.mp (hold.symm.trans har)
      · simp only at hversion
        omega
    simp only [hok, if_true]
    refine hinv.put (y := { cur with metadata := { cur.metadata with finalizers } }) hcur
      ⟨rfl, rfl, rfl, rfl, fun h => h⟩ ?_ ?_ s.published ?_
    · simpa using hinv.observed _ cur hcur
    · exact fun hvol hready => hinv.ready _ cur hcur hvol hready
    · intro n hn
      refine ⟨hn, fun hname => ?_⟩
      obtain ⟨x, hx, _, _, hactive, _⟩ := hinv.published n hn
      rw [hname] at hx
      obtain rfl : cur = x := Option.some_inj.mp (hcur.symm.trans hx)
      exact hactive

theorem merge_self (read patched : AttachRequestStatus) :
    AttachRequestStatus.merge read patched read = patched := by
  have hfield : ∀ {α : Type} [DecidableEq α] (a b : α), mergeField a b a = b := by
    intro α _ a b
    unfold mergeField
    split_ifs with h
    · exact h
    · rfl
  simp [AttachRequestStatus.merge, hfield]

/-- Nobody else writes the status, so the patch leaves the status it was computed to be; it is
current only if the request has not been deleted since. -/
theorem Since.patchRequestStatus_guar {patched : AttachRequestStatus}
    (har : s₀.requests.lookup ar.name = some ar)
    (hfin : ar.containsFinalizer zfsShareAttachRequestFinalizer = true)
    (hactive : ar.metadata.terminating = false)
    (hs : Since c volume nodes s₀ ar (patched.ready = true) s)
    (hobserved : patched.observedGeneration = ar.metadata.generation) :
    attachGuar c volume nodes (.reconcile name) (.patchRequestStatus ar.name ar.status patched) s
      (AttachWorld.handle (.patchRequestStatus ar.name ar.status patched) s).2 := by
  refine ⟨by simp [Task.isRpc], fun hinv _ => ?_⟩
  obtain ⟨cur, hcur, huid, hspec, hstatus, _, hgen⟩ := hs.service.held _ ar har hfin
  simp only [AttachWorld.handle, Store.patchStatus, hcur, hstatus, merge_self]
  refine hinv.put (y := { cur with status := patched }) hcur ⟨rfl, rfl, rfl, rfl, fun h => h⟩ ?_ ?_
    s.published ?_
  · simp only [hobserved]
    rcases hgen with ⟨hterm, hgen⟩ | ⟨_, hgen⟩
    · exact ⟨hgen.ge, fun h => by simp [hterm, hactive] at h⟩
    · exact ⟨hgen.le, fun _ => hgen⟩
  · intro hvol hready
    rw [huid]
    exact hs.oldest hready (hspec ▸ hvol)
  · intro n hn
    refine ⟨hn, fun hname => ?_⟩
    obtain ⟨x, hx, _, _, hxactive, _⟩ := hinv.published n hn
    rw [hname] at hx
    obtain rfl : cur = x := Option.some_inj.mp (hcur.symm.trans hx)
    exact hxactive

section Reconcile

variable (h₀ : Inv c volume nodes s₀) (har : s₀.requests.lookup ar.name = some ar)

include h₀ har

theorem updateRequest_wp (hs : Since c volume nodes s₀ ar False s) (finalizers : List String) :
    taskWp c volume nodes (.reconcile name)
      (ask (.updateRequest { ar with metadata := { ar.metadata with finalizers } })).run
      (fun _ _ => True) s :=
  ask_wp fun _ ht => ⟨(hs.rely h₀ har ht).updateRequest_guar h₀ har finalizers, trivial,
    fun _ _ => trivial⟩

theorem setStatus_wp (hfin : ar.containsFinalizer zfsShareAttachRequestFinalizer = true)
    (hactive : ar.metadata.terminating = false) {ready : Bool}
    (hs : Since c volume nodes s₀ ar (ready = true) s) (shareName reason message : String) :
    taskWp c volume nodes (.reconcile name)
      (Operator.setStatus ar ready shareName reason message).run (fun _ _ => True) s :=
  ask_wp fun _ ht =>
    ⟨(hs.rely h₀ har ht).patchRequestStatus_guar har hfin hactive rfl, trivial, fun _ _ => trivial⟩

theorem release_wp (r : Operator) (hs : Since c volume nodes s₀ ar False s) :
    taskWp c volume nodes (.reconcile name) (r.release ar).run (fun _ _ => True) s := by
  unfold Operator.release
  split_ifs with hfin
  · refine Proc.wp_bind (wp_mono ?_ (reconcileVolume_wp h₀ har hfin r hs))
    rintro (e | agg) t ht
    · trivial
    have ht := (ht agg rfl).weaken False.elim
    refine outcome_bind_wp fun u hu =>
      ⟨(ht.rely h₀ har hu).updateRequest_guar h₀ har _, ?_, ?_⟩
    · split
      · trivial
      · split_ifs <;> trivial
    · rintro _ ⟨msg, rfl⟩
      trivial
  · trivial

theorem ensure_wp (r : Operator) (hfin : ar.containsFinalizer zfsShareAttachRequestFinalizer = true)
    (hactive : ar.metadata.terminating = false) (hs : Since c volume nodes s₀ ar False s) :
    taskWp c volume nodes (.reconcile name) (r.ensure ar).run (fun _ _ => True) s := by
  unfold Operator.ensure
  simp only [Proc.run_bind, Proc.run_outcome, bind_assoc]
  refine wp_bind (wp_mono ?_ (wp_and (reconcileVolume_wp h₀ har hfin r hs)
    (Since.quiet_wp h₀ har (reconcileVolume_calls r _) hs)))
  rintro (e | agg) t ⟨ht, hsince⟩
  · exact setStatus_wp h₀ har hfin hactive (hsince.weaken (by simp)) _ _ _
  · refine setStatus_wp h₀ har hfin hactive ((ht agg rfl).weaken fun hready => ?_) _ _ _
    simp only [Bool.and_eq_true, List.contains_iff_mem] at hready
    exact hready.1

end Reconcile

theorem reconcile_wp (r : Operator) :
    taskWp c volume nodes (.reconcile name) (r.reconcile name).run (fun _ _ => True) s := by
  refine outcome_bind_wp fun t ⟨hinv, _⟩ => ⟨attachGuar_quiet rfl t, ?_, ?_⟩
  swap
  · rintro _ ⟨msg, rfl⟩
    trivial
  rw [Task.handle_of_quiet rfl]
  simp only [AttachWorld.handle, Store.get]
  cases hx : t.requests.lookup name with
  | none => trivial
  | some ar =>
    have har : t.requests.lookup ar.name = some ar := by rwa [(hinv.named name ar hx).1]
    have hs : Since c volume nodes t ar False t := ⟨hinv, .of_eq rfl, False.elim⟩
    simp only
    split_ifs with hterm hfin
    · exact release_wp hinv har r hs
    · exact updateRequest_wp hinv har hs _
    · exact ensure_wp hinv har r (by simpa using hfin) (by simpa using hterm) hs

end Operator

end SimpleZfsCsi.Attach
