import SimpleZfsCsi.Attach.Clients
import Mathlib.Data.List.Dedup

/-!
# One node only, whichever reads fail

`reconcileVolume` of a volume that one node may use exports it to the node of the oldest
request, or fails. The reads of the API server may each fail: `faults` tells which of the
calls get an error instead of an answer. The list by which the operator finds out that one
node may use the volume is the one read whose failure is taken for an answer.
-/

namespace SimpleZfsCsi.Attach

open Library Api Csi Program

/-- The reads of the API server. -/
def AttachCall.isRead : AttachCall → Bool
  | .getDataset _ | .getPool _ | .getNode _ | .listRequests | .getRequest _ | .getShare _
  | .getSecret _ _ => true
  | _ => false

/-- The error of the `i`-th call, if that is a read that fails. -/
abbrev Faults := Nat → Option String

/-- Answer a call; the calls are counted. -/
def answer (faults : Faults) (e : AttachCall) (s : AttachWorld × Nat) : e.Ret × AttachWorld × Nat :=
  match if e.isRead then faults s.2 else none with
  | some msg => (.error (.other msg), s.1, s.2 + 1)
  | none => ((AttachWorld.handle e s.1).1, (AttachWorld.handle e s.1).2, s.2 + 1)

/-- The spec of the share that a call writes. -/
def AttachCall.writesShare : AttachCall → Option ShareSpec
  | .createShare _ spec => some spec
  | .updateShare o => some o.spec
  | _ => none

/-- The nodes of the active requests of a volume. -/
def requestingNodes (s : AttachWorld) (volume : String) : List String :=
  ((Operator.active s.requests.values volume).map (·.spec.nodeName)).dedup.insertionSort (· ≤ ·)

/-- The node of the oldest active request of a volume. -/
def oldestNode (s : AttachWorld) (volume : String) : Option String :=
  ((Operator.active s.requests.values volume).foldl Operator.older none).map (·.spec.nodeName)

/-- The address by which an NFS export names a node. -/
def internalIP (s : AttachWorld) (node : String) : Option String :=
  (s.nodes.lookup node).bind fun addresses =>
    (addresses.find? fun a => a.isInternalIP && a.address ≠ "").map (·.address)

/-- The allow-list of a share names `node` and nothing else. -/
def NamesOnly (r : Operator) (s : AttachWorld) (volume node : String) (spec : ShareSpec) : Prop :=
  match spec.protocol with
  | .nfs => ∃ ip, internalIP s node = some ip ∧ spec.nfs = some { clients := [{ client := ip }] }
  | .nvmeof =>
    ∃ n, spec.nvmeof = some n ∧ n.allowedHosts = [(hostIdentity r.hostUUID node volume).1]

/-- `reconcileVolume` in the state `s`, with the given reads failing: what it returns, and the
calls it makes. -/
def outcomeOf (r : Operator) (faults : Faults) (volume : String) (s : AttachWorld) :
    Except Err Aggregated :=
  ((r.reconcileVolume volume).run.exec (answer faults) (s, 0)).1

def callsOf (r : Operator) (faults : Faults) (volume : String) (s : AttachWorld) :
    List AttachCall :=
  ((r.reconcileVolume volume).run.trace (answer faults) (s, 0)).map Prod.fst

/-- The volume is exported to the node of its oldest request, locally or by a share whose
allow-list names that node only; and no other allow-list is written. -/
structure ExportsOne (r : Operator) (faults : Faults) (volume : String)
    (s : AttachWorld) : Prop where
  result : ∀ agg, outcomeOf r faults volume s = .ok agg →
    ∃ node, oldestNode s volume = some node ∧ agg.exported = [node] ∧
      (agg.localOnly = true ∨ ∃ share, agg.share = some share ∧
        NamesOnly r s volume node share.spec)
  writes : ∀ e ∈ callsOf r faults volume s, ∀ spec, e.writesShare = some spec →
    ∃ node, oldestNode s volume = some node ∧ NamesOnly r s volume node spec

/-- The operator is misled: the volume is a filesystem that several nodes ask for, and of all
reads only the list in `isSingleNodeVolume`, its fourth call, fails. -/
structure Misled (faults : Faults) (volume : String) (s : AttachWorld) : Prop where
  several : 2 ≤ (requestingNodes s volume).length
  filesystem : ∃ ds, s.datasets.lookup volume = some ds ∧ ds.spec.type = .filesystem ∧
    (s.pools.lookup (resourceName ds.spec.poolGUID)).isSome
  addresses : ∀ node ∈ requestingNodes s volume, (internalIP s node).isSome
  fails : (faults 3).isSome
  others : ∀ i, i ≠ 3 → i < 5 + (requestingNodes s volume).length → faults i = none

/-! ## What the reads answer -/

section Reads

variable {r : Operator} {faults : Faults} {volume : String} {s s₀ : AttachWorld} {i : Nat}
  {α : Type}

/-- Every write of a share names the node of the oldest request in `s₀`. -/
def OnlyOldest (r : Operator) (volume : String) (s₀ : AttachWorld) (e : AttachCall)
    (_ _ : AttachWorld × Nat) : Prop :=
  ∀ spec, e.writesShare = some spec →
    ∃ node, oldestNode s₀ volume = some node ∧ NamesOnly r s₀ volume node spec

/-- The weakest precondition with the given reads failing. -/
abbrev faultyWp (r : Operator) (faults : Faults) (volume : String) (s₀ : AttachWorld)
    (p : AttachProc Err α) (Q : Except Err α → AttachWorld × Nat → Prop)
    (s : AttachWorld × Nat) : Prop :=
  p.run.wpAlone (answer faults) (fun _ _ => False) (OnlyOldest r volume s₀) Q s

theorem OnlyOldest.of_quiet {e : AttachCall} (he : e.writesShare = none) (t u : AttachWorld × Nat) :
    OnlyOldest r volume s₀ e t u := by
  intro spec hspec
  rw [he] at hspec
  cases hspec

theorem handle_read {e : AttachCall} (he : e.isRead = true) (s : AttachWorld) :
    (AttachWorld.handle e s).2 = s := by
  cases e with
  | getNode name =>
    simp only [AttachWorld.handle]
    split <;> rfl
  | getSecret ns name =>
    simp only [AttachWorld.handle]
    split <;> rfl
  | getDataset _ | getPool _ | listRequests | getRequest _ | getShare _ => rfl
  | _ => simp [AttachCall.isRead] at he

/-- What a read may be answered with. -/
def Answers (faults : Faults) (e : AttachCall) (s : AttachWorld) (i : Nat) (a : e.Ret) : Prop :=
  (faults i = none ∧ a = (AttachWorld.handle e s).1) ∨
    ∃ msg, faults i = some msg ∧ a = .error (.other msg)

theorem answer_read {e : AttachCall} (he : e.isRead = true) :
    Answers faults e s i (answer faults e (s, i)).1 ∧ (answer faults e (s, i)).2 = (s, i + 1) := by
  unfold answer Answers
  rw [if_pos he]
  cases hf : faults i with
  | none => simp [handle_read he]
  | some msg => simp

theorem outcome_read_wp {β : Type} {e : AttachCall} {f : Except Err e.Val → AttachProc Err β}
    {Q : Except Err β → AttachWorld × Nat → Prop} (he : e.isRead = true)
    (hf : ∀ a, Answers faults e s i a → faultyWp r faults volume s₀ (f a) Q (s, i + 1)) :
    faultyWp r faults volume s₀ ((ask e).outcome >>= f) Q (s, i) := by
  obtain ⟨ha, hs⟩ : Answers faults e s i (answer faults e (s, i)).1 ∧ _ = _ := answer_read he
  have hquiet : e.writesShare = none := by
    cases e <;> first | rfl | simp [AttachCall.isRead] at he
  refine wpAlone_call.mpr ⟨.of_quiet hquiet _ _, ?_, fun _ h => h.elim⟩
  have hwp := hf _ ha
  rw [hs]
  cases hans : (answer faults e (s, i)).1 <;> rw [hans] at hwp <;> exact hwp

theorem read_wp {β : Type} {e : AttachCall} {f : e.Val → AttachProc Err β}
    {Q : Except Err β → AttachWorld × Nat → Prop} (he : e.isRead = true)
    (herror : ∀ err t, Q (.error err) t)
    (hf : ∀ a, faults i = none → (AttachWorld.handle e s).1 = .ok a →
      faultyWp r faults volume s₀ (f a) Q (s, i + 1)) :
    faultyWp r faults volume s₀ (ask e >>= f) Q (s, i) := by
  obtain ⟨ha, hs⟩ : Answers faults e s i (answer faults e (s, i)).1 ∧ _ = _ := answer_read he
  have hquiet : e.writesShare = none := by
    cases e <;> first | rfl | simp [AttachCall.isRead] at he
  refine wpAlone_call.mpr ⟨.of_quiet hquiet _ _, ?_, fun _ h => h.elim⟩
  rw [hs]
  obtain ⟨hnone, ha⟩ | ⟨msg, _, ha⟩ := ha
  · rw [ha]
    cases hans : (AttachWorld.handle e s).1 with
    | error err => exact herror err _
    | ok a => exact hf a hnone hans
  · rw [ha]
    exact herror _ _

/-- Steps that write no share. -/
theorem quiet_wp {β : Type} {p : AttachProc Err α} {f : α → AttachProc Err β}
    {Q : Except Err β → AttachWorld × Nat → Prop}
    (hp : p.run.Calls fun e => e.writesShare = none) (herror : ∀ err t, Q (.error err) t)
    (hf : ∀ a t, faultyWp r faults volume s₀ (f a) Q t) (t : AttachWorld × Nat) :
    faultyWp r faults volume s₀ (p >>= f) Q t := by
  have hquiet : faultyWp r faults volume s₀ p (fun _ _ => True) t :=
    hp.wp (fun _ _ _ _ _ _ => trivial)
      (fun e u he _ => ⟨OnlyOldest.of_quiet he _ _, trivial⟩) trivial
  refine Proc.wp_bind (wp_mono ?_ hquiet)
  rintro (err | a) u _
  · exact herror err u
  · exact hf a u

end Reads

/-! ## The parts of the aggregation -/

section Parts

variable {r : Operator} {faults : Faults} {volume node : String} {s s₀ : AttachWorld} {i : Nat}

theorem get_put_spec {st : Store ShareSpec ShareStatus} {name : String} {o share : Share}
    {spec : ShareSpec} (h : (st.put name o).get name = .ok share) (hspec : o.spec = spec) :
    share.spec = spec := by
  unfold Store.get at h
  split at h
  · cases h
  case h_2 o' ho =>
    obtain ⟨hne, _⟩ | ⟨_, ho'⟩ := Store.lookup_put ho
    · exact absurd rfl hne
    · rw [← Except.ok.inj h, ho', ← hspec]

theorem createShare_spec {spec : ShareSpec} {share : Share}
    (h : (AttachWorld.handle (.createShare volume spec) s).1 = .ok share) : share.spec = spec := by
  cases hsome : (s.shares.lookup volume).isSome with
  | true => simp [AttachWorld.handle, withObject, Store.create, hsome] at h
  | false =>
    simp only [AttachWorld.handle, withObject, Store.create, hsome, Bool.false_eq_true,
      if_false] at h
    exact get_put_spec h rfl

theorem updateShare_spec {o share : Share}
    (h : (AttachWorld.handle (.updateShare o) s).1 = .ok share) : share.spec = o.spec := by
  simp only [AttachWorld.handle, withObject] at h
  obtain ⟨e, he⟩ | ⟨cur, _, _, hupdate⟩ := s.shares.update_cases o
  · rw [he] at h
    cases h
  · simp only [hupdate] at h
    exact get_put_spec h rfl

/-- A write of a share that names the node of the oldest request. -/
theorem write_wp {e : AttachCall} {spec : ShareSpec}
    {Q : Except Err e.Val → AttachWorld × Nat → Prop}
    (hread : e.isRead = false) (he : e.writesShare = some spec)
    (hnode : oldestNode s₀ volume = some node) (hspec : NamesOnly r s₀ volume node spec)
    (hQ : ∀ t, Q (AttachWorld.handle e s).1 t) : faultyWp r faults volume s₀ (ask e) Q (s, i) := by
  refine wpAlone_call.mpr ⟨?_, ?_, fun _ h => h.elim⟩
  · intro spec' hspec'
    obtain rfl : spec = spec' := Option.some_inj.mp (he.symm.trans hspec')
    exact ⟨node, hnode, hspec⟩
  · simp only [answer, hread, Bool.false_eq_true, if_false]
    have := hQ ((AttachWorld.handle e s).2, i + 1)
    cases hans : (AttachWorld.handle e s).1 <;> rw [hans] at this <;> exact this

/-- The share that is left has the spec that was asked for. -/
theorem createOrUpdateShare_wp {spec : ShareSpec} (hnode : oldestNode s₀ volume = some node)
    (hspec : NamesOnly r s₀ volume node spec) (t : AttachWorld × Nat) :
    faultyWp r faults volume s₀ (Operator.createOrUpdateShare volume spec)
      (fun a _ => ∀ share, a = .ok share → share.spec = spec) t := by
  obtain ⟨s, i⟩ := t
  refine outcome_read_wp rfl fun a _ => ?_
  cases a with
  | error err =>
    simp only
    split_ifs
    · exact write_wp rfl rfl hnode hspec fun t share hshare => createShare_spec hshare
    · intro share hshare
      cases hshare
  | ok cur =>
    simp only
    split_ifs with hcur
    · intro share hshare
      obtain rfl : cur = share := Except.ok.inj hshare
      exact hcur
    · exact write_wp rfl rfl hnode hspec fun t share hshare => updateShare_spec hshare

/-- The clients of a list of nodes: every node was read, and has an address. -/
structure Resolved (faults : Faults) (s : AttachWorld) (i : Nat) (nodes : List String)
    (clients : List NFSClient) (t : AttachWorld × Nat) : Prop where
  state : t = (s, i + nodes.length)
  answered : ∀ j < nodes.length, faults (i + j) = none
  addresses : nodes.map (internalIP s) = clients.map fun c => some c.client
  plain : ∀ c ∈ clients, c.options = []

theorem nfsClientsOf_wp (nodes : List String) (i : Nat) :
    faultyWp r faults volume s₀ (Operator.nfsClientsOf nodes)
      (fun a t => ∀ clients, a = .ok clients → Resolved faults s i nodes clients t) (s, i) := by
  induction nodes generalizing i with
  | nil =>
    intro clients hclients
    obtain rfl : [] = clients := Except.ok.inj hclients
    exact ⟨rfl, by simp, rfl, by simp⟩
  | cons node nodes ih =>
    have hip : faultyWp r faults volume s₀ (Operator.nodeInternalIP node)
        (fun a t => ∀ ip, a = .ok ip → faults i = none ∧ internalIP s node = some ip ∧
          t = (s, i + 1))
        (s, i) := by
      refine outcome_read_wp rfl fun a ha => ?_
      obtain ⟨hnone, rfl⟩ | ⟨msg, _, rfl⟩ := ha
      · simp only [AttachWorld.handle]
        cases hnode : s.nodes.lookup node with
        | none =>
          intro ip hip
          cases hip
        | some addresses =>
          simp only
          cases ha : addresses.find? fun a => a.isInternalIP && a.address ≠ "" with
          | none =>
            intro ip hip
            cases hip
          | some a =>
            intro ip hip
            obtain rfl : a.address = ip := Except.ok.inj hip
            exact ⟨hnone,
              by simp only [internalIP, hnode, Option.bind_some, ha, Option.map_some], rfl⟩
      · intro ip hip
        cases hip
    refine Proc.wp_bind (wp_mono ?_ hip)
    rintro (err | ip) t ht
    · intro clients hclients
      cases hclients
    obtain ⟨hnone, haddress, rfl⟩ := ht ip rfl
    refine Proc.wp_bind (wp_mono ?_ (ih (i + 1)))
    rintro (err | clients) t ht
    · intro clients hclients
      cases hclients
    intro clients' hclients
    obtain rfl : { client := ip } :: clients = clients' := Except.ok.inj hclients
    obtain ⟨rfl, hanswered, haddresses, hplain⟩ := ht clients rfl
    refine ⟨by rw [List.length_cons, Nat.add_right_comm,
      Nat.add_assoc], fun j hj => ?_, by simp [haddress, haddresses],
      by simpa using hplain⟩
    cases j with
    | zero => exact hnone
    | succ j =>
      have := hanswered j (by simpa using hj)
      rwa [Nat.add_right_comm] at this

theorem nfsClientsForNodes_wp (nodes : List String) (i : Nat) :
    faultyWp r faults volume s₀ (Operator.nfsClientsForNodes nodes)
      (fun a t => ∀ clients, a = .ok clients → Resolved faults s i nodes clients t) (s, i) := by
  refine Proc.wp_bind (wp_mono ?_ (nfsClientsOf_wp nodes i))
  rintro (err | clients) t ht
  · intro clients hclients
    cases hclients
  · simp only
    split_ifs
    · intro clients hclients
      cases hclients
    · intro clients' hclients
      obtain rfl : clients = clients' := Except.ok.inj hclients
      exact ht clients rfl

theorem oldestAttachNode_faulty :
    faultyWp r faults volume s₀ (Operator.oldestAttachNode volume)
      (fun a t => ∀ node, a = .ok node →
        oldestNode s volume = some node ∧ t = (s, i + 1)) (s, i) := by
  refine read_wp rfl (fun _ _ node hnode => by cases hnode) fun items _ hitems => ?_
  obtain rfl : s.requests.values = items := Except.ok.inj hitems
  cases ho : (Operator.active s.requests.values volume).foldl Operator.older none with
  | none =>
    intro node hnode
    cases hnode
  | some oldest =>
    intro node hnode
    obtain rfl : oldest.spec.nodeName = node := Except.ok.inj hnode
    exact ⟨by simp [oldestNode, ho], rfl⟩

theorem isSingleNodeVolume_faulty (hactive : Operator.active s.requests.values volume ≠ [])
    (hsingle : ∀ it ∈ Operator.active s.requests.values volume, it.spec.singleNode = true) :
    faultyWp r faults volume s₀ (Operator.isSingleNodeVolume volume)
      (fun a t => a = .ok (faults i).isNone ∧ t = (s, i + 1)) (s, i) := by
  refine outcome_read_wp rfl fun a ha => ?_
  obtain ⟨hnone, rfl⟩ | ⟨msg, hsome, rfl⟩ := ha
  · simp only [AttachWorld.handle]
    cases hitems : Operator.active s.requests.values volume with
    | nil => exact absurd hitems hactive
    | cons it rest =>
      have hit := hsingle it (by simp [hitems])
      exact ⟨by rw [hnone, hit]; rfl, rfl⟩
  · exact ⟨by rw [hsome]; rfl, rfl⟩

theorem getPool_faulty {guid : String} :
    faultyWp r faults volume s₀ (Operator.getPool guid)
      (fun a t => ∀ pool, a = .ok pool → faults i = none ∧
        s.pools.lookup (resourceName guid) = some pool ∧ t = (s, i + 1)) (s, i) := by
  refine outcome_read_wp rfl fun a ha => ?_
  obtain ⟨hnone, rfl⟩ | ⟨msg, _, rfl⟩ := ha
  · simp only [AttachWorld.handle, Store.get]
    cases hpool : s.pools.lookup (resourceName guid) with
    | none =>
      intro pool h
      cases h
    | some pool' =>
      intro pool h
      obtain rfl : pool' = pool := Except.ok.inj h
      exact ⟨hnone, rfl, rfl⟩
  · intro pool h
    cases h

end Parts

/-! ## The aggregation -/

section Aggregation

variable {r : Operator} {faults : Faults} {volume : String} {s : AttachWorld}

/-- What the result of an aggregation has to be. -/
abbrev OneExported (r : Operator) (volume : String) (s : AttachWorld) (a : Except Err Aggregated)
    (_ : AttachWorld × Nat) : Prop :=
  ∀ agg, a = .ok agg → ∃ node, oldestNode s volume = some node ∧ agg.exported = [node] ∧
    (agg.localOnly = true ∨ ∃ share, agg.share = some share ∧ NamesOnly r s volume node share.spec)

theorem OneExported.error (err : Err) (t : AttachWorld × Nat) :
    OneExported r volume s (.error err) t := by
  intro agg hagg
  cases hagg

theorem export_share_wp {node : String} {spec : ShareSpec} (hnode : oldestNode s volume = some node)
    (hspec : NamesOnly r s volume node spec) (t : AttachWorld × Nat) :
    faultyWp r faults volume s (do
      let share ← Operator.createOrUpdateShare volume spec
      return { share := some share, exported := [node] }) (OneExported r volume s) t := by
  refine Proc.wp_bind (wp_mono ?_ (createOrUpdateShare_wp hnode hspec t))
  rintro (err | share) u hu
  · exact OneExported.error err u
  · intro agg hagg
    obtain rfl := Except.ok.inj hagg
    exact ⟨node, hnode, rfl, .inr ⟨share, rfl, (hu share rfl).symm ▸ hspec⟩⟩

theorem reconcileNVMeoF_faulty (ds : ZfsDataset) (i : Nat) :
    faultyWp r faults volume s (r.reconcileNVMeoF volume ds) (OneExported r volume s) (s, i) := by
  refine Proc.wp_bind (wp_mono ?_ oldestAttachNode_faulty)
  rintro (err | node) t ht
  · exact OneExported.error err t
  obtain ⟨hnode, rfl⟩ := ht node rfl
  refine Proc.wp_bind (wp_mono ?_ getPool_faulty)
  rintro (err | pool) t ht
  · exact OneExported.error err t
  obtain ⟨_, _, rfl⟩ := ht pool rfl
  simp only
  split_ifs
  · refine quiet_wp (deleteShareIfPresent_calls rfl rfl) OneExported.error (fun _ t => ?_) _
    refine quiet_wp (deleteDHChapSecret_calls (fun _ _ => rfl) _ _) OneExported.error
      (fun _ t => ?_) _
    intro agg hagg
    obtain rfl := Except.ok.inj hagg
    exact ⟨node, hnode, rfl, .inl rfl⟩
  · have hhosts :
        faultyWp r faults volume s (r.nvmeExportSpec volume node) (fun a _ => ∀ n, a = .ok n →
        n.allowedHosts = [(hostIdentity r.hostUUID node volume).1]) (s, i + 1 + 1) := by
      unfold Operator.nvmeExportSpec
      simp only
      split_ifs
      · have hsecret := ensureDHChapSecret_calls (P := fun e => e.writesShare = none)
          (fun _ _ => rfl) rfl (fun _ _ _ => rfl) r volume
        refine quiet_wp hsecret (fun _ _ n hn => by cases hn) (fun name t => ?_) _
        intro n hn
        rw [← Except.ok.inj hn]
      · intro n hn
        rw [← Except.ok.inj hn]
    refine Proc.wp_bind (wp_mono ?_ hhosts)
    rintro (err | n) t ht
    · exact OneExported.error err t
    · refine export_share_wp hnode ?_ t
      exact ⟨n, rfl, ht n rfl⟩

theorem mem_requestingNodes_of_oldest {node : String} (hnode : oldestNode s volume = some node) :
    node ∈ requestingNodes s volume := by
  obtain ⟨oldest, ho, rfl⟩ := Option.map_eq_some_iff.mp hnode
  obtain ⟨hmem, _⟩ := foldl_older_none ho
  simp only [requestingNodes, List.mem_insertionSort, List.mem_dedup]
  exact List.mem_map_of_mem hmem

theorem oldestNode_isSome (hactive : Operator.active s.requests.values volume ≠ []) :
    ∃ node, oldestNode s volume = some node := by
  cases hitems : Operator.active s.requests.values volume with
  | nil => exact absurd hitems hactive
  | cons it rest =>
    have hsome : ∀ (l : List AttachRequest) (x : AttachRequest), ∃ o, l.foldl Operator.older
        (some x) = some o := by
      intro l
      induction l with
      | nil => exact fun x => ⟨x, rfl⟩
      | cons y l ih =>
        intro x
        obtain ⟨z, hz⟩ : ∃ z, Operator.older (some x) y = some z := by
          simp only [Operator.older]
          split_ifs <;> exact ⟨_, rfl⟩
        rw [List.foldl_cons, hz]
        exact ih z
    obtain ⟨o, ho⟩ := hsome rest it
    exact ⟨o.spec.nodeName, by simp [oldestNode, hitems, Operator.older, ho]⟩

/-- One node has one client. -/
theorem Resolved.namesOnly {node : String} {i : Nat} {clients : List NFSClient}
    {t : AttachWorld × Nat}
    (h : Resolved faults s i [node] clients t) (guid dataset : String) :
    NamesOnly r s volume node
      { poolGUID := guid, dataset, protocol := .nfs, nfs := some { clients } } := by
  obtain ⟨_, _, haddresses, hplain⟩ := h
  obtain ⟨c, rest, rfl, hip, hrest⟩ := List.map_eq_cons_iff.mp haddresses.symm
  obtain rfl := List.map_eq_nil_iff.mp hrest
  have hoptions := hplain c (by simp)
  obtain ⟨client, options⟩ := c
  simp only at hip hoptions
  subst hoptions
  exact ⟨client, hip.symm, rfl⟩

/-- The share of the nodes in `nodes`, if that is the node of the oldest request. -/
theorem export_node_wp {node : String} {ds : ZfsDataset} {i : Nat}
    (hnode : oldestNode s volume = some node) :
    faultyWp r faults volume s (do
      let clients ← Operator.nfsClientsForNodes [node]
      let share ← Operator.createOrUpdateShare volume
        { poolGUID := ds.spec.poolGUID, dataset := ds.spec.dataset, protocol := .nfs
          nfs := some { clients } }
      return { share := some share, exported := [node] }) (OneExported r volume s) (s, i) := by
  refine Proc.wp_bind (wp_mono ?_ (nfsClientsForNodes_wp [node] i))
  rintro (err | clients) t ht
  · exact OneExported.error err t
  · exact export_share_wp hnode ((ht clients rfl).namesOnly _ _) t

section NFS

variable {ds : ZfsDataset} (hds : s.datasets.lookup volume = some ds)
  (hfs : ds.spec.type = .filesystem) (hactive : Operator.active s.requests.values volume ≠ [])
  (hsingle : ∀ it ∈ Operator.active s.requests.values volume, it.spec.singleNode = true)
  (hanswered : faults 0 = none ∧ faults 1 = none)

include hds hfs hactive hsingle hanswered in
theorem reconcileNFS_faulty (h : ¬ Misled faults volume s) :
    faultyWp r faults volume s (Operator.reconcileNFS volume ds (requestingNodes s volume))
      (OneExported r volume s) (s, 2) := by
  refine Proc.wp_bind (wp_mono ?_ getPool_faulty)
  rintro (err | pool) t ht
  · exact OneExported.error err t
  obtain ⟨hpool, hlookup, rfl⟩ := ht pool rfl
  refine Proc.wp_bind (wp_mono ?_ (isSingleNodeVolume_faulty hactive hsingle))
  rintro a t ⟨rfl, rfl⟩
  cases hlist : faults 3 with
  | none =>
    simp only [Option.isNone_none, if_true]
    refine Proc.wp_bind (wp_mono ?_ oldestAttachNode_faulty)
    rintro (err | node) t ht
    · exact OneExported.error err t
    obtain ⟨hnode, rfl⟩ := ht node rfl
    simp only
    split_ifs
    · refine quiet_wp (deleteShareIfPresent_calls rfl rfl) OneExported.error (fun _ t => ?_) _
      intro agg hagg
      obtain rfl := Except.ok.inj hagg
      exact ⟨node, hnode, rfl, .inl rfl⟩
    · exact export_node_wp hnode
  | some msg =>
    simp only [Option.isNone_some, Bool.false_eq_true, if_false]
    obtain ⟨node, hnode⟩ := oldestNode_isSome hactive
    by_cases hseveral : 2 ≤ (requestingNodes s volume).length
    · -- all nodes are read, and then the read of the share must have failed
      refine Proc.wp_bind (wp_mono ?_ (nfsClientsForNodes_wp (requestingNodes s volume) 4))
      rintro (err | clients) t ht
      · exact OneExported.error err t
      obtain ⟨rfl, hnodes, haddresses, _⟩ := ht clients rfl
      refine Proc.wp_bind (outcome_read_wp rfl fun a ha => ?_)
      obtain ⟨hshare, _⟩ | ⟨msg, _, rfl⟩ := ha
      · refine absurd ⟨hseveral, ⟨ds, hds, hfs, by simp [hlookup]⟩, ?_, by simp [hlist], ?_⟩ h
        · intro node hnode
          have hmem := List.mem_map_of_mem (f := internalIP s) hnode
          rw [haddresses] at hmem
          obtain ⟨c, _, hc⟩ := List.mem_map.mp hmem
          simp [← hc]
        · intro i hi hlt
          obtain rfl | rfl | rfl | h4 : i = 0 ∨ i = 1 ∨ i = 2 ∨ 4 ≤ i := by omega
          · exact hanswered.1
          · exact hanswered.2
          · exact hpool
          · rcases Nat.lt_or_ge i (4 + (requestingNodes s volume).length) with hlt' | hge
            · have := hnodes (i - 4) (by omega)
              rwa [Nat.add_sub_cancel' h4] at this
            · obtain rfl : i = 4 + (requestingNodes s volume).length := by omega
              exact hshare
      · exact OneExported.error _ (s, 0)
    · -- a single node is the one of the oldest request
      have hmem := mem_requestingNodes_of_oldest hnode
      obtain ⟨n, hn⟩ : ∃ n, requestingNodes s volume = [n] := by
        refine List.length_eq_one_iff.mp ?_
        have := List.length_pos_of_mem hmem
        omega
      obtain rfl : node = n := by simpa [hn] using hmem
      rw [hn]
      exact export_node_wp hnode

end NFS

theorem activeNodes_faulty (hactive : Operator.active s.requests.values volume ≠ []) {i : Nat} :
    faultyWp r faults volume s (Operator.activeNodes volume)
      (fun a t => ∀ nodes, a = .ok nodes → faults i = none ∧ nodes = requestingNodes s volume ∧
        nodes.isEmpty = false ∧ t = (s, i + 1)) (s, i) := by
  refine read_wp rfl (fun _ _ nodes h => by cases h) fun items hnone hitems => ?_
  obtain rfl : s.requests.values = items := Except.ok.inj hitems
  intro nodes hnodes
  obtain rfl : requestingNodes s volume = nodes := Except.ok.inj hnodes
  refine ⟨hnone, rfl, ?_, rfl⟩
  obtain ⟨node, hnode⟩ := oldestNode_isSome hactive
  have hne := List.ne_nil_of_mem (mem_requestingNodes_of_oldest hnode)
  simpa using hne

theorem reconcileVolume_faulty (hactive : Operator.active s.requests.values volume ≠ [])
    (hsingle : ∀ it ∈ Operator.active s.requests.values volume, it.spec.singleNode = true)
    (h : ¬ Misled faults volume s) :
    faultyWp r faults volume s (r.reconcileVolume volume) (OneExported r volume s) (s, 0) := by
  refine Proc.wp_bind (wp_mono ?_ (activeNodes_faulty hactive))
  rintro (err | nodes) t ht
  · exact OneExported.error err t
  obtain ⟨hlist, rfl, hne, rfl⟩ := ht nodes rfl
  simp only [hne, Bool.false_eq_true, if_false]
  refine Proc.wp_bind ?_
  simp only [Proc.run_pure, wpAlone_pure, hne, Bool.false_eq_true, if_false]
  refine outcome_read_wp rfl fun a ha => ?_
  obtain ⟨hnone, rfl⟩ | ⟨msg, _, rfl⟩ := ha
  · simp only [AttachWorld.handle, Store.get]
    cases hds : s.datasets.lookup volume with
    | none => exact OneExported.error _ (s, 0)
    | some ds =>
      simp only
      cases htype : ds.spec.type with
      | filesystem => exact reconcileNFS_faulty hds htype hactive hsingle ⟨hlist, hnone⟩ h
      | volume => exact reconcileNVMeoF_faulty ds 2
  · exact OneExported.error _ (s, 0)

end Aggregation

/-! ## The misled operator -/

section MisledOperator

variable {r : Operator} {faults : Faults} {volume : String} {s : AttachWorld} {i : Nat}

/-- A call that is answered. -/
theorem exec_ask {e : AttachCall} (hnone : faults i = none) :
    (ask e).run.exec (answer faults) (s, i) =
      ((AttachWorld.handle e s).1, (AttachWorld.handle e s).2, i + 1) := by
  cases hans : (AttachWorld.handle e s).1 <;>
    simp [ask, answer, hnone, hans, Except.mapError]

theorem exec_outcome {e : AttachCall} (hnone : faults i = none) :
    ((ask e).outcome : AttachProc Err (Except Err e.Val)).run.exec (answer faults) (s, i) =
      (.ok (AttachWorld.handle e s).1, (AttachWorld.handle e s).2, i + 1) := by
  rw [Proc.run_outcome, Program.exec_bind, exec_ask hnone]
  rfl

theorem exec_nfsClientsOf (nodes : List String)
    (haddresses : ∀ node ∈ nodes, (internalIP s node).isSome)
    (i : Nat) (hnone : ∀ j < nodes.length, faults (i + j) = none) :
    ∃ clients, (Operator.nfsClientsOf nodes).run.exec (answer faults) (s, i) =
      (.ok clients, s, i + nodes.length) ∧ clients.length = nodes.length := by
  induction nodes generalizing i with
  | nil => exact ⟨[], rfl, rfl⟩
  | cons node nodes ih =>
    obtain ⟨ip, hip⟩ := Option.isSome_iff_exists.mp (haddresses node (by simp))
    obtain ⟨clients, hclients, hlength⟩ := ih (fun n hn => haddresses n (by simp [hn])) (i + 1)
      fun j hj => by
        rw [Nat.add_right_comm]
        exact hnone (j + 1) (by simpa using hj)
    have hread : (Operator.nodeInternalIP node).run.exec (answer faults) (s, i) =
        (.ok ip, s, i + 1) := by
      simp only [internalIP, Option.bind_eq_some_iff, Option.map_eq_some_iff] at hip
      obtain ⟨addresses, hnode, a, ha, rfl⟩ := hip
      unfold Operator.nodeInternalIP
      rw [Proc.exec_bind (exec_outcome (by simpa using hnone 0 (by simp)))]
      simp only [AttachWorld.handle, hnode, ha]
      rfl
    refine ⟨{ client := ip } :: clients, ?_, by simp [hlength]⟩
    unfold Operator.nfsClientsOf
    rw [Proc.exec_bind hread, Proc.exec_bind hclients, List.length_cons, Nat.add_right_comm,
      Nat.add_assoc]
    rfl

/-- The spec is written, or found in place. -/
theorem createOrUpdateShare_leaves {spec : ShareSpec} (hnone : faults i = none) :
    (∃ share t, (Operator.createOrUpdateShare volume spec).run.exec (answer faults) (s, i) =
      (.ok share, t) ∧ share.spec = spec) ∨
    ∃ c ∈ (Operator.createOrUpdateShare volume spec).run.trace (answer faults) (s, i),
      c.1.writesShare = some spec := by
  unfold Operator.createOrUpdateShare
  have hget := exec_outcome (e := .getShare volume) (s := s) hnone
  cases hshare : s.shares.lookup volume with
  | none =>
    refine .inr ⟨(.createShare volume spec, s, i + 1), Proc.mem_trace_bind hget ?_, rfl⟩
    simp [AttachWorld.handle, Store.get, hshare, Err.isNotFound, ask, trace]
  | some cur =>
    by_cases hcur : cur.spec = spec
    · refine .inl ⟨cur, (s, i + 1), ?_, hcur⟩
      rw [Proc.exec_bind hget]
      simp [AttachWorld.handle, Store.get, hshare, hcur]
    · refine .inr ⟨(.updateShare { cur with spec }, s, i + 1), Proc.mem_trace_bind hget ?_, rfl⟩
      simp [AttachWorld.handle, Store.get, hshare, hcur, ask, trace]

/-- Two clients are more than one node. -/
theorem not_namesOnly {node guid dataset : String} {clients : List NFSClient}
    (h : 2 ≤ clients.length) :
    ¬ NamesOnly r s volume node
      { poolGUID := guid, dataset, protocol := .nfs, nfs := some { clients } } := by
  rintro ⟨ip, _, hclients⟩
  obtain rfl : clients = [{ client := ip }] := by simpa using hclients
  simp at h

theorem Misled.not_exportsOne (h : Misled faults volume s) : ¬ ExportsOne r faults volume s := by
  obtain ⟨hseveral, ⟨ds, hds, htype, hpool⟩, haddresses, hfails, hothers⟩ := h
  obtain ⟨pool, hpool⟩ := Option.isSome_iff_exists.mp hpool
  obtain ⟨msg, hmsg⟩ := Option.isSome_iff_exists.mp hfails
  have hrest : ∀ j < (requestingNodes s volume).length, faults (4 + j) = none :=
    fun j hj => hothers _ (by omega) (by omega)
  obtain ⟨clients, hclients, hlength⟩ := exec_nfsClientsOf _ haddresses 4 hrest
  have hempty : (requestingNodes s volume).isEmpty = false := by
    cases hnodes : requestingNodes s volume with
    | nil => simp [hnodes] at hseveral
    | cons => rfl
  -- up to the share, what the operator does is determined
  have hlist : (Operator.activeNodes volume).run.exec (answer faults) (s, 0) =
      (.ok (requestingNodes s volume), s, 1) := by
    unfold Operator.activeNodes
    rw [Proc.exec_bind (exec_ask (hothers 0 (by omega) (by omega)))]
    rfl
  have hpure : ((if (requestingNodes s volume).isEmpty then Operator.activeNodes volume
      else pure (requestingNodes s volume) : AttachProc Err (List String))).run.exec
        (answer faults) (s, 1) =
      (.ok (requestingNodes s volume), s, 1) := by
    simp [hempty]
  have hget :
      ((ask (.getDataset volume)).outcome : AttachProc Err _).run.exec (answer faults) (s, 1) =
      (.ok (.ok ds), s, 2) := by
    rw [exec_outcome (hothers 1 (by omega) (by omega))]
    simp [AttachWorld.handle, Store.get, hds]
  have hgetPool : (Operator.getPool ds.spec.poolGUID).run.exec (answer faults) (s, 2) =
      (.ok pool, s, 3) := by
    unfold Operator.getPool
    rw [Proc.exec_bind (exec_outcome (hothers 2 (by omega) (by omega)))]
    simp [AttachWorld.handle, Store.get, hpool]
  have hsingle : (Operator.isSingleNodeVolume volume).run.exec (answer faults) (s, 3) =
      (.ok false, s, 4) := by
    simp [Operator.isSingleNodeVolume, ask, answer, AttachCall.isRead, hmsg, Except.mapError]
  have hresolve :
      (Operator.nfsClientsForNodes (requestingNodes s volume)).run.exec (answer faults) (s, 4) =
      (.ok clients, s, 4 + (requestingNodes s volume).length) := by
    unfold Operator.nfsClientsForNodes
    rw [Proc.exec_bind hclients]
    have : clients ≠ [] := List.ne_nil_of_length_pos (by omega)
    simp [this]
  let spec : ShareSpec :=
    { poolGUID := ds.spec.poolGUID, dataset := ds.spec.dataset, protocol := .nfs,
      nfs := some { clients } }
  have hshare : (∃ share t, (Operator.createOrUpdateShare volume spec).run.exec (answer faults)
        (s, 4 + (requestingNodes s volume).length) = (.ok share, t) ∧
          share.spec = spec) ∨ ∃ c ∈ _, _ :=
    createOrUpdateShare_leaves
      (hothers (4 + (requestingNodes s volume).length) (by omega) (by omega))
  intro hone
  rcases hshare with ⟨share, t, hexec, hspec⟩ | ⟨c, hc, hwrites⟩
  · have hresult : outcomeOf r faults volume s =
        .ok { share := some share, exported := requestingNodes s volume } := by
      unfold outcomeOf Operator.reconcileVolume
      rw [Proc.exec_bind hlist, Proc.exec_bind hpure]
      simp only [hempty, Bool.false_eq_true, if_false]
      rw [Proc.exec_bind hget]
      simp only [htype, Operator.protocolForDatasetType]
      unfold Operator.reconcileNFS
      rw [Proc.exec_bind hgetPool, Proc.exec_bind hsingle]
      simp only [Bool.false_eq_true, if_false]
      rw [Proc.exec_bind hresolve, Proc.exec_bind hexec]
      rfl
    obtain ⟨node, _, hnode, _⟩ := hone.result _ hresult
    have := congrArg List.length hnode
    simp only [List.length_singleton] at this
    omega
  · have hcalls : c.1 ∈ callsOf r faults volume s := by
      refine List.mem_map_of_mem ?_
      unfold Operator.reconcileVolume
      refine Proc.mem_trace_bind hlist (Proc.mem_trace_bind hpure ?_)
      simp only [hempty, Bool.false_eq_true, if_false]
      refine Proc.mem_trace_bind hget ?_
      simp only [htype, Operator.protocolForDatasetType]
      refine Proc.mem_trace_bind hgetPool (Proc.mem_trace_bind hsingle ?_)
      simp only [Bool.false_eq_true, if_false]
      refine Proc.mem_trace_bind hresolve ?_
      rw [Proc.run_bind, trace_bind]
      exact List.mem_append_left _ hc
    obtain ⟨node, _, hnames⟩ := hone.writes _ hcalls _ hwrites
    exact not_namesOnly (by omega) hnames

end MisledOperator

/-- A volume that one node may use is exported to the node of its oldest request, whichever
reads fail, exactly unless the operator is misled. -/
theorem exportsOne_iff (r : Operator) (faults : Faults) (volume : String) (s : AttachWorld)
    (hactive : Operator.active s.requests.values volume ≠ [])
    (hsingle : ∀ it ∈ Operator.active s.requests.values volume, it.spec.singleNode = true) :
    ExportsOne r faults volume s ↔ ¬ Misled faults volume s := by
  refine ⟨fun hone hmisled => hmisled.not_exportsOne hone, fun h => ?_⟩
  have hwp := reconcileVolume_faulty (r := r) hactive hsingle h
  refine ⟨wpAlone_exec hwp, fun e he spec hspec => ?_⟩
  obtain ⟨c, hc, rfl⟩ := List.mem_map.mp he
  have hrun : Runs (answer faults) (fun _ _ => False) (fun _ => Eq) (r.reconcileVolume volume).run
      (s, 0) _ _ _ :=
    Runs.exec (fun _ _ => rfl) _ (s, 0)
  exact (wp_runs hwp hrun).1 c hc spec hspec

def sampleRequest (name node : String) : String × AttachRequest :=
  (name, {
    metadata := { name, finalizers := [zfsShareAttachRequestFinalizer] }
    spec := { volumeName := "pvc-1", nodeName := node, singleNode := true }
    status := {} })

/-- A filesystem on a pool that `node-b` hosts; `node-a` and `node-c` ask for it. -/
def contested : AttachWorld where
  requests := Store.ofList [sampleRequest "pvc-1-a" "node-a", sampleRequest "pvc-1-c" "node-c"]
  shares := Store.empty
  datasets := Store.ofList [("pvc-1", {
    metadata := { name := "pvc-1" }
    spec := { poolGUID := "1", dataset := "k8s/pvc-1" }
    status := {} })]
  pools := Store.ofList [(resourceName "1", {
    metadata := { name := resourceName "1" }
    spec := ()
    status := { currentNode := "node-b" } })]
  nodes := FinMap.ofList [("node-a", [⟨true, "10.0.0.1"⟩]), ("node-c", [⟨true, "10.0.0.3"⟩])]
  secrets := FinMap.empty
  clock := 0
  nextKey := ""
  published := []

/-- With every read answered, the share names `node-a` only. -/
theorem exportsOne_contested : ExportsOne {} (fun _ => none) "pvc-1" contested :=
  (exportsOne_iff {} (fun _ => none) "pvc-1" contested (by decide) (by decide)).mpr
    fun h => absurd h.fails (by simp)

/-- The fourth call fails, and the share names both nodes. -/
theorem misled_exports_both :
    ¬ ∀ (r : Operator) (faults : Faults) (volume : String) (s : AttachWorld),
    Operator.active s.requests.values volume ≠ [] →
    (∀ it ∈ Operator.active s.requests.values volume, it.spec.singleNode = true) →
    ExportsOne r faults volume s := by
  intro hclaim
  let faults : Faults := fun i => if i = 3 then some "etcdserver: request timed out" else none
  refine Misled.not_exportsOne ?_ (hclaim {} faults "pvc-1" contested (by decide) (by decide))
  refine ⟨by decide, ⟨_, rfl, rfl, by decide⟩, by decide, by decide, ?_⟩
  intro i hi _
  exact if_neg hi

end SimpleZfsCsi.Attach
