import SimpleZfsCsi.Attach.Clients

/-!
# Single-node exclusion

The rely-guarantee outline of the controller service beside the operator, and what follows:
while no request ties with an active one of its volume on the creation time and precedes it
by name, a volume is published on one node at a time. With such a tie it is not.
-/

namespace SimpleZfsCsi.Attach

open Library Api Csi Program Concurrent

/-- The volume is published on one node at most, and no request of it is ready that was created
after an active one. -/
structure Exclusive (volume : String) (s : AttachWorld) : Prop where
  published : ∀ n₁ n₂, (volume, n₁) ∈ s.published → (volume, n₂) ∈ s.published → n₁ = n₂
  ready : ∀ n m x y, s.requests.lookup n = some x → s.requests.lookup m = some y →
    x.spec.volumeName = volume → y.spec.volumeName = volume → x.metadata.terminating = false →
    x.metadata.uid < y.metadata.uid → y.status.ready = false

section Outline

variable {c : ControllerServer} {volume : String} {nodes : Set String} {s : AttachWorld}

theorem Inv.exclusive (hs : Inv c volume nodes s) : Exclusive volume s where
  published n₁ n₂ h₁ h₂ := by
    obtain ⟨x, hx, hxvol, rfl, hxactive, hxoldest⟩ := hs.published n₁ h₁
    obtain ⟨y, hy, hyvol, rfl, hyactive, hyoldest⟩ := hs.published n₂ h₂
    by_contra hne
    by_cases hname : c.attachRequestName volume y.spec.nodeName =
        c.attachRequestName volume x.spec.nodeName
    · rw [hname, hx] at hy
      exact hne (by rw [Option.some_inj.mp hy])
    · have h₁ := hxoldest _ y hy hyvol hyactive hname
      have h₂ := hyoldest _ x hx hxvol hxactive (Ne.symm hname)
      omega
  ready n m x y hx hy hxvol hyvol hactive huid := by
    by_contra hready
    have holdest := hs.ready m y hy hyvol (by simpa using hready)
    have hne : n ≠ m := by
      rintro rfl
      rw [Option.some_inj.mp (hx.symm.trans hy)] at huid
      omega
    have := holdest n x hx hxvol hactive hne
    omega

/-- Without requests and publications the invariant holds. -/
theorem Inv.start (hrequests : ∀ n, s.requests.lookup n = none) (hpublished : s.published = []) :
    Inv c volume nodes s where
  named n x hx := by simp [hrequests] at hx
  single n x hx := by simp [hrequests] at hx
  created n x hx := by simp [hrequests] at hx
  version n x hx := by simp [hrequests] at hx
  distinct n m x y hx := by simp [hrequests] at hx
  ordered n m x y hx := by simp [hrequests] at hx
  observed n x hx := by simp [hrequests] at hx
  ready n x hx := by simp [hrequests] at hx
  published n hn := by simp [hpublished] at hn

theorem Inv.finish (hs : Inv c volume nodes s) {t : Task} {ok : Bool}
    (hpost : ∀ req rounds, t = .publish req rounds → ok = true → req.volumeID = volume →
      PublishedAt c volume req.nodeID s) : Inv c volume nodes (t.finish ok s) := by
  cases t with
  | unpublish | reconcile => exact hs
  | publish req rounds =>
    cases ok with
    | false => exact hs
    | true =>
      refine { hs with ready := hs.ready, published := ?_ }
      intro n hn
      rcases List.mem_cons.mp hn with heq | hn
      · obtain ⟨rfl, rfl⟩ := Prod.mk.inj heq
        exact hpost req rounds rfl rfl rfl
      · exact hs.published n hn

theorem Task.finish_requests (t : Task) (ok : Bool) (s : AttachWorld) :
    (t.finish ok s).requests = s.requests := by
  cases t <;> cases ok <;> rfl

/-- What a task has established when it returns. -/
def attachPost (c : ControllerServer) (volume : String) (t : Task) (ok : Bool) (s : AttachWorld) :
    Prop :=
  ∀ req rounds, t = .publish req rounds → ok = true → req.volumeID = volume →
    PublishedAt c volume req.nodeID s

theorem task_wp (r : Operator) (h : Distinguishes c nodes) {t : Task}
    (ht : t.Admissible volume nodes) :
    taskWp c volume nodes t (t.program c r) (attachPost c volume t) s := by
  cases t with
  | publish req rounds =>
    refine wp_bind (wp_mono ?_ (publish_wp h rounds ht.1 ht.2))
    rintro (e | ⟨⟩) t ht _ _ ⟨⟩ hok hvol
    · cases hok
    · exact ht rfl hvol
  | unpublish v n =>
    refine wp_bind (wp_mono ?_ (unpublish_wp h ht))
    rintro _ t _ _ _ ⟨⟩
  | reconcile name =>
    refine wp_bind (wp_mono ?_ (reconcile_wp r))
    rintro _ t _ _ _ ⟨⟩

variable (c volume nodes) in
/-- The controller service beside the operator. -/
def attachOutline (r : Operator) (h : Distinguishes c nodes) :
    Outline (attachSystem c r volume nodes) (fun cfg _ e => NoTie volume cfg.shared e) where
  inv := Inv c volume nodes
  rely := attachRely c volume nodes
  guar := attachGuar c volume nodes
  post := attachPost c volume
  refl _ _ _ hs := ⟨hs, fun _ => .of_eq rfl⟩
  trans _ _ _ _ _ h h' := ⟨h'.1, fun ht => (h.2 ht).trans (h'.2 ht)⟩
  starts _ _ _ _ _ ht := task_wp r h ht
  call_inv _ _ _ _ hs _ _ hcond hguar := hguar.2 hs hcond
  call_rely _ i t _ hs htakes _ hcond hguar j t' _ hne htakes' _ := by
    refine ⟨hguar.2 hs hcond, fun hop => hguar.1 ?_⟩
    -- the operator has one worker
    by_contra hrpc
    have hi := htakes.mpr (by simpa using hrpc)
    have hj := htakes'.mpr hop
    exact hne (hj.trans hi.symm)
  finish_inv _ _ _ hs hpost := hs.finish hpost
  finish_rely _ t a s hs _ hpost _ _ _ _ _ :=
    ⟨hs.finish hpost, fun _ => .of_eq (Task.finish_requests t a s)⟩
  env_inv _ _ hs henv := hs.of_eq henv.1 henv.2.1 henv.2.2
  env_rely _ _ hs henv _ _ := ⟨hs.of_eq henv.1 henv.2.1 henv.2.2, fun _ => .of_eq henv.1⟩

end Outline

/-! ## Two nodes -/

/-- The digits of two node names. -/
def sampleHash : String → String
  | "node-a" => "66570ff05a20"
  | "node-b" => "93ef37c61571"
  | _ => "000000000000"

def sampleServer : ControllerServer where
  nodeHash := sampleHash

def sampleNodes : Set String := {"node-a", "node-b"}

/-- A zvol on a pool that `node-b` hosts. -/
def sampleWorld : AttachWorld where
  requests := Store.empty
  shares := Store.empty
  datasets := Store.ofList [("pvc-1", {
    metadata := { name := "pvc-1" }
    spec := { poolGUID := "1", dataset := "k8s/pvc-1", type := .volume }
    status := {} })]
  pools := Store.ofList [(resourceName "1", {
    metadata := { name := resourceName "1" }
    spec := ()
    status := { currentNode := "node-b" } })]
  nodes := FinMap.empty
  secrets := FinMap.empty
  clock := 0
  nextKey := ""
  published := []

theorem sample_distinguishes : Distinguishes sampleServer sampleNodes where
  length n := by
    simp only [sampleServer]
    unfold sampleHash
    split <;> decide
  inj := by
    rintro _ (rfl | rfl) _ (rfl | rfl) h
    · rfl
    · exact absurd h (by decide)
    · exact absurd h (by decide)
    · rfl

/-- The agent has exported the share of a volume. -/
def exportShare (volume : String) (s : AttachWorld) : AttachWorld where
  __ := s
  shares :=
    match s.shares.lookup volume with
    | none => s.shares
    | some x => s.shares.put volume { x with
        status := { phase := some .bound, observedGeneration := x.metadata.generation } }

abbrev AttachMove := Move AttachWorld Worker Task

def publishMove (id : Nat) (node : String) : AttachMove :=
  .begin (.rpc id) (.publish { volumeID := "pvc-1", nodeID := node } 1)

/-- A whole reconcile of a request by the operator; what is left of its calls does nothing. -/
def reconcileMoves (name : String) : List AttachMove :=
  .begin .operator (.reconcile name) :: List.replicate 8 (.call .operator)

theorem publishMove_legal (r : Operator) (id : Nat) {node : String} (hnode : node ∈ sampleNodes) :
    (publishMove id node).Legal (attachSystem sampleServer r "pvc-1" sampleNodes) :=
  ⟨by simp [attachSystem, Task.isRpc], fun _ => ⟨hnode, fun _ => rfl⟩⟩

theorem calls_legal (r : Operator) (n : Nat) (i : Worker) :
    ∀ m ∈ List.replicate n (Move.call i : AttachMove),
      m.Legal (attachSystem sampleServer r "pvc-1" sampleNodes) := by
  intro m hm
  obtain ⟨_, rfl⟩ := List.mem_replicate.mp hm
  trivial

theorem reconcileMoves_legal (r : Operator) (name : String) : ∀ m ∈ reconcileMoves name,
    m.Legal (attachSystem sampleServer r "pvc-1" sampleNodes) := by
  intro m hm
  rcases List.mem_cons.mp hm with rfl | hm
  · exact ⟨by simp [attachSystem, Task.isRpc], fun _ => trivial⟩
  · exact calls_legal r 8 .operator m hm

theorem exportShare_legal (r : Operator) : (Move.change (exportShare "pvc-1") : AttachMove).Legal
    (attachSystem sampleServer r "pvc-1" sampleNodes) :=
  fun _ => ⟨rfl, rfl, Nat.le_refl _⟩

/-- Single-node exclusion, while no request ties with an active one. -/
theorem single_node_exclusion (c : ControllerServer) (r : Operator) (volume : String)
    (nodes : Set String) (h : Distinguishes c nodes) (s₀ : AttachWorld)
    (hrequests : ∀ n, s₀.requests.lookup n = none) (hpublished : s₀.published = [])
    (cfg : AttachConfig)
    (hcfg :
      Reach (attachSystem c r volume nodes) (fun cfg _ e => NoTie volume cfg.shared e) s₀ cfg) :
    Exclusive volume cfg.shared :=
  have hstart : (attachOutline c volume nodes r h).inv s₀ := Inv.start hrequests hpublished
  (Outline.holds_of_reach hstart hcfg).inv.exclusive

/-- A publish alone: the request is created, found local to its node, and ready. -/
def publishOne : List AttachMove :=
  publishMove 0 "node-b" :: List.replicate 4 (.call (.rpc 0)) ++
    reconcileMoves "pvc-1-93ef37c61571" ++ reconcileMoves "pvc-1-93ef37c61571" ++ [.call (.rpc 0)]

def publishedOne : AttachConfig :=
  publishOne.foldl ((attachSystem sampleServer {} "pvc-1" sampleNodes).make
    fun cfg _ e => NoTie "pvc-1" cfg.shared e) ⟨sampleWorld, fun _ => none⟩

theorem single_node_exclusion_one : publishedOne.shared.published = [("pvc-1", "node-b")] ∧
    Exclusive "pvc-1" publishedOne.shared := by
  refine ⟨by decide +kernel, single_node_exclusion sampleServer {} "pvc-1" sampleNodes
    sample_distinguishes sampleWorld (fun _ => rfl) rfl publishedOne ?_⟩
  refine Reach.start.play publishOne ?_
  simp only [publishOne, List.forall_mem_append, List.forall_mem_cons]
  exact ⟨⟨⟨⟨publishMove_legal {} 0 (by simp [sampleNodes]), calls_legal {} 4 _⟩,
    reconcileMoves_legal {} _⟩, reconcileMoves_legal {} _⟩, trivial, by simp⟩

/-- `node-a` checks the volume before `node-b` creates its request, and creates its own in the
same second, after `node-b` was published; its name comes first, so the operator moves on to it. -/
def publishTie : List AttachMove :=
  [publishMove 0 "node-b", publishMove 1 "node-a"] ++ List.replicate 3 (.call (.rpc 1)) ++
    List.replicate 4 (.call (.rpc 0)) ++ reconcileMoves "pvc-1-93ef37c61571" ++
    reconcileMoves "pvc-1-93ef37c61571" ++ [.call (.rpc 0), .call (.rpc 1)] ++
    reconcileMoves "pvc-1-66570ff05a20" ++ reconcileMoves "pvc-1-66570ff05a20" ++
    [.change (exportShare "pvc-1")] ++ reconcileMoves "pvc-1-66570ff05a20" ++ [.call (.rpc 1)]

def publishedBoth : AttachConfig :=
  publishTie.foldl ((attachSystem sampleServer {} "pvc-1" sampleNodes).make fun _ _ _ => True)
    ⟨sampleWorld, fun _ => none⟩

theorem tie_not_exclusive : ¬ ∀ (c : ControllerServer) (r : Operator) (volume : String)
    (nodes : Set String), Distinguishes c nodes → ∀ s₀ : AttachWorld,
    (∀ n, s₀.requests.lookup n = none) → s₀.published = [] → ∀ cfg,
    Reach (attachSystem c r volume nodes) (fun _ _ _ => True) s₀ cfg →
    Exclusive volume cfg.shared := by
  intro h
  have hreach : Reach (attachSystem sampleServer {} "pvc-1" sampleNodes) (fun _ _ _ => True)
      sampleWorld publishedBoth := by
    refine Reach.start.play publishTie ?_
    simp only [publishTie, List.forall_mem_append, List.forall_mem_cons]
    refine ⟨⟨⟨⟨⟨⟨⟨⟨⟨⟨⟨?_, ?_, by simp⟩, calls_legal {} 3 _⟩, calls_legal {} 4 _⟩,
      reconcileMoves_legal {} _⟩, reconcileMoves_legal {} _⟩, trivial, trivial, by simp⟩,
      reconcileMoves_legal {} _⟩, reconcileMoves_legal {} _⟩, exportShare_legal {}, by simp⟩,
      reconcileMoves_legal {} _⟩, trivial, by simp⟩
    · exact publishMove_legal {} 0 (by simp [sampleNodes])
    · exact publishMove_legal {} 1 (by simp [sampleNodes])
  have hexclusive := h sampleServer {} "pvc-1" sampleNodes sample_distinguishes sampleWorld
    (fun _ => rfl) rfl publishedBoth hreach
  have hboth : publishedBoth.shared.published = [("pvc-1", "node-a"), ("pvc-1", "node-b")] := by
    decide +kernel
  exact absurd (hexclusive.published "node-a" "node-b" (by simp [hboth]) (by simp [hboth]))
    (by decide)

end SimpleZfsCsi.Attach
