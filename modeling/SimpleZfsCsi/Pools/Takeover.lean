import SimpleZfsCsi.Pools.Watcher

/-!
# Taking over a pool

The watcher offlines a pool by a patch that is computed from its listing. Before it lists the copies
of the operator's cache, or in the meantime, another node may have imported the pool and reported
it, and the patch then hits the new node's report. `Undisturbed` is what has to hold of a run for
this not to happen.
-/

namespace SimpleZfsCsi.Pools

open Library Api Concurrent Program

/-- The calls a watcher makes once it has listed the pools. -/
def PoolCall.acts : PoolCall → Bool
  | .now | .patchPoolStatus _ _ _ => true
  | _ => false

/-- A status patch of the pool. -/
def PoolCall.patches (name : String) : PoolCall → Bool
  | .patchPoolStatus n _ _ => n = name
  | _ => false

/-- The rest of a program does not patch the pool. -/
abbrev Spares (name : String) (p : Program PoolCall PoolCall.Ret (Except Err Unit)) : Prop :=
  p.Calls fun e => e.patches name = false

/-- A watcher has listed the pools, and still has to patch this one for the node. -/
def Doomed (c : PoolConfig) (node name : String) : Prop :=
  ∃ i e k, c.running i = some (.watch node, .call e k) ∧ e.acts = true ∧ ¬ Spares name (.call e k)

/-- The node has a pool at the API server. -/
def With (s : PoolWorld) (node name : String) : Prop :=
  (s.pools.lookup name).map (·.status.currentNode) = some node

instance (s : PoolWorld) (node name : String) : Decidable (With s node name) :=
  inferInstanceAs (Decidable (_ = _))

/-- The operator's cache is up to date on what a watcher of the node is going to patch: the pools
it shows under that node, and not as offline yet, are with it. -/
def Current (s : PoolWorld) (node : String) : Prop :=
  ∀ p ∈ (s.copies .operator).seen.values, p.status.currentNode = node →
    p.status.health ≠ .nodeOffline → With s node p.name

instance (s : PoolWorld) (node : String) : Decidable (Current s node) :=
  inferInstanceAs (Decidable (∀ p ∈ _, _ → _ → _))

/-- No watcher lists a pool under its node that has gone to another one, and no call gives a pool to
another node while a watcher still has to patch it for its node. -/
structure Undisturbed (c : PoolConfig) (i : Nat) (e : PoolCall) : Prop where
  lists : ∀ node p, c.running i = some (.watch node, p) → e = .listPools → Current c.shared node
  keeps : ∀ t p, c.running i = some (t, p) → ∀ node name, Doomed c node name →
    With c.shared node name → With (PoolWorld.handle t.client e c.shared).2 node name

/-! ## What the tasks do -/

theorem ask_calls {P : PoolCall → Prop} {e : PoolCall} (he : P e) : (ask e).run.Calls P := by
  simp [ask, he]

theorem offlinePools_acts (node : String) (pools : List ZfsPool) :
    (PoolWatcher.offlinePools node pools).run.Calls fun e => e.acts = true := by
  induction pools with
  | nil => simp [PoolWatcher.offlinePools]
  | cons p rest ih =>
    unfold PoolWatcher.offlinePools
    split_ifs
    · exact ih
    · exact ih
    · exact Proc.bind_calls (ask_calls rfl) fun now => Proc.bind_calls (ask_calls rfl) fun _ => ih

/-- How far a watcher is. -/
inductive Stage (node : String) : Program PoolCall PoolCall.Ret (Except Err Unit) → Prop where
  | node : Stage node (PoolWatcher.reconcile node).run
  | list : Stage node (PoolWatcher.offlinePoolsForNode node).run
  | act {p : Program PoolCall PoolCall.Ret (Except Err Unit)}
    (acts : p.Calls fun e => e.acts = true) :
      Stage node p

theorem Stage.next {node : String} {e : PoolCall}
    {k : e.Ret → Program PoolCall PoolCall.Ret (Except Err Unit)}
    (h : Stage node (.call e k)) (r : e.Ret) : Stage node (k r) := by
  generalize hp : Program.call e k = p at h
  cases h with
  | node =>
    obtain ⟨rfl, hk⟩ : e = .getNode node ∧ HEq k _ := by simpa [PoolWatcher.reconcile, ask] using hp
    obtain rfl := eq_of_heq hk
    cases r with
    | error e =>
      simp only [Except.mapError]
      split_ifs
      · exact .list
      · exact .act (by simp)
    | ok conditions =>
      simp only [Except.mapError]
      split_ifs
      · exact .act (by simp)
      · exact .list
  | list =>
    obtain ⟨rfl, hk⟩ : e = .listPools ∧ HEq k _ := by
      simpa [PoolWatcher.offlinePoolsForNode, ask] using hp
    obtain rfl := eq_of_heq hk
    cases r with
    | error e => exact .act (by simp [Except.mapError])
    | ok pools => exact .act (offlinePools_acts node pools)
  | act acts =>
    subst hp
    exact .act (acts.2 r)

/-! ## Runs that are not disturbed -/

variable {s₀ : PoolWorld} {c c' : PoolConfig}

/-- What a worker waits for. -/
def waiting (c : PoolConfig) (i : Nat) : Option (PoolTask × PoolCall) :=
  match c.running i with
  | some (t, .call e _) => some (t, e)
  | _ => none

/-- The pool `tank`, as `node-a` reported it. -/
def reported : ZfsPool where
  metadata := { name := "zpool-1" }
  spec := ()
  status := { guid := "1", poolName := "tank", currentNode := "node-a", health := .online }

/-- Nothing is written, and a watcher of `node-a` lists what is current. -/
def Quiet (c : PoolConfig) (i : Nat) (e : PoolCall) : Prop :=
  e = .getNode "node-a" ∨ e = .now ∨
    (e = .listPools ∧ (c.running i).map (·.1) = some (.watch "node-a") ∧ Current c.shared "node-a")

instance (c : PoolConfig) (i : Nat) (e : PoolCall) : Decidable (Quiet c i e) :=
  inferInstanceAs (Decidable (_ ∨ _ ∨ _))

theorem Quiet.undisturbed {i : Nat} {e : PoolCall} (h : Quiet c i e) : Undisturbed c i e := by
  refine ⟨fun node p hi he => ?_, fun t p _ node name _ hwith => ?_⟩
  · subst he
    obtain ⟨⟨_, htask⟩, hcurrent⟩ : (∃ x, c.running i = some (.watch "node-a", x)) ∧ _ := by
      simpa [Quiet] using h
    rw [hi] at htask
    obtain rfl : node = "node-a" := by
      cases htask
      rfl
    exact hcurrent
  · have hsame : (PoolWorld.handle t.client e c.shared).2.pools = c.shared.pools := by
      rcases h with rfl | rfl | ⟨rfl, _⟩
      · simp only [PoolWorld.handle]
        split <;> rfl
      · rfl
      · rfl
    rwa [With, hsame]

end SimpleZfsCsi.Pools
