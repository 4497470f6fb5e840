import SimpleZfsCsi.Agent.Comb
import SimpleZfsCsi.Agent.Effects

/-!
# The detach loop converges

With fewer cloned snapshots than rounds the loop empties the dataset. At 100 rounds it gives up;
what it did so far stays, so it is only a matter of calling it again.
-/

namespace SimpleZfsCsi.Agent

open Library Api Memzfs Program

/-! ## The loop, round by round -/

section Trace

variable {w : World} {poolGUID poolName full k c : String}

/-- The calls that list snapshots. Each round makes one, first of all. -/
def AgentCall.lists : AgentCall → Bool
  | .listSnapshots _ => true
  | _ => false

/-- How many snapshots `full` has at the start of each round. -/
def roundSizes (full : String) (calls : List (AgentCall × World)) : List Nat :=
  (calls.filter (·.1.lists)).map fun c => (shortNames c.2.mem full).length

theorem pickBacking_calls {P : AgentCall → Prop}
    (hget : ∀ name, P (.get name propRole)) (pick : String × String)
    (cands : List (String × String)) : (pickBacking pick cands).run.Calls P := by
  induction cands with
  | nil => simp [pickBacking]
  | cons cd rest ih =>
    refine outcome_bind_calls (hget _) fun r => ?_
    cases r with
    | error e =>
      simp only
      split_ifs
      · exact ih
      · simp
    | ok role =>
      simp only
      split_ifs
      · simp
      · exact ih

theorem assertKnownDatasets_calls {P : AgentCall → Prop} (hdatasets : P .listDatasets)
    (hsnapshots : P .listZfsSnapshots)
    (snap : String) (clones : List String) :
    (assertKnownDatasets poolGUID poolName snap clones).run.Calls P := by
  refine Proc.bind_calls (ask_calls hdatasets) fun _ => Proc.bind_calls
    (ask_calls hsnapshots) fun _ => ?_
  simp only
  split <;> simp

theorem filter_lists_eq_nil {α : Type} {p : AgentProc α}
    (hp : p.run.Calls (·.lists = false)) (w : World) :
    (p.run.trace World.handle w).filter (·.1.lists) = [] := by
  have hruns : Runs World.handle AgentCall.fails (fun _ => Eq) p.run w _ _ _ :=
    Runs.exec (fun _ _ => rfl) p.run w
  rw [List.filter_eq_nil_iff]
  intro c hc
  simp [hp.runs hruns c hc]

/-- What a round does with the snapshots that it found. -/
theorem picking_calls (snaps : List String) : (do
    liftExcept (snaps.forM assertDriverSnapshot)
    let cloned ← cleanSnapshots snaps
    match candidates cloned with
    | [] => return none
    | first :: _ =>
      let pick ← pickBacking first (candidates cloned)
      assertKnownDatasets poolGUID poolName pick.1 ((cloned.lookup pick.1).getD [])
      return some pick : AgentProc (Option (String × String))).run.Calls (·.lists = false) := by
  refine Proc.bind_calls (liftExcept_calls _) fun _ => ?_
  refine Proc.bind_calls (cleanSnapshots_calls (fun _ => rfl) (fun _ => rfl) snaps) fun cloned => ?_
  cases candidates cloned with
  | nil => simp
  | cons first others =>
    refine Proc.bind_calls (pickBacking_calls (fun _ => rfl) _ _) fun pick => ?_
    refine Proc.bind_calls ?_ fun _ => by simp
    exact assertKnownDatasets_calls (P := (·.lists = false)) rfl rfl _ _

/-- A round lists the snapshots once. -/
theorem lists_pickRound (w : World) :
    ((pickRound poolGUID poolName full).run.trace World.handle w).filter (·.1.lists) =
      [(.listSnapshots full, w)] := by
  have hask : ((ask (.listSnapshots full)).outcome : AgentProc _).run.trace World.handle w =
      [(.listSnapshots full, w)] := by
    rfl
  unfold pickRound
  rw [Proc.run_bind, trace_bind, exec_outcome, hask, List.filter_append]
  change (AgentCall.listSnapshots full, w) :: _ = _
  congr 1
  simp only
  cases (World.handle (.listSnapshots full) w).1 with
  | error e =>
    simp only
    split_ifs <;> rfl
  | ok snaps =>
    cases snaps with
    | nil => rfl
    | cons snap others => exact filter_lists_eq_nil (picking_calls (snap :: others)) _

/-- Each round that promotes leaves fewer snapshots to the next. -/
theorem Ready.roundSizes (h : Ready w poolGUID poolName full) (rounds : Nat) :
    (roundSizes full
      ((detachRounds poolGUID poolName full rounds).run.trace World.handle w)).Pairwise (· > ·) ∧
      ∀ n ∈ roundSizes full ((detachRounds poolGUID poolName full rounds).run.trace World.handle w),
        n ≤ (shortNames w.mem full).length := by
  induction rounds generalizing w with
  | zero => exact ⟨List.Pairwise.nil, by simp [Agent.roundSizes, detachRounds, trace]⟩
  | succ rounds ih =>
    have hsizes : ∀ rest, Agent.roundSizes full
        ((pickRound poolGUID poolName full).run.trace World.handle w ++ rest) =
          (shortNames w.mem full).length :: Agent.roundSizes full rest := by
      intro rest
      simp only [Agent.roundSizes, List.filter_append, List.map_append, lists_pickRound]
      rfl
    rw [detachRounds_succ, Proc.run_bind, trace_bind, hsizes]
    cases hpicked : picked w.mem full with
    | none =>
      obtain ⟨m', hlast, _⟩ := h.last hpicked
      rw [hlast]
      exact ⟨List.pairwise_singleton _ _, by simp [Agent.roundSizes, promoteRound, trace]⟩
    | some x =>
      obtain ⟨o, m₁, m', hround, hpick, hok⟩ := h.round hpicked
      obtain ⟨hsorted, hle⟩ := ih (hround.ready h)
      have hlt := hround.fewer
      rw [hpick]
      simp only
      rw [promoteRound_trace hok]
      refine ⟨List.pairwise_cons.mpr ⟨fun n hn => ?_, hsorted⟩, fun n hn => ?_⟩
      · exact Nat.lt_of_le_of_lt (hle n hn) hlt
      · rcases List.mem_cons.mp hn with rfl | hn
        · exact Nat.le_refl _
        · exact Nat.le_of_lt (Nat.lt_of_le_of_lt (hle n hn) hlt)

end Trace

/-! ## The dataset is emptied -/

section Empties

variable {w : World} {poolGUID poolName full : String}

theorem lookupSnap_of_shortNames {m : Mem} (h : Sound m []) (hempty : shortNames m full = [])
    (k : String) :
    m.lookupSnap full k = none := by
  have hk : k ∉ shortNames m full := by simp [hempty]
  rw [mem_shortNames h] at hk
  simpa using hk

theorem length_stops_le (m : Mem) (full : String) :
    (stops m full).length ≤ (clonedOf m full (shortNames m full)).length := by
  calc (stops m full).length
      ≤ ((clonedSnaps m full).map (·.txg)).dedup.length := List.length_filter_le _ _
    _ ≤ (clonedSnaps m full).length := by
      simpa using (List.dedup_sublist ((clonedSnaps m full).map (·.txg))).length_le
    _ ≤ (clonedOf m full (shortNames m full)).length := List.length_filterMap_le _ _

/-- The detach loop empties a dataset and loses nothing that is cloned. -/
theorem detach_empties (pools : List String) (hpools : ∀ p ∈ pools, '/' ∉ p.toList ∧ Plain p)
    (calls : List MachineCall) (hcalls : ∀ c ∈ calls, c.Proper) (w : World)
    (hmem : w.mem = ((Machine.new pools).run calls).mem) (poolGUID poolName full : String)
    (hdriver : ∀ k σ, w.mem.lookupSnap full k = some σ → isDriverSnapshotSuffix k = true)
    (hknown : ∀ k σ, w.mem.lookupSnap full k = some σ → ∀ c ∈ w.mem.clonesOf (snapPath full k),
      knownClone w poolGUID poolName c = true)
    (hunique : UniqueNames w.mem)
    (hfew : (clonedOf w.mem full (shortNames w.mem full)).length < 100) :
    let p := (detachAndCleanSnapshots poolGUID poolName full).run
    let m' := (p.exec World.handle w).2.mem
    (p.exec World.handle w).1 = .ok () ∧
    (∀ k, m'.lookupSnap full k = none) ∧
    -- the snapshots that are gone, and those that are left
    (∀ d k σ, w.mem.lookupSnap d k = some σ →
      if d = full ∧ w.mem.clonesOf (snapPath d k) = [] then ∀ d', m'.lookupSnap d' k = none
      else ∃ d', m'.lookupSnap d' k = some σ ∧
        (m'.clonesOf (snapPath d' k)).length = (w.mem.clonesOf (snapPath d k)).length) ∧
    (∀ d' k σ, m'.lookupSnap d' k = some σ → ∃ d, w.mem.lookupSnap d k = some σ) ∧
    (∀ e, (m'.ds.lookup e).isSome = (w.mem.ds.lookup e).isSome) ∧
    (roundSizes full (p.trace World.handle w)).Pairwise (· > ·) := by
  have hsound : Sound w.mem [] := by
    rw [hmem]
    exact Sound.run (a := Machine.new pools) (Sound.new hpools) hcalls
  have hready : Ready w poolGUID poolName full := ⟨hsound, hdriver, hknown, hunique⟩
  have hends : Ends w poolGUID poolName full maxDetachRounds
      ((detachAndCleanSnapshots poolGUID poolName full).run.exec World.handle w) := hready.ends 99
  obtain ⟨hok, hempty⟩ := hends.done (Nat.lt_of_le_of_lt (length_stops_le _ _) hfew)
  obtain ⟨hface, hkept, hcame⟩ := hends.drained
  refine ⟨hok, lookupSnap_of_shortNames hends.ready.sound hempty, fun d k σ hσ => ?_,
    fun d' k σ hσ => ?_, fun e => ?_,
    (hready.roundSizes maxDetachRounds).1⟩
  · split_ifs with hgone
    · intro d'
      rw [Option.eq_none_iff_forall_not_mem]
      intro τ hτ
      obtain ⟨d₀, hτ₀, hcloned⟩ := hcame d' k τ hτ
      obtain rfl := hunique d₀ d k τ σ hτ₀ hσ
      obtain ⟨rfl, hnil⟩ := hgone
      exact Mem.clonesOf_eq_nil.mp hnil (hcloned rfl)
    · have hcloned : d = full → w.mem.Cloned (snapPath full k) := by
        rintro rfl
        by_contra hnot
        exact hgone ⟨rfl, Mem.clonesOf_eq_nil.mpr hnot⟩
      obtain ⟨d', hσ', _, hlength⟩ := hkept d k σ hσ hcloned
      exact ⟨d', hσ', hlength⟩
  · obtain ⟨d, hσ, _⟩ := hcame d' k σ hσ
    exact ⟨d, hσ⟩
  · have he := congrArg Option.isSome (hface e)
    simpa [Mem.face] using he

theorem detach_empties_three :
    ((detachAndCleanSnapshots "1" "tank" "tank/a").run.exec World.handle (combWorld 3)).1 = .ok () ∧
      ∀ k, ((detachAndCleanSnapshots "1" "tank" "tank/a").run.exec World.handle
        (combWorld 3)).2.mem.lookupSnap
        "tank/a" k = none := by
  have hready := comb_ready 3
  have hempties :=
    detach_empties ["tank"] combPools (combCalls 3) (combCalls_proper 3) (combWorld 3) rfl "1"
    "tank" "tank/a"
    hready.driver hready.known hready.unique (by decide +kernel)
  exact ⟨hempties.1, hempties.2.1⟩

end Empties

/-! ## Giving up -/

section GivingUp

variable {w : World} {poolGUID poolName full : String}

/-- The loop says that it did not converge only when a snapshot is left, and then repeating it
finitely often empties the dataset. -/
def Truthful (poolGUID poolName full : String) (w : World) : Prop :=
  let run := fun v => (detachAndCleanSnapshots poolGUID poolName full).run.exec World.handle v
  (run w).1 = .error (.notConverged full 100) →
    (∃ k, ((run w).2.mem.lookupSnap full k).isSome) ∧
    ∃ n, (run ((fun v => (run v).2)^[n] w)).1 = .ok () ∧
      ∀ k, (run ((fun v => (run v).2)^[n] w)).2.mem.lookupSnap full k = none

theorem Ready.repeated (h : Ready w poolGUID poolName full) :
    let run := fun v => (detachAndCleanSnapshots poolGUID poolName full).run.exec World.handle v
    ∃ n, (run ((fun v => (run v).2)^[n] w)).1 = .ok () ∧
      ∀ k, (run ((fun v => (run v).2)^[n] w)).2.mem.lookupSnap full k = none := by
  intro run
  -- each call that gives up leaves 100 stops fewer
  induction hstops : (stops w.mem full).length using Nat.strong_induction_on generalizing w with
  | _ s ih =>
    have hends : Ends w poolGUID poolName full maxDetachRounds (run w) := h.ends 99
    by_cases hlt : s < maxDetachRounds
    · obtain ⟨hok, hempty⟩ := hends.done (hstops ▸ hlt)
      exact ⟨0, hok, lookupSnap_of_shortNames hends.ready.sound hempty⟩
    · obtain ⟨_, hlength, _⟩ := hends.short (by omega)
      have hrounds : 0 < maxDetachRounds := by decide
      obtain ⟨n, hn⟩ := ih _ (by omega) hends.ready rfl
      exact ⟨n + 1, hn⟩

/-- The 100th round can be the one that leaves nothing behind, and the loop does not look again. -/
theorem Ready.not_truthful (h : Ready w poolGUID poolName full)
    (hexact : (stops w.mem full).length = 100) :
    ¬ Truthful poolGUID poolName full w := by
  intro htruth
  have hends : Ends w poolGUID poolName full 100
      ((detachAndCleanSnapshots poolGUID poolName full).run.exec World.handle w) := h.ends 99
  obtain ⟨herror, hlength, hdone⟩ := hends.short (Nat.le_of_eq hexact.symm)
  obtain ⟨⟨k, hk⟩, _⟩ := htruth herror
  have hempty := hdone.mpr (List.eq_nil_of_length_eq_zero (by omega))
  rw [lookupSnap_of_shortNames hends.ready.sound hempty] at hk
  cases hk

/-- When the loop tells the truth. -/
theorem truthful_iff (pools : List String) (hpools : ∀ p ∈ pools, '/' ∉ p.toList ∧ Plain p)
    (calls : List MachineCall) (hcalls : ∀ c ∈ calls, c.Proper) (w : World)
    (hmem : w.mem = ((Machine.new pools).run calls).mem) (poolGUID poolName full : String)
    (hdriver : ∀ k σ, w.mem.lookupSnap full k = some σ → isDriverSnapshotSuffix k = true)
    (hknown : ∀ k σ, w.mem.lookupSnap full k = some σ → ∀ c ∈ w.mem.clonesOf (snapPath full k),
      knownClone w poolGUID poolName c = true)
    (hunique : UniqueNames w.mem) :
    Truthful poolGUID poolName full w ↔ (stops w.mem full).length ≠ 100 := by
  have hsound : Sound w.mem [] := by
    rw [hmem]
    exact Sound.run (a := Machine.new pools) (Sound.new hpools) hcalls
  have hready : Ready w poolGUID poolName full := ⟨hsound, hdriver, hknown, hunique⟩
  have hends : Ends w poolGUID poolName full 100
      ((detachAndCleanSnapshots poolGUID poolName full).run.exec World.handle w) := hready.ends 99
  constructor
  · exact fun htruth hexact => hready.not_truthful hexact htruth
  · intro hne herror
    refine ⟨?_, hready.repeated⟩
    by_cases hlt : (stops w.mem full).length < 100
    · rw [(hends.done hlt).1] at herror
      cases herror
    · obtain ⟨_, hlength, hdone⟩ := hends.short (Nat.le_of_not_lt hlt)
      have hleft := hdone.not.mpr fun hnil => by
        rw [hnil, List.length_nil] at hlength
        omega
      obtain ⟨k, hk⟩ := List.exists_mem_of_ne_nil _ hleft
      exact ⟨k, (mem_shortNames hends.ready.sound).mp hk⟩

theorem truthful_three : Truthful "1" "tank" "tank/a" (combWorld 3) := by
  have hready := comb_ready 3
  refine (truthful_iff ["tank"] combPools (combCalls 3) (combCalls_proper 3) (combWorld 3) rfl "1"
    "tank" "tank/a"
    hready.driver hready.known hready.unique).mpr ?_
  rw [length_stops_comb]
  decide

/-- With 100 snapshots, each with a clone of its own, the last round leaves nothing behind, and the
loop says that it did not converge. -/
theorem hundred_clones : ¬ Truthful "1" "tank" "tank/a" (combWorld 100) :=
  (comb_ready 100).not_truthful (length_stops_comb 100)

end GivingUp

end SimpleZfsCsi.Agent
