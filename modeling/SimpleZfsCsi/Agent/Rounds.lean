import SimpleZfsCsi.Agent.Detach
import SimpleZfsCsi.Memzfs.Sound

/-!
# What a round of detaching does

A round lists the snapshots of a dataset, destroys those that nothing clones, picks a clone of one
of the others and promotes it. Each part is said here as a function of the pool, so that a whole
round is an equation.
-/

namespace SimpleZfsCsi.Agent

open Library Api Memzfs Program

/-- The short names of the snapshots of `full`, in the order they are listed. -/
def shortNames (m : Mem) (full : String) : List String :=
  match m.ds.lookup full with
  | none => []
  | some d => (Mem.sortedSnaps d).map (·.name)

/-- The dataset carries the label of a backing clone. -/
def labelled (m : Mem) (c : String) : Bool :=
  match m.get c propRole with
  | .ok role => Text.trimSpace role = roleBacking
  | .error _ => false

/-- Destroy those of the snapshots that nothing clones. -/
def sweep (full : String) : List String → Mem → Mem
  | [], m => m
  | k :: rest, m =>
    sweep full rest (if m.clonesOf (snapPath full k) = [] then m.withSnaps full (·.erase k) else m)

/-- Those of the snapshots that are cloned. -/
def clonedOf (m : Mem) (full : String) (names : List String) : List String :=
  names.filter fun k => m.clonesOf (snapPath full k) ≠ []

/-- The snapshots and clones a round can choose from. -/
def choices (m : Mem) (full : String) : List (String × String) :=
  (clonedOf m full (shortNames m full)).flatMap fun k => (m.clonesOf (snapPath full k)).map
    fun c => (k, c)

/-- What a round chooses: the first backing clone, or else the first clone. -/
def picked (m : Mem) (full : String) : Option (String × String) :=
  ((choices m full).find? fun x => labelled m x.2).or (choices m full).head?

/-- What `assertKnownDatasets` accepts. -/
def knownClone (w : World) (poolGUID poolName clone : String) : Bool :=
  datasetPathOf poolName clone ∈
    (w.datasets.values.filter (·.spec.poolGUID = poolGUID)).map
      (fun d => Text.trimSlashes d.spec.dataset) ||
  Text.base (datasetPathOf poolName clone) ∈
    (w.snapshots.values.filter fun s => s.spec.poolGUID = poolGUID ∧ s.spec.snapshotName ≠ "").map
      (·.spec.snapshotName)

/-! ## The parts -/

section Parts

variable {w : World} {full : String}

theorem exec_ask (e : AgentCall) (w : World) :
    (ask e).run.exec World.handle w = World.handle e w := by
  unfold ask
  rw [Proc.run_ask]
  simp only [exec_call, exec_pure]
  rcases World.handle e w with ⟨r, t⟩
  cases r <;> rfl

theorem exec_outcome (e : AgentCall) (w : World) :
    ((ask e).outcome : AgentProc (Except Err e.Val)).run.exec World.handle w =
      (.ok (World.handle e w).1, (World.handle e w).2) := by
  rw [Proc.run_outcome, Program.exec_bind, exec_ask]
  rfl

theorem clonesOf_withSnaps (m : Mem) (d : String)
    (f : FinMap String Snapshot → FinMap String Snapshot)
    (snap : String) : (m.withSnaps d f).clonesOf snap = m.clonesOf snap := by
  unfold Mem.clonesOf Mem.namesWhere
  refine List.filter_congr fun n _ => ?_
  cases hn : m.ds.lookup n with
  | none => simp [Mem.withSnaps, hn]
  | some D =>
    by_cases hd : n = d
    · subst hd
      simp [Mem.withSnaps, hn]
    · simp [Mem.withSnaps, hn, hd]

theorem cleanSnapshots_exec (hplain : Plain full) (names : List String) (hnodup : names.Nodup)
    (hsnaps : ∀ k ∈ names, (w.mem.lookupSnap full k).isSome) :
    (cleanSnapshots (names.map (snapPath full))).run.exec World.handle w =
      (.ok ((clonedOf w.mem full names).map
        fun k => (snapPath full k, w.mem.clonesOf (snapPath full k))),
        { w with mem := sweep full names w.mem }) := by
  induction names generalizing w with
  | nil => rfl
  | cons k rest ih =>
    obtain ⟨hk, hnodup⟩ := List.nodup_cons.mp hnodup
    obtain ⟨σ, hσ⟩ := Option.isSome_iff_exists.mp (hsnaps k List.mem_cons_self)
    have hclones : w.mem.clones (snapPath full k) = .ok (w.mem.clonesOf (snapPath full k)) := by
      simp [Mem.clones, split_snapPath hplain, hσ]
    rw [List.map_cons]
    unfold cleanSnapshots
    rw [Proc.exec_bind (exec_outcome _ w)]
    simp only [World.handle, hclones]
    cases hc : w.mem.clonesOf (snapPath full k) with
    | nil =>
      have hdestroy : w.mem.destroySnapshotDeferred (snapPath full k) =
          (.ok (), w.mem.withSnaps full (·.erase k)) := by
        simp only [Mem.destroySnapshotDeferred, split_snapPath hplain, hσ, hc]
        rfl
      simp only
      rw [Proc.exec_bind (exec_outcome _ w)]
      simp only [World.handle, hdestroy]
      have hrest :=
        ih (w := { w with mem := w.mem.withSnaps full (·.erase k) }) hnodup fun j hj => by
        have hjk : j ≠ k := fun heq => hk (heq ▸ hj)
        obtain ⟨τ, hτ⟩ := Option.isSome_iff_exists.mp (hsnaps j (List.mem_cons_of_mem _ hj))
        obtain ⟨D, hD, hτD⟩ := lookup_of_lookupSnap hτ
        simp [lookupSnap_withSnaps, hD, hτD, hjk]
      rw [hrest]
      simp [clonedOf, clonesOf_withSnaps, sweep, hc]
    | cons c cs =>
      have hrest := ih (w := w) hnodup fun j hj => hsnaps j (List.mem_cons_of_mem _ hj)
      simp only
      rw [Proc.exec_bind hrest]
      simp [clonedOf, sweep, hc]

theorem pickBacking_exec (first : String × String) (cands : List (String × String)) :
    (pickBacking first cands).run.exec World.handle w =
      (.ok ((cands.find? fun x => labelled w.mem x.2).getD first), w) := by
  induction cands with
  | nil => rfl
  | cons cd rest ih =>
    unfold pickBacking
    rw [Proc.exec_bind (exec_outcome _ w)]
    simp only [World.handle]
    cases hget : w.mem.get cd.2 propRole with
    | error err =>
      have hmissing := Mem.get_error hget
      simp [labelled, hget, hmissing, ih]
    | ok role =>
      by_cases hrole : Text.trimSpace role = roleBacking
      · simp [labelled, hget, hrole]
      · simp [labelled, hget, hrole, ih]

theorem assertKnownDatasets_exec (poolGUID poolName snap : String) (clones : List String) :
    (assertKnownDatasets poolGUID poolName snap clones).run.exec World.handle w =
      (match clones.find? fun clone => !knownClone w poolGUID poolName clone with
        | some clone => .error (.unknownClone snap clone)
        | none => .ok (), w) := by
  unfold assertKnownDatasets
  rw [Proc.exec_bind (exec_ask _ w), Proc.exec_bind (exec_ask _ w)]
  change (match clones.find? fun clone => !knownClone w poolGUID poolName clone with
    | some clone => (throw (Err.unknownClone snap clone) : AgentProc Unit)
    | none => Pure.pure ()).run.exec World.handle w = _
  cases clones.find? fun clone => !knownClone w poolGUID poolName clone <;> rfl

end Parts

/-! ## What is swept -/

section Sweep

variable {m : Mem} {full : String}

theorem mem_shortNames (h : Sound m []) {k : String} : k ∈ shortNames m full ↔
    (m.lookupSnap full k).isSome := by
  unfold shortNames
  cases hD : m.ds.lookup full with
  | none => simp [Mem.lookupSnap, hD]
  | some D =>
    have hkeyed := h.keyed hD
    simp only [List.mem_map, hkeyed.mem_sorted, Mem.lookupSnap, hD, Option.bind_some,
      Option.isSome_iff_exists]
    constructor
    · rintro ⟨σ, hσ, rfl⟩
      exact ⟨σ, hσ⟩
    · rintro ⟨σ, hσ⟩
      have hname := hkeyed k σ hσ
      exact ⟨σ, hname.symm ▸ hσ, hname⟩

theorem nodup_shortNames (h : Sound m []) : (shortNames m full).Nodup := by
  unfold shortNames
  cases hD : m.ds.lookup full with
  | none => exact List.nodup_nil
  | some D => exact (h.keyed hD).nodup_sorted

/-- Sweeping takes snapshots away and leaves everything else as it is. -/
structure Swept (m m' : Mem) (full : String) (names : List String) : Prop where
  txg : m'.txg = m.txg
  face : ∀ e, m'.face e = m.face e
  clones : ∀ snap, m'.clonesOf snap = m.clonesOf snap
  origin : ∀ e, (m'.ds.lookup e).map (·.origin) = (m.ds.lookup e).map (·.origin)
  snaps : ∀ e k, m'.lookupSnap e k =
    if e = full ∧ k ∈ names ∧ m.clonesOf (snapPath full k) = [] then none else m.lookupSnap e k
  sound : Sound m' []

theorem swept_sweep (h : Sound m []) (hplain : Plain full) (names : List String) :
    Swept m (sweep full names m) full names := by
  induction names generalizing m with
  | nil => exact ⟨rfl, fun _ => rfl, fun _ => rfl, fun _ => rfl, by simp [sweep], h⟩
  | cons k rest ih =>
    unfold sweep
    split_ifs with hnil
    · have hrest := ih (h.eraseSnap hplain (Mem.clonesOf_eq_nil.mp hnil) (by simp))
      refine ⟨hrest.txg, fun e => ?_, fun snap => ?_, fun e => ?_, fun e j => ?_, hrest.sound⟩
      · rw [hrest.face]
        exact Mem.face_modify fun _ => by rfl
      · rw [hrest.clones, clonesOf_withSnaps]
      · rw [hrest.origin]
        cases hE : m.ds.lookup e with
        | none => simp [Mem.withSnaps, hE]
        | some E =>
          simp only [Mem.withSnaps, FinMap.lookup_modify, hE, Option.map_some]
          split_ifs <;> rfl
      · rw [hrest.snaps, lookupSnap_withSnaps, clonesOf_withSnaps]
        by_cases he : e = full
        · subst he
          by_cases hj : j = k
          · subst hj
            cases hE : m.ds.lookup e <;> simp [hnil]
          · cases hE : m.ds.lookup e <;> simp [hj, Mem.lookupSnap, hE]
        · simp [he]
    · have hrest := ih h
      refine ⟨hrest.txg, hrest.face, hrest.clones, hrest.origin, fun e j => ?_, hrest.sound⟩
      rw [hrest.snaps]
      by_cases hj : j = k
      · subst hj
        simp [hnil]
      · simp [hj]

end Sweep

/-! ## Labels -/

theorem inherited_of_face {m m' : Mem} (hface : ∀ e, m'.face e = m.face e) (prop : String)
    (fuel : Nat) (name : String) :
    m'.inherited prop fuel name = m.inherited prop fuel name := by
  induction fuel generalizing name with
  | zero => rfl
  | succ fuel ih =>
    have hprops : (m'.ds.lookup name).bind (·.props.lookup prop) =
        (m.ds.lookup name).bind (·.props.lookup prop) := by
      have hname := congrArg (Option.map (·.2)) (hface name)
      simp only [Mem.face, Option.map_map] at hname
      have hbind : ∀ o : Option Dataset, o.bind (·.props.lookup prop) =
          (o.map fun D => ((D.name, D.props) : String × FinMap String String).2).bind
            (·.lookup prop) := by
        intro o
        cases o <;> rfl
      rw [hbind, hbind]
      exact congrArg (·.bind (·.lookup prop)) hname
    unfold Mem.inherited
    rw [hprops, ih]

/-- The role of a dataset is a user property. -/
theorem getDataset_role (m : Mem) (c : String) (D : Dataset) :
    m.getDataset c D propRole = m.inherited propRole (c.length + 1) c := by
  unfold Mem.getDataset
  rw [if_neg (by decide +kernel), if_neg (by decide +kernel), if_neg (by decide +kernel),
    if_neg (by decide +kernel), if_pos (by decide +kernel)]

theorem labelled_of_face {m m' : Mem} (hface : ∀ e, m'.face e = m.face e) {c : String}
    (hplain : Plain c) :
    labelled m' c = labelled m c := by
  have hget : ∀ m : Mem, m.get c propRole = match m.face c with
      | none => .error (.notExist c)
      | some _ => .ok (m.inherited propRole (c.length + 1) c) := by
    intro m
    simp only [Mem.get, split_plain hplain, Mem.face]
    cases m.ds.lookup c with
    | none => rfl
    | some D => exact congrArg Except.ok (getDataset_role m c D)
  unfold labelled
  rw [hget, hget, hface]
  cases m.face c with
  | none => rfl
  | some D => simp only [inherited_of_face hface]

/-! ## A round -/

section Round

variable {w : World} {poolGUID poolName full : String}

theorem listSnapshots_eq (h : Sound w.mem []) {d : Dataset} (hd : w.mem.ds.lookup full = some d) :
    w.mem.listSnapshots full = .ok ((shortNames w.mem full).map (snapPath full)) := by
  simp only [Mem.listSnapshots, shortNames, hd, Mem.snapNames, List.map_map, h.named hd]
  rfl

/-- The choices as the program has them. -/
theorem candidates_eq (m : Mem) (full : String) :
    candidates ((clonedOf m full (shortNames m full)).map
      fun k => (snapPath full k, m.clonesOf (snapPath full k))) =
      (choices m full).map fun x => (snapPath full x.1, x.2) := by
  simp only [candidates, choices, List.flatMap_map, List.map_flatMap, List.map_map]
  rfl

/-- A round up to its promote: what to promote, if anything. -/
def pickRound (poolGUID poolName full : String) : AgentProc (Option (String × String)) := do
  match ← (ask (.listSnapshots full)).outcome with
  | .error e => if e.isNotExist then return none else throw e
  | .ok [] => return none
  | .ok snaps =>
    liftExcept (snaps.forM assertDriverSnapshot)
    let cloned ← cleanSnapshots snaps
    match candidates cloned with
    | [] => return none
    | first :: _ =>
      let pick ← pickBacking first (candidates cloned)
      assertKnownDatasets poolGUID poolName pick.1 ((cloned.lookup pick.1).getD [])
      return some pick

/-- The promote of a round, and what comes after it. -/
def promoteRound (next : AgentProc Unit) : Option (String × String) → AgentProc Unit
  | none => return ()
  | some pick => do
    match ← (ask (.promote pick.2)).outcome with
    | .ok () => next
    | .error e =>
      throw (.wrap ("promote " ++ Err.quoted pick.2 ++ " away from " ++ Err.quoted pick.1) e)

theorem detachRounds_succ (rounds : Nat) : detachRounds poolGUID poolName full (rounds + 1) =
    pickRound poolGUID poolName full >>= promoteRound
      (detachRounds poolGUID poolName full rounds) := by
  unfold pickRound
  rw [detachRounds, LawfulMonad.bind_assoc]
  congr 1
  funext r
  cases r with
  | error e =>
    simp only
    split_ifs <;> rfl
  | ok snaps =>
    cases snaps with
    | nil => rfl
    | cons snap rest =>
      simp only [LawfulMonad.bind_assoc]
      congr 1
      funext _
      congr 1
      funext cloned
      cases hcands : candidates cloned with
      | nil => rfl
      | cons first others =>
        simp only [promoteAway, hcands, LawfulMonad.bind_assoc, LawfulMonad.pure_bind, promoteRound]
        congr 1
        funext pick
        congr 1
        funext _
        congr 1
        funext r
        cases r <;> rfl

theorem mem_choices {m : Mem} {x : String × String} (hx : x ∈ choices m full) :
    x.1 ∈ shortNames m full ∧ x.2 ∈ m.clonesOf (snapPath full x.1) := by
  simp only [choices, clonedOf, List.mem_flatMap, List.mem_map, List.mem_filter] at hx
  obtain ⟨k, ⟨hk, _⟩, c, hc, rfl⟩ := hx
  exact ⟨hk, hc⟩

theorem lookup_cloned {m : Mem} {k : String} (names : List String) (hk : k ∈ names)
    (hcloned : m.clonesOf (snapPath full k) ≠ []) :
    ((clonedOf m full names).map fun k => (snapPath full k, m.clonesOf (snapPath full k))).lookup
      (snapPath full k) =
      some (m.clonesOf (snapPath full k)) := by
  have hmem : k ∈ clonedOf m full names := List.mem_filter.mpr ⟨hk, by simpa using hcloned⟩
  generalize clonedOf m full names = l at hmem
  induction l with
  | nil => cases hmem
  | cons j l ih =>
    rw [List.map_cons, List.lookup_cons]
    by_cases hj : snapPath full k = snapPath full j
    · simp [hj]
    · have hne : k ≠ j := fun heq => hj (heq ▸ rfl)
      simp only [beq_eq_false_iff_ne.mpr hj]
      exact ih ((List.mem_cons.mp hmem).resolve_left hne)

/-- What is picked, and how. -/
theorem pick_exec (h : Sound w.mem []) {names : List String} {m' : Mem}
    (hswept : Swept w.mem m' full names)
    {x : String × String} {xs : List (String × String)} (hchoices : choices w.mem full = x :: xs) :
    ∃ y ∈ choices w.mem full, picked w.mem full = some y ∧
      (pickBacking (snapPath full x.1, x.2)
        ((choices w.mem full).map fun x => (snapPath full x.1, x.2))).run.exec World.handle
          { w with mem := m' } =
      (.ok (snapPath full y.1, y.2), { w with mem := m' }) := by
  have hfind : ((choices w.mem full).map fun x => (snapPath full x.1, x.2)).find?
      (fun x => labelled m' x.2) =
      ((choices w.mem full).find? fun x => labelled w.mem x.2).map
        fun x => (snapPath full x.1, x.2) := by
    have hsame : ∀ y ∈ choices w.mem full, labelled m' y.2 = labelled w.mem y.2 := by
      intro y hy
      obtain ⟨E, hE, _⟩ := Mem.mem_clonesOf.mp (mem_choices hy).2
      exact labelled_of_face hswept.face (h.plain hE)
    rw [List.find?_map]
    congr 1
    rw [← List.head?_filter, ← List.head?_filter]
    exact congrArg List.head? (List.filter_congr hsame)
  rw [pickBacking_exec, hfind]
  unfold picked
  cases hlabelled : (choices w.mem full).find? fun x => labelled w.mem x.2 with
  | some y => exact ⟨y, List.mem_of_find?_eq_some hlabelled, rfl, rfl⟩
  | none => exact ⟨x, by simp [hchoices], by simp [hchoices], rfl⟩

theorem forM_assertDriverSnapshot_ok (hplain : Plain full) (names : List String)
    (hnames : ∀ k ∈ names, isDriverSnapshotSuffix k = true) :
    (names.map (snapPath full)).forM assertDriverSnapshot = .ok () := by
  induction names with
  | nil => rfl
  | cons k rest ih =>
    have hk : assertDriverSnapshot (snapPath full k) = .ok () := by
      have hsplit := split_snapPath hplain k
      simp only [split] at hsplit
      simp [assertDriverSnapshot, splitSnapshot, hsplit, hnames k List.mem_cons_self]
    change (assertDriverSnapshot (snapPath full k) >>= fun _ => (rest.map (snapPath full)).forM
      assertDriverSnapshot) =
      .ok ()
    rw [hk]
    exact ih fun j hj => hnames j (List.mem_cons_of_mem _ hj)

/-- What a round picks: nothing, or a clone whose snapshot has known clones only. -/
def pickResult (w : World) (poolGUID poolName full : String) :
    Except Err (Option (String × String)) :=
  match picked w.mem full with
  | none => .ok none
  | some (k, c) =>
    match (w.mem.clonesOf (snapPath full k)).find? fun x => !knownClone w poolGUID poolName x with
    | some x => .error (.unknownClone (snapPath full k) x)
    | none => .ok (some (snapPath full k, c))

/-- A round up to its promote, with snapshots of the driver only. -/
theorem pickRound_exec (poolGUID poolName : String) (h : Sound w.mem [])
    (hdriver : ∀ k ∈ shortNames w.mem full, isDriverSnapshotSuffix k = true) :
    (pickRound poolGUID poolName full).run.exec World.handle w =
      (pickResult w poolGUID poolName full,
        { w with mem := sweep full (shortNames w.mem full) w.mem }) := by
  unfold pickRound
  cases hd : w.mem.ds.lookup full with
  | none =>
    have hempty : shortNames w.mem full = [] := by simp [shortNames, hd]
    have hpicked : picked w.mem full = none := by simp [picked, choices, clonedOf, hempty]
    rw [Proc.exec_bind (exec_outcome _ w)]
    simp [World.handle, Mem.listSnapshots, hd, Err.isNotExist, hempty, sweep, pickResult, hpicked]
  | some d =>
    have hplain := h.plain hd
    have hswept := swept_sweep h hplain (shortNames w.mem full)
    have hclean := cleanSnapshots_exec hplain (shortNames w.mem full) (nodup_shortNames h) (w := w)
      fun k hk => (mem_shortNames h).mp hk
    have hlist : ((ask (.listSnapshots full)).outcome : AgentProc _).run.exec World.handle w =
        (.ok (.ok ((shortNames w.mem full).map (snapPath full))), w) := by
      rw [exec_outcome]
      simp only [World.handle, listSnapshots_eq h hd]
    have hlift : (liftExcept (.ok () : Except Err Unit) : AgentProc Unit).run.exec World.handle w =
        (.ok (), w) := rfl
    rw [Proc.exec_bind hlist]
    cases hsnaps : (shortNames w.mem full).map (snapPath full) with
    | nil =>
      have hempty := List.map_eq_nil_iff.mp hsnaps
      have hpicked : picked w.mem full = none := by simp [picked, choices, clonedOf, hempty]
      simp [hempty, sweep, pickResult, hpicked]
    | cons first others =>
      simp only
      rw [← hsnaps, forM_assertDriverSnapshot_ok hplain _ hdriver, Proc.exec_bind hlift,
        Proc.exec_bind hclean, candidates_eq]
      cases hchoices : choices w.mem full with
      | nil =>
        have hpicked : picked w.mem full = none := by simp [picked, hchoices]
        simp [pickResult, hpicked]
      | cons x xs =>
        obtain ⟨y, hy, hpicked, hpick⟩ := pick_exec h hswept hchoices
        have hmem := mem_choices hy
        have hlookup : ((clonedOf w.mem full (shortNames w.mem full)).map fun k =>
            (snapPath full k, w.mem.clonesOf (snapPath full k))).lookup (snapPath full y.1) =
              some (w.mem.clonesOf (snapPath full y.1)) :=
          lookup_cloned _ hmem.1 (List.ne_nil_of_mem hmem.2)
        rw [hchoices, List.map_cons] at hpick
        simp only [List.map_cons]
        rw [Proc.exec_bind hpick, hlookup, Option.getD_some]
        have hknown := assertKnownDatasets_exec poolGUID poolName (snapPath full y.1)
          (w.mem.clonesOf (snapPath full y.1))
            (w := { w with mem := sweep full (shortNames w.mem full) w.mem })
        have hsame : ∀ x, knownClone { w with mem := sweep full (shortNames w.mem full) w.mem }
          poolGUID poolName x =
            knownClone w poolGUID poolName x := fun _ => rfl
        simp only [hsame] at hknown
        simp only [pickResult, hpicked]
        cases hunknown :
          (w.mem.clonesOf (snapPath full y.1)).find? fun x => !knownClone w poolGUID poolName x with
        | some z =>
          rw [hunknown] at hknown
          rw [Proc.exec_bind_error hknown]
        | none =>
          rw [hunknown] at hknown
          rw [Proc.exec_bind hknown]
          rfl

theorem pickResult_known {k c : String} (hpicked : picked w.mem full = some (k, c))
    (hknown : ∀ x ∈ w.mem.clonesOf (snapPath full k), knownClone w poolGUID poolName x = true) :
    pickResult w poolGUID poolName full = .ok (some (snapPath full k, c)) := by
  have hnone : (w.mem.clonesOf (snapPath full k)).find?
      (fun x => !knownClone w poolGUID poolName x) = none := by
    rw [List.find?_eq_none]
    intro x hx
    simp [hknown x hx]
  simp [pickResult, hpicked, hnone]

theorem promoteRound_exec (next : AgentProc Unit) (snap clone : String) :
    (promoteRound next (some (snap, clone))).run.exec World.handle w =
      match (w.mem.promote clone).1 with
      | .ok () => next.run.exec World.handle { w with mem := (w.mem.promote clone).2 }
      | .error e =>
        (.error (.wrap ("promote " ++ Err.quoted clone ++ " away from " ++ Err.quoted snap) e),
          { w with mem := (w.mem.promote clone).2 }) := by
  unfold promoteRound
  rw [Proc.exec_bind (exec_outcome _ _)]
  simp only [World.handle]
  cases (w.mem.promote clone).1 <;> rfl

theorem promoteRound_ok {m : Mem} {snap clone : String}
    (hok : w.mem.promote clone = (.ok (), m)) (next : AgentProc Unit) :
    (promoteRound next (some (snap, clone))).run.exec World.handle w =
      next.run.exec World.handle { w with mem := m } := by
  rw [promoteRound_exec, hok]

/-- A promote that succeeds leads to the next round. -/
theorem promoteRound_trace {m : Mem} {snap clone : String}
    (hok : w.mem.promote clone = (.ok (), m)) (next : AgentProc Unit) :
    (promoteRound next (some (snap, clone))).run.trace World.handle w =
      (.promote clone, w) :: next.run.trace World.handle { w with mem := m } := by
  unfold promoteRound
  rw [Proc.run_bind, trace_bind, exec_outcome]
  simp only [World.handle, hok]
  rfl

end Round

end SimpleZfsCsi.Agent
