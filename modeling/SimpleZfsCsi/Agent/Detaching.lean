import SimpleZfsCsi.Agent.Moves
import SimpleZfsCsi.Memzfs.Listing

/-!
# Detaching what depends on a seat

`detachAndCleanSnapshots` on the seat of a post whose tag has been released: every round
destroys what nothing clones and promotes one clone away, so that the seat owns fewer
snapshots than before. On an orderly site nothing is refused: the snapshots have names of the
driver, their clones belong to objects, and no promote meets a name twice.
-/

namespace SimpleZfsCsi.Agent

open Library Api Memzfs Text Program

namespace Site

variable {S : Site} {G₀ G : CloneGraph String String} {k : AgentTask} {P : Post String String}
  {w₀ : World} {t : Tracked Taken} {fails : (e : AgentCall) → e.Ret → Prop}

/-- What every call of a pass for `k` keeps to: it only reads, or is one of the moves. -/
def Keeping (S : Site) (G₀ : CloneGraph String String) (k : AgentTask) (e : AgentCall)
    (t _ : Tracked Taken) : Prop :=
  e.Reads ∨ ∃ G P, S.Orderly G₀ t G ∧ S.posts t.world k = some P ∧ S.Moves t G k P e

theorem keeping_reads (e : AgentCall) (t : Tracked Taken) (he : e.Reads) :
    S.Keeping G₀ k e t t := .inl he

/-- The post of a pass is `P`, and the objects are those of `w₀`. -/
structure OnDuty (S : Site) (G₀ : CloneGraph String String) (k : AgentTask) (P : Post String String)
    (w₀ : World) (t : Tracked Taken) (G : CloneGraph String String) : Prop where
  orderly : S.Orderly G₀ t G
  post : S.posts t.world k = some P
  datasets : t.world.datasets = w₀.datasets
  snapshots : t.world.snapshots = w₀.snapshots
  pools : t.world.pools = w₀.pools

/-- The seat of `P` is being vacated. -/
structure Vacating (S : Site) (G₀ : CloneGraph String String) (k : AgentTask)
    (P : Post String String)
    (w₀ : World) (t : Tracked Taken) (G : CloneGraph String String) : Prop
    extends OnDuty S G₀ k P w₀ t G where
  dying : G.Dying S.Inside P

/-! ## Destroying what nothing clones -/

/-- The snapshots of `seat` among `snaps` that are left, with their clones. -/
structure Collected (seat : String) (G : CloneGraph String String) (snaps : List String)
    (cloned : List (String × List String)) : Prop where
  sub : List.Sublist (cloned.map Prod.fst) snaps
  each : ∀ sc ∈ cloned, ∃ x, G.owner x = some seat ∧ sc.1 = snapPath seat (G.name x) ∧
    (∀ c, c ∈ sc.2 ↔ G.origin c = some x) ∧ sc.2.Pairwise (· ≤ ·) ∧ sc.2 ≠ []
  all : ∀ x, G.owner x = some seat → snapPath seat (G.name x) ∈ snaps →
    snapPath seat (G.name x) ∈ cloned.map Prod.fst

theorem Collected.skip {snaps : List String} {cloned : List (String × List String)}
    (h : Collected P.seat G snaps cloned) {snap : String}
    (hgone : ∀ x, G.owner x = some P.seat → snapPath P.seat (G.name x) ≠ snap) :
    Collected P.seat G (snap :: snaps) cloned where
  sub := h.sub.cons _
  each := h.each
  all x hx hmem := by
    rcases List.mem_cons.mp hmem with heq | hmem
    · exact absurd heq (hgone x hx)
    · exact h.all x hx hmem

/-- What `Clones` answers of a snapshot of the seat. -/
theorem Vacating.clones_cases (h : S.Vacating G₀ k P w₀ t G) (n : String) :
    ((World.handle (.clones (snapPath P.seat n)) t.world).1 =
          .error (.notExist (snapPath P.seat n)) ∧ ∀ x, G.owner x = some P.seat → G.name x ≠ n) ∨
      ∃ x, G.owner x = some P.seat ∧ G.name x = n ∧
        (World.handle (.clones (snapPath P.seat n)) t.world).1 =
          .ok (t.world.mem.clonesOf (snapPath P.seat n)) := by
  have hplain := (h.orderly.keeps.seat_in h.post).plain
  simp only [World.handle, Mem.clones, split_snapPath hplain, Bool.not_true,
    Bool.false_eq_true, if_false]
  obtain ⟨hnone, hfree⟩ | ⟨σ, hσ, _, howner, hname, _⟩ :=
    h.orderly.represents.lookupSnap_cases P.seat n
  · rw [hnone]
    exact .inl ⟨rfl, hfree⟩
  · rw [hσ]
    exact .inr ⟨σ.txg, howner, hname, rfl⟩

variable (hfails : ∀ e r, fails e r → e.fails r)

include hfails

theorem cleanSnapshots_wp (snaps : List String)
    (hform : ∀ snap ∈ snaps, ∃ n, snap = snapPath P.seat n)
    {t : Tracked Taken} {G : CloneGraph String String} (h : S.Vacating G₀ k P w₀ t G) :
    passWp recordTaken fails (S.Keeping G₀ k) (cleanSnapshots snaps) (fun r t' =>
      ∃ G', S.Vacating G₀ k P w₀ t' G' ∧ CloneGraph.Pruned P.seat G G' ∧
        match r with
        | .ok cloned => Collected P.seat G' snaps cloned
        | .error e => Failing fails ∧ e.isRefusal = false) t := by
  induction snaps generalizing t G with
  | nil =>
    exact ⟨G, h, .refl _ _, ⟨List.Sublist.refl _, by simp, fun x _ hx => by simp at hx⟩⟩
  | cons snap rest ih =>
    obtain ⟨n, rfl⟩ := hform snap List.mem_cons_self
    have hrest := fun snap hsnap => hform snap (List.mem_cons_of_mem _ hsnap)
    have hplain := (h.orderly.keeps.seat_in h.post).plain
    refine read_pass hfails keeping_reads rfl ?_ fun msg hmsg => ?_
    · obtain ⟨hnone, hfree⟩ | ⟨x, hx, rfl, hok⟩ := h.clones_cases n
      · -- it was destroyed with its last clone
        rw [hnone]
        simp only [Err.isNotExist, if_true]
        refine wp_mono ?_ (ih hrest h)
        rintro r t' ⟨G', hv, hpruned, hr⟩
        refine ⟨G', hv, hpruned, ?_⟩
        cases r with
        | error e => exact hr
        | ok cloned =>
          refine hr.skip fun x hx heq => ?_
          rw [hpruned.name] at heq
          exact hfree x (hpruned.owner_of hx) (snapPath_inj hplain hplain heq).2
      · rw [hok]
        cases hclones : t.world.mem.clonesOf (snapPath P.seat (G.name x)) with
        | nil =>
          have huncloned := (h.orderly.represents.clonesOf_eq_nil hx).mp hclones
          obtain ⟨hanswer, horderly⟩ := h.orderly.clean h.post h.dying.1 hx huncloned
          have hdying : (G.discard x huncloned).Dying S.Inside P :=
            ⟨h.dying.1, fun n hn => CloneGraph.Keeps.released_discard (h.dying.2 n hn)⟩
          refine outcome_pass hfails
            (.inr ⟨G, P, h.orderly, h.post, .clean h.dying hx huncloned⟩) ?_
            fun msg hmsg => ?_
          · have hanswer : (World.handle (.destroySnapshotDeferred (snapPath P.seat (G.name x)))
                t.world).1 = .ok () := hanswer
            rw [hanswer]
            have hv : S.Vacating G₀ k P w₀ _ _ :=
              ⟨⟨horderly, h.post, h.datasets, h.snapshots, h.pools⟩, hdying⟩
            refine wp_mono ?_ (ih hrest hv)
            rintro r t' ⟨G', hv, hpruned, hr⟩
            refine ⟨G', hv, (CloneGraph.Pruned.discard hx huncloned).trans hpruned, ?_⟩
            cases r with
            | error e => exact hr
            | ok cloned =>
              refine hr.skip fun y hy heq => ?_
              obtain ⟨hne, hy'⟩ := CloneGraph.owner_of_discard (hpruned.owner_of hy)
              rw [hpruned.name] at heq
              exact hne (G.name_inj hy' hx (snapPath_inj hplain hplain heq).2)
          · exact ⟨G, h, .refl _ _, ⟨_, _, hmsg⟩, rfl⟩
        | cons c cs =>
          have hcloned : G.Cloned x := by
            rw [← not_not (a := G.Cloned x), ← h.orderly.represents.clonesOf_eq_nil hx, hclones]
            exact List.cons_ne_nil _ _
          refine Proc.wp_bind (wp_mono ?_ (ih hrest h))
          rintro r t' ⟨G', hv, hpruned, hr⟩
          cases r with
          | error e => exact ⟨G', hv, hpruned, hr⟩
          | ok others =>
            refine ⟨G', hv, hpruned, ?_⟩
            have hx' : G'.owner x = some P.seat := (hpruned.owner_of_cloned hcloned).trans hx
            refine ⟨hr.sub.cons_cons _, fun sc hsc => ?_, fun y hy hmem => ?_⟩
            · rcases List.mem_cons.mp hsc with rfl | hsc
              · refine ⟨x, hx', by rw [hpruned.name], fun c' => ?_, ?_, List.cons_ne_nil _ _⟩
                · rw [hpruned.origin, ← h.orderly.represents.mem_clonesOf hx, hclones]
                · rw [← hclones]
                  exact Mem.pairwise_clonesOf _ _
              · exact hr.each sc hsc
            · rw [List.map_cons, List.mem_cons]
              rcases List.mem_cons.mp hmem with heq | hmem
              · exact .inl heq
              · exact .inr (hr.all y hy hmem)
    · exact ⟨G, h, .refl _ _, ⟨_, _, hmsg⟩, rfl⟩

/-! ## Promoting one clone away -/

/-- The first of the candidates that is a backing clone, or `pick`. -/
def First (m : Mem) (pick : String × String)
    (cands : List (String × String)) (cd : String × String) :
    Prop :=
  (cd = pick ∧ ∀ a ∈ cands, ¬ IsBacking m a.2) ∨
    ∃ l l', cands = l ++ cd :: l' ∧ IsBacking m cd.2 ∧ ∀ a ∈ l, ¬ IsBacking m a.2

omit hfails in
theorem First.skip {m : Mem} {pick cd a : String × String} {cands : List (String × String)}
    (h : First m pick cands cd) (ha : ¬ IsBacking m a.2) : First m pick (a :: cands) cd := by
  rcases h with ⟨hpick, hnone⟩ | ⟨l, l', rfl, hcd, hnone⟩
  · refine .inl ⟨hpick, fun b hb => ?_⟩
    rcases List.mem_cons.mp hb with rfl | hb
    · exact ha
    · exact hnone b hb
  · refine .inr ⟨a :: l, l', rfl, hcd, fun b hb => ?_⟩
    rcases List.mem_cons.mp hb with rfl | hb
    · exact ha
    · exact hnone b hb

theorem pickBacking_first (pick : String × String)
    (cands : List (String × String)) (t : Tracked Taken) :
    passWp recordTaken fails (S.Keeping G₀ k) (pickBacking pick cands) (fun r t' => t' = t ∧
      match r with
      | .ok cd => First t.world.mem pick cands cd
      | .error e => Failing fails ∧ e.isRefusal = false) t := by
  induction cands with
  | nil => exact ⟨rfl, .inl ⟨rfl, by simp⟩⟩
  | cons a rest ih =>
    have hskip : ¬ IsBacking t.world.mem a.2 → passWp recordTaken fails (S.Keeping G₀ k)
        (pickBacking pick rest) (fun r t' => t' = t ∧
          match r with
          | .ok cd => First t.world.mem pick (a :: rest) cd
          | .error e => Failing fails ∧ e.isRefusal = false) t := by
      intro ha
      refine wp_mono ?_ ih
      rintro (e | cd) t' ⟨ht', hr⟩
      · exact ⟨ht', hr⟩
      · exact ⟨ht', hr.skip ha⟩
    refine read_pass hfails keeping_reads rfl ?_ fun msg hmsg => ⟨rfl, ⟨_, _, hmsg⟩, rfl⟩
    cases hget : (World.handle (.get a.2 propRole) t.world).1 with
    | error e =>
      have he : e.isNotExist = true := Mem.get_error hget
      simp only [he, if_true]
      refine hskip ?_
      rintro ⟨role, hrole, _⟩
      have hget : t.world.mem.get a.2 propRole = .error e := hget
      rw [hget] at hrole
      cases hrole
    | ok role =>
      have hget : t.world.mem.get a.2 propRole = .ok role := hget
      simp only
      split_ifs with hrole
      · exact ⟨rfl, .inr ⟨[], rest, rfl, ⟨role, hget, hrole⟩, by simp⟩⟩
      · refine hskip ?_
        rintro ⟨role', hget', hrole'⟩
        rw [hget] at hget'
        cases hget'
        exact hrole hrole'

/-- On an orderly site every clone of a snapshot inside belongs to an object. -/
theorem assertKnownDatasets_wp (h : S.Vacating G₀ k P w₀ t G) (snap : String) {clones : List String}
    (hclones : ∀ c ∈ clones, ∃ x, G.origin c = some x ∧ G.owner x = some P.seat) :
    passWp recordTaken fails (S.Keeping G₀ k) (assertKnownDatasets S.guid S.poolName snap clones)
      (fun r t' => t' = t ∧ ∀ e, r = .error e → Failing fails ∧ e.isRefusal = false) t := by
  have hreads : ∀ e : AgentCall, e.Reads →
      S.Keeping G₀ k e t (Tracked.handle recordTaken e t).2 := by
    intro e he
    exact .inl he
  refine ask_pass hfails (hreads _ rfl) (fun datasets hdatasets => ?_) (fun e he => by cases he)
    fun msg hmsg => ⟨rfl, fun e he => by cases he; exact ⟨⟨_, _, hmsg⟩, rfl⟩⟩
  rw [Tracked.handle_reads rfl]
  refine ask_pass hfails (hreads _ rfl) (fun snaps hsnaps => ?_) (fun e he => by cases he)
    fun msg hmsg => ⟨rfl, fun e he => by cases he; exact ⟨⟨_, _, hmsg⟩, rfl⟩⟩
  rw [Tracked.handle_reads rfl]
  obtain rfl : t.world.datasets.values = datasets := by simpa [World.handle] using hdatasets
  obtain rfl : t.world.snapshots.values = snaps := by simpa [World.handle] using hsnaps
  simp only
  split
  case h_2 => exact ⟨rfl, by rintro e ⟨⟩⟩
  case h_1 clone hfind =>
    exfalso
    obtain ⟨x, horigin, howner⟩ := hclones clone (List.mem_of_find?_eq_some hfind)
    have hunknown := List.find?_some hfind
    have hin := (h.orderly.keeps.closed clone x P.seat horigin howner).mpr
      (h.orderly.keeps.seat_in h.post)
    obtain ⟨k', P', hk', hseat, _⟩ := h.orderly.keeps.owned (G.origin_alive horigin) hin
    simp only [Bool.not_eq_true', Bool.or_eq_false_iff, decide_eq_false_iff_not] at hunknown
    cases k' with
    | dataset n =>
      obtain ⟨X, hX, rfl⟩ := Option.map_eq_some_iff.mp hk'
      have hfits := (h.orderly.roster.volume hX).2
      obtain rfl : S.full X.spec.dataset = clone := hseat
      refine hunknown.1 ?_
      rw [hfits.spot.datasetPathOf]
      refine List.mem_map.mpr ⟨X, List.mem_filter.mpr ⟨Store.mem_values.mpr ⟨n, hX⟩, ?_⟩, ?_⟩
      · simpa using hfits.guid
      · exact hfits.spot.trimSlashes
    | snapshot n =>
      obtain ⟨s, hs, rfl⟩ := Option.map_eq_some_iff.mp hk'
      have hfits := (h.orderly.roster.snapshot hs).2
      obtain rfl : S.full (backingDataset s.spec.dataset s.spec.snapshotName) = clone := hseat
      refine hunknown.2 ?_
      rw [hfits.backing.datasetPathOf, hfits.spot.base_backingDataset hfits.raw.1.1]
      refine List.mem_map.mpr ⟨s, List.mem_filter.mpr ⟨Store.mem_values.mpr ⟨n, hs⟩, ?_⟩, rfl⟩
      simpa using ⟨hfits.guid, hfits.raw.1.1.1⟩

omit hfails in
/-- The candidates are the clones of the snapshots of the seat, in order. -/
theorem Collected.candidates {snaps : List String} {cloned : List (String × List String)}
    (h : Collected P.seat G snaps cloned) (hplain : Plain P.seat)
    (hall : ∀ x, G.owner x = some P.seat → snapPath P.seat (G.name x) ∈ snaps)
    (hsorted : snaps.Pairwise fun a b => ∀ x y, G.owner x = some P.seat → G.owner y = some P.seat →
      a = snapPath P.seat (G.name x) → b = snapPath P.seat (G.name y) → x < y) :
    (∀ {x c}, G.owner x = some P.seat → G.origin c = some x →
        (snapPath P.seat (G.name x), c) ∈ candidates cloned) ∧
      (∀ cd ∈ candidates cloned, ∃ x, G.owner x = some P.seat ∧ G.origin cd.2 = some x ∧
        cd.1 = snapPath P.seat (G.name x)) ∧
      (candidates cloned).Pairwise fun a b => ∀ x y, G.owner x = some P.seat →
        G.owner y = some P.seat → G.origin a.2 = some x → G.origin b.2 = some y →
        x < y ∨ x = y ∧ a.2 ≤ b.2 := by
  refine ⟨fun {x c} hx hc => ?_, fun cd hcd => ?_, ?_⟩
  · obtain ⟨sc, hsc, hfst⟩ := List.mem_map.mp (h.all x hx (hall x hx))
    obtain ⟨y, hy, hpath, hclones, _⟩ := h.each sc hsc
    obtain rfl := G.name_inj hy hx (snapPath_inj hplain hplain (hpath.symm.trans hfst)).2
    refine List.mem_flatMap.mpr ⟨sc, hsc, List.mem_map.mpr ⟨c, (hclones c).mpr hc, ?_⟩⟩
    rw [hpath]
  · obtain ⟨sc, hsc, hcd⟩ := List.mem_flatMap.mp hcd
    obtain ⟨c, hc, rfl⟩ := List.mem_map.mp hcd
    obtain ⟨x, hx, hpath, hclones, _⟩ := h.each sc hsc
    exact ⟨x, hx, (hclones c).mp hc, hpath⟩
  · refine List.pairwise_flatMap.mpr ⟨fun sc hsc => ?_, ?_⟩
    · obtain ⟨x, hx, hpath, hclones, hle, _⟩ := h.each sc hsc
      rw [List.pairwise_map]
      refine List.Pairwise.imp_of_mem (fun {c c'} hc hc' hcc y y' _ _ hy hy' => ?_) hle
      rw [(hclones c).mp hc] at hy
      rw [(hclones c').mp hc'] at hy'
      exact .inr ⟨(Option.some_inj.mp hy).symm.trans (Option.some_inj.mp hy'), hcc⟩
    · have hpair := List.pairwise_map.mp (hsorted.sublist h.sub)
      refine List.Pairwise.imp_of_mem
        (fun {sc sc'} hsc hsc' hlt a ha b hb y y' _ _ hy hy' => ?_) hpair
      obtain ⟨x, hx, hpath, hclones, _⟩ := h.each sc hsc
      obtain ⟨x', hx', hpath', hclones', _⟩ := h.each sc' hsc'
      obtain ⟨c, hc, rfl⟩ := List.mem_map.mp ha
      obtain ⟨c', hc', rfl⟩ := List.mem_map.mp hb
      rw [(hclones c).mp hc] at hy
      rw [(hclones' c').mp hc'] at hy'
      obtain rfl := Option.some_inj.mp hy
      obtain rfl := Option.some_inj.mp hy'
      exact .inl (hlt x x' hx hx' hpath hpath')

omit hfails in
theorem Collected.cloned {snaps : List String} {cloned : List (String × List String)}
    (h : Collected P.seat G snaps cloned) (hplain : Plain P.seat) {x : Nat}
    (hx : G.owner x = some P.seat) (hmem : snapPath P.seat (G.name x) ∈ snaps) : G.Cloned x := by
  obtain ⟨sc, hsc, hfst⟩ := List.mem_map.mp (h.all x hx hmem)
  obtain ⟨y, hy, hpath, hclones, _, hne⟩ := h.each sc hsc
  obtain rfl := G.name_inj hy hx (snapPath_inj hplain hplain (hpath.symm.trans hfst)).2
  obtain ⟨c, hc⟩ := List.exists_mem_of_ne_nil _ hne
  exact ⟨c, (hclones c).mp hc⟩

/-- All snapshots of the seat are among those collected, in the order they were taken. -/
structure Complete (seat : String) (G : CloneGraph String String) (snaps : List String) : Prop where
  all : ∀ x, G.owner x = some seat → snapPath seat (G.name x) ∈ snaps
  sorted : snaps.Pairwise fun a b => ∀ x y, G.owner x = some seat → G.owner y = some seat →
    a = snapPath seat (G.name x) → b = snapPath seat (G.name y) → x < y

theorem promoteAway_wp {snaps : List String} {cloned : List (String × List String)}
    {first : String × String} (h : S.Vacating G₀ k P w₀ t G)
    (hcollected : Collected P.seat G snaps cloned)
    (hcomplete : Complete P.seat G snaps) (hfirst : first ∈ candidates cloned) :
    passWp recordTaken fails (S.Keeping G₀ k)
      (promoteAway S.guid S.poolName cloned first) (fun r t' =>
      ∃ G', S.Vacating G₀ k P w₀ t' G' ∧
        match r with
        | .ok () => G'.count P.seat < G.count P.seat
        | .error e => Failing fails ∧ e.isRefusal = false) t := by
  have hplain := (h.orderly.keeps.seat_in h.post).plain
  obtain ⟨hmem, hcands, hpairwise⟩ := hcollected.candidates hplain hcomplete.all hcomplete.sorted
  refine Proc.wp_bind (wp_mono ?_ (pickBacking_first hfails first (candidates cloned) t))
  rintro (e | cd) t' ⟨rfl, hr⟩
  · exact ⟨G, h, hr⟩
  have hcd : cd ∈ candidates cloned := by
    rcases hr with ⟨rfl, _⟩ | ⟨l, l', heq, _⟩
    · exact hfirst
    · rw [heq]
      exact List.mem_append_right _ List.mem_cons_self
  obtain ⟨o, howner, horigin, hpath⟩ := hcands cd hcd
  have hpick : ∀ {c' o'}, G.origin c' = some o' → G.owner o' = some P.seat →
      IsBacking t'.world.mem c' →
      IsBacking t'.world.mem cd.2 ∧ (o < o' ∨ o = o' ∧ cd.2 ≤ c') := by
    intro c' o' horigin' howner' hbacking
    have hmem' := hmem howner' horigin'
    rcases hr with ⟨_, hnone⟩ | ⟨l, l', heq, hcdb, hnone⟩
    · exact absurd hbacking (hnone _ hmem')
    · refine ⟨hcdb, ?_⟩
      rw [heq] at hmem' hpairwise
      rcases List.mem_append.mp hmem' with hl | hl
      · exact absurd hbacking (hnone _ hl)
      rcases List.mem_cons.mp hl with heq' | hl
      · obtain rfl : c' = cd.2 := congrArg Prod.snd heq'
        rw [horigin] at horigin'
        exact .inr ⟨Option.some_inj.mp horigin', le_refl _⟩
      · have hcons := (List.pairwise_append.mp hpairwise).2.1
        exact (List.pairwise_cons.mp hcons).1 _ hl o o' howner howner' horigin horigin'
  have hknown : ∀ c ∈ (cloned.lookup cd.1).getD [], ∃ x, G.origin c = some x ∧
      G.owner x = some P.seat := by
    intro c hc
    cases hlookup : cloned.lookup cd.1 with
    | none => simp [hlookup] at hc
    | some clones =>
      obtain ⟨l, l', heq, _⟩ := List.lookup_eq_some_iff.mp hlookup
      have hsc : (cd.1, clones) ∈ cloned := by
        rw [heq]
        exact List.mem_append_right _ List.mem_cons_self
      obtain ⟨x, hx, _, hclones, _⟩ := hcollected.each _ hsc
      simp only [hlookup, Option.getD_some] at hc
      exact ⟨x, (hclones c).mp hc, hx⟩
  refine Proc.wp_bind (wp_mono ?_ (assertKnownDatasets_wp hfails h cd.1 hknown))
  rintro (e | ⟨⟩) t'' ⟨rfl, herror⟩
  · exact ⟨G, h, herror e rfl⟩
  have hcloned : ∀ y, G.owner y = some P.seat → G.Cloned y := fun y hy =>
    hcollected.cloned hplain hy (hcomplete.all y hy)
  obtain ⟨hc, hanswer, horderly⟩ := h.orderly.promote h.post h.dying horigin howner hcloned
  refine outcome_pass hfails
    (.inr ⟨G, P, h.orderly, h.post, .promote h.dying horigin howner hcloned hpick⟩) ?_
      fun msg hmsg => ?_
  · have hanswer : (World.handle (.promote cd.2) t''.world).1 = .ok () := hanswer
    rw [hanswer]
    exact ⟨_, ⟨⟨horderly, h.post, h.datasets, h.snapshots, h.pools⟩, h.dying.1, fun n hn =>
      CloneGraph.Keeps.released_promote h.orderly.keeps.closed (h.dying.2 n hn)⟩,
      CloneGraph.count_promote_lt⟩
  · exact ⟨G, h, ⟨_, _, hmsg⟩, rfl⟩

/-! ## All rounds -/

omit hfails in
theorem forM_assertDriverSnapshot {snaps : List String}
    (h : ∀ snap ∈ snaps, assertDriverSnapshot snap = .ok ()) :
    snaps.forM assertDriverSnapshot = .ok () := by
  induction snaps with
  | nil => rfl
  | cons snap rest ih =>
    have hrest := ih fun snap hsnap => h snap (List.mem_cons_of_mem _ hsnap)
    show (assertDriverSnapshot snap >>= fun _ => rest.forM assertDriverSnapshot) = .ok ()
    rw [h snap List.mem_cons_self]
    exact hrest

/-- After the rounds the seat owns no snapshots, unless a call failed or there were more snapshots
than rounds; and then it owns fewer of them. -/
theorem detachRounds_wp (rounds : Nat) {t : Tracked Taken} {G : CloneGraph String String}
    (h : S.Vacating G₀ k P w₀ t G) :
    passWp recordTaken fails (S.Keeping G₀ k)
      (detachRounds S.guid S.poolName P.seat rounds) (fun r t' =>
      ∃ G', S.Vacating G₀ k P w₀ t' G' ∧
        match r with
        | .ok () => ∀ x, G'.owner x ≠ some P.seat
        | .error e => e.isRefusal = false ∧
            (Failing fails ∨ G'.count P.seat + rounds ≤ G.count P.seat)) t := by
  induction rounds generalizing t G with
  | zero => exact ⟨G, h, rfl, .inr (Nat.le_refl _)⟩
  | succ rounds ih =>
    have hin := h.orderly.keeps.seat_in h.post
    refine read_pass hfails keeping_reads rfl ?_ fun msg hmsg => ⟨G, h, rfl, .inl ⟨_, _, hmsg⟩⟩
    cases hD : t.world.mem.ds.lookup P.seat with
    | none =>
      have hanswer : (World.handle (.listSnapshots P.seat) t.world).1 =
          .error (.notExist P.seat) := by
        simp [World.handle, Mem.listSnapshots, hD]
      rw [hanswer]
      simp only [Err.isNotExist, if_true]
      refine ⟨G, h, fun x hx => ?_⟩
      obtain ⟨D, hD'⟩ := h.orderly.represents.lookup_of_alive (G.owner_alive hx)
      rw [hD] at hD'
      cases hD'
    | some D =>
      have hanswer : (World.handle (.listSnapshots P.seat) t.world).1 = .ok (Mem.snapNames D) := by
        simp [World.handle, Mem.listSnapshots, hD]
      have hlisted : ∀ snap ∈ Mem.snapNames D, ∃ x, G.owner x = some P.seat ∧
          snap = snapPath P.seat (G.name x) :=
        fun snap hsnap => (h.orderly.represents.mem_snapNames hD).mp hsnap
      have hall : ∀ x, G.owner x = some P.seat → snapPath P.seat (G.name x) ∈ Mem.snapNames D :=
        fun x hx => (h.orderly.represents.mem_snapNames hD).mpr ⟨x, hx, rfl⟩
      have hsorted := h.orderly.represents.pairwise_snapNames hD
      rw [hanswer]
      cases hsnaps : Mem.snapNames D with
      | nil => exact ⟨G, h, (h.orderly.represents.snapNames_eq_nil hD).mp hsnaps⟩
      | cons snap rest =>
        rw [hsnaps] at hlisted hall hsorted
        have hdriver : (snap :: rest).forM assertDriverSnapshot = .ok () := by
          refine forM_assertDriverSnapshot fun sn hsn => ?_
          obtain ⟨x, hx, rfl⟩ := hlisted sn hsn
          exact (h.orderly.keeps.named hx hin).assert hin.plain
        simp only [hdriver]
        refine liftExcept_pass (fun _ _ => ?_) fun e he => by cases he
        refine Proc.wp_bind
          (wp_mono ?_ (cleanSnapshots_wp hfails (snap :: rest) (fun sn hsn => ?_) h))
        · rintro (e | cloned) t' ⟨G', hv, hpruned, hr⟩
          · exact ⟨G', hv, hr.2, .inl hr.1⟩
          have hle : G'.count P.seat ≤ G.count P.seat :=
            CloneGraph.count_le fun x hx => hpruned.owner_of hx
          have hcomplete : Complete P.seat G' (snap :: rest) := by
            refine ⟨fun x hx => ?_, hsorted.imp fun {a b} hab x y hx hy ha hb => ?_⟩
            · rw [hpruned.name]
              exact hall x (hpruned.owner_of hx)
            · rw [hpruned.name] at ha hb
              exact hab x y (hpruned.owner_of hx) (hpruned.owner_of hy) ha hb
          have hplain' := hin.plain
          cases hcands : candidates cloned with
          | nil =>
            simp only [hcands]
            -- every snapshot that is left is cloned, and there are no clones
            refine ⟨G', hv, fun x hx => ?_⟩
            obtain ⟨c, hc⟩ := hr.cloned hplain' hx (hcomplete.all x hx)
            have hmem := (hr.candidates hplain' hcomplete.all hcomplete.sorted).1 hx hc
            rw [hcands] at hmem
            cases hmem
          | cons first others =>
            have hfirst : first ∈ candidates cloned := by
              rw [hcands]
              exact List.mem_cons_self
            simp only [hcands]
            refine Proc.wp_bind (wp_mono ?_ (promoteAway_wp hfails hv hr hcomplete hfirst))
            rintro (e | ⟨⟩) t'' ⟨G'', hv', hr'⟩
            · exact ⟨G'', hv', hr'.2, .inl hr'.1⟩
            refine wp_mono ?_ (ih hv')
            rintro (e | ⟨⟩) u ⟨H, hvH, hrH⟩
            · refine ⟨H, hvH, hrH.1, hrH.2.imp id fun hcount => ?_⟩
              have hlt : G''.count P.seat < G'.count P.seat := hr'
              omega
            · exact ⟨H, hvH, hrH⟩
        · obtain ⟨x, _, rfl⟩ := hlisted sn hsn
          exact ⟨_, rfl⟩

end Site

end SimpleZfsCsi.Agent
