import SimpleZfsCsi.Agent.Draining
import SimpleZfsCsi.Library.Tidy

/-!
# Many snapshots, each with a clone of its own

`combCalls n` takes `n` snapshots of a volume one after the other and clones each of them once.
Every clone is the dataset of a volume. Detaching such a volume takes `n` promotes.
-/

namespace SimpleZfsCsi.Agent

open Library Api Memzfs

/-! ## The calls -/

/-- Text that differs for every number. -/
def tag (i : Nat) : String := String.ofList (List.replicate (i + 1) 'a')

def combSnap (i : Nat) : String := "csi-snap-" ++ tag i

def combVolume (i : Nat) : String := "csi-vol-" ++ tag i

def combClone (i : Nat) : String := "tank" ++ "/" ++ combVolume i

def combCalls : Nat → List MachineCall
  | 0 => [.createDataset "tank/a" FinMap.empty]
  | n + 1 => combCalls n ++
      [.snapshot [snapPath "tank/a" (combSnap n)],
        .clone (snapPath "tank/a" (combSnap n)) (combClone n) FinMap.empty]

def combObjects : Nat → FinMap String ZfsDataset
  | 0 => FinMap.empty
  | n + 1 => (combObjects n).insert (combVolume n)
      { metadata := { name := combVolume n }, spec := { poolGUID := "1", dataset := combVolume n },
        status := {} }

def combWorld (n : Nat) : World where
  datasets := ⟨combObjects n, n⟩
  snapshots := .empty
  pools := .empty
  mem := ((Machine.new ["tank"]).run (combCalls n)).mem
  clock := 0

section Names

theorem tag_injective {i j : Nat} (h : tag i = tag j) : i = j := by
  have hlength := congrArg (fun s => s.toList.length) h
  simpa [tag] using hlength

theorem append_right_injective (a : String) {b c : String} (h : a ++ b = a ++ c) : b = c := by
  have hlist := congrArg String.toList h
  rw [String.toList_append, String.toList_append, List.append_cancel_left_eq] at hlist
  exact String.toList_injective hlist

theorem combSnap_injective {i j : Nat} (h : combSnap i = combSnap j) : i = j :=
  tag_injective (append_right_injective _ h)

theorem combClone_injective {i j : Nat} (h : combClone i = combClone j) : i = j :=
  tag_injective (append_right_injective _ (append_right_injective _ h))

theorem isDriverSnapshotSuffix_combSnap (i : Nat) : isDriverSnapshotSuffix (combSnap i) = true := by
  have hlength : "csi-snap-".length = 9 := by decide
  simp [isDriverSnapshotSuffix, combSnap, tag, Text.startsWith, String.toList_append, hlength]

theorem plain_combClone (i : Nat) : Plain (combClone i) := by
  simp [Plain, combClone, combVolume, tag, String.toList_append]

theorem plain_volume : Plain "tank/a" := by
  unfold Plain
  decide

theorem parentOf_combClone (i : Nat) : parentOf (combClone i) = "tank" := by
  have hreverse : (combClone i).toList.reverse = (combVolume i).toList.reverse ++ '/' ::
      "tank".toList.reverse := by
    simp [combClone, String.toList_append]
  have hslash : ∀ c ∈ (combVolume i).toList.reverse, (c != '/') = true := by
    simp [combVolume, tag, String.toList_append]
  have hdrop : (combClone i).toList.reverse.dropWhile (· != '/') = '/' ::
      "tank".toList.reverse := by
    rw [hreverse, List.dropWhile_append_of_pos hslash]
    rfl
  unfold parentOf Text.cutLast
  rw [hdrop]
  simp

theorem combClone_ne (i : Nat) : combClone i ≠ "tank" ∧ combClone i ≠ "tank/a" := by
  have hlength : 14 ≤ (combClone i).toList.length := by
    simp [combClone, combVolume, tag, String.toList_append]
  constructor
  · intro h
    rw [h] at hlength
    exact absurd hlength (by decide)
  · intro h
    rw [h] at hlength
    exact absurd hlength (by decide)

end Names

/-! ## The pool they make -/

/-- What `n` pairs of calls leave in the pool. -/
structure Comb (a : Machine) (n : Nat) : Prop where
  quiet : a.inj = []
  txg : a.mem.txg = n
  root : (a.mem.ds.lookup "tank").isSome
  volume : (a.mem.ds.lookup "tank/a").isSome
  snaps : ∀ d k σ, a.mem.lookupSnap d k = some σ ↔
    d = "tank/a" ∧ ∃ i < n, k = combSnap i ∧ σ = { name := combSnap i, txg := i + 1 }
  origin : ∀ d D, a.mem.ds.lookup d = some D → D.origin = "" ∨
    ∃ i < n, d = combClone i ∧ D.origin = snapPath "tank/a" (combSnap i)
  clone : ∀ i < n, ∃ D, a.mem.ds.lookup (combClone i) = some D ∧
    D.origin = snapPath "tank/a" (combSnap i)
  later : ∀ i, n ≤ i → a.mem.ds.lookup (combClone i) = none
  bare : ∀ d D prop, a.mem.ds.lookup d = some D → D.props.lookup prop = none

theorem call_snapshot {a : Machine} (hquiet : a.inj = []) (k : String) :
    (a.call (.snapshot [snapPath "tank/a" k])).2 =
      { a with mem := (a.mem.snapshot [snapPath "tank/a" k]).2 } := by
  simp only [Machine.call, Machine.snapshot, split_snapPath plain_volume, List.all_cons,
    List.all_nil, Bool.and_true, if_true, Machine.injected, hquiet, useInjection, Machine.onMem]

theorem call_clone {a : Machine} (hquiet : a.inj = []) (k dest : String)
    (props : FinMap String String) :
    (a.call (.clone (snapPath "tank/a" k) dest props)).2.mem =
      (a.mem.clone (snapPath "tank/a" k) dest props).2 ∧
      (a.call (.clone (snapPath "tank/a" k) dest props)).2.inj = [] := by
  simp only [Machine.call, Machine.clone, split_snapPath plain_volume, Bool.not_true,
    Bool.false_eq_true, if_false, Machine.injected, hquiet, useInjection]
  cases hV : a.mem.ds.lookup "tank/a" with
  | none => exact ⟨rfl, rfl⟩
  | some V =>
    simp only
    split_ifs with hdone
    · exact ⟨rfl, rfl⟩
    · unfold Machine.freshen
      split_ifs <;> exact ⟨rfl, rfl⟩

/-- What the clone of a pair adds, the snapshot being there. -/
theorem clone_new {m : Mem} {V : Dataset} {k dest : String} {σ : Snapshot}
    (hV : m.ds.lookup "tank/a" = some V)
    (hσ : V.snaps.lookup k = some σ) (hnone : m.ds.lookup dest = none)
    (hparent : parentOf dest = "tank")
    (hroot : (m.ds.lookup "tank").isSome) (props : FinMap String String) :
    ∃ E : Dataset, E.origin = snapPath "tank/a" k ∧ E.props = props ∧ E.snaps = FinMap.empty ∧
      (m.clone (snapPath "tank/a" k) dest props).2.txg = m.txg ∧
      ∀ e, (m.clone (snapPath "tank/a" k) dest props).2.ds.lookup e =
        if e = dest then some E else m.ds.lookup e := by
  obtain ⟨R, hR⟩ := Option.isSome_iff_exists.mp hroot
  have hclone : (m.clone (snapPath "tank/a" k) dest props).2 =
      { m with ds :=
        (m.ds.insert dest { name := dest, kind := V.kind, props, volsize := V.volsize }).modify dest
                (fun d => { d with origin := snapPath "tank/a" k }) } := by
    simp [Mem.clone, split_snapPath plain_volume, hV, hσ, hnone, Mem.create, hparent, hR]
  refine ⟨{ name := dest, kind := V.kind, props, volsize := V.volsize, origin :=
    snapPath "tank/a" k },
    rfl, rfl, rfl, ?_, fun e => ?_⟩
  · rw [hclone]
  · rw [hclone]
    by_cases he : e = dest <;> simp [he]

/-- A pair of calls adds a tooth. -/
theorem Comb.step {a : Machine} {n : Nat} (h : Comb a n) :
    Comb (a.run [.snapshot [snapPath "tank/a" (combSnap n)],
      .clone (snapPath "tank/a" (combSnap n)) (combClone n) FinMap.empty]) (n + 1) := by
  obtain ⟨V, hV⟩ := Option.isSome_iff_exists.mp h.volume
  have hnew : a.mem.lookupSnap "tank/a" (combSnap n) = none := by
    rw [Option.eq_none_iff_forall_not_mem]
    intro σ hσ
    obtain ⟨_, i, hi, heq, _⟩ := (h.snaps _ _ _).mp hσ
    have := combSnap_injective heq
    omega
  have htaken : (a.mem.snapshot [snapPath "tank/a" (combSnap n)]).2 =
      { ds := a.mem.ds.modify "tank/a" fun d =>
          { d with snaps := d.snaps.insert (combSnap n) { name := combSnap n, txg := n + 1 } }
        txg := n + 1 } := by
    simp [Mem.snapshot, split_snapPath plain_volume, hV, hnew, Mem.addSnap, h.txg]
  simp only [Machine.run, List.foldl_cons, List.foldl_nil]
  rw [call_snapshot h.quiet, htaken]
  generalize hm₁ : a.mem.ds.modify "tank/a" (fun d =>
    { d with snaps := d.snaps.insert (combSnap n) { name := combSnap n, txg := n + 1 } }) = ds₁
  obtain ⟨hmem, hinj⟩ :=
    call_clone (a := { a with mem := { ds := ds₁, txg := n + 1 } }) h.quiet
    (combSnap n) (combClone n)
    FinMap.empty
  generalize (Machine.call { a with mem := { ds := ds₁, txg := n + 1 } }
    (.clone (snapPath "tank/a" (combSnap n)) (combClone n) FinMap.empty)).2 = a' at hmem hinj
  have hds₁ : ∀ e, ds₁.lookup e = (a.mem.ds.lookup e).map fun D => if e = "tank/a" then
      { D with snaps := D.snaps.insert (combSnap n) { name := combSnap n, txg := n + 1 } } else
        D := by
    intro e
    rw [← hm₁, FinMap.lookup_modify]
  have hnone : ds₁.lookup (combClone n) = none := by simp [hds₁, h.later n (Nat.le_refl n)]
  obtain ⟨E, horigin, hprops, hsnaps, htxg, hlookup⟩ := clone_new (m := { ds := ds₁, txg := n + 1 })
    (k := combSnap n) (σ := { name := combSnap n, txg := n + 1 })
    (V := { V with snaps := V.snaps.insert (combSnap n) { name := combSnap n, txg := n + 1 } })
    (by simp [hds₁, hV]) (by simp) hnone (parentOf_combClone n)
      (by simpa [hds₁] using h.root) FinMap.empty
  rw [← hmem] at htxg hlookup
  have hsnap : ∀ e k, a'.mem.lookupSnap e k =
      if e = "tank/a" ∧ k = combSnap n then some { name := combSnap n, txg := n + 1 } else
        a.mem.lookupSnap e k := by
    intro e k
    unfold Mem.lookupSnap
    rw [hlookup, hds₁]
    by_cases he : e = combClone n
    · subst he
      simp [hsnaps, h.later n (Nat.le_refl n), (combClone_ne n).2]
    · by_cases he' : e = "tank/a"
      · subst he'
        by_cases hk : k = combSnap n <;> simp [he, hV, hk]
      · cases a.mem.ds.lookup e <;> simp [he, he']
  refine ⟨hinj, htxg, ?_, ?_, fun d k σ => ?_, fun d D hD => ?_, fun i hi => ?_, fun i hi => ?_,
    fun d D prop hD => ?_⟩
  · rw [hlookup, if_neg (combClone_ne n).1.symm, hds₁]
    simpa using h.root
  · rw [hlookup, if_neg (combClone_ne n).2.symm, hds₁]
    simpa using h.volume
  · rw [hsnap]
    split_ifs with hnow
    · obtain ⟨rfl, rfl⟩ := hnow
      constructor
      · rintro hσ
        exact ⟨rfl, n, Nat.lt_succ_self n, rfl, (Option.some_inj.mp hσ).symm⟩
      · rintro ⟨_, i, hi, heq, rfl⟩
        obtain rfl := combSnap_injective heq
        rfl
    · rw [h.snaps]
      constructor
      · rintro ⟨rfl, i, hi, rfl, rfl⟩
        exact ⟨rfl, i, Nat.lt_succ_of_lt hi, rfl, rfl⟩
      · rintro ⟨rfl, i, hi, rfl, rfl⟩
        have hne : i ≠ n := fun heq => hnow ⟨rfl, by rw [heq]⟩
        exact ⟨rfl, i, by omega, rfl, rfl⟩
  · rw [hlookup] at hD
    split_ifs at hD with hd
    · obtain rfl := Option.some_inj.mp hD
      exact .inr ⟨n, Nat.lt_succ_self n, hd, horigin⟩
    · rw [hds₁] at hD
      obtain ⟨D₀, hD₀, rfl⟩ := Option.map_eq_some_iff.mp hD
      simp only [apply_ite Dataset.origin, ite_self]
      rcases h.origin d D₀ hD₀ with hempty | ⟨i, hi, heq⟩
      · exact .inl hempty
      · exact .inr ⟨i, Nat.lt_succ_of_lt hi, heq⟩
  · rw [hlookup]
    split_ifs with hin
    · obtain rfl := combClone_injective hin
      exact ⟨E, rfl, horigin⟩
    · obtain ⟨D, hD, hDorigin⟩ := h.clone i (by
        have hne : i ≠ n := fun heq => hin (by rw [heq])
        omega)
      exact ⟨D, by simp [hds₁, hD, (combClone_ne i).2], hDorigin⟩
  · have hne : combClone i ≠ combClone n := fun heq => by
      have := combClone_injective heq
      omega
    rw [hlookup, if_neg hne, hds₁, h.later i (by omega)]
    rfl
  · rw [hlookup] at hD
    split_ifs at hD with hd
    · obtain rfl := Option.some_inj.mp hD
      simp [hprops]
    · rw [hds₁] at hD
      obtain ⟨D₀, hD₀, rfl⟩ := Option.map_eq_some_iff.mp hD
      have hbare := h.bare d D₀ prop hD₀
      split_ifs <;> exact hbare

theorem comb_zero : Comb ((Machine.new ["tank"]).run (combCalls 0)) 0 := by
  have hlookup : ∀ d, ((Machine.new ["tank"]).run (combCalls 0)).mem.ds.lookup d =
      if d = "tank/a" then some { name := "tank/a", kind := .filesystem }
      else if d = "tank" then some { name := "tank", kind := .filesystem } else none := by
    intro d
    have hparent : parentOf "tank/a" = "tank" := by decide +kernel
    simp [Machine.run, combCalls, Machine.call, Machine.createDataset, Machine.create,
      Machine.injected, useInjection, Machine.new, Machine.freshen, Machine.onMem, Mem.new,
      FinMap.ofList, Mem.create, hparent]
  have hsnap : ∀ d k, ((Machine.new ["tank"]).run (combCalls 0)).mem.lookupSnap d k = none := by
    intro d k
    unfold Mem.lookupSnap
    rw [hlookup]
    split_ifs <;> rfl
  refine ⟨rfl, rfl,
    by simp [hlookup], by simp [hlookup], ?_, fun d D hD => .inl ?_, ?_, fun i _ => ?_,
    fun d D prop hD => ?_⟩
  · simp [hsnap]
  · rw [hlookup] at hD
    split_ifs at hD <;> obtain rfl := Option.some_inj.mp hD <;> rfl
  · simp
  · rw [hlookup, if_neg (combClone_ne i).2, if_neg (combClone_ne i).1]
  · rw [hlookup] at hD
    split_ifs at hD <;> obtain rfl := Option.some_inj.mp hD <;> rfl

theorem comb_run (n : Nat) : Comb ((Machine.new ["tank"]).run (combCalls n)) n := by
  induction n with
  | zero => exact comb_zero
  | succ n ih =>
    have hrun : (Machine.new ["tank"]).run (combCalls (n + 1)) =
        ((Machine.new ["tank"]).run (combCalls n)).run
        [.snapshot [snapPath "tank/a" (combSnap n)],
          .clone (snapPath "tank/a" (combSnap n)) (combClone n) FinMap.empty] :=
            List.foldl_append ..
    rw [hrun]
    exact ih.step

/-! ## What detaching finds there -/

theorem combPools : ∀ p ∈ ["tank"], '/' ∉ p.toList ∧ Plain p := by
  unfold Plain
  decide

theorem combCalls_proper (n : Nat) : ∀ c ∈ combCalls n, c.Proper := by
  induction n with
  | zero =>
    intro c hc
    obtain rfl := List.mem_singleton.mp hc
    exact plain_volume
  | succ n ih =>
    intro c hc
    rcases List.mem_append.mp hc with hc | hc
    · exact ih c hc
    · rcases List.mem_pair.mp hc with rfl | rfl
      · trivial
      · exact plain_combClone n

theorem combObjects_lookup {n i : Nat} (hi : i < n) :
    ∃ o, (combObjects n).lookup (combVolume i) = some o ∧
    o.spec.poolGUID = "1" ∧ o.spec.dataset = combVolume i := by
  induction n with
  | zero => cases hi
  | succ n ih =>
    unfold combObjects
    rw [FinMap.lookup_insert]
    split_ifs with heq
    · exact ⟨_, rfl, rfl, heq.symm⟩
    · have hne : i ≠ n := fun h => heq (by rw [h])
      exact ih (by omega)

theorem knownClone_comb {n i : Nat} (hi : i < n) :
    knownClone (combWorld n) "1" "tank" (combClone i) = true := by
  obtain ⟨o, ho, hguid, hdataset⟩ := combObjects_lookup hi
  have hpath : datasetPathOf "tank" (combClone i) = Text.trimSlashes (combVolume i) := by
    unfold datasetPathOf combClone
    rw [String.append_assoc, Text.trimStart_append, Text.trimStart_append]
  have hvalue : o ∈ (combWorld n).datasets.values := Store.mem_values.mpr ⟨_, ho⟩
  have hknown : datasetPathOf "tank" (combClone i) ∈ (((combWorld n).datasets.values.filter
      (·.spec.poolGUID = "1")).map fun d => Text.trimSlashes d.spec.dataset) := by
    refine List.mem_map.mpr ⟨o, List.mem_filter.mpr ⟨hvalue, by simpa using hguid⟩, ?_⟩
    rw [hpath, hdataset]
  unfold knownClone
  rw [Bool.or_eq_true]
  exact .inl (by simpa using hknown)

theorem mem_clonesOf_comb {a : Machine} {n i : Nat} {c : String} (h : Comb a n) (hi : i < n) :
    c ∈ a.mem.clonesOf (snapPath "tank/a" (combSnap i)) ↔ c = combClone i := by
  rw [Mem.mem_clonesOf]
  constructor
  · rintro ⟨D, hD, horigin⟩
    rcases h.origin c D hD with hempty | ⟨j, _, rfl, heq⟩
    · exact absurd (horigin.symm.trans hempty) (snapPath_ne_empty _ _)
    · obtain ⟨_, hij⟩ := snapPath_inj plain_volume plain_volume (horigin.symm.trans heq)
      rw [combSnap_injective hij]
  · rintro rfl
    exact h.clone i hi

theorem comb_ready (n : Nat) : Ready (combWorld n) "1" "tank" "tank/a" := by
  have h := comb_run n
  refine ⟨Sound.run (a := Machine.new ["tank"]) (Sound.new combPools) (combCalls_proper n),
    fun k σ hσ => ?_,
    fun k σ hσ c hc => ?_, fun d d' k σ σ' hσ hσ' => ?_⟩
  · obtain ⟨_, i, _, rfl, _⟩ := (h.snaps _ _ _).mp hσ
    exact isDriverSnapshotSuffix_combSnap i
  · obtain ⟨_, i, hi, rfl, _⟩ := (h.snaps _ _ _).mp hσ
    obtain rfl := (mem_clonesOf_comb h hi).mp hc
    exact knownClone_comb hi
  · exact ((h.snaps _ _ _).mp hσ).1.trans ((h.snaps _ _ _).mp hσ').1.symm

theorem inherited_bare {m : Mem}
    (h : ∀ d D prop, m.ds.lookup d = some D → D.props.lookup prop = none) (prop : String)
    (fuel : Nat) (name : String) : m.inherited prop fuel name = "-" := by
  induction fuel generalizing name with
  | zero => rfl
  | succ fuel ih =>
    have hbare : (m.ds.lookup name).bind (·.props.lookup prop) = none := by
      cases hD : m.ds.lookup name with
      | none => rfl
      | some D => exact h name D prop hD
    unfold Mem.inherited
    rw [hbare, ih]
    split_ifs <;> rfl

theorem labelled_comb {a : Machine} {n : Nat} (h : Comb a n) {c : String} (hplain : Plain c) :
    labelled a.mem c = false := by
  unfold labelled Mem.get
  rw [split_plain hplain]
  simp only
  cases hD : a.mem.ds.lookup c with
  | none => rfl
  | some D =>
    simp only [Bool.false_eq_true, if_false]
    rw [getDataset_role, inherited_bare h.bare]
    decide

theorem mem_stops_comb {n t : Nat} : t ∈ stops (combWorld n).mem "tank/a" ↔ ∃ i < n, t = i + 1 := by
  have h := comb_run n
  have hmem : ∀ σ, σ ∈ clonedSnaps (combWorld n).mem "tank/a" ↔
      ∃ i < n, σ = { name := combSnap i, txg := i + 1 } := by
    intro σ
    rw [mem_clonedSnaps (comb_ready n).sound]
    constructor
    · rintro ⟨hσ, _⟩
      obtain ⟨_, i, hi, _, heq⟩ := (h.snaps _ _ _).mp hσ
      exact ⟨i, hi, heq⟩
    · rintro ⟨i, hi, rfl⟩
      obtain ⟨D, hD, horigin⟩ := h.clone i hi
      exact ⟨(h.snaps _ _ _).mpr ⟨rfl, i, hi, rfl, rfl⟩, _, D, hD, horigin⟩
  have hbacked : ∀ σ ∈ clonedSnaps (combWorld n).mem "tank/a", backed (combWorld n).mem "tank/a"
      σ = false := by
    intro σ hσ
    obtain ⟨i, hi, rfl⟩ := (hmem σ).mp hσ
    unfold backed
    rw [List.any_eq_false]
    intro c hc
    rw [(mem_clonesOf_comb h hi).mp hc]
    have hlabelled : labelled (combWorld n).mem (combClone i) = false :=
      labelled_comb h (plain_combClone i)
    simp [hlabelled]
  rw [mem_stops]
  constructor
  · rintro ⟨⟨σ, hσ, rfl⟩, _⟩
    obtain ⟨i, hi, rfl⟩ := (hmem σ).mp hσ
    exact ⟨i, hi, rfl⟩
  · rintro ⟨i, hi, rfl⟩
    refine ⟨⟨_, (hmem _).mpr ⟨i, hi, rfl⟩, rfl⟩, .inr fun σ hσ htrue => ?_⟩
    rw [hbacked σ hσ] at htrue
    cases htrue

/-- Every tooth takes a round. -/
theorem length_stops_comb (n : Nat) : (stops (combWorld n).mem "tank/a").length = n := by
  have hperm : (stops (combWorld n).mem "tank/a").Perm ((List.range n).map (· + 1)) := by
    refine (List.perm_ext_iff_of_nodup nodup_stops
      (List.nodup_range.map (add_left_injective 1))).mpr fun t => ?_
    rw [mem_stops_comb, List.mem_map]
    exact exists_congr fun i => and_congr List.mem_range.symm eq_comm
  rw [hperm.length_eq, List.length_map, List.length_range]

end SimpleZfsCsi.Agent
