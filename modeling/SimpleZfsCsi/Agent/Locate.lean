import SimpleZfsCsi.Agent.Rounds
import SimpleZfsCsi.Memzfs.Follow
import SimpleZfsCsi.Library.Tidy

/-!
# Finding a raw snapshot after promotes

`locateRawSnapshot` looks at the origin of the backing clone, at the backing clone itself and at
the place that was recorded. A promote moves the snapshot away from the backing clone together
with one of the same transaction group that is cloned, and then it is at none of these places.
-/

namespace SimpleZfsCsi.Agent

open Library Api Memzfs Text Program

section Locate

variable {w : World} {m : Mem} {b s d : String} {t : Nat} {τ : Snapshot}

/-- What exists. -/
def there (m : Mem) (name : String) : Bool :=
  match m.get name "type" with
  | .ok _ => true
  | .error _ => false

theorem existsZFS_exec (name : String) (w : World) :
    (existsZFS name).run.exec World.handle w = (.ok (there w.mem name), w) := by
  unfold existsZFS
  rw [Proc.exec_bind (exec_outcome _ w)]
  simp only [World.handle]
  cases hget : w.mem.get name "type" with
  | ok v => simp [there, hget]
  | error e => simp [there, hget, Mem.get_error hget]

theorem firstExisting_exec (names : List String) (w : World) :
    (firstExisting names).run.exec World.handle w =
      (.ok ((names.find? (there w.mem)).getD ""), w) := by
  induction names with
  | nil => rfl
  | cons cand rest ih =>
    unfold firstExisting
    rw [Proc.exec_bind (existsZFS_exec cand w)]
    cases hcand : there w.mem cand with
    | true => simp [hcand]
    | false => simp [hcand, ih]

/-- The places that `locateRawSnapshot` looks at. -/
def places (m : Mem) (b recorded s : String) : List String :=
  let others := [snapPath b s, recorded]
  match m.get b "origin" with
  | .ok origin => if endsWith (trimSpace origin) ("@" ++ s) then trimSpace origin ::
    others else others
  | .error _ => others

theorem locateRawSnapshot_exec (b recorded s : String) (w : World) :
    (locateRawSnapshot b recorded s).run.exec World.handle w =
      (.ok (((places w.mem b recorded s).find? (there w.mem)).getD ""), w) := by
  unfold locateRawSnapshot
  rw [Proc.exec_bind (exec_outcome _ w)]
  simp only [World.handle]
  cases hget : w.mem.get b "origin" with
  | error e =>
    simp only [Mem.get_error hget, if_true, places, hget]
    exact firstExisting_exec ..
  | ok origin =>
    simp only [places, hget]
    split_ifs
    · exact firstExisting_exec ..
    · exact firstExisting_exec ..

/-- A name with an `@` that exists is that of a snapshot. -/
theorem there_snap {name : String} (hthere : there m name = true) (hname : ¬ Plain name) :
    ∃ e k τ, name = snapPath e k ∧ m.lookupSnap e k = some τ := by
  rcases split_cases name with ⟨e, k, he, rfl, hsplit⟩ | ⟨hplain, _⟩
  · simp only [there, Mem.get, hsplit] at hthere
    cases hE : m.ds.lookup e with
    | none => simp [hE] at hthere
    | some E =>
      cases hk : E.snaps.lookup k with
      | none => simp [hE, hk] at hthere
      | some τ => exact ⟨e, k, τ, rfl, by simp [Mem.lookupSnap, hE, hk]⟩
  · exact absurd hplain hname

theorem there_of_snap (hd : Plain d) (hτ : m.lookupSnap d s = some τ) :
    there m (snapPath d s) = true := by
  obtain ⟨D, hD, hs⟩ := lookup_of_lookupSnap hτ
  simp [there, Mem.get, split_snapPath hd, hD, hs]

/-- What ends with the name of a snapshot is no name of a dataset. -/
theorem not_plain_of_endsWith {name : String} (hname : endsWith name ("@" ++ s) = true) :
    ¬ Plain name := by
  obtain ⟨l, hl⟩ := List.isSuffixOf_iff_suffix.mp hname
  intro hplain
  refine hplain ?_
  rw [← hl]
  simp

/-- The snapshot is at the first of the places that exists. -/
theorem find_places (h : Followed b s t m) (hd : m.lookupSnap d s = some τ)
    (htrim : trimSpace (snapPath d s) = snapPath d s) (recorded : String) :
    ((places m b recorded s).find? (there m)).getD "" = snapPath d s := by
  obtain ⟨honly, B, hB, hcase⟩ := h.follows d τ hd
  have hs := h.short d s τ hd
  have hplain := h.sound.plain_of_snap hd
  have hbplain := h.sound.plain hB
  have hget : m.get b "origin" = .ok (if B.origin = "" then "-" else B.origin) := by
    simp [Mem.get, split_plain hbplain, hB, Mem.getDataset]
  rcases hcase with ⟨horigin, _⟩ | ⟨rfl, _⟩
  · have hends : endsWith (snapPath d s) ("@" ++ s) = true := (endsWith_at hs hs d).mpr rfl
    simp [places, hget, horigin, snapPath_ne_empty, htrim, hends, there_of_snap hplain hd]
  · have hother : there m (snapPath d s) = true := there_of_snap hplain hd
    generalize (if B.origin = "" then "-" else B.origin) = origin at hget
    simp only [places, hget]
    split_ifs with hends
    · -- what ends with the name is the snapshot of that name, if it exists
      rw [List.find?_cons]
      split
      · rename_i hthere
        obtain ⟨e, k, υ, heq, hυ⟩ := there_snap hthere (not_plain_of_endsWith hends)
        rw [heq] at hends
        obtain rfl := (endsWith_at (h.short e k υ hυ) hs e).mp hends
        rw [Option.getD_some, heq, honly e υ hυ]
      · simp [hother]
    · simp [hother]

end Locate

/-- In every run in which no promote takes `s` away from `b` with a clone of another snapshot, the
snapshot that `b` was cloned from is found wherever it is, whatever was recorded. -/
theorem locate_follows (pools : List String) (hpools : ∀ p ∈ pools, '/' ∉ p.toList ∧ Plain p)
    (before : List MachineCall) (hbefore : ∀ c ∈ before, c.Proper ∧ c.Short) (x s b : String)
    (props : FinMap String String) (σ : Snapshot)
    (hbranches : Branches ((Machine.new pools).run before) x s b props σ) (calls : List MachineCall)
    (hcareful : EveryCall (Careful b s)
      (((Machine.new pools).run before).call (.clone (snapPath x s) b props)).2 calls)
    (happart : EveryCall (Memzfs.Apart b s)
      (((Machine.new pools).run before).call (.clone (snapPath x s) b props)).2 calls)
    (w : World)
    (hw : w.mem =
      ((((Machine.new pools).run before).call (.clone (snapPath x s) b props)).2.run calls).mem)
    (d : String) (τ : Snapshot) (hd : w.mem.lookupSnap d s = some τ)
    (htrim : trimSpace (snapPath d s) = snapPath d s) (recorded : String) :
    (locateRawSnapshot b recorded s).run.exec World.handle w = (.ok (snapPath d s), w) ∧
      τ.txg = σ.txg ∧ ∀ d' τ', w.mem.lookupSnap d' s = some τ' → d' = d := by
  have hnew : Sound (Machine.new pools).mem [] := Sound.new hpools
  have hs : Sound ((Machine.new pools).run before).mem [] := hnew.run fun c hc => (hbefore c hc).1
  have hshort : Short ((Machine.new pools).run before).mem := by
    refine Short.run (fun d k τ hτ => ?_) hnew hbefore
    rw [show (Machine.new pools).mem = Mem.new pools from rfl, lookupSnap_new] at hτ
    cases hτ
  have hfollowed := (hbranches.followed hs hshort).run hcareful happart
  rw [← hw] at hfollowed
  rw [locateRawSnapshot_exec, find_places hfollowed hd htrim]
  exact ⟨rfl, hfollowed.taken d τ hd, (hfollowed.follows d τ hd).1⟩

/-- Two snapshots of one transaction group. -/
def pairedPool : List MachineCall :=
  [.createDataset "tank/x" FinMap.empty, .snapshot ["tank/x@s", "tank/x@t"]]

/-- The pool after `tank/b` was cloned from `tank/x@s` and the clones were promoted. -/
def worldAfter (calls : List MachineCall) : World where
  datasets := .empty
  snapshots := .empty
  pools := .empty
  mem :=
    ((((Machine.new ["tank"]).run pairedPool).call (.clone "tank/x@s" "tank/b" FinMap.empty)).2.run
    calls).mem
  clock := 0

theorem branches_paired :
    Branches ((Machine.new ["tank"]).run pairedPool) "tank/x" "s" "tank/b" FinMap.empty
    ⟨"s", 1, FinMap.empty, false⟩ where
  snap := rfl
  only d τ hτ := by
    obtain ⟨D, hD, _⟩ := lookup_of_lookupSnap hτ
    have hkeys := (((Machine.new ["tank"]).run pairedPool).mem.ds.mem_keys d).mpr (by simp [hD])
    change d ∈ ["tank/x", "tank"] at hkeys
    rcases List.mem_pair.mp hkeys with rfl | rfl
    · rfl
    · cases hτ
  fresh := rfl
  plain := by unfold Plain; decide
  ok := rfl

/-- First `tank/b` is promoted, then a clone of a snapshot that this moved. -/
def promotedTwice (snap : String) : List MachineCall :=
  [.promote "tank/b", .clone snap "tank/c" FinMap.empty, .promote "tank/c"]

theorem careful_promotedTwice {snap : String} (hsnap : snap = "tank/b@s" ∨ snap = "tank/b@t") :
    EveryCall (Careful "tank/b" "s")
      (((Machine.new ["tank"]).run pairedPool).call (.clone "tank/x@s" "tank/b" FinMap.empty)).2
      (promotedTwice snap) := by
  have hplain : Plain "tank/c" := by
    unfold Plain
    decide
  rcases hsnap with rfl | rfl
  · exact ⟨⟨trivial, trivial, rfl, by rintro _ ⟨⟩⟩, ⟨hplain, trivial, rfl, by rintro _ ⟨⟩⟩,
      ⟨trivial, trivial, rfl, by rintro _ ⟨⟩⟩, trivial⟩
  · exact ⟨⟨trivial, trivial, rfl, by rintro _ ⟨⟩⟩, ⟨hplain, trivial, rfl, by rintro _ ⟨⟩⟩,
      ⟨trivial, trivial, rfl, by rintro _ ⟨⟩⟩, trivial⟩

/-- A clone of `s` is promoted, and `s` is found on it. -/
theorem locate_follows_promoted :
    ((locateRawSnapshot "tank/b" "tank/x@s" "s").run.exec World.handle
      (worldAfter (promotedTwice "tank/b@s"))).1 = .ok "tank/c@s" := by
  have hpools : ∀ p ∈ ["tank"], '/' ∉ p.toList ∧ Plain p := by
    unfold Plain
    decide
  have hbefore : ∀ c ∈ pairedPool, c.Proper ∧ c.Short := by
    intro c hc
    rcases List.mem_pair.mp hc with rfl | rfl
    · exact ⟨by unfold MachineCall.Proper Plain; decide, trivial⟩
    · exact ⟨trivial, by unfold MachineCall.Short Plain; decide +kernel⟩
  have happart : EveryCall (Memzfs.Apart "tank/b" "s")
      (((Machine.new ["tank"]).run pairedPool).call (.clone "tank/x@s" "tank/b" FinMap.empty)).2
      (promotedTwice "tank/b@s") := by
    refine ⟨?_, ?_, ?_, trivial⟩
    · -- nothing is on `tank/b` yet
      rintro _ ⟨⟩ ⟨C, n, σ, τ, _, _, _, hσ, _⟩
      cases hσ
    · rintro _ ⟨⟩
    · -- the clone is one of `s`
      rintro _ ⟨⟩ ⟨C, n, σ, τ, hC, horigin, hne, _⟩
      obtain rfl := Option.some.inj hC
      have hb : Plain "tank/b" := by
        unfold Plain
        decide
      exact hne (snapPath_inj (n := "s") hb hb horigin).2.symm
  rw [(locate_follows ["tank"] hpools pairedPool hbefore "tank/x" "s" "tank/b" FinMap.empty _
    branches_paired
    (promotedTwice "tank/b@s") (careful_promotedTwice (.inl rfl)) happart
      (worldAfter (promotedTwice "tank/b@s")) rfl
    "tank/c" _ rfl (by decide +kernel) "tank/x@s").1]
  rfl

/-- With a clone of `t` the snapshot `s` goes as well, and `tank/b` points at `t`. -/
theorem locate_lost :
    Branches ((Machine.new ["tank"]).run pairedPool) "tank/x" "s" "tank/b" FinMap.empty
      ⟨"s", 1, FinMap.empty, false⟩ ∧
    EveryCall (Careful "tank/b" "s")
      (((Machine.new ["tank"]).run pairedPool).call (.clone "tank/x@s" "tank/b" FinMap.empty)).2
      (promotedTwice "tank/b@t") ∧
    (worldAfter (promotedTwice "tank/b@t")).mem.lookupSnap "tank/c" "s" =
    some ⟨"s", 1, FinMap.empty, false⟩ ∧
    ((locateRawSnapshot "tank/b" "tank/x@s" "s").run.exec World.handle
      (worldAfter (promotedTwice "tank/b@t"))).1 = .ok "" := by
  refine ⟨branches_paired, careful_promotedTwice (.inr rfl), rfl, ?_⟩
  rw [locateRawSnapshot_exec]
  decide +kernel

end SimpleZfsCsi.Agent
