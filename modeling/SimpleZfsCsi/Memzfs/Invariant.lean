import SimpleZfsCsi.Memzfs.Machine

/-!
# Every run of the in-memory ZFS

A call keeps what is sound, and one that returns an error leaves all datasets and snapshots as they
are, whether it failed by itself or was made to fail.
-/

namespace SimpleZfsCsi.Memzfs

open Library

/-! ## Errors -/

section Errors

variable {m : Mem} {err : Err}

theorem snapshot_error {names : List String} : (m.snapshot names).1 = .error err →
    (m.snapshot names).2 = m := by
  unfold Mem.snapshot
  split_ifs
  · exact fun _ => rfl
  split
  · exact fun _ => rfl
  split
  · exact fun _ => rfl
  simp only
  split_ifs
  · exact fun _ => rfl
  · exact fun _ => rfl
  · intro h
    cases h

theorem clone_error {snap dest : String} {props : FinMap String String} :
    (m.clone snap dest props).1 = .error err → (m.clone snap dest props).2 = m := by
  unfold Mem.clone
  simp only
  split
  · exact fun _ => rfl
  split
  · exact fun _ => rfl
  rename_i src _
  split
  · exact fun _ => rfl
  split
  · exact fun _ => rfl
  cases hresult : (m.create dest src.kind src.volsize props).1 with
  | error e =>
    have hmem := create_error hresult
    rw [← Prod.eta (m.create dest src.kind src.volsize props), hresult]
    exact fun _ => hmem
  | ok _ =>
    rw [← Prod.eta (m.create dest src.kind src.volsize props), hresult]
    intro h
    cases h

theorem promote_error {name : String} : (m.promote name).1 = .error err →
    (m.promote name).2 = m := by
  unfold Mem.promote
  split
  · exact fun _ => rfl
  split_ifs
  · exact fun _ => rfl
  simp only
  split
  · split
    · exact fun _ => rfl
    · intro h
      cases h
  · exact fun _ => rfl

theorem destroy_error {name : String} {recursive : Bool} :
    (m.destroy name recursive).1 = .error err → (m.destroy name recursive).2 = m := by
  unfold Mem.destroy
  simp only
  split
  · split
    · exact fun _ => rfl
    split
    · exact fun _ => rfl
    · intro h
      cases h
  · split
    · exact fun _ => rfl
    split
    · exact fun _ => rfl
    split
    · exact fun _ => rfl
    · intro h
      cases h

theorem destroySnapshotDeferred_error {name : String} :
    (m.destroySnapshotDeferred name).1 = .error err → (m.destroySnapshotDeferred name).2 = m := by
  unfold Mem.destroySnapshotDeferred
  simp only
  split
  · exact fun _ => rfl
  split
  · exact fun _ => rfl
  split
  · intro h
    cases h
  · intro h
    cases h

theorem setProperty_error {name prop value : String} :
    (m.setProperty name prop value).1 = .error err → (m.setProperty name prop value).2 = m := by
  unfold Mem.setProperty
  simp only
  split
  · exact fun _ => rfl
  split_ifs
  · exact fun _ => rfl
  · exact fun _ => rfl
  · exact fun _ => rfl
  · intro h
    cases h
  · exact fun _ => rfl
  all_goals
    intro h
    cases h

end Errors

/-! ## One call -/

/-- A call was made to fail, or did what it does. -/
def Answered (m : Mem) (effect r : Except Err Unit × Mem) : Prop :=
  (∃ err, r = (.error err, m)) ∨ r = effect

section Answered

variable {a : Machine} {m : Mem}

/-- The answer and the datasets. -/
def Machine.seen (r : Except Err Unit × Machine) : Except Err Unit × Mem := (r.1, r.2.mem)

theorem answered_injected {op : Op} {name : String} {wrap : Err → Err}
    {next : Machine → Except Err Unit × Machine}
    {effect : Except Err Unit × Mem}
    (hnext : ∀ inj, Answered a.mem effect (Machine.seen (next { a with inj }))) :
    Answered a.mem effect (Machine.seen (a.injected op name wrap next)) := by
  unfold Machine.injected
  simp only
  split
  · exact .inl ⟨_, rfl⟩
  · exact hnext _

theorem seen_freshen (name : String) (kind : DatasetKind) (r : Except Err Unit × Machine) :
    Machine.seen (Machine.freshen name kind r) = Machine.seen r := by
  unfold Machine.freshen
  split_ifs <;> rfl

theorem seen_destroyNow (a : Machine) (name : String) (recursive : Bool) :
    Machine.seen (a.destroyNow name recursive) = a.mem.destroy name recursive := by
  unfold Machine.destroyNow
  simp only
  split_ifs <;> rfl

theorem answered_create (a : Machine) (name : String) (kind : DatasetKind) (size : Int)
    (props : FinMap String String) :
    Answered a.mem (a.mem.create name kind size props)
      (Machine.seen (a.create name kind size props)) :=
  answered_injected fun _ => .inr (seen_freshen name kind _)

theorem answered_clone (a : Machine) (snap dest : String) (props : FinMap String String) :
    Answered a.mem (a.mem.clone snap dest props) (Machine.seen (a.clone snap dest props)) := by
  unfold Machine.clone
  simp only
  split_ifs
  · exact .inr rfl
  refine answered_injected fun inj => ?_
  simp only
  split
  · exact .inr rfl
  split_ifs
  · exact .inr rfl
  · exact answered_injected (a := { a with inj }) fun _ => .inr (seen_freshen _ _ _)

theorem answered_destroy (a : Machine) (name : String) (recursive : Bool) :
    Answered a.mem (a.mem.destroy name recursive) (Machine.seen (a.destroy name recursive)) := by
  refine answered_injected fun inj => ?_
  split
  · exact .inr rfl
  split
  · exact .inr rfl
  split
  · simp only
    split
    · exact .inl ⟨_, rfl⟩
    · exact .inr (seen_destroyNow _ _ _)
  · exact .inr (seen_destroyNow _ _ _)

theorem answered_call (a : Machine) (c : MachineCall) :
    Answered a.mem (c.apply a.mem) (Machine.seen (a.call c)) := by
  cases c with
  | createDataset name props => exact answered_create ..
  | createZvol name size props =>
    unfold Machine.call Machine.createZvol MachineCall.apply Mem.createZvol
    simp only
    split_ifs
    · exact .inr rfl
    · exact answered_create ..
  | snapshot names =>
    unfold Machine.call Machine.snapshot
    cases names with
    | nil => exact .inr rfl
    | cons first rest =>
      simp only
      split_ifs
      · exact answered_injected fun inj => .inr rfl
      · exact .inr rfl
  | clone snap dest props => exact answered_clone ..
  | promote name =>
    unfold Machine.call Machine.promote
    simp only
    split
    · exact .inr rfl
    split_ifs
    · exact .inr rfl
    · exact answered_injected fun inj => .inr rfl
  | destroy name recursive => exact answered_destroy ..
  | destroySnapshotDeferred name =>
    unfold Machine.call Machine.destroySnapshotDeferred
    simp only
    split_ifs
    · exact answered_injected fun inj => .inr rfl
    · exact .inr rfl
  | setProperty name prop value => exact answered_injected fun inj => .inr rfl
  | inject i => exact .inr rfl
  | busyAfterZvolCreate n => exact .inr rfl

end Answered

/-- A call that was answered with `r` keeps what is sound, and changes nothing if it failed. -/
structure Behaves (m : Mem) (r : Except Err Unit × Mem) : Prop where
  sound : Sound m [] → Sound r.2 []
  error : ∀ err, r.1 = .error err → r.2 = m

theorem behaves_apply {c : MachineCall} (hc : c.Proper) (m : Mem) : Behaves m (c.apply m) := by
  cases c with
  | createDataset name props => exact ⟨fun h => h.create hc .., fun _ => create_error⟩
  | createZvol name size props =>
    refine ⟨fun h => h.createZvol hc .., fun err => ?_⟩
    unfold MachineCall.apply Mem.createZvol
    simp only
    split_ifs
    · exact fun _ => rfl
    · exact create_error
  | snapshot names => exact ⟨fun h => h.snapshot names, fun _ => snapshot_error⟩
  | clone snap dest props => exact ⟨fun h => h.clone snap hc props, fun _ => clone_error⟩
  | promote name => exact ⟨fun h => h.promote name, fun _ => promote_error⟩
  | destroy name recursive => exact ⟨fun h => h.destroy name recursive, fun _ => destroy_error⟩
  | destroySnapshotDeferred name =>
    exact ⟨fun h => h.destroySnapshotDeferred name, fun _ => destroySnapshotDeferred_error⟩
  | setProperty name prop value =>
    exact ⟨fun h => h.setProperty name prop value, fun _ => setProperty_error⟩
  | inject i => exact ⟨id, fun _ _ => rfl⟩
  | busyAfterZvolCreate n => exact ⟨id, fun _ _ => rfl⟩

theorem behaves_call {a : Machine} {c : MachineCall} (hc : c.Proper) :
    Behaves a.mem (Machine.seen (a.call c)) := by
  rcases answered_call a c with ⟨err, hr⟩ | hr
  · rw [hr]
    exact ⟨id, fun _ _ => rfl⟩
  · rw [hr]
    exact behaves_apply hc a.mem

/-! ## Every run -/

theorem lookup_new {pools : List String} {d : String} {D : Dataset}
    (hD : (Mem.new pools).ds.lookup d = some D) :
    d ∈ pools ∧ D = { name := d, kind := .filesystem } := by
  unfold Mem.new at hD
  induction pools with
  | nil => cases hD
  | cons p pools ih =>
    simp only [List.map_cons, FinMap.ofList] at hD
    split_ifs at hD
    · exact (ih hD).imp_left (List.mem_cons_of_mem _)
    · rw [FinMap.lookup_insert] at hD
      split_ifs at hD with hd
      · exact ⟨by simp [hd], by rw [← Option.some_inj.mp hD, hd]⟩
      · exact (ih hD).imp_left (List.mem_cons_of_mem _)

theorem lookupSnap_new (pools : List String) (d n : String) :
    (Mem.new pools).lookupSnap d n = none := by
  cases hD : (Mem.new pools).ds.lookup d with
  | none => simp [Mem.lookupSnap, hD]
  | some D =>
    obtain ⟨_, rfl⟩ := lookup_new hD
    simp [Mem.lookupSnap, hD]

theorem Sound.new {pools : List String} (hpools : ∀ p ∈ pools, '/' ∉ p.toList ∧ Plain p) :
    Sound (Mem.new pools) [] := by
  refine ⟨?_, ?_, ?_, ?_, ?_, ?_⟩
  · exact fun hD => (hpools _ (lookup_new hD).1).2
  · intro d D hD
    obtain ⟨_, rfl⟩ := lookup_new hD
    rfl
  · intro d D hD hparent
    have hslash := (hpools d (lookup_new hD).1).1
    have hdrop : d.toList.reverse.dropWhile (· != '/') = [] := by
      rw [List.dropWhile_eq_nil_iff]
      intro x hx
      simpa using fun heq : x = '/' => hslash (heq ▸ List.mem_reverse.mp hx)
    exact absurd (by simp [parentOf, Text.cutLast, hdrop]) hparent
  · intro d n σ hσ
    rw [lookupSnap_new] at hσ
    cases hσ
  · intro d D hD horigin
    obtain ⟨_, rfl⟩ := lookup_new hD
    exact absurd rfl horigin
  · intro d n σ hσ
    rw [lookupSnap_new] at hσ
    cases hσ

theorem Sound.run {a : Machine} (h : Sound a.mem []) {calls : List MachineCall}
    (hcalls : ∀ c ∈ calls, c.Proper) :
    Sound (a.run calls).mem [] := by
  induction calls generalizing a with
  | nil => exact h
  | cons c calls ih =>
    refine ih ((behaves_call (hcalls c List.mem_cons_self)).sound h) fun c' hc' => ?_
    exact hcalls c' (List.mem_cons_of_mem _ hc')

/-- After every run of calls on a fresh in-memory ZFS, with any failures injected: `Check` succeeds,
every snapshot of a clone is younger than its origin, and a call that returns an error leaves all
datasets and snapshots as they are. -/
theorem machine_invariants (pools : List String) (hpools : ∀ p ∈ pools, '/' ∉ p.toList ∧ Plain p)
    (calls : List MachineCall) (hcalls : ∀ c ∈ calls, c.Proper) :
    ((Machine.new pools).run calls).mem.check = .ok () ∧
    (∀ d D, ((Machine.new pools).run calls).mem.ds.lookup d = some D → D.origin ≠ "" →
      ∃ p n σ, D.origin = snapPath p n ∧
        ((Machine.new pools).run calls).mem.lookupSnap p n = some σ ∧
        ∀ k τ, ((Machine.new pools).run calls).mem.lookupSnap d k = some τ → σ.txg < τ.txg) ∧
    ∀ c : MachineCall, c.Proper → ∀ err, (((Machine.new pools).run calls).call c).1 = .error err →
      (((Machine.new pools).run calls).call c).2.mem = ((Machine.new pools).run calls).mem := by
  have h : Sound ((Machine.new pools).run calls).mem [] :=
    Sound.run (a := Machine.new pools) (Sound.new hpools) hcalls
  exact ⟨h.check, fun d D hD horigin => h.origin hD horigin,
    fun c hc err herr => (behaves_call hc).error err herr⟩

/-- Two snapshots of one transaction group, a clone that is promoted, and a promote that is made to
fail. -/
def promotedPool : List MachineCall :=
  [.createDataset "tank/a" FinMap.empty, .snapshot ["tank/a@s", "tank/a@t"],
    .clone "tank/a@s" "tank/b" FinMap.empty, .inject ⟨.promote, "", some (.other "out of space"),
    1⟩, .promote "tank/b", .promote "tank/b", .destroySnapshotDeferred "tank/b@s"]

theorem machine_invariants_promoted : ((Machine.new ["tank"]).run promotedPool).mem.check = .ok () ∧
    (((Machine.new ["tank"]).run promotedPool).mem.ds.lookup "tank/a").map
    (·.origin) = some "tank/b@s" := by
  have hpools : ∀ p ∈ ["tank"], '/' ∉ p.toList ∧ Plain p := by
    unfold Plain
    decide
  have hcalls : ∀ c ∈ promotedPool, c.Proper := by
    simp [promotedPool, MachineCall.Proper, Plain]
  exact ⟨(machine_invariants ["tank"] hpools promotedPool hcalls).1, by decide +kernel⟩

end SimpleZfsCsi.Memzfs
