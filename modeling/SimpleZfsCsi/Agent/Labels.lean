import SimpleZfsCsi.Agent.Names
import SimpleZfsCsi.Memzfs.Labels

/-!
# Labels that are an object's own

`EnsureLabels` reads a label and sets it where the value is another one. What it reads may come from
an ancestor, and then the object is left without a label of its own.
-/

namespace SimpleZfsCsi.Agent

open Library Api Memzfs Program

/-- Whatever happens later, the labels of an object are its own if `EnsureLabels` returns no error.
It goes through the labels in any order. -/
def LabelsStay (w : World) (name role owner : String) : Prop :=
  ∀ props, props.Perm (labelProps role owner) → ∀ l t,
    Runs World.handle AgentCall.fails (fun _ => Eq) (ensureProps name props).run w l
      (some (.ok ())) t →
    ∀ m name', Later t.mem name m name' → ∀ p ∈ props, m.localValue name' p.1 = some p.2 ∧
      m.get name' p.1 = .ok p.2

/-- A label that an object answers for is its own. -/
def AnswersOwn (m : Mem) (name : String) (p : String × String) : Prop :=
  ∀ got, m.get name p.1 = .ok got → Text.trimSpace got = p.2 → m.localValue name p.1 = some p.2

section Ensure

variable {w : World} {name : String} {props : Props}

/-- What setting a label leaves of the others. -/
theorem AnswersOwn.set {p q : String × String} (hw : Proper w.mem) (hq : Mem.isUser q.1 = true)
    (hne : q.1 ≠ p.1)
    (hset : w.mem.SetTo (w.mem.setProperty name p.1 p.2).2 name p.1 p.2)
    (h : AnswersOwn w.mem name q) :
    AnswersOwn (w.mem.setProperty name p.1 p.2).2 name q := by
  intro got hgot htrim
  rw [hset.get_other hne hq hw.plain] at hgot
  rw [hset.values, if_neg fun hsame => hne hsame.2]
  exact h got hgot htrim

theorem ensureProps_wp (hw : Proper w.mem) (huser : ∀ p ∈ props, Mem.isUser p.1 = true)
    (hnodup : (props.map Prod.fst).Nodup) (hown : ∀ p ∈ props, AnswersOwn w.mem name p) :
    (ensureProps name props).run.wp World.handle AgentCall.fails (fun _ => Eq)
      (fun _ _ _ => True) (fun r t =>
      Proper t.mem ∧
        (∀ q, q ∉ props.map Prod.fst → t.mem.localValue name q = w.mem.localValue name q) ∧
      (r = .ok () → ∀ p ∈ props, t.mem.localValue name p.1 = some p.2)) w := by
  induction props generalizing w with
  | nil => exact ⟨hw, fun _ _ => rfl, fun _ => by simp⟩
  | cons p rest ih =>
    obtain ⟨hfirst, hrest⟩ := List.nodup_cons.mp hnodup
    obtain ⟨huserp, huserrest⟩ := List.forall_mem_cons.mp huser
    obtain ⟨hownp, hownrest⟩ := List.forall_mem_cons.mp hown
    have hstop (err : Err) : Proper w.mem ∧ (∀ q, q ∉ (p :: rest).map Prod.fst →
        w.mem.localValue name q = w.mem.localValue name q) ∧
        ((.error err : Except Err Unit) = .ok () → ∀ p' ∈ p ::
          rest, w.mem.localValue name p'.1 = some p'.2) :=
      ⟨hw, fun _ _ => rfl, fun h => by cases h⟩
    -- the rest of the labels, once the first one is the object's own
    have hgo {v : World} (hv : Proper v.mem) (hownv : ∀ p ∈ rest, AnswersOwn v.mem name p)
        (hvalue : v.mem.localValue name p.1 = some p.2)
        (hothers : ∀ q, q ≠ p.1 → v.mem.localValue name q = w.mem.localValue name q) :
        (ensureProps name rest).run.wp World.handle AgentCall.fails (fun _ => Eq)
          (fun _ _ _ => True) (fun r t =>
          Proper t.mem ∧ (∀ q, q ∉ (p :: rest).map Prod.fst →
            t.mem.localValue name q = w.mem.localValue name q) ∧
          (r = .ok () → ∀ p' ∈ p :: rest, t.mem.localValue name p'.1 = some p'.2)) v := by
      refine wp_mono ?_ (ih hv huserrest hrest hownv)
      rintro r t ⟨ht, hkept, hall⟩
      refine ⟨ht, fun q hq => ?_,
        fun hr => List.forall_mem_cons.mpr ⟨(hkept p.1 hfirst).trans hvalue, hall hr⟩⟩
      rw [List.map_cons, List.mem_cons, not_or] at hq
      exact (hkept q hq.2).trans (hothers q hq.1)
    rw [ensureProps]
    refine Proc.ask_wp fun t ht => ?_
    obtain rfl := ht
    refine ⟨trivial, fun got hgot => ?_, fun err _ => hstop err, ?_⟩
    · split_ifs with htrim
      · exact hgo hw hownrest (hownp got hgot htrim) fun _ _ => rfl
      · refine Proc.ask_wp fun t ht => ?_
        obtain rfl := ht
        refine ⟨trivial, fun _ hok => ?_, fun err herr => ?_, ?_⟩
        · rcases Mem.setProperty_cases w.mem name p.1 p.2 with ⟨err, herr⟩ | ⟨-, hset⟩
          · simp [World.handle, herr] at hok
          · refine hgo (hw.setProperty _ _ _) (fun q hq => ?_) ?_ fun q hq => ?_
            · have hne : q.1 ≠ p.1 := fun heq => hfirst (heq ▸ List.mem_map_of_mem hq)
              exact (hownrest q hq).set hw (huserrest q hq) hne hset
            · exact (hset.values _ _).trans (by simp)
            · exact (hset.values _ _).trans (if_neg fun hsame => hq hsame.2)
        · have hsame :
              (World.handle (.setProperty name p.1 p.2) (World.handle (.get name p.1) w).2).2 =
              w := by
            rcases Mem.setProperty_cases w.mem name p.1 p.2 with ⟨e, he⟩ | ⟨hok, -⟩
            · simp [World.handle, he]
            · simp [World.handle, hok] at herr
          rw [hsame]
          exact hstop err
        · rintro r ⟨msg, rfl⟩
          exact hstop _
    · rintro r ⟨msg, rfl⟩
      exact hstop _

/-- Running alone on an object that exists, `EnsureLabels` returns no error and leaves a label that
is answered for. -/
theorem ensureProps_exec (hw : Proper w.mem) (huser : ∀ p ∈ props, Mem.isUser p.1 = true)
    (hnodup : (props.map Prod.fst).Nodup)
    (hexists : ∀ p ∈ props, ∃ got, w.mem.get name p.1 = .ok got) :
    ((ensureProps name props).run.exec World.handle w).1 = .ok () ∧
    (∀ q, q ∉ props.map Prod.fst →
      ((ensureProps name props).run.exec World.handle w).2.mem.localValue name q =
      w.mem.localValue name q) ∧
    ∀ p ∈ props, ∀ got, w.mem.get name p.1 = .ok got → Text.trimSpace got = p.2 →
      ((ensureProps name props).run.exec World.handle w).2.mem.localValue name p.1 =
        w.mem.localValue name p.1 := by
  induction props generalizing w with
  | nil => exact ⟨rfl, fun _ _ => rfl, by simp⟩
  | cons p rest ih =>
    obtain ⟨hfirst, hrest⟩ := List.nodup_cons.mp hnodup
    obtain ⟨huserp, huserrest⟩ := List.forall_mem_cons.mp huser
    obtain ⟨⟨got, hgot⟩, hexistsrest⟩ := List.forall_mem_cons.mp hexists
    have hget : (ask (.get name p.1)).run.exec World.handle w = (.ok got, w) := by
      simp [ask, World.handle, hgot, Except.mapError]
    have hne {q : String × String} (hq : q ∈ rest) : q.1 ≠ p.1 :=
      fun heq => hfirst (heq ▸ List.mem_map_of_mem hq)
    rw [ensureProps, Proc.exec_bind hget]
    split_ifs with htrim
    · obtain ⟨hok, hkept, hall⟩ := ih hw huserrest hrest hexistsrest
      refine ⟨hok, fun q hq => hkept q fun hmem => hq (List.mem_cons_of_mem _ hmem), ?_⟩
      exact List.forall_mem_cons.mpr ⟨fun _ _ _ => hkept p.1 hfirst, hall⟩
    · rcases Mem.setProperty_cases w.mem name p.1 p.2 with ⟨err, herr⟩ | ⟨hok, hset⟩
      · have hok := Mem.setProperty_ok huserp hgot p.2
        rw [herr] at hok
        cases hok
      have hdone : (ask (.setProperty name p.1 p.2)).run.exec World.handle w =
          (.ok (), { w with mem := (w.mem.setProperty name p.1 p.2).2 }) := by
        simp [ask, World.handle, hok, Except.mapError]
      have hother {q : String} (hq : q ≠ p.1) :
          (w.mem.setProperty name p.1 p.2).2.localValue name q = w.mem.localValue name q :=
        (hset.values _ _).trans (if_neg fun hsame => hq hsame.2)
      have hsame {q : String × String} (hq : q ∈ rest) :
          (w.mem.setProperty name p.1 p.2).2.get name q.1 = w.mem.get name q.1 :=
        hset.get_other (hne hq) (huserrest q hq) hw.plain
      obtain ⟨hok', hkept, hall⟩ := ih (w := { w with mem := (w.mem.setProperty name p.1 p.2).2 })
        (hw.setProperty _ _ _) huserrest hrest fun q hq => by
          simpa only [hsame hq] using hexistsrest q hq
      rw [Proc.exec_bind hdone]
      refine ⟨hok', fun q hq => ?_,
        List.forall_mem_cons.mpr ⟨fun got' hgot' htrim' => ?_, fun q hq got' hgot' htrim' => ?_⟩⟩
      · rw [List.map_cons, List.mem_cons, not_or] at hq
        exact (hkept q hq.2).trans (hother hq.1)
      · rw [hgot] at hgot'
        cases hgot'
        exact absurd htrim' htrim
      · exact (hall q hq got' ((hsame hq).trans hgot') htrim').trans (hother (hne hq))

theorem labelProps_user {role owner : String} :
    ∀ p ∈ labelProps role owner, Mem.isUser p.1 = true := by
  intro p hp
  have hrole : Mem.isUser propRole = true := by decide +kernel
  have howner : Mem.isUser propOwner = true := by decide +kernel
  unfold labelProps at hp
  split_ifs at hp <;> simp_all
  rcases hp with rfl | rfl <;> assumption

theorem labelProps_nodup (role owner : String) : ((labelProps role owner).map Prod.fst).Nodup := by
  unfold labelProps
  split_ifs <;> simp [propRole, propOwner]

end Ensure

/-- The labels of an object are its own and stay so just if no label that it answers for comes from
an ancestor. -/
theorem labelsStay_iff {w : World} (hw : Proper w.mem) (name role : String) {owner : String}
    (howner : owner ≠ "") :
    LabelsStay w name role owner ↔ AnswersOwn w.mem name (propRole, role) ∧
      AnswersOwn w.mem name (propOwner, owner) := by
  have hprops : ∀ p, p ∈ labelProps role owner ↔ p = (propRole, role) ∨ p = (propOwner, owner) := by
    simp [labelProps, howner]
  constructor
  · intro hstay
    have hall : ∀ p ∈ labelProps role owner, AnswersOwn w.mem name p := by
      intro p hp got hgot htrim
      have hexists : ∀ q ∈ labelProps role owner, ∃ got, w.mem.get name q.1 = .ok got := fun q hq =>
        Mem.get_ok_of_user (labelProps_user p hp) (labelProps_user q hq) hgot
      have hexec := ensureProps_exec hw labelProps_user (labelProps_nodup role owner) hexists
      have hruns : Runs World.handle AgentCall.fails (fun _ => Eq) _ w _ _ _ :=
        Runs.exec (fun _ _ => rfl) (ensureProps name (labelProps role owner)).run w
      rw [hexec.1] at hruns
      rw [← hexec.2.2 p hp got hgot htrim]
      exact (hstay _ (.refl _) _ _ hruns _ _ .refl p hp).1
    exact ⟨hall _ ((hprops _).mpr (.inl rfl)), hall _ ((hprops _).mpr (.inr rfl))⟩
  · rintro ⟨hrole, hown⟩ props hperm l t hr m name' hlater p hp
    have hall : ∀ p ∈ props, AnswersOwn w.mem name p := by
      intro p hp
      rcases (hprops p).mp (hperm.subset hp) with rfl | rfl
      · exact hrole
      · exact hown
    have huser : ∀ p ∈ props, Mem.isUser p.1 = true :=
      fun p hp => labelProps_user p (hperm.subset hp)
    have hnodup : (props.map Prod.fst).Nodup :=
      (hperm.map _).nodup_iff.mpr (labelProps_nodup role owner)
    obtain ⟨ht, -, hvalues⟩ := (wp_runs (ensureProps_wp hw huser hnodup hall) hr).2 _ rfl
    obtain ⟨hm, hvalue⟩ := hlater.localValue ht (hvalues rfl p hp)
    exact ⟨hvalue, Mem.get_of_localValue hm.root (huser p hp) hvalue⟩

/-- A volume and another one below it, which has no labels yet. -/
def nested : List MachineCall :=
  [.createDataset "tank/a" (FinMap.ofList [(propRole, "volume"), (propOwner, "1")]),
    .createDataset "tank/a/b" FinMap.empty, .snapshot ["tank/a@s"],
    .clone "tank/a@s" "tank/c" FinMap.empty]

def nestedWorld : World where
  datasets := Store.empty
  snapshots := Store.empty
  pools := Store.empty
  mem := ((Machine.new ["tank"]).run nested).mem
  clock := 0

theorem nested_proper : Proper nestedWorld.mem := by
  refine Proper.run (Proper.new ?_) ?_
  · unfold Plain
    decide
  · simp [nested, MachineCall.Proper, Plain]

theorem labelsStay_raw : LabelsStay nestedWorld "tank/a@s" "raw" "7" := by
  refine (labelsStay_iff nested_proper "tank/a@s" "raw" (by decide)).mpr ⟨?_, ?_⟩
  · intro got hgot htrim
    have hrole : nestedWorld.mem.get "tank/a@s" propRole = .ok "volume" := by decide +kernel
    obtain rfl := Except.ok.inj (hrole.symm.trans hgot)
    revert htrim
    decide +kernel
  · intro got hgot htrim
    have howner : nestedWorld.mem.get "tank/a@s" propOwner = .ok "1" := by decide +kernel
    obtain rfl := Except.ok.inj (howner.symm.trans hgot)
    revert htrim
    decide +kernel

/-- The volume below, after its labels were seen to. -/
def labelledNested : Except Err Unit × World :=
  (ensureLabels "tank/a/b" "volume" "2").run.exec World.handle nestedWorld

/-- The role of the volume above is read as that of the one below, which gets none. -/
theorem role_inherited : Proper nestedWorld.mem ∧ labelledNested.1 = .ok () ∧
    labelledNested.2.mem.localValue "tank/a/b" propRole = none ∧
    (labelledNested.2.mem.setProperty "tank/a" propRole "backing").2.get "tank/a/b" propRole =
    .ok "backing" ∧
    ¬ LabelsStay nestedWorld "tank/a/b" "volume" "2" := by
  have hok : labelledNested.1 = .ok () := by decide +kernel
  have hnone : labelledNested.2.mem.localValue "tank/a/b" propRole = none := by decide +kernel
  refine ⟨nested_proper, hok, hnone, by decide +kernel, fun hstay => ?_⟩
  have hruns : Runs World.handle AgentCall.fails (fun _ => Eq) _ nestedWorld _
      (some labelledNested.1) labelledNested.2 :=
    Runs.exec (fun _ _ => rfl) (ensureProps "tank/a/b" (labelProps "volume" "2")).run nestedWorld
  rw [hok] at hruns
  have hlocal := (hstay _ (.refl _) _ _ hruns _ _ .refl (propRole, "volume") (by decide)).1
  rw [hnone] at hlocal
  cases hlocal

end SimpleZfsCsi.Agent
