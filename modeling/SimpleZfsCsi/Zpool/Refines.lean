import SimpleZfsCsi.Library.Layered
import SimpleZfsCsi.Memzfs.Invariant
import SimpleZfsCsi.Zpool.Zfs

/-!
# The command line refines the in-memory ZFS

A program of the agent runs with `CLI` on a lawful `zfs` as it runs on the in-memory ZFS. Between
any two commands others may change the objects at the API server, and the program may be cut short.
The in-memory ZFS has more runs in four respects. It may let a call fail where `zfs` does not, the
value of a native property that it does not know is left open, it lists clones in any order, and it
may report a promote as failed that it has done: so does `CLI` when it cannot read the
origin after it.
-/

namespace SimpleZfsCsi.Zpool

open Library Api Agent Memzfs Text Program

/-! ## The two worlds -/

/-- The objects at the API server and the clock. -/
abbrev ApiState :=
  Store ZfsDatasetSpec ZfsDatasetStatus × Store ZfsSnapshotSpec ZfsSnapshotStatus × Store Unit
    ZfsPoolStatus × Nat

def apiState (w : World) : ApiState := (w.datasets, w.snapshots, w.pools, w.clock)

/-- The API server, whose in-memory ZFS is not used, and the pools of the host. -/
structure CliWorld (σ : Type) where
  api : World
  pool : σ

def CliWorld.handle {σ : Type} (Z : Zfs σ) : (c : CliCall) → CliWorld σ → c.Ret × CliWorld σ
  | .command c, s => ((Z.run c s.pool).1, { s with pool := (Z.run c s.pool).2 })
  | .api e, s => ((World.handle e s.api).1, { s with api := (World.handle e s.api).2 })

/-- A command fails only as `zfs` lets it fail. -/
def CliCall.fails : (c : CliCall) → c.Ret → Prop
  | .command _, _ => False
  | .api e, r => AgentCall.fails e r

/-- What is left open about the next call: the order in which clones are listed, and the message of
a promote that is done and yet reported as failed. -/
structure Chance where
  order : List String → List String
  perm : ∀ names, (order names).Perm names
  lost : Option String

/-- The in-memory ZFS itself. -/
def Chance.usual : Chance := ⟨id, fun _ => .refl _, none⟩

/-- Clones are listed in this order in place of that one. -/
def Chance.listed {names l : List String} (h : names.Perm l) : Chance where
  order x := if x = l then names else x
  perm x := by
    split_ifs with hx
    · exact hx ▸ h
    · exact .refl _
  lost := none

/-- A promote is reported with this message. -/
def Chance.reported (message : String) : Chance := { Chance.usual with lost := some message }

/-- What a promote returns that came to `r`. -/
def Chance.told (c : Chance) (r : Except Err Unit) : Except Err Unit :=
  match c.lost with
  | none => r
  | some message => .error (.other message)

/-- The world with the in-memory ZFS, and what its next call comes to. -/
structure OpenWorld where
  world : World
  chance : Chance := .usual

/-- The in-memory ZFS that shows the pools of the host. -/
def CliWorld.abs {σ : Type} (Z : Zfs σ) (s : CliWorld σ) : OpenWorld where
  world := { s.api with mem := Z.mem s.pool }

/-- A map has no order: the in-memory ZFS is given the properties by their keys. -/
def handleByKey : (e : AgentCall) → World → e.Ret × World
  | .createDataset name props, w => World.handle (.createDataset name (byKey props)) w
  | .createZvol name size props, w => World.handle (.createZvol name size (byKey props)) w
  | .clone snap dest props, w => World.handle (.clone snap dest (byKey props)) w
  | e, w => World.handle e w

/-- What the in-memory ZFS does, with what is left open. -/
def handleOpen : (e : AgentCall) → OpenWorld → e.Ret × OpenWorld
  | .clones snap, w => ((w.world.mem.clones snap).map w.chance.order, ⟨w.world, .usual⟩)
  | .promote name, w =>
    (w.chance.told (w.world.mem.promote name).1,
      ⟨{ w.world with mem := (w.world.mem.promote name).2 }, .usual⟩)
  | e, w => ((handleByKey e w.world).1, ⟨(handleByKey e w.world).2, .usual⟩)

/-- The answers that are left open: a call may fail, and native properties have any value. -/
def leftOpen : (e : AgentCall) → e.Ret → Prop
  | .get name prop, r =>
    AgentCall.fails (.get name prop) r ∨ (modelled name prop = false ∧ ∃ v, r = .ok v)
  | e, r => AgentCall.fails e r

section Meets

variable {σ : Type} {z : CLI} {Z : Zfs σ} {R : ApiState → ApiState → Prop}

/-- Before the next command others change the objects within `R`. -/
def relyBelow (R : ApiState → ApiState → Prop) (_ : CliCall) (s t : CliWorld σ) : Prop :=
  t.pool = s.pool ∧ R (apiState s.api) (apiState t.api)

/-- Before the next call others change the objects within `R`, and what is left open is chosen. -/
def relyAbove (R : ApiState → ApiState → Prop) (_ : AgentCall) (s t : OpenWorld) : Prop :=
  t.world.mem = s.world.mem ∧ R (apiState s.world) (apiState t.world)

/-- Others may have changed the objects, but the pools show as `m`. -/
structure Shows (Z : Zfs σ) (R : ApiState → ApiState → Prop) (s : CliWorld σ) (m : Mem)
    (t : CliWorld σ) : Prop where
  api : R (apiState s.api) (apiState t.api)
  mem : Z.mem t.pool = m

theorem Shows.next (trans : ∀ a b c, R a b → R b c → R a c) {s t u : CliWorld σ} {m m' : Mem}
    (h : Shows Z R s m t)
    (hu : Shows Z R t m' u) : Shows Z R s m' u := ⟨trans _ _ _ h.api hu.api, hu.mem⟩

/-- At any point of an operation it has been done, or nothing has. -/
def Between (Z : Zfs σ) (R : ApiState → ApiState → Prop) (s : CliWorld σ) (m' : Mem)
    (t : CliWorld σ) : Prop :=
  Shows Z R s (Z.mem s.pool) t ∨ Shows Z R s m' t

/-- The program does from `s` what `f` does, or nothing with an answer that is left open. -/
def Meets {α : Type} (Z : Zfs σ) (R : ApiState → ApiState → Prop) (p : CliProc α)
    (f : Mem → Except Err α × Mem)
    (loose : Except Err α → Prop) (s : CliWorld σ) : Prop :=
  p.run.wp (CliWorld.handle Z) CliCall.fails (relyBelow R)
    (fun _ _ t => Between Z R s (f (Z.mem s.pool)).2 t)
    (fun r t => (r = (f (Z.mem s.pool)).1 ∧ Shows Z R s (f (Z.mem s.pool)).2 t) ∨
      (loose r ∧ Shows Z R s (Z.mem s.pool) t)) s

/-- Any error that the agent does not look at. -/
def Other {α : Type} (r : Except Err α) : Prop := ∃ msg, r = .error (.other msg)

/-- The rule for a command. -/
theorem execRunner_wp {c : Command} {G : CliWorld σ → Prop}
    {Q : Except Err String → CliWorld σ → Prop}
    {s : CliWorld σ} (h : ∀ t : CliWorld σ, R (apiState s.api) (apiState t.api) →
      t.pool = (Z.run c s.pool).2 → G t ∧
        Q ((Z.run c s.pool).1.mapError fun f => .other (c.line ++ ": " ++ f.text)) t) :
    (execRunner c).run.wp (CliWorld.handle Z) CliCall.fails (relyBelow R)
      (fun _ _ t => G t) Q s := by
  rintro ⟨api, pool⟩ ⟨hpool, hR⟩
  obtain rfl : pool = s.pool := hpool
  obtain ⟨hG, hQ⟩ := h ⟨api, (Z.run c s.pool).2⟩ hR rfl
  exact ⟨hG, hQ, fun r hr => hr.elim⟩

/-! ## Operations that run one command -/

theorem saysMissing_line {line : String} (h : silent line = true) (text : String) :
    saysMissing (line ++ ": " ++ text) = saysMissing text := by
  simp only [silent, saysMissing, Bool.and_eq_true, Bool.not_eq_true', Bool.or_eq_false_iff] at h ⊢
  rw [contains_colon (by decide) (by decide), contains_colon (by decide) (by decide), h.1.1, h.1.2]
  rfl

theorem saysPresent_line {line : String} (h : silent line = true) (text : String) :
    saysPresent (line ++ ": " ++ text) = saysPresent text := by
  simp only [silent, saysPresent, Bool.and_eq_true, Bool.not_eq_true'] at h ⊢
  rw [contains_colon (by decide) (by decide), h.2]
  rfl

variable {α : Type} {p : CliProc α} {f : Mem → Except Err α × Mem} {loose : Except Err α → Prop}
    {s : CliWorld σ}

/-- An operation that is refused before anything is run. -/
theorem meets_throw (refl : ∀ a, R a a) {err : Err} (h : loose (.error err)) :
    Meets Z R (throw err) f loose s :=
  .inr ⟨h, refl _, rfl⟩

/-- An operation that runs one command and returns what `g` makes of it. -/
theorem meets_command {c : Command} {g : Except Err String → Except Err α}
    (hp : p.run = (execRunner c).run.bind fun r => .pure (g r))
    (h : (∃ out, Z.Prints c s.pool out (f (Z.mem s.pool)).2 ∧ g (.ok out) = (f (Z.mem s.pool)).1) ∨
      (∃ out, Z.Prints c s.pool out (Z.mem s.pool) ∧ loose (g (.ok out))) ∨
      Z.Refuses c s.pool fun text =>
        (g (.error (.other (c.line ++ ": " ++ text))) = (f (Z.mem s.pool)).1 ∧
          (f (Z.mem s.pool)).2 = Z.mem s.pool) ∨
          loose (g (.error (.other (c.line ++ ": " ++ text))))) :
    Meets Z R p f loose s := by
  unfold Meets
  rw [hp]
  refine Program.wp_bind (execRunner_wp fun t hR hpool => ?_)
  obtain ⟨out, ⟨hout, hmem⟩, hg⟩ | ⟨out, ⟨hout, hmem⟩, hloose⟩ | ⟨fail, hfail, htext, hmem⟩ := h
  · have ht : Shows Z R s (f (Z.mem s.pool)).2 t := ⟨hR, by rw [hpool, hmem]⟩
    rw [hout]
    exact ⟨.inr ht, .inl ⟨hg, ht⟩⟩
  · have ht : Shows Z R s (Z.mem s.pool) t := ⟨hR, by rw [hpool, hmem]⟩
    rw [hout]
    exact ⟨.inl ht, .inr ⟨hloose, ht⟩⟩
  · have ht : Shows Z R s (Z.mem s.pool) t := ⟨hR, by rw [hpool, hmem]⟩
    rw [hfail]
    refine ⟨.inl ht, ?_⟩
    rcases htext with ⟨hg, hsame⟩ | hloose
    · exact .inl ⟨hg, hsame.symm ▸ ht⟩
    · exact .inr ⟨hloose, ht⟩

/-- A command that changes something, all of whose errors are returned. -/
theorem meets_acts {args : List String} {f : Mem → Except Err Unit × Mem} {s : CliWorld σ}
    (h : Z.Acts (z.zfs args) s.pool (f (Z.mem s.pool)) fun _ => True) :
    Meets Z R (do let _ ← z.run args) f Other s := by
  refine meets_command (c := z.zfs args) (g := fun r => r.map fun _ => ()) ?_ ?_
  · rw [Proc.run_bind]
    congr 1
    funext r
    cases r <;> rfl
  · rcases h with ⟨hok, out, hprints⟩ | hrefuses
    · exact .inl ⟨out, hprints, hok.symm⟩
    · obtain ⟨fail, hfail, _, hmem⟩ := hrefuses
      exact .inr (.inr ⟨fail, hfail, .inr ⟨_, rfl⟩, hmem⟩)

theorem Zfs.Fails.missing {c : Command} {s : σ} (h : Z.Fails c s) :
    Z.Refuses c s fun text => saysMissing text = false := by
  obtain ⟨fail, hfail, hsilent, hmem⟩ := h
  simp only [silent, Bool.and_eq_true, Bool.not_eq_true'] at hsilent
  exact ⟨fail, hfail, hsilent.1, hmem⟩

theorem Zfs.Fails.present {c : Command} {s : σ} (h : Z.Fails c s) :
    Z.Refuses c s fun text => saysPresent text = false := by
  obtain ⟨fail, hfail, hsilent, hmem⟩ := h
  simp only [silent, Bool.and_eq_true, Bool.not_eq_true'] at hsilent
  exact ⟨fail, hfail, hsilent.2, hmem⟩

/-- What an operation returns that takes the errors that are `told` for success. -/
def unlessTold (told : Err → Bool) : Except Err String → Except Err Unit
  | .ok _ => .ok ()
  | .error err => if told err then .ok () else .error err

/-- A command that changes something, some of whose errors say that there was nothing to do. -/
theorem meets_told {c : Command} {p : CliProc Unit} (told : Err → Bool) (phrase : String → Bool)
    {f : Mem → Except Err Unit × Mem} {s : CliWorld σ}
    (hp : p.run = (execRunner c).run.bind fun r => .pure (unlessTold told r))
    (htold : ∀ text, told (.other (c.line ++ ": " ++ text)) = phrase text)
    (h : Z.Acts c s.pool (f (Z.mem s.pool)) (fun text => phrase text = false) ∨
      (f (Z.mem s.pool) = (.ok (), Z.mem s.pool) ∧
        (Z.Refuses c s.pool (fun text => phrase text = true) ∨
          Z.Refuses c s.pool fun text => phrase text = false))) :
    Meets Z R p f Other s := by
  refine meets_command hp ?_
  have hfails : Z.Refuses c s.pool (fun text => phrase text = false) →
      Z.Refuses c s.pool fun text =>
      (unlessTold told (.error (.other (c.line ++ ": " ++ text))) = (f (Z.mem s.pool)).1 ∧
        (f (Z.mem s.pool)).2 = Z.mem s.pool) ∨
          Other (unlessTold told (.error (.other (c.line ++ ": " ++ text)))) := by
    rintro ⟨fail, hfail, hsays, hmem⟩
    refine ⟨fail, hfail, .inr ⟨c.line ++ ": " ++ fail.text, ?_⟩, hmem⟩
    simp only [unlessTold, htold, hsays, Bool.false_eq_true, if_false]
  rcases h with (⟨hok, out, hprints⟩ | hrefuses) | ⟨hdone, hrefuses | hrefuses⟩
  · exact .inl ⟨out, hprints, hok.symm⟩
  · exact .inr (.inr (hfails hrefuses))
  · obtain ⟨fail, hfail, hsays, hmem⟩ := hrefuses
    refine .inr (.inr ⟨fail, hfail, .inl ⟨?_, by rw [hdone]⟩, hmem⟩)
    simp only [unlessTold, htold, hsays, if_true, hdone]
  · exact .inr (.inr (hfails hrefuses))

theorem run_told {args : List String} {told : Err → Bool} :
    (do
      match ← (z.run args).outcome with
      | .ok _ => return ()
      | .error err => if told err then return () else throw err : CliProc Unit).run =
    (execRunner (z.zfs args)).run.bind fun r => .pure (unlessTold told r) := by
  rw [Proc.run_bind, Proc.run_outcome, bind_assoc]
  congr 1
  funext r
  cases r with
  | ok out => rfl
  | error err =>
    simp only [pure_bind, unlessTold]
    split_ifs <;> rfl

/-- What an operation returns that reads what is printed about `name`. -/
def readAs {β : Type} (name : String) (parse : String → β) : Except Err String → Except Err β
  | .ok out => .ok (parse out)
  | .error err => if isNotExist err then .error (.notExist name) else .error err

theorem run_readAs {β : Type} {args : List String} {name : String} {parse : String → β} :
    (do
      match ← (z.run args).outcome with
      | .ok out => return parse out
      | .error err => if isNotExist err then throw (.notExist name) else throw err :
        CliProc β).run =
    (execRunner (z.zfs args)).run.bind fun r => .pure (readAs name parse r) := by
  rw [Proc.run_bind, Proc.run_outcome, bind_assoc]
  congr 1
  funext r
  cases r with
  | ok out => rfl
  | error err =>
    simp only [pure_bind, readAs]
    split_ifs <;> rfl

theorem readAs_missing {β : Type} {line name text : String} {parse : String → β}
    (hline : silent line = true)
    (h : saysMissing text = true) : readAs name parse (.error (.other (line ++ ": " ++ text))) =
    .error (.notExist name) := by
  have htold : isNotExist (.other (line ++ ": " ++ text)) = true :=
    (saysMissing_line hline text).trans h
  simp only [readAs, htold, if_true]

theorem readAs_failed {β : Type} {line name text : String} {parse : String → β}
    (hline : silent line = true)
    (h : silent text = true) :
    readAs name parse (.error (.other (line ++ ": " ++ text))) =
      .error (.other (line ++ ": " ++ text)) := by
  have hmissing : saysMissing text = false := by
    simp only [silent, Bool.and_eq_true, Bool.not_eq_true'] at h
    exact h.1
  have htold : isNotExist (.other (line ++ ": " ++ text)) = false :=
    (saysMissing_line hline text).trans hmissing
  simp only [readAs, htold, Bool.false_eq_true, if_false]

/-- `Clones` reads back what is listed. -/
theorem read_clones {names : List String} {value : String} (hnames : ∀ n ∈ names, Printable n)
    (h : ListsClones names value) : Trimmed value ∧
      (if value = "" ∨ value = "-" then (Pure.pure [] : CliProc (List String))
      else Pure.pure (((Text.split ',' value).map trimSpace).filter (· ≠ ""))) =
        Pure.pure names := by
  cases names with
  | nil =>
    obtain rfl | rfl : value = "" ∨ value = "-" := h.imp id (·.2)
    · exact ⟨by decide +kernel, rfl⟩
    · exact ⟨by decide +kernel, rfl⟩
  | cons n rest =>
    obtain ⟨htrim, hempty, hdash, hread⟩ := read_list hnames (List.cons_ne_nil n rest)
    obtain rfl : value = join "," (n :: rest) := h.resolve_right fun h => by cases h.1
    rw [if_neg (by simp [hempty, hdash]), hread]
    exact ⟨htrim, rfl⟩

/-! ## What is there -/

section There

variable {m : Mem} {name snap dest : String}

theorem contains_at : Plain name ↔ contains name "@" = false := by
  have hlist : "@".toList = ['@'] := rfl
  rw [Plain, contains, decide_eq_false_iff_not, hlist, List.singleton_infix_iff]

theorem modelled_type (name : String) : modelled name "type" = true := by simp [modelled]

theorem modelled_origin (hname : Plain name) : modelled name "origin" = true := by
  simp [modelled, contains_at.mp hname]

theorem get_error_eq {prop : String} {err : Err} (h : m.get name prop = .error err) :
    err = .notExist name := by
  unfold Mem.get at h
  simp only at h
  split at h
  · exact (Except.error.inj h).symm
  split_ifs at h
  split at h
  · exact (Except.error.inj h).symm
  · cases h

theorem clones_error_eq (hsnap : ¬ Plain snap) {err : Err} (h : m.clones snap = .error err) :
    err = .notExist snap := by
  unfold Mem.clones at h
  simp only [split_of_not_plain hsnap, Bool.not_true, Bool.false_eq_true, if_false] at h
  split at h
  · exact (Except.error.inj h).symm
  · cases h

theorem clones_ok {names : List String} (h : m.clones snap = .ok names) :
    names = m.clonesOf snap := by
  unfold Mem.clones at h
  simp only at h
  split_ifs at h
  split at h
  · cases h
  · exact (Except.ok.inj h).symm

theorem has_plain (h : Plain name) : has m name = (m.ds.lookup name).isSome := by
  simp [has, split_plain h]

theorem has_snap {d n : String} (hd : Plain d) : has m (snapPath d n) =
    (m.lookupSnap d n).isSome := by
  simp [has, split_snapPath hd]

theorem get_type_ok : (∃ v, m.get name "type" = .ok v) ↔ has m name = true := by
  unfold Mem.get
  rcases split_cases name with ⟨d, n, hd, rfl, hsplit⟩ | ⟨hplain, hsplit⟩
  · rw [has_snap hd]
    simp only [hsplit, if_true]
    cases hD : m.ds.lookup d with
    | none => simp [Mem.lookupSnap, hD]
    | some D => cases hn : D.snaps.lookup n <;> simp [Mem.lookupSnap, hD, hn]
  · rw [has_plain hplain]
    simp only [hsplit, Bool.false_eq_true, if_false]
    cases hD : m.ds.lookup name <;> simp

theorem destroy_of_missing {recursive : Bool} (h : has m name = false) : m.destroy name recursive =
    (.ok (), m) := by
  unfold Mem.destroy
  rcases split_cases name with ⟨d, n, hd, rfl, hsplit⟩ | ⟨hplain, hsplit⟩
  · rw [has_snap hd] at h
    simp [hsplit, show m.lookupSnap d n = none by simpa using h]
  · rw [has_plain hplain] at h
    simp [hsplit, show m.ds.lookup name = none by simpa using h]

theorem destroySnapshotDeferred_of_missing (hsnap : ¬ Plain snap) (h : has m snap = false) :
    m.destroySnapshotDeferred snap = (.ok (), m) := by
  unfold Mem.destroySnapshotDeferred
  rcases split_cases snap with ⟨d, n, hd, rfl, hsplit⟩ | ⟨hplain, _⟩
  · rw [has_snap hd] at h
    simp [hsplit, show m.lookupSnap d n = none by simpa using h]
  · exact absurd hplain hsnap

theorem clone_of_present {props : FinMap String String} (hsnap : ¬ Plain snap) (hdest : Plain dest)
    (h : has m snap = true) (h' : has m dest = true) : m.clone snap dest props = (.ok (), m) := by
  unfold Mem.clone
  rcases split_cases snap with ⟨d, n, hd, rfl, hsplit⟩ | ⟨hplain, _⟩
  · rw [has_snap hd] at h
    rw [has_plain hdest] at h'
    obtain ⟨s, hs⟩ := Option.isSome_iff_exists.mp h
    obtain ⟨D, hD, hn⟩ := lookup_of_lookupSnap hs
    simp [hsplit, hD, hn, h']
  · exact absurd hplain hsnap

theorem get_origin {D : Dataset} (hname : Plain name) (hD : m.ds.lookup name = some D) :
    m.get name "origin" = .ok (if D.origin = "" then "-" else D.origin) := by
  simp [Mem.get, split_plain hname, hD, Mem.getDataset]

/-- There is no dataset, one that is no clone, or a clone. -/
theorem origin_cases (hs : Sound m []) (hneat : Neat m.ds) (hname : Plain name) :
    (m.get name "origin" = .error (.notExist name) ∧
      m.promote name = (.error (.notExist name), m)) ∨
    (m.get name "origin" = .ok "-" ∧ m.promote name = (.ok (), m)) ∨
    ∃ D, m.ds.lookup name = some D ∧ D.origin ≠ "" ∧ m.get name "origin" = .ok D.origin ∧
      isOriginEmpty D.origin = false := by
  cases hD : m.ds.lookup name with
  | none =>
    refine .inl ⟨?_, by simp only [Mem.promote, hD]⟩
    simp [Mem.get, split_plain hname, hD]
  | some D =>
    by_cases horigin : D.origin = ""
    · refine .inr (.inl ⟨?_, by simp only [Mem.promote, hD, horigin, if_true]⟩)
      rw [get_origin hname hD, if_pos horigin]
    · have hprintable := printable_origin hs hneat hD horigin
      refine .inr (.inr ⟨D, rfl, horigin, ?_, ?_⟩)
      · rw [get_origin hname hD, if_neg horigin]
      · have htrim : trimSpace D.origin = D.origin := hprintable.trimmed
        simp [isOriginEmpty, htrim, horigin, hprintable.ne_dash]

/-- A promote that does something changes what is read as the origin: no dataset is a clone of its
own snapshot. -/
theorem promote_origin (hs : Sound m []) (hneat : Neat m.ds) {D : Dataset}
    (hD : m.ds.lookup name = some D)
    (horigin : D.origin ≠ "") (hok : (m.promote name).1 = .ok ()) :
    ∃ v, (m.promote name).2.get name "origin" = .ok v ∧ v ≠ D.origin := by
  obtain ⟨p, n, o, hpn, ho, _⟩ := hs.origin hD horigin
  obtain ⟨_, err, herr⟩ | ⟨_, hpromoted⟩ := hs.promote_clone hD hpn ho
  · rw [herr] at hok
    cases hok
  obtain ⟨P, hP, _⟩ := lookup_of_lookupSnap ho
  obtain ⟨D', hD', _⟩ := hpromoted.lookup_of hD
  obtain ⟨P', hP', _⟩ := hpromoted.lookup_of hP
  obtain ⟨hhanded, _⟩ := hpromoted.swapped P hP D' P' hD' hP'
  refine ⟨_, get_origin (hs.plain hD) hD', fun heq => ?_⟩
  split_ifs at heq with hempty
  · exact (printable_origin hs hneat hD horigin).ne_dash heq.symm
  · have hself : P.origin = snapPath p n := by rw [← hhanded, heq, hpn]
    obtain ⟨q, k, σ, hqk, hσ, hyounger⟩ := hs.origin hP (by rw [hself]; exact snapPath_ne_empty p n)
    obtain ⟨rfl, rfl⟩ := snapPath_inj (hs.plain hP) (hs.plain_of_snap hσ) (hself.symm.trans hqk)
    have := hyounger n σ hσ
    omega

/-- All the snapshots are there, or some of them are missing and none of these is taken. -/
theorem snapshot_of_present {names : List String} (hnames : ∀ n ∈ names, ¬ Plain n)
    (hds : ∀ n ∈ names, (m.ds.lookup (Memzfs.split n).1).isSome) (h : ∃ n ∈ names, has m n) :
    m.snapshot names =
      (if (∀ n ∈ names, has m n) ∨ names.length = 1 then .ok () else
        .error .snapshotsPartiallyExist, m) := by
  have hhas :
      ∀ n ∈ names, (m.lookupSnap (Memzfs.split n).1 (Memzfs.split n).2.1).isSome = has m n := by
    intro n hn
    simp [has, split_of_not_plain (hnames n hn)]
  have hcount :
      names.countP (fun n => (m.lookupSnap (Memzfs.split n).1 (Memzfs.split n).2.1).isSome) =
      names.countP (has m) := List.countP_congr fun n hn => by rw [hhas n hn]
  obtain ⟨n, hn, hthere⟩ := h
  have hform : names.find? (fun n => !(Memzfs.split n).2.2) = none :=
    List.find?_eq_none.mpr fun n hn => by simp [split_of_not_plain (hnames n hn)]
  have hmissing : names.find? (fun n => (m.ds.lookup (Memzfs.split n).1).isNone) = none := by
    refine List.find?_eq_none.mpr fun n hn => ?_
    obtain ⟨D, hD⟩ := Option.isSome_iff_exists.mp (hds n hn)
    simp [hD]
  have hpos : 0 < names.countP (has m) := List.countP_pos_iff.mpr ⟨n, hn, hthere⟩
  unfold Mem.snapshot
  rw [if_neg (List.ne_nil_of_mem hn)]
  simp only [hform, hmissing, hcount, hpos, if_true, List.countP_eq_length]
  split_ifs <;> rfl

end There

section Properties

variable {props : Props}

theorem mem_byKey {o : String × String} (h : o ∈ byKey props) : o ∈ props := by
  obtain ⟨k, _, hk⟩ := List.mem_filterMap.mp h
  obtain ⟨v, hv, rfl⟩ := Option.map_eq_some_iff.mp hk
  exact FinMap.mem_of_lookup_ofList hv

theorem settable_byKey (h : AptProps Z props) : Settable Z (byKey props) where
  nodup := by
    have hkeys : (byKey props).map (·.1) = (FinMap.ofList props).sortedKeys := by
      rw [byKey, List.map_filterMap]
      conv_rhs => rw [← List.filterMap_some (l := (FinMap.ofList props).sortedKeys)]
      refine List.filterMap_congr fun k hk => ?_
      obtain ⟨v, hv⟩ := Option.isSome_iff_exists.mp (FinMap.mem_sortedKeys.mp hk)
      simp [hv]
    rw [hkeys]
    exact FinMap.nodup_sortedKeys _
  names o ho := ⟨(h o (mem_byKey ho)).1, (h o (mem_byKey ho)).2.1⟩

theorem neatProps_byKey (h : AptProps Z props) : NeatProps (FinMap.ofList (byKey props)) :=
  fun k v hv => (h (k, v) (mem_byKey (FinMap.mem_of_lookup_ofList hv))).2.2

end Properties

section Operations

variable (hZ : Lawful z Z) (refl : ∀ a, R a a) {s : CliWorld σ}
include hZ refl

theorem createDataset_meets {name : String} {props : Props}
    (h : Apt z Z (Z.mem s.pool) (.createDataset name props)) :
    Meets Z R (z.createDataset name props)
      (fun m => m.createDataset name (FinMap.ofList (byKey props))) Other s := by
  unfold CLI.createDataset
  split_ifs with hname
  · exact meets_throw refl ⟨_, rfl⟩
  · obtain ⟨hneat, hplain, hprops⟩ := h hname
    exact meets_acts (hZ.create hneat hplain (settable_byKey hprops))

theorem createZvol_meets {name : String} {size : Int} {props : Props}
    (h : Apt z Z (Z.mem s.pool) (.createZvol name size props)) :
    Meets Z R (z.createZvol name size props)
      (fun m => m.createZvol name size (FinMap.ofList (byKey props))) Other s := by
  unfold CLI.createZvol
  split_ifs with hname hsize
  · exact meets_throw refl ⟨_, rfl⟩
  · exact meets_throw refl ⟨_, rfl⟩
  · obtain ⟨hneat, hplain, hfits, hprops⟩ := h hname (by omega)
    exact meets_acts (hZ.create_zvol hneat hplain (settable_byKey hprops) (by omega) hfits)

theorem setProperty_meets {name prop value : String}
    (h : Apt z Z (Z.mem s.pool) (.setProperty name prop value)) :
    Meets Z R (z.setProperty name prop value) (fun m => m.setProperty name prop value) Other s := by
  unfold CLI.setProperty
  split_ifs with hname hprop
  · exact meets_throw refl ⟨_, rfl⟩
  · exact meets_throw refl ⟨_, rfl⟩
  · obtain ⟨hneat, hpropName, hverbatim, _⟩ := h hname
    exact meets_acts (hZ.set hneat hpropName hverbatim)

theorem destroy_meets {name : String} {recursive : Bool} (hneat : Neat (Z.mem s.pool).ds)
    (h : Apt z Z (Z.mem s.pool) (.destroy name recursive)) :
    Meets Z R (z.destroy name recursive) (fun m => m.destroy name recursive) Other s := by
  unfold CLI.destroy
  by_cases hname : name = ""
  · rw [if_pos hname]
    exact meets_throw refl ⟨_, rfl⟩
  rw [if_neg hname]
  obtain ⟨hneatName, hplain, hsilent⟩ := h hname
  refine meets_told (c := z.zfs (destroyArgs name recursive)) isNotExist saysMissing run_told
    (saysMissing_line hsilent) ?_
  by_cases hhas : has (Z.mem s.pool) name = true
  · exact .inl (hZ.destroy hneat hneatName hplain hhas)
  · rw [Bool.not_eq_true] at hhas
    refine .inr ⟨destroy_of_missing hhas, ?_⟩
    exact (hZ.destroy_missing hneatName hplain hhas).imp_right Zfs.Fails.missing

theorem destroySnapshotDeferred_meets {snap : String} (hneat : Neat (Z.mem s.pool).ds)
    (h : Apt z Z (Z.mem s.pool) (.destroySnapshotDeferred snap)) :
    Meets Z R (z.destroySnapshotDeferred snap)
      (fun m => m.destroySnapshotDeferred snap) Other s := by
  unfold CLI.destroySnapshotDeferred
  by_cases hplain : Plain snap
  · rw [if_pos (by simpa using contains_at.mp hplain)]
    exact meets_throw refl ⟨_, rfl⟩
  rw [if_neg (by simpa using fun h => hplain (contains_at.mpr h))]
  refine meets_told (c := z.zfs ["destroy", "-d", snap]) isNotExist saysMissing run_told
    (saysMissing_line h.2) ?_
  by_cases hhas : has (Z.mem s.pool) snap = true
  · exact .inl (hZ.destroy_deferred hneat h.1 hplain hhas)
  · rw [Bool.not_eq_true] at hhas
    refine .inr ⟨destroySnapshotDeferred_of_missing hplain hhas, ?_⟩
    exact (hZ.destroy_deferred_missing h.1 hplain hhas).imp_right Zfs.Fails.missing

theorem clone_meets {snap dest : String} {props : Props}
    (h : Apt z Z (Z.mem s.pool) (.clone snap dest props)) :
    Meets Z R (z.clone snap dest props)
      (fun m => m.clone snap dest (FinMap.ofList (byKey props))) Other s := by
  unfold CLI.clone
  by_cases hempty : snap = "" ∨ dest = ""
  · rw [if_pos hempty]
    exact meets_throw refl ⟨_, rfl⟩
  rw [if_neg hempty]
  obtain ⟨hsnap, hdest⟩ := not_or.mp hempty
  obtain ⟨hneatSnap, hneatDest, hplainDest, hprops, hsilent⟩ := h hsnap hdest
  by_cases hplain : Plain snap
  · rw [if_pos (by simpa using contains_at.mp hplain)]
    exact meets_throw refl ⟨_, rfl⟩
  rw [if_neg (by simpa using fun h => hplain (contains_at.mpr h))]
  refine meets_told (c := z.zfs (cloneArgs (byKey props) snap dest)) isExists saysPresent run_told
    (saysPresent_line hsilent) ?_
  have hset := settable_byKey hprops
  by_cases hthere : has (Z.mem s.pool) snap = true ∧ has (Z.mem s.pool) dest = true
  · refine .inr ⟨clone_of_present hplain hplainDest hthere.1 hthere.2, ?_⟩
    exact (hZ.clone_again hneatSnap hplain hneatDest hplainDest hset hthere.1 hthere.2).imp_right
      Zfs.Fails.present
  · refine .inl (hZ.clone hneatSnap hplain hneatDest hplainDest hset ?_)
    rcases not_and_or.mp hthere with h | h
    · exact .inl (by simpa using h)
    · exact .inr (by simpa using h)

omit refl in
/-- Reading a property that the in-memory ZFS knows gives what it answers, or fails. -/
theorem get_wp {name prop : String} {G : CliWorld σ → Prop}
    {Q : Except Err String → CliWorld σ → Prop}
    (hs : Sound (Z.mem s.pool) []) (hneat : Neat (Z.mem s.pool).ds) (hname : neatName name)
    (hprop : propName prop)
    (hsilent : SilentLine z (getArgs name prop)) (hmodelled : modelled name prop)
    (h : ∀ t, Shows Z R s (Z.mem s.pool) t →
      G t ∧ Q ((Z.mem s.pool).get name prop) t ∧ ∀ msg, Q (.error (.other msg)) t) :
    (z.get name prop).run.wp (CliWorld.handle Z) CliCall.fails (relyBelow R)
      (fun _ _ t => G t) Q s := by
  have hrun : (z.get name prop).run =
      (execRunner (z.zfs (getArgs name prop))).run.bind fun r => .pure (readAs name trimSpace r) :=
        run_readAs
  rw [hrun]
  refine Program.wp_bind (execRunner_wp fun t hR hpool => ?_)
  obtain hanswers | ⟨fail, hfail, hquiet, hmem⟩ := hZ.get hneat hname hprop hmodelled
  · cases hget : (Z.mem s.pool).get name prop with
    | ok v =>
      rw [hget] at hanswers
      obtain ⟨hout, hmem⟩ := hanswers
      obtain ⟨hG, hQ, _⟩ := h t ⟨hR, by rw [hpool, hmem]⟩
      rw [hget] at hQ
      rw [hout]
      refine ⟨hG, ?_⟩
      show Q (.ok (trimSpace (v ++ "\n"))) t
      rwa [trimSpace_newline, trimmed_get hs hneat hget]
    | error err =>
      rw [hget] at hanswers
      obtain ⟨fail, hfail, hsays, hmem⟩ := hanswers
      obtain ⟨hG, hQ, _⟩ := h t ⟨hR, by rw [hpool, hmem]⟩
      rw [hget, get_error_eq hget] at hQ
      rw [hfail]
      refine ⟨hG, ?_⟩
      show Q (readAs name trimSpace (.error (.other _))) t
      rwa [readAs_missing hsilent hsays]
  · obtain ⟨hG, _, hQ⟩ := h t ⟨hR, by rw [hpool, hmem]⟩
    rw [hfail]
    refine ⟨hG, ?_⟩
    show Q (readAs name trimSpace (.error (.other _))) t
    rw [readAs_failed hsilent hquiet]
    exact hQ _

omit refl in
theorem get_meets {name prop : String}
    (hs : Sound (Z.mem s.pool) []) (hneat : Neat (Z.mem s.pool).ds)
    (h : Apt z Z (Z.mem s.pool) (.get name prop)) :
    Meets Z R (z.get name prop) (fun m => (m.get name prop, m)) (leftOpen (.get name prop)) s := by
  obtain ⟨hname, hprop, hsilent⟩ := h
  cases hmodelled : modelled name prop with
  | true =>
    refine get_wp hZ hs hneat hname hprop hsilent hmodelled fun t ht => ⟨.inl ht, .inl ⟨rfl, ht⟩,
      fun msg => ?_⟩
    exact .inr ⟨.inl ⟨msg, rfl⟩, ht⟩
  | false =>
    refine meets_command (c := z.zfs (getArgs name prop)) run_readAs ?_
    obtain ⟨v, hanswers⟩ | ⟨fail, hfail, hquiet, hmem⟩ := hZ.get_native hneat hname hprop hmodelled
    · cases hget : (Z.mem s.pool).get name prop with
      | ok w =>
        rw [hget] at hanswers
        exact .inr (.inl ⟨_, hanswers, .inr ⟨hmodelled, _, rfl⟩⟩)
      | error err =>
        rw [hget] at hanswers
        obtain ⟨fail, hfail, hsays, hmem⟩ := hanswers
        refine .inr (.inr ⟨fail, hfail, .inl ⟨?_, rfl⟩, hmem⟩)
        rw [readAs_missing hsilent hsays, get_error_eq hget]
    · refine .inr (.inr ⟨fail, hfail, .inr (.inl ?_), hmem⟩)
      rw [readAs_failed hsilent hquiet]
      exact ⟨_, rfl⟩

theorem listSnapshots_meets {dataset : String}
    (hs : Sound (Z.mem s.pool) []) (hneat : Neat (Z.mem s.pool).ds)
    (h : Apt z Z (Z.mem s.pool) (.listSnapshots dataset)) :
    Meets Z R (z.listSnapshots dataset) (fun m => (m.listSnapshots dataset, m)) Other s := by
  unfold CLI.listSnapshots
  by_cases hname : dataset = ""
  · rw [if_pos hname]
    exact meets_throw refl ⟨_, rfl⟩
  rw [if_neg hname]
  obtain ⟨hneatName, hplain, hsilent⟩ := h hname
  refine meets_command (c := z.zfs (listArgs dataset)) run_readAs ?_
  obtain hanswers | ⟨fail, hfail, hquiet, hmem⟩ := hZ.list (s := s.pool) hneat hneatName hplain
  · unfold Mem.listSnapshots at hanswers ⊢
    cases hD : (Z.mem s.pool).ds.lookup dataset with
    | none =>
      rw [hD] at hanswers
      obtain ⟨fail, hfail, hsays, hmem⟩ := hanswers
      exact .inr (.inr ⟨fail, hfail, .inl ⟨readAs_missing hsilent hsays, rfl⟩, hmem⟩)
    | some D =>
      rw [hD] at hanswers
      exact .inl ⟨_, hanswers, congrArg Except.ok (read_lines (printable_snapNames hs hneat hD))⟩
  · refine .inr (.inr ⟨fail, hfail, .inr ?_, hmem⟩)
    rw [readAs_failed hsilent hquiet]
    exact ⟨_, rfl⟩

/-- The clones are listed in some order. -/
theorem clones_wp {snap : String} (hneat : Neat (Z.mem s.pool).ds)
    (h : Apt z Z (Z.mem s.pool) (.clones snap)) :
    (z.clones snap).run.wp (CliWorld.handle Z) CliCall.fails (relyBelow R)
      (fun _ _ t => Between Z R s (Z.mem s.pool) t)
      (fun r t => ((∃ chance : Chance, r = ((Z.mem s.pool).clones snap).map chance.order) ∧
        Shows Z R s (Z.mem s.pool) t) ∨ (Other r ∧ Shows Z R s (Z.mem s.pool) t)) s := by
  unfold CLI.clones
  by_cases hplain : Plain snap
  · rw [if_pos (by simpa using contains_at.mp hplain)]
    exact .inr ⟨⟨_, rfl⟩, refl _, rfl⟩
  rw [if_neg (by simpa using fun h => hplain (contains_at.mpr h))]
  have hrun : (z.get snap "clones").run =
      (execRunner (z.zfs (getArgs snap "clones"))).run.bind fun r => .pure
        (readAs snap trimSpace r) := run_readAs
  refine Proc.wp_bind ?_
  rw [hrun]
  refine Program.wp_bind (execRunner_wp fun t hR hpool => ?_)
  obtain ⟨names, value, hperm, hlists, hanswers⟩ | ⟨fail, hfail, hquiet, hmem⟩ :=
    hZ.clones hneat h.1 hplain
  · cases hclones : (Z.mem s.pool).clones snap with
    | ok l =>
      rw [hclones] at hanswers
      obtain ⟨hout, hmem⟩ := hanswers
      have ht : Shows Z R s (Z.mem s.pool) t := ⟨hR, by rw [hpool, hmem]⟩
      obtain rfl := clones_ok hclones
      have hnames : ∀ n ∈ names, Printable n :=
        fun n hn => printable_clonesOf hneat n (hperm.mem_iff.mp hn)
      obtain ⟨htrim, hread⟩ := read_clones hnames hlists
      have hvalue : trimSpace (value ++ "\n") = value := (trimSpace_newline value).trans htrim
      refine ⟨.inl ht, ?_⟩
      rw [hout]
      simp only [Except.mapError, readAs, hvalue]
      show Program.wp _ _ _ _
        (ExceptT.run (if trimSpace value = "" ∨ trimSpace value = "-" then _ else _)) _ _
      rw [show trimSpace value = value from htrim, hread]
      exact .inl ⟨⟨.listed hperm, by simp [Except.map, Chance.listed]⟩, ht⟩
    | error err =>
      rw [hclones] at hanswers
      obtain ⟨fail, hfail, hsays, hmem⟩ := hanswers
      have ht : Shows Z R s (Z.mem s.pool) t := ⟨hR, by rw [hpool, hmem]⟩
      refine ⟨.inl ht, ?_⟩
      rw [hfail]
      simp only [Except.mapError, readAs_missing h.2 hsays]
      exact .inl ⟨⟨.usual, by rw [clones_error_eq hplain hclones]; rfl⟩, ht⟩
  · have ht : Shows Z R s (Z.mem s.pool) t := ⟨hR, by rw [hpool, hmem]⟩
    refine ⟨.inl ht, ?_⟩
    rw [hfail]
    simp only [Except.mapError, readAs_failed h.2 hquiet]
    exact .inr ⟨⟨_, rfl⟩, ht⟩

/-! ## Operations that run several commands -/

variable (trans : ∀ a b c, R a b → R b c → R a c)

include trans in
omit refl in
/-- A command that the pools do not notice. -/
theorem exec_wp {name : String} {args : List String} (hname : name ∈ ["chown", "chmod"]) {m' : Mem}
    {t : CliWorld σ}
    {f : Except Err String → CliProc Unit} {Q : Except Err Unit → CliWorld σ → Prop}
    (ht : Shows Z R s (Z.mem s.pool) t)
    (hf : ∀ u r, Shows Z R s (Z.mem s.pool) u → (∃ out, r = .ok out) ∨ Other r →
      (f r).run.wp (CliWorld.handle Z) CliCall.fails (relyBelow R)
        (fun _ _ t => Between Z R s m' t) Q u) :
    ((z.exec name args).outcome >>= f).run.wp (CliWorld.handle Z) CliCall.fails (relyBelow R)
      (fun _ _ t => Between Z R s m' t) Q t := by
  refine Proc.wp_outcome_bind (execRunner_wp fun u hR hpool => ?_)
  have hu : Shows Z R s (Z.mem s.pool) u := by
    refine ht.next trans ⟨hR, ?_⟩
    rw [hpool, hZ.ownership hname, ht.mem]
  refine ⟨.inl hu, hf u _ hu ?_⟩
  cases (Z.run (z.command name args) t.pool).1 with
  | ok out => exact .inl ⟨out, rfl⟩
  | error fail => exact .inr ⟨_, rfl⟩

include trans in
theorem applyOwnership_meets (mountpoint : String) (uid gid : Option Int) (mode : String) :
    Meets Z R (z.applyOwnership mountpoint uid gid mode) (fun m => (.ok (), m)) Other s := by
  unfold CLI.applyOwnership
  by_cases hmountpoint : mountpoint = ""
  · simp only [hmountpoint, if_true]
    exact meets_throw refl ⟨_, rfl⟩
  simp only [hmountpoint, if_false, Meets]
  have hchmod : ∀ t, Shows Z R s (Z.mem s.pool) t → (if mode ≠ "" then do
        match ← (z.exec "chmod" [mode, mountpoint]).outcome with
        | .ok _ => Pure.pure ()
        | .error err =>
          throw (.other ("chmod " ++ mode ++ " " ++ mountpoint ++ ": " ++ err.message))
      else Pure.pure () : CliProc Unit).run.wp (CliWorld.handle Z) CliCall.fails (relyBelow R)
        (fun _ _ t => Between Z R s (Z.mem s.pool) t)
        (fun r t => (r = .ok () ∧ Shows Z R s (Z.mem s.pool) t) ∨
          (Other r ∧ Shows Z R s (Z.mem s.pool) t)) t := by
    intro t ht
    split_ifs
    · refine exec_wp hZ trans (by simp) ht fun u r hu hr => ?_
      rcases hr with ⟨out, rfl⟩ | ⟨msg, rfl⟩
      · exact .inl ⟨rfl, hu⟩
      · exact .inr ⟨⟨_, rfl⟩, hu⟩
    · exact .inl ⟨rfl, ht⟩
  by_cases howner : uid.isSome = true ∨ gid.isSome = true
  · rw [if_pos howner]
    refine exec_wp hZ trans (by simp) ⟨refl _, rfl⟩ fun u r hu hr => ?_
    rcases hr with ⟨out, rfl⟩ | ⟨msg, rfl⟩
    · exact hchmod u hu
    · exact .inr ⟨⟨_, rfl⟩, hu⟩
  · rw [if_neg howner]
    exact hchmod s ⟨refl _, rfl⟩

include trans in
omit refl in
/-- The loop over the names of which one was there. -/
theorem checkAllExist_wp {names : List String} {m' : Mem} {t : CliWorld σ}
    (hs : Sound (Z.mem s.pool) [])
    (hneat : Neat (Z.mem s.pool).ds) (ht : Shows Z R s (Z.mem s.pool) t)
    (hnames : ∀ n ∈ names, neatName n ∧ SilentLine z (getArgs n "type")) :
    (z.checkAllExist names).run.wp (CliWorld.handle Z) CliCall.fails (relyBelow R)
      (fun _ _ t => Between Z R s m' t)
      (fun r u => Shows Z R s (Z.mem s.pool) u ∧
        ((r = .ok () ∧ ∀ n ∈ names, has (Z.mem s.pool) n) ∨
          (r = .error .snapshotsPartiallyExist ∧ ∃ n ∈ names, has (Z.mem s.pool) n = false) ∨
            Other r)) t := by
  induction names generalizing t with
  | nil => exact ⟨ht, .inl ⟨rfl, by simp⟩⟩
  | cons n rest ih =>
    obtain ⟨⟨hneatName, hsilent⟩, hrest⟩ := List.forall_mem_cons.mp hnames
    unfold CLI.checkAllExist
    refine Proc.wp_outcome_bind
      (get_wp hZ (by rwa [ht.mem]) (by rwa [ht.mem]) hneatName (by decide) hsilent
      (modelled_type n) fun u hu => ?_)
    rw [ht.mem] at hu ⊢
    have hu' := ht.next trans hu
    refine ⟨.inl hu', ?_, fun msg => ⟨hu', .inr (.inr ⟨msg, rfl⟩)⟩⟩
    cases hget : (Z.mem s.pool).get n "type" with
    | ok v =>
      refine wp_mono (fun r w hw => ?_) (ih hu' hrest)
      obtain ⟨hshows, ⟨hok, hall⟩ | ⟨hgap, k, hk, hmissing⟩ | hother⟩ := hw
      · exact ⟨hshows, .inl ⟨hok, List.forall_mem_cons.mpr ⟨get_type_ok.mp ⟨v, hget⟩, hall⟩⟩⟩
      · exact ⟨hshows, .inr (.inl ⟨hgap, k, List.mem_cons_of_mem _ hk, hmissing⟩)⟩
      · exact ⟨hshows, .inr (.inr hother)⟩
    | error err =>
      obtain rfl := get_error_eq hget
      refine ⟨hu', .inr (.inl ⟨rfl, n, List.mem_cons_self, ?_⟩)⟩
      rw [Bool.eq_false_iff]
      intro hhas
      obtain ⟨v, hv⟩ := get_type_ok.mpr hhas
      rw [hget] at hv
      cases hv

include trans in
theorem snapshot_meets {names : List String}
    (hs : Sound (Z.mem s.pool) []) (hneat : Neat (Z.mem s.pool).ds)
    (h : Apt z Z (Z.mem s.pool) (.snapshot names)) :
    Meets Z R (z.snapshot names) (fun m => m.snapshot names) Other s := by
  obtain ⟨hnames, hsilent, hmixed⟩ := h
  unfold CLI.snapshot
  by_cases hnil : names = []
  · rw [if_pos hnil]
    exact meets_throw refl ⟨_, rfl⟩
  rw [if_neg hnil]
  split
  · split_ifs <;> exact meets_throw refl ⟨_, rfl⟩
  rename_i hform
  have hsnaps : ∀ n ∈ names, ¬ Plain n := by
    intro n hn hplain
    simpa [contains_at.mp hplain] using List.find?_eq_none.mp hform n hn
  have htold : ∀ text, isExists (.other ((z.zfs ("snapshot" :: names)).line ++ ": " ++ text)) =
      saysPresent text :=
    saysPresent_line hsilent
  refine Proc.wp_outcome_bind (execRunner_wp fun t hR hpool => ?_)
  by_cases hthere : ∃ n ∈ names, has (Z.mem s.pool) n = true
  · have hds := hmixed hthere
    have hmem := snapshot_of_present hsnaps hds hthere
    obtain ⟨fail, hfail, hsays, hsame⟩ | ⟨fail, hfail, hquiet, hsame⟩ :=
      hZ.snapshot_again (fun n hn => ⟨(hnames n hn).1, hsnaps n hn, hds n hn⟩) hthere
    · have ht : Shows Z R s (Z.mem s.pool) t := ⟨hR, by rw [hpool, hsame]⟩
      refine ⟨.inl ht, ?_⟩
      rw [hfail]
      simp only [Except.mapError, htold, hsays, Bool.not_true, Bool.false_eq_true, if_false, hmem]
      by_cases hone : names.length = 1
      · rw [if_pos hone, if_pos (.inr hone)]
        exact .inl ⟨rfl, ht⟩
      · rw [if_neg hone]
        refine wp_mono (fun r u hu => ?_) (checkAllExist_wp hZ trans hs hneat ht hnames)
        obtain ⟨hshows, ⟨rfl, hall⟩ | ⟨rfl, n, hn, hmissing⟩ | hother⟩ := hu
        · rw [if_pos (.inl hall)]
          exact .inl ⟨rfl, hshows⟩
        · rw [if_neg]
          · exact .inl ⟨rfl, hshows⟩
          · simp only [hone, or_false]
            exact fun hall => by simp [hall n hn] at hmissing
        · exact .inr ⟨hother, hshows⟩
    · have ht : Shows Z R s (Z.mem s.pool) t := ⟨hR, by rw [hpool, hsame]⟩
      refine ⟨.inl ht, ?_⟩
      simp only [silent, Bool.and_eq_true, Bool.not_eq_true'] at hquiet
      rw [hfail]
      simp only [Except.mapError, htold, hquiet.2, Bool.not_false, if_true]
      exact .inr ⟨⟨_, rfl⟩, ht⟩
  · have hfresh : ∀ n ∈ names, neatName n ∧ ¬ Plain n ∧ has (Z.mem s.pool) n = false := by
      intro n hn
      refine ⟨(hnames n hn).1, hsnaps n hn, ?_⟩
      rw [Bool.eq_false_iff]
      exact fun hhas => hthere ⟨n, hn, hhas⟩
    obtain ⟨hok, out, hout, hmem⟩ | ⟨fail, hfail, hsays, hsame⟩ := hZ.snapshot hfresh hnil
    · have ht : Shows Z R s ((Z.mem s.pool).snapshot names).2 t := ⟨hR, by rw [hpool, hmem]⟩
      rw [hout]
      exact ⟨.inr ht, .inl ⟨hok.symm, ht⟩⟩
    · have ht : Shows Z R s (Z.mem s.pool) t := ⟨hR, by rw [hpool, hsame]⟩
      refine ⟨.inl ht, ?_⟩
      rw [hfail]
      simp only [Except.mapError, htold, hsays, Bool.not_false, if_true]
      exact .inr ⟨⟨_, rfl⟩, ht⟩

include trans in
omit refl in
/-- One effective promote ends the loop; what has no effect is tried again. -/
theorem promoteLoop_wp {name : String} {D : Dataset}
    (hs : Sound (Z.mem s.pool) []) (hneat : Neat (Z.mem s.pool).ds)
    (hname : neatName name = true) (hplain : Plain name)
    (hsilent : SilentLine z (getArgs name "origin"))
    (hD : (Z.mem s.pool).ds.lookup name = some D) (horigin : D.origin ≠ "") (left : Nat)
    {t : CliWorld σ}
    (ht : Shows Z R s (Z.mem s.pool) t) :
    (z.promoteLoop name D.origin left).run.wp (CliWorld.handle Z) CliCall.fails (relyBelow R)
      (fun _ _ t => Between Z R s ((Z.mem s.pool).promote name).2 t)
      (fun r u => ((∃ chance : Chance, r = chance.told ((Z.mem s.pool).promote name).1) ∧
          Shows Z R s ((Z.mem s.pool).promote name).2 u) ∨
        (Other r ∧ Shows Z R s (Z.mem s.pool) u)) t := by
  induction left generalizing t with
  | zero => exact .inr ⟨⟨_, rfl⟩, ht⟩
  | succ left ih =>
    unfold CLI.promoteLoop
    refine Proc.wp_outcome_bind (execRunner_wp fun u hR hpool => ?_)
    have hlaw := hZ.promote (s := t.pool) hname hplain
    rw [ht.mem] at hlaw
    obtain (⟨hok, out, hout, hmem⟩ | ⟨fail, hfail, _, hsame⟩) | ⟨out, hout, hmem⟩ := hlaw
    · -- the promote was done, and the origin tells, if it can be read
      have hu : Shows Z R s ((Z.mem s.pool).promote name).2 u :=
        ht.next trans ⟨hR, by rw [hpool, hmem]⟩
      rw [hout]
      refine ⟨.inr hu, ?_⟩
      refine Proc.wp_bind (get_wp hZ (by rw [hu.mem]; exact hs.promote name)
        (by rw [hu.mem]; exact hneat.promote hs name)
        hname (by decide) hsilent (modelled_origin hplain) fun v hv => ?_)
      have hv' : Shows Z R s ((Z.mem s.pool).promote name).2 v :=
        hu.next trans (by rw [← hu.mem]; exact hv)
      refine ⟨.inr hv', ?_, fun msg => .inl ⟨⟨.reported msg, rfl⟩, hv'⟩⟩
      rw [hu.mem]
      obtain ⟨after, hafter, hchanged⟩ := promote_origin hs hneat hD horigin hok
      rw [hafter]
      simp only [ne_eq, hchanged, not_false_eq_true, if_true]
      exact .inl ⟨⟨.usual, hok.symm⟩, hv'⟩
    · have hu : Shows Z R s (Z.mem s.pool) u := ht.next trans ⟨hR, by rw [hpool, hsame, ht.mem]⟩
      rw [hfail]
      exact ⟨.inl hu, .inr ⟨⟨_, rfl⟩, hu⟩⟩
    · -- nothing happened, and the origin is as before
      have hu : Shows Z R s (Z.mem s.pool) u := ht.next trans ⟨hR, by rw [hpool, hmem]⟩
      rw [hout]
      refine ⟨.inl hu, ?_⟩
      refine Proc.wp_bind (get_wp hZ (by rwa [hu.mem]) (by rwa [hu.mem]) hname (by decide) hsilent
        (modelled_origin hplain) fun v hv => ?_)
      have hv' : Shows Z R s (Z.mem s.pool) v := hu.next trans (by rw [← hu.mem]; exact hv)
      refine ⟨.inl hv', ?_, fun msg => .inr ⟨⟨msg, rfl⟩, hv'⟩⟩
      rw [hu.mem, get_origin hplain hD, if_neg horigin]
      simp only [ne_eq, not_true_eq_false, if_false]
      exact ih hv'

include trans in
/-- A promote is done or not, and one that is done may be reported as failed. -/
theorem promote_wp {name : String} (hs : Sound (Z.mem s.pool) []) (hneat : Neat (Z.mem s.pool).ds)
    (h : Apt z Z (Z.mem s.pool) (.promote name)) :
    (z.promote name).run.wp (CliWorld.handle Z) CliCall.fails (relyBelow R)
      (fun _ _ t => Between Z R s ((Z.mem s.pool).promote name).2 t)
      (fun r t => ((∃ chance : Chance, r = chance.told ((Z.mem s.pool).promote name).1) ∧
          Shows Z R s ((Z.mem s.pool).promote name).2 t) ∨
        (Other r ∧ Shows Z R s (Z.mem s.pool) t)) s := by
  unfold CLI.promote
  by_cases hempty : name = ""
  · rw [if_pos hempty]
    exact .inr ⟨⟨_, rfl⟩, refl _, rfl⟩
  rw [if_neg hempty]
  obtain ⟨hname, hplain, hsilent⟩ := h hempty
  refine Proc.wp_bind
    (get_wp hZ hs hneat hname (by decide) hsilent (modelled_origin hplain) fun t ht =>
    ⟨.inl ht, ?_, fun msg => .inr ⟨⟨msg, rfl⟩, ht⟩⟩)
  rcases origin_cases hs hneat hplain with ⟨hget, hmissing⟩ | ⟨hget, hdone⟩ | ⟨D, hD,
    horigin, hget, hclone⟩
  · simp only [hget, hmissing]
    exact .inl ⟨⟨.usual, rfl⟩, ht⟩
  · have hdash : isOriginEmpty "-" = true := by decide +kernel
    simp only [hget, hdash, if_true, hdone]
    exact .inl ⟨⟨.usual, rfl⟩, ht⟩
  · simp only [hget, hclone, Bool.false_eq_true, if_false]
    exact promoteLoop_wp hZ trans hs hneat hname hplain hsilent hD horigin _ ht

end Operations

/-! ## Every call -/

/-- What holds of the pools at every point. -/
structure WellKept (m : Mem) : Prop where
  sound : Sound m []
  neat : Neat m.ds

section Layer

variable {e : AgentCall} {s t : CliWorld σ}
  {l : List (CliCall × CliWorld σ)} {o : Option e.Ret}

/-- A call that is carried out by commands: the pools are then `m'`, and what is returned is a
`told` answer, or nothing happens and it is a `loose` one. -/
theorem carried_open (refl : ∀ a, R a a) (trans : ∀ a b c, R a b → R b c → R a c)
    {p : CliProc e.Val}
    {m' : Mem} {told loose : Except Err e.Val → Prop} (hp : z.carryOut e = p.run)
    (htold : ∀ r, told r → ∃ chance, ∀ w : World, w.mem = Z.mem s.pool →
      handleOpen e ⟨w, chance⟩ = (r, ⟨{ w with mem := m' }, .usual⟩))
    (hdone : ∃ r, told r) (hloose : ∀ r, loose r → leftOpen e r)
    (hs : WellKept (Z.mem s.pool)) (hs' : WellKept m')
    (hwp :
      p.run.wp (CliWorld.handle Z) CliCall.fails (relyBelow R) (fun _ _ t => Between Z R s m' t)
      (fun r t => (told r ∧ Shows Z R s m' t) ∨ (loose r ∧ Shows Z R s (Z.mem s.pool) t)) s)
    (hr : Runs (CliWorld.handle Z) CliCall.fails (relyBelow R) (z.carryOut e) s l o t) :
    WellKept (Z.mem t.pool) ∧
      ∃ u, relyAbove R e (s.abs Z) u ∧ Carried handleOpen leftOpen e u o (t.abs Z) := by
  rw [hp] at hr
  have hstable : ∀ (c : CliCall) (u v : CliWorld σ), Between Z R s m' u → relyBelow R c u v →
      Between Z R s m' v := by
    intro c u v hu hv
    rcases hu with h | h
    · exact .inl (h.next trans ⟨hv.2, by rw [hv.1, h.mem]⟩)
    · exact .inr (h.next trans ⟨hv.2, by rw [hv.1, h.mem]⟩)
  obtain ⟨hbetween, hpost⟩ := wp_invariant hstable hwp (.inl ⟨refl _, rfl⟩) hr
  have hapi : R (apiState s.api) (apiState t.api) := hbetween.elim (·.api) (·.api)
  have habs : ∀ m, Z.mem t.pool = m → t.abs Z = ⟨{ t.api with mem := m }, .usual⟩ :=
    fun m hm => by rw [CliWorld.abs, hm]
  have hwell : WellKept (Z.mem t.pool) := by
    rcases hbetween with h | h
    · rwa [h.mem]
    · rwa [h.mem]
  -- nothing has happened, or the call has done what it does
  have hsame : Shows Z R s (Z.mem s.pool) t → ∀ o, (∀ r, o = some r → leftOpen e r) →
      ∃ u, relyAbove R e (s.abs Z) u ∧ Carried handleOpen leftOpen e u o (t.abs Z) := by
    intro h o ho
    refine ⟨⟨{ t.api with mem := Z.mem s.pool }, .usual⟩, ⟨rfl, hapi⟩, ?_⟩
    cases o with
    | none => exact .inl (habs _ h.mem)
    | some r => exact .inr ⟨ho r rfl, habs _ h.mem⟩
  have heffect : Shows Z R s m' t → ∀ r, told r → ∀ o, (∀ r', o = some r' → r' = r) →
      ∃ u, relyAbove R e (s.abs Z) u ∧ Carried handleOpen leftOpen e u o (t.abs Z) := by
    intro h r hr o ho
    obtain ⟨chance, hhandle⟩ := htold r hr
    refine ⟨⟨{ t.api with mem := Z.mem s.pool }, chance⟩, ⟨rfl, hapi⟩, ?_⟩
    have heq := hhandle { t.api with mem := Z.mem s.pool } rfl
    cases o with
    | none => exact .inr (by rw [heq]; exact habs _ h.mem)
    | some r' => exact .inl (by rw [heq, ho r' rfl]; exact congrArg (Prod.mk r) (habs _ h.mem))
  refine ⟨hwell, ?_⟩
  cases o with
  | none =>
    rcases hbetween with h | h
    · exact hsame h none (by simp)
    · obtain ⟨r, hr⟩ := hdone
      exact heffect h r hr none (by simp)
  | some r =>
    rcases hpost r rfl with ⟨htell, h⟩ | ⟨hopen, h⟩
    · exact heffect h r htell (some r) fun r' h' => (Option.some_inj.mp h').symm
    · exact hsame h (some r) fun r' h' => Option.some_inj.mp h' ▸ hloose r hopen

/-- A call that does what `f` does. -/
theorem carried_zfs (refl : ∀ a, R a a) (trans : ∀ a b c, R a b → R b c → R a c) {p : CliProc e.Val}
    {f : Mem → Except Err e.Val × Mem} {loose : Except Err e.Val → Prop}
    (hp : z.carryOut e = p.run)
    (hf : ∀ w : World, handleOpen e ⟨w, .usual⟩ =
      ((f w.mem).1, ⟨{ w with mem := (f w.mem).2 }, .usual⟩))
    (hloose : ∀ r, loose r → leftOpen e r)
    (hs : WellKept (Z.mem s.pool)) (hs' : WellKept (f (Z.mem s.pool)).2)
    (hmeets : Meets Z R p f loose s)
    (hr : Runs (CliWorld.handle Z) CliCall.fails (relyBelow R) (z.carryOut e) s l o t) :
    WellKept (Z.mem t.pool) ∧
      ∃ u, relyAbove R e (s.abs Z) u ∧ Carried handleOpen leftOpen e u o (t.abs Z) := by
  have htold : ∀ r, r = (f (Z.mem s.pool)).1 → ∃ chance, ∀ w : World, w.mem = Z.mem s.pool →
      handleOpen e ⟨w, chance⟩ = (r, ⟨{ w with mem := (f (Z.mem s.pool)).2 }, .usual⟩) := by
    rintro r rfl
    refine ⟨.usual, fun w hw => ?_⟩
    rw [hf, hw]
  exact carried_open refl trans hp htold ⟨_, rfl⟩ hloose hs hs' hmeets hr

/-- A call that is passed on to the API server. -/
theorem carried_api (hp : z.carryOut e = perform (CliCall.api e))
    (hh : ∀ w m, handleOpen e ⟨{ w with mem := m }, .usual⟩ =
      ((World.handle e w).1, ⟨{ (World.handle e w).2 with mem := m }, .usual⟩))
    (hopen : ∀ r, AgentCall.fails e r → leftOpen e r) (hs : WellKept (Z.mem s.pool))
    (hr : Runs (CliWorld.handle Z) CliCall.fails (relyBelow R) (z.carryOut e) s l o t) :
    WellKept (Z.mem t.pool) ∧
      ∃ u, relyAbove R e (s.abs Z) u ∧ Carried handleOpen leftOpen e u o (t.abs Z) := by
  rw [hp] at hr
  have hrely : ∀ {u : CliWorld σ}, relyBelow R (.api e) s u → Z.mem u.pool = Z.mem s.pool ∧
      relyAbove R e (s.abs Z) (u.abs Z) :=
        fun hu => ⟨by rw [hu.1], by simp [CliWorld.abs, hu.1], hu.2⟩
  cases hr with
  | stop _ _ hst =>
    obtain ⟨hmem, hu⟩ := hrely hst
    exact ⟨by rwa [hmem], _, hu, .inl rfl⟩
  | @answer _ _ _ u _ _ _ hsu rest =>
    obtain ⟨hmem, hu⟩ := hrely hsu
    cases rest with
    | done =>
      refine ⟨by simpa [CliWorld.handle, hmem] using hs, _, hu, .inl ?_⟩
      exact (hh u.api (Z.mem u.pool)).symm
  | fail hsu hfails rest =>
    obtain ⟨hmem, hu⟩ := hrely hsu
    cases rest with
    | done => exact ⟨by rwa [hmem], _, hu, .inr ⟨hopen _ hfails, rfl⟩⟩

theorem create_empty (m : Mem) (kind : DatasetKind) (size : Int) (props : FinMap String String) :
    ∃ err, m.create "" kind size props = (.error err, m) := by
  have hparent : parentOf "" = "" := rfl
  unfold Mem.create
  rw [hparent, if_pos (c := "" = "" ∨ _) (.inl rfl)]
  split_ifs
  · exact ⟨_, rfl⟩
  · exact ⟨_, rfl⟩

theorem clone_empty (m : Mem) (snap : String) (props : FinMap String String) :
    (m.clone snap "" props).2 = m := by
  unfold Mem.clone
  rcases split_cases snap with ⟨d, n, hd, rfl, hsplit⟩ | ⟨_, hsplit⟩
  · simp only [hsplit, Bool.not_true, Bool.false_eq_true, if_false]
    split
    · rfl
    rename_i src hsrc
    obtain ⟨err, hcreate⟩ := create_empty m src.kind src.volsize props
    rw [hcreate]
    split_ifs <;> rfl
  · simp [hsplit]

theorem WellKept.create {m : Mem} (h : WellKept m) (Z : Zfs σ) {name : String}
    {kind : DatasetKind} {size : Int}
    {props : Props} (hname : name ≠ "" → neatName name ∧ Plain name ∧ AptProps Z props) :
    WellKept (m.create name kind size (FinMap.ofList (byKey props))).2 := by
  by_cases hempty : name = ""
  · obtain ⟨err, hcreate⟩ := create_empty m kind size (FinMap.ofList (byKey props))
    rwa [hempty, hcreate]
  · obtain ⟨hneat, hplain, hprops⟩ := hname hempty
    exact ⟨h.sound.create hplain _ _ _, h.neat.create hneat (neatProps_byKey hprops) _ _⟩

theorem WellKept.createZvol {m : Mem} (h : WellKept m) {name : String} {size : Int} {props : Props}
    (hname : Apt z Z m (.createZvol name size props)) :
    WellKept (m.createZvol name size (FinMap.ofList (byKey props))).2 := by
  unfold Mem.createZvol
  split_ifs with hsize
  · exact h
  · refine h.create Z fun hempty => ?_
    obtain ⟨hneat, hplain, _, hprops⟩ := hname hempty (by omega)
    exact ⟨hneat, hplain, hprops⟩

theorem WellKept.clone {m : Mem} (h : WellKept m) {snap dest : String} {props : Props}
    (hname : Apt z Z m (.clone snap dest props)) :
    WellKept (m.clone snap dest (FinMap.ofList (byKey props))).2 := by
  by_cases hempty : snap = "" ∨ dest = ""
  · have hsame : (m.clone snap dest (FinMap.ofList (byKey props))).2 = m := by
      rcases hempty with rfl | rfl
      · rfl
      · exact clone_empty m snap _
    rwa [hsame]
  · obtain ⟨hsnap, hdest⟩ := not_or.mp hempty
    obtain ⟨_, hneat, hplain, hprops, _⟩ := hname hsnap hdest
    exact ⟨h.sound.clone snap hplain _, h.neat.clone snap hneat (neatProps_byKey hprops)⟩

theorem WellKept.setProperty {m : Mem} (h : WellKept m) {name prop value : String}
    (hname : Apt z Z m (.setProperty name prop value)) :
    WellKept (m.setProperty name prop value).2 := by
  by_cases hempty : name = ""
  · have hroot : m.ds.lookup "" = none := by
      cases hD : m.ds.lookup "" with
      | none => rfl
      | some D => exact absurd (h.neat "" D hD).name (by decide +kernel)
    have hsplit : Memzfs.split "" = ("", "", false) := rfl
    subst hempty
    simpa [Mem.setProperty, hsplit, hroot] using h
  · exact ⟨h.sound.setProperty .., h.neat.setProperty name prop (hname hempty).2.2.2⟩

/-- The command line is a layer below the in-memory ZFS. -/
theorem cli_layer (hZ : Lawful z Z) (refl : ∀ a, R a a) (trans : ∀ a b c, R a b → R b c → R a c) :
    Layer handleOpen leftOpen (relyAbove R) (CliWorld.handle Z) CliCall.fails
      (relyBelow R) z.carryOut
      (CliWorld.abs Z) (fun s => WellKept (Z.mem s.pool)) fun e w => Apt z Z w.world.mem e where
  refl _ s := ⟨rfl, refl _⟩
  carried {e s l o t} hs hok hr := by
    have hapt : Apt z Z (Z.mem s.pool) e := hok (s.abs Z) ⟨rfl, refl _⟩
    cases e with
    | get name prop =>
      exact carried_zfs refl trans rfl (fun _ => rfl) (fun _ h => h) hs hs
        (get_meets hZ hs.sound hs.neat hapt) hr
    | createDataset name props =>
      exact carried_zfs refl trans rfl (fun _ => rfl) (fun _ h => h) hs (hs.create Z hapt)
        (createDataset_meets hZ refl hapt) hr
    | createZvol name size props =>
      exact carried_zfs refl trans rfl (fun _ => rfl) (fun _ h => h) hs (hs.createZvol hapt)
        (createZvol_meets hZ refl hapt) hr
    | snapshot names =>
      exact carried_zfs refl trans rfl (fun _ => rfl) (fun _ h => h) hs
        ⟨hs.sound.snapshot names, hs.neat.snapshot fun n hn => (hapt.1 n hn).1⟩
        (snapshot_meets hZ refl trans hs.sound hs.neat hapt) hr
    | clone snap dest props =>
      exact carried_zfs refl trans rfl (fun _ => rfl) (fun _ h => h) hs (hs.clone hapt)
        (clone_meets hZ refl hapt) hr
    | promote name =>
      refine carried_open refl trans rfl (fun r hr => ?_) ⟨_, .usual, rfl⟩ (fun _ h => h) hs
        ⟨hs.sound.promote name, hs.neat.promote hs.sound name⟩
        (promote_wp hZ refl trans hs.sound hs.neat hapt) hr
      obtain ⟨chance, rfl⟩ := hr
      exact ⟨chance, fun w hw => by rw [← hw]; rfl⟩
    | destroy name recursive =>
      exact carried_zfs refl trans rfl (fun _ => rfl) (fun _ h => h) hs
        ⟨hs.sound.destroy name recursive, hs.neat.destroy name recursive⟩
          (destroy_meets hZ refl hs.neat hapt) hr
    | destroySnapshotDeferred name =>
      exact carried_zfs refl trans rfl (fun _ => rfl) (fun _ h => h) hs
        ⟨hs.sound.destroySnapshotDeferred name, hs.neat.destroySnapshotDeferred name⟩
        (destroySnapshotDeferred_meets hZ refl hs.neat hapt) hr
    | listSnapshots dataset =>
      exact carried_zfs refl trans rfl (fun _ => rfl) (fun _ h => h) hs hs
        (listSnapshots_meets hZ refl hs.sound hs.neat hapt) hr
    | clones snap =>
      refine carried_open refl trans rfl (fun r hr => ?_) ⟨_, .usual, rfl⟩ (fun _ h => h) hs hs
        (clones_wp hZ refl hs.neat hapt) hr
      obtain ⟨chance, rfl⟩ := hr
      exact ⟨chance, fun w hw => by rw [← hw]; rfl⟩
    | setProperty name prop value =>
      exact carried_zfs refl trans rfl (fun _ => rfl) (fun _ h => h) hs (hs.setProperty hapt)
        (setProperty_meets hZ refl hapt) hr
    | applyOwnership mountpoint uid gid mode =>
      exact carried_zfs refl trans rfl (fun _ => rfl) (fun _ h => h) hs hs
        (applyOwnership_meets hZ refl trans mountpoint uid gid mode) hr
    | _ => exact carried_api rfl (fun _ _ => rfl) (fun _ h => h) hs hr

end Layer

end Meets

/-- Every run with the command line on a lawful zfs is matched by a run on the in-memory ZFS. -/
theorem cli_refines {σ α : Type} (z : CLI) (Z : Zfs σ) (hZ : Lawful z Z)
    (R : ApiState → ApiState → Prop)
    (refl : ∀ a, R a a) (trans : ∀ a b c, R a b → R b c → R a c)
    (p : Program AgentCall AgentCall.Ret α)
    (s t : CliWorld σ) (l : List (CliCall × CliWorld σ)) (o : Option α)
    (hs : Sound (Z.mem s.pool) []) (hneat : Neat (Z.mem s.pool).ds)
    (hp : p.wp handleOpen leftOpen (relyAbove R) (fun e w _ => Apt z Z w.world.mem e)
      (fun _ _ => True) (s.abs Z))
    (hr : Runs (CliWorld.handle Z) CliCall.fails (relyBelow R) (p.expand z.carryOut) s l o t) :
    ∃ l' o', Runs handleOpen leftOpen (relyAbove R) p (s.abs Z) l' o' (t.abs Z) ∧ ∀ a, o = some a →
      o' = some a :=
  ((cli_layer hZ refl trans).runs ⟨hs, hneat⟩ hp hr).2

/-- A dataset and its clone. -/
def clonedPool : Mem :=
  ((((Mem.new ["tank"]).createDataset "tank/a" .empty).2.snapshot ["tank/a@s"]).2.clone "tank/a@s"
    "tank/b" .empty).2

theorem clonedPool_wellKept : WellKept clonedPool where
  sound := (((Sound.new (by simp [Plain])).create (by simp [Plain]) _ _ _).snapshot _).clone _
    (by simp [Plain]) _
  neat := by
    have hempty : NeatProps .empty := fun _ _ h => by cases h
    have hnew : Neat (Mem.new ["tank"]).ds := by
      intro d D hD
      obtain ⟨hd, rfl⟩ := lookup_new hD
      obtain rfl := List.mem_singleton.mp hd
      exact ⟨by decide +kernel, hempty, fun _ _ h => by cases h⟩
    have hcreated :=
      hnew.create (show neatName "tank/a" = true by decide +kernel) hempty .filesystem 0
    exact (hcreated.snapshot (by decide +kernel)).clone _ (by decide +kernel) hempty

/-- The first promote does nothing. -/
def clonedWorld : CliWorld Host.State where
  api := { datasets := .empty, snapshots := .empty, pools := .empty, mem := Mem.new [], clock := 0 }
  pool := (clonedPool, 1)

/-- Promote the clone, and read its origin. -/
def promoteClone : Program AgentCall AgentCall.Ret (Except Err String) :=
  .call (.promote "tank/b") fun _ => .call (.get "tank/b" "origin") .pure

def clonePromoted : Except Err String × CliWorld Host.State :=
  (promoteClone.expand (CLI.carryOut {})).exec (CliWorld.handle hostZfs) clonedWorld

theorem promoteClone_refines : clonePromoted.1.toOption = some "-" ∧
    ∃ l' o', Runs handleOpen leftOpen (relyAbove Eq) promoteClone (clonedWorld.abs hostZfs) l' o'
      (clonePromoted.2.abs hostZfs) ∧ ∀ a, some clonePromoted.1 = some a → o' = some a := by
  refine ⟨by decide +kernel, ?_⟩
  have hsilent : silent (CLI.zfs {} (getArgs "tank/b" "origin")).line = true := by decide +kernel
  have hneat : neatName "tank/b" = true := by decide +kernel
  have hread :
      ∀ u, Program.wp handleOpen leftOpen (relyAbove Eq) (fun e w _ => Apt {} hostZfs w.world.mem e)
      (.call (.get "tank/b" "origin") .pure) (fun _ _ => True) u :=
    fun _ _ _ => ⟨⟨hneat, by decide, hsilent⟩, trivial, fun _ _ => trivial⟩
  refine cli_refines {} hostZfs hostZfs_lawful Eq (fun _ => rfl)
    (fun _ _ _ => Eq.trans) promoteClone
    clonedWorld clonePromoted.2 _ _ clonedPool_wellKept.sound clonedPool_wellKept.neat ?_
    (Runs.exec (fun _ _ => ⟨rfl, rfl⟩) _ _)
  exact fun _ _ => ⟨fun _ => ⟨hneat, by simp [Plain], hsilent⟩, hread _, fun _ _ => hread _⟩

end SimpleZfsCsi.Zpool
