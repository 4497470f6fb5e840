import SimpleZfsCsi.Library.Trace
import SimpleZfsCsi.Nvmet.Reconcile

/-!
# What a reconcile leaves alone

A subsystem that already has all that is desired is not touched, whatever the others need. For a
link this is decided by its text: it must read as the path that the code would link to.
-/

namespace SimpleZfsCsi.Nvmet

open Library Text Program

/-! ## Which calls are made -/

/-- If the call is a change, it takes place in `S`. -/
def Changes (S : Path → Prop) : FsCall → Prop
  | .change c => S c.path
  | _ => True

/-- The call changes nothing. -/
abbrev Reading : FsCall → Prop := Changes fun _ => False

/-- The call changes nothing that belongs to the subsystem, nor what this is in. -/
abbrev Undisturbed (T : Target) (s : Subsystem) : FsCall → Prop :=
  Changes fun p => ∀ q, AllPlaces T s q → ¬ p <:+ q

theorem Changes.mono {S S' : Path → Prop} (hS : ∀ p, S p → S' p) : ∀ e, Changes S e → Changes S' e
  | .change c, he => hS c.path he
  | .stat _, _ | .lstat _, _ | .readlink _, _ | .readDir _, _ | .readFile _, _ => trivial

/-- An attribute can be read, and says this. -/
def Tree.Reads (t : Tree) (p : Path) (value : String) : Prop :=
  ∃ content, t.readFile p = .ok content ∧ trimSpace content = value

theorem reads_of_attr {t : Tree} {p : Path} {value : String} (hattr : t.attr p = value)
    (hne : value ≠ "") :
    t.Reads p value := by
  unfold Tree.attr at hattr
  split at hattr
  · exact ⟨_, by assumption, hattr⟩
  · exact absurd hattr.symm hne

section Calls

variable {K : Kernel} {S : Path → Prop} {t : Tree} {p : Path} {α β : Type}

theorem stat_makes {f : Except Errno Node → Fs β}
    (hf : (f (t.stat p)).Makes K.handle (Changes S) t) :
    (stat p >>= f).Makes K.handle (Changes S) t := .outcome_ask trivial hf

theorem lstat_makes {f : Except Errno Node → Fs β}
    (hf : (f (t.lstat p)).Makes K.handle (Changes S) t) :
    (lstat p >>= f).Makes K.handle (Changes S) t := .outcome_ask trivial hf

theorem readlink_makes {f : Except Errno String → Fs β}
    (hf : (f (t.readlink p)).Makes K.handle (Changes S) t) :
    (readlink p >>= f).Makes K.handle (Changes S) t := .outcome_ask trivial hf

theorem readDir_makes {f : Except Errno (List (String × Node)) → Fs β}
    (hf : (f (t.readDir p)).Makes K.handle (Changes S) t) :
    (readDir p >>= f).Makes K.handle (Changes S) t :=
  .outcome_ask trivial hf

theorem readFile_makes {f : Except Errno String → Fs β}
    (hf : (f (t.readFile p)).Makes K.handle (Changes S) t) :
    (readFile p >>= f).Makes K.handle (Changes S) t := .outcome_ask trivial hf

theorem attempt_makes {c : Change} {f : Except Errno Unit → Fs β} (hc : S c.path)
    (hf : (f (K.change c t).1).Makes K.handle (Changes S) (K.change c t).2) :
    (attempt c >>= f).Makes K.handle (Changes S) t := .outcome_ask hc hf

theorem perform_makes {c : Change} (hc : S c.path) : (perform c).Makes K.handle (Changes S) t :=
  .ask hc

theorem wrapping_makes {msg : String} {p : Fs α} (hp : p.Makes K.handle (Changes S) t) :
    (wrapping msg p).Makes K.handle (Changes S) t := by
  refine .outcome_bind hp fun r u _ => ?_
  cases r with
  | ok a => exact .pure a
  | error e => exact .throw _

theorem readAttr_makes {f : Except Errno String → Fs β}
    (hf : ∀ r : Except Errno String, r.toOption.getD "" = t.attr p →
      (∀ value, r = .ok value ↔ t.Reads p value) →
      (f r).Makes K.handle (Changes S) t) :
    (readAttr p >>= f).Makes K.handle (Changes S) t := by
  unfold readAttr
  rw [LawfulMonad.bind_assoc]
  refine readFile_makes ?_
  cases hread : t.readFile p with
  | ok content =>
    refine hf (.ok (trimSpace content)) ?_ ?_
    · simp [Tree.attr, hread, Except.toOption]
    · simp [Tree.Reads, hread]
  | error e =>
    refine hf (.error e) ?_ ?_
    · simp [Tree.attr, hread, Except.toOption]
    · simp [Tree.Reads, hread]

end Calls

/-- What is only read stays as it is. -/
theorem state_of_reading {K : Kernel} {t : Tree} {α : Type} {p : Fs α}
    (hp : p.Makes K.handle Reading t) :
    (p.run.exec K.handle t).2 = t := by
  have hcall : ∀ e u, Reading e → u = t → (K.handle e u).2 = t := by
    intro e u he hu
    cases e with
    | change c => exact he.elim
    | _ => exact hu
  exact hp.invariant hcall rfl

theorem reading_bind {K : Kernel} {t : Tree} {α β : Type} {p : Fs α} {f : α → Fs β}
    (hp : p.Makes K.handle Reading t) (hf : ∀ a, (f a).Makes K.handle Reading t) :
    (p >>= f).Makes K.handle Reading t := by
  refine .bind hp fun a u hexec => ?_
  have hstate := state_of_reading hp
  rw [hexec] at hstate
  obtain rfl : u = t := hstate
  exact hf a

/-! ## The primitives

Each of them makes a change only when the tree is not yet as it should be. -/

section Primitives

variable {K : Kernel} {S : Path → Prop} {t : Tree} {p : Path}

theorem ensureDir_makes (hp : t.lookup p = none → S p) :
    (ensureDir p).Makes K.handle (Changes S) t := by
  unfold ensureDir
  refine stat_makes ?_
  simp only [Tree.stat]
  cases hfound : t.lookup p with
  | some n => cases n <;> exact .pure ()
  | none =>
    refine attempt_makes (hp hfound) ?_
    cases (K.change (.mkdir p) t).1 with
    | ok _ => exact .pure ()
    | error e => cases e <;> first | exact .pure () | exact .throw _

theorem writeAttr_makes (hp : S p) (value : String) :
    (writeAttr p value).Makes K.handle (Changes S) t :=
  perform_makes hp

theorem writeAttrIfChanged_makes {value : String} (hp : ¬ t.Reads p value → S p) :
    (writeAttrIfChanged p value).Makes K.handle (Changes S) t := by
  unfold writeAttrIfChanged
  refine readAttr_makes fun r _ hread => ?_
  cases r with
  | error e =>
    refine writeAttr_makes (hp fun h => ?_) value
    cases (hread value).mpr h
  | ok cur =>
    dsimp only
    split_ifs with hcur
    · exact .pure ()
    · refine writeAttr_makes (hp fun h => hcur ?_) value
      simpa using (hread value).mpr h

theorem removeIfExists_makes (hp : S p) : (removeIfExists p).Makes K.handle (Changes S) t := by
  unfold removeIfExists
  refine lstat_makes ?_
  cases t.lstat p with
  | ok n => exact perform_makes hp
  | error e => cases e <;> first | exact .pure () | exact .throw _

theorem symlink_makes {target link : Path} (hlink : S link) : Proc.Makes K.handle (Changes S) (do
    match ← attempt (.symlink target link) with
    | .ok _ | .error .exist => return
    | .error e => throw (.os e)) t := by
  refine attempt_makes hlink ?_
  cases (K.change (.symlink target link) t).1 with
  | ok _ => exact .pure ()
  | error e => cases e <;> first | exact .pure () | exact .throw _

theorem ensureSymlink_makes {root : String} {target link : Path}
    (hlink : t.lookup link ≠ some (.link (pathText root target)) → S link) :
    (ensureSymlink root target link).Makes K.handle (Changes S) t := by
  unfold ensureSymlink
  refine readlink_makes ?_
  simp only [Tree.readlink]
  cases hfound : t.lookup link with
  | none => exact symlink_makes (hlink (by simp [hfound]))
  | some n =>
    cases n with
    | link text =>
      dsimp only
      split_ifs with htext
      · exact .pure ()
      · have hS := hlink (by simpa [hfound] using htext)
        exact .bind (perform_makes hS) fun _ _ _ => symlink_makes hS
    | dir =>
      have hS := hlink (by simp [hfound])
      refine lstat_makes ?_
      simp only [Tree.lstat, hfound]
      exact .bind (perform_makes hS) fun _ _ _ => symlink_makes hS
    | file content =>
      have hS := hlink (by simp [hfound])
      refine lstat_makes ?_
      simp only [Tree.lstat, hfound]
      exact .bind (perform_makes hS) fun _ _ _ => symlink_makes hS

/-- A link that is not touched reads as the path that the code links to. -/
theorem ensureSymlink_reveals {root text : String} {target link : Path}
    (hfound : t.lookup link = some (.link text))
    (hlink : ¬ S link) :
    (ensureSymlink root target link).Reveals K.handle (Changes S) t
      (text = pathText root target) := by
  unfold ensureSymlink
  refine .outcome_ask fun _ => ?_
  simp only [Kernel.handle, Tree.readlink, hfound]
  split_ifs with htext
  · exact fun _ _ _ _ => htext
  · refine .bind fun _ _ _ hmakes => ?_
    exact absurd (Proc.Makes.of_ask hmakes) hlink

end Primitives

/-! ## Other subsystems -/

section Others

variable {K : Kernel} {T : Target} {S : Path → Prop} {t : Tree}

theorem dropOthers_makes {dir : Path} {want names : List String} (hnames : ∀ n ∈ names, Leaf n)
    (hS : ∀ n ∈ names, n ∉ want → S (n :: dir)) :
    (Target.dropOthers dir want names).Makes K.handle (Changes S) t := by
  induction names generalizing t with
  | nil => exact .pure ()
  | cons n rest ih =>
    obtain ⟨hn, hrest⟩ := List.forall_mem_cons.mp hnames
    obtain ⟨hSn, hSrest⟩ := List.forall_mem_cons.mp hS
    unfold Target.dropOthers
    split_ifs with hwant
    · exact ih hrest hSrest
    · simp only [div_leaf hn]
      exact .bind (perform_makes (hSn hwant)) fun _ _ _ => ih hrest hSrest

theorem clearLinks_makes {dir : Path} {names : List String} (hnames : ∀ n ∈ names, Leaf n)
    (hS : ∀ n, S (n :: dir)) : (Target.clearLinks dir names).Makes K.handle (Changes S) t := by
  induction names generalizing t with
  | nil => exact .pure ()
  | cons n rest ih =>
    obtain ⟨hn, hrest⟩ := List.forall_mem_cons.mp hnames
    unfold Target.clearLinks
    rw [div_leaf hn]
    exact attempt_makes (hS n) (ih hrest)

theorem allowHosts_makes {nqn key : String} {hosts : List String} (hhosts : ∀ h ∈ hosts, Leaf h)
    (hdirs : ∀ h ∈ hosts, S [h, "hosts"]) (hkeys : ∀ h ∈ hosts, S ["dhchap_key", h, "hosts"])
    (hlinks : ∀ h ∈ hosts, S [h, "allowed_hosts", nqn, "subsystems"]) :
    (T.allowHosts ["allowed_hosts", nqn, "subsystems"] key hosts).Makes K.handle (Changes S) t := by
  induction hosts generalizing t with
  | nil => exact .pure ()
  | cons h rest ih =>
    simp only [List.forall_mem_cons] at hhosts hdirs hkeys hlinks
    refine .bind ?_ fun _ _ _ => ih hhosts.2 hdirs.2 hkeys.2 hlinks.2
    unfold Target.allowHost
    simp only [Target.hostsDir, div_leaf hhosts.1, div_dhchap_key]
    refine .bind (ensureDir_makes fun _ => hdirs.1) fun _ _ _ => ?_
    split_ifs with hkey
    · exact .bind (wrapping_makes (writeAttrIfChanged_makes fun _ => hkeys.1)) fun _ _ _ =>
        ensureSymlink_makes fun _ => hlinks.1
    · exact ensureSymlink_makes fun _ => hlinks.1

variable (hK : K.Lawful T.root)

include hK

theorem reconcileAllowedHosts_makes (ht : K.WellFormed t) {nqn key : String} {hosts : List String}
    (hhosts : ∀ h ∈ hosts, Leaf h) (hdirs : ∀ h ∈ hosts, S [h, "hosts"])
    (hkeys : ∀ h ∈ hosts, S ["dhchap_key", h, "hosts"])
    (hlinks : ∀ h, S [h, "allowed_hosts", nqn, "subsystems"]) :
    (T.reconcileAllowedHosts [nqn, "subsystems"] hosts key).Makes K.handle (Changes S) t := by
  unfold Target.reconcileAllowedHosts
  simp only [div_allowed_hosts]
  refine .bind (allowHosts_makes hhosts hdirs hkeys fun h _ => hlinks h) fun _ u
    hexec => readDir_makes ?_
  cases hread : u.readDir ["allowed_hosts", nqn, "subsystems"] with
  | ok found => exact dropOthers_makes (leaf_of_readDir (hK.exec_wellFormed ht hexec) hread) fun n
    _ _ => hlinks n
  | error e => cases e <;> first | exact .pure () | exact .throw _

theorem ensureSubsystem_makes (ht : K.WellFormed t) (hport : Leaf T.port.id) {s : Subsystem}
    (hnqn : Leaf s.nqn)
    (hhosts : ∀ h ∈ s.allowedHosts, Leaf h) :
    (T.ensureSubsystem s).Makes K.handle (Changes (AllPlaces T s)) t := by
  have hinside : ∀ q, [s.nqn, "subsystems"] <:+ q → AllPlaces T s q := fun q hq => .inl (.inr hq)
  have hhost : ∀ h ∈ s.allowedHosts, ∀ q, [h, "hosts"] <:+ q → AllPlaces T s q :=
    fun h hh q hq => .inl (.inl ⟨h, hh, hq⟩)
  unfold Target.ensureSubsystem
  simp only [Target.subsystemsDir, Target.portDir, div_leaf hnqn, div_leaf hport,
    div_namespaces, div_one, div_subsystems]
  refine .bind (ensureDir_makes fun _ => hinside _ (List.suffix_refl _)) fun _ t₁ h₁ => .bind ?_
    fun _ t₂ _ => .bind ?_
    fun _ t₃ _ => wrapping_makes (ensureSymlink_makes fun _ => .inr (List.suffix_refl _))
  · have hattr : AllPlaces T s ["attr_allow_any_host", s.nqn, "subsystems"] :=
      hinside _ (List.suffix_cons _ _)
    unfold Target.ensureAccess
    simp only [div_attr_allow_any_host]
    split_ifs
    · exact writeAttrIfChanged_makes fun _ => hattr
    · refine .bind (writeAttrIfChanged_makes fun _ => hattr) fun _ u hexec => ?_
      refine reconcileAllowedHosts_makes hK (hK.exec_wellFormed (hK.exec_wellFormed ht h₁) hexec)
        hhosts ?_ ?_ ?_
      · exact fun h hh => hhost h hh _ (List.suffix_refl _)
      · exact fun h hh => hhost h hh _ (List.suffix_cons _ _)
      · exact fun h => hinside _ ((List.suffix_cons _ _).trans (List.suffix_cons _ _))
  · have hns : ∀ n, AllPlaces T s [n, "1", "namespaces", s.nqn, "subsystems"] :=
      fun n => hinside _ (by simp [List.suffix_cons_iff])
    unfold Target.ensureNamespace
    simp only [div_enable, div_device_path]
    refine .bind (ensureDir_makes fun _ => hinside _ (by simp [List.suffix_cons_iff])) fun _ _
      _ => readAttr_makes fun r _ _ => ?_
    split_ifs
    · exact .bind (writeAttrIfChanged_makes fun _ => hns _) fun _ _ _ => .bind
        (wrapping_makes (writeAttr_makes (hns _) _))
        fun _ _ _ => wrapping_makes (writeAttrIfChanged_makes fun _ => hns _)
    · exact wrapping_makes (writeAttrIfChanged_makes fun _ => hns _)

omit hK in
/-- The end of `removeSubsystem`, after the namespace. -/
theorem removeSubsystem_rest_makes (ht : K.WellFormed t) {nqn : String}
    (hS : ∀ q, [nqn, "subsystems"] <:+ q → S q) :
    Proc.Makes K.handle (Changes S) (do
      match ← readDir ["allowed_hosts", nqn, "subsystems"] with
      | .ok found => Target.clearLinks ["allowed_hosts", nqn, "subsystems"] (found.map (·.1))
      | .error _ => pure ()
      removeIfExists [nqn, "subsystems"]) t := by
  have hremove : ∀ u, (removeIfExists [nqn, "subsystems"]).Makes K.handle (Changes S) u :=
    fun u => removeIfExists_makes (hS _ (List.suffix_refl _))
  refine readDir_makes ?_
  cases hread : t.readDir ["allowed_hosts", nqn, "subsystems"] with
  | error e => exact hremove t
  | ok found =>
    refine .bind (clearLinks_makes (leaf_of_readDir ht hread) fun n => hS _ ?_) fun _ u
      _ => hremove u
    exact (List.suffix_cons _ _).trans (List.suffix_cons _ _)

theorem removeSubsystem_makes (ht : K.WellFormed t) (hport : Leaf T.port.id) {nqn : String}
    (hnqn : Leaf nqn) :
    (T.removeSubsystem nqn).Makes K.handle (Changes (OldPlaces T nqn)) t := by
  have hinside : ∀ q, [nqn, "subsystems"] <:+ q → OldPlaces T nqn q := fun q hq => .inl hq
  unfold Target.removeSubsystem
  simp only [Target.subsystemsDir, Target.portDir, div_leaf hnqn, div_leaf hport,
    div_namespaces, div_one, div_subsystems, div_enable, div_allowed_hosts]
  refine .bind (removeIfExists_makes (.inr (List.suffix_refl _))) fun _ u hexec => stat_makes ?_
  have hu := hK.exec_wellFormed ht hexec
  cases u.stat ["1", "namespaces", nqn, "subsystems"] with
  | error e => exact removeSubsystem_rest_makes hu hinside
  | ok node =>
    refine attempt_makes (hinside _ (by simp [Change.path, List.suffix_cons_iff])) ?_
    refine .bind
      (wrapping_makes (perform_makes (hinside _ (by simp [Change.path, List.suffix_cons_iff])))) ?_
    exact fun _ u' hexec' => removeSubsystem_rest_makes
      (hK.exec_wellFormed (hK.wellFormed _ u hu) hexec') hinside

theorem removeOthers_makes (ht : K.WellFormed t) (hport : Leaf T.port.id)
    {want : FinMap String Subsystem}
    {names : List String} (hnames : ∀ n ∈ names, Leaf n) :
    (T.removeOthers want names).Makes K.handle
      (Changes fun p => ∃ n, want.contains n = false ∧ OldPlaces T n p) t := by
  induction names generalizing t with
  | nil => exact .pure ()
  | cons n rest ih =>
    obtain ⟨hn, hrest⟩ := List.forall_mem_cons.mp hnames
    unfold Target.removeOthers
    split_ifs with hwant
    · refine .bind (wrapping_makes ((removeSubsystem_makes hK ht hport hn).mono ?_))
        fun _ u hexec =>
        ih (hK.exec_wellFormed ht hexec) hrest
      exact Changes.mono fun p hp => ⟨n, by simpa using hwant, hp⟩
    · exact ih ht hrest

end Others

/-! ## A subsystem that needs nothing -/

/-- All that `ensureSubsystem` looks for is there. -/
structure Settled (T : Target) (s : Subsystem) (t : Tree) : Prop where
  found : (t.lookup [s.nqn, "subsystems"]).isSome
  allowAny : t.attr ["attr_allow_any_host", s.nqn, "subsystems"] = if s.allowedHosts =
    [] then "1" else "0"
  hosts : ∀ h ∈ s.allowedHosts, (t.lookup [h, "hosts"]).isSome
  keys : s.dhChapKey ≠ "" → ∀ h ∈ s.allowedHosts, t.attr ["dhchap_key", h, "hosts"] = s.dhChapKey
  links : ∀ h ∈ s.allowedHosts,
    t.lookup [h, "allowed_hosts", s.nqn, "subsystems"] = some (.link (pathText T.root [h, "hosts"]))
  only : s.allowedHosts ≠ [] →
    ∀ h, (t.lookup [h, "allowed_hosts", s.nqn, "subsystems"]).isSome → h ∈ s.allowedHosts
  device : t.attr ["device_path", "1", "namespaces", s.nqn, "subsystems"] = s.devicePath
  enabled : t.attr ["enable", "1", "namespaces", s.nqn, "subsystems"] = "1"
  port : t.lookup [s.nqn, "subsystems", T.port.id, "ports"] =
    some (.link (pathText T.root [s.nqn, "subsystems"]))

section Settled

variable {K : Kernel} {T : Target} {s : Subsystem} {t u : Tree}

/-- What is in a place of the subsystem decides. -/
theorem Settled.congr (h : Settled T s t) (hsame : ∀ q, AllPlaces T s q → u.lookup q = t.lookup q) :
    Settled T s u := by
  have hinside : ∀ q, [s.nqn, "subsystems"] <:+ q → u.lookup q = t.lookup q :=
    fun q hq => hsame q (.inl (.inr hq))
  have hhost : ∀ h ∈ s.allowedHosts, ∀ q, [h, "hosts"] <:+ q → u.lookup q = t.lookup q :=
    fun h hh q hq => hsame q (.inl (.inl ⟨h, hh, hq⟩))
  have hlinks : ∀ h, u.lookup [h, "allowed_hosts", s.nqn, "subsystems"] =
      t.lookup [h, "allowed_hosts", s.nqn, "subsystems"] :=
    fun h => hinside _ (by simp [List.suffix_cons_iff])
  refine ⟨?_, ?_, fun x hx => ?_, fun hkey x hx => ?_, fun x hx => ?_,
    fun hne x hx => ?_, ?_, ?_, ?_⟩
  · rw [hinside _ (List.suffix_refl _)]
    exact h.found
  · rw [attr_congr (hinside _ (List.suffix_cons _ _)), h.allowAny]
  · rw [hhost x hx _ (List.suffix_refl _)]
    exact h.hosts x hx
  · rw [attr_congr (hhost x hx _ (List.suffix_cons _ _)), h.keys hkey x hx]
  · rw [hlinks, h.links x hx]
  · exact h.only hne x (by rwa [← hlinks])
  · rw [attr_congr (hinside _ (by simp [List.suffix_cons_iff])), h.device]
  · rw [attr_congr (hinside _ (by simp [List.suffix_cons_iff])), h.enabled]
  · rw [hsame _ (.inr (List.suffix_refl _)), h.port]

theorem isSome_of_attr {q : Path} (hattr : t.attr q ≠ "") : (t.lookup q).isSome := by
  by_contra hnone
  rw [Bool.not_eq_true, Option.isSome_eq_false_iff, Option.isNone_iff_eq_none] at hnone
  exact hattr (attr_of_none hnone)

theorem ensureDir_reading {p : Path} (hp : (t.lookup p).isSome) :
    (ensureDir p).Makes K.handle Reading t :=
  ensureDir_makes fun hnone => by simp [hnone] at hp

theorem writeAttrIfChanged_reading {p : Path} {value : String} (hp : t.Reads p value) :
    (writeAttrIfChanged p value).Makes K.handle Reading t :=
  writeAttrIfChanged_makes fun h => h hp

theorem ensureSymlink_reading {root : String} {target link : Path}
    (hlink : t.lookup link = some (.link (pathText root target))) :
    (ensureSymlink root target link).Makes K.handle Reading t :=
  ensureSymlink_makes fun hne => hne hlink

theorem Settled.allowHosts_reading (h : Settled T s t) {hosts : List String}
    (hhosts : ∀ x ∈ hosts, x ∈ s.allowedHosts)
    (hleaf : ∀ x ∈ hosts, Leaf x) :
    (T.allowHosts ["allowed_hosts", s.nqn, "subsystems"] s.dhChapKey hosts).Makes K.handle
      Reading t := by
  induction hosts with
  | nil => exact .pure ()
  | cons x rest ih =>
    obtain ⟨hx, hrest⟩ := List.forall_mem_cons.mp hhosts
    obtain ⟨hxleaf, hleaf⟩ := List.forall_mem_cons.mp hleaf
    refine reading_bind ?_ fun _ => ih hrest hleaf
    unfold Target.allowHost
    simp only [Target.hostsDir, div_leaf hxleaf, div_dhchap_key]
    refine reading_bind (ensureDir_reading (h.hosts x hx)) fun _ => ?_
    split_ifs with hkey
    · exact reading_bind
        (wrapping_makes (writeAttrIfChanged_reading (reads_of_attr (h.keys hkey x hx) hkey)))
        fun _ =>
        ensureSymlink_reading (h.links x hx)
    · exact ensureSymlink_reading (h.links x hx)

theorem Settled.ensureAccess_reading (h : Settled T s t) (ht : K.WellFormed t)
    (hhosts : ∀ x ∈ s.allowedHosts, Leaf x) :
    (T.ensureAccess [s.nqn, "subsystems"] s).Makes K.handle Reading t := by
  unfold Target.ensureAccess
  simp only [div_attr_allow_any_host]
  split_ifs with hany
  · exact writeAttrIfChanged_reading (reads_of_attr (by rw [h.allowAny, if_pos hany]) (by decide))
  · refine reading_bind
      (writeAttrIfChanged_reading (reads_of_attr (by rw [h.allowAny, if_neg hany]) (by decide)))
      fun _ => ?_
    unfold Target.reconcileAllowedHosts
    simp only [div_allowed_hosts]
    refine reading_bind (h.allowHosts_reading (fun _ => id) hhosts) fun _ => readDir_makes ?_
    cases hread : t.readDir ["allowed_hosts", s.nqn, "subsystems"] with
    | ok found =>
      refine dropOthers_makes (leaf_of_readDir ht hread) fun n hn hnot => hnot (h.only hany n ?_)
      obtain ⟨⟨_, node⟩, hmem, rfl⟩ := List.mem_map.mp hn
      exact Option.isSome_iff_exists.mpr ⟨node, (mem_readDir hread).mp hmem⟩
    | error e => cases e <;> first | exact .pure () | exact .throw _

theorem Settled.ensureSubsystem_reading (h : Settled T s t) (ht : K.WellFormed t)
    (hport : Leaf T.port.id)
    (hnqn : Leaf s.nqn) (hhosts : ∀ x ∈ s.allowedHosts, Leaf x) :
    (T.ensureSubsystem s).Makes K.handle Reading t := by
  have henable : (t.lookup ["enable", "1", "namespaces", s.nqn, "subsystems"]).isSome :=
    isSome_of_attr (by rw [h.enabled]; decide)
  unfold Target.ensureSubsystem
  simp only [Target.subsystemsDir, Target.portDir, div_leaf hnqn, div_leaf hport,
    div_namespaces, div_one, div_subsystems]
  refine reading_bind (ensureDir_reading h.found) fun _ => ?_
  refine reading_bind (h.ensureAccess_reading ht hhosts) fun _ => ?_
  refine reading_bind ?_ fun _ => wrapping_makes (ensureSymlink_reading h.port)
  unfold Target.ensureNamespace
  simp only [div_enable, div_device_path]
  refine reading_bind (ensureDir_reading (ht.rooted _ _ henable)) fun _ => readAttr_makes
    fun r hr _ => ?_
  rw [if_neg (by rw [hr, h.device]; simp)]
  exact wrapping_makes (writeAttrIfChanged_reading (reads_of_attr h.enabled (by decide)))

end Settled

/-! ## The whole run -/

/-- The tree is well-formed, and the subsystem is as it was. -/
structure Resting (K : Kernel) (T : Target) (s : Subsystem) (t u : Tree) : Prop where
  wellFormed : K.WellFormed u
  same : ∀ q, AllPlaces T s q → u.lookup q = t.lookup q

section Whole

variable {K : Kernel} {T : Target} {s s' : Subsystem} {t u : Tree} {S : Path → Prop}

/-- The places of two subsystems that have nothing in common are apart. -/
theorem Apart.undisturbed (h : Apart s s') {p : Path} (hp : AllPlaces T s' p) :
    ∀ q, AllPlaces T s q → ¬ p <:+ q := by
  obtain ⟨hne, hhosts⟩ := h
  intro q hq hpq
  -- both are below `q`, so that one of the two paths continues the other
  rcases hq with (⟨x, hx, hq⟩ | hq) | hq <;> rcases hp with (⟨y, hy, hp⟩ | hp) | hp <;>
    rcases List.suffix_or_suffix_of_suffix hq (hp.trans hpq) with h' | h' <;>
    simp [List.suffix_cons_iff] at h' <;> grind

theorem undisturbed_of_oldPlaces {n : String} (hne : n ≠ s.nqn) {p : Path} (hp : OldPlaces T n p) :
    ∀ q, AllPlaces T s q → ¬ p <:+ q := by
  intro q hq hpq
  rcases hq with (⟨x, hx, hq⟩ | hq) | hq <;> rcases hp with hp | hp <;>
    rcases List.suffix_or_suffix_of_suffix hq (hp.trans hpq) with h' | h' <;>
    simp [List.suffix_cons_iff] at h' <;> grind

theorem undisturbed_of_portAttr {name : String} (hne : name ≠ "subsystems") :
    ∀ q, AllPlaces T s q → ¬ [name, T.port.id, "ports"] <:+ q := by
  intro q hq hpq
  rcases hq with (⟨x, hx, hq⟩ | hq) | hq <;> rcases List.suffix_or_suffix_of_suffix hq
    hpq with h' | h' <;>
    simp [List.suffix_cons_iff] at h'
  exact hne h'

theorem Resting.exec (hK : K.Lawful T.root) (h : Resting K T s t u) {α : Type} {p : Fs α}
    {r : Except Err α} {u' : Tree}
    (hp : p.Makes K.handle (Undisturbed T s) u) (hexec : p.run.exec K.handle u = (r, u')) :
    Resting K T s t u' := by
  have hcall : ∀ e v, Undisturbed T s e → Resting K T s t v → Resting K T s t (K.handle e v).2 := by
    intro e v he hv
    refine ⟨hK.handle_wellFormed e hv.wellFormed, fun q hq => ?_⟩
    cases e with
    | change c => exact (hK.confined c v q (he q hq)).trans (hv.same q hq)
    | _ => exact hv.same q hq
  have hu' := hp.invariant hcall h
  rwa [hexec] at hu'

theorem mkdirAll_reading {p : Path} (hp : (t.lookup p).isSome) :
    (mkdirAll p).Makes K.handle Reading t := by
  have hafter : ∀ parents, (mkdirAfter parents p).Makes K.handle Reading t := by
    intro parents
    unfold mkdirAfter
    refine stat_makes ?_
    simp only [Tree.stat]
    obtain ⟨node, hnode⟩ := Option.isSome_iff_exists.mp hp
    rw [hnode]
    cases node with
    | dir => exact .pure ()
    | file content => exact .throw _
    | link text => exact .pure ()
  cases p with
  | nil => exact hafter _
  | cons n p => exact hafter _

theorem portDir_eq (hport : Leaf T.port.id) : T.portDir = [T.port.id, "ports"] ∧
    T.portDir.dir = ["ports"] := by
  have hdir : T.portDir = [T.port.id, "ports"] := div_leaf hport _
  refine ⟨hdir, ?_⟩
  rw [hdir, Path.dir, if_neg hport.2.2.1]

theorem setPortAttrs_makes (hport : Leaf T.port.id) {attrs : List (String × String)}
    (hattrs : ∀ a ∈ attrs, Leaf a.1)
    (hS : ∀ a ∈ attrs, S [a.1, T.port.id, "ports"]) :
    (T.setPortAttrs attrs).Makes K.handle (Changes S) t := by
  induction attrs generalizing t with
  | nil => exact .pure ()
  | cons a rest ih =>
    obtain ⟨name, want⟩ := a
    obtain ⟨ha, hrest⟩ := List.forall_mem_cons.mp hattrs
    obtain ⟨hSa, hSrest⟩ := List.forall_mem_cons.mp hS
    unfold Target.setPortAttrs
    simp only [(portDir_eq hport).1, div_leaf ha]
    exact .bind (wrapping_makes (writeAttrIfChanged_makes fun _ => hSa)) fun _ _
      _ => ih hrest hSrest

theorem listSubsystems_makes : Target.listSubsystems.Makes K.handle (Changes S) t := by
  unfold Target.listSubsystems
  refine readDir_makes ?_
  cases t.readDir Target.subsystemsDir with
  | ok found => exact .pure _
  | error e => cases e <;> first | exact .pure _ | exact .throw _

/-- The port that a subsystem is linked to is there. -/
theorem ensurePort_undisturbed (ht : K.WellFormed t) (hport : Leaf T.port.id)
    {attrs : List (String × String)}
    (hattrs : ∀ a ∈ attrs, Leaf a.1 ∧ a.1 ≠ "subsystems")
    (hlinked : (t.lookup [s.nqn, "subsystems", T.port.id, "ports"]).isSome) :
    (T.ensurePort attrs).Makes K.handle (Undisturbed T s) t := by
  have hdir := ht.rooted _ _ (ht.rooted _ _ hlinked)
  have hparent : (mkdirAll T.portDir.dir).Makes K.handle Reading t := by
    rw [(portDir_eq hport).2]
    exact mkdirAll_reading (ht.rooted _ _ hdir)
  have hweaken : ∀ e, Reading e → Undisturbed T s e := Changes.mono fun _ => False.elim
  unfold Target.ensurePort
  refine .bind (hparent.mono hweaken) fun _ t₁ h₁ => ?_
  obtain rfl : t₁ = t := by simpa [h₁] using state_of_reading hparent
  refine .bind ((wrapping_makes (ensureDir_reading ?_)).mono hweaken) fun _ _ _ => ?_
  · rw [(portDir_eq hport).1]
    exact hdir
  · exact setPortAttrs_makes hport (fun a ha => (hattrs a ha).1) fun a ha => undisturbed_of_portAttr
      (hattrs a ha).2

end Whole

/-- The links of the subsystem read as the paths that the code links to. -/
structure Literal (T : Target) (s : Subsystem) (t : Tree) : Prop where
  hosts : ∀ h ∈ s.allowedHosts,
    t.lookup [h, "allowed_hosts", s.nqn, "subsystems"] = some (.link (pathText T.root [h, "hosts"]))
  port : t.lookup [s.nqn, "subsystems", T.port.id, "ports"] =
    some (.link (pathText T.root [s.nqn, "subsystems"]))

/-- The subsystem has its links, whatever they read as. -/
structure Linked (T : Target) (s : Subsystem) (t : Tree) : Prop where
  hosts : ∀ h ∈ s.allowedHosts, ∃ text, t.lookup [h, "allowed_hosts", s.nqn, "subsystems"] =
    some (.link text)
  port : ∃ text, t.lookup [s.nqn, "subsystems", T.port.id, "ports"] = some (.link text)

section Reconcile

variable {K : Kernel} {T : Target} (hK : K.Lawful T.root) (hport : Leaf T.port.id)
    {s : Subsystem} {t u : Tree}

include hK

/-- A host whose link is not touched has the text that it should have. -/
theorem allowHosts_reveals (hrest : Resting K T s t u) {key : String} {hosts : List String}
    (hhosts : ∀ h ∈ hosts, h ∈ s.allowedHosts) (hleaf : ∀ h ∈ hosts, Leaf h)
    (hlinked : Linked T s t) :
    (T.allowHosts ["allowed_hosts", s.nqn, "subsystems"] key hosts).Reveals K.handle
      (Undisturbed T s) u
      (∀ h ∈ hosts, t.lookup [h, "allowed_hosts", s.nqn, "subsystems"] =
        some (.link (pathText T.root [h, "hosts"]))) := by
  induction hosts generalizing u with
  | nil => exact fun _ _ _ _ => by simp
  | cons x rest ih =>
    obtain ⟨hx, hmem⟩ := List.forall_mem_cons.mp hhosts
    obtain ⟨hxleaf, hleaf⟩ := List.forall_mem_cons.mp hleaf
    obtain ⟨text, htext⟩ := hlinked.hosts x hx
    have hplace : AllPlaces T s [x, "allowed_hosts", s.nqn, "subsystems"] :=
      .inl (.inr (by simp [List.suffix_cons_iff]))
    have hlink : ∀ v, Resting K T s t v →
        (ensureSymlink T.root [x, "hosts"] [x, "allowed_hosts", s.nqn, "subsystems"]).Reveals
          K.handle (Undisturbed T s) v
          (t.lookup [x, "allowed_hosts", s.nqn, "subsystems"] =
            some (.link (pathText T.root [x, "hosts"]))) := by
      intro v hv
      refine (ensureSymlink_reveals ((hv.same _ hplace).trans htext) fun h => h _ hplace
        (List.suffix_refl _)).mono ?_
      exact fun heq => heq ▸ htext
    have hfirst : (T.allowHost ["allowed_hosts", s.nqn, "subsystems"] key x).Reveals K.handle
        (Undisturbed T s) u
        (t.lookup [x, "allowed_hosts", s.nqn, "subsystems"] =
          some (.link (pathText T.root [x, "hosts"]))) := by
      unfold Target.allowHost
      simp only [Target.hostsDir, div_leaf hxleaf, div_dhchap_key]
      refine .bind fun _ v hexec hmakes => ?_
      have hv := hrest.exec hK hmakes hexec
      split_ifs
      · exact .bind fun _ w hexec' hmakes' => hlink w (hv.exec hK hmakes' hexec')
      · exact hlink v hv
    intro a v hexec hmakes
    refine List.forall_mem_cons.mpr ⟨hfirst.first a v hexec hmakes, ?_⟩
    refine Proc.Reveals.bind (fun _ w hexec' hmakes' => ?_) a v hexec hmakes
    exact ih (hrest.exec hK hmakes' hexec') hmem hleaf

include hport

theorem ensureSubsystem_reveals (hrest : Resting K T s t u) (hnqn : Leaf s.nqn)
    (hhosts : ∀ h ∈ s.allowedHosts, Leaf h)
    (hlinked : Linked T s t) :
    (T.ensureSubsystem s).Reveals K.handle (Undisturbed T s) u (Literal T s t) := by
  unfold Target.ensureSubsystem
  simp only [Target.subsystemsDir, Target.portDir, div_leaf hnqn, div_leaf hport,
    div_namespaces, div_one, div_subsystems]
  refine .bind fun _ u₁ h₁ hmakes₁ => ?_
  have hrest₁ := hrest.exec hK hmakes₁ h₁
  have haccess : (T.ensureAccess [s.nqn, "subsystems"] s).Reveals K.handle (Undisturbed T s) u₁
      (∀ h ∈ s.allowedHosts, t.lookup [h, "allowed_hosts", s.nqn, "subsystems"] =
        some (.link (pathText T.root [h, "hosts"]))) := by
    unfold Target.ensureAccess
    split_ifs with hany
    · exact fun _ _ _ _ => by simp [hany]
    · refine .bind fun _ u₂ h₂ hmakes₂ => ?_
      unfold Target.reconcileAllowedHosts
      simp only [div_allowed_hosts]
      exact (allowHosts_reveals hK (hrest₁.exec hK hmakes₂ h₂) (fun _ => id) hhosts hlinked).first
  have hlast : ∀ v, Resting K T s t v →
      (wrapping "attach subsystem to port" (ensureSymlink T.root [s.nqn, "subsystems"]
      [s.nqn, "subsystems", T.port.id, "ports"])).Reveals K.handle (Undisturbed T s) v
      (t.lookup [s.nqn, "subsystems", T.port.id, "ports"] =
        some (.link (pathText T.root [s.nqn, "subsystems"]))) := by
    intro v hv
    obtain ⟨text, htext⟩ := hlinked.port
    have hplace : AllPlaces T s [s.nqn, "subsystems", T.port.id, "ports"] :=
      .inr (List.suffix_refl _)
    refine .outcome_bind fun r w hexec hmakes => ?_
    cases r with
    | error e =>
      intro a x hthrow
      cases hthrow
    | ok a =>
      intro _ _ _ _
      have heq :=
        ensureSymlink_reveals ((hv.same _ hplace).trans htext)
        (fun h => h _ hplace (List.suffix_refl _)) a w hexec hmakes
      rw [htext, heq]
  intro a v hexec hmakes
  refine ⟨haccess.first a v hexec hmakes, ?_⟩
  refine Proc.Reveals.bind (fun _ u₂ h₂ hmakes₂ => .bind fun _ u₃ h₃ hmakes₃ => ?_) a v hexec hmakes
  exact hlast u₃ ((hrest₁.exec hK hmakes₂ h₂).exec hK hmakes₃ h₃)

/-- One of several subsystems that have nothing in common is left alone if it needs nothing. -/
theorem ensureSubsystems_undisturbed (hrest : Resting K T s t u) (hsettled : Settled T s t)
    {want : FinMap String Subsystem} {ss : List Subsystem}
    (hwant : ∀ x ∈ ss, want.lookup x.nqn = some x)
    (hnames : ∀ x ∈ ss, Leaf x.nqn ∧ ∀ h ∈ x.allowedHosts, Leaf h)
    (hapart : ∀ x ∈ ss, x = s ∨ Apart s x) :
    (T.ensureSubsystems want (ss.map (·.nqn))).Makes K.handle (Undisturbed T s) u := by
  induction ss generalizing u with
  | nil => exact .pure ()
  | cons x rest ih =>
    obtain ⟨hx, hwant⟩ := List.forall_mem_cons.mp hwant
    obtain ⟨hname, hnames⟩ := List.forall_mem_cons.mp hnames
    obtain ⟨hthis, hapart⟩ := List.forall_mem_cons.mp hapart
    rw [List.map_cons]
    unfold Target.ensureSubsystems
    simp only [hx]
    have hmakes : (T.ensureSubsystem x).Makes K.handle (Undisturbed T s) u := by
      rcases hthis with rfl | hthis
      · refine ((hsettled.congr hrest.same).ensureSubsystem_reading hrest.wellFormed hport hname.1
          hname.2).mono ?_
        exact Changes.mono fun _ => False.elim
      · refine (ensureSubsystem_makes hK hrest.wellFormed hport hname.1 hname.2).mono ?_
        exact Changes.mono fun _ hp => hthis.undisturbed hp
    exact .bind (wrapping_makes hmakes) fun _ v hexec => ih
      (hrest.exec hK (wrapping_makes hmakes) hexec) hwant hnames hapart

theorem ensureSubsystems_reveals (hrest : Resting K T s t u) (hlinked : Linked T s t)
    {want : FinMap String Subsystem} {ss : List Subsystem}
    (hwant : ∀ x ∈ ss, want.lookup x.nqn = some x)
    (hs : s ∈ ss) (hnqn : Leaf s.nqn) (hhosts : ∀ h ∈ s.allowedHosts, Leaf h) :
    (T.ensureSubsystems want (ss.map (·.nqn))).Reveals K.handle (Undisturbed T s) u
      (Literal T s t) := by
  induction ss generalizing u with
  | nil => cases hs
  | cons x rest ih =>
    obtain ⟨hx, hwant⟩ := List.forall_mem_cons.mp hwant
    rw [List.map_cons]
    unfold Target.ensureSubsystems
    simp only [hx]
    rcases List.mem_cons.mp hs with rfl | hs
    · refine .first (.outcome_bind fun r v hexec hmakes => ?_)
      cases r with
      | error e =>
        intro a w hthrow
        cases hthrow
      | ok a =>
        exact fun _ _ _ _ =>
          ensureSubsystem_reveals hK hport hrest hnqn hhosts hlinked a v hexec hmakes
    · exact .bind fun _ v hexec hmakes => ih (hrest.exec hK hmakes hexec) hwant hs

omit hK hport in
/-- What `listSubsystems` finds is there. -/
theorem listSubsystems_found {existing : List String} {t' : Tree}
    (hexec : Target.listSubsystems.run.exec K.handle t = (.ok existing, t')) :
    ∀ n ∈ existing, (t.lookup [n, "subsystems"]).isSome := by
  have hensures : Target.listSubsystems.Ensures K.handle t fun existing _ =>
      ∀ n ∈ existing, (t.lookup [n, "subsystems"]).isSome := by
    unfold Target.listSubsystems
    refine readDir_ensures ?_
    cases hread : t.readDir Target.subsystemsDir with
    | ok found =>
      refine .pure fun n hn => ?_
      obtain ⟨⟨_, node⟩, hentry, rfl⟩ := List.mem_map.mp hn
      exact Option.isSome_iff_exists.mpr
        ⟨node, (mem_readDir hread).mp (List.mem_of_mem_filter hentry)⟩
    | error e =>
      cases e with
      | notExist => exact .pure (by simp)
      | exist => exact .throw _
      | other text => exact .throw _
  exact hensures existing t' hexec

variable {desired : List Subsystem} {attrs : List (String × String)}

/-- A subsystem that needs nothing is left alone, whatever comes of the rest. -/
theorem reconcile_undisturbed (ht : K.WellFormed t)
    (hattrs : ∀ a ∈ attrs, Leaf a.1 ∧ a.1 ≠ "subsystems")
    (hapart : desired.Pairwise Apart)
    (hnames : ∀ x ∈ desired, Leaf x.nqn ∧ ∀ h ∈ x.allowedHosts, Leaf h)
    (hs : s ∈ desired) (hsettled : Settled T s t) :
    (T.reconcile attrs desired).Makes K.handle (Undisturbed T s) t := by
  obtain ⟨ss, hsorted, hmem, hss, hwant⟩ := exists_sorted hapart
  have hfound : (FinMap.ofList (desired.map fun s => (s.nqn, s))).contains s.nqn = true := by
    simp [FinMap.contains, hwant s ((hmem s).mpr hs)]
  have hothers : ∀ x ∈ ss, x = s ∨ Apart s x := by
    intro x hx
    by_cases heq : x = s
    · exact .inl heq
    · exact .inr (hapart.forall hs ((hmem x).mp hx) (Ne.symm heq))
  have hensurePort := ensurePort_undisturbed ht hport hattrs (s := s) (by rw [hsettled.port]; rfl)
  have hrefl : Resting K T s t t := ⟨ht, fun _ _ => rfl⟩
  unfold Target.reconcile
  simp only [hsorted]
  refine .bind hensurePort fun _ t₁ h₁ => ?_
  have hrest₁ := hrefl.exec hK hensurePort h₁
  refine .bind listSubsystems_makes fun existing t₂ h₂ => ?_
  have hrest₂ := hrest₁.exec hK listSubsystems_makes h₂
  have hremove :
      (T.removeOthers (FinMap.ofList (desired.map fun s => (s.nqn, s))) existing).Makes K.handle
      (Undisturbed T s) t₂ := by
    have hleaf : ∀ n ∈ existing, Leaf n :=
      fun n hn => hrest₁.wellFormed.names _ _ (listSubsystems_found h₂ n hn)
    refine (removeOthers_makes hK hrest₂.wellFormed hport hleaf).mono ?_
    refine Changes.mono fun p hp => ?_
    obtain ⟨n, hn, hp⟩ := hp
    refine undisturbed_of_oldPlaces ?_ hp
    rintro rfl
    rw [hfound] at hn
    cases hn
  refine .bind hremove fun _ t₃ h₃ => ?_
  exact ensureSubsystems_undisturbed hK hport (hrest₂.exec hK hremove h₃) hsettled hwant
    (fun x hx => hnames x ((hmem x).mp hx)) hothers

/-- One that is left alone has links with the texts that they should have. -/
theorem reconcile_reveals (ht : K.WellFormed t) (hapart : desired.Pairwise Apart)
    (hnames : ∀ x ∈ desired, Leaf x.nqn ∧ ∀ h ∈ x.allowedHosts, Leaf h) (hs : s ∈ desired)
    (hlinked : Linked T s t) :
    (T.reconcile attrs desired).Reveals K.handle (Undisturbed T s) t (Literal T s t) := by
  obtain ⟨ss, hsorted, hmem, hss, hwant⟩ := exists_sorted hapart
  have hrefl : Resting K T s t t := ⟨ht, fun _ _ => rfl⟩
  unfold Target.reconcile
  simp only [hsorted]
  refine .bind fun _ t₁ h₁ hmakes₁ => .bind fun existing t₂ h₂ hmakes₂ => .bind fun _ t₃
    h₃ hmakes₃ => ?_
  have hrest := ((hrefl.exec hK hmakes₁ h₁).exec hK hmakes₂ h₂).exec hK hmakes₃ h₃
  exact ensureSubsystems_reveals hK hport hrest hlinked hwant ((hmem s).mpr hs) (hnames s hs).1
    (hnames s hs).2

end Reconcile

end SimpleZfsCsi.Nvmet
