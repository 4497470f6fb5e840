import SimpleZfsCsi.Nvmet.Undisturbed

/-!
# Reconciling twice

After a reconcile that returned nil, the next one with the same list finds all it looks for, if
only the links read as they were written. A link that did so before is kept, the others are made
anew, and what these read as is up to the kernel.
-/

namespace SimpleZfsCsi.Nvmet

open Library Text Program

/-- What can be read back: `text` is what a new link reads as, by its place and its target. -/
structure Kernel.Texts (K : Kernel) (text : Path → Path → String) : Prop where
  link : ∀ target link t, (K.change (.symlink target link) t).1 = .ok () →
    (K.change (.symlink target link) t).2.lookup link = some (.link (text link target))
  file : ∀ p v t, (K.change (.writeFile p v) t).1 = .ok () →
    ∃ content, (K.change (.writeFile p v) t).2.readFile p = .ok content

/-- What a link reads as after `ensureSymlink`. -/
def renewed (text : Path → Path → String) (root : String) (t : Tree)
    (link target : Path) : String :=
  if t.lookup link = some (.link (pathText root target)) then pathText root target else
    text link target

section Renewed

variable {text : Path → Path → String} {root : String} {t u : Tree} {link target : Path}

theorem renewed_congr (h : ∀ x, u.lookup link = some (.link x) ↔ t.lookup link = some (.link x)) :
    renewed text root u link target = renewed text root t link target := by
  simp only [renewed, h]

/-- Doing it again does not change it. -/
theorem renewed_again (h : u.lookup link = some (.link (renewed text root t link target))) :
    renewed text root u link target = renewed text root t link target := by
  unfold renewed at h ⊢
  split_ifs at h ⊢ <;> simp_all

theorem renewed_eq_iff : renewed text root t link target = pathText root target ↔
    t.lookup link = some (.link (pathText root target)) ∨
      text link target = pathText root target := by
  unfold renewed
  split_ifs with h <;> simp [h]

end Renewed

section Primitives

variable {K : Kernel} {root : String} (hK : K.Lawful root) {text : Path → Path → String}
    (htext : K.Texts text)
  {t : Tree} {p : Path}

include hK htext

theorem writeAttrIfChanged_reads (value : String) :
    Proc.Ensures K.handle (writeAttrIfChanged p value) t fun _ t' => t'.Reads p
      (trimSpace value) := by
  have hwrite :
      Proc.Ensures K.handle (writeAttr p value) t fun _ t' => t'.Reads p (trimSpace value) := by
    refine perform_ensures fun hok => ?_
    obtain ⟨content, hread⟩ := htext.file p value t hok
    refine ⟨content, hread, ?_⟩
    rw [← hK.writeFile p value t hok, Tree.attr, hread]
  unfold writeAttrIfChanged readAttr
  refine .bind (readFile_ensures ?_)
  cases hread : t.readFile p with
  | error e => exact .pure hwrite
  | ok content =>
    refine .pure ?_
    dsimp only
    split_ifs with hcur
    · exact .pure ⟨content, hread, by rw [← hcur]; exact (trimWhere_idem _ _).symm⟩
    · exact hwrite

theorem symlink_renews {target link : Path} (hnone : t.lookup link = none) :
    Proc.Ensures K.handle (do
    match ← attempt (.symlink target link) with
    | .ok _ | .error .exist => return
    | .error e => throw (.os e)) t fun _ t' => t'.lookup link =
      some (.link (text link target)) := by
  refine attempt_ensures ?_
  cases hr : (K.change (.symlink target link) t).1 with
  | ok _ => exact .pure (htext.link target link t hr)
  | error e =>
    cases e with
    | exist =>
      have hsome := hK.symlink_exist target link t hr
      rw [hnone] at hsome
      cases hsome
    | notExist => exact .throw _
    | other text => exact .throw _

/-- What is in the way is removed first. -/
theorem relink_renews (target link : Path) : Proc.Ensures K.handle (do
    perform (.remove link)
    match ← attempt (.symlink target link) with
    | .ok _ | .error .exist => return
    | .error e => throw (.os e)) t fun _ t' => t'.lookup link = some (.link (text link target)) :=
  .bind (perform_ensures fun hok => symlink_renews hK htext
    (hK.remove link t hok link (List.suffix_refl _)))

theorem ensureSymlink_renews {target link : Path} :
    Proc.Ensures K.handle (ensureSymlink root target link) t fun _ t' =>
      t'.lookup link = some (.link (renewed text root t link target)) := by
  have hremoved := relink_renews hK htext (t := t) target link
  unfold ensureSymlink
  refine readlink_ensures ?_
  simp only [Tree.readlink]
  cases hlink : t.lookup link with
  | none =>
    rw [renewed, if_neg (by simp [hlink])]
    exact symlink_renews hK htext hlink
  | some n =>
    cases n with
    | link cur =>
      dsimp only
      split_ifs with hcur
      · exact .pure (by simp [renewed, hlink, hcur])
      · rw [renewed, if_neg (by simp [hlink, hcur])]
        exact hremoved
    | dir =>
      rw [renewed, if_neg (by simp [hlink])]
      refine lstat_ensures ?_
      simp only [Tree.lstat, hlink]
      exact hremoved
    | file content =>
      rw [renewed, if_neg (by simp [hlink])]
      refine lstat_ensures ?_
      simp only [Tree.lstat, hlink]
      exact hremoved

end Primitives

/-! ## One subsystem -/

/-- The hosts of a subsystem are there, and linked. -/
structure HostsRenewed (T : Target) (text : Path → Path → String) (nqn : String)
    (hosts : List String) (t t' : Tree) :
    Prop where
  found : ∀ h ∈ hosts, (t'.lookup [h, "hosts"]).isSome
  links : ∀ h ∈ hosts, t'.lookup [h, "allowed_hosts", nqn, "subsystems"] =
    some (.link (renewed text T.root t [h, "allowed_hosts", nqn, "subsystems"] [h, "hosts"]))

/-- What `ensureSubsystem` adds to what is `Served`. -/
structure Renewed (T : Target) (text : Path → Path → String) (s : Subsystem)
    (t t' : Tree) : Prop where
  hosts : HostsRenewed T text s.nqn s.allowedHosts t t'
  only : s.allowedHosts ≠ [] → ∀ h, (t'.lookup [h, "allowed_hosts", s.nqn, "subsystems"]).isSome →
    h ∈ s.allowedHosts
  port : t'.lookup [s.nqn, "subsystems", T.port.id, "ports"] =
    some (.link
      (renewed text T.root t [s.nqn, "subsystems", T.port.id, "ports"] [s.nqn, "subsystems"]))

section Subsystem

variable {K : Kernel} {T : Target} (hK : K.Lawful T.root) {text : Path → Path → String}
    (htext : K.Texts text)
  {s : Subsystem} {t t₁ t' : Tree}

theorem HostsRenewed.before {nqn : String} {hosts : List String}
    (h : HostsRenewed T text nqn hosts t₁ t')
    (hlinks : ∀ x ∈ hosts, ∀ y, t₁.lookup [x, "allowed_hosts", nqn, "subsystems"] = some (.link y) ↔
      t.lookup [x, "allowed_hosts", nqn, "subsystems"] = some (.link y)) :
        HostsRenewed T text nqn hosts t t' :=
  ⟨h.found, fun x hx => by rw [h.links x hx, renewed_congr (hlinks x hx)]⟩

theorem HostsRenewed.after {nqn : String} {hosts : List String}
    (h : HostsRenewed T text nqn hosts t t₁)
    (hfound : ∀ x ∈ hosts, t'.lookup [x, "hosts"] = t₁.lookup [x, "hosts"])
    (hlinks : ∀ x ∈ hosts, t'.lookup [x, "allowed_hosts", nqn, "subsystems"] =
      t₁.lookup [x, "allowed_hosts", nqn, "subsystems"]) : HostsRenewed T text nqn hosts t t' :=
  ⟨fun x hx => by rw [hfound x hx]; exact h.found x hx, fun x hx => by rw [hlinks x hx,
    h.links x hx]⟩

/-- What was done before at other places does not matter. -/
theorem Renewed.before (h : Renewed T text s t₁ t') (hlinks : ∀ q x, AllPlaces T s q →
    (t₁.lookup q = some (.link x) ↔ t.lookup q = some (.link x))) : Renewed T text s t t' := by
  refine ⟨h.hosts.before fun x _ y => hlinks _ y (.inl (.inr (by simp [List.suffix_cons_iff]))),
    h.only, ?_⟩
  rw [h.port, renewed_congr fun x => hlinks _ x (.inr (List.suffix_refl _))]

/-- Nor does what is done later. -/
theorem Renewed.after (h : Renewed T text s t t₁)
    (hsame : ∀ q, AllPlaces T s q → t'.lookup q = t₁.lookup q) :
    Renewed T text s t t' := by
  have hlinks : ∀ x, t'.lookup [x, "allowed_hosts", s.nqn, "subsystems"] =
      t₁.lookup [x, "allowed_hosts", s.nqn, "subsystems"] :=
        fun x => hsame _ (.inl (.inr (by simp [List.suffix_cons_iff])))
  refine ⟨h.hosts.after (fun x hx => hsame _ ?_) fun x _ => hlinks x,
    fun hne x hx => h.only hne x ?_, ?_⟩
  · exact .inl (.inl ⟨x, hx, List.suffix_refl _⟩)
  · rwa [← hlinks]
  · rw [hsame _ (.inr (List.suffix_refl _)), h.port]

include hK htext

theorem allowHost_renews (ht : K.WellFormed t) {nqn key h : String} (hh : Leaf h) :
    Proc.Ensures K.handle (T.allowHost ["allowed_hosts", nqn, "subsystems"] key h) t fun _ t' =>
      HostsRenewed T text nqn [h] t t' := by
  -- only the link is left to be made
  have hlast : ∀ u, (u.lookup [h, "hosts"]).isSome →
      (u.lookup [h, "allowed_hosts", nqn, "subsystems"] =
        t.lookup [h, "allowed_hosts", nqn, "subsystems"]) →
      Proc.Ensures K.handle
        (ensureSymlink T.root [h, "hosts"] [h, "allowed_hosts", nqn, "subsystems"]) u fun _ t' =>
        HostsRenewed T text nqn [h] t t' := by
    intro u hfound hsame a t' hexec
    have hlink := ensureSymlink_renews hK htext a t' hexec
    have hkept := (ensureSymlink_ensures hK a t' hexec).1
    refine ⟨by simpa [hkept.same [h, "hosts"] (by simp [List.suffix_cons_iff])] using hfound, ?_⟩
    have hcongr : renewed text T.root u [h, "allowed_hosts", nqn, "subsystems"] [h, "hosts"] =
        renewed text T.root t [h, "allowed_hosts", nqn, "subsystems"] [h, "hosts"] :=
          renewed_congr fun x => by rw [hsame]
    simpa [hcongr] using hlink
  unfold Target.allowHost
  simp only [Target.hostsDir, div_leaf hh, div_dhchap_key]
  refine .bind fun a t₁ hexec₁ => ?_
  obtain ⟨hkept₁, _, hfound⟩ := ensureDir_ensures hK ht a t₁ hexec₁
  have hsame₁ :=
    hkept₁.same [h, "allowed_hosts", nqn, "subsystems"] (by simp [List.suffix_cons_iff])
  split_ifs with hkey
  · refine .bind (wrapping_ensures fun b t₂ hexec₂ => ?_)
    have hkept₂ := (writeAttrIfChanged_ensures hK key b t₂ hexec₂).1
    refine hlast t₂ ?_ ?_
    · rwa [hkept₂.same _ (by simp [List.suffix_cons_iff])]
    · rw [hkept₂.same _ (by simp [List.suffix_cons_iff]), hsame₁]
  · exact hlast t₁ hfound hsame₁

theorem allowHosts_renews (ht : K.WellFormed t) {nqn key : String} {hosts : List String}
    (hhosts : ∀ h ∈ hosts, Leaf h) :
    Proc.Ensures K.handle
      (T.allowHosts ["allowed_hosts", nqn, "subsystems"] key hosts) t fun _ t' =>
      HostsRenewed T text nqn hosts t t' := by
  induction hosts generalizing t with
  | nil => exact .pure ⟨by simp, by simp⟩
  | cons x rest ih =>
    obtain ⟨hx, hrest⟩ := List.forall_mem_cons.mp hhosts
    refine .bind fun a t₁ hexec₁ b t₂ hexec₂ => ?_
    have hkept₁ := (allowHost_ensures hK ht hx a t₁ hexec₁).kept
    have hthis := allowHost_renews hK htext ht hx a t₁ hexec₁
    have ht₁ := hkept₁.wellFormed ht
    have hkept₂ := (allowHosts_ensures hK ht₁ hrest b t₂ hexec₂).kept
    have hothers := ih ht₁ hrest b t₂ hexec₂
    -- a host may be listed twice
    have hagain :
        ∀ h ∈ rest, renewed text T.root t₁ [h, "allowed_hosts", nqn, "subsystems"] [h, "hosts"] =
        renewed text T.root t [h, "allowed_hosts", nqn, "subsystems"] [h, "hosts"] := by
      intro h _
      by_cases heq : h = x
      · subst heq
        exact renewed_again (hthis.links h (by simp))
      · exact renewed_congr fun y => by rw [hkept₁.same _ (by simpa using heq)]
    refine ⟨fun h hh => ?_, fun h hh => ?_⟩
    · by_cases hmem : h ∈ rest
      · exact hothers.found h hmem
      · obtain rfl : h = x := by simpa [hmem] using hh
        rw [hkept₂.same _ (by simpa [HostPlaces, List.suffix_cons_iff] using hmem)]
        exact hthis.found h (by simp)
    · by_cases hmem : h ∈ rest
      · rw [hothers.links h hmem, hagain h hmem]
      · obtain rfl : h = x := by simpa [hmem] using hh
        rw [hkept₂.same _ (by simpa using hmem)]
        exact hthis.links h (by simp)

theorem reconcileAllowedHosts_renews (ht : K.WellFormed t) {nqn key : String} {hosts : List String}
    (hhosts : ∀ h ∈ hosts, Leaf h) :
    Proc.Ensures K.handle (T.reconcileAllowedHosts [nqn, "subsystems"] hosts key) t fun _ t' =>
      HostsRenewed T text nqn hosts t t' ∧
        ∀ h, (t'.lookup [h, "allowed_hosts", nqn, "subsystems"]).isSome → h ∈ hosts := by
  unfold Target.reconcileAllowedHosts
  simp only [div_allowed_hosts]
  refine .bind fun a t₁ hexec => readDir_ensures ?_
  have ht₁ := hK.exec_wellFormed ht hexec
  have hrenewed := allowHosts_renews hK htext ht hhosts a t₁ hexec
  cases hread : t₁.readDir ["allowed_hosts", nqn, "subsystems"] with
  | error e =>
    cases e with
    | notExist =>
      have hnone := lookup_of_readDir_notExist hread
      refine .pure ⟨hrenewed, fun h hh => ?_⟩
      rw [lookup_below ht₁ hnone (List.suffix_cons _ _)] at hh
      cases hh
    | exist => exact .throw _
    | other text => exact .throw _
  | ok found =>
    refine (dropOthers_ensures hK (leaf_of_readDir ht₁ hread)).mono fun _ t₂ ⟨hkept, hgone⟩ => ⟨?_,
      fun h hh => ?_⟩
    · refine hrenewed.after (fun x _ => hkept.same _ ?_) fun x hx => hkept.same _ ?_
      · simp [List.suffix_cons_iff]
      · simp [List.suffix_cons_iff, hx]
    · by_contra hnot
      by_cases hin : h ∈ found.map (·.1)
      · rw [hgone h hin hnot] at hh
        cases hh
      · rw [hkept.same _ (by simpa [List.suffix_cons_iff, hnot] using hin)] at hh
        obtain ⟨node, hnode⟩ := Option.isSome_iff_exists.mp hh
        exact hin (List.mem_map.mpr ⟨(h, node), (mem_readDir hread).mpr hnode, rfl⟩)

theorem ensureSubsystem_renews (ht : K.WellFormed t) (hport : Leaf T.port.id) (hnqn : Leaf s.nqn)
    (hhosts : ∀ h ∈ s.allowedHosts, Leaf h) :
    Proc.Ensures K.handle (T.ensureSubsystem s) t fun _ t' => Renewed T text s t t' := by
  unfold Target.ensureSubsystem
  simp only [Target.subsystemsDir, Target.portDir, div_leaf hnqn, div_leaf hport,
    div_namespaces, div_one, div_subsystems]
  refine .bind fun b t₁ hexec₁ => .bind fun a t₂ hexec₂ => ?_
  obtain ⟨hkept₁, hgrown, _⟩ := ensureDir_ensures hK ht b t₁ hexec₁
  have ht₁ := hkept₁.wellFormed ht
  have hkept₂ := (ensureAccess_ensures hK ht₁ hhosts a t₂ hexec₂).1
  -- the hosts, unless any host is let in
  have haccess : s.allowedHosts ≠ [] → HostsRenewed T text s.nqn s.allowedHosts t t₂ ∧
      ∀ h, (t₂.lookup [h, "allowed_hosts", s.nqn, "subsystems"]).isSome → h ∈ s.allowedHosts := by
    intro hne
    have hensures : Proc.Ensures K.handle (T.ensureAccess [s.nqn, "subsystems"] s) t₁ fun _ t' =>
        HostsRenewed T text s.nqn s.allowedHosts t t' ∧
          ∀ h, (t'.lookup [h, "allowed_hosts", s.nqn, "subsystems"]).isSome →
            h ∈ s.allowedHosts := by
      unfold Target.ensureAccess
      simp only [div_attr_allow_any_host, if_neg hne]
      refine .bind fun b u hexec c t' hexec' => ?_
      have hkept := (writeAttrIfChanged_ensures hK "0" b u hexec).1
      obtain ⟨hrenewed, honly⟩ :=
        reconcileAllowedHosts_renews hK htext (hkept.wellFormed ht₁) hhosts c t' hexec'
      refine ⟨hrenewed.before fun x _ y => ?_, honly⟩
      rw [hkept.same _ (by simp [List.suffix_cons_iff])]
      exact ⟨hgrown.link _ y, hgrown.node _ _⟩
    exact hensures a t₂ hexec₂
  refine .bind fun c t₃ hexec₃ => wrapping_ensures fun b t₄ hexec₄ => ?_
  have hkept₃ := (ensureNamespace_ensures hK (hkept₂.wellFormed ht₁) _ s.devicePath c t₃ hexec₃).1
  have hkept₄ := (ensureSymlink_ensures hK b t₄ hexec₄).1
  have hlinks : ∀ x, t₄.lookup [x, "allowed_hosts", s.nqn, "subsystems"] =
      t₂.lookup [x, "allowed_hosts", s.nqn, "subsystems"] := by
    intro x
    rw [hkept₄.same _ (by simp [List.suffix_cons_iff]),
      hkept₃.same _ (by simp [List.suffix_cons_iff])]
  refine ⟨?_, fun hne x hx => (haccess hne).2 x (by rwa [← hlinks]), ?_⟩
  · by_cases hany : s.allowedHosts = []
    · exact ⟨by simp [hany], by simp [hany]⟩
    · refine (haccess hany).1.after (fun x _ => ?_) fun x _ => hlinks x
      rw [hkept₄.same _ (by simp [List.suffix_cons_iff]),
        hkept₃.same _ (by simp [List.suffix_cons_iff])]
  · rw [ensureSymlink_renews hK htext b t₄ hexec₄, renewed_congr fun x => ?_]
    rw [hkept₃.same _ (by simp [List.suffix_cons_iff]),
      hkept₂.same _ (by simp [Places, List.suffix_cons_iff]),
      hkept₁.same _ (by simp [List.suffix_cons_iff])]

theorem ensureSubsystems_renews (ht : K.WellFormed t) (hport : Leaf T.port.id)
    {want : FinMap String Subsystem}
    {ss : List Subsystem} (hwant : ∀ x ∈ ss, want.lookup x.nqn = some x)
    (hnames : ∀ x ∈ ss, Leaf x.nqn ∧ ∀ h ∈ x.allowedHosts, Leaf h) (hapart : ss.Pairwise Apart) :
    Proc.Ensures K.handle (T.ensureSubsystems want (ss.map (·.nqn))) t fun _ t' =>
      ∀ x ∈ ss, Renewed T text x t t' := by
  induction ss generalizing t with
  | nil => exact .pure (by simp)
  | cons x rest ih =>
    obtain ⟨hx, hwant⟩ := List.forall_mem_cons.mp hwant
    obtain ⟨hname, hnames⟩ := List.forall_mem_cons.mp hnames
    obtain ⟨hthis, hapart⟩ := List.pairwise_cons.mp hapart
    rw [List.map_cons]
    unfold Target.ensureSubsystems
    simp only [hx]
    refine .bind (wrapping_ensures fun a t₁ hexec₁ b t₂ hexec₂ => ?_)
    have hkept₁ := (ensureSubsystem_ensures hK ht hport hname.1 hname.2 a t₁ hexec₁).1
    have ht₁ := hkept₁.wellFormed ht
    have hkept₂ := (ensureSubsystems_ensures hK hport ht₁ hwant hnames hapart b t₂ hexec₂).1
    refine List.forall_mem_cons.mpr ⟨?_, fun y hy => ?_⟩
    · refine (ensureSubsystem_renews hK htext ht hport hname.1 hname.2 a t₁ hexec₁).after fun q
        hq => hkept₂.same q ?_
      rintro ⟨y, hy, hplace⟩
      exact (hthis y hy).undisturbed hplace q hq (List.suffix_refl _)
    · refine (ih ht₁ hwant hnames hapart b t₂ hexec₂ y hy).before fun q z hq => ?_
      rw [hkept₁.same q fun hplace => (hthis y hy).symm.undisturbed hplace q hq
        (List.suffix_refl _)]

end Subsystem

/-! ## The port -/

/-- The port is there with its attributes. -/
structure PortReady (T : Target) (attrs : List (String × String)) (t : Tree) : Prop where
  found : (t.lookup [T.port.id, "ports"]).isSome
  reads : ∀ a ∈ attrs, t.Reads [a.1, T.port.id, "ports"] (trimSpace a.2)

section Port

variable {K : Kernel} {T : Target} {t t₁ t' : Tree} {attrs : List (String × String)}

theorem PortReady.after (h : PortReady T attrs t)
    (hfound : t'.lookup [T.port.id, "ports"] = t.lookup [T.port.id, "ports"])
    (hreads : ∀ a ∈ attrs, t'.lookup [a.1, T.port.id, "ports"] =
      t.lookup [a.1, T.port.id, "ports"]) :
    PortReady T attrs t' := by
  refine ⟨by rw [hfound]; exact h.found, fun a ha => ?_⟩
  have hread := h.reads a ha
  simpa only [Tree.Reads, Tree.readFile, hreads a ha] using hread

theorem PortReady.perm {attrs' : List (String × String)} (h : PortReady T attrs t)
    (hperm : attrs'.Perm attrs) :
    PortReady T attrs' t :=
  ⟨h.found, fun a ha => h.reads a (hperm.mem_iff.mp ha)⟩

/-- A port that is ready is only read. -/
theorem PortReady.ensurePort_reading (h : PortReady T attrs t) (ht : K.WellFormed t)
    (hport : Leaf T.port.id)
    (hattrs : ∀ a ∈ attrs, Leaf a.1 ∧ trimSpace a.2 = a.2) :
    (T.ensurePort attrs).Makes K.handle Reading t := by
  have hset : ∀ rest, (∀ a ∈ rest, a ∈ attrs) → (T.setPortAttrs rest).Makes K.handle Reading t := by
    intro rest hrest
    induction rest with
    | nil => exact .pure ()
    | cons a rest ih =>
      obtain ⟨name, want⟩ := a
      obtain ⟨ha, hrest⟩ := List.forall_mem_cons.mp hrest
      obtain ⟨hleaf, htrim⟩ := hattrs _ ha
      have hread := h.reads _ ha
      dsimp only at hleaf htrim hread
      rw [htrim] at hread
      unfold Target.setPortAttrs
      simp only [(portDir_eq hport).1, div_leaf hleaf]
      exact reading_bind (wrapping_makes (writeAttrIfChanged_reading hread)) fun _ => ih hrest
  unfold Target.ensurePort
  refine reading_bind ?_ fun _ => reading_bind (wrapping_makes (ensureDir_reading ?_)) fun _ => hset
    attrs fun _ => id
  · rw [(portDir_eq hport).2]
    exact mkdirAll_reading (ht.rooted _ _ h.found)
  · rw [(portDir_eq hport).1]
    exact h.found

variable (hK : K.Lawful T.root) {text : Path → Path → String} (htext : K.Texts text)
    (hport : Leaf T.port.id)

include hK htext hport

theorem setPortAttrs_renews (hattrs : ∀ a ∈ attrs, Leaf a.1) (hnodup : (attrs.map (·.1)).Nodup) :
    Proc.Ensures K.handle (T.setPortAttrs attrs) t fun _ t' =>
      Kept K (fun q => ∃ a ∈ attrs, [a.1, T.port.id, "ports"] <:+ q) t t' ∧
        ∀ a ∈ attrs, t'.Reads [a.1, T.port.id, "ports"] (trimSpace a.2) := by
  induction attrs generalizing t with
  | nil => exact .pure ⟨.refl t, by simp⟩
  | cons a rest ih =>
    obtain ⟨name, want⟩ := a
    obtain ⟨ha, hrest⟩ := List.forall_mem_cons.mp hattrs
    obtain ⟨hnew, hnodup⟩ := List.nodup_cons.mp hnodup
    unfold Target.setPortAttrs
    simp only [(portDir_eq hport).1, div_leaf ha]
    refine .bind (wrapping_ensures fun b t₁ hexec => ?_)
    have hread := writeAttrIfChanged_reads hK htext want b t₁ hexec
    have hkept₁ := (writeAttrIfChanged_ensures hK want b t₁ hexec).1
    intro c t₂ hexec₂
    obtain ⟨hkept₂, hreads⟩ := ih hrest hnodup c t₂ hexec₂
    refine ⟨?_, List.forall_mem_cons.mpr ⟨?_, hreads⟩⟩
    · refine (hkept₁.mono fun q hq => ⟨_, List.mem_cons_self, hq⟩).trans
        (hkept₂.mono fun q hq => ?_)
      obtain ⟨x, hx, hq⟩ := hq
      exact ⟨x, List.mem_cons_of_mem _ hx, hq⟩
    · have hsame := hkept₂.same [name, T.port.id, "ports"] fun hq => ?_
      · simpa only [Tree.Reads, Tree.readFile, hsame] using hread
      · obtain ⟨x, hx, hq⟩ := hq
        have heq : x.1 = name := by simpa [List.suffix_cons_iff] using hq
        exact hnew (List.mem_map.mpr ⟨x, hx, heq⟩)

theorem ensurePort_renews (ht : K.WellFormed t) (hattrs : ∀ a ∈ attrs, Leaf a.1)
    (hnodup : (attrs.map (·.1)).Nodup) :
    Proc.Ensures K.handle (T.ensurePort attrs) t fun _ t' => PortReady T attrs t' ∧
      ∀ q x, (∀ a ∈ attrs, ¬ [a.1, T.port.id, "ports"] <:+ q) →
        (t'.lookup q = some (.link x) ↔ t.lookup q = some (.link x)) := by
  unfold Target.ensurePort
  refine .bind ((mkdirAll_ensures hK _ ht).mono fun _ t₁ ⟨ht₁, hgrown₁⟩ => ?_)
  refine .bind
    (wrapping_ensures ((ensureDir_ensures hK ht₁).mono fun _ t₂ ⟨_, hgrown₂, hfound⟩ => ?_))
  refine (setPortAttrs_renews hK htext hport hattrs hnodup).mono fun _ t₃
    ⟨hkept, hreads⟩ => ⟨⟨?_, hreads⟩, fun q x hq => ?_⟩
  · rw [(portDir_eq hport).1] at hfound
    rwa [hkept.same _ (by simp [List.suffix_cons_iff])]
  · rw [hkept.same q fun h => ?_]
    · exact ⟨(hgrown₁.trans hgrown₂).link q x, (hgrown₁.trans hgrown₂).node q _⟩
    · obtain ⟨a, ha, hsuffix⟩ := h
      exact hq a ha hsuffix

end Port

/-! ## The whole tree -/

/-- Every link of the subsystem reads as the path that the code links to, or will do so when it is
made anew. -/
structure Steady (T : Target) (text : Path → Path → String) (s : Subsystem) (t : Tree) : Prop where
  hosts : ∀ h ∈ s.allowedHosts,
    t.lookup [h, "allowed_hosts", s.nqn, "subsystems"] =
      some (.link (pathText T.root [h, "hosts"])) ∨
      text [h, "allowed_hosts", s.nqn, "subsystems"] [h, "hosts"] = pathText T.root [h, "hosts"]
  port : t.lookup [s.nqn, "subsystems", T.port.id, "ports"] =
    some (.link (pathText T.root [s.nqn, "subsystems"])) ∨
    text [s.nqn, "subsystems", T.port.id, "ports"] [s.nqn, "subsystems"] =
      pathText T.root [s.nqn, "subsystems"]

section Whole

variable {K : Kernel} {T : Target} {s : Subsystem} {t t' : Tree} {text : Path → Path → String}
  {desired : List Subsystem} {attrs attrs' : List (String × String)}

theorem Renewed.linked (h : Renewed T text s t t') : Linked T s t' :=
  ⟨fun x hx => ⟨_, h.hosts.links x hx⟩, _, h.port⟩

theorem Renewed.steady_iff (h : Renewed T text s t t') : Literal T s t' ↔ Steady T text s t := by
  have hhosts : ∀ x ∈ s.allowedHosts,
      t'.lookup [x, "allowed_hosts", s.nqn, "subsystems"] =
        some (.link (pathText T.root [x, "hosts"])) ↔
        renewed text T.root t [x, "allowed_hosts", s.nqn, "subsystems"] [x, "hosts"] =
          pathText T.root [x, "hosts"] := by
    intro x hx
    simp [h.hosts.links x hx]
  constructor
  · intro hliteral
    refine ⟨fun x hx => renewed_eq_iff.mp ((hhosts x hx).mp (hliteral.hosts x hx)),
      renewed_eq_iff.mp ?_⟩
    simpa [h.port] using hliteral.port
  · intro hsteady
    refine ⟨fun x hx => (hhosts x hx).mpr (renewed_eq_iff.mpr (hsteady.hosts x hx)), ?_⟩
    rw [h.port, renewed_eq_iff.mpr hsteady.port]

theorem Served.settled (h : Served K T s t t') (hrenewed : Renewed T text s t t')
    (hliteral : Literal T s t')
    (hdevice : trimSpace s.devicePath = s.devicePath) (hkey : trimSpace s.dhChapKey = s.dhChapKey) :
    Settled T s t' where
  found := h.found
  allowAny := h.access.allowAny
  hosts := hrenewed.hosts.found
  keys hne x hx := by rw [h.access.keyed hne x hx, hkey]
  links := hliteral.hosts
  only := hrenewed.only
  device := by rw [h.device, hdevice]
  enabled := h.enabled
  port := hliteral.port

/-- When nothing is missing, nothing is written. -/
theorem reconcile_reading (ht : K.WellFormed t) (hport : Leaf T.port.id)
    (hattrs : ∀ a ∈ attrs, Leaf a.1 ∧ trimSpace a.2 = a.2) (hready : PortReady T attrs t)
    (hapart : desired.Pairwise Apart)
    (hnames : ∀ x ∈ desired, Leaf x.nqn ∧ ∀ h ∈ x.allowedHosts, Leaf h)
    (hsettled : ∀ x ∈ desired, Settled T x t)
    (honly : ∀ nqn, (t.lookup [nqn, "subsystems"]).isSome → ∃ x ∈ desired, x.nqn = nqn) :
    (T.reconcile attrs desired).Makes K.handle Reading t := by
  obtain ⟨ss, hsorted, hmem, hss, hwant⟩ := exists_sorted hapart
  set want := FinMap.ofList (desired.map fun s => (s.nqn, s)) with hdef
  have hremove : ∀ names : List String, (∀ n ∈ names, (t.lookup [n, "subsystems"]).isSome) →
      (T.removeOthers want names).Makes K.handle Reading t := by
    intro names hfound
    induction names with
    | nil => exact .pure ()
    | cons n rest ih =>
      obtain ⟨hn, hrest⟩ := List.forall_mem_cons.mp hfound
      obtain ⟨x, hx, rfl⟩ := honly n hn
      have hcontains : want.contains x.nqn = true := by
        simp [FinMap.contains, hwant x ((hmem x).mpr hx)]
      unfold Target.removeOthers
      simp only [hcontains]
      exact ih hrest
  have hensure : ∀ rest : List Subsystem, (∀ x ∈ rest, x ∈ ss) →
      (T.ensureSubsystems want (rest.map (·.nqn))).Makes K.handle Reading t := by
    intro rest hrest
    induction rest with
    | nil => exact .pure ()
    | cons x rest ih =>
      obtain ⟨hx, hrest⟩ := List.forall_mem_cons.mp hrest
      have hx' := (hmem x).mp hx
      rw [List.map_cons]
      unfold Target.ensureSubsystems
      simp only [hwant x hx]
      refine reading_bind (wrapping_makes ?_) fun _ => ih hrest
      exact (hsettled x hx').ensureSubsystem_reading ht hport (hnames x hx').1 (hnames x hx').2
  unfold Target.reconcile
  simp only [← hdef, hsorted]
  refine reading_bind (hready.ensurePort_reading ht hport hattrs) fun _ => ?_
  refine .bind listSubsystems_makes fun existing t₁ hexec => ?_
  obtain rfl : t₁ = t := by
    simpa [hexec] using state_of_reading (K := K) (t := t) listSubsystems_makes
  exact reading_bind (hremove existing (listSubsystems_found hexec)) fun _ => hensure ss fun _ => id

variable (hK : K.Lawful T.root) (htext : K.Texts text) (hport : Leaf T.port.id)

theorem portAttrs_nodup (hattrs : attrs.Perm T.portAttrs) : (attrs.map (·.1)).Nodup := by
  rw [(hattrs.map _).nodup_iff]
  simp only [Target.portAttrs, List.map_cons, List.map_nil]
  decide

include hK htext hport

/-- What a reconcile leaves behind, beyond what is `Served`. -/
theorem reconcile_renews (ht : K.WellFormed t) (hattrs : attrs.Perm T.portAttrs)
    (hapart : desired.Pairwise Apart)
    (hnames : ∀ x ∈ desired, Leaf x.nqn ∧ ∀ h ∈ x.allowedHosts, Leaf h) :
    Proc.Ensures K.handle (T.reconcile attrs desired) t fun _ t' =>
      PortReady T attrs t' ∧ ∀ x ∈ desired, Renewed T text x t t' := by
  obtain ⟨ss, hsorted, hmem, hss, hwant⟩ := exists_sorted hapart
  have hleaf : ∀ a ∈ attrs, Leaf a.1 := fun a ha => (portAttrs_names hattrs a ha).1
  unfold Target.reconcile
  simp only [hsorted]
  refine .bind fun a t₁ h₁ => ?_
  obtain ⟨hready, hlinks⟩ :=
    ensurePort_renews hK htext hport ht hleaf (portAttrs_nodup hattrs) a t₁ h₁
  have ht₁ := hK.exec_wellFormed ht h₁
  refine .bind fun existing t₂ h₂ => ?_
  obtain rfl : t₂ = t₁ := by
    simpa [h₂] using state_of_reading (K := K) (t := t₁) listSubsystems_makes
  have hexisting : ∀ n ∈ existing, Leaf n :=
    fun n hn => ht₁.names _ _ (listSubsystems_found h₂ n hn)
  refine .bind
    ((removeOthers_ensures hK hport ht₁ hexisting).mono fun _ t₃ ⟨hkept₃, _⟩ b t₄ h₄ => ?_)
  have ht₃ := hkept₃.wellFormed ht₁
  have hnames : ∀ x ∈ ss, Leaf x.nqn ∧ ∀ h ∈ x.allowedHosts, Leaf h :=
    fun x hx => hnames x ((hmem x).mp hx)
  have hkept₄ := (ensureSubsystems_ensures hK hport ht₃ hwant hnames hss b t₄ h₄).1
  have hready₃ : PortReady T attrs t₃ :=
    hready.after (hkept₃.same _ (by simp [OldPlaces, List.suffix_cons_iff]))
    fun a _ => hkept₃.same _ (by simp [OldPlaces, List.suffix_cons_iff])
  refine ⟨hready₃.after ?_ fun a _ => ?_, fun x hx => ?_⟩
  · exact hkept₄.same _ (by simp [AllPlaces, Places, List.suffix_cons_iff])
  · exact hkept₄.same _ (by simp [AllPlaces, Places, List.suffix_cons_iff])
  · have hx := (hmem x).mpr hx
    refine (ensureSubsystems_renews hK htext ht₃ hport hwant hnames hss b t₄ h₄ x hx).before
      fun q y hq => ?_
    rw [hkept₃.same q fun hold => ?_]
    · exact hlinks q y fun a ha => undisturbed_of_portAttr (portAttrs_names hattrs a ha).2 q hq
    · obtain ⟨n, _, hn, hplace⟩ := hold
      refine undisturbed_of_oldPlaces ?_ hplace q hq (List.suffix_refl _)
      rintro rfl
      simp [FinMap.contains, hwant x hx] at hn

end Whole

/-! ## Live subsystems -/

/-- The subsystem already is as desired: it lets in whom it should, each of them with the key, and
its namespace and its link to the port are there. -/
structure Matches (K : Kernel) (T : Target) (s : Subsystem) (t : Tree) : Prop where
  found : t.lookup [s.nqn, "subsystems"] = some .dir
  allowAny : t.attr ["attr_allow_any_host", s.nqn, "subsystems"] = if s.allowedHosts =
    [] then "1" else "0"
  hosts : ∀ h, (t.lookup [h, "allowed_hosts", s.nqn, "subsystems"]).isSome ↔ h ∈ s.allowedHosts
  leads : ∀ h ∈ s.allowedHosts, (t.lookup [h, "hosts"]).isSome ∧ ∃ text,
    t.lookup [h, "allowed_hosts", s.nqn, "subsystems"] = some (.link text) ∧
      K.Leads [h, "allowed_hosts", s.nqn, "subsystems"] text [h, "hosts"]
  keys : ∀ h ∈ s.allowedHosts, t.attr ["dhchap_key", h, "hosts"] = s.dhChapKey
  device : t.attr ["device_path", "1", "namespaces", s.nqn, "subsystems"] = s.devicePath
  enabled : t.attr ["enable", "1", "namespaces", s.nqn, "subsystems"] = "1"
  port : ∃ text, t.lookup [s.nqn, "subsystems", T.port.id, "ports"] = some (.link text) ∧
    K.Leads [s.nqn, "subsystems", T.port.id, "ports"] text [s.nqn, "subsystems"]

/-- No value that is written to an attribute begins or ends with a blank. -/
structure Unpadded (T : Target) (desired : List Subsystem) : Prop where
  devices : ∀ s ∈ desired, trimSpace s.devicePath = s.devicePath
  keys : ∀ s ∈ desired, trimSpace s.dhChapKey = s.dhChapKey
  port : ∀ a ∈ T.portAttrs, trimSpace a.2 = a.2

section Live

variable {K : Kernel} {T : Target} {s : Subsystem} {t : Tree}

theorem Matches.linked (h : Matches K T s t) : Linked T s t := by
  refine ⟨fun x hx => ?_, ?_⟩
  · obtain ⟨_, text, htext, _⟩ := h.leads x hx
    exact ⟨text, htext⟩
  · obtain ⟨text, htext, _⟩ := h.port
    exact ⟨text, htext⟩

theorem Matches.settled (h : Matches K T s t) (hliteral : Literal T s t) : Settled T s t where
  found := by rw [h.found]; rfl
  allowAny := h.allowAny
  hosts x hx := (h.leads x hx).1
  keys _ := h.keys
  links := hliteral.hosts
  only _ x := (h.hosts x).mp
  device := h.device
  enabled := h.enabled
  port := hliteral.port

variable {text : Path → Path → String} {desired : List Subsystem}
    {attrs attrs' : List (String × String)}

/-- A subsystem that matches is left alone if its links read as the paths that the code links to,
and in a reconcile that returns nil only then. A second reconcile that returns nil writes nothing
exactly if every link reads so, before the first one or when that makes it anew. -/
theorem reconcile_undisturbed_iff (hK : K.Lawful T.root) (htext : K.Texts text)
    (hport : Leaf T.port.id)
    (ht : K.WellFormed t) (hattrs : attrs.Perm T.portAttrs) (hattrs' : attrs'.Perm T.portAttrs)
    (hnqns : (desired.map (·.nqn)).Nodup)
    (hhosts : ∀ s ∈ desired, ∀ s' ∈ desired, ∀ h ∈ s.allowedHosts, h ∈ s'.allowedHosts →
      s.nqn = s'.nqn)
    (hnames : ∀ s ∈ desired, Leaf s.nqn ∧ ∀ h ∈ s.allowedHosts, Leaf h)
    (hblanks : Unpadded T desired) :
    (∀ s ∈ desired, Matches K T s t → Literal T s t →
      (T.reconcile attrs desired).Makes K.handle (Undisturbed T s) t) ∧
    ∀ t', (T.reconcile attrs desired).run.exec K.handle t = (.ok (), t') →
      (∀ s ∈ desired, Matches K T s t →
        ((T.reconcile attrs desired).Makes K.handle (Undisturbed T s) t ↔ Literal T s t)) ∧
      ∀ t'', (T.reconcile attrs' desired).run.exec K.handle t' = (.ok (), t'') →
        ((T.reconcile attrs' desired).Makes K.handle Reading t' ↔
          ∀ s ∈ desired, Steady T text s t) := by
  have hapart : desired.Pairwise Apart := by
    refine (List.pairwise_map.mp hnqns).imp_of_mem fun {s s'} hs hs'
      hne => ⟨hne, fun h hh hh' => ?_⟩
    exact hne (hhosts s hs s' hs' h hh hh')
  have hforward : ∀ s ∈ desired, Matches K T s t → Literal T s t →
      (T.reconcile attrs desired).Makes K.handle (Undisturbed T s) t :=
        fun s hs hmatches hliteral =>
    reconcile_undisturbed hK hport ht (portAttrs_names hattrs) hapart hnames hs
      (hmatches.settled hliteral)
  refine ⟨hforward, fun t' hnil => ⟨fun s hs hmatches => ⟨fun hmakes => ?_, hforward s hs hmatches⟩,
    fun t'' hnil' => ?_⟩⟩
  · exact reconcile_reveals hK hport ht hapart hnames hs hmatches.linked () t' hnil hmakes
  · have ht' := hK.exec_wellFormed ht hnil
    have hleaf : ∀ a ∈ attrs, Leaf a.1 := fun a ha => (portAttrs_names hattrs a ha).1
    obtain ⟨hready, hrenewed⟩ := reconcile_renews hK htext hport ht hattrs hapart hnames () t' hnil
    obtain ⟨hserved, honly⟩ := reconcile_ensures hK hport ht hleaf hapart hnames () t' hnil
    constructor
    · intro hmakes s hs
      refine (hrenewed s hs).steady_iff.mp ?_
      refine reconcile_reveals hK hport ht' hapart hnames hs (hrenewed s hs).linked () t'' hnil'
        (hmakes.mono ?_)
      exact Changes.mono fun _ => False.elim
    · intro hsteady
      have hsettled : ∀ s ∈ desired, Settled T s t' :=
        fun s hs => (hserved s hs).settled (hrenewed s hs)
        ((hrenewed s hs).steady_iff.mpr (hsteady s hs)) (hblanks.devices s hs) (hblanks.keys s hs)
      refine reconcile_reading ht' hport (fun a ha => ?_) (hready.perm (hattrs'.trans hattrs.symm))
        hapart hnames hsettled honly
      exact ⟨(portAttrs_names hattrs' a ha).1, hblanks.port a (hattrs'.mem_iff.mp ha)⟩

end Live

/-! ## How links read -/

theorem texts_linkKernel (root : String) (text : Path → Path → String) :
    (linkKernel root text).Texts text where
  link target link t hok := by
    have heffect := effect_of_ok hok
    unfold Change.effect at heffect
    dsimp only at heffect
    split_ifs at heffect
    rw [← Except.ok.inj heffect, FinMap.lookup_insert, if_pos rfl]
  file p v t hok := by
    have heffect := effect_of_ok hok
    unfold Change.effect at heffect
    dsimp only at heffect
    split at heffect
    · rw [← Except.ok.inj heffect]
      exact ⟨v, by simp [Tree.readFile]⟩
    · cases heffect

/-- A link that reads as it was written is written once. -/
theorem reconcile_undisturbed_twice :
    (exampleTarget.reconcile exampleTarget.portAttrs [exampleShare]).Makes
      (plainKernel "/nvmet").handle Reading
      ((exampleTarget.reconcile exampleTarget.portAttrs [exampleShare]).run.exec
        (plainKernel "/nvmet").handle
        (exampleTree "\n")).2 := by
  have hnil :
      ((exampleTarget.reconcile exampleTarget.portAttrs [exampleShare]).run.exec
      (plainKernel "/nvmet").handle
      (exampleTree "\n")).1 = .ok () := by decide +kernel
  have hnil' :
      ((exampleTarget.reconcile exampleTarget.portAttrs [exampleShare]).run.exec
      (plainKernel "/nvmet").handle
      ((exampleTarget.reconcile exampleTarget.portAttrs [exampleShare]).run.exec
        (plainKernel "/nvmet").handle
        (exampleTree "\n")).2).1 = .ok () := by decide +kernel
  have hblanks : Unpadded exampleTarget [exampleShare] := by
    refine ⟨?_, ?_, by decide +kernel⟩ <;> simp only [List.forall_mem_singleton] <;> decide +kernel
  have hnames : ∀ s ∈ [exampleShare], Leaf s.nqn ∧ ∀ h ∈ s.allowedHosts, Leaf h := by
    simp only [List.forall_mem_singleton, exampleShare]
    decide
  have hboth :=
    (reconcile_undisturbed_iff (t := exampleTree "\n") (lawful_plainKernel "/nvmet")
    (texts_linkKernel _ _)
    (by decide) (wellFormed_of_fits (by decide +kernel)) (List.Perm.refl _) (List.Perm.refl _)
      (by simp) (by simp) hnames
    hblanks).2 _ (Prod.ext hnil rfl)
  refine (hboth.2 _ (Prod.ext hnil' rfl)).mpr ?_
  simp only [List.forall_mem_singleton]
  exact ⟨fun h _ => .inr rfl, .inr rfl⟩

/-- What a link in configfs reads as: a way up from its place, and down to its target. -/
def configText (link target : Path) : String :=
  target.foldr (fun n text => text ++ "/" ++ n)
    (String.join (List.replicate link.length "../") ++ "nvmet")

/-- The kernel as it is. -/
def configKernel : Kernel := linkKernel "/sys/kernel/config/nvmet" configText

def configTarget : Target := { exampleTarget with root := "/sys/kernel/config/nvmet" }

/-- The tree after the volume was exported. -/
def liveTree : Tree :=
  ((configTarget.reconcile configTarget.portAttrs [exampleShare]).run.exec configKernel.handle
    (exampleTree "\n")).2

theorem distinguishes_configText : Distinguishes "/sys/kernel/config/nvmet" configText := by
  rintro link n n' (h | h)
  · simpa [configText] using h
  · exfalso
    have hroot : (clean "/sys/kernel/config/nvmet").toList.head? = some '/' := by decide +kernel
    have hhead := congrArg (fun s : String => s.toList.head?) h
    cases link with
    | nil => simp [configText, pathText, hroot] at hhead
    | cons x rest => simp [configText, pathText, List.replicate_succ, hroot] at hhead

theorem matches_liveTree : Matches configKernel configTarget exampleShare liveTree := by
  have hlink : liveTree.lookup ["nqn.host", "allowed_hosts", "nqn.pvc-1", "subsystems"] =
      some (.link "../../../../nvmet/hosts/nqn.host") := by decide +kernel
  have hport : liveTree.lookup ["nqn.pvc-1", "subsystems", "1", "ports"] =
      some (.link "../../../../nvmet/subsystems/nqn.pvc-1") := by decide +kernel
  have hentries : liveTree.keys.all (fun q =>
      q.tail ≠ ["allowed_hosts", "nqn.pvc-1", "subsystems"] || q.head? = some "nqn.host") = true :=
        by decide +kernel
  refine ⟨by decide +kernel, by decide +kernel, fun h => ⟨fun hh => ?_,
    ?_⟩, ?_, ?_, by decide +kernel, by decide +kernel,
    _, hport, .inl (by decide +kernel)⟩
  · have hentry := List.all_eq_true.mp hentries _ ((liveTree.mem_keys _).mpr hh)
    simpa [exampleShare] using hentry
  · intro hh
    obtain rfl := List.mem_singleton.mp hh
    exact Option.isSome_iff_exists.mpr ⟨_, hlink⟩
  · intro h hh
    obtain rfl := List.mem_singleton.mp hh
    exact ⟨by decide +kernel, _, hlink, .inl (by decide +kernel)⟩
  · intro h hh
    obtain rfl := List.mem_singleton.mp hh
    decide +kernel

/-- The call removes what is at this path. -/
def FsCall.removes (p : Path) : FsCall → Bool
  | .change (.remove q) => q = p
  | _ => false

/-- The volume is served as desired, and every reconcile takes its link off the port. -/
theorem live_relinked : configKernel.Lawful configTarget.root ∧ configKernel.WellFormed liveTree ∧
    Matches configKernel configTarget exampleShare liveTree ∧
    ¬ (configTarget.reconcile configTarget.portAttrs [exampleShare]).Makes configKernel.handle
      (Undisturbed configTarget exampleShare) liveTree := by
  refine ⟨lawful_linkKernel distinguishes_configText,
    linkKernel_wellFormed distinguishes_configText (by decide +kernel),
    matches_liveTree, fun hmakes => ?_⟩
  have hremove :
      (((configTarget.reconcile configTarget.portAttrs [exampleShare]).run.trace
      configKernel.handle liveTree).any
      fun c => c.1.removes ["nqn.pvc-1", "subsystems", "1", "ports"]) = true := by decide +kernel
  obtain ⟨⟨e, u⟩, hmem, he⟩ := List.any_eq_true.mp hremove
  have hcall := hmakes _ hmem
  cases e with
  | change c =>
    cases c with
    | remove p =>
      obtain rfl : p = ["nqn.pvc-1", "subsystems", "1", "ports"] := of_decide_eq_true he
      exact hcall _ (.inr (List.suffix_refl _)) (List.suffix_refl _)
    | _ => cases he
  | _ => cases he

end SimpleZfsCsi.Nvmet
