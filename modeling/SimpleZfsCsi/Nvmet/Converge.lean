import SimpleZfsCsi.Nvmet.Configfs

/-!
# What each part of a reconcile leaves behind

Every part of `reconcile` stays in its place, so what one subsystem got is not lost to another.
Each is said as what it ensures when it returns nil.
-/

namespace SimpleZfsCsi.Nvmet

open Library Text Program

/-! ## Paths -/

theorem div_leaf {n : String} (hn : Leaf n) (p : Path) : p / n = n :: p := hn.foldl p

section Constants

variable (p : Path)

@[simp] theorem div_allowed_hosts : p / "allowed_hosts" = "allowed_hosts" :: p :=
  div_leaf (by decide) p

@[simp] theorem div_attr_allow_any_host : p / "attr_allow_any_host" = "attr_allow_any_host" :: p :=
  div_leaf (by decide) p

@[simp] theorem div_dhchap_key : p / "dhchap_key" = "dhchap_key" :: p := div_leaf (by decide) p

@[simp] theorem div_namespaces : p / "namespaces" = "namespaces" :: p := div_leaf (by decide) p

@[simp] theorem div_one : p / "1" = "1" :: p := div_leaf (by decide) p

@[simp] theorem div_device_path : p / "device_path" = "device_path" :: p := div_leaf (by decide) p

@[simp] theorem div_enable : p / "enable" = "enable" :: p := div_leaf (by decide) p

@[simp] theorem div_subsystems : p / "subsystems" = "subsystems" :: p := div_leaf (by decide) p

end Constants

/-! ## What stays -/

/-- The tree stays well-formed, and nothing changes outside of `S`. -/
structure Kept (K : Kernel) (S : Path → Prop) (t t' : Tree) : Prop where
  wellFormed : K.WellFormed t → K.WellFormed t'
  same : ∀ q, ¬ S q → t'.lookup q = t.lookup q

/-- Only directories and attributes are new, and no key. -/
structure Grown (t t' : Tree) : Prop where
  node : ∀ q n, t.lookup q = some n → t'.lookup q = some n
  link : ∀ q text, t'.lookup q = some (.link text) → t.lookup q = some (.link text)
  key : ∀ q, t'.attr ("dhchap_key" :: q) = t.attr ("dhchap_key" :: q)

section Kept

variable {K : Kernel} {S S' : Path → Prop} {t t' t'' : Tree} {p q : Path}

theorem Kept.refl (t : Tree) : Kept K S t t := ⟨id, fun _ _ => rfl⟩

theorem Kept.trans (h : Kept K S t t') (h' : Kept K S t' t'') : Kept K S t t'' :=
  ⟨fun ht => h'.wellFormed (h.wellFormed ht), fun q hq => (h'.same q hq).trans (h.same q hq)⟩

theorem Kept.mono (h : Kept K S t t') (hS : ∀ q, S q → S' q) : Kept K S' t t' :=
  ⟨h.wellFormed, fun q hq => h.same q fun hq' => hq (hS q hq')⟩

theorem attr_congr (h : t'.lookup q = t.lookup q) : t'.attr q = t.attr q := by
  simp [Tree.attr, Tree.readFile, h]

theorem Kept.attr (h : Kept K S t t') (hq : ¬ S q) : t'.attr q = t.attr q :=
  attr_congr (h.same q hq)

theorem Grown.refl (t : Tree) : Grown t t := ⟨fun _ _ => id, fun _ _ => id, fun _ => rfl⟩

theorem Grown.trans (h : Grown t t') (h' : Grown t' t'') : Grown t t'' :=
  ⟨fun q n hn => h'.node q n (h.node q n hn), fun q text hq => h.link q text (h'.link q text hq),
    fun q => (h'.key q).trans (h.key q)⟩

/-- Below what does not exist there is nothing. -/
theorem lookup_below (ht : K.WellFormed t) (hp : t.lookup p = none) (hpq : p <:+ q) :
    t.lookup q = none := by
  induction q with
  | nil => rwa [List.suffix_nil.mp hpq] at hp
  | cons n q ih =>
    rcases List.suffix_cons_iff.mp hpq with rfl | hpq
    · exact hp
    · by_contra hne
      have hsome := ht.rooted n q (Option.isSome_iff_ne_none.mpr hne)
      rw [ih hpq] at hsome
      cases hsome

theorem trimSpace_attr (t : Tree) (q : Path) : trimSpace (t.attr q) = t.attr q := by
  unfold Tree.attr
  split
  · exact trimWhere_idem _ _
  · rfl

theorem attr_of_none (hq : t.lookup q = none) : t.attr q = "" := by
  simp [Tree.attr, Tree.readFile, hq]

end Kept

/-! ## The primitives -/

section Primitives

variable {K : Kernel} {root : String} {t : Tree} {p q : Path} {α β : Type}

section Calls

variable {Q : β → Tree → Prop}

theorem stat_ensures {f : Except Errno Node → Fs β}
    (hf : Proc.Ensures K.handle (f (t.stat p)) t Q) :
    Proc.Ensures K.handle (stat p >>= f) t Q := .outcome_ask hf

theorem lstat_ensures {f : Except Errno Node → Fs β}
    (hf : Proc.Ensures K.handle (f (t.lstat p)) t Q) :
    Proc.Ensures K.handle (lstat p >>= f) t Q := .outcome_ask hf

theorem readlink_ensures {f : Except Errno String → Fs β}
    (hf : Proc.Ensures K.handle (f (t.readlink p)) t Q) :
    Proc.Ensures K.handle (readlink p >>= f) t Q := .outcome_ask hf

theorem readDir_ensures {f : Except Errno (List (String × Node)) → Fs β}
    (hf : Proc.Ensures K.handle (f (t.readDir p)) t Q) :
    Proc.Ensures K.handle (readDir p >>= f) t Q :=
  .outcome_ask hf

theorem readFile_ensures {f : Except Errno String → Fs β}
    (hf : Proc.Ensures K.handle (f (t.readFile p)) t Q) :
    Proc.Ensures K.handle (readFile p >>= f) t Q := .outcome_ask hf

theorem attempt_ensures {c : Change} {f : Except Errno Unit → Fs β}
    (hf : Proc.Ensures K.handle (f (K.change c t).1) (K.change c t).2 Q) :
    Proc.Ensures K.handle (attempt c >>= f) t Q := .outcome_ask hf

theorem perform_ensures {c : Change} {Q : Unit → Tree → Prop}
    (hc : (K.change c t).1 = .ok () → Q () (K.change c t).2) :
    Proc.Ensures K.handle (perform c) t Q :=
  .ask fun _ hok => hc hok

end Calls

theorem wrapping_ensures {msg : String} {p : Fs α} {Q : α → Tree → Prop}
    (hp : Proc.Ensures K.handle p t Q) :
    Proc.Ensures K.handle (wrapping msg p) t Q := by
  refine .outcome_bind fun r u hr => ?_
  cases r with
  | ok a => exact .pure (hp a u hr)
  | error e => exact .throw _

theorem readAttr_ensures {f : Except Errno String → Fs β} {Q : β → Tree → Prop}
    (hf : ∀ r : Except Errno String, r.toOption.getD "" = t.attr p →
      Proc.Ensures K.handle (f r) t Q) :
    Proc.Ensures K.handle (readAttr p >>= f) t Q := by
  unfold readAttr
  refine .bind (readFile_ensures ?_)
  cases hread : t.readFile p with
  | ok content => exact .pure (hf _ (by simp [Tree.attr, hread, Except.toOption]))
  | error e => exact .pure (hf _ (by simp [Tree.attr, hread, Except.toOption]))

variable (hK : K.Lawful root)

include hK

theorem Kernel.Lawful.kept (c : Change) (t : Tree) : Kept K (c.path <:+ ·) t (K.change c t).2 :=
  ⟨hK.wellFormed c t, fun q hq => hK.confined c t q hq⟩

theorem Kernel.Lawful.handle_wellFormed (e : FsCall) (ht : K.WellFormed t) :
    K.WellFormed (K.handle e t).2 := by
  cases e with
  | change c => exact hK.wellFormed c t ht
  | _ => exact ht

theorem Kernel.Lawful.exec_wellFormed {p : Fs α} {r : Except Err α} {u : Tree} (ht : K.WellFormed t)
    (hexec : p.run.exec K.handle t = (r, u)) : K.WellFormed u := by
  have hu := Program.exec_invariant (fun e _ => hK.handle_wellFormed e) p.run ht
  rwa [hexec] at hu

theorem Kernel.Lawful.grown (ht : K.WellFormed t) (hok : (K.change (.mkdir p) t).1 = .ok ()) :
    Grown t (K.change (.mkdir p) t).2 := by
  obtain ⟨hnone, hdir⟩ := hK.mkdir p t hok
  refine ⟨fun q n hn => ?_, fun q text hq => ?_, fun q => ?_⟩
  · rw [hK.confined (.mkdir p) t q fun hpq => ?_]
    · exact hn
    · rw [lookup_below ht hnone hpq] at hn
      cases hn
  · by_cases hpq : p <:+ q
    · exact absurd hq (hK.mkdir_link p t hok q text hpq)
    · rwa [hK.confined (.mkdir p) t q hpq] at hq
  · by_cases hpq : p <:+ q
    · rw [hK.mkdir_key p t hok q hpq,
        attr_of_none (lookup_below ht hnone (hpq.trans (List.suffix_cons _ _)))]
    · by_cases hp : p = "dhchap_key" :: q
      · rw [← hp, attr_of_none hnone]
        simp [Tree.attr, Tree.readFile, hdir]
      · refine attr_congr (hK.confined (.mkdir p) t _ fun hpq' => ?_)
        rcases List.suffix_cons_iff.mp hpq' with heq | hpq'
        · exact hp heq
        · exact hpq hpq'

theorem ensureDir_ensures (ht : K.WellFormed t) :
    Proc.Ensures K.handle (ensureDir p) t fun _ t' =>
      Kept K (p <:+ ·) t t' ∧ Grown t t' ∧ (t'.lookup p).isSome := by
  unfold ensureDir
  refine stat_ensures ?_
  simp only [Tree.stat]
  cases hp : t.lookup p with
  | some n => cases n <;> exact .pure ⟨.refl t, .refl t, by simp [hp]⟩
  | none =>
    refine attempt_ensures ?_
    cases hr : (K.change (.mkdir p) t).1 with
    | ok _ => exact .pure ⟨hK.kept (.mkdir p) t, hK.grown ht hr, by simp [(hK.mkdir p t hr).2]⟩
    | error e =>
      cases e with
      | exist =>
        have hsome := hK.mkdir_exist p t hr
        rw [hp] at hsome
        cases hsome
      | notExist => exact .throw _
      | other text => exact .throw _

theorem writeAttr_ensures (value : String) :
    Proc.Ensures K.handle (writeAttr p value) t fun _ t' =>
      Kept K (p <:+ ·) t t' ∧ t'.attr p = trimSpace value :=
  perform_ensures fun hok => ⟨hK.kept (.writeFile p value) t, hK.writeFile p value t hok⟩

theorem writeAttrIfChanged_ensures (value : String) :
    Proc.Ensures K.handle (writeAttrIfChanged p value) t fun _ t' =>
      Kept K (p <:+ ·) t t' ∧ t'.attr p = trimSpace value := by
  unfold writeAttrIfChanged
  refine readAttr_ensures fun r hr => ?_
  cases r with
  | error e => exact writeAttr_ensures hK value
  | ok cur =>
    dsimp only
    split_ifs with hcur
    · refine .pure ⟨.refl t, ?_⟩
      have hattr : cur = t.attr p := by simpa [Except.toOption] using hr
      rw [← hcur, hattr, trimSpace_attr]
    · exact writeAttr_ensures hK value

theorem removeIfExists_ensures (ht : K.WellFormed t) :
    Proc.Ensures K.handle (removeIfExists p) t fun _ t' =>
      Kept K (p <:+ ·) t t' ∧ ∀ q, p <:+ q → t'.lookup q = none := by
  unfold removeIfExists
  refine lstat_ensures ?_
  simp only [Tree.lstat]
  cases hp : t.lookup p with
  | none => exact .pure ⟨.refl t, fun q hq => lookup_below ht hp hq⟩
  | some n => exact perform_ensures fun hok => ⟨hK.kept (.remove p) t, hK.remove p t hok⟩

/-- The end of `ensureSymlink`, when nothing is in the way. -/
theorem symlink_ensures {target link : Path} (hnone : t.lookup link = none) :
    Proc.Ensures K.handle (do
      match ← attempt (.symlink target link) with
      | .ok _ | .error .exist => return
      | .error e => throw (.os e)) t fun _ t' =>
      Kept K (link <:+ ·) t t' ∧ ∃ text, t'.lookup link = some (.link text) ∧
        K.Leads link text target := by
  refine attempt_ensures ?_
  cases hr : (K.change (.symlink target link) t).1 with
  | ok _ => exact .pure ⟨hK.kept (.symlink target link) t, hK.symlink target link t hr⟩
  | error e =>
    cases e with
    | exist =>
      have hsome := hK.symlink_exist target link t hr
      rw [hnone] at hsome
      cases hsome
    | notExist => exact .throw _
    | other text => exact .throw _

theorem ensureSymlink_ensures {target link : Path} :
    Proc.Ensures K.handle (ensureSymlink root target link) t fun _ t' =>
      Kept K (link <:+ ·) t t' ∧ ∃ text, t'.lookup link = some (.link text) ∧
        K.Leads link text target := by
  -- first what is in the way is removed
  have hremoved : Proc.Ensures K.handle (do
      perform (.remove link)
      match ← attempt (.symlink target link) with
      | .ok _ | .error .exist => return
      | .error e => throw (.os e)) t fun _ t' =>
      Kept K (link <:+ ·) t t' ∧ ∃ text, t'.lookup link = some (.link text) ∧
        K.Leads link text target := by
    refine .bind (perform_ensures fun hok => ?_)
    have hnone := hK.remove link t hok link (List.suffix_refl _)
    refine (symlink_ensures hK hnone).mono fun _ t' ⟨hkept, htext⟩ => ⟨?_, htext⟩
    exact (hK.kept (.remove link) t).trans hkept
  unfold ensureSymlink
  refine readlink_ensures ?_
  simp only [Tree.readlink]
  cases hlink : t.lookup link with
  | none => exact symlink_ensures hK hlink
  | some n =>
    cases n with
    | link text =>
      dsimp only
      split_ifs with htext
      · exact .pure ⟨.refl t, text, hlink, htext ▸ hK.leads link target⟩
      · exact hremoved
    | dir =>
      refine lstat_ensures ?_
      simp only [Tree.lstat, hlink]
      exact hremoved
    | file content =>
      refine lstat_ensures ?_
      simp only [Tree.lstat, hlink]
      exact hremoved

end Primitives

/-! ## The hosts of a subsystem -/

/-- Where the hosts are put. -/
def HostPlaces (nqn : String) (hosts : List String) (q : Path) : Prop :=
  ∃ h ∈ hosts, [h, "hosts"] <:+ q ∨ [h, "allowed_hosts", nqn, "subsystems"] <:+ q

@[simp] theorem hostPlaces_link {nqn h : String} {hosts : List String} :
    HostPlaces nqn hosts [h, "allowed_hosts", nqn, "subsystems"] ↔ h ∈ hosts := by
  simp [HostPlaces, List.suffix_cons_iff]

@[simp] theorem hostPlaces_key {nqn h : String} {hosts : List String} :
    HostPlaces nqn hosts ["dhchap_key", h, "hosts"] ↔ h ∈ hosts := by
  simp [HostPlaces, List.suffix_cons_iff]

/-- The hosts are allowed, and have the key unless there is none. -/
structure Allowed (K : Kernel) (nqn key : String) (hosts : List String) (t t' : Tree) : Prop where
  kept : Kept K (HostPlaces nqn hosts) t t'
  links : ∀ h ∈ hosts, ∃ text, t'.lookup [h, "allowed_hosts", nqn, "subsystems"] =
    some (.link text) ∧
    K.Leads [h, "allowed_hosts", nqn, "subsystems"] text [h, "hosts"]
  keyed : key ≠ "" → ∀ h ∈ hosts, t'.attr ["dhchap_key", h, "hosts"] = trimSpace key
  unkeyed : key = "" → ∀ h, t'.attr ["dhchap_key", h, "hosts"] = t.attr ["dhchap_key", h, "hosts"]

/-- The links of the subsystem are those to the hosts. -/
structure AllowedOnly (K : Kernel) (nqn key : String) (hosts : List String)
    (t t' : Tree) : Prop where
  kept : Kept K (fun q => (∃ h ∈ hosts, [h, "hosts"] <:+ q) ∨
    ["allowed_hosts", nqn, "subsystems"] <:+ q) t t'
  links : ∀ h ∈ hosts, ∃ text, t'.lookup [h, "allowed_hosts", nqn, "subsystems"] =
    some (.link text) ∧
    K.Leads [h, "allowed_hosts", nqn, "subsystems"] text [h, "hosts"]
  only : ∀ h text, t'.lookup [h, "allowed_hosts", nqn, "subsystems"] = some (.link text) → h ∈ hosts
  keyed : key ≠ "" → ∀ h ∈ hosts, t'.attr ["dhchap_key", h, "hosts"] = trimSpace key
  unkeyed : key = "" → ∀ h, t'.attr ["dhchap_key", h, "hosts"] = t.attr ["dhchap_key", h, "hosts"]

section Hosts

variable {K : Kernel} {T : Target} (hK : K.Lawful T.root) {t : Tree} {nqn key : String}

include hK

theorem allowHost_ensures (ht : K.WellFormed t) {h : String} (hh : Leaf h) :
    Proc.Ensures K.handle (T.allowHost ["allowed_hosts", nqn, "subsystems"] key h) t fun _ t' =>
      Allowed K nqn key [h] t t' := by
  unfold Target.allowHost
  simp only [Target.hostsDir, div_leaf hh, div_dhchap_key]
  refine .bind ((ensureDir_ensures hK ht).mono fun _ t₁ ⟨hkept₁, hgrown, _⟩ => ?_)
  have hkept₁ : Kept K (HostPlaces nqn [h]) t t₁ := hkept₁.mono fun q hq => ⟨h, by simp, .inl hq⟩
  -- the link comes last
  have hlast : ∀ t₂, Kept K (HostPlaces nqn [h]) t t₂ →
      (key ≠ "" → t₂.attr ["dhchap_key", h, "hosts"] = trimSpace key) →
      (key = "" → ∀ h, t₂.attr ["dhchap_key", h, "hosts"] = t.attr ["dhchap_key", h, "hosts"]) →
      Proc.Ensures K.handle
        (ensureSymlink T.root [h, "hosts"] [h, "allowed_hosts", nqn, "subsystems"]) t₂ fun _ t' =>
        Allowed K nqn key [h] t t' := by
    intro t₂ hkept₂ hkeyed hunkeyed
    refine (ensureSymlink_ensures hK).mono fun _ t₃ ⟨hkept₃, hlink⟩ => ?_
    have hattr : ∀ h', t₃.attr ["dhchap_key", h', "hosts"] = t₂.attr ["dhchap_key", h', "hosts"] :=
      fun h' => hkept₃.attr (by simp [List.suffix_cons_iff])
    refine ⟨hkept₂.trans (hkept₃.mono fun q hq => ⟨h, by simp, .inr hq⟩),
      by simpa using hlink, ?_, ?_⟩
    · simpa [hattr] using hkeyed
    · simpa [hattr] using hunkeyed
  split_ifs with hkey
  · refine .bind
      (wrapping_ensures ((writeAttrIfChanged_ensures hK key).mono fun _ t₂ ⟨hkept₂, hattr⟩ => ?_))
    refine hlast t₂ (hkept₁.trans (hkept₂.mono fun q hq => ⟨h, by simp, .inl ?_⟩)) (fun _ => hattr)
      (absurd · hkey)
    exact (List.suffix_cons _ _).trans hq
  · exact hlast t₁ hkept₁ (absurd · hkey) fun _ h' => hgrown.key [h', "hosts"]

theorem allowHosts_ensures (ht : K.WellFormed t) {hosts : List String}
    (hhosts : ∀ h ∈ hosts, Leaf h) :
    Proc.Ensures K.handle
      (T.allowHosts ["allowed_hosts", nqn, "subsystems"] key hosts) t fun _ t' =>
      Allowed K nqn key hosts t t' := by
  induction hosts generalizing t with
  | nil => exact .pure ⟨.refl t, by simp, by simp, by simp⟩
  | cons h rest ih =>
    obtain ⟨hh, hrest⟩ := List.forall_mem_cons.mp hhosts
    refine .bind ((allowHost_ensures hK ht hh).mono fun _ t₁ h₁ => ?_)
    refine (ih (h₁.kept.wellFormed ht) hrest).mono fun _ t₂ h₂ => ?_
    refine ⟨?_, fun x hx => ?_, fun hkey x hx => ?_, fun hkey x => ?_⟩
    · refine (h₁.kept.mono ?_).trans (h₂.kept.mono ?_)
      · rintro q ⟨x, hx, hq⟩
        exact ⟨x, by simpa using .inl (List.mem_singleton.mp hx), hq⟩
      · rintro q ⟨x, hx, hq⟩
        exact ⟨x, List.mem_cons_of_mem _ hx, hq⟩
    · by_cases hmem : x ∈ rest
      · exact h₂.links x hmem
      · rw [h₂.kept.same _ (by simpa using hmem)]
        exact h₁.links x (by simpa [hmem] using hx)
    · by_cases hmem : x ∈ rest
      · exact h₂.keyed hkey x hmem
      · rw [h₂.kept.attr (by simpa using hmem)]
        exact h₁.keyed hkey x (by simpa [hmem] using hx)
    · rw [h₂.unkeyed hkey, h₁.unkeyed hkey]

/-- What is not wanted is gone, and the rest of the directory is as it was. -/
theorem dropOthers_ensures {dir : Path} {want names : List String} (hnames : ∀ n ∈ names, Leaf n) :
    Proc.Ensures K.handle (Target.dropOthers dir want names) t fun _ t' =>
      Kept K (fun q => ∃ n ∈ names, n ∉ want ∧ (n :: dir) <:+ q) t t' ∧
        ∀ n ∈ names, n ∉ want → t'.lookup (n :: dir) = none := by
  induction names generalizing t with
  | nil => exact .pure ⟨.refl t, by simp⟩
  | cons n rest ih =>
    obtain ⟨hn, hrest⟩ := List.forall_mem_cons.mp hnames
    unfold Target.dropOthers
    split_ifs with hwant
    · refine (ih hrest).mono fun _ t' ⟨hkept, hgone⟩ => ⟨hkept.mono ?_, fun x hx hxwant => ?_⟩
      · rintro q ⟨x, hx, hq⟩
        exact ⟨x, List.mem_cons_of_mem _ hx, hq⟩
      · refine hgone x ?_ hxwant
        rcases List.mem_cons.mp hx with rfl | hx
        · exact absurd hwant hxwant
        · exact hx
    · simp only [div_leaf hn]
      refine .bind (perform_ensures fun hok => (ih hrest).mono fun _ t' ⟨hkept, hgone⟩ => ?_)
      have hkept₁ := hK.kept (.remove (n :: dir)) t
      refine ⟨(hkept₁.mono fun q hq => ⟨n, by simp, hwant, hq⟩).trans (hkept.mono ?_),
        fun x hx hxwant => ?_⟩
      · rintro q ⟨x, hx, hq⟩
        exact ⟨x, List.mem_cons_of_mem _ hx, hq⟩
      · by_cases hmem : x ∈ rest
        · exact hgone x hmem hxwant
        · obtain rfl : x = n := by simpa [hmem] using hx
          rw [hkept.same]
          · exact hK.remove _ t hok _ (List.suffix_refl _)
          · rintro ⟨y, hy, _, hsuffix⟩
            obtain rfl : y = x := (List.cons.inj (hsuffix.eq_of_length rfl)).1
            exact hmem hy

omit hK in
theorem lookup_of_readDir_notExist {p : Path} (hread : t.readDir p = .error .notExist) :
    t.lookup p = none := by
  unfold Tree.readDir at hread
  split at hread <;> simp_all

omit hK in
/-- What a directory is read as. -/
theorem mem_readDir {p : Path} {found : List (String × Node)}
    (hfound : t.readDir p = .ok found) {n : String}
    {node : Node} : (n, node) ∈ found ↔ t.lookup (n :: p) = some node := by
  have hentries : n ∈ t.entries p ↔ (t.lookup (n :: p)).isSome := by
    rw [Tree.entries, List.mem_insertionSort, List.mem_filterMap, ← t.mem_keys]
    constructor
    · rintro ⟨q, hq, hn⟩
      cases q with
      | nil => cases hn
      | cons m q =>
        dsimp only at hn
        split_ifs at hn with hqp
        obtain rfl := Option.some.inj hn
        exact hqp ▸ hq
    · exact fun hn => ⟨n :: p, hn, by simp⟩
  unfold Tree.readDir at hfound
  split at hfound
  · cases hfound
  · obtain rfl := Except.ok.inj hfound
    simp only [List.mem_filterMap, Option.map_eq_some_iff, Prod.mk.injEq]
    constructor
    · rintro ⟨m, _, node', hnode, rfl, rfl⟩
      exact hnode
    · exact fun hnode => ⟨n, hentries.mpr (by simp [hnode]), node, hnode, rfl, rfl⟩
  · cases hfound

omit hK in
/-- The entries of a directory have names. -/
theorem leaf_of_readDir (ht : K.WellFormed t) {p : Path} {found : List (String × Node)}
    (hread : t.readDir p = .ok found) :
    ∀ n ∈ found.map (·.1), Leaf n := by
  intro n hn
  obtain ⟨⟨_, node⟩, hmem, rfl⟩ := List.mem_map.mp hn
  exact ht.names _ _ (by rw [(mem_readDir hread).mp hmem]; rfl)

theorem reconcileAllowedHosts_ensures (ht : K.WellFormed t) {hosts : List String}
    (hhosts : ∀ h ∈ hosts, Leaf h) :
    Proc.Ensures K.handle (T.reconcileAllowedHosts [nqn, "subsystems"] hosts key) t fun _ t' =>
      AllowedOnly K nqn key hosts t t' := by
  unfold Target.reconcileAllowedHosts
  simp only [div_allowed_hosts]
  refine .bind ((allowHosts_ensures hK ht hhosts).mono fun _ t₁ hallowed => readDir_ensures ?_)
  have ht₁ := hallowed.kept.wellFormed ht
  have hplaces : ∀ q, HostPlaces nqn hosts q →
      (∃ h ∈ hosts, [h, "hosts"] <:+ q) ∨ ["allowed_hosts", nqn, "subsystems"] <:+ q := by
    rintro q ⟨h, hh, hq | hq⟩
    · exact .inl ⟨h, hh, hq⟩
    · exact .inr ((List.suffix_cons _ _).trans hq)
  cases hread : t₁.readDir ["allowed_hosts", nqn, "subsystems"] with
  | error e =>
    cases e with
    | notExist =>
      have hnone := lookup_of_readDir_notExist hread
      refine .pure ⟨hallowed.kept.mono hplaces, hallowed.links, fun h text hlink => ?_,
        hallowed.keyed, hallowed.unkeyed⟩
      rw [lookup_below ht₁ hnone (List.suffix_cons _ _)] at hlink
      cases hlink
    | exist => exact .throw _
    | other text => exact .throw _
  | ok found =>
    have hmem : ∀ n, n ∈ found.map (·.1) ↔
        (t₁.lookup (n :: ["allowed_hosts", nqn, "subsystems"])).isSome := by
      intro n
      simp [Option.isSome_iff_exists, ← mem_readDir hread]
    refine (dropOthers_ensures hK (leaf_of_readDir ht₁ hread)).mono fun _ t₂ ⟨hkept, hgone⟩ => ?_
    have hkey : ∀ h, t₂.attr ["dhchap_key", h, "hosts"] = t₁.attr ["dhchap_key", h, "hosts"] :=
      fun h => hkept.attr (by simp [List.suffix_cons_iff])
    refine ⟨(hallowed.kept.mono hplaces).trans (hkept.mono ?_), fun h hh => ?_,
      fun h text hlink => ?_, ?_, ?_⟩
    · rintro q ⟨n, _, _, hq⟩
      exact .inr ((List.suffix_cons _ _).trans hq)
    · rw [hkept.same _ (by simp [List.suffix_cons_iff, hh])]
      exact hallowed.links h hh
    · by_contra hh
      by_cases hin : h ∈ found.map (·.1)
      · rw [hgone h hin hh] at hlink
        cases hlink
      · rw [hkept.same _ (by simpa [List.suffix_cons_iff, hh] using hin)] at hlink
        exact hin ((hmem h).mpr (by simp [hlink]))
    · simpa [hkey] using hallowed.keyed
    · simpa [hkey] using hallowed.unkeyed

end Hosts

/-! ## One subsystem -/

/-- Whom a subsystem lets in, and what was left as it was. -/
structure Access (s : Subsystem) (K : Kernel) (t t' : Tree) : Prop where
  allowAny : t'.attr ["attr_allow_any_host", s.nqn, "subsystems"] = if s.allowedHosts =
    [] then "1" else "0"
  links : ∀ h ∈ s.allowedHosts, ∃ text, t'.lookup [h, "allowed_hosts", s.nqn, "subsystems"] =
    some (.link text) ∧
    K.Leads [h, "allowed_hosts", s.nqn, "subsystems"] text [h, "hosts"]
  only : s.allowedHosts ≠ [] → ∀ h text,
    t'.lookup [h, "allowed_hosts", s.nqn, "subsystems"] = some (.link text) → h ∈ s.allowedHosts
  left : s.allowedHosts = [] → ∀ h text, t'.lookup [h, "allowed_hosts", s.nqn, "subsystems"] =
    some (.link text) ↔
    t.lookup [h, "allowed_hosts", s.nqn, "subsystems"] = some (.link text)
  keyed : s.dhChapKey ≠ "" → ∀ h ∈ s.allowedHosts, t'.attr ["dhchap_key", h, "hosts"] =
    trimSpace s.dhChapKey
  unkeyed : s.dhChapKey = "" → ∀ h ∈ s.allowedHosts,
    t'.attr ["dhchap_key", h, "hosts"] = t.attr ["dhchap_key", h, "hosts"]

/-- Where a subsystem is, with its hosts. -/
def Places (s : Subsystem) (q : Path) : Prop :=
  (∃ h ∈ s.allowedHosts, [h, "hosts"] <:+ q) ∨ [s.nqn, "subsystems"] <:+ q

/-- The same, with its link at the port. -/
def AllPlaces (T : Target) (s : Subsystem) (q : Path) : Prop :=
  Places s q ∨ [s.nqn, "subsystems", T.port.id, "ports"] <:+ q

section Subsystem

variable {K : Kernel} {T : Target} (hK : K.Lawful T.root) {t : Tree} {s : Subsystem}

include hK

theorem ensureAccess_ensures (ht : K.WellFormed t) (hhosts : ∀ h ∈ s.allowedHosts, Leaf h) :
    Proc.Ensures K.handle (T.ensureAccess [s.nqn, "subsystems"] s) t fun _ t' =>
      Kept K (Places s) t t' ∧ Access s K t t' := by
  have hattr : ∀ q, ["attr_allow_any_host", s.nqn, "subsystems"] <:+ q → Places s q :=
    fun q hq => .inr ((List.suffix_cons _ _).trans hq)
  unfold Target.ensureAccess
  simp only [div_attr_allow_any_host]
  split_ifs with hany
  · refine (writeAttrIfChanged_ensures hK "1").mono fun _ t'
      ⟨hkept, hvalue⟩ => ⟨hkept.mono hattr, ?_⟩
    refine ⟨by rw [hvalue,
      if_pos hany]; rfl, by simp [hany], absurd hany, fun _ h text => ?_, by simp [hany],
      by simp [hany]⟩
    rw [hkept.same _ (by simp [List.suffix_cons_iff])]
  · refine .bind ((writeAttrIfChanged_ensures hK "0").mono fun _ t₁ ⟨hkept₁, hvalue⟩ => ?_)
    have ht₁ := hkept₁.wellFormed ht
    refine (reconcileAllowedHosts_ensures hK ht₁ hhosts).mono fun _ t₂ hallowed => ⟨?_, ?_⟩
    · refine (hkept₁.mono hattr).trans (hallowed.kept.mono ?_)
      rintro q (hq | hq)
      · exact .inl hq
      · exact .inr ((List.suffix_cons _ _).trans hq)
    · refine ⟨?_, hallowed.links, fun _ => hallowed.only, (absurd · hany), hallowed.keyed,
        fun hkey h _ => ?_⟩
      · rw [hallowed.kept.attr (by simp [List.suffix_cons_iff]), hvalue, if_neg hany]
        rfl
      · rw [hallowed.unkeyed hkey h]
        exact hkept₁.attr (by simp [List.suffix_cons_iff])

theorem ensureNamespace_ensures (ht : K.WellFormed t) (nsDir : Path) (devicePath : String) :
    Proc.Ensures K.handle (Target.ensureNamespace nsDir devicePath) t fun _ t' =>
      Kept K (nsDir <:+ ·) t t' ∧ t'.attr ("device_path" :: nsDir) = trimSpace devicePath ∧
        t'.attr ("enable" :: nsDir) = "1" := by
  have hbelow : ∀ n q, (n :: nsDir) <:+ q → nsDir <:+ q :=
    fun n q hq => (List.suffix_cons _ _).trans hq
  unfold Target.ensureNamespace
  simp only [div_enable, div_device_path]
  refine .bind
    ((ensureDir_ensures hK ht).mono fun _ t₁ ⟨hkept₁, _, _⟩ => readAttr_ensures fun r hr => ?_)
  -- at the end the namespace is enabled
  have hlast : ∀ t₂, Kept K (nsDir <:+ ·) t t₂ → t₂.attr ("device_path" :: nsDir) =
      trimSpace devicePath →
      Proc.Ensures K.handle
        (wrapping "enable namespace" (writeAttrIfChanged ("enable" :: nsDir) "1")) t₂ fun _ t' =>
        Kept K (nsDir <:+ ·) t t' ∧ t'.attr ("device_path" :: nsDir) = trimSpace devicePath ∧
          t'.attr ("enable" :: nsDir) = "1" := by
    intro t₂ hkept₂ hdevice
    refine wrapping_ensures
      ((writeAttrIfChanged_ensures hK "1").mono fun _ t₃ ⟨hkept₃, henable⟩ => ?_)
    refine ⟨hkept₂.trans (hkept₃.mono (hbelow _)), ?_, henable⟩
    rw [hkept₃.attr, hdevice]
    exact fun hsuffix => by simpa using hsuffix.eq_of_length rfl
  split_ifs with hdevice
  · refine .bind ((writeAttrIfChanged_ensures hK "0").mono fun _ t₂ ⟨hkept₂, _⟩ => ?_)
    refine .bind
      (wrapping_ensures ((writeAttr_ensures hK devicePath).mono fun _ t₃ ⟨hkept₃, hvalue⟩ => ?_))
    exact hlast t₃ ((hkept₁.trans (hkept₂.mono (hbelow _))).trans (hkept₃.mono (hbelow _))) hvalue
  · refine hlast t₁ hkept₁ ?_
    rw [← not_not.mp hdevice, hr, trimSpace_attr]

/-- What `ensureSubsystem` leaves behind. -/
structure Served (K : Kernel) (T : Target) (s : Subsystem) (t t' : Tree) : Prop where
  found : (t'.lookup [s.nqn, "subsystems"]).isSome
  access : Access s K t t'
  device : t'.attr ["device_path", "1", "namespaces", s.nqn, "subsystems"] = trimSpace s.devicePath
  enabled : t'.attr ["enable", "1", "namespaces", s.nqn, "subsystems"] = "1"
  port : ∃ text, t'.lookup [s.nqn, "subsystems", T.port.id, "ports"] = some (.link text) ∧
    K.Leads [s.nqn, "subsystems", T.port.id, "ports"] text [s.nqn, "subsystems"]

omit hK in
/-- Access is about what the links and the keys were. -/
theorem Access.before {t₁ t' : Tree} (h : Access s K t₁ t')
    (hlinks : ∀ h text, t₁.lookup [h, "allowed_hosts", s.nqn, "subsystems"] = some (.link text) ↔
      t.lookup [h, "allowed_hosts", s.nqn, "subsystems"] = some (.link text))
    (hkeys : ∀ h ∈ s.allowedHosts, t₁.attr ["dhchap_key", h, "hosts"] =
      t.attr ["dhchap_key", h, "hosts"]) :
    Access s K t t' :=
  ⟨h.allowAny, h.links, h.only,
    fun hany x text => (h.left hany x text).trans (hlinks x text), h.keyed,
    fun hkey x hx => (h.unkeyed hkey x hx).trans (hkeys x hx)⟩

omit hK in
/-- Access is about what is in these places. -/
theorem Access.after {S : Path → Prop} {t₁ t' : Tree} (h : Access s K t t₁) (hkept : Kept K S t₁ t')
    (hany : ¬ S ["attr_allow_any_host", s.nqn, "subsystems"])
    (hlinks : ∀ h, ¬ S [h, "allowed_hosts", s.nqn, "subsystems"])
    (hkeys : ∀ h ∈ s.allowedHosts, ¬ S ["dhchap_key", h, "hosts"]) : Access s K t t' := by
  have hlookup : ∀ x, t'.lookup [x, "allowed_hosts", s.nqn, "subsystems"] =
      t₁.lookup [x, "allowed_hosts", s.nqn, "subsystems"] := fun x => hkept.same _ (hlinks x)
  refine ⟨?_, ?_, ?_, ?_, fun hkey x hx => ?_, fun hkey x hx => ?_⟩
  · rw [hkept.attr hany, h.allowAny]
  · simpa [hlookup] using h.links
  · simpa [hlookup] using h.only
  · simpa [hlookup] using h.left
  · rw [hkept.attr (hkeys x hx), h.keyed hkey x hx]
  · rw [hkept.attr (hkeys x hx), h.unkeyed hkey x hx]

theorem ensureSubsystem_ensures (ht : K.WellFormed t) (hport : Leaf T.port.id) (hnqn : Leaf s.nqn)
    (hhosts : ∀ h ∈ s.allowedHosts, Leaf h) :
    Proc.Ensures K.handle (T.ensureSubsystem s) t fun _ t' => Kept K (AllPlaces T s) t t' ∧ Served K
      T s t t' := by
  unfold Target.ensureSubsystem
  simp only [Target.subsystemsDir, Target.portDir, div_leaf hnqn, div_leaf hport,
    div_namespaces, div_one, div_subsystems]
  refine .bind ((ensureDir_ensures hK ht).mono fun _ t₁ ⟨hkept₁, hgrown, hfound⟩ => ?_)
  have ht₁ := hkept₁.wellFormed ht
  refine .bind ((ensureAccess_ensures hK ht₁ hhosts).mono fun _ t₂ ⟨hkept₂, haccess⟩ => ?_)
  have ht₂ := hkept₂.wellFormed ht₁
  refine .bind ((ensureNamespace_ensures hK ht₂ _ s.devicePath).mono fun _ t₃ ⟨hkept₃, hdevice,
    henabled⟩ => ?_)
  have ht₃ := hkept₃.wellFormed ht₂
  refine wrapping_ensures ((ensureSymlink_ensures hK).mono fun _ t₄ ⟨hkept₄, hlink⟩ => ?_)
  have hplaces : Kept K (Places s) t t₃ := by
    refine ((hkept₁.mono fun q hq => .inr hq).trans hkept₂).trans (hkept₃.mono fun q hq => .inr ?_)
    exact ((List.suffix_cons _ _).trans (List.suffix_cons _ _)).trans hq
  have hkept : Kept K (AllPlaces T s) t t₄ :=
    (hplaces.mono fun q => .inl).trans (hkept₄.mono fun q => .inr)
  have henabled₄ : t₄.attr ["enable", "1", "namespaces", s.nqn, "subsystems"] = "1" := by
    rw [hkept₄.attr (by simp [List.suffix_cons_iff]), henabled]
  refine ⟨hkept, ?_, ?_, ?_, henabled₄, hlink⟩
  · by_contra hnone
    rw [Bool.not_eq_true, Option.isSome_eq_false_iff, Option.isNone_iff_eq_none] at hnone
    rw [attr_of_none (lookup_below (hkept.wellFormed ht) hnone (by simp [List.suffix_cons_iff]))]
      at henabled₄
    exact absurd henabled₄ (by decide)
  · have hbefore : Access s K t t₂ := by
      refine haccess.before
        (fun h text => ⟨fun hq => hgrown.link _ text hq, fun hq => hgrown.node _ _ hq⟩) ?_
      exact fun h _ => hgrown.key [h, "hosts"]
    refine (hbefore.after hkept₃ ?_ ?_ ?_).after hkept₄ ?_ ?_ ?_
    all_goals simp [List.suffix_cons_iff]
  · rw [hkept₄.attr (by simp [List.suffix_cons_iff]), hdevice]

end Subsystem

/-! ## All subsystems -/

/-- Two subsystems that have nothing in common. -/
def Apart (s s' : Subsystem) : Prop := s.nqn ≠ s'.nqn ∧ ∀ h ∈ s.allowedHosts, h ∉ s'.allowedHosts

section Apart

variable {K : Kernel} {T : Target} {s : Subsystem} {ss : List Subsystem} {t t₁ t' : Tree}

theorem Apart.symm {s s' : Subsystem} (h : Apart s s') : Apart s' s :=
  ⟨h.1.symm, fun x hx hx' => h.2 x hx' hx⟩

/-- What was done before at other places does not matter. -/
theorem Served.before (h : Served K T s t₁ t')
    (hkept : Kept K (fun q => ∃ s' ∈ ss, AllPlaces T s' q) t t₁)
    (hapart : ∀ s' ∈ ss, Apart s s') : Served K T s t t' := by
  refine ⟨h.found, h.access.before (fun x text => ?_) fun x hx => ?_, h.device, h.enabled, h.port⟩
  · rw [hkept.same]
    rintro ⟨s', hs', hq⟩
    have hne := (hapart s' hs').1.symm
    simp [AllPlaces, Places, List.suffix_cons_iff, hne] at hq
  · refine hkept.attr ?_
    rintro ⟨s', hs', hq⟩
    have hnone := (hapart s' hs').2 x hx
    simp [AllPlaces, Places, List.suffix_cons_iff, hnone] at hq

/-- Nor does what is done later. -/
theorem Served.after (h : Served K T s t t₁)
    (hkept : Kept K (fun q => ∃ s' ∈ ss, AllPlaces T s' q) t₁ t')
    (hapart : ∀ s' ∈ ss, Apart s s') : Served K T s t t' := by
  have hsame : ∀ q, (∀ s', s.nqn ≠ s'.nqn → ¬ AllPlaces T s' q) → t'.lookup q = t₁.lookup q := by
    intro q hq
    refine hkept.same q ?_
    rintro ⟨s', hs', hplaces⟩
    exact hq s' (hapart s' hs').1 hplaces
  refine ⟨?_, h.access.after hkept ?_ ?_ ?_, ?_, ?_, ?_⟩
  · rw [hsame _ fun s' hne => by simp [AllPlaces, Places, List.suffix_cons_iff, hne.symm]]
    exact h.found
  · rintro ⟨s', hs', hq⟩
    have hne := (hapart s' hs').1.symm
    simp [AllPlaces, Places, List.suffix_cons_iff, hne] at hq
  · rintro x ⟨s', hs', hq⟩
    have hne := (hapart s' hs').1.symm
    simp [AllPlaces, Places, List.suffix_cons_iff, hne] at hq
  · rintro x hx ⟨s', hs', hq⟩
    have hnone := (hapart s' hs').2 x hx
    simp [AllPlaces, Places, List.suffix_cons_iff, hnone] at hq
  · rw [attr_congr
      (hsame _ fun s' hne => by simp [AllPlaces, Places, List.suffix_cons_iff, hne.symm])]
    exact h.device
  · rw [attr_congr
      (hsame _ fun s' hne => by simp [AllPlaces, Places, List.suffix_cons_iff, hne.symm])]
    exact h.enabled
  · rw [hsame _ fun s' hne => by simp [AllPlaces, Places, List.suffix_cons_iff, hne.symm]]
    exact h.port

end Apart

section All

variable {K : Kernel} {T : Target} (hK : K.Lawful T.root) (hport : Leaf T.port.id) {t : Tree}

include hK hport

theorem ensureSubsystems_ensures (ht : K.WellFormed t) {want : FinMap String Subsystem}
    {ss : List Subsystem}
    (hwant : ∀ s ∈ ss, want.lookup s.nqn = some s)
    (hnames : ∀ s ∈ ss, Leaf s.nqn ∧ ∀ h ∈ s.allowedHosts, Leaf h)
    (hapart : ss.Pairwise Apart) :
    Proc.Ensures K.handle (T.ensureSubsystems want (ss.map (·.nqn))) t fun _ t' =>
      Kept K (fun q => ∃ s ∈ ss, AllPlaces T s q) t t' ∧ ∀ s ∈ ss, Served K T s t t' := by
  induction ss generalizing t with
  | nil => exact .pure ⟨.refl t, by simp⟩
  | cons s rest ih =>
    obtain ⟨hs, hrest⟩ := List.forall_mem_cons.mp hwant
    obtain ⟨hname, hnames⟩ := List.forall_mem_cons.mp hnames
    obtain ⟨hthis, hapart⟩ := List.pairwise_cons.mp hapart
    rw [List.map_cons]
    unfold Target.ensureSubsystems
    simp only [hs]
    refine .bind (wrapping_ensures ((ensureSubsystem_ensures hK ht hport hname.1 hname.2).mono
      fun _ t₁ ⟨hkept₁, hserved⟩ => ?_))
    refine (ih (hkept₁.wellFormed ht) hrest hnames hapart).mono fun _ t₂
      ⟨hkept₂, hothers⟩ => ⟨?_, ?_⟩
    · refine (hkept₁.mono fun q hq => ⟨s, by simp, hq⟩).trans (hkept₂.mono ?_)
      rintro q ⟨s', hs', hq⟩
      exact ⟨s', List.mem_cons_of_mem _ hs', hq⟩
    · refine List.forall_mem_cons.mpr ⟨hserved.after hkept₂ hthis, fun s' hs' => ?_⟩
      have hkept : Kept K (fun q => ∃ x ∈ [s], AllPlaces T x q) t t₁ :=
        hkept₁.mono fun q hq => ⟨s, by simp, hq⟩
      exact (hothers s' hs').before hkept (by simpa using (hthis s' hs').symm)

omit hport in
theorem clearLinks_ensures {dir : Path} {names : List String} (hnames : ∀ n ∈ names, Leaf n) :
    Proc.Ensures K.handle (Target.clearLinks dir names) t fun _ t' => Kept K (dir <:+ ·) t t' := by
  induction names generalizing t with
  | nil => exact .pure (.refl t)
  | cons n rest ih =>
    obtain ⟨hn, hrest⟩ := List.forall_mem_cons.mp hnames
    unfold Target.clearLinks
    rw [div_leaf hn]
    refine attempt_ensures ((ih hrest).mono fun _ t' hkept => ?_)
    exact ((hK.kept (.remove (n :: dir)) t).mono fun q hq => (List.suffix_cons _ _).trans
      hq).trans hkept

/-- Where a subsystem is that is removed. -/
def OldPlaces (T : Target) (nqn : String) (q : Path) : Prop :=
  [nqn, "subsystems"] <:+ q ∨ [nqn, "subsystems", T.port.id, "ports"] <:+ q

omit hport in
/-- The end of `removeSubsystem`, after the namespace. -/
theorem removeSubsystem_rest (ht : K.WellFormed t) {nqn : String} {u : Tree}
    (hkept : Kept K (OldPlaces T nqn) t u) :
    Proc.Ensures K.handle (do
      match ← readDir ["allowed_hosts", nqn, "subsystems"] with
      | .ok found => Target.clearLinks ["allowed_hosts", nqn, "subsystems"] (found.map (·.1))
      | .error _ => pure ()
      removeIfExists [nqn, "subsystems"]) u fun _ t' =>
      Kept K (OldPlaces T nqn) t t' ∧ t'.lookup [nqn, "subsystems"] = none := by
  have hu := hkept.wellFormed ht
  have hlast : ∀ v, Kept K (OldPlaces T nqn) t v →
      Proc.Ensures K.handle (removeIfExists [nqn, "subsystems"]) v fun _ t' =>
        Kept K (OldPlaces T nqn) t t' ∧ t'.lookup [nqn, "subsystems"] = none := by
    intro v hkept a t' hexec
    obtain ⟨hkept', hgone⟩ := removeIfExists_ensures hK (hkept.wellFormed ht) a t' hexec
    exact ⟨hkept.trans (hkept'.mono fun q => .inl), hgone _ (List.suffix_refl _)⟩
  refine readDir_ensures ?_
  cases hread : u.readDir ["allowed_hosts", nqn, "subsystems"] with
  | error e => exact hlast u hkept
  | ok found =>
    refine .bind fun a v hexec => hlast v ?_
    have hkept' := clearLinks_ensures hK (leaf_of_readDir hu hread) a v hexec
    exact hkept.trans (hkept'.mono fun q hq => .inl ((List.suffix_cons _ _).trans hq))

theorem removeSubsystem_ensures (ht : K.WellFormed t) {nqn : String} (hnqn : Leaf nqn) :
    Proc.Ensures K.handle (T.removeSubsystem nqn) t fun _ t' =>
      Kept K (OldPlaces T nqn) t t' ∧ t'.lookup [nqn, "subsystems"] = none := by
  have hns : ∀ q, ["1", "namespaces", nqn, "subsystems"] <:+ q → OldPlaces T nqn q :=
    fun q hq => .inl (((List.suffix_cons _ _).trans (List.suffix_cons _ _)).trans hq)
  unfold Target.removeSubsystem
  simp only [Target.subsystemsDir, Target.portDir, div_leaf hnqn, div_leaf hport,
    div_namespaces, div_one, div_subsystems, div_enable, div_allowed_hosts]
  refine .bind fun a t₁ hexec₁ => stat_ensures ?_
  have hkept₁ : Kept K (OldPlaces T nqn) t t₁ :=
    (removeIfExists_ensures hK ht a t₁ hexec₁).1.mono fun q => .inr
  cases t₁.stat ["1", "namespaces", nqn, "subsystems"] with
  | error e => exact removeSubsystem_rest hK ht hkept₁
  | ok node =>
    refine attempt_ensures
      (.bind (wrapping_ensures (perform_ensures fun _ => removeSubsystem_rest hK ht ?_)))
    refine (hkept₁.trans ((hK.kept _ t₁).mono fun q hq => ?_)).trans ((hK.kept _ _).mono hns)
    exact hns q ((List.suffix_cons _ _).trans hq)

theorem removeOthers_ensures (ht : K.WellFormed t) {want : FinMap String Subsystem}
    {names : List String}
    (hnames : ∀ n ∈ names, Leaf n) :
    Proc.Ensures K.handle (T.removeOthers want names) t fun _ t' =>
      Kept K (fun q => ∃ n ∈ names, want.contains n = false ∧ OldPlaces T n q) t t' ∧
        ∀ n ∈ names, want.contains n = false → t'.lookup [n, "subsystems"] = none := by
  induction names generalizing t with
  | nil => exact .pure ⟨.refl t, by simp⟩
  | cons n rest ih =>
    obtain ⟨hn, hrest⟩ := List.forall_mem_cons.mp hnames
    unfold Target.removeOthers
    split_ifs with hwant
    · refine .bind
        (wrapping_ensures
        ((removeSubsystem_ensures hK hport ht hn).mono fun _ t₁ ⟨hkept₁, hgone₁⟩ => ?_))
      refine (ih (hkept₁.wellFormed ht) hrest).mono fun _ t₂ ⟨hkept₂, hgone₂⟩ => ⟨?_,
        fun x hx hxwant => ?_⟩
      · refine (hkept₁.mono fun q hq => ⟨n, by simp, by simpa using hwant, hq⟩).trans
          (hkept₂.mono ?_)
        rintro q ⟨x, hx, hq⟩
        exact ⟨x, List.mem_cons_of_mem _ hx, hq⟩
      · by_cases hmem : x ∈ rest
        · exact hgone₂ x hmem hxwant
        · obtain rfl : x = n := by simpa [hmem] using hx
          rw [hkept₂.same, hgone₁]
          rintro ⟨y, hy, _, hq⟩
          obtain rfl : y = x := by simpa [OldPlaces, List.suffix_cons_iff] using hq
          exact hmem hy
    · refine (ih ht hrest).mono fun _ t₂ ⟨hkept, hgone⟩ => ⟨hkept.mono ?_, fun x hx hxwant => ?_⟩
      · rintro q ⟨x, hx, hq⟩
        exact ⟨x, List.mem_cons_of_mem _ hx, hq⟩
      · rcases List.mem_cons.mp hx with rfl | hx
        · rw [hxwant] at hwant
          exact absurd rfl hwant
        · exact hgone x hx hxwant

omit hport in
theorem mkdirAfter_ensures {parents : Fs Unit} {p : Path} (ht : K.WellFormed t)
    (hparents : Proc.Ensures K.handle parents t fun _ t' => K.WellFormed t' ∧ Grown t t') :
    Proc.Ensures K.handle (mkdirAfter parents p) t fun _ t' => K.WellFormed t' ∧ Grown t t' := by
  unfold mkdirAfter
  refine stat_ensures ?_
  cases t.stat p with
  | ok node =>
    cases node with
    | dir => exact .pure ⟨ht, .refl t⟩
    | file content => exact .throw _
    | link text => exact .throw _
  | error e =>
    refine .bind (hparents.mono fun _ t₁ ⟨ht₁, hgrown⟩ => attempt_ensures ?_)
    cases hr : (K.change (.mkdir p) t₁).1 with
    | ok _ => exact .pure ⟨hK.wellFormed _ _ ht₁, hgrown.trans (hK.grown ht₁ hr)⟩
    | error e =>
      rw [hK.refused _ _ e hr]
      refine lstat_ensures ?_
      split
      · exact .pure ⟨ht₁, hgrown⟩
      · exact .throw _

omit hport in
theorem mkdirAll_ensures (p : Path) (ht : K.WellFormed t) :
    Proc.Ensures K.handle (mkdirAll p) t fun _ t' => K.WellFormed t' ∧ Grown t t' := by
  induction p with
  | nil => exact mkdirAfter_ensures hK ht (.pure ⟨ht, .refl t⟩)
  | cons n p ih => exact mkdirAfter_ensures hK ht ih

/-- The links and the keys of the hosts are as they were. -/
structure SameHosts (t t' : Tree) : Prop where
  links : ∀ nqn h text, t'.lookup [h, "allowed_hosts", nqn, "subsystems"] = some (.link text) ↔
    t.lookup [h, "allowed_hosts", nqn, "subsystems"] = some (.link text)
  keys : ∀ h, t'.attr ["dhchap_key", h, "hosts"] = t.attr ["dhchap_key", h, "hosts"]

theorem setPortAttrs_ensures {attrs : List (String × String)} (hattrs : ∀ a ∈ attrs, Leaf a.1) :
    Proc.Ensures K.handle (T.setPortAttrs attrs) t fun _ t' => Kept K
      ([T.port.id, "ports"] <:+ ·) t t' := by
  induction attrs generalizing t with
  | nil => exact .pure (.refl t)
  | cons a rest ih =>
    obtain ⟨ha, hrest⟩ := List.forall_mem_cons.mp hattrs
    obtain ⟨name, want⟩ := a
    unfold Target.setPortAttrs
    simp only [Target.portDir, div_leaf hport, div_leaf ha]
    refine .bind
      (wrapping_ensures ((writeAttrIfChanged_ensures hK want).mono fun _ t₁ ⟨hkept, _⟩ => ?_))
    refine (ih hrest).mono fun _ t₂ hkept₂ => ?_
    exact (hkept.mono fun q hq => (List.suffix_cons _ _).trans hq).trans hkept₂

theorem ensurePort_ensures (ht : K.WellFormed t) {attrs : List (String × String)}
    (hattrs : ∀ a ∈ attrs, Leaf a.1) :
    Proc.Ensures K.handle (T.ensurePort attrs) t fun _ t' => K.WellFormed t' ∧ SameHosts t t' := by
  unfold Target.ensurePort
  refine .bind ((mkdirAll_ensures hK _ ht).mono fun _ t₁ ⟨ht₁, hgrown₁⟩ => ?_)
  refine .bind
    (wrapping_ensures ((ensureDir_ensures hK ht₁).mono fun _ t₂ ⟨hkept₂, hgrown₂, _⟩ => ?_))
  refine (setPortAttrs_ensures hK hport hattrs).mono fun _ t₃
    hkept₃ => ⟨?_, fun nqn h text => ?_, fun h => ?_⟩
  · exact hkept₃.wellFormed (hkept₂.wellFormed ht₁)
  · have hgrown := hgrown₁.trans hgrown₂
    rw [hkept₃.same _ (by simp [List.suffix_cons_iff])]
    exact ⟨hgrown.link _ text, hgrown.node _ _⟩
  · rw [hkept₃.attr (by simp [List.suffix_cons_iff])]
    exact (hgrown₁.trans hgrown₂).key [h, "hosts"]

omit hK hport in
theorem listSubsystems_ensures (ht : K.WellFormed t) {f : List String → Fs Unit}
    {Q : Unit → Tree → Prop}
    (hf : ∀ existing, (∀ n, n ∈ existing ↔ (t.lookup [n, "subsystems"]).isSome) →
      Proc.Ensures K.handle (f existing) t Q) :
    Proc.Ensures K.handle (Target.listSubsystems >>= f) t Q := by
  unfold Target.listSubsystems
  refine .bind (readDir_ensures ?_)
  cases hread : t.readDir Target.subsystemsDir with
  | ok found =>
    refine .pure (hf _ fun n => ?_)
    have hdir := ht.subsystems n
    simp only [List.mem_map, List.mem_filter, Prod.exists, decide_eq_true_eq]
    constructor
    · rintro ⟨_, node, ⟨hmem, _⟩, rfl⟩
      exact Option.isSome_iff_exists.mpr ⟨node, (mem_readDir hread).mp hmem⟩
    · exact fun hn => ⟨n, .dir, ⟨(mem_readDir hread).mpr (hdir hn), rfl⟩, rfl⟩
  | error e =>
    cases e with
    | notExist =>
      refine .pure (hf _ fun n => ?_)
      have hnone : t.lookup [n, "subsystems"] = none :=
        lookup_below ht (lookup_of_readDir_notExist hread) (List.suffix_cons n _)
      simp [hnone]
    | exist => exact .throw _
    | other text => exact .throw _

end All

end SimpleZfsCsi.Nvmet
