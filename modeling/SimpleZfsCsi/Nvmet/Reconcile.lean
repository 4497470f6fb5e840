import Mathlib.Data.List.Pairwise
import SimpleZfsCsi.Nvmet.Converge

/-!
# What the tree is like after it was reconciled

When `Reconcile` returns nil the tree is what is desired, but for what it leaves as it was: the
links of a subsystem that is open to any host, and the key of a host for which none is wanted.
-/

namespace SimpleZfsCsi.Nvmet

open Library Text Program

/-! ## Convergence -/

/-- The tree is what is desired. -/
structure Converged (K : Kernel) (T : Target) (desired : List Subsystem) (t : Tree) : Prop where
  subsystems : ∀ nqn, t.lookup [nqn, "subsystems"] = some .dir ↔ ∃ s ∈ desired, s.nqn = nqn
  allowAny : ∀ s ∈ desired,
    t.attr ["attr_allow_any_host", s.nqn, "subsystems"] = if s.allowedHosts = [] then "1" else "0"
  hosts : ∀ s ∈ desired, ∀ h, h ∈ s.allowedHosts ↔
    ∃ text, t.lookup [h, "allowed_hosts", s.nqn, "subsystems"] = some (.link text)
  leads : ∀ s ∈ desired, ∀ h ∈ s.allowedHosts, ∃ text,
    t.lookup [h, "allowed_hosts", s.nqn, "subsystems"] = some (.link text) ∧
      K.Leads [h, "allowed_hosts", s.nqn, "subsystems"] text [h, "hosts"]
  keys : ∀ s ∈ desired, ∀ h ∈ s.allowedHosts, t.attr ["dhchap_key", h, "hosts"] =
    trimSpace s.dhChapKey
  namespaces : ∀ s ∈ desired,
    t.attr ["device_path", "1", "namespaces", s.nqn, "subsystems"] = trimSpace s.devicePath ∧
      t.attr ["enable", "1", "namespaces", s.nqn, "subsystems"] = "1"
  port : ∀ s ∈ desired, ∃ text, t.lookup [s.nqn, "subsystems", T.port.id, "ports"] =
    some (.link text) ∧
    K.Leads [s.nqn, "subsystems", T.port.id, "ports"] text [s.nqn, "subsystems"]
  others : ∀ n text nqn, t.lookup [n, "subsystems", T.port.id, "ports"] = some (.link text) →
    K.Leads [n, "subsystems", T.port.id, "ports"] text [nqn, "subsystems"] →
      ∃ s ∈ desired, s.nqn = nqn

/-- What must have been so before: the names are names, a subsystem that is open to any host has
no links to hosts, and a host for which no key is wanted has none. -/
structure Ready (desired : List Subsystem) (t : Tree) : Prop where
  names : ∀ s ∈ desired, Leaf s.nqn ∧ ∀ h ∈ s.allowedHosts, Leaf h
  links : ∀ s ∈ desired, s.allowedHosts = [] →
    ∀ h text, t.lookup [h, "allowed_hosts", s.nqn, "subsystems"] ≠ some (.link text)
  keys : ∀ s ∈ desired, s.dhChapKey = "" →
    ∀ h ∈ s.allowedHosts, t.attr ["dhchap_key", h, "hosts"] = ""

instance : Std.Symm Apart := ⟨fun _ _ h => h.symm⟩

/-- The desired subsystems in the order of their names. -/
theorem exists_sorted {desired : List Subsystem} (hapart : desired.Pairwise Apart) :
    ∃ ss : List Subsystem, (FinMap.ofList (desired.map fun s => (s.nqn, s))).sortedKeys =
      ss.map (·.nqn) ∧
      (∀ s, s ∈ ss ↔ s ∈ desired) ∧ ss.Pairwise Apart ∧
      ∀ s ∈ ss, (FinMap.ofList (desired.map fun s => (s.nqn, s))).lookup s.nqn = some s := by
  set want := FinMap.ofList (desired.map fun s => (s.nqn, s)) with hwant
  have hnodup : ((desired.map fun s => (s.nqn, s)).map (·.1)).Nodup := by
    rw [List.map_map]
    exact List.pairwise_map.mpr (hapart.imp fun h => h.1)
  have hlookup : ∀ {k s}, want.lookup k = some s ↔ s ∈ desired ∧ s.nqn = k := by
    intro k s
    rw [hwant, FinMap.lookup_ofList hnodup]
    simp only [List.mem_map, Prod.mk.injEq]
    constructor
    · rintro ⟨s', hs', rfl, rfl⟩
      exact ⟨hs', rfl⟩
    · rintro ⟨hs, rfl⟩
      exact ⟨s, hs, rfl, rfl⟩
  have hmap : ∀ l : List String, (∀ k ∈ l, (want.lookup k).isSome) →
      l = (l.filterMap want.lookup).map (·.nqn) := by
    intro l hl
    induction l with
    | nil => rfl
    | cons k l ih =>
      obtain ⟨hk, hl⟩ := List.forall_mem_cons.mp hl
      obtain ⟨s, hs⟩ := Option.isSome_iff_exists.mp hk
      rw [List.filterMap_cons_some hs, List.map_cons, ← ih hl, (hlookup.mp hs).2]
  have hsorted := hmap want.sortedKeys fun k hk => FinMap.mem_sortedKeys.mp hk
  have hmem : ∀ s, s ∈ want.sortedKeys.filterMap want.lookup ↔ s ∈ desired := by
    intro s
    simp only [List.mem_filterMap, FinMap.mem_sortedKeys]
    constructor
    · rintro ⟨k, _, hs⟩
      exact (hlookup.mp hs).1
    · intro hs
      have hfound := hlookup.mpr ⟨hs, rfl⟩
      exact ⟨s.nqn, by simp [hfound], hfound⟩
  refine ⟨want.sortedKeys.filterMap want.lookup, hsorted, hmem, ?_,
    fun s hs => hlookup.mpr ⟨(hmem s).mp hs, rfl⟩⟩
  have hdistinct : ((want.sortedKeys.filterMap want.lookup).map (·.nqn)).Nodup :=
    hsorted ▸ want.nodup_sortedKeys
  refine (List.pairwise_map.mp hdistinct).imp_of_mem fun {s s'} hs hs' hne => ?_
  refine hapart.forall ((hmem s).mp hs) ((hmem s').mp hs') ?_
  rintro rfl
  exact hne rfl

section Converged

variable {K : Kernel} {T : Target} (hK : K.Lawful T.root) (hport : Leaf T.port.id) {t : Tree}
  {desired : List Subsystem}

include hK hport

/-- Every desired subsystem is served, and there are no others. -/
theorem reconcile_ensures (ht : K.WellFormed t) {attrs : List (String × String)}
    (hattrs : ∀ a ∈ attrs, Leaf a.1)
    (hapart : desired.Pairwise Apart)
    (hnames : ∀ s ∈ desired, Leaf s.nqn ∧ ∀ h ∈ s.allowedHosts, Leaf h) :
    Proc.Ensures K.handle (T.reconcile attrs desired) t fun _ t' =>
      (∀ s ∈ desired, Served K T s t t') ∧
        ∀ nqn, (t'.lookup [nqn, "subsystems"]).isSome → ∃ s ∈ desired, s.nqn = nqn := by
  obtain ⟨ss, hsorted, hmem, hss, hwant⟩ := exists_sorted hapart
  unfold Target.reconcile
  refine .bind ((ensurePort_ensures hK hport ht hattrs).mono fun _ t₁ ⟨ht₁, hsame⟩ => ?_)
  refine listSubsystems_ensures ht₁ fun existing hexisting => ?_
  simp only [hsorted]
  have hleaf : ∀ n ∈ existing, Leaf n := fun n hn => ht₁.names n _ ((hexisting n).mp hn)
  refine .bind ((removeOthers_ensures hK hport ht₁ hleaf).mono fun _ t₂ ⟨hkept₂, hgone⟩ => ?_)
  refine (ensureSubsystems_ensures hK hport (hkept₂.wellFormed ht₁) hwant
    (fun s hs => hnames s ((hmem s).mp hs)) hss).mono fun _ t₃ ⟨hkept₃, hserved⟩ => ⟨fun s hs => ?_,
      fun nqn hnqn => ?_⟩
  · -- before this subsystem is served, nothing happens to it
    have hfound : (FinMap.ofList (desired.map fun s => (s.nqn, s))).contains s.nqn = true := by
      simp [FinMap.contains, hwant s ((hmem s).mpr hs)]
    have h := hserved s ((hmem s).mpr hs)
    refine ⟨h.found, (h.access.before (fun x text => ?_) fun x _ => ?_).before (hsame.links s.nqn)
      fun x _ => hsame.keys x,
      h.device, h.enabled, h.port⟩
    · rw [hkept₂.same]
      rintro ⟨n, _, hold, hq⟩
      obtain rfl : n = s.nqn := by simpa [OldPlaces, List.suffix_cons_iff] using hq
      rw [hfound] at hold
      cases hold
    · refine hkept₂.attr ?_
      rintro ⟨n, _, _, hq⟩
      simp [OldPlaces, List.suffix_cons_iff] at hq
  · by_contra hnone
    push Not at hnone
    have hold : (FinMap.ofList (desired.map fun s => (s.nqn, s))).contains nqn = false := by
      rw [FinMap.contains, Option.isSome_eq_false_iff, Option.isNone_iff_eq_none]
      by_contra hne
      obtain ⟨s, hs⟩ := Option.ne_none_iff_exists'.mp hne
      obtain ⟨s', hs', heq⟩ := List.mem_map.mp (FinMap.mem_of_lookup_ofList hs)
      exact hnone s' hs' (congrArg Prod.fst heq)
    rw [hkept₃.same] at hnqn
    · -- it was there before, and so it was removed
      have hin : nqn ∈ existing := by
        by_contra hin
        rw [hkept₂.same] at hnqn
        · exact hin ((hexisting nqn).mpr hnqn)
        · rintro ⟨n, hn, _, hq⟩
          obtain rfl : n = nqn := by simpa [OldPlaces, List.suffix_cons_iff] using hq
          exact hin hn
      rw [hgone nqn hin hold] at hnqn
      cases hnqn
    · rintro ⟨s, hs, hq⟩
      simp [AllPlaces, Places, List.suffix_cons_iff, hnone s ((hmem s).mp hs)] at hq

omit hK hport in
theorem portAttrs_names {attrs : List (String × String)} (hattrs : attrs.Perm T.portAttrs) :
    ∀ a ∈ attrs, Leaf a.1 ∧ a.1 ≠ "subsystems" := by
  intro a ha
  have ha := hattrs.mem_iff.mp ha
  simp only [Target.portAttrs, List.mem_cons, List.not_mem_nil, or_false] at ha
  rcases ha with rfl | rfl | rfl | rfl <;> dsimp only <;> decide

/-- When `Reconcile` returns nil, the tree is what is desired exactly if it was ready for it. -/
theorem reconcile_converges_iff (ht : K.WellFormed t) {attrs : List (String × String)}
    (hattrs : attrs.Perm T.portAttrs) (hnqns : (desired.map (·.nqn)).Nodup)
    (hhosts : ∀ s ∈ desired, ∀ s' ∈ desired, ∀ h ∈ s.allowedHosts, h ∈ s'.allowedHosts →
      s.nqn = s'.nqn) {t' : Tree}
    (hnil : (T.reconcile attrs desired).run.exec K.handle t = (.ok (), t')) :
    Converged K T desired t' ↔ Ready desired t := by
  have hapart : desired.Pairwise Apart := by
    refine (List.pairwise_map.mp hnqns).imp_of_mem fun {s s'} hs hs'
      hne => ⟨hne, fun h hh hh' => ?_⟩
    exact hne (hhosts s hs s' hs' h hh hh')
  have hleaf : ∀ a ∈ attrs, Leaf a.1 := fun a ha => (portAttrs_names hattrs a ha).1
  have ht' : K.WellFormed t' := hK.exec_wellFormed ht hnil
  constructor
  · intro h
    have hnames : ∀ s ∈ desired, Leaf s.nqn ∧ ∀ h ∈ s.allowedHosts, Leaf h := by
      intro s hs
      refine ⟨ht'.names _ _ (by rw [(h.subsystems s.nqn).mpr ⟨s, hs, rfl⟩]; rfl), fun x hx => ?_⟩
      obtain ⟨text, htext⟩ := (h.hosts s hs x).mp hx
      exact ht'.names _ _ (by rw [htext]; rfl)
    obtain ⟨hserved, _⟩ := reconcile_ensures hK hport ht hleaf hapart hnames () t' hnil
    refine ⟨hnames, fun s hs hany x text hlink => ?_, fun s hs hkey x hx => ?_⟩
    · have hmem := (h.hosts s hs x).mpr ⟨text, ((hserved s hs).access.left hany x text).mpr hlink⟩
      rw [hany] at hmem
      cases hmem
    · rw [← (hserved s hs).access.unkeyed hkey x hx, h.keys s hs x hx, hkey]
      rfl
  · intro h
    obtain ⟨hserved, honly⟩ := reconcile_ensures hK hport ht hleaf hapart h.names () t' hnil
    refine ⟨fun nqn => ⟨fun hdir => honly nqn (by rw [hdir]; rfl), ?_⟩,
      fun s hs => (hserved s hs).access.allowAny,
      fun s hs x => ⟨fun hx => ?_, ?_⟩, fun s hs => (hserved s hs).access.links,
        fun s hs x hx => ?_,
      fun s hs => ⟨(hserved s hs).device, (hserved s hs).enabled⟩, fun s hs => (hserved s hs).port,
      fun n text nqn hlink hleads => honly nqn (ht'.linked _ n text nqn hlink hleads)⟩
    · rintro ⟨s, hs, rfl⟩
      exact ht'.subsystems _ (hserved s hs).found
    · obtain ⟨text, htext, _⟩ := (hserved s hs).access.links x hx
      exact ⟨text, htext⟩
    · rintro ⟨text, htext⟩
      by_cases hany : s.allowedHosts = []
      · exact absurd (((hserved s hs).access.left hany x text).mp htext) (h.links s hs hany x text)
      · exact (hserved s hs).access.only hany x text htext
    · by_cases hkey : s.dhChapKey = ""
      · rw [(hserved s hs).access.unkeyed hkey x hx, h.keys s hs hkey x hx, hkey]
        rfl
      · exact (hserved s hs).access.keyed hkey x hx

end Converged

/-! ## A kernel -/

/-- What a new directory comes with. -/
def contents (p : Path) : List (Path × Node) :=
  match p with
  | [_, "subsystems"] =>
    [("attr_allow_any_host" :: p, .file "0\n"), ("namespaces" :: p, .dir),
      ("allowed_hosts" :: p, .dir)]
  | [_, "namespaces", _, "subsystems"] =>
    [("device_path" :: p, .file "\n"), ("enable" :: p, .file "0\n")]
  | [_, "hosts"] => [("dhchap_key" :: p, .file "\n")]
  | [_, "ports"] =>
    [("addr_adrfam" :: p, .file "\n"), ("addr_trtype" :: p, .file "\n"),
      ("addr_traddr" :: p, .file "\n"), ("addr_trsvcid" :: p, .file "\n"), ("subsystems" :: p,
      .dir)]
  | _ => []

/-- The tree without what is at a path. -/
def Tree.without (t : Tree) (p : Path) : Tree := t.filterKeys fun q => ¬ p <:+ q

/-- What a change does where nothing speaks against it; `text` is what a new link reads as. -/
def Change.effect (text : Path → Path → String) (t : Tree) : Change → Except Errno Tree
  | .mkdir p =>
    if (t.lookup p).isSome then .error .exist
    else .ok
      ((contents p).foldl (fun t entry => t.insert entry.1 entry.2) ((t.without p).insert p .dir))
  | .writeFile p value =>
    match t.lookup p with
    | some (.file _) => .ok (t.insert p (.file value))
    | _ => .error (.other "permission denied")
  | .symlink target link =>
    if (t.lookup link).isSome then .error .exist
    else if (t.lookup target).isNone then .error .notExist
    else .ok (t.insert link (.link (text link target)))
  | .remove p => if (t.lookup p).isNone then .error .notExist else .ok (t.without p)

/-- What is at a path fits into the tree. -/
def Tree.fits (text : Path → Path → String) (t : Tree) : Path → Bool
  | [] => true
  | n :: p => decide (Leaf n) && (t.lookup p).isSome &&
    (p ≠ ["subsystems"] || t.lookup (n :: p) = some .dir) &&
    match p, t.lookup (n :: p) with
    | ["subsystems", _, "ports"], some (.link cur) =>
      t.keys.any fun
        | [nqn, "subsystems"] => cur = text (n :: p) [nqn, "subsystems"]
        | _ => false
    | _, _ => true

/-- A kernel that refuses what does not fit. -/
def linkKernel (root : String) (text : Path → Path → String) : Kernel where
  change c t :=
    match c.effect text t with
    | .error e => (.error e, t)
    | .ok t' =>
      if t'.keys.all (t'.fits text) then (.ok (), t') else (.error (.other "resource busy"), t)
  Leads link cur target := cur = text link target ∨ cur = pathText root target

/-- The texts tell the subsystems apart. -/
def Distinguishes (root : String) (text : Path → Path → String) : Prop := ∀ link n n',
  text link [n, "subsystems"] = text link [n', "subsystems"] ∨ text link [n, "subsystems"] =
    pathText root [n', "subsystems"] →
    n = n'

section LinkKernel

variable {root : String} {text : Path → Path → String} {t t' : Tree} {c : Change} {p q : Path}

theorem linkKernel_wellFormed (hdistinct : Distinguishes root text)
    (h : t.keys.all (t.fits text) = true) :
    (linkKernel root text).WellFormed t := by
  have hfits : ∀ n p, (t.lookup (n :: p)).isSome → t.fits text (n :: p) = true :=
    fun n p hsome => List.all_eq_true.mp h _ ((t.mem_keys _).mpr hsome)
  refine ⟨fun n p hsome => ?_, fun n p hsome => ?_, fun n hsome => ?_,
    fun port n cur nqn hlink hleads => ?_⟩
  · have hfit := hfits n p hsome
    simp only [Tree.fits, Bool.and_eq_true, decide_eq_true_eq] at hfit
    exact hfit.1.1.1
  · have hfit := hfits n p hsome
    simp only [Tree.fits, Bool.and_eq_true] at hfit
    exact hfit.1.1.2
  · have hfit := hfits n ["subsystems"] hsome
    simp only [Tree.fits, Bool.and_eq_true] at hfit
    simpa using hfit.1.2
  · have hfit := hfits n ["subsystems", port, "ports"] (by simp [hlink])
    simp only [Tree.fits, Bool.and_eq_true, hlink] at hfit
    obtain ⟨k, hk, heq⟩ := List.any_eq_true.mp hfit.2
    split at heq
    · rename_i m
      have hm := of_decide_eq_true heq
      obtain rfl : m = nqn := hdistinct _ m nqn (hleads.imp hm.symm.trans hm.symm.trans)
      exact (t.mem_keys _).mp hk
    · cases heq

theorem change_cases (root : String) (text : Path → Path → String) (c : Change) (t : Tree) :
    (∃ e, (linkKernel root text).change c t = (.error e, t) ∧
      (e = .exist → c.effect text t = .error .exist)) ∨
      ∃ t', c.effect text t = .ok t' ∧ t'.keys.all (t'.fits text) = true ∧
        (linkKernel root text).change c t = (.ok (), t') := by
  unfold linkKernel
  dsimp only
  cases heffect : c.effect text t with
  | error e => exact .inl ⟨e, rfl, fun he => by rw [he]⟩
  | ok t' =>
    dsimp only
    split_ifs with hfits
    · exact .inr ⟨t', rfl, hfits, rfl⟩
    · exact .inl ⟨_, rfl, by rintro ⟨⟩⟩

/-- A change that succeeds has its effect. -/
theorem effect_of_ok (hok : ((linkKernel root text).change c t).1 = .ok ()) :
    c.effect text t = .ok ((linkKernel root text).change c t).2 := by
  rcases change_cases root text c t with ⟨e, hr, _⟩ | ⟨t', heffect, _, hr⟩
  · rw [hr] at hok
    cases hok
  · rw [hr, heffect]

theorem effect_of_exist (hexist : ((linkKernel root text).change c t).1 = .error .exist) :
    c.effect text t = .error .exist := by
  rcases change_cases root text c t with ⟨e, hr, he⟩ | ⟨t', _, _, hr⟩
  · rw [hr] at hexist
    exact he (Except.error.inj hexist)
  · rw [hr] at hexist
    cases hexist

theorem lookup_without (t : Tree) (p q : Path) :
    (t.without p).lookup q = if p <:+ q then none else t.lookup q := by
  by_cases hpq : p <:+ q <;> simp [Tree.without, hpq]

theorem lookup_inserts (l : List (Path × Node)) (t : Tree) (q : Path) :
    (l.foldl (fun t entry => t.insert entry.1 entry.2) t).lookup q = t.lookup q ∨
      ∃ node, (q, node) ∈ l ∧ (l.foldl (fun t entry => t.insert entry.1 entry.2) t).lookup q =
        some node := by
  induction l generalizing t with
  | nil => exact .inl rfl
  | cons entry rest ih =>
    rcases ih (t.insert entry.1 entry.2) with hrest | ⟨node, hmem, hrest⟩
    · rw [List.foldl_cons, hrest, FinMap.lookup_insert]
      split_ifs with hq
      · exact .inr ⟨entry.2, by simp [hq], rfl⟩
      · exact .inl rfl
    · exact .inr ⟨node, List.mem_cons_of_mem _ hmem, hrest⟩

theorem mem_contents {node : Node} (h : (q, node) ∈ contents p) :
    (∃ n, q = n :: p) ∧ (∀ text, node ≠ .link text) ∧
      (q.head? = some "dhchap_key" → node = .file "\n") := by
  unfold contents at h
  split at h
  all_goals
    simp only [List.mem_cons, Prod.mk.injEq, List.not_mem_nil, or_false] at h
  · rcases h with ⟨rfl, rfl⟩ | ⟨rfl, rfl⟩ | ⟨rfl, rfl⟩ <;> simp
  · rcases h with ⟨rfl, rfl⟩ | ⟨rfl, rfl⟩ <;> simp
  · obtain ⟨rfl, rfl⟩ := h
    simp
  · rcases h with ⟨rfl, rfl⟩ | ⟨rfl, rfl⟩ | ⟨rfl, rfl⟩ | ⟨rfl, rfl⟩ | ⟨rfl, rfl⟩ <;> simp

/-- What is at a path after a directory was made. -/
theorem lookup_mkdir (heffect : Change.effect text t (.mkdir p) = .ok t') :
    t.lookup p = none ∧ t'.lookup p = some .dir ∧ ∀ q, q ≠ p →
      (¬ p <:+ q ∧ t'.lookup q = t.lookup q) ∨ (p <:+ q ∧ t'.lookup q = none) ∨
        ∃ node, (q, node) ∈ contents p ∧ t'.lookup q = some node := by
  unfold Change.effect at heffect
  dsimp only at heffect
  split_ifs at heffect with hp
  obtain rfl := Except.ok.inj heffect
  refine ⟨by simpa using hp, ?_, fun q hq => ?_⟩
  · rcases lookup_inserts (contents p) ((t.without p).insert p .dir) p with hrest | ⟨node, hmem, _⟩
    · rw [hrest, FinMap.lookup_insert, if_pos rfl]
    · obtain ⟨⟨n, hn⟩, _⟩ := mem_contents hmem
      simp at hn
  · rcases lookup_inserts (contents p) ((t.without p).insert p .dir) q with hrest | hentry
    · rw [hrest, FinMap.lookup_insert, if_neg hq, lookup_without]
      by_cases hpq : p <:+ q
      · exact .inr (.inl ⟨hpq, if_pos hpq⟩)
      · exact .inl ⟨hpq, if_neg hpq⟩
    · exact .inr (.inr hentry)

/-- A change stays in its place. -/
theorem effect_confined (heffect : c.effect text t = .ok t') (hq : ¬ c.path <:+ q) : t'.lookup q =
    t.lookup q := by
  have hne : q ≠ c.path := fun heq => hq (heq ▸ List.suffix_refl _)
  cases c with
  | mkdir p =>
    rcases (lookup_mkdir heffect).2.2 q hne with ⟨_, hsame⟩ | ⟨hpq, _⟩ | ⟨node, hmem, _⟩
    · exact hsame
    · exact absurd hpq hq
    · obtain ⟨⟨n, rfl⟩, _⟩ := mem_contents hmem
      exact absurd (List.suffix_cons _ _) hq
  | writeFile p value =>
    unfold Change.effect at heffect
    dsimp only at heffect
    split at heffect
    · obtain rfl := Except.ok.inj heffect
      exact (FinMap.lookup_insert ..).trans (if_neg hne)
    · cases heffect
  | symlink target link =>
    unfold Change.effect at heffect
    dsimp only at heffect
    split_ifs at heffect
    obtain rfl := Except.ok.inj heffect
    exact (FinMap.lookup_insert ..).trans (if_neg hne)
  | remove p =>
    unfold Change.effect at heffect
    dsimp only at heffect
    split_ifs at heffect
    obtain rfl := Except.ok.inj heffect
    exact (lookup_without ..).trans (if_neg hq)

theorem lawful_linkKernel (hdistinct : Distinguishes root text) :
    (linkKernel root text).Lawful root where
  wellFormed c t ht := by
    rcases change_cases root text c t with ⟨e, hr, _⟩ | ⟨t', _, hfits, hr⟩
    · rwa [hr]
    · rw [hr]
      exact linkKernel_wellFormed hdistinct hfits
  refused c t e he := by
    rcases change_cases root text c t with ⟨e, hr, _⟩ | ⟨t', _, _, hr⟩
    · rw [hr]
    · rw [hr] at he
      cases he
  confined c t q hq := by
    rcases change_cases root text c t with ⟨e, hr, _⟩ | ⟨t', heffect, _, hr⟩
    · rw [hr]
    · rw [hr]
      exact effect_confined heffect hq
  mkdir p t hok := by
    obtain ⟨hnone, hdir, _⟩ := lookup_mkdir (effect_of_ok hok)
    exact ⟨hnone, hdir⟩
  mkdir_link p t hok q text hpq hlink := by
    obtain ⟨_, hdir, hrest⟩ := lookup_mkdir (effect_of_ok hok)
    by_cases hq : q = p
    · rw [hq, hdir] at hlink
      cases hlink
    · rcases hrest q hq with ⟨hnot, _⟩ | ⟨_, hnone⟩ | ⟨node, hmem, hnode⟩
      · exact hnot hpq
      · rw [hnone] at hlink
        cases hlink
      · rw [hnode] at hlink
        exact (mem_contents hmem).2.1 text (Option.some.inj hlink)
  mkdir_key p t hok q hpq := by
    obtain ⟨_, hdir, hrest⟩ := lookup_mkdir (effect_of_ok hok)
    have hne : "dhchap_key" :: q ≠ p := by
      rintro rfl
      have hlength := hpq.length_le
      simp at hlength
    rcases hrest _ hne with ⟨hnot, _⟩ | ⟨_, hnone⟩ | ⟨node, hmem, hnode⟩
    · exact absurd (hpq.trans (List.suffix_cons _ _)) hnot
    · exact attr_of_none hnone
    · rw [(mem_contents hmem).2.2 rfl] at hnode
      simp only [Tree.attr, Tree.readFile, hnode]
      rfl
  mkdir_exist p t hexist := by
    have heffect := effect_of_exist hexist
    unfold Change.effect at heffect
    dsimp only at heffect
    split_ifs at heffect with hp
    exact hp
  writeFile p v t hok := by
    have heffect := effect_of_ok hok
    unfold Change.effect at heffect
    dsimp only at heffect
    split at heffect
    · rw [← Except.ok.inj heffect]
      simp [Tree.attr, Tree.readFile]
    · cases heffect
  symlink target link t hok := by
    have heffect := effect_of_ok hok
    unfold Change.effect at heffect
    dsimp only at heffect
    split_ifs at heffect
    rw [← Except.ok.inj heffect]
    exact ⟨_, by rw [FinMap.lookup_insert, if_pos rfl], .inl rfl⟩
  symlink_exist target link t hexist := by
    have heffect := effect_of_exist hexist
    unfold Change.effect at heffect
    dsimp only at heffect
    split_ifs at heffect with hlink
    · exact hlink
    · cases heffect
  remove p t hok q hpq := by
    have heffect := effect_of_ok hok
    unfold Change.effect at heffect
    dsimp only at heffect
    split_ifs at heffect
    rw [← Except.ok.inj heffect, lookup_without, if_pos hpq]
  leads link target := .inr rfl

end LinkKernel

/-- A kernel whose links read as they were written. -/
def plainKernel (root : String) : Kernel := linkKernel root fun _ => pathText root

section PlainKernel

variable {root : String} {t : Tree}

theorem distinguishes_pathText (root : String) : Distinguishes root fun _ => pathText root := by
  rintro link n n' (h | h)
  · simpa [pathText] using h
  · simpa [pathText] using h

theorem wellFormed_of_fits (h : t.keys.all (t.fits fun _ => pathText root) = true) :
    (plainKernel root).WellFormed t :=
  linkKernel_wellFormed (distinguishes_pathText root) h

theorem lawful_plainKernel (root : String) : (plainKernel root).Lawful root :=
  lawful_linkKernel (distinguishes_pathText root)

end PlainKernel

/-- The target of the examples. -/
def exampleTarget : Target where
  root := "/nvmet"
  port := { id := "1", trType := "tcp", adrFam := "ipv4", trAddr := "0.0.0.0", trSvcID := "4420" }

/-- A tree with one host, and the key it has. -/
def exampleTree (key : String) : Tree :=
  FinMap.ofList [([], .dir), (["subsystems"], .dir), (["hosts"], .dir), (["ports"], .dir),
    (["nqn.host", "hosts"], .dir), (["dhchap_key", "nqn.host", "hosts"], .file key)]

/-- A volume for that host, without authentication. -/
def exampleShare : Subsystem where
  nqn := "nqn.pvc-1"
  devicePath := "/dev/zvol/tank/pvc-1"
  allowedHosts := ["nqn.host"]
  dhChapKey := ""

/-- The host has no key yet. -/
theorem reconcile_converges_fresh : Converged (plainKernel "/nvmet") exampleTarget [exampleShare]
    ((exampleTarget.reconcile exampleTarget.portAttrs [exampleShare]).run.exec
      (plainKernel "/nvmet").handle
      (exampleTree "\n")).2 := by
  have hnil :
      ((exampleTarget.reconcile exampleTarget.portAttrs [exampleShare]).run.exec
      (plainKernel "/nvmet").handle
      (exampleTree "\n")).1 = .ok () := by decide +kernel
  refine (reconcile_converges_iff (t := exampleTree "\n") (lawful_plainKernel "/nvmet") (by decide)
    (wellFormed_of_fits (by decide +kernel)) (List.Perm.refl _) (by simp) (by simp)
      (Prod.ext hnil rfl)).mpr ?_
  refine ⟨?_, ?_, ?_⟩
  · simp only [List.forall_mem_singleton, exampleShare]
    decide
  · simp [exampleShare]
  · simp only [List.forall_mem_singleton, exampleShare]
    decide +kernel

/-- A host that had a key keeps it, though the subsystem wants no authentication. -/
theorem reconcile_keeps_key :
    (plainKernel "/nvmet").WellFormed (exampleTree "DHHC-1:00:old:\n") ∧
    ((exampleTarget.reconcile exampleTarget.portAttrs [exampleShare]).run.exec
      (plainKernel "/nvmet").handle
      (exampleTree "DHHC-1:00:old:\n")).1 = .ok () ∧
    ¬ Converged (plainKernel "/nvmet") exampleTarget [exampleShare]
      ((exampleTarget.reconcile exampleTarget.portAttrs [exampleShare]).run.exec
        (plainKernel "/nvmet").handle
        (exampleTree "DHHC-1:00:old:\n")).2 := by
  refine ⟨wellFormed_of_fits (by decide +kernel), by decide +kernel, fun h => ?_⟩
  have hkey := h.keys exampleShare (by simp) "nqn.host" (by simp [exampleShare])
  revert hkey
  decide +kernel

end SimpleZfsCsi.Nvmet
