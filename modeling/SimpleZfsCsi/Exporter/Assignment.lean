import SimpleZfsCsi.Exporter.Cluster
import Mathlib.Tactic.SplitIfs

/-!
# Exports follow their assignment

What an exporter has applied was computed from the copies `b` it listed. The invariant says
of every export that its copy in `b` asks for the same as the copy the exporter sees now,
unless a request for it is waiting or a version that will cause one is on its way. The
versions that cause no request are the dead ones: the export is gone, belongs to someone else,
or has been let go of. An export of the exporter becomes dead only after a table without it was
applied, which is what the finalizer is for.
-/

namespace SimpleZfsCsi.Exporter

open Library Api Program Concurrent

variable {nqnStart : String} {s s' : Cluster} {x y : ExporterId} {name k : String}
  {b : String → Option NetworkExport} {exempt : Option String}

/-! ## Versions -/

/-- The version will be let through, and a request for it renders or leads to another version. -/
def Alive (x : ExporterId) (v : Option NetworkExport) : Prop :=
  ∃ o, v = some o ∧ x.owns o = true ∧
    (o.metadata.terminating = true → o.containsFinalizer networkExportFinalizer = true)

/-- What a version asks an exporter to apply. -/
def want (nqnStart : String) (x : ExporterId) (v : Option NetworkExport) : Option HostExport :=
  v.bind fun o =>
    if x.owns o = true ∧ o.metadata.terminating = false then x.toHost nqnStart o else none

theorem want_of_not_alive {v : Option NetworkExport} (hv : ¬ Alive x v) :
    want nqnStart x v = none := by
  cases v with
  | none => rfl
  | some o =>
    refine if_neg fun h => hv ⟨o, rfl, h.1, fun ht => ?_⟩
    rw [h.2] at ht
    cases ht

/-- Nothing before a dead version asks for anything, and neither does `base`. -/
def Closed (nqnStart : String) (x : ExporterId) (base : Option NetworkExport)
    (versions : List (Option NetworkExport)) : Prop :=
  ∀ l₁ v l₂, versions = l₁ ++ v :: l₂ → ¬ Alive x v →
    (∀ u ∈ l₁, want nqnStart x u = none) ∧ want nqnStart x base = none

/-- What an exporter relies on about the versions of one export. -/
structure Chain (s : Cluster) (x : ExporterId) (k : String) : Prop where
  last : ((s.cache x).versions k).getLast? = some (s.store.lookup k)
  named : ∀ o, some o ∈ (s.cache x).versions k → o.name = k
  written : ∀ o, some o ∈ (s.cache x).versions k → o.metadata.resourceVersion ≤ s.store.revision
  distinct : ((s.cache x).versions k).Pairwise fun u v => ∀ o o', u = some o → v = some o' →
    o.metadata.resourceVersion ≠ o'.metadata.resourceVersion

/-- The copies `b` ask for what the exporter sees, or it will get to know, apart from `exempt`. -/
structure Follows (nqnStart : String) (s : Cluster) (x : ExporterId)
    (b : String → Option NetworkExport) (exempt : Option String) : Prop where
  closed : ∀ k, Closed nqnStart x (b k) ((s.cache x).versions k)
  attended : ∀ k, exempt = some k ∨
    want nqnStart x (b k) = want nqnStart x ((s.cache x).seen.lookup k) ∨
    k ∈ s.queue x ∨ ∃ v ∈ (s.cache x).pending k, Alive x v

/-- The copy `o` is not the current version of the export, and never will be. -/
def Outdated (s : Cluster) (k : String) (o : NetworkExport) : Prop :=
  o.metadata.resourceVersion ≤ s.store.revision ∧
    ∀ cur, s.store.lookup k = some cur → cur.metadata.resourceVersion ≠ o.metadata.resourceVersion

/-- The copy `o` is the one the exporter sees, or outdated. -/
def Held (s : Cluster) (x : ExporterId) (k : String) (o : NetworkExport) : Prop :=
  (s.cache x).seen.lookup k = some o ∨ Outdated s k o

/-- What one exporter keeps of the state while something else happens. -/
structure Keeps (nqnStart : String) (x : ExporterId) (s s' : Cluster) : Prop where
  chain : (∀ k, Chain s x k) → ∀ k, Chain s' x k
  follows : ∀ b exempt, (∀ k, Chain s x k) → Follows nqnStart s x b exempt →
    Follows nqnStart s' x b exempt
  held : ∀ k o, (∀ k, Chain s x k) → Held s x k o → Held s' x k o
  outdated : ∀ k o, Outdated s k o → Outdated s' k o
  applied : s'.applied x = s.applied x
  processing : s'.processing x = s.processing x

theorem Keeps.refl (x : ExporterId) (s : Cluster) : Keeps nqnStart x s s :=
  ⟨id, fun _ _ _ => id, fun _ _ _ => id, fun _ _ => id, rfl, rfl⟩

theorem Keeps.trans {s'' : Cluster} (h : Keeps nqnStart x s s') (h' : Keeps nqnStart x s' s'') :
    Keeps nqnStart x s s'' where
  chain hs := h'.chain (h.chain hs)
  follows b exempt hs hb := h'.follows b exempt (h.chain hs) (h.follows b exempt hs hb)
  held k o hs ho := h'.held k o (h.chain hs) (h.held k o hs ho)
  outdated k o ho := h'.outdated k o (h.outdated k o ho)
  applied := h'.applied.trans h.applied
  processing := h'.processing.trans h.processing

/-- Nothing that concerns `x` has changed. -/
theorem Keeps.of_eq (hcache : s'.cache x = s.cache x) (hstore : s'.store = s.store)
    (hqueue : s'.queue x = s.queue x) (happlied : s'.applied x = s.applied x)
    (hprocessing : s'.processing x = s.processing x) : Keeps nqnStart x s s' where
  chain hs k := by
    obtain ⟨h₁, h₂, h₃, h₄⟩ := hs k
    constructor <;> rw [hcache] <;> simpa only [hstore]
  follows b exempt _ hb := by
    obtain ⟨h₁, h₂⟩ := hb
    exact ⟨by rwa [hcache], by rwa [hcache, hqueue]⟩
  held k o _ ho := by
    unfold Held Outdated
    rw [hcache, hstore]
    exact ho
  outdated k o ho := by
    unfold Outdated
    rw [hstore]
    exact ho
  applied := happlied
  processing := hprocessing

/-! ## A new version -/

/-- What is true of the versions after one is added. -/
theorem Chain.write {o : NetworkExport} {st : Store NetworkExportSpec NetworkExportStatus}
    (hs : ∀ k, Chain s x k) (hst : st = s.store.put name o) (hname : o.name = name) (k : String) :
    Chain
      { s with store := st, cache := fun x => (s.cache x).notify name (st.lookup name) } x k := by
  subst hst
  obtain ⟨hlast, hnamed, hwritten, hdistinct⟩ := hs k
  have hnew : ∀ o', (s.store.put name o).lookup name = some o' →
      o'.name = name ∧ o'.metadata.resourceVersion = s.store.revision + 1 := by
    intro o' ho'
    obtain ⟨hne, _⟩ | ⟨_, rfl⟩ := Store.lookup_put ho'
    · exact absurd rfl hne
    · exact ⟨hname, rfl⟩
  by_cases hk : k = name
  · subst hk
    constructor <;> simp only [Informer.versions_notify, if_true]
    · simp
    · intro o' ho'
      rcases List.mem_append.mp ho' with ho' | ho'
      · exact hnamed o' ho'
      · exact (hnew o' (List.mem_singleton.mp ho').symm).1
    · intro o' ho'
      rw [Store.revision_put]
      rcases List.mem_append.mp ho' with ho' | ho'
      · have := hwritten o' ho'
        omega
      · rw [(hnew o' (List.mem_singleton.mp ho').symm).2]
    · rw [List.pairwise_append]
      refine ⟨hdistinct, List.pairwise_singleton _ _, ?_⟩
      rintro u hu v hv o₁ o₂ rfl rfl
      have h₁ := hwritten o₁ hu
      have h₂ := (hnew o₂ (List.mem_singleton.mp hv).symm).2
      omega
  · constructor <;> simp only [Informer.versions_notify, if_neg hk]
    · rw [Store.lookup_put_of_ne _ _ hk]
      exact hlast
    · exact hnamed
    · intro o' ho'
      rw [Store.revision_put]
      exact Nat.le_succ_of_le (hwritten o' ho')
    · exact hdistinct

theorem Outdated.write {o o₁ : NetworkExport} {st : Store NetworkExportSpec NetworkExportStatus}
    (ho : Outdated s k o) (hst : st = s.store.put name o₁) :
    Outdated
      { s with store := st, cache := fun x => (s.cache x).notify name (st.lookup name) } k o := by
  subst hst
  obtain ⟨hwritten, hne⟩ := ho
  refine ⟨by rw [Store.revision_put]; omega, fun cur hcur => ?_⟩
  obtain ⟨_, hcur⟩ | ⟨_, rfl⟩ := Store.lookup_put hcur
  · exact hne cur hcur
  · simp only
    omega

/-- An alive export that stays alive adds nothing that has to be looked at. -/
theorem Closed.append {base v : Option NetworkExport} {versions : List (Option NetworkExport)}
    {last : Option NetworkExport} (h : Closed nqnStart x base versions)
    (hlast : versions.getLast? = some last) (hv : Alive x last → Alive x v) :
    Closed nqnStart x base (versions ++ [v]) := by
  intro l₁ u l₂ heq hu
  obtain rfl | ⟨l₂, z, rfl⟩ := List.eq_nil_or_concat' l₂
  · -- the new version is dead, and so was the last one
    obtain ⟨rfl, rfl⟩ : versions = l₁ ∧ v = u := by simpa using heq
    obtain ⟨init, rfl⟩ := List.getLast?_eq_some_iff.mp hlast
    have hdead : ¬ Alive x last := fun h => hu (hv h)
    obtain ⟨hinit, hbase⟩ := h init last [] rfl hdead
    refine ⟨fun u hu => ?_, hbase⟩
    rcases List.mem_append.mp hu with hu | hu
    · exact hinit u hu
    · rw [List.mem_singleton.mp hu]
      exact want_of_not_alive hdead
  · obtain ⟨rfl, _⟩ : versions = l₁ ++ u :: l₂ ∧ v = z := by
      rw [← List.cons_append, ← List.append_assoc] at heq
      simpa using List.append_inj' heq rfl
    exact h l₁ u l₂ rfl hu

theorem Follows.write {st : Store NetworkExportSpec NetworkExportStatus}
    (hb : Follows nqnStart s x b exempt)
    (hclosed : Closed nqnStart x (b name) ((s.cache x).versions name ++ [st.lookup name])) :
    Follows nqnStart
      { s with store := st, cache := fun x => (s.cache x).notify name (st.lookup name) } x
        b exempt := by
  refine ⟨fun k => ?_, fun k => ?_⟩
  · rw [Informer.versions_notify]
    split_ifs with hk
    · subst hk
      exact hclosed
    · exact hb.closed k
  · obtain hexempt | hsame | hqueue | ⟨v, hv, hvalive⟩ := hb.attended k
    · exact .inl hexempt
    · exact .inr (.inl hsame)
    · exact .inr (.inr (.inl hqueue))
    · refine .inr (.inr (.inr ⟨v, ?_, hvalive⟩))
      simp only [Informer.notify]
      by_cases hk : k = name
      · subst hk
        simp [hv]
      · simpa [hk] using hv

/-- A write under which an alive export stays alive. -/
theorem Keeps.write {o : NetworkExport} {st : Store NetworkExportSpec NetworkExportStatus}
    (hst : st = s.store.put name o) (hname : o.name = name)
    (halive : Alive x (s.store.lookup name) → Alive x (st.lookup name)) :
    Keeps nqnStart x s
      { s with store := st, cache := fun x => (s.cache x).notify name (st.lookup name) } where
  chain hs := Chain.write hs hst hname
  held _ _ _ ho := ho.imp id fun h => h.write hst
  outdated _ _ ho := ho.write hst
  applied := rfl
  processing := rfl
  follows _ _ hs hb := hb.write ((hb.closed name).append (hs name).last halive)

/-! ## A version arrives -/

theorem mem_enqueue {queue : List String} {j : String} : j ∈ Cluster.enqueue queue k ↔
    j ∈ queue ∨ j = k := by
  unfold Cluster.enqueue
  split_ifs with h
  · constructor
    · exact .inl
    · rintro (hj | rfl)
      · exact hj
      · exact h
  · simp

/-- An exporter gets to know the next version of an export. -/
theorem Keeps.deliver (x : ExporterId) (s : Cluster) (name : String) :
    Keeps nqnStart x s (s.deliver x name) := by
  cases hpending : (s.cache x).pending name with
  | nil =>
    refine Keeps.of_eq ?_ rfl ?_ rfl rfl
    · simp [Cluster.deliver, Informer.deliver, hpending]
    · simp [Cluster.deliver, Cluster.letsThrough, hpending]
  | cons v rest =>
    have hcache : (s.deliver x name).cache x = (s.cache x).deliver name := by simp [Cluster.deliver]
    obtain ⟨hseen, hrest⟩ := Informer.seen_deliver hpending
    have hversions : (s.cache x).versions name = (s.cache x).seen.lookup name :: v :: rest := by
      simp [Informer.versions, hpending]
    have hversions' : ((s.deliver x name).cache x).versions name = v :: rest := by
      simp [Informer.versions, hcache, hseen, hrest]
    have hother : ∀ k, k ≠ name → ((s.deliver x name).cache x).versions k =
        (s.cache x).versions k := by
      intro k hk
      obtain ⟨h₁, h₂⟩ := Informer.deliver_of_ne (c := s.cache x) hk
      simp [Informer.versions, hcache, h₁, h₂]
    refine ⟨fun hs k => ?_, fun b exempt hs hb => ⟨fun k => ?_, fun k => ?_⟩, fun k o hs ho => ?_,
      fun _ _ => id, rfl, rfl⟩
    · by_cases hk : k = name
      · subst hk
        obtain ⟨hlast, hnamed, hwritten, hdistinct⟩ := hs k
        rw [hversions] at hlast hnamed hwritten hdistinct
        constructor <;> rw [hversions']
        · rw [List.getLast?_cons_cons] at hlast
          exact hlast
        · exact fun o ho => hnamed o (List.mem_cons_of_mem _ ho)
        · exact fun o ho => hwritten o (List.mem_cons_of_mem _ ho)
        · exact hdistinct.of_cons
      · obtain ⟨hlast, hnamed, hwritten, hdistinct⟩ := hs k
        constructor <;> rw [hother k hk] <;> assumption
    · by_cases hk : k = name
      · subst hk
        rw [hversions']
        intro l₁ u l₂ heq hu
        have := hb.closed k ((s.cache x).seen.lookup k :: l₁) u l₂ (by rw [hversions, heq]; rfl) hu
        exact ⟨fun w hw => this.1 w (List.mem_cons_of_mem _ hw), this.2⟩
      · rw [hother k hk]
        exact hb.closed k
    · by_cases hk : k = name
      · subst hk
        by_cases hv : Alive x v
        · -- the version is let through
          obtain ⟨o, rfl, howns, _⟩ := hv
          refine .inr (.inr (.inl ?_))
          have hthrough : s.letsThrough x k = true := by simp [Cluster.letsThrough, hpending, howns]
          simp [Cluster.deliver, hthrough, mem_enqueue]
        · refine .inr (.inl ?_)
          have := hb.closed k [(s.cache x).seen.lookup k] v rest hversions hv
          rw [this.2, hcache, hseen, want_of_not_alive hv]
      · obtain ⟨h₁, h₂⟩ := Informer.deliver_of_ne (c := s.cache x) hk
        rw [hcache, h₁, h₂]
        refine (hb.attended k).imp id (Or.imp id (Or.imp (fun hq => ?_) id))
        simp only [Cluster.deliver]
        split_ifs
        · simp [mem_enqueue, hq]
        · exact hq
    · obtain hcurrent | houtdated := ho
      swap
      · exact .inr houtdated
      by_cases hk : k = name
      · -- the copy is followed by another version, so it is not the last one
        subst hk
        have hlast := (hs k).last
        have hdistinct := (hs k).distinct
        rw [hversions, List.getLast?_cons_cons] at hlast
        rw [hversions, List.pairwise_cons] at hdistinct
        refine .inr ⟨(hs k).written o (by simp [Informer.versions, hcurrent]), fun cur hcur => ?_⟩
        have hmem : some cur ∈ v :: rest := by
          rw [← hcur]
          exact List.mem_of_getLast? hlast
        exact fun h => hdistinct.1 _ hmem o cur hcurrent rfl h.symm
      · obtain ⟨h₁, _⟩ := Informer.deliver_of_ne (c := s.cache x) hk
        refine .inl ?_
        rw [hcache, h₁]
        exact hcurrent

/-- A copy that is held and has the current resource version is the current object, and the
last version the exporter knows. -/
theorem Held.eq_current {o cur : NetworkExport} (hs : ∀ k, Chain s x k) (ho : Held s x k o)
    (hcur : s.store.lookup k = some cur)
    (hversion : cur.metadata.resourceVersion = o.metadata.resourceVersion) :
    cur = o ∧ (s.cache x).seen.lookup k = some o ∧ (s.cache x).pending k = [] := by
  obtain hseen | houtdated := ho
  swap
  · exact absurd hversion (houtdated.2 cur hcur)
  have hlast := (hs k).last
  have hdistinct := (hs k).distinct
  rw [Informer.versions, hseen, hcur] at hlast
  rw [Informer.versions, hseen] at hdistinct
  cases hpending : (s.cache x).pending k with
  | nil =>
    rw [hpending] at hlast
    exact ⟨(by simpa using hlast.symm), hseen, rfl⟩
  | cons v rest =>
    rw [hpending, List.getLast?_cons_cons] at hlast
    rw [hpending, List.pairwise_cons] at hdistinct
    exact absurd hversion.symm (hdistinct.1 _ (List.mem_of_getLast? hlast) o cur rfl rfl)

/-! ## Requests and status patches -/

theorem write_put (s : Cluster) (name : String) (o : NetworkExport) :
    s.write name (s.store.put name o) = { s with
      store := s.store.put name o
      cache := fun x => (s.cache x).notify name ((s.store.put name o).lookup name) } :=
  if_neg (by rw [Store.revision_put]; omega)

theorem write_same (s : Cluster) (name : String) : s.write name s.store = s := if_pos rfl

theorem Chain.name_eq {cur : NetworkExport} (hs : ∀ k, Chain s x k)
    (hcur : s.store.lookup name = some cur) : cur.name = name := by
  refine (hs name).named cur ?_
  rw [← hcur]
  exact List.mem_of_getLast? (hs name).last

/-- An object that is owned, and held while it is being deleted, is alive once written. -/
theorem alive_put {st : Store NetworkExportSpec NetworkExportStatus} {o : NetworkExport}
    (howns : x.owns o = true)
    (hfin : o.metadata.terminating = true → o.containsFinalizer networkExportFinalizer = true) :
    Alive x ((st.put name o).lookup name) := by
  rw [Store.lookup_put_self, if_neg]
  · exact ⟨_, rfl, howns, hfin⟩
  · intro hreleased
    simp only [Object.released, Bool.and_eq_true, List.isEmpty_iff] at hreleased
    have := hfin hreleased.1
    simp [Object.containsFinalizer, hreleased.2] at this

/-- A status patch concerns nobody. -/
theorem patch_keeps (hs : ∀ k, Chain s x k) (t : ExporterId × String) (name : String)
    (read patched : NetworkExportStatus) :
    Keeps nqnStart x s (Cluster.handle t (.patchExportStatus name read patched) s).2 := by
  simp only [Cluster.handle]
  split_ifs
  swap
  · exact Keeps.refl x s
  unfold Store.patchStatus
  cases hcur : s.store.lookup name with
  | none =>
    simp only [write_same]
    exact Keeps.refl x s
  | some cur =>
    have hname : cur.name = name := Chain.name_eq hs hcur
    simp only [write_put]
    refine Keeps.write rfl hname ?_
    rintro ⟨o, ho, howns, hfin⟩
    rw [hcur] at ho
    obtain rfl := Option.some_inj.mp ho
    exact alive_put howns hfin

/-- Careful requests concern nobody who is not told. -/
theorem request_keeps (hs : ∀ k, Chain s x k) {req : ExportRequest} (hreq : Careful s req) :
    Keeps nqnStart x s (s.request req) := by
  cases req with
  | create name spec =>
    simp only [Cluster.request, Store.create]
    cases hcur : s.store.lookup name with
    | some cur =>
      simp only [Option.isSome_some, if_true, write_same]
      exact Keeps.refl x s
    | none =>
      simp only [Option.isSome_none, Bool.false_eq_true, if_false, write_put]
      refine Keeps.write rfl rfl ?_
      rintro ⟨o, ho, _⟩
      rw [hcur] at ho
      cases ho
  | update name spec =>
    simp only [Cluster.request]
    cases hcur : s.store.lookup name with
    | none => exact Keeps.refl x s
    | some cur =>
      have hname : cur.name = name := Chain.name_eq hs hcur
      obtain ⟨hnode, hprotocol⟩ := hreq cur hcur
      simp only
      obtain ⟨e, he⟩ | ⟨cur', hcur', _, hupdate⟩ := s.store.update_cases { cur with spec }
      · rw [he, write_same]
        exact Keeps.refl x s
      · have hkey : Object.name { cur with spec } = name := hname
        rw [hkey, hcur] at hcur'
        obtain rfl := Option.some_inj.mp hcur'
        rw [hupdate, hkey, write_put]
        refine Keeps.write rfl hname ?_
        rintro ⟨o, ho, howns, hfin⟩
        rw [hcur] at ho
        obtain rfl := Option.some_inj.mp ho
        refine alive_put ?_ hfin
        simpa [ExporterId.owns, hnode, hprotocol] using howns
  | delete name =>
    simp only [Cluster.request, Store.delete]
    cases hcur : s.store.lookup name with
    | none =>
      simp only [write_same]
      exact Keeps.refl x s
    | some cur =>
      simp only
      split_ifs with hterminating
      · rw [write_same]
        exact Keeps.refl x s
      · have hname : cur.name = name := Chain.name_eq hs hcur
        rw [write_put]
        refine Keeps.write rfl hname ?_
        rintro ⟨o, ho, howns, _⟩
        rw [hcur] at ho
        obtain rfl := Option.some_inj.mp ho
        exact alive_put howns fun _ => hreq cur hcur

/-! ## The invariant -/

/-- What is applied was computed from the copies `b`. -/
def Rendered (nqnStart : String) (s : Cluster) (x : ExporterId)
    (b : String → Option NetworkExport) :
    Prop :=
  ∀ e, e ∈ (s.applied x).map HostExport.withoutKey ↔ ∃ k, want nqnStart x (b k) = some e

structure Inv (nqnStart : String) (s : Cluster) : Prop where
  chain : ∀ x k, Chain s x k
  follows : ∀ x, ∃ b, Rendered nqnStart s x b ∧ Follows nqnStart s x b (s.processing x)

theorem Keeps.rendered (h : Keeps nqnStart x s s') (hb : Rendered nqnStart s x b) :
    Rendered nqnStart s' x b := by
  unfold Rendered
  rw [h.applied]
  exact hb

/-- The invariant is kept by what every exporter keeps to. -/
theorem Inv.of_keeps (hs : Inv nqnStart s) (h : ∀ x, Keeps nqnStart x s s') : Inv nqnStart s' := by
  refine ⟨fun x => (h x).chain (hs.chain x), fun x => ?_⟩
  obtain ⟨b, hb, hfollows⟩ := hs.follows x
  refine ⟨b, (h x).rendered hb, ?_⟩
  rw [(h x).processing]
  exact (h x).follows b _ (hs.chain x) hfollows

/-- One exporter has its own reasons. -/
theorem Inv.of_keeps_others (hs : Inv nqnStart s) (h : ∀ y, y ≠ x → Keeps nqnStart y s s')
    (hchain : ∀ k, Chain s' x k)
    (hfollows : ∃ b, Rendered nqnStart s' x b ∧ Follows nqnStart s' x b (s'.processing x)) :
    Inv nqnStart s' := by
  refine ⟨fun y => ?_, fun y => ?_⟩
  · by_cases hy : y = x
    · exact hy ▸ hchain
    · exact (h y hy).chain (hs.chain y)
  · by_cases hy : y = x
    · exact hy ▸ hfollows
    · obtain ⟨b, hb, hfollows⟩ := hs.follows y
      refine ⟨b, (h y hy).rendered hb, ?_⟩
      rw [(h y hy).processing]
      exact (h y hy).follows b _ (hs.chain y) hfollows

theorem Follows.mono {exempt' : Option String} (h : Follows nqnStart s x b exempt)
    (hexempt : ∀ k, exempt = some k → exempt' = some k ∨
      want nqnStart x (b k) = want nqnStart x ((s.cache x).seen.lookup k) ∨
      k ∈ s.queue x ∨ ∃ v ∈ (s.cache x).pending k, Alive x v) :
    Follows nqnStart s x b exempt' := by
  refine ⟨h.closed, fun k => ?_⟩
  obtain hk | hk := h.attended k
  · exact hexempt k hk
  · exact .inr hk

/-- The copies the exporter sees ask for what it sees. -/
theorem Follows.seen (h : Follows nqnStart s x b exempt) :
    Follows nqnStart s x (s.cache x).seen.lookup none := by
  refine ⟨fun k l₁ v l₂ heq hv => ?_, fun k => .inr (.inl rfl)⟩
  obtain ⟨hbefore, _⟩ := h.closed k l₁ v l₂ heq hv
  refine ⟨hbefore, ?_⟩
  cases l₁ with
  | nil =>
    obtain ⟨rfl, _⟩ := List.cons.inj heq
    exact want_of_not_alive hv
  | cons u l₁ =>
    obtain ⟨rfl, _⟩ := List.cons.inj heq
    exact hbefore _ List.mem_cons_self

/-! ## One request -/

section Request

variable {t : ExporterId × String} {α : Type} {A : Cluster → Prop} {o : NetworkExport}

/-- What an exporter relies on while it waits to make a call. -/
def ExporterRely (nqnStart : String) (t : ExporterId × String) (_ : ExporterCall) (s s' : Cluster) :
    Prop :=
  (Inv nqnStart s → Inv nqnStart s') ∧ Keeps nqnStart t.1 s s'

/-- What every call of an exporter guarantees. -/
def ExporterGuar (nqnStart : String) (t : ExporterId × String) (_ : ExporterCall) (s s' : Cluster) :
    Prop :=
  Inv nqnStart s → Inv nqnStart s' ∧ ∀ y, y ≠ t.1 → Keeps nqnStart y s s'

/-- What a request has established when it returns. -/
def ExporterPost (nqnStart : String) (t : ExporterId × String) (r : Except Err Unit) (s : Cluster) :
    Prop :=
  s.processing t.1 = some t.2 ∧
    (r = .ok () → ∃ b, Rendered nqnStart s t.1 b ∧ Follows nqnStart s t.1 b none)

abbrev exporterWp (nqnStart : String) (t : ExporterId × String) (p : ExporterProgram α)
    (Q : α → Cluster → Prop) (s : Cluster) : Prop :=
  p.wp (Cluster.handle t) ExporterCall.fails (ExporterRely nqnStart t) (ExporterGuar nqnStart t) Q s

structure Busy (nqnStart : String) (t : ExporterId × String) (s : Cluster) : Prop where
  inv : Inv nqnStart s
  processing : s.processing t.1 = some t.2

/-- The exporter has listed the copies `b`, the one of the request being `o`. -/
structure Listed (nqnStart : String) (t : ExporterId × String) (o : NetworkExport)
    (b : String → Option NetworkExport) (s : Cluster) : Prop extends Busy nqnStart t s where
  follows : Follows nqnStart s t.1 b none
  listed : b t.2 = some o ∨ Outdated s t.2 o
  held : Held s t.1 t.2 o

/-- It has also applied them. -/
def Applied (nqnStart : String) (t : ExporterId × String) (o : NetworkExport)
    (s : Cluster) : Prop :=
  ∃ b, Listed nqnStart t o b s ∧ Rendered nqnStart s t.1 b

/-- An assertion that nothing an exporter keeps to can break. -/
def Stable (nqnStart : String) (x : ExporterId) (A : Cluster → Prop) : Prop :=
  ∀ s s', Inv nqnStart s → A s → Inv nqnStart s' → Keeps nqnStart x s s' → A s'

theorem Busy.stable : Stable nqnStart t.1 (Busy nqnStart t) :=
  fun _ _ _ h hs' hkeeps => ⟨hs', hkeeps.processing.trans h.processing⟩

theorem Listed.stable : Stable nqnStart t.1 (Listed nqnStart t o b) :=
  fun s s' hs h hs' hkeeps =>
    { toBusy := Busy.stable s s' hs h.toBusy hs' hkeeps
      follows := hkeeps.follows b none (hs.chain t.1) h.follows
      listed := h.listed.imp id (hkeeps.outdated t.2 o)
      held := hkeeps.held t.2 o (hs.chain t.1) h.held }

theorem Applied.stable : Stable nqnStart t.1 (Applied nqnStart t o) := by
  rintro s s' hs ⟨b, hlisted, hrendered⟩ hs' hkeeps
  exact ⟨b, Listed.stable s s' hs hlisted hs' hkeeps, hkeeps.rendered hrendered⟩

theorem Stable.rely {e : ExporterCall} (hA : Stable nqnStart t.1 A)
    (hinv : Inv nqnStart s) (hs : A s)
    (h : ExporterRely nqnStart t e s s') : Inv nqnStart s' ∧ A s' :=
  ⟨h.1 hinv, hA s s' hinv hs (h.1 hinv) h.2⟩

/-- A call that every exporter keeps to keeps every stable assertion. -/
theorem call_wp {e : ExporterCall} {k : e.Ret → ExporterProgram α} {Q : α → Cluster → Prop}
    (hA : Stable nqnStart t.1 A) (hinv : Inv nqnStart s) (hs : A s)
    (hcall : ∀ u, Inv nqnStart u → ∀ y, Keeps nqnStart y u (Cluster.handle t e u).2)
    (hk : ∀ r u, Inv nqnStart u → A u → exporterWp nqnStart t (k r) Q u) :
    exporterWp nqnStart t (.call e k) Q s := by
  intro u hu
  obtain ⟨hinv, hs⟩ := hA.rely hinv hs hu
  have hinv' : Inv nqnStart (Cluster.handle t e u).2 := hinv.of_keeps (hcall u hinv)
  refine ⟨fun _ => ⟨hinv', fun y _ => hcall u hinv y⟩, ?_, fun r _ => hk r u hinv hs⟩
  exact hk _ _ hinv' (hA _ _ hinv hs hinv' (hcall u hinv t.1))

theorem updateStatus_wp (hA : Stable nqnStart t.1 A) (hinv : Inv nqnStart s) (hs : A s)
    (e : NetworkExport) (phase : NetworkExportPhase) (reason message nqn : String) :
    exporterWp nqnStart t (updateStatus e phase reason message nqn)
      (fun _ s => Inv nqnStart s ∧ A s) s :=
  call_wp hA hinv hs (fun _ hu y => patch_keeps (hu.chain y) _ _ _ _) fun _ _ hu hA => ⟨hu, hA⟩

/-- Listing: from now on the copies that were listed count. -/
theorem list_wp {k : Except Err (List NetworkExport) → ExporterProgram α} {Q : α → Cluster → Prop}
    (hs : Busy nqnStart t s) (hheld : Held s t.1 t.2 o)
    (hk : ∀ (seen : FinMap String NetworkExport) u, Listed nqnStart t o seen.lookup u →
      exporterWp nqnStart t (k (.ok seen.values)) Q u) :
    exporterWp nqnStart t (.call .listExports k) Q s := by
  intro u hu
  have hbusy := Busy.stable s u hs.inv hs (hu.1 hs.inv) hu.2
  have hheld := hu.2.held t.2 o (hs.inv.chain t.1) hheld
  obtain ⟨b, _, hfollows⟩ := hbusy.inv.follows t.1
  refine ⟨fun h => ⟨h, fun y _ => Keeps.refl y u⟩, hk (u.cache t.1).seen u ?_, fun r hr => hr.elim⟩
  exact { toBusy := hbusy, follows := hfollows.seen, listed := hheld, held := hheld }

/-- Applying: what is on the host is what was listed. -/
theorem apply_wp {desired : List HostExport} {k : Except Err Unit → ExporterProgram α}
    {Q : α → Cluster → Prop} (hs : Listed nqnStart t o b s)
    (hdesired : ∀ e, e ∈ desired.map HostExport.withoutKey ↔ ∃ j, want nqnStart t.1 (b j) = some e)
    (hok : ∀ u, Applied nqnStart t o u → exporterWp nqnStart t (k (.ok ())) Q u)
    (herror : ∀ e u, Busy nqnStart t u → exporterWp nqnStart t (k (.error e)) Q u) :
    exporterWp nqnStart t (.call (.apply desired) k) Q s := by
  intro u hu
  have hlisted := Listed.stable s u hs.inv hs (hu.1 hs.inv) hu.2
  have hother : ∀ y, y ≠ t.1 → Keeps nqnStart y u (Cluster.handle t (.apply desired) u).2 :=
    fun y hy => Keeps.of_eq rfl rfl rfl (by simp [Cluster.handle, hy]) rfl
  have hrendered : Rendered nqnStart (Cluster.handle t (.apply desired) u).2 t.1 b := by
    intro e
    simpa [Cluster.handle] using hdesired e
  have hfollows : Follows nqnStart (Cluster.handle t (.apply desired) u).2 t.1 b none :=
    ⟨hlisted.follows.closed, hlisted.follows.attended⟩
  have hinv : Inv nqnStart (Cluster.handle t (.apply desired) u).2 := by
    refine hlisted.inv.of_keeps_others hother (fun k => ?_) ⟨b, hrendered, ?_⟩
    · obtain ⟨hlast, hnamed, hwritten, hdistinct⟩ := hlisted.inv.chain t.1 k
      exact ⟨hlast, hnamed, hwritten, hdistinct⟩
    · exact hfollows.mono fun k hk => by cases hk
  refine ⟨fun _ => ⟨hinv, hother⟩, hok _ ⟨b, ?_, hrendered⟩, ?_⟩
  · exact { inv := hinv, processing := hlisted.processing, follows := hfollows
            listed := hlisted.listed, held := hlisted.held }
  · rintro _ ⟨msg, rfl⟩
    exact herror _ u hlisted.toBusy

/-! ### Rendering -/

theorem mem_listOwnedExports {items : List NetworkExport} {e : NetworkExport} :
    e ∈ listOwnedExports items x.node x.protocol ↔
      e ∈ items ∧ x.owns e = true ∧ e.metadata.terminating = false := by
  simp [listOwnedExports, ExporterId.owns, and_assoc]

/-- The exports that are rendered from the copies are those that are asked for. -/
theorem mem_rendered {seen : FinMap String NetworkExport} {e : HostExport} :
    e ∈ (listOwnedExports seen.values x.node x.protocol).filterMap (x.toHost nqnStart) ↔
      ∃ j, want nqnStart x (seen.lookup j) = some e := by
  simp only [List.mem_filterMap, mem_listOwnedExports, FinMap.mem_values]
  constructor
  · rintro ⟨o, ⟨⟨j, hj⟩, howns, hterminating⟩, he⟩
    exact ⟨j, by simp [want, hj, howns, hterminating, he]⟩
  · rintro ⟨j, hj⟩
    cases ho : seen.lookup j with
    | none => simp [want, ho] at hj
    | some o =>
      simp only [want, ho, Option.bind_some] at hj
      split_ifs at hj with howns
      exact ⟨o, ⟨⟨j, ho⟩, howns⟩, hj⟩

theorem collectNfs_wp (shares : List NetworkExport) (hs : Listed nqnStart t o b s) :
    exporterWp nqnStart t (NFSReconciler.collect shares)
      (fun l s => Listed nqnStart t o b s ∧ l = shares.filterMap Nfs.NFSReconciler.toExport) s := by
  induction shares generalizing s with
  | nil => exact ⟨hs, rfl⟩
  | cons share rest ih =>
    rw [NFSReconciler.collect]
    cases hshare : Nfs.NFSReconciler.toExport share with
    | none =>
      refine wp_bind (wp_bind (wp_mono ?_ (updateStatus_wp Listed.stable hs.inv hs _ _ _ _ _)))
      rintro r u ⟨_, hu⟩
      show exporterWp nqnStart t (NFSReconciler.collect rest) _ u
      refine wp_mono ?_ (ih hu)
      rintro l u ⟨hu, rfl⟩
      exact ⟨hu, by simp [hshare]⟩
    | some e =>
      refine wp_bind (wp_mono ?_ (ih hs))
      rintro l u ⟨hu, rfl⟩
      exact ⟨hu, by simp [hshare]⟩

/-- What the rendering of an exporter establishes. -/
abbrev RenderPost (nqnStart : String) (t : ExporterId × String) (o : NetworkExport) {ρ : Type}
    (r : Except Err ρ) (s : Cluster) : Prop :=
  Busy nqnStart t s ∧ ((∃ v, r = .ok v) → Applied nqnStart t o s)

theorem Applied.renderPost {ρ : Type} {r : Except Err ρ} (h : Applied nqnStart t o s) :
    RenderPost nqnStart t o r s := by
  have hbusy : Busy nqnStart t s := by
    obtain ⟨b, hlisted, _⟩ := h
    exact hlisted.toBusy
  exact ⟨hbusy, fun _ => h⟩

theorem renderExports_wp (ht : t.1.protocol = .nfs) (hs : Busy nqnStart t s)
    (hheld : Held s t.1 t.2 o) :
    exporterWp nqnStart t (NFSReconciler.renderExports t.1.node) (RenderPost nqnStart t o) s := by
  refine list_wp hs hheld fun seen u hu => ?_
  show exporterWp nqnStart t
    ((NFSReconciler.collect (listOwnedExports seen.values t.1.node .nfs)).bind
    fun exports => applyExports (exports.map .nfs)) _ u
  refine wp_bind (wp_mono ?_ (collectNfs_wp _ hu))
  rintro _ u ⟨hu, rfl⟩
  refine apply_wp hu (fun e => ?_) (fun u hu => hu.renderPost) fun e u hu => ⟨hu, by rintro ⟨_, ⟨⟩⟩⟩
  have htoHost : t.1.toHost nqnStart = fun o => (Nfs.NFSReconciler.toExport o).map .nfs := by
    funext o
    simp only [ExporterId.toHost, ht]
  have hkey : HostExport.withoutKey ∘ HostExport.nfs = HostExport.nfs := rfl
  rw [← mem_rendered, ht, htoHost, List.map_map, hkey, List.map_filterMap]

/-- Reading a secret concerns nobody. -/
theorem keyOf_wp (hA : Stable nqnStart t.1 A) (hinv : Inv nqnStart s) (hs : A s)
    (e : NetworkExport) :
    exporterWp nqnStart t (NVMeoFReconciler.keyOf e) (fun _ s => Inv nqnStart s ∧ A s) s := by
  unfold NVMeoFReconciler.keyOf
  cases e.spec.nvmeof with
  | none => exact ⟨hinv, hs⟩
  | some v =>
    simp only
    split_ifs
    swap
    · exact ⟨hinv, hs⟩
    unfold NVMeoFReconciler.dhchapKey
    split_ifs
    · exact ⟨hinv, hs⟩
    refine call_wp hA hinv hs (fun u _ y => Keeps.refl y u) fun r u hu hA => ?_
    cases r with
    | error e => exact ⟨hu, hA⟩
    | ok data =>
      show exporterWp nqnStart t (if _ then _ else _) _ u
      split_ifs <;> exact ⟨hu, hA⟩

theorem collectNvmeof_wp (shares : List NetworkExport) (hs : Listed nqnStart t o b s) :
    exporterWp nqnStart t (NVMeoFReconciler.collect nqnStart shares)
      (fun r s => Listed nqnStart t o b s ∧ ∀ l, r = .ok l →
        (l.map .nvmeof).map HostExport.withoutKey =
        shares.map fun e => .nvmeof (NVMeoFReconciler.subsystem nqnStart e "")) s := by
  induction shares generalizing s with
  | nil => exact ⟨hs, by rintro _ ⟨⟩; rfl⟩
  | cons share rest ih =>
    rw [NVMeoFReconciler.collect]
    refine wp_bind (wp_mono ?_ (keyOf_wp Listed.stable hs.inv hs share))
    rintro (e | key) u ⟨_, hu⟩
    · exact ⟨hu, fun l hl => by cases hl⟩
    refine wp_bind (wp_mono ?_ (ih hu))
    rintro (e | desired) u ⟨hu, hdesired⟩
    · exact ⟨hu, fun l hl => by cases hl⟩
    · refine ⟨hu, ?_⟩
      rintro _ ⟨⟩
      rw [List.map_cons, List.map_cons, hdesired desired rfl, List.map_cons]
      rfl

theorem renderTarget_wp (ht : t.1.protocol = .nvmeof) (hs : Busy nqnStart t s)
    (hheld : Held s t.1 t.2 o) :
    exporterWp nqnStart t (NVMeoFReconciler.renderTarget nqnStart t.1.node)
      (RenderPost nqnStart t o) s := by
  refine list_wp hs hheld fun seen u hu => ?_
  let shares := listOwnedExports seen.values t.1.node .nvmeof
  show exporterWp nqnStart t ((NVMeoFReconciler.collect nqnStart shares).bind _) _ u
  refine wp_bind (wp_mono ?_ (collectNvmeof_wp shares hu))
  rintro (e | desired) u ⟨hu, hdesired⟩
  · exact ⟨hu.toBusy, by rintro ⟨_, ⟨⟩⟩⟩
  refine apply_wp hu (fun e => ?_) (fun u hu => hu.renderPost) fun e u hu => ⟨hu, by rintro ⟨_, ⟨⟩⟩⟩
  have htoHost : t.1.toHost nqnStart =
      fun o => some (.nvmeof (NVMeoFReconciler.subsystem nqnStart o "")) := by
    funext o
    simp only [ExporterId.toHost, ht]
  rw [← mem_rendered, ht, htoHost, hdesired desired rfl, List.filterMap_eq_map']

/-! ### The finalizer -/

/-- An update of the finalizers is refused, or writes over the copy that is held, which is then
the last version there is. -/
theorem update_held {fins : List String} (hs : ∀ k, Chain s t.1 k) (hheld : Held s t.1 t.2 o)
    (hname : o.name = t.2) (hnew : NetworkExport)
    (hnew_eq : hnew = { o with metadata := { o.metadata with finalizers := fins } }) :
    (∃ e, Cluster.handle t (.updateExport hnew) s = (.error e, s)) ∨
      ((s.cache t.1).seen.lookup t.2 = some o ∧ (s.cache t.1).pending t.2 = [] ∧
        s.store.lookup t.2 = some o ∧
        Cluster.handle t (.updateExport hnew) s = (.ok (), { s with
          store := s.store.put t.2 hnew
          cache := fun y => (s.cache y).notify t.2 ((s.store.put t.2 hnew).lookup t.2) })) := by
  subst hnew_eq
  have hkey : Object.name { o with metadata := { o.metadata with finalizers := fins } } = t.2 :=
    hname
  simp only [Cluster.handle, hkey]
  obtain ⟨e, he⟩ | ⟨cur, hcur, hversion, hupdate⟩ :=
    s.store.update_cases { o with metadata := { o.metadata with finalizers := fins } }
  · exact .inl ⟨e, by rw [he, write_same]⟩
  · rw [hkey] at hcur
    obtain ⟨rfl, hseen, hpending⟩ := hheld.eq_current hs hcur hversion
    refine .inr ⟨hseen, hpending, hcur, ?_⟩
    rw [hupdate, hkey]
    simp only [if_true, write_put]

/-- Adding the finalizer: the exporter will be told of the new version. -/
theorem addFinalizer_wp (hs : Busy nqnStart t s) (hheld : Held s t.1 t.2 o) (hname : o.name = t.2)
    (howns : t.1.owns o = true) (hactive : o.metadata.terminating = false) :
    exporterWp nqnStart t (ask (.updateExport (o.addFinalizer networkExportFinalizer)))
      (ExporterPost nqnStart t) s := by
  intro u hu
  have hbusy := Busy.stable s u hs.inv hs (hu.1 hs.inv) hu.2
  have hheld := hu.2.held t.2 o (hs.inv.chain t.1) hheld
  have hfail : ∀ e, ExporterPost nqnStart t (.error e) u :=
    fun e => ⟨hbusy.processing, fun h => by cases h⟩
  obtain ⟨e, he⟩ | ⟨_, _, hcur, heq⟩ := update_held (hbusy.inv.chain t.1) hheld hname
    (o.addFinalizer networkExportFinalizer) rfl
  · rw [he]
    refine ⟨fun h => ⟨h, fun y _ => Keeps.refl y u⟩, hfail e, ?_⟩
    rintro _ ⟨msg, rfl⟩
    exact hfail _
  rw [heq]
  have hkeeps : ∀ y, Keeps nqnStart y u { u with
      store := u.store.put t.2 (o.addFinalizer networkExportFinalizer)
      cache := fun y => (u.cache y).notify t.2
        ((u.store.put t.2 (o.addFinalizer networkExportFinalizer)).lookup t.2) } := by
    intro y
    refine Keeps.write rfl hname ?_
    rintro ⟨cur, hcur', hyowns, _⟩
    rw [hcur] at hcur'
    obtain rfl := Option.some_inj.mp hcur'
    exact alive_put hyowns fun _ => by simp [Object.addFinalizer, Object.containsFinalizer]
  refine ⟨fun h => ⟨h.of_keeps hkeeps, fun y _ => hkeeps y⟩, ?_, ?_⟩
  · refine ⟨hbusy.processing, fun _ => ?_⟩
    obtain ⟨b, hrendered, hfollows⟩ := hbusy.inv.follows t.1
    refine ⟨b, (hkeeps t.1).rendered hrendered, ?_⟩
    refine ((hkeeps t.1).follows b _ (hbusy.inv.chain t.1) hfollows).mono fun k hk => ?_
    rw [hbusy.processing] at hk
    obtain rfl := Option.some_inj.mp hk
    -- the new version is on its way
    have halive :
        Alive t.1 ((u.store.put t.2 (o.addFinalizer networkExportFinalizer)).lookup t.2) :=
      alive_put howns fun h => by
        rw [show (o.addFinalizer networkExportFinalizer).metadata.terminating =
          false from hactive] at h
        cases h
    exact .inr (.inr (.inr ⟨_, by simp [Informer.notify], halive⟩))
  · rintro _ ⟨msg, rfl⟩
    exact hfail _

/-- Letting go: a table without the export has been applied. -/
theorem removeFinalizer_wp (hs : Applied nqnStart t o s) (hname : o.name = t.2)
    (howns : t.1.owns o = true) (hterminating : o.metadata.terminating = true)
    (hfin : o.containsFinalizer networkExportFinalizer = true) :
    exporterWp nqnStart t ((ask (.updateExport (o.removeFinalizer networkExportFinalizer))).bind
      fun r => .pure (Nfs.NFSReconciler.ignoreNotFound r)) (ExporterPost nqnStart t) s := by
  intro u hu
  obtain ⟨b, hlisted, hrendered⟩ := Applied.stable s u (by obtain ⟨_, h, _⟩ := hs; exact h.inv) hs
    (hu.1 (by obtain ⟨_, h, _⟩ := hs; exact h.inv)) hu.2
  have hdone : ∀ r, ExporterPost nqnStart t r u :=
    fun r => ⟨hlisted.processing, fun _ => ⟨b, hrendered, hlisted.follows⟩⟩
  obtain ⟨e, he⟩ | ⟨hseen, hpending, hcur, heq⟩ :=
    update_held (hlisted.inv.chain t.1) hlisted.held hname
    (o.removeFinalizer networkExportFinalizer) rfl
  · rw [he]
    refine ⟨fun h => ⟨h, fun y _ => Keeps.refl y u⟩, hdone _, ?_⟩
    rintro _ ⟨msg, rfl⟩
    exact hdone _
  rw [heq]
  have hb : b t.2 = some o := by
    refine hlisted.listed.resolve_right fun h => h.2 o hcur rfl
  have hwant : want nqnStart t.1 (some o) = none := by simp [want, hterminating]
  have hother : ∀ y, y ≠ t.1 → Keeps nqnStart y u { u with
      store := u.store.put t.2 (o.removeFinalizer networkExportFinalizer)
      cache := fun y => (u.cache y).notify t.2
        ((u.store.put t.2 (o.removeFinalizer networkExportFinalizer)).lookup t.2) } := by
    intro y hy
    refine Keeps.write rfl hname ?_
    rintro ⟨cur, hcur', hyowns, _⟩
    rw [hcur] at hcur'
    obtain rfl := Option.some_inj.mp hcur'
    refine absurd ?_ hy
    obtain ⟨node, protocol⟩ := y
    simp only [ExporterId.owns, Bool.and_eq_true, decide_eq_true_eq] at howns hyowns
    exact (ExporterId.mk.injEq ..).mpr ⟨hyowns.1.symm.trans howns.1, hyowns.2.symm.trans howns.2⟩
  have hfollows : Follows nqnStart { u with
      store := u.store.put t.2 (o.removeFinalizer networkExportFinalizer)
      cache := fun y => (u.cache y).notify t.2
        ((u.store.put t.2 (o.removeFinalizer networkExportFinalizer)).lookup t.2) } t.1 b none := by
    refine hlisted.follows.write ?_
    rw [Informer.versions, hseen, hpending, hb]
    intro l₁ v l₂ hsplit hv
    cases l₁ with
    | nil =>
      obtain ⟨rfl, _⟩ := List.cons.inj hsplit
      exact absurd ⟨o, rfl, howns, fun _ => hfin⟩ hv
    | cons w l₁ =>
      obtain ⟨rfl, hrest⟩ := List.cons.inj hsplit
      cases l₁ with
      | nil => exact ⟨by simpa using hwant, hwant⟩
      | cons w' l₁ => simp at hrest
  refine ⟨fun h => ⟨h.of_keeps_others hother ?_ ?_, hother⟩, ?_, ?_⟩
  · exact Chain.write (hlisted.inv.chain t.1) rfl hname
  · exact ⟨b, hrendered, hfollows.mono fun k hk => by cases hk⟩
  · exact ⟨hlisted.processing, fun _ => ⟨b, hrendered, hfollows⟩⟩
  · rintro _ ⟨msg, rfl⟩
    exact hdone _

/-! ### The whole request -/

/-- Reading the requested export. -/
theorem getExport_wp {k : Except Err NetworkExport → ExporterProgram α} {Q : α → Cluster → Prop}
    (hs : Inv nqnStart s) (hidle : s.processing t.1 = none)
    (hk : ∀ u, Busy nqnStart t u →
      exporterWp nqnStart t (k (match (u.cache t.1).seen.lookup t.2 with
      | none => .error (.notFound t.2)
      | some o => .ok o)) Q u) :
    exporterWp nqnStart t (.call (.getExport t.2) k) Q s := by
  intro u hu
  have hinv := hu.1 hs
  have hother : ∀ y, y ≠ t.1 → Keeps nqnStart y u (Cluster.handle t (.getExport t.2) u).2 :=
    fun y hy => Keeps.of_eq rfl rfl (by simp [Cluster.handle, hy]) rfl
      (by simp [Cluster.handle, hy])
  have hprocessing : (Cluster.handle t (.getExport t.2) u).2.processing t.1 = some t.2 := by
    simp [Cluster.handle]
  have hinv' : Inv nqnStart (Cluster.handle t (.getExport t.2) u).2 := by
    refine hinv.of_keeps_others hother (fun k => ?_) ?_
    · obtain ⟨hlast, hnamed, hwritten, hdistinct⟩ := hinv.chain t.1 k
      exact ⟨hlast, hnamed, hwritten, hdistinct⟩
    · obtain ⟨b, hrendered, hfollows⟩ := hinv.follows t.1
      refine ⟨b, hrendered, hfollows.closed, fun k => ?_⟩
      rw [hprocessing]
      by_cases hkey : k = t.2
      · exact .inl (by rw [hkey])
      rw [hu.2.processing, hidle] at hfollows
      obtain hk | hsame | hqueue | hpending := hfollows.attended k
      · cases hk
      · exact .inr (.inl hsame)
      · exact .inr (.inr (.inl (by simp [Cluster.handle, hqueue, hkey])))
      · exact .inr (.inr (.inr hpending))
  refine ⟨fun _ => ⟨hinv', hother⟩, ?_, fun r hr => hr.elim⟩
  exact hk _ ⟨hinv', hprocessing⟩

/-- A dead export has been settled before. -/
theorem Busy.dead_post (hs : Busy nqnStart t s)
    (hdead : ¬ Alive t.1 ((s.cache t.1).seen.lookup t.2)) :
    ExporterPost nqnStart t (.ok ()) s := by
  refine ⟨hs.processing, fun _ => ?_⟩
  obtain ⟨b, hrendered, hfollows⟩ := hs.inv.follows t.1
  refine ⟨b, hrendered, hfollows.mono fun k hk => ?_⟩
  rw [hs.processing] at hk
  obtain rfl := Option.some_inj.mp hk
  obtain ⟨_, hbase⟩ := hfollows.closed t.2 [] _ _ rfl hdead
  exact .inr (.inl (by rw [hbase, want_of_not_alive hdead]))

theorem reconcile_wp {ρ : Type} {render : ExporterProgram (Except Err ρ)}
    {markExported : NetworkExport → ρ → ExporterProgram Unit} (hs : Inv nqnStart s)
    (hidle : s.processing t.1 = none)
    (hrender : ∀ o s, Busy nqnStart t s → Held s t.1 t.2 o →
      exporterWp nqnStart t render (RenderPost nqnStart t o) s)
    (hmark : ∀ o e v s, Applied nqnStart t o s →
      exporterWp nqnStart t (markExported e v) (fun _ s => Applied nqnStart t o s) s) :
    exporterWp nqnStart t (reconcile t.1.node t.1.protocol render markExported t.2)
      (ExporterPost nqnStart t) s := by
  refine getExport_wp hs hidle fun u hu => ?_
  cases hseen : (u.cache t.1).seen.lookup t.2 with
  | none =>
    refine hu.dead_post ?_
    rintro ⟨o, ho, _⟩
    rw [hseen] at ho
    cases ho
  | some o =>
    have hname : o.name = t.2 := (hu.inv.chain t.1 t.2).named o (by simp [Informer.versions, hseen])
    have hheld : Held u t.1 t.2 o := .inl hseen
    have hdead : ¬ (t.1.owns o = true ∧ (o.metadata.terminating = true →
        o.containsFinalizer networkExportFinalizer = true)) →
          ExporterPost nqnStart t (.ok ()) u := by
      intro h
      refine hu.dead_post ?_
      rintro ⟨o', ho', halive⟩
      rw [hseen] at ho'
      obtain rfl := Option.some_inj.mp ho'
      exact h halive
    simp only [Program.bind_eq, Program.pure_eq, Program.pure_bind]
    by_cases hmine : o.spec.nodeName ≠ t.1.node ∨ o.spec.protocol ≠ t.1.protocol
    · rw [if_pos hmine]
      refine hdead fun h => ?_
      simp only [ExporterId.owns, Bool.and_eq_true, decide_eq_true_eq] at h
      exact hmine.elim (· h.1.1) (· h.1.2)
    have howns : t.1.owns o = true := by
      simpa [ExporterId.owns] using hmine
    rw [if_neg hmine]
    simp only [Program.pure_bind]
    by_cases hterminating : o.metadata.terminating = true
    · rw [if_pos hterminating]
      by_cases hfin : o.containsFinalizer networkExportFinalizer = true
      · rw [if_pos hfin]
        refine wp_bind (wp_mono ?_ (hrender o u hu hheld))
        rintro (e | v) u ⟨hu, happlied⟩
        · exact ⟨hu.processing, fun h => by cases h⟩
        · exact removeFinalizer_wp (happlied ⟨v, rfl⟩) hname howns hterminating hfin
      · rw [if_neg hfin]
        exact hdead fun h => hfin (h.2 hterminating)
    · rw [if_neg hterminating]
      by_cases hfin : o.containsFinalizer networkExportFinalizer = true
      · simp only [hfin, Bool.not_true, Bool.false_eq_true, if_false]
        refine wp_bind (wp_mono ?_ (hrender o u hu hheld))
        rintro (e | v) u ⟨hu, happlied⟩
        · refine wp_bind (wp_bind (wp_mono ?_ (updateStatus_wp Busy.stable hu.inv hu _ _ _ _ _)))
          rintro r u ⟨_, hu⟩
          exact ⟨hu.processing, fun h => by cases h⟩
        · refine wp_bind (wp_mono ?_ (hmark o o v u (happlied ⟨v, rfl⟩)))
          rintro _ u ⟨b, hlisted, hrendered⟩
          exact ⟨hlisted.processing, fun _ => ⟨b, hrendered, hlisted.follows⟩⟩
      · simp only [hfin, Bool.not_false, if_true]
        exact addFinalizer_wp hu hheld hname howns (by simpa using hterminating)

theorem Applied.updateStatus_wp (hs : Applied nqnStart t o s) (e : NetworkExport)
    (phase : NetworkExportPhase) (reason message nqn : String) :
    exporterWp nqnStart t (updateStatus e phase reason message nqn)
      (fun _ s => Applied nqnStart t o s) s := by
  have hinv : Inv nqnStart s := by
    obtain ⟨b, hlisted, _⟩ := hs
    exact hlisted.inv
  exact wp_mono (fun _ _ h => h.2) (Exporter.updateStatus_wp Applied.stable hinv hs _ _ _ _ _)

/-- A request of either protocol. -/
theorem requestProgram_wp (hs : Inv nqnStart s) (hidle : s.processing t.1 = none) :
    exporterWp nqnStart t (requestProgram nqnStart t) (ExporterPost nqnStart t) s := by
  unfold requestProgram
  cases ht : t.1.protocol with
  | nfs =>
    simp only [NFSReconciler.reconcile, ← ht]
    refine reconcile_wp hs hidle (fun o s hs hheld => renderExports_wp ht hs hheld) fun o
      e v s hs => ?_
    unfold NFSReconciler.markExported
    cases e.spec.nfs with
    | none => exact hs
    | some nfs =>
      simp only
      split_ifs
      · exact hs
      · exact wp_bind (wp_mono (fun _ _ h => h) (hs.updateStatus_wp _ _ _ _ _))
  | nvmeof =>
    simp only [NVMeoFReconciler.reconcile, ← ht]
    refine reconcile_wp hs hidle (fun o s hs hheld => renderTarget_wp ht hs hheld) fun o
      e v s hs => ?_
    exact wp_bind (wp_mono (fun _ _ h => h) (hs.updateStatus_wp _ _ _ _ _))

/-! ## Every run -/

theorem Inv.empty : Inv nqnStart Cluster.empty where
  chain x k := by
    constructor <;> simp [Cluster.empty, Informer.versions, Informer.synced, Store.empty]
    rfl
  follows x := by
    refine ⟨fun _ => none, fun e => by simp [Cluster.empty, want], fun k l₁ v l₂ heq _ => ?_,
      fun k => .inr (.inl rfl)⟩
    refine ⟨fun u hu => ?_, rfl⟩
    have hmem : u ∈ (Cluster.empty.cache x).versions k := by
      rw [heq]
      exact List.mem_append_left _ hu
    obtain rfl : u = none := List.mem_singleton.mp hmem
    rfl

/-- The return of a request concerns only its exporter. -/
theorem finish_keeps (r : Except Err Unit) (hx : x ≠ t.1) :
    Keeps nqnStart x s (Cluster.finish t r s) := by
  refine Keeps.of_eq rfl rfl ?_ rfl (by simp [Cluster.finish, hx])
  cases r <;> simp [Cluster.finish, hx]

/-- A request that failed is waiting again, and one that succeeded has nothing left to do. -/
theorem Inv.finish {r : Except Err Unit} (hs : Inv nqnStart s)
    (hpost : ExporterPost nqnStart t r s) :
    Inv nqnStart (Cluster.finish t r s) := by
  have hprocessing : (Cluster.finish t r s).processing t.1 = none := by simp [Cluster.finish]
  refine hs.of_keeps_others (fun y hy => finish_keeps r hy) (fun k => ?_) ?_
  · obtain ⟨hlast, hnamed, hwritten, hdistinct⟩ := hs.chain t.1 k
    exact ⟨hlast, hnamed, hwritten, hdistinct⟩
  · rw [hprocessing]
    cases r with
    | ok v =>
      obtain ⟨b, hrendered, hfollows⟩ := hpost.2 rfl
      exact ⟨b, hrendered, hfollows.closed, hfollows.attended⟩
    | error e =>
      obtain ⟨b, hrendered, hfollows⟩ := hs.follows t.1
      refine ⟨b, hrendered, hfollows.closed, fun k => ?_⟩
      have hqueue : (Cluster.finish t (.error e) s).queue t.1 =
          Cluster.enqueue (s.queue t.1) t.2 := by
        simp [Cluster.finish]
      rw [hqueue, mem_enqueue]
      obtain hk | hsame | hwaiting | hpending := hfollows.attended k
      · rw [hpost.1] at hk
        exact .inr (.inr (.inl (.inr (Option.some_inj.mp hk).symm)))
      · exact .inr (.inl hsame)
      · exact .inr (.inr (.inl (.inl hwaiting)))
      · exact .inr (.inr (.inr hpending))

/-- What happens by itself, when the requests are careful. -/
theorem happens_keeps (hs : Inv nqnStart s) (h : Happens Careful s s') (x : ExporterId) :
    Keeps nqnStart x s s' := by
  cases h with
  | request req hreq => exact request_keeps (hs.chain x) hreq
  | deliver y name =>
    by_cases hx : x = y
    · subst hx
      exact Keeps.deliver x s name
    · refine Keeps.of_eq (by simp [Cluster.deliver, hx]) rfl ?_ rfl rfl
      simp only [Cluster.deliver]
      split_ifs <;> simp [hx]
  | secrets secrets => exact Keeps.of_eq rfl rfl rfl rfl rfl

/-- The proof outline of the exporters. -/
def outline (nqnStart : String) (fleet : List ExporterId) :
    Outline (exporters nqnStart fleet Careful) fun _ _ _ => True where
  inv := Inv nqnStart
  rely := ExporterRely nqnStart
  guar := ExporterGuar nqnStart
  post := ExporterPost nqnStart
  refl t _ s _ := ⟨id, Keeps.refl t.1 s⟩
  trans _ _ _ _ _ h h' := ⟨fun hs => h'.1 (h.1 hs), h.2.trans h'.2⟩
  starts _ _ _ hs _ hstarts := requestProgram_wp hs hstarts.2
  call_inv _ _ _ _ hs _ _ _ hguar := (hguar hs).1
  call_rely := by
    intro c i t e hs htakes _ _ hguar j t' e' hj htakes' _
    refine ⟨fun _ => (hguar hs).1, (hguar hs).2 t'.1 ?_⟩
    rw [htakes.2, htakes'.2]
    exact hj
  finish_inv _ _ _ hs hpost := hs.finish hpost
  finish_rely := by
    intro i t a s hs htakes hpost j t' e' hj htakes'
    refine ⟨fun _ => hs.finish hpost, finish_keeps a ?_⟩
    rw [htakes.2, htakes'.2]
    exact hj
  env_inv _ _ hs h := hs.of_keeps (happens_keeps hs h)
  env_rely _ _ hs h t _ := ⟨fun hs => hs.of_keeps (happens_keeps hs h), happens_keeps hs h t.1⟩

/-- An exporter with nothing to do has applied what it sees. -/
theorem Inv.exact (hs : Inv nqnStart s) (hquiet : s.Quiet x) : s.Exact nqnStart x := by
  obtain ⟨hseen, hqueue, hidle⟩ := hquiet
  obtain ⟨b, hrendered, hfollows⟩ := hs.follows x
  rw [hidle] at hfollows
  have hwant : ∀ k, want nqnStart x (b k) = want nqnStart x (s.store.lookup k) := by
    intro k
    rw [← hseen k]
    obtain hk | hsame | hwaiting | ⟨v, hv, _⟩ := hfollows.attended k
    · cases hk
    · exact hsame
    · rw [hqueue] at hwaiting
      cases hwaiting
    · cases hcopy : (s.cache x).seen.lookup k with
      | none =>
        -- what the exporter sees is dead
        have hdead : ¬ Alive x ((s.cache x).seen.lookup k) := by
          rintro ⟨o, ho, _⟩
          rw [hcopy] at ho
          cases ho
        exact (hfollows.closed k [] _ _ rfl hdead).2
      | some o =>
        -- what the exporter sees is the last version, so none is on its way
        have hheld : Held s x k o := .inl hcopy
        have hcur : s.store.lookup k = some o := by rw [← hseen k, hcopy]
        rw [(hheld.eq_current (hs.chain x) hcur rfl).2.2] at hv
        cases hv
  intro e
  rw [hrendered e]
  simp only [hwant]
  constructor
  · rintro ⟨k, hk⟩
    cases ho : s.store.lookup k with
    | none => simp [want, ho] at hk
    | some o =>
      simp only [want, ho, Option.bind_some] at hk
      split_ifs at hk with howns
      exact ⟨k, o, ho, howns.1, howns.2, hk⟩
  · rintro ⟨k, o, ho, howns, hterminating, he⟩
    exact ⟨k, by simp [want, ho, howns, hterminating, he]⟩

end Request

/-- No export outlives its assignment: in every run in which the requests are careful, an exporter
that has nothing to do exports what is assigned to it. -/
theorem exports_follow_assignment (nqnStart : String) (fleet : List ExporterId) {c : ExporterConfig}
    (hc : Reach (exporters nqnStart fleet Careful) (fun _ _ _ => True) Cluster.empty c)
    (x : ExporterId)
    (hquiet : c.shared.Quiet x) : c.shared.Exact nqnStart x :=
  ((outline nqnStart fleet).holds_of_reach Inv.empty hc).inv.exact hquiet

/-! ## Two nodes -/

section Sample

variable {allowed : Cluster → ExportRequest → Prop}

instance (nqnStart : String) (fleet : List ExporterId) (t : ExporterId × String) (s : Cluster) :
    Decidable ((exporters nqnStart fleet allowed).starts t s) :=
  inferInstanceAs (Decidable (t.2 ∈ s.queue t.1 ∧ s.processing t.1 = none))

def nodeA : ExporterId := ⟨"node-a", .nfs⟩

def nodeB : ExporterId := ⟨"node-b", .nfs⟩

def sampleSpec (nodeName : String) : NetworkExportSpec where
  nodeName := nodeName
  protocol := .nfs
  path := "/tank/pvc-1"
  nfs := some ⟨[{ client := "10.0.0.9" }]⟩

abbrev ExporterMove := Move Cluster ExporterId (ExporterId × String)

/-- Every exporter gets to know the next version of the export. -/
def arrive : List ExporterMove := [.change (·.deliver nodeA "e1"), .change (·.deliver nodeB "e1")]

/-- An exporter processes a request of `n` calls. -/
def process (x : ExporterId) (n : Nat) : List ExporterMove :=
  .begin x (x, "e1") :: List.replicate n (.call x)

/-- The export is created, gets its finalizer and is exported. -/
def exportMoves : List ExporterMove :=
  [.change (·.request (.create "e1" (sampleSpec "node-a")))] ++ arrive ++
    process nodeA 2 ++ arrive ++
    process nodeA 4 ++ arrive ++ process nodeA 4

/-- Then it moves to the other node. -/
def moveMoves : List ExporterMove :=
  exportMoves ++ [.change (·.request (.update "e1" (sampleSpec "node-b")))] ++ arrive ++
    process nodeB 4 ++ arrive ++ process nodeB 4

def sampleRun (allowed : Cluster → ExportRequest → Prop) (moves : List ExporterMove) :
    ExporterConfig :=
  moves.foldl ((exporters "nqn" [nodeA, nodeB] allowed).make fun _ _ _ => True)
    ⟨Cluster.empty, fun _ => none⟩

theorem quiet_of_eq {s : Cluster} {x : ExporterId}
    (hkeys : (s.cache x).seen.keys = s.store.objects.keys)
    (hseen : ∀ k ∈ (s.cache x).seen.keys, (s.cache x).seen.lookup k = s.store.objects.lookup k)
    (hqueue : s.queue x = []) (hidle : s.processing x = none) : s.Quiet x :=
  ⟨FinMap.lookup_eq_of_keys hkeys hseen, hqueue, hidle⟩

theorem arrive_sound : ∀ m ∈ arrive, m.Sound (exporters "nqn" [nodeA, nodeB] allowed) := by
  simp only [arrive, List.forall_mem_cons]
  exact ⟨fun s => .deliver s nodeA "e1", fun s => .deliver s nodeB "e1", by simp⟩

theorem process_sound {x : ExporterId} (hx : x ∈ [nodeA, nodeB]) (n : Nat) :
    ∀ m ∈ process x n, m.Sound (exporters "nqn" [nodeA, nodeB] allowed) := by
  refine List.forall_mem_cons.mpr ⟨⟨hx, rfl⟩, fun m hm => ?_⟩
  rw [List.eq_of_mem_replicate hm]
  trivial

theorem exportMoves_sound (hcreate : ∀ s name spec, allowed s (.create name spec)) :
    ∀ m ∈ exportMoves, m.Sound (exporters "nqn" [nodeA, nodeB] allowed) := by
  have hA : ∀ n, ∀ m ∈ process nodeA n, m.Sound (exporters "nqn" [nodeA, nodeB] allowed) :=
    process_sound (by simp)
  simp only [exportMoves, List.forall_mem_append, List.forall_mem_singleton]
  refine ⟨⟨⟨⟨⟨⟨fun s => .request _ ?_, arrive_sound⟩, hA 2⟩, arrive_sound⟩, hA 4⟩,
    arrive_sound⟩, hA 4⟩
  exact hcreate _ _ _

theorem moveMoves_sound :
    ∀ m ∈ moveMoves, m.Sound (exporters "nqn" [nodeA, nodeB] fun _ _ => True) := by
  have hB : ∀ n, ∀ m ∈ process nodeB n, m.Sound (exporters "nqn" [nodeA, nodeB] fun _ _ => True) :=
    process_sound (by simp)
  simp only [moveMoves, List.forall_mem_append, List.forall_mem_singleton]
  refine ⟨⟨⟨⟨⟨exportMoves_sound fun _ _ _ => trivial, fun s => .request _ trivial⟩,
    arrive_sound⟩, hB 4⟩,
    arrive_sound⟩, hB 4⟩

end Sample

/-- An export that has got its finalizer is exported by its node, and only there. -/
theorem exports_follow_assignment_sample :
    (sampleRun Careful exportMoves).shared.Exact "nqn" nodeA ∧
      (sampleRun Careful exportMoves).shared.applied nodeA =
        [.nfs { path := "/tank/pvc-1", clients := [{ client := "10.0.0.9" }] }] := by
  refine ⟨exports_follow_assignment "nqn" [nodeA, nodeB] ?_ nodeA ?_, by decide +kernel⟩
  · exact Reach.start.play_begins exportMoves (exportMoves_sound fun _ _ _ => trivial)
      (by decide +kernel)
  · refine quiet_of_eq ?_ ?_ ?_ ?_ <;> decide +kernel

/-- When an export moves to another node, the node it leaves goes on exporting it. -/
theorem moved_export_stays : ¬ ∀ nqnStart fleet (c : ExporterConfig),
    Reach (exporters nqnStart fleet fun _ _ => True) (fun _ _ _ => True) Cluster.empty c →
    (∀ x ∈ fleet, c.shared.Quiet x) → ∀ x ∈ fleet, c.shared.Exact nqnStart x := by
  intro h
  have hreach :
      Reach (exporters "nqn" [nodeA, nodeB] fun _ _ => True) (fun _ _ _ => True) Cluster.empty
      (sampleRun (fun _ _ => True) moveMoves) :=
    Reach.start.play_begins moveMoves moveMoves_sound (by decide +kernel)
  have hquiet : ∀ x ∈ [nodeA, nodeB], (sampleRun (fun _ _ => True) moveMoves).shared.Quiet x := by
    simp only [List.forall_mem_cons]
    refine ⟨?_, ?_, by simp⟩ <;> refine quiet_of_eq ?_ ?_ ?_ ?_ <;> decide +kernel
  have hexact := h "nqn" [nodeA, nodeB] _ hreach hquiet nodeA (by simp)
  have happlied : HostExport.nfs { path := "/tank/pvc-1", clients := [{ client := "10.0.0.9" }] } ∈
      ((sampleRun (fun _ _ => True) moveMoves).shared.applied nodeA).map HostExport.withoutKey := by
    decide +kernel
  obtain ⟨name, o, ho, howns, _⟩ := (hexact _).mp happlied
  have hstored : (sampleRun (fun _ _ => True) moveMoves).shared.store.values.all
      (fun o => !nodeA.owns o) = true := by
    decide +kernel
  have hfalse := List.all_eq_true.mp hstored o (Store.mem_values.mpr ⟨name, ho⟩)
  rw [howns] at hfalse
  cases hfalse

end SimpleZfsCsi.Exporter
