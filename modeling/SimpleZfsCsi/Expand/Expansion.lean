import SimpleZfsCsi.Expand.Outline

/-!
# Expansion never shrinks a volume

From a provisioned volume at rest, whatever requests and passes run and however their calls are
interleaved, the limit in force never falls, and it is no less than any size that was granted. The
requests have to be ones that the volume can be grown by: the first request for a filesystem without
a quota gives it one.
-/

namespace SimpleZfsCsi.Expand

open Library Api Agent Memzfs Provision Csi Program Concurrent Text

/-- The volume `id` is provisioned as `full`, with the size that its spec asks for. -/
structure AtRest (id full : String) (w : World) (o : ZfsDataset) (D : Dataset) : Prop where
  found : w.datasets.lookup id = some o
  name : o.name = id
  version : o.metadata.resourceVersion ≤ w.datasets.revision
  alive : o.metadata.terminating = false
  finalizer : o.containsFinalizer zfsDatasetFinalizer = true
  provisioned : datasetProvisioned o = true
  observed : o.status.observedGeneration ≤ o.metadata.generation
  int64 : sizeOf o.spec < 2 ^ 63
  pool : ∀ pool full', w.pools.lookup (resourceName o.spec.poolGUID) = some pool →
    datasetName pool.status.poolName o.spec.dataset = .ok full' → full' = full
  plain : Plain full
  dataset : w.mem.ds.lookup full = some D
  kind : D.kind = kindOf o.spec.type
  quota : o.spec.type = .filesystem → datasetLimit D = want o.spec
  volsize : o.spec.type = .volume → (sizeOf o.spec : Int) ≤ D.volsize ∧ D.volsize < 2 ^ 63

/-- Nothing has been granted yet. -/
def start (w : World) (o : ZfsDataset) : Sizing := ⟨w, fun _ => sizeOf o.spec, []⟩

theorem AtRest.inv {id full : String} {w : World} {o : ZfsDataset} {D : Dataset}
    (h : AtRest id full w o D) :
    Inv id full o.spec (start w o) := by
  refine ⟨o, D, { h with
    grown := Grown.refl h.int64
    size := rfl
    rising := fun _ _ _ _ => le_rfl
    quota := fun htype => (h.quota htype).le
    ready := fun _ => ?_
    granted := by simp [start] }⟩
  cases htype : o.spec.type with
  | filesystem =>
    rw [h.quota htype]
    exact sizeOf_le_want o.spec
  | volume =>
    rw [datasetLimit_volume (h.kind.trans (by rw [htype]; rfl))]
    exact_mod_cast (h.volsize htype).1

/-! ## The proof outline -/

section Outline

variable (r : ZfsDatasetReconciler) (id full : String) (spec₀ : ZfsDatasetSpec)

/-- The agent is the one worker that takes up passes. -/
theorem takes_reconcile {i : Worker}
    (h : (expandSystem r id (Fits spec₀)).takes i .reconcile) : i = .agent :=
  h.mpr rfl

def rely : Task → AgentCall → Sizing → Sizing → Prop
  | .expand _ _ => requestRely id full spec₀
  | .reconcile => passRely id full spec₀

def guar : Task → AgentCall → Sizing → Sizing → Prop
  | .expand _ _ => requestGuar id full spec₀
  | .reconcile => passGuar id full spec₀

/-- A size that is granted is in force. -/
def post (_ : Task) (a : Option Int) (s : Sizing) : Prop :=
  ∀ q, a = some q → (q : WithTop Int) ≤ limit full s.world.mem

variable {id full spec₀}

theorem guar_inv {t : Task} {e : AgentCall} {s s' : Sizing} (h : guar id full spec₀ t e s s') :
    Inv id full spec₀ s' ∧ Grows id full s s' := by
  cases t with
  | expand => exact ⟨h.1, h.2.toGrows⟩
  | reconcile => exact h

/-- What one worker's calls guarantee is what the others rely on. -/
theorem guar_rely {i j : Worker} {t t' : Task} {e e' : AgentCall} {s s' : Sizing} (hne : j ≠ i)
    (ht : (expandSystem r id (Fits spec₀)).takes i t)
    (ht' : (expandSystem r id (Fits spec₀)).takes j t')
    (h : guar id full spec₀ t e s s') : rely id full spec₀ t' e' s s' := by
  cases t' with
  | expand => exact guar_inv h
  | reconcile =>
    cases t with
    | expand => exact h
    | reconcile =>
      exact absurd ((takes_reconcile r id spec₀ ht').trans (takes_reconcile r id spec₀ ht).symm) hne

theorem Inv.finish {s : Sizing} {a : Option Int} (hs : Inv id full spec₀ s)
    (ha : ∀ q, a = some q → (q : WithTop Int) ≤ limit full s.world.mem) :
    Inv id full spec₀ (Task.finish s a) := by
  obtain ⟨o, D, h⟩ := hs
  refine ⟨o, D, { h with granted := fun q hq => ?_ }⟩
  rcases List.mem_append.mp hq with hq | hq
  · rw [← h.limit_eq]
    exact ha q (Option.mem_toList.mp hq)
  · exact h.granted q hq

theorem leaves_finish (s : Sizing) (a : Option Int) : Leaves id full s (Task.finish s a) :=
  { Leaves.refl s with }

def outline (id full : String) (spec₀ : ZfsDatasetSpec) :
    Outline (expandSystem r id (Fits spec₀)) (fun _ _ _ => True) where
  inv := Inv id full spec₀
  rely := rely id full spec₀
  guar := guar id full spec₀
  post := post full
  refl t e s hs := by
    cases t with
    | expand => exact ⟨hs, Grows.refl s⟩
    | reconcile => exact ⟨hs, Leaves.refl s⟩
  trans t e s s' s'' h h' := by
    cases t with
    | expand => exact ⟨h'.1, h.2.trans h'.2⟩
    | reconcile => exact ⟨h'.1, h.2.trans h'.2⟩
  starts i t s hs _ hstarts := by
    cases t with
    | expand capacityRange rounds =>
      refine wp_bind (wp_mono ?_ (controllerExpandVolume_wp hstarts.1 hstarts.2 rounds s))
      rintro (status | a) t ha q hq
      · cases hq
      · obtain rfl := Option.some.inj hq
        exact ha a rfl
    | reconcile =>
      refine wp_bind (wp_mono ?_ (reconcile_wp r s))
      intro a t _ q hq
      cases hq
  call_inv c i t e hs _ _ _ h := (guar_inv h).1
  call_rely c i t e _ ht _ _ h j t' e' hne ht' _ := guar_rely r hne ht ht' h
  finish_inv t a s hs ha := hs.finish ha
  finish_rely i t a s hs _ ha j t' e' _ _ := by
    cases t' with
    | expand => exact ⟨hs.finish ha, (leaves_finish s a).toGrows⟩
    | reconcile => exact ⟨hs.finish ha, leaves_finish s a⟩
  env_inv s s' _ h := h.elim
  env_rely s s' _ h := h.elim

end Outline

end SimpleZfsCsi.Expand
