import SimpleZfsCsi.Agent.Effects
import SimpleZfsCsi.Expand.Volume
import SimpleZfsCsi.Library.Decimal
import SimpleZfsCsi.Memzfs.Refinement
import Mathlib.Algebra.Order.Monoid.WithTop
import Mathlib.Order.WithBot

/-!
# A volume only grows

The limit in force on the pool is the quota of a filesystem or the size of a zvol. The agent's
passes come one after the other and the size in the spec only rises, so each pass asks for no less
than the one before. A size is granted once a pass that read it has ended.
-/

namespace SimpleZfsCsi.Expand

open Library Api Agent Memzfs Provision Csi Program Concurrent Text

/-! ## The limit -/

/-- What a value of `refquota` means. -/
def quotaLimit (text : String) : WithTop Int :=
  if normRefquota text = "none" then ⊤ else ((parseInt (trimSpace text)).1 : Int)

/-- The limit of a dataset. -/
def datasetLimit (D : Dataset) : WithTop Int :=
  match D.kind with
  | .filesystem => quotaLimit ((D.props.lookup "refquota").getD "-")
  | .volume => (D.volsize : Int)

/-- The limit in force; there is none where there is no dataset. -/
def limit (full : String) (m : Mem) : WithTop Int :=
  match m.ds.lookup full with
  | none => ⊤
  | some D => datasetLimit D

theorem datasetLimit_filesystem {D : Dataset} (hkind : D.kind = .filesystem) :
    datasetLimit D = quotaLimit ((D.props.lookup "refquota").getD "-") := by
  rw [datasetLimit, hkind]

theorem datasetLimit_volume {D : Dataset} (hkind : D.kind = .volume) : datasetLimit D =
    (D.volsize : WithTop Int) := by
  rw [datasetLimit, hkind]

theorem normRefquota_toString {n : Nat} (hn : n ≠ 0) : normRefquota (toString n) = toString n := by
  have hzero : toString n ≠ "0" := fun h => hn (eq_of_toString_eq (by decide) h)
  unfold normRefquota
  rw [trimSpace_toString]
  dsimp only
  rw [if_neg]
  rintro (h | h | h | h)
  · exact toString_ne (by decide) n h
  · exact toString_ne (by decide) n h
  · exact hzero h
  · exact toString_ne (by decide) n h

theorem quotaLimit_toString {n : Nat} (hn : n ≠ 0) (hlt : n < 2 ^ 63) : quotaLimit (toString n) =
    ((n : Int) : WithTop Int) := by
  rw [quotaLimit, normRefquota_toString hn, if_neg (toString_ne (by decide) n), trimSpace_toString,
    parseInt_toString hlt]

/-- A text that is equal to a number in the eyes of the agent means it. -/
theorem quotaLimit_of_equal {n : Nat} {text : String} (hn : n ≠ 0) (hlt : n < 2 ^ 63)
    (hequal : refquotaEqual text (toString n) = true) : quotaLimit text =
    ((n : Int) : WithTop Int) := by
  rw [refquotaEqual, decide_eq_true_eq, normRefquota_toString hn] at hequal
  have hnone : toString n ≠ "none" := toString_ne (by decide) n
  have htrim : trimSpace text = toString n := by
    unfold normRefquota at hequal
    dsimp only at hequal
    split_ifs at hequal
    · exact absurd hequal.symm hnone
    · exact hequal
  rw [quotaLimit, if_neg, htrim, parseInt_toString hlt]
  unfold normRefquota at hequal ⊢
  rw [hequal]
  exact hnone

/-! ## The size that a spec asks for -/

/-- The block of a zvol. -/
def blockOf (spec : ZfsDatasetSpec) : Int :=
  volblockBytes ((spec.volume.map (·.volblocksize)).getD "")

/-- The quota that a pass sets for a filesystem. -/
def want (spec : ZfsDatasetSpec) : WithTop Int :=
  if sizeOf spec = 0 then ⊤ else ((sizeOf spec : Nat) : Int)

/-- The requests that a volume can be grown by: none if it is a filesystem without a quota, and for
a zvol those that raise its size to no more than what a 64-bit integer holds once it is rounded
up to a block. -/
def Fits (spec₀ : ZfsDatasetSpec) (required : Int) : Prop :=
  match spec₀.type with
  | .filesystem => sizeOf spec₀ ≠ 0 ∨ required ≤ 0
  | .volume => required ≤ sizeOf spec₀ ∨ required ≤ alignUp required (blockOf spec₀)

/-- `spec` is `spec₀` after a number of requests. -/
structure Grown (spec₀ spec : ZfsDatasetSpec) : Prop where
  poolGUID : spec.poolGUID = spec₀.poolGUID
  dataset : spec.dataset = spec₀.dataset
  type : spec.type = spec₀.type
  volume : spec.volume.isSome = spec₀.volume.isSome
  block : blockOf spec = blockOf spec₀
  least : sizeOf spec₀ ≤ sizeOf spec
  unbounded : spec₀.type = .filesystem → sizeOf spec₀ = 0 → sizeOf spec = 0
  fits : spec₀.type = .volume → sizeOf spec ≤ sizeOf spec₀ ∨ (sizeOf spec : Int) ≤
    alignUp (sizeOf spec) (blockOf spec)
  int64 : sizeOf spec < 2 ^ 63

variable {spec₀ spec spec' : ZfsDatasetSpec} {required : Int}

theorem Grown.refl (hspec : sizeOf spec < 2 ^ 63) : Grown spec spec :=
  ⟨rfl, rfl, rfl, rfl, rfl, le_rfl, fun _ h => h, fun _ => .inl le_rfl, hspec⟩

theorem want_mono
    (hspec : sizeOf spec ≠ 0) (hle : sizeOf spec ≤ sizeOf spec') : want spec ≤ want spec' := by
  rw [want, want, if_neg hspec, if_neg (by omega)]
  exact_mod_cast hle

/-- What `bump` makes of a spec asks for the size of the request. -/
theorem bump_some (hspec : Grown spec₀ spec) (hpos : 0 < required) (hlt : required < 2 ^ 63)
    (hfits : Fits spec₀ required) (h : bump required spec = some spec') :
    Grown spec₀ spec' ∧ (sizeOf spec' : Int) = required ∧ sizeOf spec < sizeOf spec' := by
  unfold bump at h
  split at h
  case h_1 htype =>
    have htype₀ : spec₀.type = .filesystem := hspec.type ▸ htype
    have hbounded : sizeOf spec₀ ≠ 0 := by
      simp only [Fits, htype₀] at hfits
      omega
    dsimp only at h
    split at h
    · rename_i hquota
      obtain rfl := Option.some.inj h
      have hsize : sizeOf { spec with
          filesystem := some { spec.filesystem.getD {} with quota := some required.toNat } } =
          required.toNat := by
        simp [sizeOf, htype]
      have hless : (sizeOf spec : Int) < required := by
        cases hfs : spec.filesystem with
        | none => simpa [sizeOf, htype, hfs] using hpos
        | some fs =>
          cases hq : fs.quota with
          | none => simpa [sizeOf, htype, hfs, hq] using hpos
          | some q => simpa [sizeOf, htype, hfs, hq] using hquota
      have hleast := hspec.least
      refine ⟨⟨hspec.poolGUID, hspec.dataset, hspec.type, hspec.volume, hspec.block, ?_, ?_,
        ?_, ?_⟩, ?_, ?_⟩
      · rw [hsize]
        omega
      · exact fun _ h => absurd h hbounded
      · intro hvol
        rw [htype₀] at hvol
        cases hvol
      · rw [hsize]
        omega
      · rw [hsize]
        omega
      · rw [hsize]
        omega
    · cases h
  case h_2 htype =>
    have htype₀ : spec₀.type = .volume := hspec.type ▸ htype
    split at h
    case h_1 => cases h
    case h_2 v hv =>
      split at h
      · rename_i hless
        obtain rfl := Option.some.inj h
        have hsize : sizeOf { spec with volume := some { v with size := required.toNat } } =
          required.toNat := by
          simp [sizeOf, htype]
        have hold : sizeOf spec = v.size := by simp [sizeOf, htype, hv]
        have hblock : blockOf { spec with volume := some { v with size := required.toNat } } =
          blockOf spec := by
          simp [blockOf, hv]
        have hleast := hspec.least
        have hvalue : ((required.toNat : Nat) : Int) = required := by omega
        refine ⟨⟨hspec.poolGUID, hspec.dataset, hspec.type, ?_, hblock.trans hspec.block, ?_, ?_,
          ?_, ?_⟩, ?_, ?_⟩
        · rw [← hspec.volume, hv]
          rfl
        · rw [hsize]
          omega
        · intro hfs
          rw [htype₀] at hfs
          cases hfs
        · intro _
          rw [hsize, hblock, hvalue, hspec.block]
          simp only [Fits, htype₀] at hfits
          omega
        · rw [hsize]
          omega
        · rw [hsize]
          omega
        · rw [hsize]
          omega
      · cases h

/-- A spec that is left as it is asks for the size of the request already. -/
theorem bump_none (hvolume : spec.type = .volume → spec.volume.isSome = true)
    (h : bump required spec = none) :
    required ≤ sizeOf spec := by
  unfold bump at h
  cases htype : spec.type with
  | filesystem =>
    simp only [htype] at h
    split at h
    · cases h
    · rename_i hquota
      cases hfs : spec.filesystem with
      | none => simp [hfs] at hquota
      | some fs =>
        cases hq : fs.quota with
        | none => simp [hfs, hq] at hquota
        | some q => simpa [sizeOf, htype, hfs, hq] using hquota
  | volume =>
    obtain ⟨v, hv⟩ := Option.isSome_iff_exists.mp (hvolume htype)
    simp only [htype, hv] at h
    split at h
    · cases h
    · rename_i hless
      simpa [sizeOf, htype, hv] using hless

/-! ## The dataset of the volume -/

def kindOf : DatasetType → DatasetKind
  | .filesystem => .filesystem
  | .volume => .volume

section Pool

variable {m : Mem} {full : String} {D : Dataset}

theorem limit_of_lookup (hD : m.ds.lookup full = some D) : limit full m = datasetLimit D := by
  rw [limit, hD]

theorem get_of_lookup (hplain : Plain full) (hD : m.ds.lookup full = some D) (prop : String) :
    m.get full prop = .ok (m.getDataset full D prop) := by
  simp [Mem.get, split_plain hplain, hD]

theorem getDataset_refquota (m : Mem) (D : Dataset) :
    m.getDataset full D "refquota" = (D.props.lookup "refquota").getD "-" := by
  have huser : Mem.isUser "refquota" = false := by decide +kernel
  simp [Mem.getDataset, huser]

theorem getDataset_volsize (m : Mem) (hkind : D.kind = .volume) : m.getDataset full D "volsize" =
    toString D.volsize := by
  simp [Mem.getDataset, hkind]

theorem setProperty_refquota (hplain : Plain full) (hD : m.ds.lookup full = some D)
    (value : String) :
    (m.setProperty full "refquota" value).2.ds.lookup full =
      some { D with props := D.props.insert "refquota" value } := by
  simp [Mem.setProperty, split_plain hplain, hD]

theorem setProperty_volsize (hplain : Plain full) (hD : m.ds.lookup full = some D)
    {value : String} {n : Int}
    (hvalue : parseInt value = (n, true)) :
    (m.setProperty full "volsize" value).2.ds.lookup full =
      some { D with volsize := n, props := D.props.insert "volsize" value } := by
  simp [Mem.setProperty, split_plain hplain, hD, hvalue]

end Pool

/-- Rounding up stays within 64 bits, or wraps around. -/
theorem alignUp_lt {size block : Int} (hsize : size < 2 ^ 63) : alignUp size block < 2 ^ 63 := by
  unfold alignUp
  split_ifs
  · omega
  · exact hsize
  · exact Int.bmod_lt (by decide)
  · exact hsize

/-! ## The invariant -/

/-- What holds of the volume `id`, whose dataset is `full` and whose spec was `spec₀`. -/
structure Holds (id full : String) (spec₀ : ZfsDatasetSpec) (s : Sizing) (o : ZfsDataset)
    (D : Dataset) : Prop where
  found : s.world.datasets.lookup id = some o
  name : o.name = id
  version : o.metadata.resourceVersion ≤ s.world.datasets.revision
  alive : o.metadata.terminating = false
  finalizer : o.containsFinalizer zfsDatasetFinalizer = true
  provisioned : datasetProvisioned o = true
  grown : Grown spec₀ o.spec
  /-- the record of sizes is true, and they only rise -/
  size : s.sizes o.metadata.generation = sizeOf o.spec
  rising : ∀ g g', g ≤ g' → g' ≤ o.metadata.generation → s.sizes g ≤ s.sizes g'
  observed : o.status.observedGeneration ≤ o.metadata.generation
  pool : ∀ pool full', s.world.pools.lookup (resourceName spec₀.poolGUID) = some pool →
    datasetName pool.status.poolName spec₀.dataset = .ok full' → full' = full
  plain : Plain full
  dataset : s.world.mem.ds.lookup full = some D
  kind : D.kind = kindOf spec₀.type
  /-- a quota is never beyond the one that is asked for -/
  quota : spec₀.type = .filesystem → datasetLimit D ≤ want o.spec
  volsize : spec₀.type = .volume → (sizeOf spec₀ : Int) ≤ D.volsize ∧ D.volsize < 2 ^ 63
  ready : o.status.phase = some .ready →
    (((s.sizes o.status.observedGeneration : Nat) : Int) : WithTop Int) ≤ datasetLimit D
  granted : ∀ q ∈ s.granted, (q : WithTop Int) ≤ datasetLimit D

def Inv (id full : String) (spec₀ : ZfsDatasetSpec) (s : Sizing) : Prop :=
  ∃ o D, Holds id full spec₀ s o D

/-- What everyone's calls do: the volume grows. -/
structure Grows (id full : String) (s t : Sizing) : Prop where
  revision : s.world.datasets.revision ≤ t.world.datasets.revision
  pools : t.world.pools = s.world.pools
  limit : limit full s.world.mem ≤ limit full t.world.mem
  object : ∀ o, s.world.datasets.lookup id = some o → ∃ o', t.world.datasets.lookup id = some o' ∧
    (o' = o ∨ s.world.datasets.revision < o'.metadata.resourceVersion) ∧
    o.metadata.generation ≤ o'.metadata.generation ∧ sizeOf o.spec ≤ sizeOf o'.spec
  sizes : ∀ o, s.world.datasets.lookup id = some o →
    ∀ g ≤ o.metadata.generation, t.sizes g = s.sizes g

/-- What a request's calls do: the pool and the status stay as they are. -/
structure Leaves (id full : String) (s t : Sizing) : Prop extends Grows id full s t where
  mem : t.world.mem = s.world.mem
  status : ∀ o o', s.world.datasets.lookup id = some o → t.world.datasets.lookup id = some o' →
    o'.status = o.status

section Relations

variable {id full : String} {s t u : Sizing}

theorem Grows.refl (s : Sizing) : Grows id full s s :=
  ⟨le_rfl, rfl, le_rfl, fun o ho => ⟨o, ho, .inl rfl, le_rfl, le_rfl⟩, fun _ _ _ _ => rfl⟩

theorem Grows.trans (h : Grows id full s t) (h' : Grows id full t u) : Grows id full s u where
  revision := h.revision.trans h'.revision
  pools := h'.pools.trans h.pools
  limit := h.limit.trans h'.limit
  object o ho := by
    obtain ⟨o', ho', hsame, hgen, hsize⟩ := h.object o ho
    obtain ⟨o'', ho'', hsame', hgen', hsize'⟩ := h'.object o' ho'
    refine ⟨o'', ho'', ?_, hgen.trans hgen', hsize.trans hsize'⟩
    have hrev := h.revision
    grind
  sizes o ho g hg := by
    obtain ⟨o', ho', -, hgen, -⟩ := h.object o ho
    rw [h'.sizes o' ho' g (hg.trans hgen), h.sizes o ho g hg]

theorem Leaves.refl (s : Sizing) : Leaves id full s s :=
  ⟨Grows.refl s, rfl,
    fun o o' ho ho' => by rw [ho] at ho'; exact congrArg _ (Option.some.inj ho'.symm)⟩

theorem Leaves.trans (h : Leaves id full s t) (h' : Leaves id full t u) : Leaves id full s u where
  toGrows := h.toGrows.trans h'.toGrows
  mem := h'.mem.trans h.mem
  status o o'' ho ho'' := by
    obtain ⟨o', ho', -⟩ := h.object o ho
    exact (h'.status o' o'' ho' ho'').trans (h.status o o' ho ho')

end Relations

/-! ## What the calls do -/

section Calls

variable {id full : String} {s : Sizing} {o : ZfsDataset} {D : Dataset}

theorem note_of_lookup {w : World} {sizes : Nat → Nat} (h : w.datasets.lookup id = some o) :
    note id w sizes = Function.update sizes o.metadata.generation (sizeOf o.spec) := by
  rw [note, h]

/-- The size at the generation there is has been noted. -/
theorem note_eq {w : World} {sizes : Nat → Nat} (h : w.datasets.lookup id = some o)
    (hsize : sizes o.metadata.generation = sizeOf o.spec) : note id w sizes = sizes := by
  rw [note_of_lookup h, ← hsize, Function.update_eq_self]

/-- A call that only reads changes nothing. -/
theorem Inv.handle_reads (hs : Inv id full spec₀ s) {e : AgentCall} (he : e.Reads) :
    handle id e s = ((World.handle e s.world).1, s) := by
  obtain ⟨o, D, h⟩ := hs
  have hworld := World.handle_reads he s.world
  unfold handle
  dsimp only
  rw [hworld, note_eq h.found h.size]

theorem Holds.limit_eq (h : Holds id full spec₀ s o D) : limit full s.world.mem = datasetLimit D :=
  limit_of_lookup h.dataset

/-- What is asked for only rises. -/
theorem Holds.want_le (h : Holds id full spec₀ s o D) (hgrown : Grown spec₀ spec)
    (htype : spec₀.type = .filesystem)
    (hle : sizeOf spec ≤ sizeOf o.spec) : want spec ≤ want o.spec := by
  by_cases hzero : sizeOf spec = 0
  · have hzero₀ : sizeOf spec₀ = 0 := by
      have := hgrown.least
      omega
    rw [want, want, if_pos hzero, if_pos (h.grown.unbounded htype hzero₀)]
  · exact want_mono hzero hle

/-- The object after a request has raised its size. -/
def raised (o : ZfsDataset) (spec : ZfsDatasetSpec) (version : Nat) : ZfsDataset where
  metadata :=
    { o.metadata with generation := o.metadata.generation + 1, resourceVersion := version }
  spec := spec
  status := o.status

/-- A request raises the size of the volume that it has read. -/
theorem Holds.raise (h : Holds id full spec₀ s o D) (hgrown : Grown spec₀ spec)
    (hlt : sizeOf o.spec < sizeOf spec) :
    ∃ t, handle id (.updateDataset { o with spec }) s = (.ok (), t) ∧ Inv id full spec₀ t ∧
      Leaves id full s t ∧
      t.world.datasets.lookup id = some (raised o spec (s.world.datasets.revision + 1)) ∧
      t.sizes (o.metadata.generation + 1) = sizeOf spec := by
  have hne : o.spec ≠ spec := by
    rintro rfl
    omega
  have hname : ({ o with spec } : ZfsDataset).name = id := h.name
  let new := raised o spec (s.world.datasets.revision + 1)
  let store := s.world.datasets.put id (raised o spec o.metadata.resourceVersion)
  have hupdate : s.world.datasets.update { o with spec } = (.ok (), store) := by
    simp [Store.update, hname, h.found, hne, store, raised]
  have hlookup : store.lookup id = some new := by
    simp [store, Store.lookup_put_self, Object.released, raised, h.alive, new]
  have hnote : note id { s.world with datasets := store } s.sizes =
      Function.update s.sizes (o.metadata.generation + 1) (sizeOf spec) :=
        note_of_lookup (o := new) hlookup
  let t : Sizing := { s with
    world := { s.world with datasets := store }
    sizes := Function.update s.sizes (o.metadata.generation + 1) (sizeOf spec) }
  have hold : ∀ g ≤ o.metadata.generation, t.sizes g = s.sizes g := by
    intro g hg
    exact Function.update_of_ne (by omega) _ _
  have hnew : t.sizes (o.metadata.generation + 1) = sizeOf spec := Function.update_self ..
  refine ⟨t, ?_, ⟨new, D, ?_⟩, ?_, hlookup, hnew⟩
  · simp only [handle, World.handle, hupdate]
    rw [hnote]
  · refine { h with found := hlookup, version := le_rfl, grown := hgrown, size := hnew,
                    rising := ?_, observed := ?_, quota := ?_, ready := ?_ }
    · intro g g' hle hg'
      have hg' : g' ≤ o.metadata.generation + 1 := hg'
      rcases Nat.lt_or_ge o.metadata.generation g' with hlast | hbefore
      · obtain rfl : g' = o.metadata.generation + 1 := by omega
        rw [hnew]
        rcases Nat.lt_or_ge o.metadata.generation g with hg | hg
        · obtain rfl : g = o.metadata.generation + 1 := by omega
          exact hnew.le
        · rw [hold g hg]
          exact (h.rising g _ hg le_rfl).trans (h.size ▸ hlt.le)
      · rw [hold g (by omega), hold g' hbefore]
        exact h.rising g g' hle hbefore
    · exact h.observed.trans (Nat.le_succ _)
    · intro htype
      refine (h.quota htype).trans ?_
      by_cases hzero : sizeOf o.spec = 0
      · have hzero₀ : sizeOf spec₀ = 0 := by
          have := h.grown.least
          omega
        rw [hgrown.unbounded htype hzero₀] at hlt
        omega
      · exact want_mono hzero hlt.le
    · intro hready
      show (((t.sizes o.status.observedGeneration : Nat) : Int) : WithTop Int) ≤ _
      rw [hold _ h.observed]
      exact h.ready hready
  · refine ⟨⟨Nat.le_succ _, rfl, le_rfl, ?_, ?_⟩, rfl, ?_⟩
    · intro o' ho'
      obtain rfl : o = o' := Option.some.inj (h.found ▸ ho')
      exact ⟨new, hlookup, .inr (Nat.lt_succ_self _), Nat.le_succ _, hlt.le⟩
    · intro o' ho'
      obtain rfl : o = o' := Option.some.inj (h.found ▸ ho')
      exact hold
    · intro o' o'' ho' ho''
      obtain rfl : o = o' := Option.some.inj (h.found ▸ ho')
      obtain rfl : new = o'' := Option.some.inj (hlookup ▸ ho'')
      rfl

theorem merge_self (read patched : ZfsDatasetStatus) :
    ZfsDatasetStatus.merge read patched read = patched := by
  have hfield : ∀ {α : Type} [DecidableEq α] (a b : α), mergeField a b a = b := by
    intro α _ a b
    unfold mergeField
    split_ifs with hab <;> simp [hab]
  simp [ZfsDatasetStatus.merge, hfield]

/-- The object after its status has been written. -/
def reported (o : ZfsDataset) (status : ZfsDatasetStatus) (version : Nat) : ZfsDataset where
  metadata := { o.metadata with resourceVersion := version }
  spec := o.spec
  status := status

/-- The agent writes the status of the volume that it has read. -/
theorem Holds.report (h : Holds id full spec₀ s o D) (status : ZfsDatasetStatus)
    (hprov : status.provisionedAt.isSome = true)
    (hobserved : status.observedGeneration ≤ o.metadata.generation)
    (hready : status.phase = some .ready →
      (((s.sizes status.observedGeneration : Nat) : Int) : WithTop Int) ≤ limit full s.world.mem) :
    ∃ t, handle id (.patchDatasetStatus id o.status status) s = (.ok (), t) ∧
      Inv id full spec₀ t ∧ Grows id full s t := by
  let new := reported o status (s.world.datasets.revision + 1)
  let store := s.world.datasets.put id (reported o status o.metadata.resourceVersion)
  have hpatch : s.world.datasets.patchStatus ZfsDatasetStatus.merge id o.status status =
      (.ok (), store) := by
    simp [Store.patchStatus, h.found, merge_self, store, reported]
  have hlookup : store.lookup id = some new := by
    simp [store, Store.lookup_put_self, Object.released, reported, h.alive, new]
  have hnote : note id { s.world with datasets := store } s.sizes = s.sizes :=
    note_eq hlookup h.size
  let t : Sizing := { s with world := { s.world with datasets := store } }
  refine ⟨t, ?_, ⟨new, D, ?_⟩, ?_⟩
  · simp only [handle, World.handle, hpatch]
    rw [hnote]
  · refine { h with found := hlookup, version := le_rfl, provisioned := hprov,
                    observed := hobserved, ready := ?_ }
    rw [← h.limit_eq]
    exact hready
  · refine ⟨Nat.le_succ _, rfl, le_rfl, ?_, fun _ _ _ _ => rfl⟩
    intro o' ho'
    obtain rfl : o = o' := Option.some.inj (h.found ▸ ho')
    exact ⟨new, hlookup, .inr (Nat.lt_succ_self _), le_rfl, le_rfl⟩

/-- The agent sets a limit that is no less. -/
theorem Holds.resize (h : Holds id full spec₀ s o D) {prop value : String} {D' : Dataset}
    (hD' : (s.world.mem.setProperty full prop value).2.ds.lookup full = some D')
    (hkind : D'.kind = D.kind)
    (hlimit : datasetLimit D ≤ datasetLimit D')
    (hquota : spec₀.type = .filesystem → datasetLimit D' ≤ want o.spec)
    (hvolsize : spec₀.type = .volume → (sizeOf spec₀ : Int) ≤ D'.volsize ∧ D'.volsize < 2 ^ 63) :
    ∃ t, handle id (.setProperty full prop value) s =
      ((s.world.mem.setProperty full prop value).1, t) ∧
      Holds id full spec₀ t o D' ∧ Grows id full s t ∧ t.world.datasets = s.world.datasets ∧
        t.sizes = s.sizes := by
  let t : Sizing :=
    { s with world := { s.world with mem := (s.world.mem.setProperty full prop value).2 } }
  have hgrows : limit full s.world.mem ≤ limit full t.world.mem := by
    rw [h.limit_eq, limit_of_lookup hD']
    exact hlimit
  refine ⟨t, ?_, ?_, ?_, rfl, rfl⟩
  · simp only [handle, World.handle]
    rw [note_eq (w := t.world) h.found h.size]
  · exact { h with dataset := hD', kind := hkind.trans h.kind, quota := hquota, volsize := hvolsize,
                   ready := fun hready => (h.ready hready).trans hlimit,
                   granted := fun q hq => (h.granted q hq).trans hlimit }
  · exact ⟨le_rfl, rfl, hgrows, fun o ho => ⟨o, ho, .inl rfl, le_rfl, le_rfl⟩, fun _ _ _ _ => rfl⟩

end Calls

end SimpleZfsCsi.Expand
