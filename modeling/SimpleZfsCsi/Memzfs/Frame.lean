import SimpleZfsCsi.Memzfs.Mem
import Mathlib.Tactic.SplitIfs

/-!
# What the operations leave alone

Whatever the names are, every operation creates, destroys or changes the properties of at
most one dataset, and a promote takes snapshots from one dataset only.
-/

namespace SimpleZfsCsi.Memzfs

open Library

/-- Every dataset is kept under its own name. -/
def Mem.Named (m : Mem) : Prop := ∀ n D, m.ds.lookup n = some D → D.name = n

/-- The name and the properties of the dataset at `n`, if there is one. -/
def Mem.face (m : Mem) (n : String) : Option (String × FinMap String String) :=
  (m.ds.lookup n).map fun D => (D.name, D.props)

/-- Every dataset but the one at `b` is there with its properties, or not there, as before. -/
def Mem.SameBut (b : String) (m m' : Mem) : Prop := ∀ n, n ≠ b → m'.face n = m.face n

namespace Mem

variable {m m' m'' : Mem} {b n name : String}

theorem SameBut.refl (b : String) (m : Mem) : SameBut b m m := fun _ _ => rfl

theorem SameBut.of_face (h : ∀ n, m'.face n = m.face n) : SameBut b m m' := fun n _ => h n

theorem isSome_face : (m.face n).isSome = (m.ds.lookup n).isSome := by simp [face]

theorem SameBut.isSome (h : SameBut b m m') (hn : n ≠ b) :
    (m'.ds.lookup n).isSome = (m.ds.lookup n).isSome := by
  rw [← isSome_face, h n hn, isSome_face]

theorem face_modify {f : Dataset → Dataset}
    (hf : ∀ D, ((f D).name, (f D).props) = (D.name, D.props))
    {ds : FinMap String Dataset} {txg : Nat} :
    face ⟨ds.modify b f, txg⟩ n = face ⟨ds, txg⟩ n := by
  simp only [face, FinMap.lookup_modify, Option.map_map]
  congr 1
  funext D
  by_cases h : n = b
  · simp [h, hf D]
  · simp [h]

theorem SameBut.modify {f : Dataset → Dataset} : SameBut b m { m with ds := m.ds.modify b f } := by
  intro n hn
  simp only [face, FinMap.lookup_modify, Option.map_map]
  congr 1
  funext D
  simp [hn]

/-- Names stay right when no name of a dataset changes. -/
theorem Named.of_face (h : m.Named) (hface : ∀ n, (m'.face n).map (·.1) = (m.face n).map (·.1)) :
    m'.Named := by
  intro n D' hD'
  have hn := hface n
  simp only [face, hD', Option.map_some] at hn
  cases hD : m.ds.lookup n with
  | none => simp [hD] at hn
  | some D =>
    have : D'.name = D.name := by simpa [hD] using hn
    rw [this, h n D hD]

theorem Named.modify {f : Dataset → Dataset} (h : m.Named) (hf : ∀ D, (f D).name = D.name) :
    Named { m with ds := m.ds.modify b f } := by
  refine h.of_face fun n => ?_
  simp only [face, FinMap.lookup_modify, Option.map_map]
  congr 1
  funext D
  by_cases hn : n = b <;> simp [hn, hf D]

theorem Named.insert {D : Dataset} (h : m.Named) (hD : D.name = b) :
    Named { m with ds := m.ds.insert b D } := by
  intro n D' hD'
  simp only [FinMap.lookup_insert] at hD'
  split_ifs at hD' with hn
  · rw [← Option.some_inj.mp hD', hD, hn]
  · exact h n D' hD'

/-! ## Creating -/

theorem create_sameBut (m : Mem) (name : String) (kind : DatasetKind) (size : Int)
    (props : FinMap String String) : SameBut name m (m.create name kind size props).2 := by
  unfold create
  split_ifs
  · exact SameBut.refl _ _
  · exact SameBut.refl _ _
  · intro n hn
    simp [face, hn]

theorem Named.create (h : m.Named) (name : String) (kind : DatasetKind) (size : Int)
    (props : FinMap String String) : (m.create name kind size props).2.Named := by
  unfold Mem.create
  split_ifs
  · exact h
  · exact h
  · exact h.insert rfl

theorem createZvol_sameBut (m : Mem) (name : String) (size : Int) (props : FinMap String String) :
    SameBut name m (m.createZvol name size props).2 := by
  unfold createZvol
  split_ifs
  · exact SameBut.refl _ _
  · exact create_sameBut _ _ _ _ _

theorem Named.createZvol (h : m.Named) (name : String) (size : Int) (props : FinMap String String) :
    (m.createZvol name size props).2.Named := by
  unfold Mem.createZvol
  split_ifs
  · exact h
  · exact h.create _ _ _ _

theorem face_addSnaps (txg t : Nat) (names : List String) (ds : FinMap String Dataset) :
    face ⟨names.foldl (addSnap txg) ds, t⟩ n = face ⟨ds, t⟩ n := by
  induction names generalizing ds with
  | nil => rfl
  | cons s names ih =>
    rw [List.foldl_cons, ih]
    exact face_modify fun _ => by rfl

theorem face_snapshot (m : Mem) (names : List String) (n : String) :
    (m.snapshot names).2.face n = m.face n := by
  unfold snapshot
  split_ifs
  · rfl
  split
  · rfl
  split
  · rfl
  simp only
  split_ifs
  · rfl
  · rfl
  · exact face_addSnaps _ _ _ _

theorem clone_sameBut (m : Mem) (snap dest : String) (props : FinMap String String) :
    SameBut dest m (m.clone snap dest props).2 := by
  unfold clone
  simp only
  split
  · exact SameBut.refl _ _
  split
  · exact SameBut.refl _ _
  rename_i src _
  split
  · exact SameBut.refl _ _
  split
  · exact SameBut.refl _ _
  have hcreate := create_sameBut m dest src.kind src.volsize props
  split
  case h_1 heq =>
    rwa [heq] at hcreate
  case h_2 heq =>
    rw [heq] at hcreate
    exact fun n hn => (SameBut.modify n hn).trans (hcreate n hn)

theorem Named.clone (h : m.Named) (snap dest : String) (props : FinMap String String) :
    (m.clone snap dest props).2.Named := by
  unfold Mem.clone
  simp only
  split
  · exact h
  split
  · exact h
  rename_i src _
  split
  · exact h
  split
  · exact h
  have hcreate := h.create dest src.kind src.volsize props
  split
  case h_1 heq =>
    rwa [heq] at hcreate
  case h_2 heq =>
    rw [heq] at hcreate
    exact hcreate.modify fun _ => rfl

/-! ## Promoting -/

theorem face_moveSnap (pn : String) (ds : FinMap String Dataset) (s : Snapshot) (t : Nat) :
    face ⟨moveSnap name pn ds s, t⟩ n = face ⟨ds, t⟩ n := by
  simp only [face, moveSnap, FinMap.lookup_map, FinMap.lookup_modify, Option.map_map]
  congr 1
  funext D
  simp only [Function.comp]
  split_ifs <;> rfl

theorem face_moveSnaps (pn : String) (moved : List Snapshot)
    (ds : FinMap String Dataset) (t : Nat) :
    face ⟨moved.foldl (moveSnap name pn) ds, t⟩ n = face ⟨ds, t⟩ n := by
  induction moved generalizing ds with
  | nil => rfl
  | cons s moved ih =>
    rw [List.foldl_cons, ih]
    exact face_moveSnap _ _ _ _

theorem face_promote (m : Mem) (name n : String) : (m.promote name).2.face n = m.face n := by
  unfold promote
  split
  · rfl
  split_ifs
  · rfl
  simp only
  split
  · split
    · rfl
    · exact (face_modify fun _ => by rfl).trans ((face_modify fun _ => by rfl).trans
        (face_moveSnaps _ _ _ _))
  · rfl

/-- A dataset other than the parent keeps its snapshots. -/
theorem moveSnap_keeps {pn x : String} (hn : n ≠ pn) (ds : FinMap String Dataset) (s : Snapshot)
    (t : Nat) (hx : (lookupSnap ⟨ds, t⟩ n x).isSome) :
    (lookupSnap ⟨moveSnap name pn ds s, t⟩ n x).isSome := by
  simp only [lookupSnap] at hx ⊢
  cases hD : ds.lookup n with
  | none => simp [hD] at hx
  | some D =>
    simp only [hD, Option.bind_some] at hx
    simp only [moveSnap, FinMap.lookup_map, FinMap.lookup_modify, hD, Option.map_some, if_neg hn,
      Option.bind_some]
    by_cases hname : n = name
    · simp only [hname, if_true]
      split_ifs <;> simp only [FinMap.lookup_insert] <;> split_ifs <;> simp [hx]
    · simp only [if_neg hname]
      split_ifs <;> exact hx

theorem promote_keeps {pn x : String}
    (hpn : ∀ D, m.ds.lookup name = some D → (split D.origin).1 = pn)
    (hn : n ≠ pn) (hx : (m.lookupSnap n x).isSome) :
    ((m.promote name).2.lookupSnap n x).isSome := by
  have hmoved : ∀ (moved : List Snapshot) ds, (lookupSnap ⟨ds, m.txg⟩ n x).isSome →
      (lookupSnap ⟨moved.foldl (moveSnap name pn) ds, m.txg⟩ n x).isSome := by
    intro moved
    induction moved with
    | nil => exact fun ds hds => hds
    | cons s moved ih => exact fun ds hds => ih _ (moveSnap_keeps hn ds s _ hds)
  have hmodify : ∀ ds c (f : Dataset → Dataset), (∀ D, (f D).snaps = D.snaps) →
      (lookupSnap ⟨ds, m.txg⟩ n x).isSome → (lookupSnap ⟨ds.modify c f, m.txg⟩ n x).isSome := by
    intro ds c f hf hds
    simp only [lookupSnap, FinMap.lookup_modify] at hds ⊢
    cases hD : ds.lookup n with
    | none => simp [hD] at hds
    | some D =>
      simp only [hD, Option.bind_some, Option.map_some] at hds ⊢
      split_ifs
      · rw [hf]
        exact hds
      · exact hds
  unfold promote
  split
  · exact hx
  case h_2 D hD =>
    split_ifs
    · exact hx
    obtain rfl := hpn D hD
    simp only
    split
    · split
      · exact hx
      · exact hmodify _ _ _ (fun _ => rfl) (hmodify _ _ _ (fun _ => rfl) (hmoved _ _ hx))
    · exact hx

/-! ## Destroying -/

theorem face_dropIfDone (m : Mem) (full n : String) : (m.dropIfDone full).face n = m.face n := by
  unfold dropIfDone
  simp only
  split_ifs
  · split
    · rfl
    · split_ifs
      · exact face_modify fun _ => by rfl
      · rfl
  · rfl

theorem face_dropAllDone (origins : List String) (m : Mem) (n : String) :
    (origins.foldl dropIfDone m).face n = m.face n := by
  induction origins generalizing m with
  | nil => rfl
  | cons o origins ih => rw [List.foldl_cons, ih, face_dropIfDone]

/-- A destroy takes datasets away or leaves them as they are, and only its own dataset when it
is not recursive. -/
theorem face_destroy (m : Mem) (name n : String) (recursive : Bool) :
    (m.destroy name recursive).2.face n = m.face n ∨
      ((recursive = false → n = name) ∧ (m.destroy name recursive).2.face n = none) := by
  unfold destroy
  simp only
  split
  · split
    · exact .inl rfl
    split
    · exact .inl rfl
    · exact .inl (face_modify fun _ => by rfl)
  split
  · exact .inl rfl
  split
  · exact .inl rfl
  split
  · exact .inl rfl
  rename_i hbusy _
  rw [face_dropAllDone]
  by_cases hn : n ∈ name :: m.children name
  · refine .inr ⟨fun hrec => ?_, by simp only [face, FinMap.lookup_filterKeys]; simp [hn]⟩
    subst hrec
    simp only [Bool.not_false, true_and, not_or, ne_eq, not_not] at hbusy
    simpa [hbusy.1] using hn
  · exact .inl (by simp only [face, FinMap.lookup_filterKeys]; simp [hn])

theorem destroy_sameBut (m : Mem) (name : String) : SameBut name m (m.destroy name false).2 :=
  fun n hn => (face_destroy m name n false).resolve_right fun h => hn (h.1 rfl)

theorem Named.destroy (h : m.Named) (name : String) (recursive : Bool) :
    (m.destroy name recursive).2.Named := by
  intro n D hD
  have hface : (m.destroy name recursive).2.face n = some (D.name, D.props) := by simp [face, hD]
  obtain heq | ⟨_, hnone⟩ := face_destroy m name n recursive
  · rw [heq] at hface
    obtain ⟨D₀, hD₀, heq₀⟩ := Option.map_eq_some_iff.mp hface
    rw [← (Prod.mk.inj heq₀).1, h n D₀ hD₀]
  · rw [hnone] at hface
    cases hface

theorem face_destroySnapshotDeferred (m : Mem) (name n : String) :
    (m.destroySnapshotDeferred name).2.face n = m.face n := by
  unfold destroySnapshotDeferred
  simp only
  split
  · rfl
  split
  · rfl
  · split <;> exact face_modify fun _ => by rfl

/-- Marking or destroying a snapshot leaves the origins alone. -/
theorem origin_destroySnapshotDeferred (m : Mem) (name n : String) :
    ((m.destroySnapshotDeferred name).2.ds.lookup n).map (·.origin) =
      (m.ds.lookup n).map (·.origin) := by
  have hmodify : ∀ c (f : Dataset → Dataset), (∀ D, (f D).origin = D.origin) →
      ((m.ds.modify c f).lookup n).map (·.origin) = (m.ds.lookup n).map (·.origin) := by
    intro c f hf
    simp only [FinMap.lookup_modify, Option.map_map]
    congr 1
    funext D
    simp only [Function.comp]
    split_ifs
    · exact hf D
    · rfl
  unfold destroySnapshotDeferred
  simp only
  split
  · rfl
  split
  · rfl
  · split <;> exact hmodify _ _ fun _ => by rfl

/-- A property can be read of whatever exists. -/
theorem get_error {name prop : String} {e : Err} (h : m.get name prop = .error e) :
    e.isNotExist = true := by
  simp only [get] at h
  split at h
  · cases h
    rfl
  · split at h
    · split at h <;> cases h
      rfl
    · cases h

/-- The clones of a snapshot have it as their origin. -/
theorem origin_of_mem_clones {snap c : String} {clones : List String}
    (h : m.clones snap = .ok clones) (hc : c ∈ clones) :
    (m.ds.lookup c).map (·.origin) = some snap := by
  unfold Mem.clones at h
  simp only at h
  split_ifs at h
  split at h
  · cases h
  · obtain rfl : m.clonesOf snap = clones := by simpa using h
    simp only [clonesOf, namesWhere, List.mem_filter] at hc
    cases hD : m.ds.lookup c with
    | none => simp [hD] at hc
    | some D => simpa [hD] using hc.2

/-! ## Properties -/

theorem setProperty_sameBut (m : Mem) (name prop value : String) :
    SameBut (split name).1 m (m.setProperty name prop value).2 := by
  unfold setProperty
  simp only
  split
  · exact SameBut.refl _ _
  split_ifs <;> first | exact SameBut.refl _ _ | exact SameBut.modify

theorem face_setProperty_snap (m : Mem) {name : String} (hsnap : (split name).2.2 = true)
    (prop value n : String) : (m.setProperty name prop value).2.face n = m.face n := by
  unfold setProperty
  simp only [hsnap, true_and, if_true]
  split
  · rfl
  split_ifs
  · rfl
  · rfl
  · rfl
  · exact face_modify fun _ => by rfl

theorem isSome_setProperty (m : Mem) (name prop value n : String) :
    ((m.setProperty name prop value).2.ds.lookup n).isSome = (m.ds.lookup n).isSome := by
  unfold setProperty
  simp only
  split
  · rfl
  split_ifs <;> simp

theorem Named.setProperty (h : m.Named) (name prop value : String) :
    (m.setProperty name prop value).2.Named := by
  unfold Mem.setProperty
  simp only
  split
  · exact h
  split_ifs <;> first | exact h | exact h.modify fun _ => rfl

end Mem

end SimpleZfsCsi.Memzfs
