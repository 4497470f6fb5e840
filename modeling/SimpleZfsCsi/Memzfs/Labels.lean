import SimpleZfsCsi.Memzfs.Invariant

/-!
# User properties of an object

A user property of a dataset or a snapshot is its own, or the one of the nearest ancestor that has
it. A property of its own stays with the object: a promote takes it along with the snapshot, and a
change of another object does not reach it.
-/

namespace SimpleZfsCsi.Memzfs

open Library

namespace Mem

/-- The value that a dataset or a snapshot has of its own. -/
def localValue (m : Mem) (name prop : String) : Option String :=
  let (dn, sn, isSnap) := split name
  if isSnap then (m.lookupSnap dn sn).bind (·.props.lookup prop) else
    (m.ds.lookup dn).bind (·.props.lookup prop)

variable {m : Mem} {name other prop prop' value : String}

theorem localValue_plain (hname : Plain name) :
    m.localValue name prop = (m.ds.lookup name).bind (·.props.lookup prop) := by
  simp [localValue, split_plain hname]

theorem localValue_snap {d n : String} (hd : Plain d) :
    m.localValue (snapPath d n) prop = (m.lookupSnap d n).bind (·.props.lookup prop) := by
  simp [localValue, split_snapPath hd]

theorem ne_of_isUser {reserved : String} (huser : isUser prop = true)
    (hreserved : isUser reserved = false) :
    prop ≠ reserved := by
  rintro rfl
  rw [hreserved] at huser
  cases huser

/-- What a dataset or a snapshot answers for a user property. -/
theorem get_user (huser : isUser prop = true) : m.get name prop =
    match m.ds.lookup (split name).1 with
    | none => .error (.notExist name)
    | some d =>
      if (split name).2.2 then
        match d.snaps.lookup (split name).2.1 with
        | none => .error (.notExist name)
        | some s =>
          .ok ((s.props.lookup prop).getD
          (m.inherited prop ((split name).1.length + 1) (split name).1))
      else .ok (m.inherited prop ((split name).1.length + 1) (split name).1) := by
  have htype : prop ≠ "type" := ne_of_isUser huser (by decide +kernel)
  have hclones : prop ≠ "clones" := ne_of_isUser huser (by decide +kernel)
  have hdefer : prop ≠ "defer_destroy" := ne_of_isUser huser (by decide +kernel)
  have htxg : prop ≠ "createtxg" := ne_of_isUser huser (by decide +kernel)
  have horigin : prop ≠ "origin" := ne_of_isUser huser (by decide +kernel)
  have hvolsize : prop ≠ "volsize" := ne_of_isUser huser (by decide +kernel)
  have hdataset (d : Dataset) : m.getDataset (split name).1 d prop =
      m.inherited prop ((split name).1.length + 1) (split name).1 := by
    simp only [getDataset, htype, hclones, hdefer, horigin, hvolsize, huser, if_true, if_false,
      or_self]
  cases hd : m.ds.lookup (split name).1 with
  | none => simp only [get, hd]
  | some d =>
    cases hs : d.snaps.lookup (split name).2.1 with
    | none => simp only [get, hd, hs, hdataset]
    | some s =>
      simp only [get, getSnap, hd, hs, hdataset, htype, hclones, hdefer, htxg, horigin, huser,
        if_true, if_false]

theorem get_snap {d n : String} (hd : Plain d) (huser : isUser prop = true) :
    m.get (snapPath d n) prop =
    match m.lookupSnap d n with
    | none => .error (.notExist (snapPath d n))
    | some s => .ok ((s.props.lookup prop).getD (m.inherited prop (d.length + 1) d)) := by
  rw [get_user huser, split_snapPath hd, lookupSnap]
  cases m.ds.lookup d <;> rfl

theorem get_plain (hname : Plain name) (huser : isUser prop = true) : m.get name prop =
    match m.ds.lookup name with
    | none => .error (.notExist name)
    | some _ => .ok (m.inherited prop (name.length + 1) name) := by
  rw [get_user huser, split_plain hname]
  cases m.ds.lookup name <;> rfl

/-- Whether a user property can be read is a matter of the object. -/
theorem get_ok_of_user {got : String} (huser : isUser prop = true) (huser' : isUser prop' = true)
    (h : m.get name prop = .ok got) : ∃ got', m.get name prop' = .ok got' := by
  rcases split_cases name with ⟨d, n, hd, rfl, -⟩ | ⟨hname, -⟩
  · rw [get_snap hd huser] at h
    rw [get_snap hd huser']
    cases hσ : m.lookupSnap d n with
    | none => simp [hσ] at h
    | some σ => exact ⟨_, rfl⟩
  · rw [get_plain hname huser] at h
    rw [get_plain hname huser']
    cases hD : m.ds.lookup name with
    | none => simp [hD] at h
    | some D => exact ⟨_, rfl⟩

theorem inherited_local (hname : name ≠ "") (fuel : Nat)
    (h : (m.ds.lookup name).bind (·.props.lookup prop) = some value) :
    m.inherited prop (fuel + 1) name = value := by
  simp [inherited, hname, h]

/-- A user property of its own is what an object answers. -/
theorem get_of_localValue (hroot : m.ds.lookup "" = none) (huser : isUser prop = true)
    (h : m.localValue name prop = some value) : m.get name prop = .ok value := by
  rw [get_user huser]
  unfold localValue at h
  cases hd : m.ds.lookup (split name).1 with
  | none => simp [hd, lookupSnap] at h
  | some d =>
    cases hsnap : (split name).2.2 with
    | true =>
      cases hs : d.snaps.lookup (split name).2.1 with
      | none => simp [hd, hs, hsnap, lookupSnap] at h
      | some s =>
        have hvalue : s.props.lookup prop = some value := by
          simpa [hd, hs, hsnap, lookupSnap] using h
        simp [hs, hvalue]
    | false =>
      have hne : (split name).1 ≠ "" := by
        intro hempty
        rw [hempty, hroot] at hd
        cases hd
      have hvalue : (m.ds.lookup (split name).1).bind (·.props.lookup prop) = some value := by
        simpa [hsnap] using h
      simp [inherited_local hne _ hvalue]

theorem inherited_congr {m' : Mem}
    (h : ∀ e, (m'.ds.lookup e).bind (·.props.lookup prop) =
      (m.ds.lookup e).bind (·.props.lookup prop)) (fuel : Nat)
    (name : String) : m'.inherited prop fuel name = m.inherited prop fuel name := by
  induction fuel generalizing name with
  | zero => rfl
  | succ fuel ih => simp only [inherited, h, ih]

/-! ## A property is set -/

/-- The property of one object is another one, and nothing else of the properties is. -/
structure SetTo (m m' : Mem) (name prop value : String) : Prop where
  ds : ∀ e, (m'.ds.lookup e).isSome = (m.ds.lookup e).isSome
  snaps : ∀ d n, (m'.lookupSnap d n).isSome = (m.lookupSnap d n).isSome
  values : ∀ e q, m'.localValue e q = if e = name ∧ q = prop then some value else m.localValue e q

theorem setTo_dataset {d : Dataset} {volsize : Dataset → Int} (hname : Plain name)
    (hd : m.ds.lookup name = some d) :
    SetTo m { m with ds := m.ds.modify name fun d => { d with
      volsize := volsize d
      props := d.props.insert prop value } } name prop value where
  ds e := by simp
  snaps e n := by
    simp only [lookupSnap, FinMap.lookup_modify]
    cases m.ds.lookup e with
    | none => rfl
    | some E =>
      simp only [Option.map_some, Option.bind_some]
      split_ifs <;> rfl
  values e q := by
    rcases split_cases e with ⟨x, n, hx, rfl, -⟩ | ⟨he, -⟩
    · have hne : snapPath x n ≠ name := by
        rintro rfl
        exact hname (by simp [snapPath])
      rw [localValue_snap hx, localValue_snap hx, if_neg (fun h => hne h.1)]
      simp only [lookupSnap, FinMap.lookup_modify]
      cases m.ds.lookup x with
      | none => rfl
      | some E =>
        simp only [Option.map_some, Option.bind_some]
        split_ifs <;> rfl
    · rw [localValue_plain he, localValue_plain he, FinMap.lookup_modify]
      by_cases hen : e = name
      · subst hen
        simp only [hd, Option.map_some, if_true, Option.bind_some, true_and, FinMap.lookup_insert]
      · cases m.ds.lookup e <;> simp [hen]

theorem setTo_snap {d n : String} {σ : Snapshot} (hd : Plain d) (hσ : m.lookupSnap d n = some σ) :
    SetTo m { m with ds := m.ds.modify d fun D => { D with
      snaps := D.snaps.modify n fun s => { s with props := s.props.insert prop value } } }
        (snapPath d n) prop value := by
  have hlookup : ∀ e k, Mem.lookupSnap { m with ds := m.ds.modify d fun D => { D with
      snaps := D.snaps.modify n fun s => { s with props := s.props.insert prop value } } } e k =
      (m.lookupSnap e k).map fun s =>
        if e = d ∧ k = n then { s with props := s.props.insert prop value } else s := by
    intro e k
    simp only [lookupSnap, FinMap.lookup_modify]
    by_cases hed : e = d
    · subst hed
      cases m.ds.lookup e <;> simp
    · cases m.ds.lookup e <;> simp [hed]
  refine ⟨fun e => by simp, fun e k => by rw [hlookup, Option.isSome_map], fun e q => ?_⟩
  rcases split_cases e with ⟨x, k, hx, rfl, -⟩ | ⟨he, -⟩
  · rw [localValue_snap hx, localValue_snap hx, hlookup]
    by_cases hsame : x = d ∧ k = n
    · obtain ⟨rfl, rfl⟩ := hsame
      simp [hσ]
    · have hne : snapPath x k ≠ snapPath d n := fun heq => hsame (snapPath_inj hx hd heq)
      simp [hsame, hne]
  · have hne : e ≠ snapPath d n := by
      rintro rfl
      exact he (by simp [snapPath])
    rw [localValue_plain he, localValue_plain he, if_neg fun h => hne h.1, FinMap.lookup_modify]
    cases m.ds.lookup e with
    | none => rfl
    | some E =>
      simp only [Option.map_some, Option.bind_some]
      split_ifs <;> rfl

/-- Setting a property fails, or sets it. -/
theorem setProperty_cases (m : Mem) (name prop value : String) :
    (∃ err, m.setProperty name prop value = (.error err, m)) ∨
      ((m.setProperty name prop value).1 = .ok () ∧
        SetTo m (m.setProperty name prop value).2 name prop value) := by
  unfold setProperty
  rcases split_cases name with ⟨d, n, hd, rfl, hsplit⟩ | ⟨hname, hsplit⟩
  · simp only [hsplit]
    cases hD : m.ds.lookup d with
    | none => exact .inl ⟨_, rfl⟩
    | some D =>
      simp only [true_and, if_true]
      split_ifs with hsnap
      · exact .inl ⟨_, rfl⟩
      · exact .inl ⟨_, rfl⟩
      · exact .inl ⟨_, rfl⟩
      · obtain ⟨σ, hσ⟩ : ∃ σ, D.snaps.lookup n = some σ := by
          rwa [Option.isNone_iff_eq_none, ← ne_eq, Option.ne_none_iff_exists'] at hsnap
        exact .inr ⟨rfl, setTo_snap hd (by simpa [lookupSnap, hD] using hσ)⟩
  · simp only [hsplit]
    cases hD : m.ds.lookup name with
    | none => exact .inl ⟨_, rfl⟩
    | some D =>
      simp only [Bool.false_eq_true, false_and, if_false]
      split_ifs
      · exact .inl ⟨_, rfl⟩
      · exact .inl ⟨_, rfl⟩
      · exact .inr ⟨rfl, setTo_dataset hname hD⟩
      · exact .inr ⟨rfl, setTo_dataset hname hD⟩

/-- A user property of what exists can be set. -/
theorem setProperty_ok {got : String} (huser : isUser prop = true)
    (hget : m.get name prop = .ok got) (value : String) :
    (m.setProperty name prop value).1 = .ok () := by
  have hreserved : prop ∉ ["origin", "clones", "type", "defer_destroy", "createtxg"] := by
    intro hmem
    have hnone : ∀ reserved ∈ ["origin", "clones", "type", "defer_destroy", "createtxg"],
        isUser reserved = false := by
      decide +kernel
    rw [hnone prop hmem] at huser
    cases huser
  have hvolsize : prop ≠ "volsize" := ne_of_isUser huser (by decide +kernel)
  rw [get_user huser] at hget
  unfold setProperty
  simp only [hreserved, if_false, huser, Bool.not_true, Bool.false_eq_true, hvolsize, false_and]
  revert hget
  cases m.ds.lookup (split name).1 with
  | none => simp
  | some d =>
    by_cases hsnap : (split name).2.2 = true
    · cases hs : d.snaps.lookup (split name).2.1 <;> simp [hsnap, hs]
    · simp [hsnap]

theorem SetTo.get_other {m' : Mem} (h : SetTo m m' name prop value) (hne : prop' ≠ prop)
    (huser : isUser prop' = true)
    (hplain : ∀ e, (m.ds.lookup e).isSome → Plain e) : m'.get other prop' = m.get other prop' := by
  have hvalues : ∀ e, m'.localValue e prop' = m.localValue e prop' := fun e => by
    rw [h.values, if_neg fun h => hne h.2]
  have hds : ∀ e, (m'.ds.lookup e).bind (·.props.lookup prop') =
      (m.ds.lookup e).bind (·.props.lookup prop') := by
    intro e
    by_cases he : Plain e
    · rw [← localValue_plain he, ← localValue_plain he, hvalues]
    · have hnone : m.ds.lookup e = none := by
        by_contra hsome
        exact he (hplain e (Option.isSome_iff_ne_none.mpr hsome))
      have hnone' : m'.ds.lookup e = none := by
        have := h.ds e
        rw [hnone] at this
        simpa using this
      rw [hnone, hnone']
  have hinherited := inherited_congr hds
  rcases split_cases other with ⟨d, n, hd, rfl, -⟩ | ⟨hother, -⟩
  · have hvalue := hvalues (snapPath d n)
    rw [localValue_snap hd, localValue_snap hd] at hvalue
    have hsome := h.snaps d n
    rw [get_snap hd huser, get_snap hd huser]
    cases hσ : m.lookupSnap d n with
    | none => simp_all
    | some σ =>
      obtain ⟨τ, hτ⟩ := Option.isSome_iff_exists.mp (hsome.trans (by rw [hσ]; rfl))
      rw [hσ, hτ, Option.bind_some, Option.bind_some] at hvalue
      simp only [hτ, hvalue, hinherited]
  · have hsome := h.ds other
    rw [get_plain hother huser, get_plain hother huser]
    cases hD : m.ds.lookup other with
    | none => simp_all
    | some D =>
      obtain ⟨D', hD'⟩ := Option.isSome_iff_exists.mp (hsome.trans (by rw [hD]; rfl))
      simp only [hD', hinherited]

/-! ## An object is followed -/

/-- Where a name leads after the promote of `c`: a snapshot that is handed over is found at `c`. -/
def placeAfter (m : Mem) (c name : String) : String :=
  let (dn, sn, isSnap) := split name
  match m.ds.lookup c with
  | none => name
  | some C =>
    let (pn, osn, _) := split C.origin
    match m.lookupSnap dn sn, m.lookupSnap pn osn, (m.promote c).1 with
    | some s, some o, .ok () =>
      if isSnap ∧ C.origin ≠ "" ∧ dn = pn ∧ s.txg ≤ o.txg then snapPath c sn else name
    | _, _, _ => name

end Mem

/-- The state and the name of an object, after promotes and changes of the properties of others. -/
inductive Later (m : Mem) (name : String) : Mem → String → Prop where
  | refl : Later m name m name
  | promote {m' : Mem} {name' : String} (h : Later m name m' name') (c : String) :
      Later m name (m'.promote c).2 (m'.placeAfter c name')
  | set {m' : Mem} {name' : String} (h : Later m name m' name') {other : String}
    (hother : other ≠ name')
      (prop value : String) : Later m name (m'.setProperty other prop value).2 name'

/-- A sound state, and no dataset without a name. -/
structure Proper (m : Mem) : Prop where
  sound : Sound m []
  root : m.ds.lookup "" = none

section Later

variable {m m' : Mem} {name name' prop value : String}

theorem Proper.setProperty (h : Proper m) (name prop value : String) :
    Proper (m.setProperty name prop value).2 where
  sound := h.sound.setProperty name prop value
  root := by
    have hsome := Mem.isSome_setProperty m name prop value ""
    rw [h.root] at hsome
    simpa using hsome

theorem Proper.promote (h : Proper m) (c : String) : Proper (m.promote c).2 where
  sound := h.sound.promote c
  root := by
    have hface := Mem.face_promote m c ""
    simpa [Mem.face, h.root] using hface

theorem placeAfter_snapPath {d n : String} (hd : Plain d) {σ : Snapshot}
    (hσ : m.lookupSnap d n = some σ) (c : String) :
    m.placeAfter c (snapPath d n) = match m.ds.lookup c with
      | none => snapPath d n
      | some C => match m.lookupSnap (split C.origin).1 (split C.origin).2.1, (m.promote c).1 with
        | some o, .ok () => if C.origin ≠ "" ∧ d = (split C.origin).1 ∧ σ.txg ≤ o.txg then
          snapPath c n else snapPath d n
        | _, _ => snapPath d n := by
  simp only [Mem.placeAfter, split_snapPath hd, hσ, true_and]
  cases m.ds.lookup c with
  | none => rfl
  | some C =>
    dsimp only
    cases m.lookupSnap (split C.origin).1 (split C.origin).2.1 <;> cases (m.promote c).1 <;> rfl

/-- The snapshot that a name leads to is found where the name leads after a promote. -/
theorem Sound.lookupSnap_placeAfter (h : Sound m []) (c : String) {d n : String} {σ : Snapshot}
    (hσ : m.lookupSnap d n = some σ) :
    ∃ d', m.placeAfter c (snapPath d n) = snapPath d' n ∧ Plain d' ∧
      (m.promote c).2.lookupSnap d' n = some σ := by
  have hd := h.plain_of_snap hσ
  rw [placeAfter_snapPath hd hσ]
  cases hC : m.ds.lookup c with
  | none => exact ⟨d, rfl, hd, by simpa [Mem.promote, hC] using hσ⟩
  | some C =>
    by_cases horigin : C.origin = ""
    · refine ⟨d, ?_, hd, by simpa [Mem.promote, hC, horigin] using hσ⟩
      simp only [horigin, ne_eq, not_true_eq_false, false_and, if_false]
      split <;> rfl
    obtain ⟨p, k, o, hpk, ho, _⟩ := h.origin hC horigin
    have hsplit := split_snapPath (h.plain_of_snap ho) k
    rcases h.promote_clone hC hpk ho with ⟨_, err, herror⟩ | ⟨hok, hpromoted⟩
    · refine ⟨d, ?_, hd, by rw [herror]; exact hσ⟩
      rw [herror]
      simp only [hpk, hsplit, ho]
    · have hkept := hpromoted.snap_kept hσ
      refine ⟨handed c p o d σ, ?_, ?_, hkept⟩
      · rw [hok]
        simp only [hpk, hsplit, ho]
        unfold handed
        rw [hpk] at horigin
        simp only [ne_eq, horigin, not_false_eq_true, true_and]
        split <;> rfl
      · unfold handed
        split
        · exact h.plain hC
        · exact hd

/-- A promote takes the properties of an object along with it. -/
theorem Proper.localValue_promote (h : Proper m) (c : String)
    (hvalue : m.localValue name prop = some value) :
    (m.promote c).2.localValue (m.placeAfter c name) prop = some value := by
  rcases split_cases name with ⟨d, n, hd, rfl, -⟩ | ⟨hname, hsplit⟩
  · rw [Mem.localValue_snap hd] at hvalue
    obtain ⟨σ, hσ, hprop⟩ := Option.bind_eq_some_iff.mp hvalue
    obtain ⟨d', hplace, hd', hσ'⟩ := h.sound.lookupSnap_placeAfter c hσ
    rw [hplace, Mem.localValue_snap hd', hσ', Option.bind_some, hprop]
  · have hplace : m.placeAfter c name = name := by
      simp only [Mem.placeAfter, hsplit, Bool.false_eq_true, false_and, if_false]
      split
      · rfl
      · split <;> rfl
    have hface := Mem.face_promote m c name
    rw [Mem.localValue_plain hname] at hvalue
    rw [hplace, Mem.localValue_plain hname]
    obtain ⟨D, hD, hprop⟩ := Option.bind_eq_some_iff.mp hvalue
    simp only [Mem.face, hD, Option.map_some] at hface
    obtain ⟨D', hD', heq⟩ := Option.map_eq_some_iff.mp hface
    rw [hD', Option.bind_some, (Prod.mk.inj heq).2, hprop]

/-- A property of its own stays with an object. -/
theorem Later.localValue (hm : Proper m) (h : Later m name m' name')
    (hvalue : m.localValue name prop = some value) :
    Proper m' ∧ m'.localValue name' prop = some value := by
  induction h with
  | refl => exact ⟨hm, hvalue⟩
  | promote _ c ih => exact ⟨ih.1.promote c, ih.1.localValue_promote c ih.2⟩
  | @set m' name' _ other hother prop' value' ih =>
    refine ⟨ih.1.setProperty _ _ _, ?_⟩
    rcases Mem.setProperty_cases m' other prop' value' with ⟨err, herr⟩ | ⟨-, hset⟩
    · rw [herr]
      exact ih.2
    · rw [hset.values, if_neg fun hsame => hother hsame.1.symm]
      exact ih.2

theorem Proper.plain (h : Proper m) (e : String) (he : (m.ds.lookup e).isSome) : Plain e := by
  obtain ⟨E, hE⟩ := Option.isSome_iff_exists.mp he
  exact h.sound.plain hE

/-! ## Every run is proper -/

theorem create_root (hroot : m.face "" = none) (name : String) (kind : DatasetKind) (size : Int)
    (props : FinMap String String) : (m.create name kind size props).2.face "" = none := by
  by_cases hname : name = ""
  · have hparent : parentOf "" = "" := rfl
    subst hname
    simp only [Mem.create, hparent, true_or, if_true]
    split_ifs <;> exact hroot
  · rw [Mem.create_sameBut m name kind size props "" (Ne.symm hname), hroot]

theorem clone_root (hroot : m.face "" = none) (snap dest : String) (props : FinMap String String) :
    (m.clone snap dest props).2.face "" = none := by
  by_cases hdest : dest = ""
  · have hparent : parentOf "" = "" := rfl
    subst hdest
    unfold Mem.clone
    simp only [Mem.create, hparent, true_or, if_true]
    split
    · exact hroot
    split
    · exact hroot
    split_ifs <;> simpa using hroot
  · rw [Mem.clone_sameBut m snap dest props "" (Ne.symm hdest), hroot]

theorem MachineCall.apply_root (hroot : m.face "" = none) (c : MachineCall) :
    (c.apply m).2.face "" = none := by
  cases c with
  | createDataset name props => exact create_root hroot ..
  | createZvol name size props =>
    unfold MachineCall.apply Mem.createZvol
    simp only
    split_ifs
    · exact hroot
    · exact create_root hroot ..
  | snapshot names => exact (Mem.face_snapshot m names "").trans hroot
  | clone snap dest props => exact clone_root hroot ..
  | promote name => exact (Mem.face_promote m name "").trans hroot
  | destroy name recursive =>
    rcases Mem.face_destroy m name "" recursive with hface | ⟨-, hface⟩
    · exact hface.trans hroot
    · exact hface
  | destroySnapshotDeferred name => exact (Mem.face_destroySnapshotDeferred m name "").trans hroot
  | setProperty name prop value =>
    have hsome := Mem.isSome_setProperty m name prop value ""
    rw [← Mem.isSome_face, ← Mem.isSome_face, hroot] at hsome
    exact Option.isSome_eq_false_iff.mp hsome |> Option.isNone_iff_eq_none.mp
  | inject i => exact hroot
  | busyAfterZvolCreate n => exact hroot

/-- Every state that calls lead to is proper. -/
theorem Proper.run {a : Machine} (h : Proper a.mem) {calls : List MachineCall}
    (hcalls : ∀ c ∈ calls, c.Proper) :
    Proper (a.run calls).mem := by
  induction calls generalizing a with
  | nil => exact h
  | cons c calls ih =>
    refine ih ⟨(behaves_call (hcalls c List.mem_cons_self)).sound h.sound, ?_⟩ fun c' hc' =>
      hcalls c' (List.mem_cons_of_mem _ hc')
    have hroot : a.mem.face "" = none := by simp [Mem.face, h.root]
    have hface : (a.call c).2.mem.face "" = none := by
      rcases answered_call a c with ⟨err, hr⟩ | hr
      · exact (congrArg (fun r => r.2.face "") hr).trans hroot
      · exact (congrArg (fun r => r.2.face "") hr).trans (c.apply_root hroot)
    simpa [Mem.face] using hface

theorem Proper.new {pools : List String} (hpools : ∀ p ∈ pools, p ≠ "" ∧ '/' ∉ p.toList ∧ Plain p) :
    Proper (Machine.new pools).mem where
  sound := Sound.new fun p hp => (hpools p hp).2
  root := by
    cases hroot : (Mem.new pools).ds.lookup "" with
    | none => exact hroot
    | some D => exact absurd rfl (hpools "" (lookup_new hroot).1).1

end Later

end SimpleZfsCsi.Memzfs
