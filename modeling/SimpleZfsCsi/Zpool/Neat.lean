import SimpleZfsCsi.Library.Tokens
import SimpleZfsCsi.Memzfs.Follow
import SimpleZfsCsi.Memzfs.Labels
import SimpleZfsCsi.Zpool.Cli

/-!
# Names and values that can be printed

What `zfs` prints is cut at blanks, commas and ends of lines, and its errors are told by phrases.
Names of ZFS do not interfere with that as long as they do not end with a blank and do not have
the phrases in them, and neither do values without blanks around them. Every operation keeps a
pool in which all names and values are of this kind.
-/

namespace SimpleZfsCsi.Zpool

open Library Agent Memzfs Text

/-! ## Names -/

/-- The characters of a ZFS name. -/
def legalChar (c : Char) : Bool := c.isAlphanum || c ∈ ['-', '_', '.', ':', ' ', '/', '@']

/-- None of the phrases that errors are told by. -/
def silent (text : String) : Bool := !saysMissing text && !saysPresent text

/-- A part of a name. -/
def neatPart (s : String) : Bool :=
  s.toList.all legalChar && s.toList.getLast? != some ' ' && silent s

/-- A full name begins with that of the pool, and thus with a letter. -/
def neatName (name : String) : Bool := name.toList.head?.any Char.isAlpha && neatPart name

/-- The characters of the name of a property. -/
def propName (prop : String) : Bool :=
  prop.toList.all fun c => c.isAlphanum || c ∈ [':', '-', '_', '.', '+']

/-- There are no blanks around a value. -/
def Trimmed (value : String) : Prop := trimSpace value = value

instance (value : String) : Decidable (Trimmed value) := inferInstanceAs (Decidable (_ = _))

/-- All values of a map of properties. -/
def NeatProps (props : FinMap String String) : Prop := ∀ k v, props.lookup k = some v → Trimmed v

structure NeatSnap (n : String) (s : Snapshot) : Prop where
  name : neatPart n = true
  props : NeatProps s.props

structure NeatEntry (d : String) (D : Dataset) : Prop where
  name : neatName d = true
  props : NeatProps D.props
  snaps : ∀ n s, D.snaps.lookup n = some s → NeatSnap n s

/-- The names and the values that are in the pools can be printed and read back. -/
def Neat (ds : FinMap String Dataset) : Prop := ∀ d D, ds.lookup d = some D → NeatEntry d D

/-! ## Every operation keeps them -/

section Operations

variable {ds : FinMap String Dataset} {m : Mem} {d : String}

theorem Neat.insert (h : Neat ds) {D : Dataset} (hD : NeatEntry d D) : Neat (ds.insert d D) := by
  intro e E hE
  rw [FinMap.lookup_insert] at hE
  split_ifs at hE with he
  · obtain rfl := Option.some.inj hE
    exact he ▸ hD
  · exact h e E hE

theorem Neat.map (h : Neat ds) {f : String → Dataset → Dataset}
    (hf : ∀ e E, NeatEntry e E → NeatEntry e (f e E)) :
    Neat (ds.map f) := by
  intro e E' hE'
  obtain ⟨E, hE, rfl⟩ := Option.map_eq_some_iff.mp hE'
  exact hf e E (h e E hE)

theorem Neat.modify (h : Neat ds) {f : Dataset → Dataset}
    (hf : ∀ E, NeatEntry d E → NeatEntry d (f E)) :
    Neat (ds.modify d f) := by
  refine h.map fun e E hE => ?_
  split_ifs with he
  · exact he ▸ hf E (he ▸ hE)
  · exact hE

theorem Neat.filterKeys (h : Neat ds) (p : String → Bool) : Neat (ds.filterKeys p) := by
  intro e E hE
  rw [FinMap.lookup_filterKeys] at hE
  split_ifs at hE
  exact h e E hE

/-- Only the snapshots change. -/
theorem NeatEntry.withSnaps {D : Dataset} (h : NeatEntry d D) {snaps : FinMap String Snapshot}
    (hsnaps : ∀ n s, snaps.lookup n = some s → NeatSnap n s) : NeatEntry d { D with snaps } :=
  ⟨h.name, h.props, hsnaps⟩

theorem NeatEntry.eraseSnap {D : Dataset} (h : NeatEntry d D) (n : String) :
    NeatEntry d { D with snaps := D.snaps.erase n } := by
  refine h.withSnaps fun k s hs => ?_
  rw [FinMap.lookup_erase] at hs
  split_ifs at hs
  exact h.snaps k s hs

theorem NeatEntry.insertSnap {D : Dataset} (h : NeatEntry d D) {n : String} {s : Snapshot}
    (hs : NeatSnap n s) :
    NeatEntry d { D with snaps := D.snaps.insert n s } := by
  refine h.withSnaps fun k s' hs' => ?_
  rw [FinMap.lookup_insert] at hs'
  split_ifs at hs' with hk
  · obtain rfl := Option.some.inj hs'
    exact hk ▸ hs
  · exact h.snaps k s' hs'

theorem NeatProps.insert {props : FinMap String String} (h : NeatProps props) {k v : String}
    (hv : Trimmed v) :
    NeatProps (props.insert k v) := by
  intro k' v' hv'
  rw [FinMap.lookup_insert] at hv'
  split_ifs at hv'
  · exact Option.some.inj hv' ▸ hv
  · exact h k' v' hv'

theorem Neat.lookupSnap (h : Neat m.ds) {n : String} {s : Snapshot}
    (hs : m.lookupSnap d n = some s) : NeatSnap n s := by
  obtain ⟨D, hD, hsnap⟩ := lookup_of_lookupSnap hs
  exact (h d D hD).snaps n s hsnap

theorem Neat.create (h : Neat m.ds) {name : String} (hname : neatName name = true)
    {props : FinMap String String}
    (hprops : NeatProps props) (kind : DatasetKind) (size : Int) :
    Neat (m.create name kind size props).2.ds := by
  unfold Mem.create
  split_ifs
  · exact h
  · exact h
  · exact h.insert ⟨hname, hprops, by simp⟩

theorem Neat.createZvol (h : Neat m.ds) {name : String} (hname : neatName name = true)
    {props : FinMap String String}
    (hprops : NeatProps props) (size : Int) : Neat (m.createZvol name size props).2.ds := by
  unfold Mem.createZvol
  split_ifs
  · exact h
  · exact h.create hname hprops _ _

theorem Neat.clone (h : Neat m.ds) (snap : String) {dest : String} (hdest : neatName dest = true)
    {props : FinMap String String} (hprops : NeatProps props) :
    Neat (m.clone snap dest props).2.ds := by
  unfold Mem.clone
  rcases split_cases snap with ⟨d, n, hd, rfl, hsplit⟩ | ⟨_, hsplit⟩
  · simp only [hsplit, Bool.not_true, Bool.false_eq_true, if_false]
    split
    · exact h
    rename_i src hsrc
    split_ifs
    · exact h
    · exact h
    have hcreate := h.create hdest hprops src.kind src.volsize
    cases hresult : m.create dest src.kind src.volsize props with
    | mk r m' =>
      rw [hresult] at hcreate
      cases r with
      | error err => exact hcreate
      | ok _ => exact hcreate.modify fun E hE => ⟨hE.name, hE.props, hE.snaps⟩
  · simpa [hsplit] using h

theorem silent_append {a b : String} (h : silent (a ++ b) = true) : silent b = true := by
  have hcontains : ∀ phrase, contains (a ++ b) phrase = false → contains b phrase = false := by
    intro phrase hphrase
    simp only [contains, decide_eq_false_iff_not, String.toList_append] at hphrase ⊢
    exact fun hb => hphrase (List.infix_append_of_infix_right hb)
  simp only [silent, saysMissing, saysPresent, Bool.and_eq_true, Bool.not_eq_true',
    Bool.or_eq_false_iff] at h ⊢
  exact ⟨⟨hcontains _ h.1.1, hcontains _ h.1.2⟩, hcontains _ h.2⟩

/-- The end of a name. -/
theorem neatPart_append {a b : String} (h : neatPart (a ++ b) = true) : neatPart b = true := by
  simp only [neatPart, Bool.and_eq_true, String.toList_append, List.all_append, bne_iff_ne] at h ⊢
  obtain ⟨⟨⟨_, hlegal⟩, hlast⟩, hsilent⟩ := h
  refine ⟨⟨hlegal, ?_⟩, silent_append hsilent⟩
  by_cases hb : b.toList = []
  · simp [hb]
  · rwa [List.getLast?_append_of_ne_nil _ hb] at hlast

/-- The part of a name after the at sign. -/
theorem neatPart_split {name : String} (h : neatName name = true) :
    neatPart (Memzfs.split name).2.1 = true := by
  rcases split_cases name with ⟨d, n, _, rfl, hsplit⟩ | ⟨_, hsplit⟩
  · rw [hsplit]
    simp only [neatName, Bool.and_eq_true] at h
    exact neatPart_append h.2
  · rw [hsplit]
    show neatPart "" = true
    decide +kernel

theorem Neat.snapshot (h : Neat m.ds) {names : List String}
    (hnames : ∀ n ∈ names, neatName n = true) :
    Neat (m.snapshot names).2.ds := by
  obtain heq | heq := snapshot_cases m names
  · rwa [heq]
  rw [heq]
  have hadd : ∀ (names : List String) (ds : FinMap String Dataset),
      (∀ n ∈ names, neatName n = true) → Neat ds →
      Neat (names.foldl (Mem.addSnap (m.txg + 1)) ds) := by
    intro names
    induction names with
    | nil => exact fun _ _ hds => hds
    | cons n names ih =>
      intro ds hneat hds
      obtain ⟨hn, hrest⟩ := List.forall_mem_cons.mp hneat
      refine ih _ hrest (hds.modify fun E hE => hE.insertSnap ⟨neatPart_split hn, ?_⟩)
      intro k v hv
      cases hv
  exact hadd names m.ds hnames h

theorem Neat.promote (h : Neat m.ds) (hs : Sound m []) (c : String) : Neat (m.promote c).2.ds := by
  rcases hs.promote_cases c with ⟨r, hr⟩ | ⟨p, n, o, _, hpromoted⟩
  · rwa [hr]
  intro e E' hE'
  have hface := hpromoted.face e
  simp only [Mem.face, hE', Option.map_some] at hface
  obtain ⟨E, hE, heq⟩ := Option.map_eq_some_iff.mp hface.symm
  refine ⟨(h e E hE).name, ?_, fun k τ hτ => ?_⟩
  · rw [← (Prod.mk.inj heq).2]
    exact (h e E hE).props
  · have hsnap : (m.promote c).2.lookupSnap e k = some τ := by simpa [Mem.lookupSnap, hE'] using hτ
    rcases hpromoted.snap_cases hsnap with ⟨_, hσ, _⟩ | ⟨hσ, _⟩
    · exact h.lookupSnap hσ
    · exact h.lookupSnap hσ

theorem Neat.dropAllDone (h : Neat m.ds) (origins : List String) :
    Neat (origins.foldl Mem.dropIfDone m).ds := by
  induction origins generalizing m with
  | nil => exact h
  | cons o origins ih =>
    refine ih ?_
    unfold Mem.dropIfDone
    simp only
    split_ifs
    · split
      · exact h
      · split_ifs
        · exact h.modify fun E hE => hE.eraseSnap _
        · exact h
    · exact h

theorem Neat.destroy (h : Neat m.ds) (name : String) (recursive : Bool) :
    Neat (m.destroy name recursive).2.ds := by
  unfold Mem.destroy
  rcases split_cases name with ⟨d, n, hd, rfl, hsplit⟩ | ⟨_, hsplit⟩
  · simp only [hsplit, if_true]
    split
    · exact h
    split_ifs
    · exact h
    · exact h.modify fun E hE => hE.eraseSnap _
  · simp only [hsplit, Bool.false_eq_true, if_false]
    split
    · exact h
    split_ifs
    · exact h
    · exact h
    · exact Neat.dropAllDone (h.filterKeys _) _

theorem Neat.destroySnapshotDeferred (h : Neat m.ds) (name : String) :
    Neat (m.destroySnapshotDeferred name).2.ds := by
  unfold Mem.destroySnapshotDeferred
  rcases split_cases name with ⟨d, n, hd, rfl, hsplit⟩ | ⟨_, hsplit⟩
  · simp only [hsplit, Bool.not_true, Bool.false_eq_true, if_false]
    split
    · exact h
    rename_i s hs
    split_ifs
    · exact h.modify fun E hE => hE.eraseSnap _
    · exact h.modify fun E hE => hE.insertSnap ⟨(h.lookupSnap hs).name, (h.lookupSnap hs).props⟩
  · simpa [hsplit] using h

theorem Neat.setProperty (h : Neat m.ds) (name prop : String) {value : String}
    (hvalue : Trimmed value) :
    Neat (m.setProperty name prop value).2.ds := by
  unfold Mem.setProperty
  simp only
  split
  · exact h
  split_ifs
  · exact h
  · exact h
  · exact h
  · refine h.modify fun E hE => hE.withSnaps fun n s' hs' => ?_
    obtain ⟨s, hs, rfl⟩ := Option.map_eq_some_iff.mp hs'
    have hneat := hE.snaps n s hs
    simp only
    split_ifs
    · exact ⟨hneat.name, hneat.props.insert hvalue⟩
    · exact hneat
  · exact h
  all_goals exact h.modify fun E hE => ⟨hE.name, hE.props.insert hvalue, hE.snaps⟩

end Operations

end SimpleZfsCsi.Zpool
