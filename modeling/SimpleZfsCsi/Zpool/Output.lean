import SimpleZfsCsi.Library.Decimal
import SimpleZfsCsi.Zpool.Neat

/-!
# What is printed is read back

The output of `zfs get` and `zfs list` for neat pools, and what `CLI` makes of it.
-/

namespace SimpleZfsCsi.Zpool

open Library Agent Memzfs Text

/-! ## Texts -/

theorem trimWhere_concat {p : Char → Bool} {c : Char} (hc : p c = true) (s : String) :
    trimWhere p (s ++ String.singleton c) = trimWhere p s := by
  simp only [trimWhere, String.toList_append, String.toList_singleton]
  congr 2
  by_cases hall : ∀ x ∈ s.toList, p x = true
  · rw [List.dropWhile_append_of_pos hall, List.dropWhile_eq_nil_iff.mpr hall]
    simp [hc]
  · have hne : s.toList.dropWhile p ≠ [] := fun h => hall (List.dropWhile_eq_nil_iff.mp h)
    rw [List.dropWhile_append, if_neg (by simpa using hne)]
    simp [hc]

theorem trimSpace_newline (s : String) : trimSpace (s ++ "\n") = trimSpace s := by
  have hnewline : "\n" = String.singleton '\n' := rfl
  rw [hnewline]
  exact trimWhere_concat (by decide) s

theorem trimNewlines_newline {s : String} (hs : s.toList.getLast? ≠ some '\n') :
    Scrub.trimNewlines (s ++ "\n") = s := by
  have hlist : (s ++ "\n").toList.reverse = '\n' :: s.toList.reverse := by simp
  rw [Scrub.trimNewlines, hlist, List.dropWhile_cons_of_pos (by decide)]
  cases hrev : s.toList.reverse with
  | nil =>
    have hnil : s.toList = [] := by simpa using hrev
    rw [← String.toList_inj]
    simp [hnil]
  | cons c rest =>
    have hc : c ≠ '\n' := by
      rintro rfl
      refine hs ?_
      rw [← List.head?_reverse, hrev]
      rfl
    rw [List.dropWhile_cons_of_neg (by simpa using hc), ← hrev, List.reverse_reverse,
      String.ofList_toList]

theorem split_joined (sep : Char) {names : List String} (hnames : ∀ n ∈ names, sep ∉ n.toList)
    (hne : names ≠ []) :
    Text.split sep (join (String.singleton sep) names) = names := by
  rw [Text.split, join, String.toList_intercalate, String.toList_singleton,
    List.splitOn_intercalate]
  · simp [Function.comp_def]
  · simpa using hnames
  · simpa using hne

/-! ## Printable names -/

/-- A name that can be read back from a line or from a list of names. -/
structure Printable (s : String) : Prop where
  legal : ∀ c ∈ s.toList, legalChar c = true
  first : ∃ c, s.toList.head? = some c ∧ c.isAlpha = true
  last : s.toList.getLast? ≠ some ' '

theorem isSpace_legal {c : Char} (h : legalChar c = true)
    (hspace : isSpace c = true) : c = ' ' := by
  simp only [legalChar, Bool.or_eq_true, decide_eq_true_eq, List.mem_cons, List.not_mem_nil,
    or_false] at h
  rcases h with h | rfl | rfl | rfl | rfl | rfl | rfl | rfl
  · exfalso
    have hrange : 48 ≤ c.toNat ∧ c.toNat ≤ 122 := by
      simp only [Char.isAlphanum, Char.isAlpha, Char.isUpper, Char.isLower, Char.isDigit,
        Bool.or_eq_true, Bool.and_eq_true, decide_eq_true_eq] at h
      rcases h with (⟨hlo, hhi⟩ | ⟨hlo, hhi⟩) | ⟨hlo, hhi⟩
      · exact ⟨Nat.le_trans (m := 65) (by decide) hlo, Nat.le_trans (m := 90) hhi (by decide)⟩
      · exact ⟨Nat.le_trans (m := 97) (by decide) hlo, hhi⟩
      · exact ⟨hlo, Nat.le_trans (m := 57) hhi (by decide)⟩
    rw [isSpace_visible (by omega) (by omega)] at hspace
    cases hspace
  all_goals first | rfl | exact absurd hspace (by decide)

variable {s d n : String} {names : List String}

theorem Printable.ne_nil (h : Printable s) : s.toList ≠ [] := by
  obtain ⟨c, hc, _⟩ := h.first
  rintro hnil
  simp [hnil] at hc

theorem Printable.ne_empty (h : Printable s) : s ≠ "" := by
  rintro rfl
  exact h.ne_nil rfl

theorem Printable.ne_dash (h : Printable s) : s ≠ "-" := by
  rintro rfl
  obtain ⟨c, hc, halpha⟩ := h.first
  obtain rfl : '-' = c := by simpa using hc
  cases halpha

theorem Printable.trimmed (h : Printable s) : Trimmed s := by
  refine trimWhere_eq (fun c hc => ?_) fun c hc => ?_
  · obtain ⟨c', hc', halpha⟩ := h.first
    obtain rfl := Option.some.inj (hc'.symm.trans hc)
    rw [Bool.eq_false_iff]
    intro hspace
    obtain rfl := isSpace_legal (h.legal _ (List.mem_of_mem_head? hc)) hspace
    cases halpha
  · rw [Bool.eq_false_iff]
    intro hspace
    obtain rfl := isSpace_legal (h.legal _ (List.mem_of_getLast? hc)) hspace
    exact h.last hc

theorem Printable.no_newline (h : Printable s) : '\n' ∉ s.toList :=
  fun hc => absurd (h.legal _ hc) (by decide)

theorem Printable.no_comma (h : Printable s) : ',' ∉ s.toList :=
  fun hc => absurd (h.legal _ hc) (by decide)

theorem printable_neatName (h : neatName s = true) : Printable s := by
  simp only [neatName, neatPart, Bool.and_eq_true, List.all_eq_true, bne_iff_ne,
    Option.any_eq_true] at h
  obtain ⟨⟨c, hc, halpha⟩, ⟨hlegal, hlast⟩, _⟩ := h
  exact ⟨hlegal, ⟨c, hc, halpha⟩, hlast⟩

theorem printable_snapPath (hd : neatName d = true) (hn : neatPart n = true) :
    Printable (snapPath d n) := by
  obtain ⟨hlegal, ⟨c, hc, halpha⟩, _⟩ := printable_neatName hd
  simp only [neatPart, Bool.and_eq_true, List.all_eq_true, bne_iff_ne] at hn
  have hlist : (snapPath d n).toList = d.toList ++ '@' :: n.toList := by simp [snapPath]
  refine ⟨?_, ⟨c, by simp [hlist, hc], halpha⟩, ?_⟩
  · rw [hlist]
    intro x hx
    rcases List.mem_append.mp hx with hx | hx
    · exact hlegal x hx
    · rcases List.mem_cons.mp hx with rfl | hx
      · decide
      · exact hn.1.1 x hx
  · rw [hlist]
    by_cases hnil : n.toList = []
    · simp [hnil]
    · have hcons : d.toList ++ '@' :: n.toList = (d.toList ++ ['@']) ++ n.toList := by simp
      rw [hcons, List.getLast?_append_of_ne_nil _ hnil]
      exact hn.1.2

/-! ## Lists of names -/

/-- A list begins like its first name and ends like its last one. -/
theorem join_ends (sep : String) (hnames : ∀ n ∈ names, Printable n) (hne : names ≠ []) :
    (∃ c, (join sep names).toList.head? = some c ∧ c.isAlpha = true) ∧
      ∃ n ∈ names, (join sep names).toList.getLast? = n.toList.getLast? := by
  induction names with
  | nil => exact absurd rfl hne
  | cons n rest ih =>
    obtain ⟨hn, hrest⟩ := List.forall_mem_cons.mp hnames
    obtain ⟨c, hc, halpha⟩ := hn.first
    by_cases hnil : rest = []
    · subst hnil
      exact ⟨⟨c, by simpa [join] using hc, halpha⟩, n, List.mem_cons_self, by simp [join]⟩
    · obtain ⟨⟨c', hc', _⟩, n', hn', hlast⟩ := ih hrest hnil
      have hcons : (join sep (n :: rest)).toList = n.toList ++ sep.toList ++
          (join sep rest).toList := by
        rw [join, String.intercalate_cons_of_ne_nil hnil]
        simp [join]
      have hjoin : (join sep rest).toList ≠ [] := by
        intro hempty
        simp [hempty] at hc'
      refine ⟨⟨c, by simp [hcons, hc], halpha⟩, n', List.mem_cons_of_mem _ hn', ?_⟩
      rw [hcons, List.getLast?_append_of_ne_nil _ hjoin, hlast]

theorem trimmed_join (sep : String) (hnames : ∀ n ∈ names, Printable n) (hne : names ≠ []) :
    Trimmed (join sep names) := by
  obtain ⟨⟨c, hc, halpha⟩, n, hn, hlast⟩ := join_ends sep hnames hne
  refine trimWhere_eq (fun c' hc' => ?_) fun c' hc' => ?_
  · obtain rfl := Option.some.inj (hc.symm.trans hc')
    have hlegal : legalChar c = true := by simp [legalChar, Char.isAlphanum, halpha]
    rw [Bool.eq_false_iff]
    intro hspace
    obtain rfl := isSpace_legal hlegal hspace
    cases halpha
  · rw [hlast] at hc'
    rw [Bool.eq_false_iff]
    intro hspace
    obtain rfl := isSpace_legal ((hnames n hn).legal _ (List.mem_of_getLast? hc')) hspace
    exact (hnames n hn).last hc'

/-- The names in a list are read back. -/
theorem read_names (hnames : ∀ n ∈ names, Printable n) :
    (names.map trimSpace).filter (· ≠ "") = names := by
  have hmap : names.map trimSpace = names := by
    rw [List.map_congr_left fun n hn => (hnames n hn).trimmed, List.map_id']
  rw [hmap]
  exact List.filter_eq_self.mpr fun n hn => by simpa using (hnames n hn).ne_empty

theorem read_list (hnames : ∀ n ∈ names, Printable n) (hne : names ≠ []) :
    trimSpace (join "," names) = join "," names ∧ join "," names ≠ "" ∧ join "," names ≠ "-" ∧
      ((Text.split ',' (join "," names)).map trimSpace).filter (· ≠ "") = names := by
  obtain ⟨⟨c, hc, halpha⟩, _⟩ := join_ends "," hnames hne
  refine ⟨trimmed_join _ hnames hne, ?_, ?_, ?_⟩
  · intro hempty
    simp [hempty] at hc
  · intro hdash
    rw [hdash] at hc
    obtain rfl : '-' = c := by simpa using hc
    cases halpha
  · have hsplit : Text.split ',' (join "," names) = names :=
      split_joined ',' (fun n hn => (hnames n hn).no_comma) hne
    rw [hsplit, read_names hnames]

theorem lines_eq (hne : names ≠ []) : String.join (names.map (· ++ "\n")) =
    join "\n" names ++ "\n" := by
  induction names with
  | nil => exact absurd rfl hne
  | cons n rest ih =>
    by_cases hnil : rest = []
    · subst hnil
      simp [join, String.join]
    · have hcons : join "\n" (n :: rest) = n ++ "\n" ++ join "\n" rest := by
        rw [join, String.intercalate_cons_of_ne_nil hnil]
        rfl
      rw [List.map_cons, String.join_cons, ih hnil, hcons]
      simp [String.append_assoc]

theorem read_lines (hnames : ∀ n ∈ names, Printable n) :
    ((Text.split '\n' (Scrub.trimNewlines (String.join (names.map (· ++ "\n"))))).map
      trimSpace).filter (· ≠ "") =
      names := by
  by_cases hne : names = []
  · subst hne
    decide +kernel
  · obtain ⟨_, n, hn, hlast⟩ := join_ends "\n" hnames hne
    have hend : (join "\n" names).toList.getLast? ≠ some '\n' := by
      rw [hlast]
      exact fun h => (hnames n hn).no_newline (List.mem_of_getLast? h)
    have hsplit : Text.split '\n' (join "\n" names) = names :=
      split_joined '\n' (fun n hn => (hnames n hn).no_newline) hne
    rw [lines_eq hne, trimNewlines_newline hend, hsplit, read_names hnames]

/-! ## What the in-memory ZFS answers -/

/-- The properties whose values the in-memory ZFS knows; others are up to the pool. -/
def modelled (name prop : String) : Bool :=
  Mem.isUser prop || prop = "type" ||
    if contains name "@" then prop = "defer_destroy" else prop = "origin" || prop = "volsize"

/-- A snapshot with these clones has the property `clones` with this value. -/
def ListsClones (names : List String) (value : String) : Prop :=
  value = join "," names ∨ (names = [] ∧ value = "-")

section Answers

variable {m : Mem} {prop v name snap : String}

theorem printable_clonesOf (h : Neat m.ds) : ∀ c ∈ m.clonesOf snap, Printable c := by
  intro c hc
  obtain ⟨E, hE, _⟩ := Mem.mem_clonesOf.mp hc
  exact printable_neatName (h c E hE).name

theorem printable_snapNames (hs : Sound m []) (h : Neat m.ds) {D : Dataset}
    (hD : m.ds.lookup d = some D) :
    ∀ x ∈ Mem.snapNames D, Printable x := by
  intro x hx
  obtain ⟨s, hmem, rfl⟩ := List.mem_map.mp hx
  rw [hs.named hD]
  exact printable_snapPath (h d D hD).name
    ((h d D hD).snaps s.name s ((hs.keyed hD).mem_sorted.mp hmem)).name

theorem printable_origin (hs : Sound m []) (h : Neat m.ds) {D : Dataset}
    (hD : m.ds.lookup d = some D)
    (horigin : D.origin ≠ "") : Printable D.origin := by
  obtain ⟨p, k, s, hpk, hsnap, _⟩ := hs.origin hD horigin
  obtain ⟨P, hP, hk⟩ := lookup_of_lookupSnap hsnap
  rw [hpk]
  exact printable_snapPath (h p P hP).name ((h p P hP).snaps k s hk).name

theorem trimmed_inherited (h : Neat m.ds) (prop : String) (fuel : Nat) (name : String) :
    Trimmed (m.inherited prop fuel name) := by
  induction fuel generalizing name with
  | zero =>
    show Trimmed "-"
    decide +kernel
  | succ fuel ih =>
    unfold Mem.inherited
    split_ifs
    · decide +kernel
    · split
      · rename_i value hvalue
        obtain ⟨D, hD, hprop⟩ := Option.bind_eq_some_iff.mp hvalue
        exact (h name D hD).props prop value hprop
      · exact ih _

theorem trimmed_clones (h : Neat m.ds) (snap : String) :
    Trimmed (match m.clonesOf snap with
      | [] => "-"
      | c => join "," c) := by
  split
  · decide +kernel
  · rename_i hne
    exact trimmed_join _ (printable_clonesOf h) hne

theorem trimmed_get (hs : Sound m []) (h : Neat m.ds) (hv : m.get name prop = .ok v) :
    Trimmed v := by
  have hdash : Trimmed "-" := by decide +kernel
  unfold Mem.get at hv
  simp only at hv
  split at hv
  · cases hv
  rename_i D hD
  split_ifs at hv
  · split at hv
    · cases hv
    rename_i s hsnap
    obtain rfl := Except.ok.inj hv
    unfold Mem.getSnap
    split_ifs with htype hclones hdefer htxg horigin huser
    · decide +kernel
    · exact trimmed_clones h name
    · decide +kernel
    · decide +kernel
    · exact trimSpace_toString _
    · exact hdash
    · cases hlookup : s.props.lookup prop with
      | none => exact trimmed_inherited h ..
      | some w => exact ((h _ D hD).snaps _ s hsnap).props prop w hlookup
    · exact hdash
  · obtain rfl := Except.ok.inj hv
    unfold Mem.getDataset
    split_ifs with htype horigin hempty hclones hvolsize hkind huser
    · cases D.kind <;> decide +kernel
    · exact hdash
    · exact (printable_origin hs h hD hempty).trimmed
    · exact hdash
    · exact trimSpace_int _
    · exact hdash
    · exact trimmed_inherited h ..
    · cases hlookup : D.props.lookup prop with
      | none => exact hdash
      | some w => exact (h _ D hD).props prop w hlookup

end Answers

end SimpleZfsCsi.Zpool
