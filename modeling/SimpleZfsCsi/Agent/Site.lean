import SimpleZfsCsi.Agent.ZfsSnapshot
import SimpleZfsCsi.Library.Tidy
import SimpleZfsCsi.Memzfs.Refinement

/-!
# Where the datasets of a pool are

A `Site` is a pool with the folders in which volumes and backing clones are siblings. On the
spots of a site the agent's way with names is as simple as it looks: a path is the name of
the pool and the path in it, a backing clone is next to its source, and nothing is below a
spot.
-/

namespace SimpleZfsCsi.Agent

open Library Api Memzfs Text

/-- A pool, the node that hosts it, and the folders of the volumes. -/
structure Site where
  nodeName : String
  guid : String
  poolName : String
  folders : List String → Prop
  tidy_pool : Tidy poolName
  tidy_folders : ∀ {F}, folders F → ∀ f ∈ F, Tidy f

namespace Site

variable {S : Site} {ds ds' leaf sn : String} {F : List String}

/-- The full name of a path in the pool. -/
def full (S : Site) (dataset : String) : String := S.poolName ++ "/" ++ dataset

/-- A place in a folder that does not lead to another folder. -/
def Place (S : Site) (F : List String) (leaf : String) : Prop :=
  S.folders F ∧ Tidy leaf ∧ ∀ F', S.folders F' → ¬ F ++ [leaf] <+: F'

/-- The path of a place. -/
def Spot (S : Site) (dataset : String) : Prop :=
  ∃ F leaf, S.Place F leaf ∧ dataset = join "/" (F ++ [leaf])

/-- The full names of the spots. -/
def Inside (S : Site) (d : String) : Prop := ∃ dataset, S.Spot dataset ∧ d = S.full dataset

theorem full_inj (h : S.full ds = S.full ds') : ds = ds' := by
  have hlist := congrArg String.toList h
  simp only [full, String.toList_append, List.append_assoc, List.append_cancel_left_eq] at hlist
  exact String.toList_inj.mp hlist

theorem Spot.inside (h : S.Spot ds) : S.Inside (S.full ds) := ⟨ds, h, rfl⟩

theorem Place.tidy (h : S.Place F leaf) : ∀ n ∈ F ++ [leaf], Tidy n := by
  intro n hn
  rcases List.mem_append.mp hn with hn | hn
  · exact S.tidy_folders h.1 n hn
  · rw [List.mem_singleton.mp hn]
    exact h.2.1

theorem Spot.trimSlashes (h : S.Spot ds) : trimSlashes ds = ds := by
  obtain ⟨F, leaf, hplace, rfl⟩ := h
  exact trimSlashes_join (S.tidy_folders hplace.1) hplace.2.1

/-- A path ends with its leaf. -/
theorem Place.ends (h : S.Place F leaf) : ∃ start, join "/" (F ++ [leaf]) = start ++ leaf := by
  by_cases hF : F = []
  · subst hF
    exact ⟨"", by simp [join]⟩
  · exact ⟨join "/" F ++ "/", join_append hF leaf⟩

theorem Spot.ne_empty (h : S.Spot ds) : ds ≠ "" := by
  obtain ⟨F, leaf, hplace, rfl⟩ := h
  obtain ⟨start, hstart⟩ := hplace.ends
  intro hempty
  rw [hstart] at hempty
  have hlist := congrArg String.toList hempty
  simp only [String.toList_append, String.toList_empty, List.append_eq_nil_iff] at hlist
  exact hplace.2.1.toList_ne_nil hlist.2

theorem no_at_join {names : List String} (hnames : ∀ n ∈ names, '@' ∉ n.toList) :
    '@' ∉ (join "/" names).toList := by
  induction names with
  | nil => simp [join]
  | cons n rest ih =>
    have hn := hnames n List.mem_cons_self
    have hrest := ih fun m hm => hnames m (List.mem_cons_of_mem _ hm)
    by_cases hne : rest = []
    · subst hne
      simpa [join] using hn
    · rw [join_cons hne]
      simp only [String.toList_append, List.mem_append, not_or]
      exact ⟨⟨hn, by decide⟩, hrest⟩

theorem Inside.plain {d : String} (h : S.Inside d) : Plain d := by
  obtain ⟨_, ⟨F, leaf, hplace, rfl⟩, rfl⟩ := h
  have hjoin := no_at_join fun n hn => (hplace.tidy n hn).no_at
  simp only [Plain, full, String.toList_append, List.mem_append, not_or]
  exact ⟨⟨S.tidy_pool.no_at, by decide⟩, hjoin⟩

/-! ## What the agent makes of the names -/

theorem Spot.datasetName (h : S.Spot ds) : datasetName S.poolName ds = .ok (S.full ds) := by
  rw [Agent.datasetName, if_neg S.tidy_pool.1, h.trimSlashes, if_neg h.ne_empty]
  rfl

theorem Spot.snapshotFullName (h : S.Spot ds) (hsn : sn ≠ "") :
    snapshotFullName S.poolName ds sn = .ok (snapPath (S.full ds) sn) := by
  rw [Agent.snapshotFullName, if_neg S.tidy_pool.1, h.trimSlashes, if_neg h.ne_empty, if_neg hsn]
  rfl

theorem Spot.datasetPathOf (h : S.Spot ds) : datasetPathOf S.poolName (S.full ds) = ds := by
  have hpool : trimStart (S.full ds) S.poolName = "/" ++ ds := by
    rw [full, String.append_assoc]
    exact trimStart_append _ _
  rw [Agent.datasetPathOf, hpool, trimStart_append, h.trimSlashes]

/-- The backing clone is a sibling of the source. -/
theorem Place.backingDataset (h : S.Place F leaf) (hsn : Tidy sn) :
    backingDataset (join "/" (F ++ [leaf])) sn = join "/" (F ++ [sn]) := by
  rw [Agent.backingDataset, trimSlashes_join (S.tidy_folders h.1) h.2.1]
  exact joinPath_dir (S.tidy_folders h.1) h.2.1 hsn

theorem Spot.base_backingDataset (h : S.Spot ds) (hsn : Tidy sn) :
    base (backingDataset ds sn) = sn := by
  obtain ⟨F, leaf, hplace, rfl⟩ := h
  rw [hplace.backingDataset hsn]
  exact base_join hsn F

/-- Nothing is below a spot. -/
theorem Spot.not_below (h : S.Spot ds) (h' : S.Spot ds') :
    startsWith (S.full ds') (S.full ds ++ "/") = false := by
  obtain ⟨F, leaf, hplace, rfl⟩ := h
  obtain ⟨F', leaf', hplace', rfl⟩ := h'
  rw [Bool.eq_false_iff]
  intro hstart
  obtain ⟨rest, hrest⟩ := List.isPrefixOf_iff_prefix.mp hstart
  have hfull : ∀ {F leaf}, S.Place F leaf → S.full (join "/" (F ++ [leaf])) =
      join "/" (S.poolName :: (F ++ [leaf])) := by
    intro F leaf _
    rw [join_cons (by simp)]
    rfl
  have hsplit : ∀ {F leaf}, S.Place F leaf →
      Text.split '/' (S.full (join "/" (F ++ [leaf]))) = S.poolName :: (F ++ [leaf]) := by
    intro F leaf hplace
    rw [hfull hplace]
    refine split_join (fun n hn => ?_) (by simp)
    rcases List.mem_cons.mp hn with rfl | hn
    · exact S.tidy_pool.no_slash
    · exact (hplace.tidy n hn).no_slash
  have heq : S.full (join "/" (F' ++ [leaf'])) =
      S.full (join "/" (F ++ [leaf])) ++ "/" ++ String.ofList rest := by
    rw [← String.toList_inj, ← hrest]
    simp
  have hlists := congrArg (Text.split '/') heq
  rw [hsplit hplace', split_append, hsplit hplace, List.cons_append] at hlists
  obtain ⟨_, hlists⟩ := List.cons_eq_cons.mp hlists
  -- the place of the first is a proper beginning of that of the second, and so leads to a folder
  obtain ⟨front, last, hlast⟩ :=
    (List.eq_nil_or_concat' (Text.split '/' (String.ofList rest))).resolve_left
    (split_ne_nil _)
  rw [hlast, ← List.append_assoc] at hlists
  obtain ⟨hF, _⟩ := List.append_inj' hlists rfl
  exact hplace.2.2 F' hplace'.1 ⟨front, hF.symm⟩

/-! ## The names of snapshots -/

/-- A name that the driver gives to a snapshot. -/
def Driver (n : String) : Prop := Tidy n ∧ isDriverSnapshotSuffix n = true

theorem Driver.assert {d n : String} (hd : Plain d) (hn : Driver n) :
    assertDriverSnapshot (snapPath d n) = .ok () := by
  have hsplit : (splitSnapshot (snapPath d n)).2 = n := by
    have := split_snapPath hd n
    simp only [Memzfs.split] at this
    simp [splitSnapshot, this]
  rw [assertDriverSnapshot, hsplit, if_pos hn.2]

/-- The snapshot a volume is directly cloned from. -/
def cloneTag (name : String) : String := "clone-" ++ name

theorem cloneTag_driver {name : String} (h : Tidy name) : Driver (cloneTag name) := by
  have hlist : (cloneTag name).toList = ['c', 'l', 'o', 'n', 'e', '-'] ++ name.toList := by
    simp [cloneTag]
  have hspace : '\n' ∉ name.toList := by
    intro hc
    have := (h.2.2.2 _ hc).2.2
    revert this
    decide
  refine ⟨⟨?_, ?_, ?_, ?_⟩, ?_⟩
  · rintro heq
    have := congrArg String.toList heq
    simp [hlist] at this
  · rintro heq
    have := congrArg String.toList heq
    simp [hlist] at this
  · rintro heq
    have := congrArg String.toList heq
    simp [hlist] at this
  · intro c hc
    rw [hlist, List.mem_append] at hc
    rcases hc with hc | hc
    · simp only [List.mem_cons, List.not_mem_nil, or_false] at hc
      rcases hc with rfl | rfl | rfl | rfl | rfl | rfl <;> decide
    · exact h.2.2.2 c hc
  · simp only [isDriverSnapshotSuffix, List.any_cons, Bool.or_eq_true]
    refine .inl ?_
    have hstart : startsWith (cloneTag name) "clone-" = true := by
      simp [startsWith, cloneTag]
    have hdrop : (cloneTag name).toList.drop "clone-".length = name.toList := by
      rw [hlist]
      rfl
    simp only [hstart, hdrop, Bool.true_and, Bool.and_eq_true, decide_eq_true_eq]
    exact ⟨h.toList_ne_nil, hspace⟩

theorem cloneTag_inj {name name' : String} (h : cloneTag name = cloneTag name') : name = name' := by
  have hlist := congrArg String.toList h
  simp only [cloneTag, String.toList_append, List.append_cancel_left_eq] at hlist
  exact String.toList_inj.mp hlist

/-- A name that a ZfsSnapshot gives to its raw snapshot. -/
def Raw (n : String) : Prop := Driver n ∧ startsWith n "csi-snap-" = true

theorem Raw.ne_cloneTag {n : String} (h : Raw n) (name : String) : n ≠ cloneTag name := by
  rintro rfl
  have := h.2
  simp [startsWith, cloneTag, List.isPrefixOf] at this

/-! ## Origins -/

theorem trimSpace_snapPath {d n : String} (hd : S.Inside d) (hn : Tidy n) :
    trimSpace (snapPath d n) = snapPath d n := by
  obtain ⟨ds, _, rfl⟩ := hd
  have := trimSpace_append S.tidy_pool hn ("/" ++ ds ++ "@")
  simpa [snapPath, full, String.append_assoc] using this

theorem endsWith_snapPath {d n n' : String} (hn : Tidy n) (hn' : Tidy n') :
    endsWith (snapPath d n) ("@" ++ n') = true ↔ n = n' := endsWith_at hn.no_at hn'.no_at d

theorem endsWith_dash (n : String) : endsWith (trimSpace "-") ("@" ++ n) = false := by
  have hdash : trimSpace "-" = "-" := by decide
  rw [hdash, Bool.eq_false_iff, endsWith, ne_eq, List.isSuffixOf_iff_suffix]
  rintro ⟨front, hfront⟩
  have hmem : '@' ∈ "-".toList := by
    rw [← hfront]
    simp
  revert hmem
  decide

end Site

end SimpleZfsCsi.Agent
