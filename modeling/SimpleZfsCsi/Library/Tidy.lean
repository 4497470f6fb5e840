import SimpleZfsCsi.Library.Text
import Mathlib.Data.List.TakeWhile

/-!
# Tidy names

A tidy name has no slash, no at sign and no space in it and is neither "." nor "..". On a path
that is made of tidy names the functions of `Text` do what their names say.
-/

namespace SimpleZfsCsi.Library.Text

/-- A name that a path can be made of. -/
def Tidy (s : String) : Prop :=
  s ≠ "" ∧ s ≠ "." ∧ s ≠ ".." ∧ ∀ c ∈ s.toList, c ≠ '/' ∧ c ≠ '@' ∧ isSpace c = false

instance (s : String) : Decidable (Tidy s) :=
  letI : Decidable (∀ c ∈ s.toList, c ≠ '/' ∧ c ≠ '@' ∧ isSpace c = false) := List.decidableBAll _ _
  inferInstanceAs (Decidable (_ ∧ _ ∧ _ ∧ _))

variable {s t leaf other : String} {names folders : List String}

theorem Tidy.no_slash (h : Tidy s) : '/' ∉ s.toList := fun hc => (h.2.2.2 _ hc).1 rfl

theorem Tidy.no_at (h : Tidy s) : '@' ∉ s.toList := fun hc => (h.2.2.2 _ hc).2.1 rfl

theorem Tidy.toList_ne_nil (h : Tidy s) : s.toList ≠ [] := by
  simpa [String.toList_eq_nil_iff] using h.1

/-! ## Splitting and cleaning -/

theorem split_join (hnames : ∀ n ∈ names, '/' ∉ n.toList) (hne : names ≠ []) :
    split '/' (join "/" names) = names := by
  have hslash : "/".toList = ['/'] := rfl
  rw [split, join, String.toList_intercalate, hslash, List.splitOn_intercalate]
  · simp [Function.comp_def]
  · simpa using hnames
  · simpa using hne

theorem split_append (s t : String) : split '/' (s ++ "/" ++ t) = split '/' s ++ split '/' t := by
  have hlist : (s ++ "/" ++ t).toList = s.toList ++ '/' :: t.toList := by simp
  rw [split, hlist, List.splitOn_append_cons_self, List.map_append]
  rfl

theorem split_ne_nil (s : String) : split '/' s ≠ [] := by
  rw [split, ne_eq, List.map_eq_nil_iff]
  exact List.splitOn_ne_nil _ _

theorem join_cons (hne : names ≠ []) (n : String) : join "/" (n :: names) = n ++ "/" ++
    join "/" names := by
  rw [join, String.intercalate_cons_of_ne_nil hne]
  rfl

theorem join_append (hne : folders ≠ []) (leaf : String) :
    join "/" (folders ++ [leaf]) = join "/" folders ++ "/" ++ leaf := by
  rw [join, String.intercalate_append_of_ne_nil hne (List.cons_ne_nil _ _),
    String.intercalate_singleton]
  rfl

/-- Tidy names are put on the stack as they are. -/
theorem foldl_cleanStep (hnames : ∀ n ∈ names, Tidy n) (rooted : Bool) (stack : List String) :
    names.foldl (cleanStep rooted) stack = names.reverse ++ stack := by
  induction names generalizing stack with
  | nil => rfl
  | cons n rest ih =>
    obtain ⟨hempty, hdot, hdots, _⟩ := hnames n List.mem_cons_self
    have hstep : cleanStep rooted stack n = n :: stack := by
      simp [cleanStep, hempty, hdot, hdots]
    rw [List.foldl_cons, hstep, ih fun m hm => hnames m (List.mem_cons_of_mem n hm)]
    simp

theorem not_rooted (hnames : ∀ n ∈ names, Tidy n) (t : String) (hne : names ≠ []) :
    startsWith (join "/" names ++ t) "/" = false := by
  cases names with
  | nil => exact absurd rfl hne
  | cons n rest =>
    have hn := hnames n List.mem_cons_self
    obtain ⟨c, l, hcl⟩ := List.exists_cons_of_ne_nil hn.toList_ne_nil
    have hc : '/' ≠ c := fun h => hn.no_slash (by rw [hcl, h]; exact List.mem_cons_self)
    have hstart : ∃ l', (join "/" (n :: rest) ++ t).toList = c :: l' := by
      cases rest with
      | nil => exact ⟨l ++ t.toList, by simp [join, hcl]⟩
      | cons m rest => exact ⟨_, by simp [join, hcl]; rfl⟩
    obtain ⟨l', hl'⟩ := hstart
    simp [startsWith, hl', List.isPrefixOf, hc]

theorem clean_join (hnames : ∀ n ∈ names, Tidy n) (hne : names ≠ []) :
    clean (join "/" names) = join "/" names := by
  have hrooted : startsWith (join "/" names) "/" = false := by
    simpa using not_rooted hnames "" hne
  simp only [clean, hrooted, split_join (fun n hn => (hnames n hn).no_slash) hne,
    foldl_cleanStep hnames]
  simp [hne]

/-- A slash at the end of a path is dropped. -/
theorem clean_join_slash (hnames : ∀ n ∈ names, Tidy n) (hne : names ≠ []) :
    clean (join "/" names ++ "/") = join "/" names := by
  have hrooted := not_rooted hnames "/" hne
  have hsplit : split '/' (join "/" names ++ "/") = names ++ [""] := by
    have hjoin : join "/" names ++ "/" = join "/" (names ++ [""]) := by
      rw [join_append hne, String.append_empty]
    rw [hjoin, split_join]
    · intro n hn
      rcases List.mem_append.mp hn with hn | hn
      · exact (hnames n hn).no_slash
      · rw [List.mem_singleton.mp hn]
        simp
    · simp
  simp only [clean, hrooted, hsplit, List.foldl_append, foldl_cleanStep hnames]
  simp [cleanStep, hne]

/-! ## The parts of a path -/

theorem dropWhile_reverse_append {l : List Char} {sep : Char} (h : sep ∉ l) (rest : List Char) :
    (rest ++ sep :: l).reverse.dropWhile (· != sep) = sep :: rest.reverse ∧
      (rest ++ sep :: l).reverse.takeWhile (· != sep) = l.reverse := by
  have hl : ∀ c ∈ l.reverse, (c != sep) = true := by
    intro c hc
    simp only [bne_iff_ne, ne_eq]
    rintro rfl
    exact h (List.mem_reverse.mp hc)
  rw [List.reverse_append, List.reverse_cons, List.append_assoc]
  constructor
  · rw [List.dropWhile_append_of_pos hl]
    simp
  · rw [List.takeWhile_append_of_pos hl]
    simp

/-- What is before and after the last slash. -/
theorem cutLast_append (h : '/' ∉ leaf.toList) (s : String) :
    cutLast '/' (s ++ "/" ++ leaf) = (some s, leaf) := by
  have hlist : (s ++ "/" ++ leaf).toList = s.toList ++ '/' :: leaf.toList := by simp
  obtain ⟨hdrop, htake⟩ := dropWhile_reverse_append h s.toList
  rw [cutLast, hlist, hdrop, htake]
  simp

theorem cutLast_leaf (h : '/' ∉ leaf.toList) : cutLast '/' leaf = (none, leaf) := by
  have hdrop : leaf.toList.reverse.dropWhile (· != '/') = [] := by
    refine List.dropWhile_eq_nil_iff.mpr fun c hc => ?_
    simp only [bne_iff_ne, ne_eq]
    rintro rfl
    exact h (List.mem_reverse.mp hc)
  simp [cutLast, hdrop]

/-- The sibling `other` of the last name of a path. -/
theorem joinPath_dir (hfolders : ∀ n ∈ folders, Tidy n) (hleaf : Tidy leaf) (hother : Tidy other) :
    joinPath (dir (join "/" (folders ++ [leaf]))) other = join "/" (folders ++ [other]) := by
  have hall : ∀ n ∈ folders ++ [other], Tidy n := by
    intro n hn
    rcases List.mem_append.mp hn with hn | hn
    · exact hfolders n hn
    · rw [List.mem_singleton.mp hn]
      exact hother
  by_cases hne : folders = []
  · subst hne
    have hdir : dir (join "/" ([] ++ [leaf])) = "." := by
      simp [dir, join, cutLast_leaf hleaf.no_slash]
    have hclean : clean (join "/" [".", other]) = other := by
      have hrooted : startsWith (join "/" [".", other]) "/" = false := by
        simp [startsWith, join, List.isPrefixOf]
      have hsplit : split '/' (join "/" [".", other]) = [".", other] := by
        refine split_join ?_ (by simp)
        simp [hother.no_slash]
      obtain ⟨hempty, hdot, hdots, _⟩ := hother
      rw [clean, hrooted, hsplit]
      simp [cleanStep, hempty, hdot, hdots, join]
    rw [hdir, joinPath]
    simp only [ne_eq, String.reduceEq, not_false_eq_true, decide_true, hother.1,
      List.filter_cons_of_pos, List.filter_nil, List.isEmpty_cons, Bool.false_eq_true, if_false,
      hclean]
    simp [join]
  · have hdir : dir (join "/" (folders ++ [leaf])) = join "/" folders := by
      rw [join_append hne, dir, cutLast_append hleaf.no_slash]
      exact clean_join_slash hfolders hne
    have hnonempty : join "/" folders ≠ "" := by
      intro h
      have := split_join (fun n hn => (hfolders n hn).no_slash) hne
      rw [h] at this
      have hmem : "" ∈ folders := by
        rw [← this]
        decide
      exact (hfolders "" hmem).1 rfl
    have hparts : join "/" [join "/" folders, other] = join "/" (folders ++ [other]) := by
      rw [join_append hne]
      simp [join]
    rw [hdir]
    simp only [joinPath, ne_eq, hnonempty, not_false_eq_true, decide_true, hother.1,
      List.filter_cons_of_pos, List.filter_nil, List.isEmpty_cons, Bool.false_eq_true,
        if_false, hparts]
    exact clean_join hall (by simp)

theorem base_append (hleaf : Tidy leaf) (s : String) : base (s ++ "/" ++ leaf) = leaf := by
  obtain ⟨c, l, hcl⟩ := List.exists_cons_of_ne_nil (List.reverse_ne_nil_iff.mpr hleaf.toList_ne_nil)
  have hc : c ≠ '/' := by
    rintro rfl
    refine hleaf.no_slash (List.mem_reverse.mp ?_)
    rw [hcl]
    exact List.mem_cons_self
  have hlist : (s ++ "/" ++ leaf).toList = s.toList ++ '/' :: leaf.toList := by simp
  have hdrop : (s ++ "/" ++ leaf).toList.reverse.dropWhile (· == '/') =
      (s ++ "/" ++ leaf).toList.reverse := by
    rw [hlist, List.reverse_append, List.reverse_cons, hcl]
    simp [hc]
  obtain ⟨_, htake⟩ := dropWhile_reverse_append hleaf.no_slash s.toList
  rw [base, hdrop, hlist]
  have hne : (s.toList ++ '/' :: leaf.toList).reverse ≠ [] := by simp
  split
  · rename_i h
    exact absurd h hne
  · rw [htake]
    simp

theorem base_leaf (hleaf : Tidy leaf) : base leaf = leaf := by
  have hall : ∀ c ∈ leaf.toList.reverse, (c != '/') = true := by
    intro c hc
    simpa using (hleaf.2.2.2 c (List.mem_reverse.mp hc)).1
  obtain ⟨c, l, hcl⟩ := List.exists_cons_of_ne_nil (List.reverse_ne_nil_iff.mpr hleaf.toList_ne_nil)
  have hdrop : leaf.toList.reverse.dropWhile (· == '/') = leaf.toList.reverse := by
    have hc := hall c (by rw [hcl]; exact List.mem_cons_self)
    rw [hcl]
    simpa using hc
  rw [base, hdrop]
  split
  · rename_i h
    rw [hcl] at h
    cases h
  · rw [List.takeWhile_eq_self_iff.mpr hall]
    simp

theorem base_join (hleaf : Tidy leaf) (folders : List String) :
    base (join "/" (folders ++ [leaf])) = leaf := by
  by_cases hne : folders = []
  · subst hne
    exact base_leaf hleaf
  · rw [join_append hne]
    exact base_append hleaf _

/-! ## Trimming -/

/-- Nothing is trimmed from a string whose ends do not satisfy `p`. -/
theorem trimWhere_eq {p : Char → Bool} (hhead : ∀ c, s.toList.head? = some c → p c = false)
    (hlast : ∀ c, s.toList.getLast? = some c → p c = false) : trimWhere p s = s := by
  have hdrop : ∀ l : List Char, (∀ c, l.head? = some c → p c = false) → l.dropWhile p = l := by
    intro l hl
    cases l with
    | nil => rfl
    | cons c l => simp [hl c rfl]
  rw [trimWhere, hdrop _ hhead, hdrop, List.reverse_reverse, String.ofList_toList]
  intro c hc
  rw [List.head?_reverse] at hc
  exact hlast c hc

theorem head_join (hnames : ∀ n ∈ names, Tidy n) {c : Char}
    (hc : (join "/" names).toList.head? = some c) : ∃ n ∈ names, c ∈ n.toList := by
  cases names with
  | nil => simp [join] at hc
  | cons n rest =>
    obtain ⟨d, l, hdl⟩ := List.exists_cons_of_ne_nil (hnames n List.mem_cons_self).toList_ne_nil
    refine ⟨n, List.mem_cons_self, ?_⟩
    have hd : d = c := by
      cases rest <;> simpa [join, hdl] using hc
    rw [hdl, hd]
    exact List.mem_cons_self

theorem last_append_tidy (hleaf : Tidy leaf) (s : String) {c : Char}
    (hc : (s ++ leaf).toList.getLast? = some c) : c ∈ leaf.toList := by
  rw [String.toList_append, List.getLast?_append_of_ne_nil _ hleaf.toList_ne_nil] at hc
  exact List.mem_of_getLast? hc

theorem trimSlashes_join (hfolders : ∀ n ∈ folders, Tidy n) (hleaf : Tidy leaf) :
    trimSlashes (join "/" (folders ++ [leaf])) = join "/" (folders ++ [leaf]) := by
  have hall : ∀ n ∈ folders ++ [leaf], Tidy n := by
    intro n hn
    rcases List.mem_append.mp hn with hn | hn
    · exact hfolders n hn
    · rw [List.mem_singleton.mp hn]
      exact hleaf
  refine trimWhere_eq (fun c hc => ?_) fun c hc => ?_
  · obtain ⟨n, hn, hcn⟩ := head_join hall hc
    simpa using ((hall n hn).2.2.2 c hcn).1
  · have hcl : c ∈ leaf.toList := by
      by_cases hne : folders = []
      · subst hne
        exact List.mem_of_getLast? hc
      · rw [join_append hne] at hc
        exact last_append_tidy hleaf _ hc
    simpa using (hleaf.2.2.2 c hcl).1

theorem trimStart_append (start s : String) : trimStart (start ++ s) start = s := by
  simp [trimStart, startsWith]

/-- Spaces at neither end. -/
theorem trimSpace_append (hs : Tidy s) (ht : Tidy t) (mid : String) :
    trimSpace (s ++ mid ++ t) = s ++ mid ++ t := by
  refine trimWhere_eq (fun c hc => ?_) fun c hc => ?_
  · obtain ⟨d, l, hdl⟩ := List.exists_cons_of_ne_nil hs.toList_ne_nil
    have hd : d = c := by simpa [hdl] using hc
    refine (hs.2.2.2 c ?_).2.2
    rw [hdl, hd]
    exact List.mem_cons_self
  · exact (ht.2.2.2 c (last_append_tidy ht _ hc)).2.2

/-- Which tail follows the last at sign. -/
theorem endsWith_at (hs : '@' ∉ s.toList) (ht : '@' ∉ t.toList) (start : String) :
    endsWith (start ++ "@" ++ s) ("@" ++ t) = true ↔ s = t := by
  have hlist : (start ++ "@" ++ s).toList = start.toList ++ '@' :: s.toList := by simp
  have htail : ("@" ++ t).toList = '@' :: t.toList := by simp
  rw [endsWith, List.isSuffixOf_iff_suffix, hlist, htail]
  constructor
  · rintro ⟨l, hl⟩
    -- both tails begin at the last at sign
    have hrev := congrArg List.reverse hl
    simp only [List.reverse_append, List.reverse_cons, List.append_assoc] at hrev
    have htake := congrArg (List.takeWhile (· != '@')) hrev
    have hall : ∀ {l : List Char}, '@' ∉ l → ∀ c ∈ l.reverse, (c != '@') = true := by
      intro l hl c hc
      simp only [bne_iff_ne, ne_eq]
      rintro rfl
      exact hl (List.mem_reverse.mp hc)
    rw [List.takeWhile_append_of_pos (hall ht), List.takeWhile_append_of_pos (hall hs)] at htake
    have heq : t.toList = s.toList := by simpa using htake
    exact (String.toList_inj.mp heq).symm
  · rintro rfl
    exact List.suffix_append _ _

end SimpleZfsCsi.Library.Text
