import Mathlib.Algebra.Order.BigOperators.Group.List
import SimpleZfsCsi.Library.Path

/-!
# Rooted paths

The elements of a rooted path are walked down from the root, where ".." stays. A relative path that
is joined to a rooted one lies below it, whatever the latter is, if and only if its own elements
never climb above where they began and do not end there.
-/

namespace SimpleZfsCsi.Library.Text

variable {p s : String} {stack base elems : List String}

/-- Walk down a path from where the elements of `stack` lead, the last one first. -/
def descend (stack : List String) (p : String) : List String :=
  (split '/' p).foldl (cleanStep true) stack

/-- The elements of a rooted path. -/
def elements (p : String) : List String := (descend [] p).reverse

/-- A path lies strictly below another one. -/
def Below (base p : String) : Prop := ∃ rest, rest ≠ [] ∧ elements p = elements base ++ rest

/-! ## Slashes at the ends -/

theorem foldl_split_slash (rooted : Bool) (stack : List String) (p : String) :
    (split '/' ("/" ++ p)).foldl (cleanStep rooted) stack =
      (split '/' p).foldl (cleanStep rooted) stack := by
  have hsplit : split '/' ("" ++ "/" ++ p) = split '/' "" ++ split '/' p := split_append "" p
  rw [String.empty_append] at hsplit
  rw [hsplit, List.foldl_append]
  rfl

theorem foldl_split_append_slash (rooted : Bool) (stack : List String) (p : String) :
    (split '/' (p ++ "/")).foldl (cleanStep rooted) stack =
      (split '/' p).foldl (cleanStep rooted) stack := by
  have hsplit : split '/' (p ++ "/" ++ "") = split '/' p ++ split '/' "" := split_append p ""
  rw [String.append_empty] at hsplit
  rw [hsplit, List.foldl_append]
  rfl

/-- What is dropped at the front is slashes. -/
theorem foldl_split_dropWhile (rooted : Bool) (stack : List String) (l : List Char) :
    (split '/' (String.ofList (l.dropWhile (· == '/')))).foldl (cleanStep rooted) stack =
      (split '/' (String.ofList l)).foldl (cleanStep rooted) stack := by
  induction l with
  | nil => rfl
  | cons c l ih =>
    by_cases hc : c = '/'
    · subst hc
      have hcons : String.ofList ('/' :: l) = "/" ++ String.ofList l := by
        apply String.toList_injective
        simp
      rw [List.dropWhile_cons_of_pos (by simp), ih, hcons, foldl_split_slash]
    · rw [List.dropWhile_cons_of_neg (by simpa using hc)]

/-- What is dropped at the end is slashes. -/
theorem foldl_split_rdropWhile (rooted : Bool) (stack : List String) (l : List Char) :
    (split '/' (String.ofList ((l.reverse.dropWhile (· == '/')).reverse))).foldl
      (cleanStep rooted) stack =
      (split '/' (String.ofList l)).foldl (cleanStep rooted) stack := by
  induction l using List.reverseRecOn with
  | nil => rfl
  | append_singleton l c ih =>
    rw [List.reverse_append, List.reverse_singleton, List.singleton_append]
    by_cases hc : c = '/'
    · subst hc
      have hconcat : String.ofList (l ++ ['/']) = String.ofList l ++ "/" := by
        apply String.toList_injective
        simp
      rw [List.dropWhile_cons_of_pos (by simp), ih, hconcat, foldl_split_append_slash]
    · rw [List.dropWhile_cons_of_neg (by simpa using hc), List.reverse_cons, List.reverse_reverse]

/-- Slashes at the ends lead nowhere. -/
theorem foldl_split_trimSlashes (rooted : Bool) (stack : List String) (p : String) :
    (split '/' (trimSlashes p)).foldl (cleanStep rooted) stack =
      (split '/' p).foldl (cleanStep rooted) stack := by
  rw [trimSlashes, trimWhere, foldl_split_rdropWhile, foldl_split_dropWhile, String.ofList_toList]

theorem settle_trimSlashes (p : String) : settle (trimSlashes p) = settle p :=
  foldl_split_trimSlashes false [] p

theorem descend_trimSlashes (stack : List String) (p : String) : descend stack (trimSlashes p) =
    descend stack p :=
  foldl_split_trimSlashes true stack p

/-! ## Walking down from somewhere -/

/-- An element that climbs above the beginning is not taken back. -/
theorem mem_cleanStep {elem : String} (h : ".." ∈ stack) : ".." ∈ cleanStep false stack elem := by
  cases stack with
  | nil => cases h
  | cons top rest => grind [cleanStep]

theorem mem_foldl_cleanStep (h : ".." ∈ stack) : ".." ∈ elems.foldl (cleanStep false) stack := by
  induction elems generalizing stack with
  | nil => exact h
  | cons elem rest ih => exact ih (mem_cleanStep h)

/-- A walk that does not climb above its beginning is the same wherever it begins. -/
theorem cleanStep_append {elem : String} (h : ".." ∉ cleanStep false stack elem)
    (base : List String) :
    cleanStep true (stack ++ base) elem = cleanStep false stack elem ++ base := by
  cases stack with
  | nil =>
    have hne : elem ≠ ".." := by
      rintro rfl
      simp [cleanStep] at h
    simp only [cleanStep, if_neg hne]
    split_ifs <;> rfl
  | cons top rest => grind [cleanStep]

theorem foldl_cleanStep_append
    (h : ".." ∉ elems.foldl (cleanStep false) stack) (base : List String) :
    elems.foldl (cleanStep true) (stack ++ base) = elems.foldl (cleanStep false) stack ++ base := by
  induction elems generalizing stack with
  | nil => rfl
  | cons elem rest ih =>
    rw [List.foldl_cons] at h ⊢
    have hstep : ".." ∉ cleanStep false stack elem := fun hmem => h (mem_foldl_cleanStep hmem)
    rw [List.foldl_cons, cleanStep_append hstep]
    exact ih h

theorem descend_append (h : ".." ∉ settle p) (base : List String) : descend base p =
    settle p ++ base :=
  foldl_cleanStep_append h base

/-- The first time that a walk climbs above its beginning. -/
theorem climbs_cleanStep {elem : String} (hback : ".." ∉ stack)
    (h : ".." ∈ cleanStep false stack elem) :
    stack = [] ∧ elem = ".." := by
  unfold cleanStep at h
  split at h
  · exact absurd h hback
  split at h
  · cases stack with
    | nil => exact ⟨rfl, ‹_›⟩
    | cons top rest => grind
  · rename_i helem
    rcases List.mem_cons.mp h with h | h
    · exact absurd h.symm helem
    · exact absurd h hback

theorem not_mem_cleanStep {name elem : String} {rooted : Bool} (hstack : name ∉ stack)
    (hne : name ≠ elem)
    (hname : name ≠ "..") : name ∉ cleanStep rooted stack elem := by
  unfold cleanStep
  split
  · exact hstack
  split
  · cases stack with
    | nil => cases rooted <;> simp [hname]
    | cons top rest => grind
  · exact fun hmem => (List.mem_cons.mp hmem).elim hne hstack

/-- What has been left behind does not come back. -/
theorem not_mem_foldl {name : String} (hname : name ≠ "..") (hstack : name ∉ stack)
    (helems : name ∉ elems) :
    name ∉ elems.foldl (cleanStep true) stack := by
  induction elems generalizing stack with
  | nil => exact hstack
  | cons elem rest ih =>
    have hne : name ≠ elem := fun heq => helems (heq ▸ List.mem_cons_self)
    exact ih (not_mem_cleanStep hstack hne hname) fun hmem => helems (List.mem_cons_of_mem _ hmem)

/-- A walk that climbs above its beginning leaves it. -/
theorem not_mem_of_climbs {name : String} (hname : name ≠ "..") (hstack : name ∉ stack)
    (helems : name ∉ elems)
    (hback : ".." ∉ stack) (hclimbs : ".." ∈ elems.foldl (cleanStep false) stack) :
    name ∉ elems.foldl (cleanStep true) (stack ++ [name]) := by
  induction elems generalizing stack with
  | nil => exact absurd hclimbs hback
  | cons elem rest ih =>
    have hrest : name ∉ rest := fun hmem => helems (List.mem_cons_of_mem _ hmem)
    have hne : name ≠ elem := fun heq => helems (heq ▸ List.mem_cons_self)
    rw [List.foldl_cons]
    by_cases hstep : ".." ∈ cleanStep false stack elem
    · obtain ⟨rfl, rfl⟩ := climbs_cleanStep hback hstep
      refine not_mem_foldl hname ?_ hrest
      simp [cleanStep, hname]
    · rw [cleanStep_append hstep]
      exact ih (not_mem_cleanStep hstack hne hname) hrest hstep hclimbs

/-! ## Joining -/

theorem clean_rooted (hp : startsWith p "/" = true) : clean p = "/" ++ join "/" (elements p) := by
  simp [clean, hp, elements, descend]

theorem leaf_cleanStep {elem : String} (hstack : ∀ n ∈ stack, Leaf n) (helem : '/' ∉ elem.toList) :
    ∀ n ∈ cleanStep true stack elem, Leaf n := by
  unfold cleanStep
  split
  · exact hstack
  rename_i hdropped
  split
  · cases stack with
    | nil => simp
    | cons top rest =>
      obtain ⟨htop, hrest⟩ := List.forall_mem_cons.mp hstack
      simpa [htop.2.2.1] using hrest
  · rename_i hback
    push Not at hdropped
    exact List.forall_mem_cons.mpr ⟨⟨hdropped.1, hdropped.2, hback, helem⟩, hstack⟩

theorem leaf_descend (hstack : ∀ n ∈ stack, Leaf n) (p : String) :
    ∀ n ∈ descend stack p, Leaf n := by
  have hfold : ∀ (elems : List String) (stack : List String), (∀ elem ∈ elems, '/' ∉ elem.toList) →
      (∀ n ∈ stack, Leaf n) → ∀ n ∈ elems.foldl (cleanStep true) stack, Leaf n := by
    intro elems
    induction elems with
    | nil => exact fun stack _ hstack => hstack
    | cons elem rest ih =>
      intro stack helems hstack
      obtain ⟨helem, hrest⟩ := List.forall_mem_cons.mp helems
      exact ih _ hrest (leaf_cleanStep hstack helem)
  exact hfold _ stack (split_no_slash p) hstack

/-- Leaves are walked down as they are. -/
theorem foldl_leaves (hstack : ∀ n ∈ stack, Leaf n) :
    stack.reverse.foldl (cleanStep true) [] = stack := by
  induction stack with
  | nil => rfl
  | cons n stack ih =>
    obtain ⟨hn, hrest⟩ := List.forall_mem_cons.mp hstack
    rw [List.reverse_cons, List.foldl_append, ih hrest]
    simp [cleanStep, hn.1, hn.2.1, hn.2.2.1]

/-- The elements of a rooted path are those of the cleaned one. -/
theorem elements_clean (hp : startsWith p "/" = true) : elements (clean p) = elements p := by
  rw [clean_rooted hp]
  have hleaves : ∀ n ∈ descend [] p, Leaf n := leaf_descend (by simp) p
  unfold elements
  rw [List.reverse_inj, descend, foldl_split_slash]
  cases hne : (descend [] p).reverse with
  | nil =>
    rw [List.reverse_eq_nil_iff] at hne
    rw [hne]
    rfl
  | cons n rest =>
    rw [← hne, split_join, foldl_leaves hleaves]
    · exact fun n hn => (hleaves n (List.mem_reverse.mp hn)).2.2.2
    · simp [hne]

/-- Joining to a rooted path. -/
theorem joinPath_rooted {base : String} (hbase : startsWith base "/" = true) (hp : p ≠ "") :
    joinPath base p = clean (base ++ "/" ++ p) ∧ startsWith (base ++ "/" ++ p) "/" = true := by
  have hne : base ≠ "" := by
    rintro rfl
    simp [startsWith] at hbase
  have hparts : [base, p].filter (· ≠ "") = [base, p] := by simp [hne, hp]
  have hjoin : join "/" [base, p] = base ++ "/" ++ p := by simp [join]
  constructor
  · simp only [joinPath, hparts, List.isEmpty_cons, Bool.false_eq_true, if_false]
    rw [hjoin]
  · obtain ⟨c, l, hcl⟩ :=
      List.exists_cons_of_ne_nil
      (show base.toList ≠ [] by simpa [String.toList_eq_nil_iff] using hne)
    simp only [startsWith, String.toList_append, hcl] at hbase ⊢
    simpa [List.isPrefixOf] using hbase

theorem elements_append (base p : String) : elements (base ++ "/" ++ p) =
    (descend (descend [] base) p).reverse := by
  rw [elements, descend, split_append, List.foldl_append]
  rfl

/-- The elements of a path joined to a rooted one. -/
theorem elements_joinPath {base : String} (hbase : startsWith base "/" = true) (hp : p ≠ "") :
    elements (joinPath base p) = (descend (descend [] base) p).reverse := by
  obtain ⟨hjoin, hrooted⟩ := joinPath_rooted hbase hp
  rw [hjoin, elements_clean hrooted, elements_append]

/-- A path may be joined with slashes at its ends or without. -/
theorem joinPath_trimSlashes {base : String} (hbase : startsWith base "/" = true)
    (hp : trimSlashes p ≠ "") :
    joinPath base (trimSlashes p) = joinPath base p := by
  have hne : p ≠ "" := by
    rintro rfl
    exact hp rfl
  obtain ⟨hjoin, hrooted⟩ := joinPath_rooted hbase hp
  obtain ⟨hjoin', hrooted'⟩ := joinPath_rooted hbase hne
  rw [hjoin, hjoin', clean_rooted hrooted, clean_rooted hrooted', elements_append, elements_append,
    descend_trimSlashes]

/-- The elements of a path never climb above where they began, and do not end there. -/
def Confined (p : String) : Prop := settle p ≠ [] ∧ ".." ∉ settle p

instance (p : String) : Decidable (Confined p) := inferInstanceAs (Decidable (_ ∧ _))

theorem Confined.below {base : String} (h : Confined p) (hbase : startsWith base "/" = true)
    (hp : p ≠ "") :
    Below base (joinPath base p) := by
  refine ⟨(settle p).reverse, by simpa using h.1, ?_⟩
  rw [elements_joinPath hbase hp, descend_append h.2, List.reverse_append]
  rfl

/-- There is always another name. -/
theorem exists_leaf_not_mem (l : List String) : ∃ n, Leaf n ∧ n ∉ l := by
  let n := String.ofList (List.replicate ((l.map (·.toList.length)).sum + 3) 'b')
  have hlength : n.toList.length = (l.map (·.toList.length)).sum + 3 := by simp [n]
  have hne : ∀ m : String, m.toList.length ≤ 2 → n ≠ m := by
    rintro m hm rfl
    omega
  refine ⟨n, ⟨hne _ (by decide), hne _ (by decide), hne _ (by decide), by simp [n]⟩, fun hmem => ?_⟩
  have hle : n.toList.length ≤ (l.map (·.toList.length)).sum :=
    List.le_sum_of_mem (List.mem_map_of_mem hmem)
  omega

/-- A path that lies below whatever it is joined to is confined. -/
theorem Confined.of_below (hp : p ≠ "")
    (h : ∀ base, startsWith base "/" = true → Below base (joinPath base p)) : Confined p := by
  obtain ⟨n, hn, hfresh⟩ := exists_leaf_not_mem (split '/' p)
  have hrooted : startsWith ("/" ++ n) "/" = true := by
    simp [startsWith, List.isPrefixOf]
  have hbase : descend [] ("/" ++ n) = [n] := by
    have hsplit : split '/' (join "/" [n]) = [n] := split_join (by simpa using hn.2.2.2) (by simp)
    rw [show join "/" [n] = n by simp [join]] at hsplit
    rw [descend, foldl_split_slash, hsplit]
    simp [cleanStep, hn.1, hn.2.1, hn.2.2.1]
  obtain ⟨rest, hrest, helems⟩ := h _ hrooted
  rw [elements_joinPath hrooted hp, elements, hbase] at helems
  have hclimbs : ".." ∉ settle p := by
    intro hmem
    have hlost := not_mem_of_climbs hn.2.2.1 (List.not_mem_nil) hfresh List.not_mem_nil hmem
    have hin : n ∈ (descend [n] p).reverse := by
      rw [helems]
      simp
    exact hlost (List.mem_reverse.mp hin)
  refine ⟨fun hempty => hrest ?_, hclimbs⟩
  rw [descend_append hclimbs, hempty] at helems
  simpa using helems

end SimpleZfsCsi.Library.Text
