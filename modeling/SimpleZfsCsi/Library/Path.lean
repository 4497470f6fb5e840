import Mathlib.Data.List.DropRight
import SimpleZfsCsi.Library.Tidy

/-!
# Paths that are not tidy

`clean` puts the elements of a path on a stack. What it leaves there is `Settled`: elements
that mean something, and ".." only where nothing can be taken back. A settled path is clean,
and so the directory of `joinPath p n` is the cleaned `p`, whatever `p` is, as long as `n` is
an element that stays.
-/

namespace SimpleZfsCsi.Library.Text

variable {p n elem : String} {stack elems : List String}

/-- An element of a path that is neither dropped nor takes another one back. -/
def Leaf (n : String) : Prop := n ≠ "" ∧ n ≠ "." ∧ n ≠ ".." ∧ '/' ∉ n.toList

instance (n : String) : Decidable (Leaf n) := inferInstanceAs (Decidable (_ ∧ _))

/-- What `clean` leaves of a path that is not rooted, the last element first. -/
inductive Settled : List String → Prop where
  | nil : Settled []
  | back {stack : List String} (h : Settled stack) (hback : ∀ elem ∈ stack, elem = "..") :
      Settled (".." :: stack)
  | leaf {n : String} {stack : List String} (h : Settled stack) (hn : Leaf n) : Settled (n :: stack)

theorem Settled.no_slash (h : Settled stack) : ∀ elem ∈ stack, '/' ∉ elem.toList := by
  induction h with
  | nil => simp
  | back _ _ ih => exact List.forall_mem_cons.mpr ⟨by decide, ih⟩
  | leaf _ hn ih => exact List.forall_mem_cons.mpr ⟨hn.2.2.2, ih⟩

theorem Settled.ne_empty (h : Settled stack) : ∀ elem ∈ stack, elem ≠ "" := by
  induction h with
  | nil => simp
  | back _ _ ih => exact List.forall_mem_cons.mpr ⟨by decide, ih⟩
  | leaf _ hn ih => exact List.forall_mem_cons.mpr ⟨hn.1, ih⟩

theorem Settled.step (h : Settled stack) (helem : '/' ∉ elem.toList) :
    Settled (cleanStep false stack elem) := by
  unfold cleanStep
  by_cases hdropped : elem = "" ∨ elem = "."
  · rwa [if_pos hdropped]
  rw [if_neg hdropped]
  by_cases hback : elem = ".."
  · rw [if_pos hback]
    cases h with
    | nil => exact .back .nil (by simp)
    | back h hback' => exact .back (.back h hback') (List.forall_mem_cons.mpr ⟨rfl, hback'⟩)
    | leaf h hn => simpa [hn.2.2.1] using h
  · rw [if_neg hback]
    push Not at hdropped
    exact .leaf h ⟨hdropped.1, hdropped.2, hback, helem⟩

theorem Settled.foldl (h : Settled stack) (helems : ∀ elem ∈ elems, '/' ∉ elem.toList) :
    Settled (elems.foldl (cleanStep false) stack) := by
  induction elems generalizing stack with
  | nil => exact h
  | cons elem rest ih =>
    obtain ⟨helem, hrest⟩ := List.forall_mem_cons.mp helems
    exact ih (h.step helem) hrest

/-- Settled elements are put on the stack as they are. -/
theorem Settled.foldl_reverse (h : Settled stack) :
    stack.reverse.foldl (cleanStep false) [] = stack := by
  induction h with
  | nil => rfl
  | @back stack h hback ih =>
    rw [List.reverse_cons, List.foldl_append, ih]
    cases stack with
    | nil => rfl
    | cons top rest => simp [cleanStep, hback top List.mem_cons_self]
  | leaf h hn ih =>
    rw [List.reverse_cons, List.foldl_append, ih]
    simp [cleanStep, hn.1, hn.2.1, hn.2.2.1]

theorem split_no_slash (s : String) : ∀ elem ∈ split '/' s, '/' ∉ elem.toList := by
  have hchars : ∀ l : List Char, ∀ part ∈ l.splitOn '/', '/' ∉ part := by
    intro l
    induction l with
    | nil => simp
    | cons c l ih =>
      rw [List.splitOn_cons_eq_if_modifyHead]
      obtain ⟨part, parts, hparts⟩ := List.exists_cons_of_ne_nil (List.splitOn_ne_nil '/' l)
      rw [hparts] at ih ⊢
      obtain ⟨hpart, hrest⟩ := List.forall_mem_cons.mp ih
      split_ifs with hc
      · exact List.forall_mem_cons.mpr ⟨by simp, ih⟩
      · refine List.forall_mem_cons.mpr ⟨?_, hrest⟩
        have hne : '/' ≠ c := by
          rintro rfl
          simp at hc
        simp [hne, hpart]
  intro elem helem
  obtain ⟨l, hl, rfl⟩ := List.mem_map.mp helem
  simpa using hchars _ l hl

/-- The elements that are left of a path, the last one first. -/
def settle (p : String) : List String := (split '/' p).foldl (cleanStep false) []

theorem settled_settle (p : String) : Settled (settle p) := Settled.nil.foldl (split_no_slash p)

theorem clean_eq (hp : startsWith p "/" = false) :
    clean p = if settle p = [] then "." else join "/" (settle p).reverse := by
  by_cases hempty : settle p = []
  · rw [if_pos hempty]
    unfold settle at hempty
    simp [clean, hp, hempty]
  · rw [if_neg hempty]
    unfold settle at hempty ⊢
    simp [clean, hp, hempty]

/-- A settled path is clean, also with a slash at its end. -/
theorem settle_join (h : Settled stack) : settle (join "/" stack.reverse ++ "/") = stack := by
  cases hstack : stack with
  | nil => rfl
  | cons top rest =>
    have hne : stack.reverse ≠ [] := by simp [hstack]
    have hslash : join "/" stack.reverse ++ "/" = join "/" (stack.reverse ++ [""]) := by
      rw [join_append hne, String.append_empty]
    rw [← hstack, settle, hslash, split_join _ (by simp), List.foldl_append, h.foldl_reverse]
    · simp [cleanStep]
    · intro elem helem
      rcases List.mem_append.mp helem with helem | helem
      · exact h.no_slash elem (List.mem_reverse.mp helem)
      · rw [List.mem_singleton.mp helem]
        simp

theorem not_rooted_of_settled (h : Settled stack) (hne : stack ≠ []) (t : String) :
    startsWith (join "/" stack.reverse ++ t) "/" = false := by
  obtain ⟨first, rest, hfirst⟩ := List.exists_cons_of_ne_nil (List.reverse_ne_nil_iff.mpr hne)
  have hmem : first ∈ stack := by
    rw [← List.mem_reverse, hfirst]
    exact List.mem_cons_self
  obtain ⟨c, l, hcl⟩ := List.exists_cons_of_ne_nil
    (show first.toList ≠ [] by simpa [String.toList_eq_nil_iff] using h.ne_empty first hmem)
  have hc : '/' ≠ c := by
    rintro rfl
    exact h.no_slash first hmem (by rw [hcl]; exact List.mem_cons_self)
  have hstart : ∃ l', (join "/" (first :: rest) ++ t).toList = c :: l' := by
    cases rest with
    | nil => exact ⟨l ++ t.toList, by simp [join, hcl]⟩
    | cons m rest => exact ⟨_, by simp [join, hcl]; rfl⟩
  obtain ⟨l', hl'⟩ := hstart
  rw [hfirst]
  simp [startsWith, hl', List.isPrefixOf, hc]

/-- An element that stays is put on the stack. -/
theorem Leaf.foldl (hn : Leaf n) (stack : List String) :
    (split '/' n).foldl (cleanStep false) stack = n :: stack := by
  have hsplit : split '/' (join "/" [n]) = [n] := split_join (by simpa using hn.2.2.2) (by simp)
  rw [show join "/" [n] = n by simp [join]] at hsplit
  simp [hsplit, cleanStep, hn.1, hn.2.1, hn.2.2.1]

/-- The path of an element that stays is the cleaned path it was joined to, and the element. -/
theorem joinPath_leaf (hp : p ≠ "") (hrooted : startsWith p "/" = false) (hn : Leaf n) :
    joinPath p n = join "/" (n :: settle p).reverse := by
  have hparts : [p, n].filter (· ≠ "") = [p, n] := by simp [hp, hn.1]
  have hjoin : join "/" [p, n] = p ++ "/" ++ n := by simp [join]
  have hrooted' : startsWith (p ++ "/" ++ n) "/" = false := by
    obtain ⟨c, l, hcl⟩ := List.exists_cons_of_ne_nil
      (show p.toList ≠ [] by simpa [String.toList_eq_nil_iff] using hp)
    simp only [startsWith, String.toList_append, hcl] at hrooted ⊢
    simpa [List.isPrefixOf] using hrooted
  have hsettle : settle (p ++ "/" ++ n) = n :: settle p := by
    rw [settle, split_append, List.foldl_append, hn.foldl, settle]
  simp only [joinPath, hparts, List.isEmpty_cons, Bool.false_eq_true, if_false]
  rw [hjoin, clean_eq hrooted', hsettle, if_neg (by simp)]

/-- The directory of such a path. -/
theorem dir_joinPath (hp : p ≠ "") (hrooted : startsWith p "/" = false) (hn : Leaf n) :
    dir (joinPath p n) = clean p := by
  rw [joinPath_leaf hp hrooted hn, clean_eq hrooted]
  split_ifs with hempty
  · rw [hempty]
    simp [join, dir, cutLast_leaf hn.2.2.2]
  · have hsettled := settled_settle p
    rw [List.reverse_cons, join_append (by simpa using hempty), dir, cutLast_append hn.2.2.2]
    show clean (join "/" (settle p).reverse ++ "/") = _
    rw [clean_eq (not_rooted_of_settled hsettled hempty "/"), settle_join hsettled, if_neg hempty]

/-! ## Trimming -/

theorem head_dropWhile {p : Char → Bool} {l : List Char} {c : Char}
    (h : (l.dropWhile p).head? = some c) :
    p c = false := by
  induction l with
  | nil => simp at h
  | cons d l ih => grind [List.dropWhile_cons]

theorem last_trimWhere {p : Char → Bool} {s : String} {c : Char}
    (h : (trimWhere p s).toList.getLast? = some c) :
    p c = false := by
  rw [trimWhere, String.toList_ofList, List.getLast?_reverse] at h
  exact head_dropWhile h

theorem head_trimWhere {p : Char → Bool} {s : String} {c : Char}
    (h : (trimWhere p s).toList.head? = some c) :
    p c = false := by
  rw [trimWhere, String.toList_ofList] at h
  -- what is dropped at the end leaves a prefix
  have hpre : ((s.toList.dropWhile p).reverse.dropWhile p).reverse <+: s.toList.dropWhile p :=
    List.rdropWhile_prefix p _
  obtain ⟨rest, hrest⟩ := hpre
  apply head_dropWhile (l := s.toList)
  rw [← hrest, List.head?_append, h]
  rfl

theorem trimWhere_idem (p : Char → Bool) (s : String) : trimWhere p (trimWhere p s) =
    trimWhere p s :=
  trimWhere_eq (fun _ => head_trimWhere) fun _ => last_trimWhere

theorem not_rooted_iff {s : String} : startsWith s "/" = false ↔ s.toList.head? ≠ some '/' := by
  cases h : s.toList with
  | nil => simp [startsWith, h]
  | cons c l => grind [startsWith, List.isPrefixOf]

theorem trimSlashes_not_rooted (s : String) : startsWith (trimSlashes s) "/" = false := by
  rw [not_rooted_iff]
  intro h
  simpa using head_trimWhere h

theorem trimSlashes_of_no_slash {s : String} (hs : '/' ∉ s.toList) : trimSlashes s = s := by
  refine trimWhere_eq (fun c hc => ?_) fun c hc => ?_
  · have hmem := List.mem_of_head? hc
    grind
  · have hmem := List.mem_of_getLast? hc
    grind

/-- Nothing is trimmed from such a path either. -/
theorem trimSlashes_joinPath (hp : p ≠ "") (hrooted : startsWith p "/" = false) (hn : Leaf n) :
    trimSlashes (joinPath p n) = joinPath p n := by
  have hsettled : Settled (n :: settle p) := .leaf (settled_settle p) hn
  rw [joinPath_leaf hp hrooted hn]
  refine trimWhere_eq (fun c hc => ?_) fun c hc => ?_
  · have hhead := not_rooted_iff.mp (not_rooted_of_settled hsettled (by simp) "")
    rw [String.append_empty] at hhead
    grind
  · have hmem : c ∈ n.toList := by
      have hn' : n.toList ≠ [] := by simpa [String.toList_eq_nil_iff] using hn.1
      by_cases hempty : settle p = []
      · rw [hempty] at hc
        exact List.mem_of_getLast? (by simpa [join] using hc)
      · rw [List.reverse_cons, join_append (by simpa using hempty), String.toList_append,
          List.getLast?_append_of_ne_nil _ hn'] at hc
        exact List.mem_of_getLast? hc
    have hslash := hn.2.2.2
    grind

/-- From the exclamation mark to the tilde. -/
theorem isSpace_visible {c : Char} (h : 33 ≤ c.toNat) (h' : c.toNat ≤ 126) : isSpace c = false := by
  rw [Bool.eq_false_iff]
  intro hs
  simp only [isSpace, Bool.or_eq_true, decide_eq_true_eq, List.mem_cons, List.not_mem_nil, or_false,
    Bool.and_eq_true] at hs
  rcases hs with
    (rfl | rfl | rfl | rfl | rfl | rfl | rfl | rfl | rfl | rfl | rfl | rfl | rfl | rfl) | ⟨hs, -⟩
  all_goals first | exact absurd h (by decide) | exact absurd h' (by decide) | skip
  have hle : '\u2000'.toNat ≤ c.toNat := hs
  have hvalue : '\u2000'.toNat = 8192 := by decide
  omega

theorem isSpace_toLower (c : Char) : isSpace c.toLower = isSpace c := by
  unfold Char.toLower
  split_ifs with hupper
  · have hlo : 65 ≤ c.toNat := hupper.1
    have hhi : c.toNat ≤ 90 := hupper.2
    have hadd : (c.val + ('a'.val - 'A'.val)).toNat = c.toNat + 32 := by
      have hdiff : ('a'.val - 'A'.val).toNat = 32 := by decide
      have hc : c.val.toNat = c.toNat := rfl
      rw [UInt32.toNat_add, hdiff, hc]
      omega
    have hc : isSpace c = false := isSpace_visible (by omega) (by omega)
    rw [hc, isSpace_visible]
    · show 33 ≤ (c.val + ('a'.val - 'A'.val)).toNat
      omega
    · show (c.val + ('a'.val - 'A'.val)).toNat ≤ 126
      omega
  · rfl

theorem isSpace_lowerChar (c : Char) : isSpace (lowerChar c) = isSpace c := by
  unfold lowerChar
  split_ifs with hkelvin hdotted
  · rw [hkelvin]
    decide
  · rw [hdotted]
    decide
  · exact isSpace_toLower c

theorem trimWhere_map {p : Char → Bool} {f : Char → Char} (hf : ∀ c, p (f c) = p c) (s : String) :
    trimWhere p (String.ofList (s.toList.map f)) =
      String.ofList ((trimWhere p s).toList.map f) := by
  have hcomp : p ∘ f = p := funext hf
  simp only [trimWhere, String.toList_ofList, List.dropWhile_map, hcomp, ← List.map_reverse]

/-- Letters in lower case have the same blanks around them. -/
theorem trimSpace_toLower (s : String) : trimSpace (toLower s) = toLower (trimSpace s) :=
  trimWhere_map isSpace_lowerChar s

end SimpleZfsCsi.Library.Text
