import SimpleZfsCsi.Library.Text
import Mathlib.Data.List.TakeWhile

/-!
# Tokens

Cutting a list of characters at separators. The parts hold no separator, and parts that hold none
are read back as they were written.
-/

namespace SimpleZfsCsi.Library.Text

variable {α : Type} {p : α → Bool} {l : List α} {part : List α}

/-- A part has no separator, and nothing that the list does not have. -/
theorem mem_splitOnP (h : part ∈ l.splitOnP p) : ∀ a ∈ part, p a = false ∧ a ∈ l := by
  induction l generalizing part with
  | nil =>
    obtain rfl : part = [] := by simpa using h
    simp
  | cons a l ih =>
    rw [List.splitOnP_cons_eq_if_modifyHead] at h
    split_ifs at h with ha
    · rcases List.mem_cons.mp h with rfl | h
      · simp
      · intro b hb
        obtain ⟨hsep, hmem⟩ := ih h b hb
        exact ⟨hsep, List.mem_cons_of_mem _ hmem⟩
    · obtain ⟨first, rest, hparts⟩ := List.exists_cons_of_ne_nil (List.splitOnP_ne_nil p l)
      rw [hparts] at h ih
      rcases List.mem_cons.mp h with rfl | h
      · refine List.forall_mem_cons.mpr ⟨⟨by simpa using ha, List.mem_cons_self⟩, fun b hb => ?_⟩
        obtain ⟨hsep, hmem⟩ := ih List.mem_cons_self b hb
        exact ⟨hsep, List.mem_cons_of_mem _ hmem⟩
      · intro b hb
        obtain ⟨hsep, hmem⟩ := ih (List.mem_cons_of_mem _ h) b hb
        exact ⟨hsep, List.mem_cons_of_mem _ hmem⟩

theorem mem_takeWhile {a : α} (h : a ∈ l.takeWhile p) : p a = true ∧ a ∈ l :=
  ⟨List.mem_takeWhile_imp h, (List.takeWhile_prefix p).subset h⟩

/-- Parts with a separator before each one. -/
theorem splitOnP_flatMap_before {sep : α} (hsep : p sep = true) (hl : ∀ a ∈ l, p a = false)
    {parts : List (List α)}
    (hparts : ∀ part ∈ parts, ∀ a ∈ part, p a = false) :
    (l ++ parts.flatMap fun part => sep :: part).splitOnP p = l :: parts := by
  induction parts generalizing l with
  | nil => simpa using List.splitOnP_eq_singleton hl
  | cons part rest ih =>
    obtain ⟨hpart, hrest⟩ := List.forall_mem_cons.mp hparts
    rw [List.flatMap_cons, List.cons_append, List.splitOnP_append_cons_of_forall_mem hl sep hsep,
      ih hpart hrest]

/-- Parts with a separator after each one. -/
theorem splitOnP_flatMap_after {sep : α} (hsep : p sep = true) {parts : List (List α)}
    (hparts : ∀ part ∈ parts, ∀ a ∈ part, p a = false) :
    (parts.flatMap fun part => part ++ [sep]).splitOnP p = parts ++ [[]] := by
  induction parts with
  | nil => simp
  | cons part rest ih =>
    obtain ⟨hpart, hrest⟩ := List.forall_mem_cons.mp hparts
    rw [List.flatMap_cons, List.append_assoc, List.singleton_append,
      List.splitOnP_append_cons_of_forall_mem hpart sep hsep, ih hrest, List.cons_append]

theorem mem_intercalate {sep a : α} {parts : List (List α)} (h : a ∈ [sep].intercalate parts) :
    a = sep ∨ ∃ part ∈ parts, a ∈ part := by
  induction parts with
  | nil => simp at h
  | cons part rest ih =>
    cases rest with
    | nil => exact .inr ⟨part, List.mem_cons_self, by simpa using h⟩
    | cons next rest =>
      rw [List.intercalate_cons_cons, List.mem_append, List.mem_append] at h
      rcases h with (h | h) | h
      · exact .inr ⟨part, List.mem_cons_self, h⟩
      · exact .inl (by simpa using h)
      · rcases ih h with rfl | ⟨found, hfound, ha⟩
        · exact .inl rfl
        · exact .inr ⟨found, List.mem_cons_of_mem _ hfound, ha⟩

/-- What has no separator is on one side of it. -/
theorem infix_append_cons {a b : List α} {sep : α} (hsep : sep ∉ part) :
    part <:+: a ++ sep :: b ↔ part <:+: a ∨ part <:+: b := by
  constructor
  · intro h
    rcases List.infix_append_iff.mp h with h | h | ⟨s, t, rfl, hs, ht⟩
    · exact .inl h
    · rcases List.infix_cons_iff.mp h with h | h
      · cases part with
        | nil => exact .inl List.nil_infix
        | cons x part => grind
      · exact .inr h
    · cases t with
      | nil => exact .inl (by simpa using hs.isInfix)
      | cons x t => grind
  · rintro (h | h)
    · exact List.infix_append_of_infix_left h
    · exact List.infix_append_of_infix_right (h.trans (List.suffix_cons sep b).isInfix)

/-- A phrase without a colon is on one side of it. -/
theorem contains_colon {phrase : String} (hcolon : ':' ∉ phrase.toList)
    (hblank : phrase.toList.head? ≠ some ' ')
    (a b : String) : contains (a ++ ": " ++ b) phrase =
    (contains a phrase || contains b phrase) := by
  have hright : phrase.toList <:+: ' ' :: b.toList ↔ phrase.toList <:+: b.toList := by
    rw [List.infix_cons_iff]
    refine or_iff_right_of_imp fun h => ?_
    cases hphrase : phrase.toList with
    | nil => exact List.nil_infix
    | cons c rest => grind
  have h := infix_append_cons (a := a.toList) (b := ' ' :: b.toList) hcolon
  rw [hright] at h
  rw [Bool.eq_iff_iff]
  simpa [contains] using h

end SimpleZfsCsi.Library.Text
