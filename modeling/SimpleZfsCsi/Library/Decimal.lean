import Mathlib
import SimpleZfsCsi.Library.Path

/-!
# Numbers as text

A number that is written out is read back, with nothing to trim.
-/

namespace SimpleZfsCsi.Library.Text

variable {n : Nat}

theorem isDigit_toString {c : Char} (hc : c ∈ (toString n).toList) : c.isDigit = true := by
  rw [Nat.toString_eq_ofList_toDigits, String.toList_ofList] at hc
  exact Nat.isDigit_of_mem_toDigits (by omega) (by omega) hc

theorem digits?_toString (n : Nat) : digits? (toString n).toList = some n := by
  have hlist : (toString n).toList = Nat.toDigits 10 n := by
    rw [Nat.toString_eq_ofList_toDigits, String.toList_ofList]
  have hall : (toString n).toList.all Char.isDigit = true :=
    List.all_eq_true.mpr fun c hc => isDigit_toString hc
  have hne : (toString n).toList.isEmpty = false := by
    rw [hlist, List.isEmpty_eq_false_iff]
    exact Nat.toDigits_ne_nil
  have hvalue : (toString n).toList.foldl (fun n c => n * 10 + (c.toNat - '0'.toNat)) 0 = n := by
    have hfold := Nat.ofDigitChars_ten_toDigits (n := n)
    rw [Nat.ofDigitChars_eq_foldl, ← hlist] at hfold
    simpa [Nat.mul_comm] using hfold
  rw [digits?, if_neg, hvalue]
  rw [hne, hall]
  simp

/-- A sign is no digit. -/
theorem head_toString {c : Char} (hc : c.isDigit = false) : (toString n).toList.head? ≠ some c := by
  intro hhead
  rw [isDigit_toString (List.mem_of_mem_head? hhead)] at hc
  cases hc

theorem parseInt_toString (hn : n < 2 ^ 63) : parseInt (toString n) = ((n : Int), true) := by
  unfold parseInt
  split
  · rename_i heq
    exact absurd (by rw [heq]; rfl) (head_toString (n := n) (c := '-') (by decide))
  · rw [if_neg (head_toString (by decide)), digits?_toString]
    exact if_pos hn

theorem isSpace_of_isDigit {c : Char} (hc : c.isDigit = true) : isSpace c = false := by
  simp only [Char.isDigit, Bool.and_eq_true, decide_eq_true_eq] at hc
  have hlo : 48 ≤ c.toNat := hc.1
  have hhi : c.toNat ≤ 57 := hc.2
  exact isSpace_visible (by omega) (by omega)

theorem trimSpace_toString (n : Nat) : trimSpace (toString n) = toString n := by
  refine trimWhere_eq (fun c hc => ?_) fun c hc => ?_
  · exact isSpace_of_isDigit (isDigit_toString (List.mem_of_mem_head? hc))
  · exact isSpace_of_isDigit (isDigit_toString (List.mem_of_getLast? hc))

/-- What is written out is no word. -/
theorem toString_ne {s : String} (hs : digits? s.toList = none) (n : Nat) : toString n ≠ s := by
  rintro rfl
  rw [digits?_toString] at hs
  cases hs

theorem eq_of_toString_eq {s : String} {k : Nat} (hs : digits? s.toList = some k)
    (h : toString n = s) : n = k := by
  rw [← h, digits?_toString] at hs
  exact Option.some.inj hs

/-- A sign, if any, and digits. -/
def number? (s : String) : Option Nat :=
  digits? (if s.toList.head? = some '+' then s.toList.tail else s.toList)

theorem digits?_minus (l : List Char) : digits? ('-' :: l) = none := by
  simp [digits?]

theorem parseInt_minus {s : String} {rest : List Char} (h : s.toList = '-' :: rest) :
    parseInt s = match digits? rest with
      | none => (0, false)
      | some n => if n ≤ 2 ^ 63 then (-(n : Int), true) else (-(2 ^ 63 : Int), false) := by
  unfold parseInt
  rw [h]
  rfl

theorem parseInt_plain {s : String} (h : s.toList.head? ≠ some '-') :
    parseInt s = match number? s with
      | none => (0, false)
      | some n => if n < 2 ^ 63 then ((n : Int), true) else ((2 ^ 63 - 1 : Int), false) := by
  unfold parseInt number?
  split
  · rename_i rest heq
    exact absurd (by rw [heq]; rfl) h
  · rfl

/-- What `parseInt` makes of a text that is a positive number, and of one that is not. -/
theorem parseInt_cases (s : String) :
    (∃ k, number? s = some k ∧ parseInt s = if k < 2 ^ 63 then ((k : Int), true) else
      ((2 ^ 63 - 1 : Int), false)) ∨
    (number? s = none ∧ ((parseInt s).2 = false ∨ (parseInt s).1 ≤ 0)) := by
  by_cases hminus : s.toList.head? = some '-'
  · obtain ⟨rest, hrest⟩ : ∃ rest, s.toList = '-' :: rest := List.head?_eq_some_iff.mp hminus
    refine .inr ⟨?_, ?_⟩
    · rw [number?, hrest, if_neg (by simp)]
      exact digits?_minus rest
    · rw [parseInt_minus hrest]
      cases digits? rest with
      | none => exact .inl rfl
      | some n =>
        dsimp only
        split_ifs
        · exact .inr (by simp)
        · exact .inl rfl
  · rw [parseInt_plain hminus]
    cases hnumber : number? s with
    | none => exact .inr ⟨rfl, .inl rfl⟩
    | some k => exact .inl ⟨k, rfl, rfl⟩

theorem toList_negSucc (k : Nat) : (toString (Int.negSucc k)).toList = '-' ::
    (toString (k + 1)).toList := by
  show ("-" ++ toString (k + 1)).toList = _
  rw [String.toList_append]
  rfl

/-- An integer that is written out is read back. -/
theorem parseInt_int {n : Int} (hlo : -2 ^ 63 ≤ n) (hhi : n < 2 ^ 63) : parseInt (toString n) =
    (n, true) := by
  cases n with
  | ofNat k =>
    have hk : (k : Int) < 2 ^ 63 := hhi
    exact parseInt_toString (by omega)
  | negSucc k =>
    have hle : k + 1 ≤ 2 ^ 63 := by omega
    rw [parseInt_minus (toList_negSucc k), digits?_toString]
    exact if_pos hle

theorem trimSpace_int (n : Int) : trimSpace (toString n) = toString n := by
  cases n with
  | ofNat k => exact trimSpace_toString k
  | negSucc k =>
    have hmem : ∀ c ∈ (toString (Int.negSucc k)).toList, isSpace c = false := by
      intro c hc
      rw [toList_negSucc] at hc
      rcases List.mem_cons.mp hc with rfl | hc
      · decide
      · exact isSpace_of_isDigit (isDigit_toString hc)
    exact trimWhere_eq (fun c hc => hmem c (List.mem_of_mem_head? hc)) fun c hc => hmem c
      (List.mem_of_getLast? hc)

end SimpleZfsCsi.Library.Text
