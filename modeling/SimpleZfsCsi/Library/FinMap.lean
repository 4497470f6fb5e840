import Mathlib.Data.List.Basic
import Mathlib.Data.List.Dedup
import Mathlib.Data.List.Nodup
import Mathlib.Data.List.Sort
import Mathlib.Data.String.Basic

/-!
# Finite maps

A finite map is a lookup function with the list of the keys it is defined on. Updates
are updates of the function, so what a lookup answers after them is a `simp` fact; the
list of keys is only there to enumerate the map, in an order nothing may depend on, so
enumerations that matter are sorted.
-/

namespace SimpleZfsCsi.Library

/-- A map defined on finitely many keys. -/
structure FinMap (K V : Type) where
  keys : List K
  lookup : K → Option V
  nodup : keys.Nodup
  mem_keys : ∀ k, k ∈ keys ↔ (lookup k).isSome

namespace FinMap

variable {K V W : Type}

def empty : FinMap K V where
  keys := []
  lookup _ := none
  nodup := List.nodup_nil
  mem_keys := by simp

instance : Inhabited (FinMap K V) := ⟨empty⟩

@[simp] theorem lookup_empty (k : K) : (empty : FinMap K V).lookup k = none := rfl

@[simp] theorem keys_empty : (empty : FinMap K V).keys = [] := rfl

/-- Whether the map is defined at `k`. -/
def contains (m : FinMap K V) (k : K) : Bool := (m.lookup k).isSome

@[simp] theorem contains_eq (m : FinMap K V) (k : K) : m.contains k = (m.lookup k).isSome := rfl

theorem mem_keys_of_lookup {m : FinMap K V} {k : K} {v : V} (h : m.lookup k = some v) :
    k ∈ m.keys := (m.mem_keys k).mpr (by simp [h])

theorem lookup_of_mem_keys {m : FinMap K V} {k : K} (h : k ∈ m.keys) : ∃ v, m.lookup k = some v :=
  Option.isSome_iff_exists.mp ((m.mem_keys k).mp h)

/-- Change every value, keeping the keys. -/
def map (f : K → V → W) (m : FinMap K V) : FinMap K W where
  keys := m.keys
  lookup k := (m.lookup k).map (f k)
  nodup := m.nodup
  mem_keys k := by simp [m.mem_keys]

@[simp] theorem lookup_map (f : K → V → W) (m : FinMap K V) (k : K) :
    (m.map f).lookup k = (m.lookup k).map (f k) := rfl

/-- Keep the entries whose key satisfies `p`. -/
def filterKeys (p : K → Bool) (m : FinMap K V) : FinMap K V where
  keys := m.keys.filter p
  lookup k := if p k then m.lookup k else none
  nodup := m.nodup.filter p
  mem_keys k := by
    by_cases hk : p k <;> simp [hk, m.mem_keys]

@[simp] theorem lookup_filterKeys (p : K → Bool) (m : FinMap K V) (k : K) :
    (m.filterKeys p).lookup k = if p k then m.lookup k else none := rfl

section Update

variable [DecidableEq K]

def insert (m : FinMap K V) (k : K) (v : V) : FinMap K V where
  keys := if k ∈ m.keys then m.keys else k :: m.keys
  lookup i := if i = k then some v else m.lookup i
  nodup := by
    split_ifs with h
    · exact m.nodup
    · exact List.nodup_cons.mpr ⟨h, m.nodup⟩
  mem_keys i := by
    by_cases hi : i = k
    · subst hi
      by_cases h : i ∈ m.keys <;> simp [h]
    · by_cases h : k ∈ m.keys <;> simp [h, hi, m.mem_keys]

@[simp] theorem lookup_insert (m : FinMap K V) (k i : K) (v : V) :
    (m.insert k v).lookup i = if i = k then some v else m.lookup i := rfl

def erase (m : FinMap K V) (k : K) : FinMap K V := m.filterKeys (fun i => i ≠ k)

@[simp] theorem lookup_erase (m : FinMap K V) (k i : K) :
    (m.erase k).lookup i = if i = k then none else m.lookup i := by
  by_cases h : i = k <;> simp [erase, h]

/-- Change the value of one key, if there is one. -/
def modify (m : FinMap K V) (k : K) (f : V → V) : FinMap K V :=
  m.map fun i v => if i = k then f v else v

@[simp] theorem lookup_modify (m : FinMap K V) (k i : K) (f : V → V) :
    (m.modify k f).lookup i = (m.lookup i).map fun v => if i = k then f v else v := rfl

/-- Build a map from its entries; a later entry of a key wins. -/
def ofList : List (K × V) → FinMap K V
  | [] => empty
  | (k, v) :: rest => if (ofList rest).contains k then ofList rest else (ofList rest).insert k v

theorem mem_of_lookup_ofList {l : List (K × V)} {k : K} {v : V} (h : (ofList l).lookup k = some v) :
    (k, v) ∈ l := by
  induction l with
  | nil => cases h
  | cons entry rest ih =>
    simp only [ofList] at h
    split_ifs at h
    · exact List.mem_cons_of_mem _ (ih h)
    · rw [lookup_insert] at h
      split_ifs at h with hk
      · obtain rfl := Option.some.inj h
        exact hk ▸ List.mem_cons_self
      · exact List.mem_cons_of_mem _ (ih h)

/-- No key twice, and every entry counts. -/
theorem lookup_ofList {l : List (K × V)} (hnodup : (l.map (·.1)).Nodup) {k : K} {v : V} :
    (ofList l).lookup k = some v ↔ (k, v) ∈ l := by
  refine ⟨mem_of_lookup_ofList, fun hmem => ?_⟩
  induction l with
  | nil => cases hmem
  | cons entry rest ih =>
    obtain ⟨hnew, hrest⟩ := List.nodup_cons.mp hnodup
    have hnone : (ofList rest).contains entry.1 = false := by
      rw [contains, Option.isSome_eq_false_iff, Option.isNone_iff_eq_none]
      by_contra hne
      obtain ⟨w, hw⟩ := Option.ne_none_iff_exists'.mp hne
      exact hnew (List.mem_map.mpr ⟨_, mem_of_lookup_ofList hw, rfl⟩)
    simp only [ofList, hnone, Bool.false_eq_true, if_false, lookup_insert]
    rcases List.mem_cons.mp hmem with rfl | hmem
    · rw [if_pos rfl]
    · rw [if_neg, ih hrest hmem]
      rintro rfl
      exact hnew (List.mem_map.mpr ⟨_, hmem, rfl⟩)

/-- The map that gives each of the keys its value. -/
def ofKeys (keys : List K) (f : K → V) : FinMap K V where
  keys := keys.dedup
  lookup k := if k ∈ keys then some (f k) else none
  nodup := keys.nodup_dedup
  mem_keys k := by simp

@[simp] theorem lookup_ofKeys (keys : List K) (f : K → V) (k : K) :
    (ofKeys keys f).lookup k = if k ∈ keys then some (f k) else none := rfl

end Update

/-- The values, in the order of the keys. -/
def values (m : FinMap K V) : List V := m.keys.filterMap m.lookup

@[simp] theorem mem_values {m : FinMap K V} {v : V} : v ∈ m.values ↔ ∃ k, m.lookup k = some v := by
  simp only [values, List.mem_filterMap]
  constructor
  · rintro ⟨k, _, hk⟩
    exact ⟨k, hk⟩
  · rintro ⟨k, hk⟩
    exact ⟨k, mem_keys_of_lookup hk, hk⟩

/-- Maps that agree on their keys agree everywhere. -/
theorem lookup_eq_of_keys {m m' : FinMap K V} (hkeys : m.keys = m'.keys)
    (h : ∀ k ∈ m.keys, m.lookup k = m'.lookup k) (k : K) : m.lookup k = m'.lookup k := by
  by_cases hk : k ∈ m.keys
  · exact h k hk
  · have hk' : k ∉ m'.keys := by rwa [← hkeys]
    rw [m.mem_keys, Bool.not_eq_true, Option.isSome_eq_false_iff, Option.isNone_iff_eq_none] at hk
    rw [m'.mem_keys, Bool.not_eq_true, Option.isSome_eq_false_iff, Option.isNone_iff_eq_none] at hk'
    rw [hk, hk']

/-- The keys in ascending order. -/
def sortedKeys (m : FinMap String V) : List String := m.keys.insertionSort (· ≤ ·)

@[simp] theorem mem_sortedKeys {m : FinMap String V} {k : String} :
    k ∈ m.sortedKeys ↔ (m.lookup k).isSome := by
  rw [sortedKeys, List.mem_insertionSort, m.mem_keys]

theorem nodup_sortedKeys (m : FinMap String V) : m.sortedKeys.Nodup :=
  (List.perm_insertionSort _ _).nodup_iff.mpr m.nodup

end FinMap

end SimpleZfsCsi.Library
