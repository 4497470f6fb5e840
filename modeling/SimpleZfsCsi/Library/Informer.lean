import SimpleZfsCsi.Library.FinMap

/-!
# Cached views

A client that watches a keyed collection holds a copy of it. Every write sends the new
version of one key, and the versions of a key arrive in the order they were written, each
at any later time. So what the client sees of a key is some older version of it, never one
that is older than what it saw before.
-/

namespace SimpleZfsCsi.Library

/-- A cached view of a collection. -/
structure Informer (K V : Type) where
  /-- the copies the client holds -/
  seen : FinMap K V
  /-- the versions that have not arrived yet, oldest first; `none` is a removal -/
  pending : K → List (Option V)

namespace Informer

variable {K V : Type} [DecidableEq K] {c : Informer K V} {k j : K} {v : Option V}

/-- A view of a collection that nothing is pending for. -/
def synced (m : FinMap K V) : Informer K V := ⟨m, fun _ => []⟩

/-- The versions of a key from the one the client sees to the last one written. -/
def versions (c : Informer K V) (k : K) : List (Option V) := c.seen.lookup k :: c.pending k

/-- Send the version `v` of a key. -/
def notify (c : Informer K V) (k : K) (v : Option V) : Informer K V :=
  { c with pending := Function.update c.pending k (c.pending k ++ [v]) }

/-- The next version of a key arrives. -/
def deliver (c : Informer K V) (k : K) : Informer K V :=
  match c.pending k with
  | [] => c
  | some v :: rest => ⟨c.seen.insert k v, Function.update c.pending k rest⟩
  | none :: rest => ⟨c.seen.erase k, Function.update c.pending k rest⟩

theorem versions_notify : (c.notify k v).versions j =
    if j = k then c.versions k ++ [v] else c.versions j := by
  by_cases hj : j = k
  · subst hj
    simp [versions, notify]
  · simp [versions, notify, hj]

/-- What arrives was written before. -/
theorem versions_deliver : (c.deliver k).versions j <:+ c.versions j := by
  unfold deliver
  by_cases hj : j = k
  · subst hj
    cases hpending : c.pending j with
    | nil => exact List.suffix_refl _
    | cons v rest =>
      cases v <;> simp [versions, hpending]
  · cases hpending : c.pending k with
    | nil => exact List.suffix_refl _
    | cons v rest => cases v <;> simp [versions, hj]

/-- The copy that arrives. -/
theorem seen_deliver {rest : List (Option V)} (h : c.pending k = v :: rest) :
    (c.deliver k).seen.lookup k = v ∧ (c.deliver k).pending k = rest := by
  unfold deliver
  cases v <;> simp [h]

theorem deliver_of_ne (hj : j ≠ k) :
    (c.deliver k).seen.lookup j = c.seen.lookup j ∧ (c.deliver k).pending j = c.pending j := by
  unfold deliver
  cases h : c.pending k with
  | nil => exact ⟨rfl, rfl⟩
  | cons v rest => cases v <;> simp [hj]

end Informer

end SimpleZfsCsi.Library
