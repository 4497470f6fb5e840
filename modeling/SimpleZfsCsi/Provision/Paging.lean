import SimpleZfsCsi.Library.Decimal
import SimpleZfsCsi.Provision.Snapshot
import Mathlib.Data.List.Sort
import Mathlib.Order.Basic

/-!
# Listing snapshots, page by page

`ListSnapshots` sorts the snapshots of a source by name and returns a part of them; its token is the
position where the next part begins. A caller follows the tokens, with a page size of its choice on
each call, and the API server lists the same snapshots in any order.
-/

namespace SimpleZfsCsi.Provision

open Library Api Program Text

/-! ## The call -/

inductive ListCall where
  | getSnapshot (name : String)
  | listSnapshots

@[reducible] def ListCall.Val : ListCall → Type
  | .getSnapshot _ => ZfsSnapshot
  | .listSnapshots => List ZfsSnapshot

abbrev ListCall.Ret (e : ListCall) : Type := Except Err e.Val

abbrev ListProc := Proc ListCall ListCall.Ret Status

structure ListSnapshotsRequest where
  snapshotID : String := ""
  sourceVolumeID : String := ""
  maxEntries : Int := 0
  startingToken : String := ""

structure ListSnapshotsResponse where
  entries : List SnapshotMessage := []
  nextToken : String := ""
  deriving DecidableEq

/-- The snapshots of a source, or all of them, by name. -/
def matching (source : String) (list : List ZfsSnapshot) : List ZfsSnapshot :=
  (list.filter fun snap => source = "" ∨ snap.spec.sourceVolume = source).mergeSort fun a
    b => a.name ≤ b.name

/-- The position that a token stands for. -/
def position (token : String) (length : Nat) : Except Status Nat :=
  if token = "" then .ok 0
  else
    let n := parseInt token
    if n.2 = false ∨ n.1 < 0 ∨ n.1 > length then
      .error ⟨.aborted, "invalid starting_token " ++ Err.quoted token⟩
    else .ok n.1.toNat

/-- The part of the sorted snapshots from `start` on that a page holds. -/
def page (items : List ZfsSnapshot) (start : Nat) (max : Int) : ListSnapshotsResponse :=
  let stop := if max > 0 ∧ start + max < items.length then start + max.toNat else items.length
  { entries := ((items.drop start).take (stop - start)).map snapshotMessage
    nextToken := if stop < items.length then toString stop else "" }

/-- `ListSnapshots`. -/
def listSnapshots (req : ListSnapshotsRequest) : ListProc ListSnapshotsResponse := do
  if req.snapshotID ≠ "" then
    match ← (Proc.ask (ListCall.getSnapshot req.snapshotID) id).outcome with
    | .error e =>
      if e.isNotFound then return {} else throw (internal "get ZfsSnapshot" req.snapshotID e)
    | .ok snap => return { entries := [snapshotMessage snap] }
  else
    let list ← Proc.ask ListCall.listSnapshots fun e :
      Err => (⟨.internal, "list ZfsSnapshots: " ++ e.message⟩ : Status)
    let items := matching req.sourceVolumeID list
    match position req.startingToken items.length with
    | .error status => throw status
    | .ok start => return page items start req.maxEntries

/-! ## Following the tokens -/

/-- Call after call, until there is no next token; the result is missing if there is one after so
many calls. -/
def follow (source : String) (max : Nat → Int) : Nat → Nat → String →
    ListProc (Option (List SnapshotMessage))
  | 0, _, _ => return none
  | calls + 1, k, token => do
    let resp ← listSnapshots
      { sourceVolumeID := source, maxEntries := max k, startingToken := token }
    if resp.nextToken = "" then return some resp.entries
    else
      let rest ← follow source max calls (k + 1) resp.nextToken
      return rest.map (resp.entries ++ ·)

section Follow

variable {σ : Type} {h : (e : ListCall) → σ → e.Ret × σ} {set : List ZfsSnapshot}

/-- The set stays as it is: each listing returns it, in some order. -/
def Lists (h : (e : ListCall) → σ → e.Ret × σ) (set : List ZfsSnapshot) : Prop :=
  ∀ s, ∃ list, (h .listSnapshots s).1 = .ok list ∧ list.Perm set

theorem matching_perm (source : String) (list : List ZfsSnapshot) :
    (matching source list).Perm (list.filter fun snap => source = "" ∨
      snap.spec.sourceVolume = source) :=
  List.mergeSort_perm _ _

theorem matching_sorted (source : String) (list : List ZfsSnapshot) :
    (matching source list).Pairwise fun a b => a.name ≤ b.name := by
  have hsorted : (matching source list).Pairwise fun a b => decide (a.name ≤ b.name) = true := by
    refine List.pairwise_mergeSort (fun a b c hab hbc => ?_) (fun a b => ?_) _
    · rw [decide_eq_true_eq] at *
      exact hab.trans hbc
    · rw [Bool.or_eq_true, decide_eq_true_eq, decide_eq_true_eq]
      exact le_total _ _
  simpa using hsorted

/-- Snapshots with names of their own are sorted in one way. -/
theorem matching_eq {list : List ZfsSnapshot}
    (hnames : (set.map (·.name)).Nodup) (hperm : list.Perm set) (source : String) :
    matching source list = matching source set := by
  have hfilter :=
    ((matching_perm source list).trans (hperm.filter _)).trans (matching_perm source set).symm
  refine hfilter.eq_of_pairwise (fun a b ha hb hab hba => ?_) (matching_sorted source list)
    (matching_sorted source set)
  have hmem : ∀ {l : List ZfsSnapshot} {x}, x ∈ matching source l → x ∈ l := by
    intro l x hx
    exact (List.mem_filter.mp ((matching_perm source l).mem_iff.mp hx)).1
  exact List.inj_on_of_nodup_map hnames (hperm.mem_iff.mp (hmem ha)) (hmem hb) (le_antisymm hab hba)

/-- One call, over the set as it is. -/
theorem listSnapshots_exec (hlists : Lists h set)
    (hnames : (set.map (·.name)).Nodup) {source token : String}
    (max : Int) {start : Nat}
    (hstart : position token (matching source set).length = .ok start) (s : σ) :
    ∃ t, (listSnapshots
      { sourceVolumeID := source, maxEntries := max, startingToken := token }).run.exec h s =
      (.ok (page (matching source set) start max), t) := by
  obtain ⟨list, hlist, hperm⟩ := hlists s
  have hask : (Proc.ask ListCall.listSnapshots fun e :
      Err => (⟨.internal, "list ZfsSnapshots: " ++ e.message⟩ : Status) :
      ListProc (List ZfsSnapshot)).run.exec h s = (.ok list, (h .listSnapshots s).2) := by
    rw [Proc.run_ask, exec_call, exec_pure, hlist]
    rfl
  unfold listSnapshots
  rw [if_neg (by simp)]
  refine ⟨(h .listSnapshots s).2, (Proc.exec_bind hask _).trans ?_⟩
  dsimp only
  rw [matching_eq hnames hperm, hstart]
  rfl

theorem position_toString {n length : Nat} (hle : n ≤ length) (hlt : length < 2 ^ 63) :
    position (toString n) length = .ok n := by
  have hne : toString n ≠ "" := toString_ne (by decide) n
  rw [position, if_neg hne, parseInt_toString (by omega)]
  simp
  omega

theorem position_le {token : String} {n length : Nat} (h : position token length = .ok n) :
    n ≤ length := by
  unfold position at h
  dsimp only at h
  split_ifs at h with hempty hinvalid
  · cases h
    omega
  · cases h
    omega

/-- The last page, and one before it. -/
theorem page_cases (items : List ZfsSnapshot) (start : Nat) {max : Int} (hmax : 0 < max) :
    page items start max = { entries := (items.drop start).map snapshotMessage } ∨
    ∃ stop, start < stop ∧ stop < items.length ∧ page items start max =
      { entries := ((items.drop start).take (stop - start)).map snapshotMessage,
        nextToken := toString stop } := by
  unfold page
  by_cases hmore : max > 0 ∧ start + max < items.length
  · right
    refine ⟨start + max.toNat, by omega, by omega, ?_⟩
    rw [if_pos hmore]
    dsimp only
    rw [if_pos (by omega)]
  · left
    rw [if_neg hmore]
    dsimp only
    rw [if_neg (by omega), List.take_of_length_le (by simp)]

/-- What is left of the snapshots from a position on is returned, in at most as many calls and one
more. -/
theorem follow_from (hlists : Lists h set) (hnames : (set.map (·.name)).Nodup) {source : String}
    (hlen : (matching source set).length < 2 ^ 63) {max : Nat → Int} (hmax : ∀ k, 0 < max k)
    {calls k start : Nat}
    {token : String} (hstart : position token (matching source set).length = .ok start)
    (hcalls : (matching source set).length < calls + start) (s : σ) :
    ∃ t, (follow source max calls k token).run.exec h s =
      (.ok (some (((matching source set).drop start).map snapshotMessage)), t) := by
  induction calls generalizing k start token s with
  | zero =>
    have := position_le hstart
    omega
  | succ calls ih =>
    obtain ⟨t, hpage⟩ := listSnapshots_exec hlists hnames (max k) hstart s
    unfold follow
    rw [Proc.exec_bind hpage]
    obtain hlast | ⟨stop, hlt, hstop, hnext⟩ := page_cases (matching source set) start (hmax k)
    · rw [hlast, if_pos rfl]
      exact ⟨t, rfl⟩
    · have htoken : toString stop ≠ "" := toString_ne (by decide) stop
      obtain ⟨u, hrest⟩ := ih (k := k + 1) (position_toString hstop.le hlen) (by omega) t
      have hdrop : (matching source set).drop stop =
          ((matching source set).drop start).drop (stop - start) := by
        rw [List.drop_drop, Nat.add_sub_cancel' hlt.le]
      have hsplit : (((matching source set).drop start).take (stop - start)).map snapshotMessage ++
          ((matching source set).drop stop).map snapshotMessage =
            ((matching source set).drop start).map snapshotMessage := by
        rw [hdrop, ← List.map_append, List.take_append_drop]
      rw [hnext, if_neg htoken, Proc.exec_bind hrest]
      exact ⟨u, congrArg (fun l => (Except.ok (some l), u)) hsplit⟩

/-- Following the tokens over a set of snapshots that stays as it is returns those of the source,
each once and by name, in at most one call more than there are. -/
theorem follow_complete (hlists : Lists h set)
    (hnames : (set.map (·.name)).Nodup) (hlen : set.length < 2 ^ 63)
    (source : String) {max : Nat → Int} (hmax : ∀ k, 0 < max k) (s : σ) :
    ∃ (snaps : List ZfsSnapshot) (t : σ), (follow source max (set.length + 1) 0 "").run.exec h s =
      (.ok (some (snaps.map snapshotMessage)), t) ∧
      snaps.Perm (set.filter fun snap => source = "" ∨ snap.spec.sourceVolume = source) ∧
      snaps.Pairwise fun a b => a.name < b.name := by
  have hperm := matching_perm source set
  have hlength : (matching source set).length ≤ set.length := by
    rw [hperm.length_eq]
    exact List.length_filter_le _ _
  have hzero : position "" (matching source set).length = .ok 0 := rfl
  have hfollow : ∃ t, (follow source max (set.length + 1) 0 "").run.exec h s =
      (.ok (some ((matching source set).map snapshotMessage)), t) :=
    follow_from hlists hnames (by omega) hmax hzero (by omega) s
  obtain ⟨t, hexec⟩ := hfollow
  refine ⟨matching source set, t, hexec, hperm, ?_⟩
  -- sorted, and no two of them share a name
  have hnodup : ((matching source set).map (·.name)).Nodup :=
    ((hperm.map _).nodup_iff).mpr (hnames.sublist (List.filter_sublist.map _))
  have hne : (matching source set).Pairwise fun a b => a.name ≠ b.name :=
    List.pairwise_map.mp hnodup
  exact (matching_sorted source set).imp₂ (fun a b hle hne => lt_of_le_of_ne hle hne) hne

end Follow

/-- A snapshot of `pvc`. -/
def listedSnapshot (name : String) : ZfsSnapshot where
  metadata := { name }
  spec := { poolGUID := "7", dataset := "pvc", snapshotName := name, sourceVolume := "pvc" }
  status := {}

/-- An API server that lists two snapshots. -/
def twoListed : (e : ListCall) → Unit → e.Ret × Unit
  | .getSnapshot name, s => (.error (.notFound name), s)
  | .listSnapshots, s => (.ok [listedSnapshot "b", listedSnapshot "a"], s)

theorem follow_complete_two : ∃ (snaps : List ZfsSnapshot) (t : Unit),
    (follow "pvc" (fun _ => 1) 3 0 "").run.exec twoListed
    () = (.ok (some (snaps.map snapshotMessage)), t) ∧
      snaps.Perm ([listedSnapshot "b", listedSnapshot "a"].filter
        fun snap => "pvc" = "" ∨ snap.spec.sourceVolume = "pvc") ∧
      snaps.Pairwise fun a b => a.name < b.name := by
  have hlists : Lists twoListed [listedSnapshot "b", listedSnapshot "a"] :=
    fun _ => ⟨_, rfl, .refl _⟩
  exact follow_complete hlists (by decide) (by decide) "pvc" (fun _ => by decide) ()

end SimpleZfsCsi.Provision
