import SimpleZfsCsi.Expand.Growth
import Mathlib.Algebra.Order.Ring.Int
import Mathlib.Order.Bounds.Basic

/-!
# The arithmetic of zvol sizes

A zvol is sized to the least multiple of its block that is not below what was asked for. The agent
computes it in 64-bit integers, which is exact as long as that multiple fits.
-/

namespace SimpleZfsCsi.Expand

open Library Api Agent Memzfs Program Text

/-! ## The block that a text denotes -/

/-- The size in bytes that a text denotes, if it is a positive one: digits, and a unit or none, in
upper or lower case and with blanks around them. -/
def denoted (s : String) : Option Nat :=
  let s := trimSpace (toLower s)
  match s.toList.reverse with
  | [] => none
  | c :: front =>
    let (mult, digits) : Nat × String :=
      if c = 'k' then (1024, String.ofList front.reverse)
      else if c = 'm' then (1024 * 1024, String.ofList front.reverse)
      else if c = 'g' then (1024 * 1024 * 1024, String.ofList front.reverse)
      else (1, s)
    ((number? (trimSpace digits)).map (· * mult)).filter (· ≠ 0)

/-- The block of a zvol: what the text denotes, or 16 KiB. -/
def blockSize (s : String) : Nat := (denoted s).getD 16384

theorem blockSize_pos (s : String) : 0 < blockSize s := by
  unfold blockSize
  cases h : denoted s with
  | none => decide
  | some n =>
    unfold denoted at h
    dsimp only at h
    split at h
    · cases h
    · have hne := (Option.filter_eq_some_iff.mp h).2
      simpa [Nat.pos_iff_ne_zero] using hne

/-- What is read of digits and their unit. -/
def scaled (digits : String) (mult : Nat) : Nat :=
  (((number? (trimSpace digits)).map (· * mult)).filter (· ≠ 0)).getD 16384

theorem scaled_eq {p : Int × String} {q : Nat × String} (hunit : p.1 = q.1) (htext : p.2 = q.2)
    (hpos : 0 < q.1)
    (h : scaled q.2 q.1 < 2 ^ 63) :
    (if (parseInt (trimSpace p.2)).2 = false ∨ (parseInt (trimSpace p.2)).1 ≤ 0 then 16384
      else ((parseInt (trimSpace p.2)).1 * p.1).bmod (2 ^ 64)) =
        ((scaled q.2 q.1 : Nat) : Int) := by
  obtain ⟨mult, digits⟩ := q
  rw [hunit, htext]
  dsimp only at hpos h ⊢
  unfold scaled at h ⊢
  obtain ⟨k, hnumber, hparse⟩ | ⟨hnumber, herror⟩ := parseInt_cases (trimSpace digits)
  · rcases Nat.eq_zero_or_pos k with rfl | hk
    · rw [hparse, hnumber]
      simp [Option.filter_some]
    · have hne : k * mult ≠ 0 := (Nat.mul_pos hk hpos).ne'
      have hvalue : ((((some k).map (· * mult)).filter (· ≠ 0)).getD 16384) = k * mult := by
        simp [Option.filter_some, hne]
      rw [hnumber, hvalue] at h ⊢
      have hle : k ≤ k * mult := Nat.le_mul_of_pos_right k hpos
      rw [hparse.trans (if_pos (by omega)), if_neg (by simp; omega)]
      dsimp only
      rw [← Nat.cast_mul]
      exact Int.bmod_eq_of_le (by omega) (by omega)
  · rw [if_pos herror, hnumber]
    rfl

theorem volblockBytes_eq {s : String} (h : blockSize s < 2 ^ 63) : volblockBytes s =
    blockSize s := by
  unfold blockSize denoted at h ⊢
  unfold volblockBytes
  dsimp only at h ⊢
  revert h
  cases (trimSpace (toLower s)).toList.reverse with
  | nil => exact fun _ => rfl
  | cons c front =>
    intro h
    dsimp only at h ⊢
    refine scaled_eq ?_ ?_ ?_ h
    · split_ifs <;> rfl
    · split_ifs <;> rfl
    · split_ifs <;> simp

/-! ## Rounding up -/

/-- The least multiple of `block` that is not below `n`. -/
def roundUp (n block : Nat) : Nat := n + (block - n % block) % block

theorem roundUp_isLeast (n : Nat) {block : Nat} (hblock : 0 < block) :
    IsLeast {m : Int | (block : Int) ∣ m ∧ (n : Int) ≤ m} (roundUp n block) := by
  have hmod := Nat.mod_lt n hblock
  have hpad := Nat.mod_lt (block - n % block) hblock
  have hdvd : block ∣ roundUp n block := by
    refine Nat.dvd_of_mod_eq_zero ?_
    unfold roundUp
    by_cases hzero : n % block = 0
    · simp [hzero]
    · rw [Nat.mod_eq_of_lt (by omega : block - n % block < block), Nat.add_mod,
        Nat.mod_eq_of_lt (by omega : block - n % block < block),
        show n % block + (block - n % block) = block by omega, Nat.mod_self]
  refine ⟨⟨Int.natCast_dvd_natCast.mpr hdvd, ?_⟩, ?_⟩
  · unfold roundUp
    omega
  · rintro m ⟨⟨q, rfl⟩, hm⟩
    -- a smaller multiple would be less than a block above the one before
    obtain ⟨k, hk⟩ := hdvd
    have hlt : roundUp n block < n + block := by
      unfold roundUp
      omega
    by_contra hless
    have hless : (block : Int) * q < block * k := by
      rw [hk] at hless
      push_cast at hless
      omega
    have hqk : q < k := lt_of_mul_lt_mul_left hless (by omega)
    have hstep : (block : Int) * (q + 1) ≤ block * k :=
      mul_le_mul_of_nonneg_left (by omega) (by omega)
    have hcast : ((roundUp n block : Nat) : Int) = block * k := by
      rw [hk]
      push_cast
      rfl
    rw [mul_add, mul_one] at hstep
    omega

/-- In 64 bits, as long as the multiple fits. -/
theorem alignUp_eq {n block : Nat} (hn : 0 < n) (hblock : 0 < block)
    (h : roundUp n block < 2 ^ 63) :
    alignUp n block = roundUp n block := by
  unfold roundUp at h ⊢
  unfold alignUp
  have hmod := Nat.mod_lt n hblock
  rw [if_neg (by omega)]
  split_ifs with hrest
  · have hne : n % block ≠ 0 := fun hzero => hrest (by exact_mod_cast hzero)
    rw [Nat.mod_eq_of_lt (by omega : block - n % block < block)] at h ⊢
    rw [Nat.cast_add, Nat.cast_sub hmod.le, Int.natCast_mod]
    exact Int.bmod_eq_of_le (by omega) (by omega)
  · have hzero : n % block = 0 := by exact_mod_cast not_not.mp hrest
    simp [hzero]

/-! ## The size that is set -/

theorem isSnap_of_not_plain {full : String} (h : ¬Plain full) : (split full).2.2 = true := by
  unfold Memzfs.split Text.cut
  cases hdrop : full.toList.dropWhile (· != '@') with
  | nil =>
    rw [List.dropWhile_eq_nil_iff] at hdrop
    exact absurd (fun hmem => by simpa using hdrop '@' hmem) h
  | cons => rfl

theorem setProperty_snap {m : Mem} {full : String}
    (hsnap : (split full).2.2 = true) (value : String) :
    (m.setProperty full "volsize" value).1 ≠ .ok () := by
  have huser : Mem.isUser "volsize" = false := by decide +kernel
  unfold Mem.setProperty
  generalize split full = parts at hsnap
  obtain ⟨dn, sn, isSnap⟩ := parts
  dsimp only at hsnap ⊢
  subst hsnap
  split
  · simp
  · simp only [true_and, if_true, huser, Bool.not_false]
    split_ifs <;> simp

theorem get_snap_volsize {m : Mem} {full : String}
    (hsnap : (split full).2.2 = true) {current : String}
    (h : m.get full "volsize" = .ok current) : current = "-" := by
  have huser : Mem.isUser "volsize" = false := by decide +kernel
  unfold Mem.get at h
  generalize split full = parts at hsnap h
  obtain ⟨dn, sn, isSnap⟩ := parts
  dsimp only at hsnap h
  subst hsnap
  split at h
  · cases h
  · simp only [if_true] at h
    split at h
    · cases h
    · simpa [Mem.getSnap, huser] using h.symm

theorem found_of_get {m : Mem} {full prop current : String} (hplain : Plain full)
    (h : m.get full prop = .ok current) :
    ∃ D, m.ds.lookup full = some D ∧ current = m.getDataset full D prop := by
  cases hD : m.ds.lookup full with
  | none => simp [Mem.get, split_plain hplain, hD] at h
  | some D =>
    rw [get_of_lookup hplain hD] at h
    exact ⟨D, rfl, (Except.ok.inj h).symm⟩

/-- Once the size of a zvol has been seen to, it is no less than `n`. -/
def Reaches (full : String) (n : Int) (r : Except Err Unit) (w : World) : Prop :=
  r = .ok () → ∃ D, w.mem.ds.lookup full = some D ∧ n ≤ D.volsize

/-- A zvol that is smaller than desired is grown to it. -/
theorem growTo_reaches {n desired : Int} (hle : n ≤ desired) (hpos : 0 < desired)
    (hlt : desired < 2 ^ 63)
    {full current : String} {w : World}
    (hint64 : ∀ D, w.mem.ds.lookup full = some D → -2 ^ 63 ≤ D.volsize ∧ D.volsize < 2 ^ 63)
    (hread : w.mem.get full "volsize" = .ok current) :
    (if (parseInt (trimSpace current)).1 < desired then
      ask (.setProperty full "volsize" (toString desired))
      else Pure.pure ()).run.wpAlone World.handle AgentCall.fails (fun _ _ _ => True)
        (Reaches full n) w := by
  have hset : (ask (.setProperty full "volsize" (toString desired))).run.wpAlone World.handle
      AgentCall.fails
      (fun _ _ _ => True) (Reaches full n) w := by
    intro t ht
    subst ht
    refine ⟨trivial, ?_, ?_⟩
    · intro hok
      have hanswer : (w.mem.setProperty full "volsize" (toString desired)).1 = .ok () := by
        cases hr : (w.mem.setProperty full "volsize" (toString desired)).1 with
        | ok a => rfl
        | error e =>
          have herror : (World.handle (.setProperty full "volsize" (toString desired)) w).1 =
              .error e := hr
          rw [herror] at hok
          cases hok
      by_cases hplain : Plain full
      · obtain ⟨D, hD, -⟩ := found_of_get hplain hread
        have hparse := parseInt_int (n := desired) (by omega) hlt
        exact ⟨_, setProperty_volsize hplain hD hparse, hle⟩
      · exact absurd hanswer (setProperty_snap (isSnap_of_not_plain hplain) _)
    · rintro r ⟨msg, rfl⟩ hr
      cases hr
  by_cases hplain : Plain full
  · obtain ⟨D, hD, hcurrent⟩ := found_of_get hplain hread
    have hzero : (parseInt (trimSpace "-")).1 = 0 := by decide +kernel
    by_cases hkind : D.kind = .volume
    · obtain ⟨hlo, hhi⟩ := hint64 D hD
      rw [getDataset_volsize _ hkind] at hcurrent
      rw [hcurrent, trimSpace_int, parseInt_int hlo hhi]
      split_ifs with hless
      · exact hset
      · exact fun _ => ⟨D, hD, by omega⟩
    · rw [show current = "-" by simpa [Mem.getDataset, hkind] using hcurrent, hzero, if_pos hpos]
      exact hset
  · have hsnap := isSnap_of_not_plain hplain
    have hzero : (parseInt (trimSpace "-")).1 = 0 := by decide +kernel
    rw [get_snap_volsize hsnap hread, hzero, if_pos hpos]
    exact hset

theorem ensureSize_reaches {vol : ZfsDataset} {v : VolumeConfig} (htype : vol.spec.type = .volume)
    (hv : vol.spec.volume = some v) {n desired : Int}
    (hdesired : alignUp v.size (volblockBytes v.volblocksize) = desired)
    (hle : n ≤ desired) (hpos : 0 < desired) (hlt : desired < 2 ^ 63) {full : String} {w : World}
    (hint64 : ∀ D, w.mem.ds.lookup full = some D → -2 ^ 63 ≤ D.volsize ∧ D.volsize < 2 ^ 63) :
    (ZfsDatasetReconciler.ensureSize vol full).run.wpAlone World.handle AgentCall.fails
      (fun _ _ _ => True)
      (Reaches full n) w := by
  have hprogram : ZfsDatasetReconciler.ensureSize vol full =
      ask (.get full "volsize") >>= fun current =>
      if (parseInt (trimSpace current)).1 < desired then
        ask (.setProperty full "volsize" (toString desired))
      else Pure.pure () := by
    unfold ZfsDatasetReconciler.ensureSize
    rw [htype]
    dsimp only
    rw [hv]
    dsimp only
    rw [hdesired]
  rw [hprogram]
  refine Proc.ask_wp fun t ht => ?_
  subst ht
  refine ⟨trivial, fun current hread => ?_, fun err _ hr => (by cases hr), ?_⟩
  · exact growTo_reaches hle hpos hlt hint64 hread
  · rintro r ⟨msg, rfl⟩ hr
    cases hr

/-! ## Exactness -/

/-- The size of a zvol of `n` bytes in blocks of `s` is computed exactly. -/
structure Exact (n : Nat) (s : String) : Prop where
  block : volblockBytes s = blockSize s
  size : IsLeast {m : Int | (blockSize s : Int) ∣ m ∧ (n : Int) ≤ m} (alignUp n (volblockBytes s))
  reaches : ∀ (vol : ZfsDataset) (full : String) (w w' : World) (l : List (AgentCall × World)),
    vol.spec.type = .volume → vol.spec.volume = some ⟨n, s⟩ →
    (∀ D, w.mem.ds.lookup full = some D → -2 ^ 63 ≤ D.volsize ∧ D.volsize < 2 ^ 63) →
    Runs World.handle AgentCall.fails (fun _ => Eq) (ZfsDatasetReconciler.ensureSize vol full).run w
      l (some (.ok ())) w' →
    ∃ D, w'.mem.ds.lookup full = some D ∧ (n : Int) ≤ D.volsize

/-- The size of a zvol is exact if and only if it fits in 64 bits once it is rounded up. -/
theorem ensureSize_exact_iff (n : Nat) (s : String) (hpos : 1 ≤ n) (hlt : n < 2 ^ 63) :
    Exact n s ↔ roundUp n (blockSize s) < 2 ^ 63 := by
  have hblock := blockSize_pos s
  have hleast := roundUp_isLeast n hblock
  constructor
  · intro h
    have hsize : alignUp n (volblockBytes s) = roundUp n (blockSize s) := h.size.unique hleast
    have hbound : alignUp n (volblockBytes s) < 2 ^ 63 := alignUp_lt (by omega)
    omega
  · intro hfits
    have hle : blockSize s ≤ roundUp n (blockSize s) := by
      obtain ⟨k, hk⟩ := Int.natCast_dvd_natCast.mp hleast.1.1
      have hn : (n : Int) ≤ roundUp n (blockSize s) := hleast.1.2
      have hk0 : 0 < k := by
        rcases Nat.eq_zero_or_pos k with rfl | hk0
        · omega
        · exact hk0
      rw [hk]
      exact Nat.le_mul_of_pos_right _ hk0
    have hbytes : volblockBytes s = blockSize s := volblockBytes_eq (by omega)
    have hsize : alignUp n (volblockBytes s) = roundUp n (blockSize s) := by
      rw [hbytes]
      exact alignUp_eq hpos hblock hfits
    have hn : (n : Int) ≤ roundUp n (blockSize s) := hleast.1.2
    refine ⟨hbytes, ?_, fun vol full w w' l htype hv hint64 hruns => ?_⟩
    · rw [hsize]
      exact hleast
    · have hwp := ensureSize_reaches htype hv hsize hn (by omega) (by omega) hint64
      exact (wp_runs hwp hruns).2 _ rfl rfl

theorem ensureSize_exact_sixteen : Exact 1 "16k" :=
  (ensureSize_exact_iff 1 "16k" (by decide) (by decide)).mpr (by decide +kernel)

/-- A zvol of 2^63 - 1 bytes is rounded up to a negative size. -/
theorem ensureSize_wraps : ¬Exact 9223372036854775807 "" := by
  intro h
  have hwraps : alignUp 9223372036854775807 (volblockBytes "") = -9223372036854775808 := by
    decide +kernel
  have hle : ((9223372036854775807 : Nat) : Int) ≤ alignUp 9223372036854775807 (volblockBytes "") :=
    h.size.1.2
  rw [hwraps] at hle
  omega

end SimpleZfsCsi.Expand
