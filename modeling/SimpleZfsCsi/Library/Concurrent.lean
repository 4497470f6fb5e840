import SimpleZfsCsi.Library.Program

/-!
# Programs that run side by side

Workers take up tasks, one at a time, and each task is a program over one shared state.
A step lets one worker make its next call, lets an idle worker take up a task, or lets the
environment change the state. A worker returns together with its last call.

`Outline` is a rely-guarantee proof about such a system: an invariant of the shared state,
what every call of a task guarantees, and what the task relies on while it waits to make
a given call. A step may be subject to a condition on the whole configuration, so that the
rules also cover the runs in which certain calls do not meet.
-/

namespace SimpleZfsCsi.Library.Concurrent

open Program

variable {σ ι T E : Type} {R : E → Type} {α : Type}

/-- What the workers do. -/
structure System (σ ι T E : Type) (R : E → Type) (α : Type) where
  /-- how a call of a task is answered -/
  handle : T → (e : E) → σ → R e × σ
  /-- answers a call may get without taking effect -/
  fails : (e : E) → R e → Prop
  program : T → Program E R α
  /-- the tasks a worker may take up -/
  takes : ι → T → Prop
  /-- when a task may be taken up -/
  starts : T → σ → Prop
  /-- what the return of a task changes -/
  finish : T → α → σ → σ
  /-- what happens by itself -/
  env : σ → σ → Prop

/-- The shared state, and what every worker is doing. -/
structure Config (σ ι T E : Type) (R : E → Type) (α : Type) where
  shared : σ
  running : ι → Option (T × Program E R α)

/-- The worker `i` does nothing but wait to make the call `e` of its task. -/
def Config.Waits (c : Config σ ι T E R α) (i : ι) (t : T) (e : E) : Prop :=
  ∃ k, c.running i = some (t, .call e k)

section Step

variable [DecidableEq ι]

/-- Go on with the rest of a task: return, or wait to make the next call. -/
def System.advance (S : System σ ι T E R α) (c : Config σ ι T E R α) (i : ι) (t : T) :
    Program E R α → Config σ ι T E R α
  | .pure a => ⟨S.finish t a c.shared, Function.update c.running i none⟩
  | .call e k => ⟨c.shared, Function.update c.running i (some (t, .call e k))⟩

/-- One step; `cond c i e` allows the worker `i` to make the call `e` in the configuration `c`. -/
inductive Step (S : System σ ι T E R α) (cond : Config σ ι T E R α → ι → E → Prop) :
    Config σ ι T E R α → Config σ ι T E R α → Prop where
  | start {c : Config σ ι T E R α} {i : ι} {t : T} (idle : c.running i = none)
      (takes : S.takes i t) (starts : S.starts t c.shared) :
      Step S cond c (S.advance c i t (S.program t))
  | call {c : Config σ ι T E R α} {i : ι} {t : T} {e : E} {k : R e → Program E R α}
      (waits : c.running i = some (t, .call e k)) (allowed : cond c i e) :
      Step S cond c (S.advance { c with shared := (S.handle t e c.shared).2 } i t
        (k (S.handle t e c.shared).1))
  | fail {c : Config σ ι T E R α} {i : ι} {t : T} {e : E} {k : R e → Program E R α} {r : R e}
      (waits : c.running i = some (t, .call e k)) (fails : S.fails e r) :
      Step S cond c (S.advance c i t (k r))
  | env {c : Config σ ι T E R α} {s : σ} (change : S.env c.shared s) :
      Step S cond c { c with shared := s }

/-- The configurations reached from `s₀`, with every worker idle, by steps that meet `cond`. -/
inductive Reach (S : System σ ι T E R α) (cond : Config σ ι T E R α → ι → E → Prop) (s₀ : σ) :
    Config σ ι T E R α → Prop where
  | start : Reach S cond s₀ ⟨s₀, fun _ => none⟩
  | step {c c' : Config σ ι T E R α} (before : Reach S cond s₀ c) (step : Step S cond c c') :
      Reach S cond s₀ c'

section Answers

variable {S : System σ ι T E R α} {cond : Config σ ι T E R α → ι → E → Prop} {s₀ : σ}
  {c : Config σ ι T E R α}

/-- Going on with a task changes what no other worker is doing, and leaves this one idle or with
the rest of its task. -/
theorem System.running_advance {i j : ι} {t u : T} {p q : Program E R α}
    (h : (S.advance c i t p).running j = some (u, q)) :
    (j = i ∧ u = t ∧ q = p) ∨ (j ≠ i ∧ c.running j = some (u, q)) := by
  by_cases hij : j = i
  · subst hij
    cases p with
    | pure a => simp [System.advance] at h
    | call e k =>
      obtain ⟨rfl, rfl⟩ : t = u ∧ _ = q := by simpa [System.advance] using h
      exact .inl ⟨rfl, rfl, rfl⟩
  · cases p <;> exact .inr ⟨hij, by simpa [System.advance, hij] using h⟩

/-- A worker is busy with a task it may take up. -/
theorem Reach.takes (hc : Reach S cond s₀ c) {i : ι} {t : T} {p : Program E R α}
    (hp : c.running i = some (t, p)) : S.takes i t := by
  induction hc generalizing i t p with
  | start => cases hp
  | @step c c' _ hstep ih =>
    cases hstep with
    | start idle takes starts =>
      obtain ⟨rfl, rfl, _⟩ | ⟨_, hp⟩ := System.running_advance hp
      · exact takes
      · exact ih hp
    | call waits allowed =>
      obtain ⟨rfl, rfl, _⟩ | ⟨_, hp⟩ := System.running_advance hp
      · exact ih waits
      · exact ih hp
    | fail waits fails =>
      obtain ⟨rfl, rfl, _⟩ | ⟨_, hp⟩ := System.running_advance hp
      · exact ih waits
      · exact ih hp
    | env change => exact ih hp

/-- What holds of every program, and of the rest of one after any answer, holds of what a worker
is doing. -/
theorem Reach.rest {I : T → Program E R α → Prop} (hstart : ∀ i t, S.takes i t → I t (S.program t))
    (hnext : ∀ t e k r, I t (.call e k) → I t (k r)) (hc : Reach S cond s₀ c) {i : ι} {t : T}
    {p : Program E R α} (hp : c.running i = some (t, p)) : I t p := by
  induction hc generalizing i t p with
  | start => cases hp
  | @step c c' _ hstep ih =>
    cases hstep with
    | start idle takes starts =>
      obtain ⟨rfl, rfl, rfl⟩ | ⟨_, hp⟩ := System.running_advance hp
      · exact hstart _ _ takes
      · exact ih hp
    | call waits allowed =>
      obtain ⟨rfl, rfl, rfl⟩ | ⟨_, hp⟩ := System.running_advance hp
      · exact hnext _ _ _ _ (ih waits)
      · exact ih hp
    | fail waits fails =>
      obtain ⟨rfl, rfl, rfl⟩ | ⟨_, hp⟩ := System.running_advance hp
      · exact hnext _ _ _ _ (ih waits)
      · exact ih hp
    | env change => exact ih hp

/-- A weaker condition allows more runs. -/
theorem Reach.mono {cond' : Config σ ι T E R α → ι → E → Prop}
    (h : ∀ c i e, cond c i e → cond' c i e)
    (hc : Reach S cond s₀ c) : Reach S cond' s₀ c := by
  induction hc with
  | start => exact .start
  | step _ hstep ih =>
    refine ih.step ?_
    cases hstep with
    | start idle takes starts => exact .start idle takes starts
    | call waits allowed => exact .call waits (h _ _ _ allowed)
    | fail waits fails => exact .fail waits fails
    | env change => exact .env change

/-- The answers to calls that `cond` does not allow are of no consequence. -/
theorem Reach.of_handle_eq (handle : T → (e : E) → σ → R e × σ)
    (heq : ∀ c i t e, S.takes i t → cond c i e → handle t e c.shared = S.handle t e c.shared)
    (hc : Reach S cond s₀ c) : Reach { S with handle } cond s₀ c := by
  induction hc with
  | start => exact .start
  | @step c c' hc hstep ih =>
    refine ih.step ?_
    cases hstep with
    | start idle takes starts => exact .start (S := { S with handle }) idle takes starts
    | @call i t e k waits allowed =>
      have hcall := Step.call (S := { S with handle }) waits allowed
      rw [show ({ S with handle } : System σ ι T E R α).handle t e c.shared =
        S.handle t e c.shared from
        heq c i t e (hc.takes waits) allowed] at hcall
      exact hcall
    | fail waits fails => exact .fail (S := { S with handle }) waits fails
    | env change => exact .env (S := { S with handle }) change

end Answers

/-! ## Playing a schedule -/

/-- A move of a schedule: a worker takes up a task, makes its next call, or something changes. -/
inductive Move (σ ι T : Type) where
  | begin (i : ι) (t : T)
  | call (i : ι)
  | change (f : σ → σ)

def Move.Legal (S : System σ ι T E R α) : Move σ ι T → Prop
  | .begin i t => S.takes i t ∧ ∀ s, S.starts t s
  | .call _ => True
  | .change f => ∀ s, S.env s (f s)

variable {S : System σ ι T E R α} {cond : Config σ ι T E R α → ι → E → Prop} {s₀ : σ}
  {c : Config σ ι T E R α}

/-- Make a move, if it is possible and allowed. -/
def System.make (S : System σ ι T E R α) (cond : Config σ ι T E R α → ι → E → Prop)
    [∀ c i e, Decidable (cond c i e)] (c : Config σ ι T E R α) : Move σ ι T → Config σ ι T E R α
  | .begin i t =>
    match c.running i with
    | none => S.advance c i t (S.program t)
    | some _ => c
  | .call i =>
    match c.running i with
    | some (t, .call e k) =>
      if cond c i e then
        S.advance { c with shared := (S.handle t e c.shared).2 } i t (k (S.handle t e c.shared).1)
      else c
    | _ => c
  | .change f => { c with shared := f c.shared }

/-- A move that changes something is a step. -/
theorem System.make_eq_or_step [∀ c i e, Decidable (cond c i e)] {m : Move σ ι T} (hm : m.Legal S) :
    S.make cond c m = c ∨ Step S cond c (S.make cond c m) := by
  cases m with
  | begin i t =>
    simp only [System.make]
    split
    case h_1 idle => exact .inr (.start idle hm.1 (hm.2 _))
    case h_2 => exact .inl rfl
  | call i =>
    simp only [System.make]
    split
    case h_1 waits =>
      split
      case isTrue allowed => exact .inr (.call waits allowed)
      case isFalse => exact .inl rfl
    case h_2 => exact .inl rfl
  | change f => exact .inr (.env (hm _))

theorem Reach.make [∀ c i e, Decidable (cond c i e)] (hc : Reach S cond s₀ c) {m : Move σ ι T}
    (hm : m.Legal S) : Reach S cond s₀ (S.make cond c m) := by
  obtain heq | hstep : S.make cond c m = c ∨ Step S cond c (S.make cond c m) :=
    System.make_eq_or_step hm
  · rwa [heq]
  · exact hc.step hstep

/-- Every schedule of legal moves is a run. -/
theorem Reach.play [∀ c i e, Decidable (cond c i e)] (hc : Reach S cond s₀ c)
    (moves : List (Move σ ι T)) (hm : ∀ m ∈ moves, m.Legal S) :
    Reach S cond s₀ (moves.foldl (S.make cond) c) := by
  induction moves generalizing c with
  | nil => exact hc
  | cons m moves ih =>
    exact ih (hc.make (hm m List.mem_cons_self)) fun m' hm' => hm m' (List.mem_cons_of_mem m hm')

/-- The call that a worker waits to make is answered by `r`. -/
def System.lose (S : System σ ι T E R α) (c : Config σ ι T E R α) (i : ι) (r : (e : E) → R e) :
    Config σ ι T E R α :=
  match c.running i with
  | some (t, .call e k) => S.advance c i t (k (r e))
  | _ => c

theorem Reach.lose (hc : Reach S cond s₀ c) (i : ι) {r : (e : E) → R e}
    (hr : ∀ e, S.fails e (r e)) :
    Reach S cond s₀ (S.lose c i r) := by
  unfold System.lose
  split
  case h_1 t e k waits => exact hc.step (.fail waits (hr e))
  case h_2 => exact hc

/-- A move that is legal wherever its task may be taken up. -/
def Move.Sound (S : System σ ι T E R α) : Move σ ι T → Prop
  | .begin i t => S.takes i t
  | .call _ => True
  | .change f => ∀ s, S.env s (f s)

/-- Whether every task of a schedule may be taken up where it is. -/
def System.begins (S : System σ ι T E R α) (cond : Config σ ι T E R α → ι → E → Prop)
    [∀ c i e, Decidable (cond c i e)] [∀ t s, Decidable (S.starts t s)] :
    Config σ ι T E R α → List (Move σ ι T) → Bool
  | _, [] => true
  | c, .begin i t :: moves =>
    decide (S.starts t c.shared) && S.begins cond (S.make cond c (.begin i t)) moves
  | c, .call i :: moves => S.begins cond (S.make cond c (.call i)) moves
  | c, .change f :: moves => S.begins cond (S.make cond c (.change f)) moves

/-- A schedule whose tasks are taken up where they may be is a run. -/
theorem Reach.play_begins [∀ c i e, Decidable (cond c i e)] [∀ t s, Decidable (S.starts t s)]
    (hc : Reach S cond s₀ c) (moves : List (Move σ ι T)) (hm : ∀ m ∈ moves, m.Sound S)
    (hbegins : S.begins cond c moves = true) : Reach S cond s₀ (moves.foldl (S.make cond) c) := by
  induction moves generalizing c with
  | nil => exact hc
  | cons m moves ih =>
    have hrest : ∀ c', Reach S cond s₀ c' → S.begins cond c' moves = true →
        Reach S cond s₀ (moves.foldl (S.make cond) c') :=
      fun c' hc' h => ih hc' (fun m' hm' => hm m' (List.mem_cons_of_mem m hm')) h
    have hm := hm m List.mem_cons_self
    cases m with
    | begin i t =>
      simp only [System.begins, Bool.and_eq_true, decide_eq_true_eq] at hbegins
      refine hrest _ ?_ hbegins.2
      simp only [System.make]
      split
      case h_1 idle => exact hc.step (.start idle hm hbegins.1)
      case h_2 => exact hc
    | call i => exact hrest _ (hc.make (m := .call i) trivial) hbegins
    | change f => exact hrest _ (hc.make (m := .change f) hm) hbegins

end Step

/-! ## Rely and guarantee -/

/-- A rely-guarantee proof outline of a system. -/
structure Outline (S : System σ ι T E R α) (cond : Config σ ι T E R α → ι → E → Prop) where
  inv : σ → Prop
  /-- what a task that waits to make a call relies on -/
  rely : T → E → σ → σ → Prop
  /-- what each call of a task guarantees -/
  guar : T → E → σ → σ → Prop
  /-- what a task has established when it returns -/
  post : T → α → σ → Prop
  refl : ∀ t e s, inv s → rely t e s s
  trans : ∀ t e s s' s'', rely t e s s' → rely t e s' s'' → rely t e s s''
  starts : ∀ i t s, inv s → S.takes i t → S.starts t s →
    (S.program t).wp (S.handle t) S.fails (rely t) (guar t) (post t) s
  call_inv : ∀ (c : Config σ ι T E R α) i t e, inv c.shared → S.takes i t → c.Waits i t e →
    cond c i e → guar t e c.shared (S.handle t e c.shared).2 → inv (S.handle t e c.shared).2
  /-- a call of one worker is within what the others rely on -/
  call_rely : ∀ (c : Config σ ι T E R α) i t e, inv c.shared → S.takes i t → c.Waits i t e →
    cond c i e → guar t e c.shared (S.handle t e c.shared).2 →
    ∀ j t' e', j ≠ i → S.takes j t' → c.Waits j t' e' →
      rely t' e' c.shared (S.handle t e c.shared).2
  finish_inv : ∀ t a s, inv s → post t a s → inv (S.finish t a s)
  finish_rely : ∀ i t a s, inv s → S.takes i t → post t a s →
    ∀ j t' e', j ≠ i → S.takes j t' → rely t' e' s (S.finish t a s)
  env_inv : ∀ s s', inv s → S.env s s' → inv s'
  env_rely : ∀ s s', inv s → S.env s s' → ∀ t e, rely t e s s'

namespace Outline

variable {S : System σ ι T E R α} {cond : Config σ ι T E R α → ι → E → Prop}

/-- The invariant holds, and every worker waits to make a call from where its task is safe. -/
structure Holds (O : Outline S cond) (c : Config σ ι T E R α) : Prop where
  inv : O.inv c.shared
  takes : ∀ i t p, c.running i = some (t, p) → S.takes i t
  waits : ∀ i t p, c.running i = some (t, p) → ∃ e k, p = .call e k
  safe : ∀ i t p, c.running i = some (t, p) →
    p.wp (S.handle t) S.fails (O.rely t) (O.guar t) (O.post t) c.shared

variable [DecidableEq ι] {O : Outline S cond} {c : Config σ ι T E R α}

/-- One worker goes on while the others' programs stay safe. -/
theorem Holds.advance (hc : O.Holds c) {s : σ} {i : ι} {t : T} {p : Program E R α} (hs : O.inv s)
    (ht : S.takes i t) (hp : p.wp (S.handle t) S.fails (O.rely t) (O.guar t) (O.post t) s)
    (hrely : ∀ j t' e, j ≠ i → S.takes j t' → c.Waits j t' e → O.rely t' e c.shared s) :
    O.Holds (S.advance { c with shared := s } i t p) := by
  have hother : ∀ s', (∀ j t' e, j ≠ i → S.takes j t' → c.Waits j t' e → O.rely t' e c.shared s') →
      ∀ j t' q, j ≠ i → c.running j = some (t', q) →
        q.wp (S.handle t') S.fails (O.rely t') (O.guar t') (O.post t') s' := by
    intro s' hs' j t' q hj hq
    obtain ⟨e, k, rfl⟩ := hc.waits j t' q hq
    exact wp_stable (O.trans t') (hc.safe j t' _ hq) (hs' j t' e hj (hc.takes j t' _ hq) ⟨k, hq⟩)
  cases p with
  | pure a =>
    refine ⟨O.finish_inv t a s hs hp, ?_, ?_, ?_⟩
    · intro j t' q hq
      by_cases hj : j = i
      · simp [System.advance, hj] at hq
      · exact hc.takes j t' q (by simpa [System.advance, hj] using hq)
    · intro j t' q hq
      by_cases hj : j = i
      · simp [System.advance, hj] at hq
      · exact hc.waits j t' q (by simpa [System.advance, hj] using hq)
    · intro j t' q hq
      by_cases hj : j = i
      · simp [System.advance, hj] at hq
      · refine hother _ ?_ j t' q hj (by simpa [System.advance, hj] using hq)
        intro j' t'' e hj' htakes hwaits
        exact O.trans _ _ _ _ _ (hrely j' t'' e hj' htakes hwaits)
          (O.finish_rely i t a s hs ht hp j' t'' e hj' htakes)
  | call e k =>
    refine ⟨hs, ?_, ?_, ?_⟩
    · intro j t' q hq
      by_cases hj : j = i
      · obtain ⟨rfl, rfl⟩ : t = t' ∧ _ = q := by simpa [System.advance, hj] using hq
        exact hj ▸ ht
      · exact hc.takes j t' q (by simpa [System.advance, hj] using hq)
    · intro j t' q hq
      by_cases hj : j = i
      · obtain ⟨rfl, rfl⟩ : t = t' ∧ _ = q := by simpa [System.advance, hj] using hq
        exact ⟨e, k, rfl⟩
      · exact hc.waits j t' q (by simpa [System.advance, hj] using hq)
    · intro j t' q hq
      by_cases hj : j = i
      · obtain ⟨rfl, rfl⟩ : t = t' ∧ _ = q := by simpa [System.advance, hj] using hq
        exact hp
      · exact hother s hrely j t' q hj (by simpa [System.advance, hj] using hq)

theorem Holds.step (hc : O.Holds c) {c' : Config σ ι T E R α} (hstep : Step S cond c c') :
    O.Holds c' := by
  cases hstep with
  | @start i t idle takes starts =>
    refine hc.advance hc.inv takes (O.starts i t _ hc.inv takes starts) ?_
    exact fun j t' e _ _ _ => O.refl t' e _ hc.inv
  | @call i t e k waits allowed =>
    have htakes := hc.takes i t _ waits
    obtain ⟨hguar, hk, _⟩ := hc.safe i t _ waits _ (O.refl t e _ hc.inv)
    refine hc.advance (O.call_inv c i t e hc.inv htakes ⟨k, waits⟩ allowed hguar) htakes hk ?_
    exact O.call_rely c i t e hc.inv htakes ⟨k, waits⟩ allowed hguar
  | @fail i t e k r waits fails =>
    have htakes := hc.takes i t _ waits
    obtain ⟨_, _, hr⟩ := hc.safe i t _ waits _ (O.refl t e _ hc.inv)
    refine hc.advance hc.inv htakes (hr r fails) ?_
    exact fun j t' e _ _ _ => O.refl t' e _ hc.inv
  | @env s change =>
    refine ⟨O.env_inv _ _ hc.inv change, hc.takes, hc.waits, ?_⟩
    intro i t p hp
    obtain ⟨e, k, rfl⟩ := hc.waits i t p hp
    exact wp_stable (O.trans t) (hc.safe i t _ hp) (O.env_rely _ _ hc.inv change t e)

/-- What the outline says holds in every reachable configuration. -/
theorem holds_of_reach {s₀ : σ} (hs₀ : O.inv s₀) (hc : Reach S cond s₀ c) : O.Holds c := by
  induction hc with
  | start => exact ⟨hs₀, by simp, by simp, by simp⟩
  | step _ hstep ih => exact ih.step hstep

end Outline

end SimpleZfsCsi.Library.Concurrent
