import SimpleZfsCsi.Library.Program

/-!
# Programs that run one after the other

A task is a program that runs alone, and any of its calls may fail and any run may be cut
short. Between two runs the state may change. An invariant of the calls of every task is an
invariant of all states reached, and `Move` plays a run in which nothing fails.
-/

namespace SimpleZfsCsi.Library

open Program

variable {σ T E : Type} {R : E → Type} {α : Type}

structure Serial (σ T E : Type) (R : E → Type) (α : Type) where
  /-- how a call of a task is answered -/
  handle : T → (e : E) → σ → R e × σ
  /-- answers a call may get without taking effect -/
  fails : (e : E) → R e → Prop
  program : T → Program E R α
  /-- when a task may run -/
  starts : T → σ → Prop
  /-- what happens between two runs -/
  change : σ → σ → Prop

namespace Serial

/-- One run of a task: the calls that took effect, and the result unless it was cut short. -/
def Pass (S : Serial σ T E R α) (t : T) (s : σ) (l : List (E × σ)) (o : Option α) (s' : σ) : Prop :=
  Runs (S.handle t) S.fails (fun _ => Eq) (S.program t) s l o s'

/-- The states reached from `s₀` by runs that begin where `cond` holds. -/
inductive Reach (S : Serial σ T E R α) (cond : T → σ → Prop) (s₀ : σ) : σ → Prop where
  | start : Reach S cond s₀ s₀
  | change {s s' : σ} (before : Reach S cond s₀ s) (change : S.change s s') : Reach S cond s₀ s'
  | pass {t : T} {s s' : σ} {l : List (E × σ)} {o : Option α} (before : Reach S cond s₀ s)
      (starts : S.starts t s) (met : cond t s) (pass : S.Pass t s l o s') : Reach S cond s₀ s'

variable {S : Serial σ T E R α} {cond : T → σ → Prop} {s₀ s : σ}

/-- What holds at first, survives the changes and is kept by every call holds throughout. -/
theorem Reach.invariant {inv : σ → Prop} (guar : T → E → σ → σ → Prop) (hstart : inv s₀)
    (hchange : ∀ s s', inv s → S.change s s' → inv s')
    (hcall : ∀ t e s, inv s → guar t e s (S.handle t e s).2 → inv (S.handle t e s).2)
    (hpass : ∀ t s, inv s → S.starts t s → cond t s →
      (S.program t).wpAlone (S.handle t) S.fails (guar t) (fun _ _ => True) s)
    (hs : Reach S cond s₀ s) : inv s := by
  induction hs with
  | start => exact hstart
  | change _ change ih => exact hchange _ _ ih change
  | @pass t s s' l o _ starts met pass ih =>
    let keeps (s s' : σ) : Prop := inv s → inv s'
    have hkeeps : keeps s s' := by
      refine wpAlone_rel ?_ ?_ ?_ (hpass t s ih starts met) pass
      · exact fun _ => id
      · exact fun _ _ _ h h' hs => h' (h hs)
      · exact fun e s h hs => hcall t e s hs h
    exact hkeeps ih

/-- Every call of a pass is made in a state that keeps the invariant, and keeps the guarantee. -/
theorem Pass.calls {inv : σ → Prop} {guar : E → σ → σ → Prop} {t : T} {s' : σ} {l : List (E × σ)}
    {o : Option α} (hcall : ∀ e s, inv s → guar e s (S.handle t e s).2 → inv (S.handle t e s).2)
    (hpass : (S.program t).wpAlone (S.handle t) S.fails guar (fun _ _ => True) s) (hs : inv s)
    (hr : S.Pass t s l o s') : ∀ c ∈ l, inv c.2 ∧ guar c.1 c.2 (S.handle t c.1 c.2).2 := by
  unfold Pass at hr
  generalize S.program t = p at hpass hr
  induction hr with
  | done a s => simp
  | stop e k hst => simp
  | @answer e k s u s' l o hsu _ ih =>
    subst hsu
    obtain ⟨hg, hk, _⟩ := wpAlone_call.mp hpass
    intro c hc
    rcases List.mem_cons.mp hc with rfl | hc
    · exact ⟨hs, hg⟩
    · exact ih (hcall e _ hs hg) hk c hc
  | fail hsu hr _ ih =>
    subst hsu
    exact ih hs ((wpAlone_call.mp hpass).2.2 _ hr)

/-- A move of a schedule in which nothing fails. -/
inductive Move (σ T : Type) where
  | pass (t : T)
  | change (f : σ → σ)

def Move.Legal (S : Serial σ T E R α) (cond : T → σ → Prop) : Move σ T → σ → Prop
  | .pass t, s => S.starts t s ∧ cond t s
  | .change f, s => S.change s (f s)

/-- Make a move. -/
def make (S : Serial σ T E R α) (s : σ) : Move σ T → σ
  | .pass t => ((S.program t).exec (S.handle t) s).2
  | .change f => f s

/-- Every move is legal where it is made. -/
def Plays (S : Serial σ T E R α) (cond : T → σ → Prop) : σ → List (Move σ T) → Prop
  | _, [] => True
  | s, m :: moves => m.Legal S cond s ∧ S.Plays cond (S.make s m) moves

theorem Reach.play (hs : Reach S cond s₀ s) (moves : List (Move σ T)) (hm : S.Plays cond s moves) :
    Reach S cond s₀ (moves.foldl S.make s) := by
  induction moves generalizing s with
  | nil => exact hs
  | cons m moves ih =>
    refine ih ?_ hm.2
    cases m with
    | pass t => exact hs.pass hm.1.1 hm.1.2 (Runs.exec (fun _ _ => rfl) _ _)
    | change f => exact hs.change hm.1

end Serial

end SimpleZfsCsi.Library
