import SimpleZfsCsi.Library.Program

/-!
# Runs with every answer on record

`Program.Runs` records the calls that took effect. Where a property depends on what a
program was told, the record has to hold the answers too, those of the calls that failed
included: a `Dialogue` is a run that ends, as the list of its exchanges.
-/

namespace SimpleZfsCsi.Library.Program

/-- A call, the answer to it, and the state it was made in. -/
structure Exchange (E : Type) (R : E → Type) (σ : Type) where
  call : E
  answer : R call
  state : σ

variable {E : Type} {R : E → Type} {σ α β ε ε' : Type}
  {h : (e : E) → σ → R e × σ} {fails : (e : E) → R e → Prop}

/-- A run that ends in a result; `fails e r` says that `e` may be answered by `r` without any
effect. -/
inductive Dialogue (h : (e : E) → σ → R e × σ) (fails : (e : E) → R e → Prop) :
    Program E R α → σ → List (Exchange E R σ) → α → σ → Prop where
  | done (a : α) (s : σ) : Dialogue h fails (.pure a) s [] a s
  | answer {e : E} {k : R e → Program E R α} {s t : σ} {l : List (Exchange E R σ)} {a : α}
      (rest : Dialogue h fails (k (h e s).1) (h e s).2 l a t) :
      Dialogue h fails (.call e k) s (⟨e, (h e s).1, s⟩ :: l) a t
  | fail {e : E} {k : R e → Program E R α} {r : R e} {s t : σ} {l : List (Exchange E R σ)} {a : α}
      (hr : fails e r) (rest : Dialogue h fails (k r) s l a t) :
      Dialogue h fails (.call e k) s (⟨e, r, s⟩ :: l) a t

namespace Dialogue

theorem of_bind {p : Program E R α} {f : α → Program E R β} {s t : σ} {l : List (Exchange E R σ)}
    {b : β} (hd : Dialogue h fails (p.bind f) s l b t) :
    ∃ a u l₁ l₂, Dialogue h fails p s l₁ a u ∧ Dialogue h fails (f a) u l₂ b t ∧ l = l₁ ++ l₂ := by
  induction p generalizing s l with
  | pure a => exact ⟨a, s, [], l, .done a s, hd, rfl⟩
  | call e k ih =>
    cases hd with
    | answer rest =>
      obtain ⟨a, u, l₁, l₂, h₁, h₂, rfl⟩ := ih _ rest
      exact ⟨a, u, _ :: l₁, l₂, .answer h₁, h₂, rfl⟩
    | fail hr rest =>
      obtain ⟨a, u, l₁, l₂, h₁, h₂, rfl⟩ := ih _ rest
      exact ⟨a, u, _ :: l₁, l₂, .fail hr h₁, h₂, rfl⟩

/-- The exchanges of a program are about calls it can make. -/
theorem calls {P : E → Prop} {p : Program E R α} {s t : σ} {l : List (Exchange E R σ)} {a : α}
    (hd : Dialogue h fails p s l a t) (hp : p.Calls P) : ∀ x ∈ l, P x.call := by
  induction hd with
  | done a s => simp
  | answer rest ih => exact List.forall_mem_cons.mpr ⟨hp.1, ih (hp.2 _)⟩
  | fail hr rest ih => exact List.forall_mem_cons.mpr ⟨hp.1, ih (hp.2 _)⟩

end Dialogue

/-- The exchanges of a program that runs alone. -/
def transcript (h : (e : E) → σ → R e × σ) : Program E R α → σ → List (Exchange E R σ)
  | .pure _, _ => []
  | .call e k, s => ⟨e, (h e s).1, s⟩ :: (k (h e s).1).transcript h (h e s).2

/-- A run under a handler `g` that answers as `h` does or lets the call fail. -/
theorem Dialogue.transcript {g : (e : E) → σ → R e × σ}
    (hg : ∀ e s, g e s = h e s ∨ fails e (g e s).1 ∧ (g e s).2 = s) (p : Program E R α) (s : σ) :
    Dialogue h fails p s (p.transcript g s) (p.exec g s).1 (p.exec g s).2 := by
  induction p generalizing s with
  | pure a => exact .done a s
  | call e k ih =>
    simp only [Program.transcript, exec_call]
    rcases hg e s with heq | ⟨hfails, hs⟩
    · rw [heq]
      exact .answer (ih _ _)
    · refine .fail hfails ?_
      have hrest := ih (g e s).1 (g e s).2
      rwa [hs] at hrest ⊢

/-! ## Programs that return errors -/

theorem Proc.dialogue_bind {p : Proc E R ε α} {f : α → Proc E R ε β} {s t : σ}
    {l : List (Exchange E R σ)} {r : Except ε β} (hd : Dialogue h fails (p >>= f).run s l r t) :
    (∃ a u l₁ l₂, Dialogue h fails p.run s l₁ (.ok a) u ∧ Dialogue h fails (f a).run u l₂ r t ∧
      l = l₁ ++ l₂) ∨ ∃ e, r = .error e ∧ Dialogue h fails p.run s l (.error e) t := by
  rw [Proc.run_bind] at hd
  obtain ⟨a, u, l₁, l₂, h₁, h₂, rfl⟩ := hd.of_bind
  cases a with
  | ok a => exact .inl ⟨a, u, l₁, l₂, h₁, h₂, rfl⟩
  | error e =>
    cases h₂ with
    | done => exact .inr ⟨e, rfl, by simpa using h₁⟩

theorem Proc.dialogue_outcome {p : Proc E R ε α} {s t : σ} {l : List (Exchange E R σ)}
    {r : Except ε' (Except ε α)}
    (hd : Dialogue h fails (p.outcome : Proc E R ε' (Except ε α)).run s l r t) :
    ∃ r', r = .ok r' ∧ Dialogue h fails p.run s l r' t := by
  rw [Proc.run_outcome] at hd
  obtain ⟨a, u, l₁, l₂, h₁, h₂, rfl⟩ := hd.of_bind
  cases h₂ with
  | done => exact ⟨a, rfl, by simpa using h₁⟩

section Ask

variable {V : E → Type} {h : (e : E) → σ → Except ε (V e) × σ}
  {fails : (e : E) → Except ε (V e) → Prop}

/-- A dialogue that begins with a call whose error the program looks at. -/
theorem Proc.dialogue_outcome_ask {e : E}
    {f : Except ε (V e) → Proc E (fun e => Except ε (V e)) ε' β}
    {s t : σ} {l : List (Exchange E (fun e => Except ε (V e)) σ)} {r : Except ε' β}
    (hd : Dialogue h fails ((Proc.ask e id).outcome >>= f).run s l r t) :
    ∃ answer u l', l = ⟨e, answer, s⟩ :: l' ∧ ((answer, u) = h e s ∨ fails e answer ∧ u = s) ∧
      Dialogue h fails (f answer).run u l' r t := by
  cases hd with
  | answer rest =>
    refine ⟨_, _, _, rfl, .inl rfl, ?_⟩
    cases hanswer : (h e s).1 <;> rw [hanswer] at rest <;> exact rest
  | @fail _ _ answer _ _ _ _ hr rest =>
    refine ⟨_, _, _, rfl, .inr ⟨hr, rfl⟩, ?_⟩
    cases answer <;> exact rest

/-- A dialogue that begins with a call whose error the program returns. -/
theorem Proc.dialogue_ask_bind {e : E} {f : V e → Proc E (fun e => Except ε (V e)) ε β}
    {s t : σ} {l : List (Exchange E (fun e => Except ε (V e)) σ)} {r : Except ε β}
    (hd : Dialogue h fails (Proc.ask e id >>= f).run s l r t) :
    ∃ answer u l', l = ⟨e, answer, s⟩ :: l' ∧ ((answer, u) = h e s ∨ fails e answer ∧ u = s) ∧
      ((∃ a, answer = .ok a ∧ Dialogue h fails (f a).run u l' r t) ∨
        ∃ err, answer = .error err ∧ l' = [] ∧ r = .error err ∧ t = u) := by
  cases hd with
  | answer rest =>
    refine ⟨_, _, _, rfl, .inl rfl, ?_⟩
    cases hanswer : (h e s).1 with
    | ok a =>
      rw [hanswer] at rest
      exact .inl ⟨a, rfl, rest⟩
    | error err =>
      rw [hanswer] at rest
      cases rest with
      | done => exact .inr ⟨err, rfl, rfl, rfl, rfl⟩
  | @fail _ _ answer _ _ _ _ hr rest =>
    refine ⟨_, _, _, rfl, .inr ⟨hr, rfl⟩, ?_⟩
    cases answer with
    | ok a => exact .inl ⟨a, rfl, rest⟩
    | error err =>
      cases rest with
      | done => exact .inr ⟨err, rfl, rfl, rfl, rfl⟩

end Ask

/-! ## Programs that only read -/

/-- Run alone, the program returns `r` and leaves the state as it is. -/
def Proc.Observes (h : (e : E) → σ → R e × σ) (s : σ) (p : Proc E R ε α) (r : Except ε α) : Prop :=
  p.run.exec h s = (r, s)

namespace Proc.Observes

variable {s : σ} {p : Proc E R ε α} {r : Except ε α}

theorem pure (a : α) : Observes h s (Pure.pure a : Proc E R ε α) (.ok a) := rfl

theorem throw (e : ε) : Observes h s (throw e : Proc E R ε α) (.error e) := rfl

theorem ok_bind {f : α → Proc E R ε β} {a : α} {r : Except ε β} (hp : Observes h s p (.ok a))
    (hf : Observes h s (f a) r) : Observes h s (p >>= f) r := (Proc.exec_bind hp f).trans hf

theorem error_bind {f : α → Proc E R ε β} {e : ε} (hp : Observes h s p (.error e)) :
    Observes h s (p >>= f) (.error e) := Proc.exec_bind_error hp f

theorem outcome (hp : Observes h s p r) :
    Observes h s (p.outcome : Proc E R ε' (Except ε α)) (.ok r) := by
  unfold Observes at hp ⊢
  rw [Proc.run_outcome, Program.exec_bind, hp]
  rfl

theorem map (hp : Observes h s p r) (f : α → β) : Observes h s (f <$> p) (r.map f) := by
  unfold Observes at hp ⊢
  rw [Proc.run_map, Program.exec_bind, hp]
  rfl

theorem unique {r' : Except ε α} (hp : Observes h s p r) (hp' : Observes h s p r') : r = r' :=
  (Prod.mk.inj (hp.symm.trans hp')).1

end Proc.Observes

end SimpleZfsCsi.Library.Program
