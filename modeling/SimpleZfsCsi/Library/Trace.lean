import SimpleZfsCsi.Library.Program

/-!
# The calls of one run

`Makes` says what every call of a run is like, whether the run ends in a value or in an error.
`Reveals` goes the other way: what follows from it when the run has made no other calls.
-/

namespace SimpleZfsCsi.Library.Program

variable {E : Type} {R : E → Type} {σ α β ε ε' : Type} {h : (e : E) → σ → R e × σ}

/-- When the program runs alone, it makes only calls of `P`. -/
def Proc.Makes (h : (e : E) → σ → R e × σ) (P : E → Prop) (p : Proc E R ε α) (s : σ) : Prop :=
  ∀ c ∈ p.run.trace h s, P c.1

/-- If it returns a value and makes only calls of `P`, then `A` is true. -/
def Proc.Reveals
    (h : (e : E) → σ → R e × σ) (P : E → Prop) (p : Proc E R ε α) (s : σ) (A : Prop) : Prop :=
  ∀ a t, p.run.exec h s = (.ok a, t) → p.Makes h P s → A

section Trace

variable {P P' : E → Prop} {p : Proc E R ε α} {f : α → Proc E R ε β} {s : σ} {A : Prop}

theorem Proc.trace_bind_ok {a : α} {t : σ} (hp : p.run.exec h s = (.ok a, t)) :
    (p >>= f).run.trace h s = p.run.trace h s ++ (f a).run.trace h t := by
  rw [Proc.run_bind, Program.trace_bind, hp]

theorem Proc.trace_bind_error {e : ε} {t : σ} (hp : p.run.exec h s = (.error e, t)) :
    (p >>= f).run.trace h s = p.run.trace h s := by
  rw [Proc.run_bind, Program.trace_bind, hp]
  exact List.append_nil _

theorem Proc.trace_outcome_bind {f : Except ε α → Proc E R ε' β} :
    (p.outcome >>= f).run.trace h s =
      p.run.trace h s ++ (f (p.run.exec h s).1).run.trace h (p.run.exec h s).2 := by
  rw [Proc.run_bind, Proc.run_outcome, bind_assoc, Program.trace_bind]
  rfl

theorem Proc.Makes.mono (hp : p.Makes h P s) (hP : ∀ e, P e → P' e) : p.Makes h P' s :=
  fun c hc => hP c.1 (hp c hc)

theorem Proc.Makes.pure (a : α) : (Pure.pure a : Proc E R ε α).Makes h P s := by
  intro c hc
  cases hc

theorem Proc.Makes.throw (e : ε) : (throw e : Proc E R ε α).Makes h P s := by
  intro c hc
  cases hc

theorem Proc.Makes.bind (hp : p.Makes h P s)
    (hf : ∀ a t, p.run.exec h s = (.ok a, t) → (f a).Makes h P t) :
    (p >>= f).Makes h P s := by
  intro c hc
  rcases hexec : p.run.exec h s with ⟨e | a, t⟩
  · rw [trace_bind_error hexec] at hc
    exact hp c hc
  · rw [trace_bind_ok hexec] at hc
    rcases List.mem_append.mp hc with hc | hc
    · exact hp c hc
    · exact hf a t hexec c hc

theorem Proc.Makes.outcome_bind {f : Except ε α → Proc E R ε' β} (hp : p.Makes h P s)
    (hf : ∀ r t, p.run.exec h s = (r, t) → (f r).Makes h P t) : (p.outcome >>= f).Makes h P s := by
  intro c hc
  rw [trace_outcome_bind] at hc
  rcases List.mem_append.mp hc with hc | hc
  · exact hp c hc
  · exact hf _ _ rfl c hc

theorem Proc.Makes.of_bind {a : α} {t : σ}
    (hp : (p >>= f).Makes h P s) (hexec : p.run.exec h s = (.ok a, t)) :
    p.Makes h P s ∧ (f a).Makes h P t := by
  unfold Proc.Makes at hp ⊢
  rw [trace_bind_ok hexec] at hp
  exact ⟨fun c hc => hp c (List.mem_append_left _ hc),
    fun c hc => hp c (List.mem_append_right _ hc)⟩

/-- What these calls preserve holds at the end of the run. -/
theorem Proc.Makes.invariant {inv : σ → Prop} (hp : p.Makes h P s)
    (hinv : ∀ e t, P e → inv t → inv (h e t).2)
    (hs : inv s) : inv (p.run.exec h s).2 := by
  unfold Proc.Makes at hp
  generalize p.run = q at hp ⊢
  induction q generalizing s with
  | pure a => exact hs
  | call e k ih =>
    obtain ⟨he, hrest⟩ := List.forall_mem_cons.mp hp
    exact ih _ (hinv e s he hs) hrest

theorem Proc.Reveals.mono {A' : Prop} (hp : p.Reveals h P s A) (hA : A → A') : p.Reveals h P s A' :=
  fun a t hexec hmakes => hA (hp a t hexec hmakes)

theorem Proc.Reveals.bind
    (hf : ∀ a t, p.run.exec h s = (.ok a, t) → p.Makes h P s → (f a).Reveals h P t A) :
    (p >>= f).Reveals h P s A := by
  intro b u hexec hmakes
  rcases hp : p.run.exec h s with ⟨e | a, t⟩
  · rw [exec_bind_error hp] at hexec
    cases hexec
  · rw [Proc.exec_bind hp] at hexec
    obtain ⟨hfirst, hrest⟩ := hmakes.of_bind hp
    exact hf a t hp hfirst b u hexec hrest

theorem Proc.Reveals.first (hp : p.Reveals h P s A) : (p >>= f).Reveals h P s A :=
  .bind fun a t hexec hmakes _ _ _ _ => hp a t hexec hmakes

/-- The rule for a part whose error is given another form. -/
theorem Proc.Reveals.outcome_bind {f : Except ε α → Proc E R ε' β}
    (hf : ∀ r t, p.run.exec h s = (r, t) → p.Makes h P s → (f r).Reveals h P t A) :
    (p.outcome >>= f).Reveals h P s A := by
  intro b u hexec hmakes
  rw [Proc.run_bind, Proc.run_outcome, bind_assoc, Program.exec_bind] at hexec
  unfold Proc.Makes at hmakes
  rw [trace_outcome_bind] at hmakes
  exact hf _ _ rfl (fun c hc => hmakes c (List.mem_append_left _ hc)) b u hexec fun c hc =>
    hmakes c (List.mem_append_right _ hc)

end Trace

section Ask

variable {V : E → Type} {h : (e : E) → σ → Except ε' (V e) × σ} {P : E → Prop} {s : σ}
    {A : Prop} {e : E}

theorem Proc.Makes.ask {onError : ε' → ε} (he : P e) : (Proc.ask e onError).Makes h P s := by
  intro c hc
  rw [Proc.run_ask] at hc
  cases List.mem_singleton.mp hc
  exact he

theorem Proc.Makes.of_ask {onError : ε' → ε} (hp : (Proc.ask e onError).Makes h P s) : P e :=
  hp (e, s) (by simp [Proc.run_ask, trace])

theorem Proc.exec_ask (h : (e : E) → σ → Except ε' (V e) × σ) (e : E) (s : σ) :
    (Proc.ask e id : Proc E (fun e => Except ε' (V e)) ε' (V e)).run.exec h s = h e s := by
  rw [Proc.run_ask, exec_call, exec_pure]
  cases hr : (h e s).1 <;> exact Prod.ext hr.symm rfl

/-- The rule for a call whose error the program looks at. -/
theorem Proc.Makes.outcome_ask
    {f : Except ε' (V e) → Proc E (fun e => Except ε' (V e)) ε β} (he : P e)
    (hf : (f (h e s).1).Makes h P (h e s).2) : ((Proc.ask e id).outcome >>= f).Makes h P s := by
  refine .outcome_bind (.ask he) fun r t hexec => ?_
  rw [exec_ask] at hexec
  rwa [hexec] at hf

theorem Proc.Reveals.outcome_ask {f : Except ε' (V e) → Proc E (fun e => Except ε' (V e)) ε β}
    (hf : P e → (f (h e s).1).Reveals h P (h e s).2 A) :
    ((Proc.ask e id).outcome >>= f).Reveals h P s A := by
  refine .outcome_bind fun r t hexec hmakes => ?_
  rw [exec_ask] at hexec
  have hrest := hf hmakes.of_ask
  rwa [hexec] at hrest

end Ask

end SimpleZfsCsi.Library.Program
