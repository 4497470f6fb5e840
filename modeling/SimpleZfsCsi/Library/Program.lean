import Mathlib.Logic.Basic
import Mathlib.Logic.Function.Basic
import Mathlib.Logic.Relation

/-!
# Programs over an interface of calls

A program is a tree of calls to an environment: `E` is the type of calls and `R e`
the type of answers to the call `e`. One program has several meanings here, and the
point of the tree is that they share it:

* `exec` runs it alone, every call being answered by a handler;
* `Runs` lets any call fail without effect, the program stop before any call, and others
  change the state between two calls;
* `Concurrent.Step` interleaves the calls of several programs over one shared state.

`wp` is the weakest precondition for all three. Its `rely` is what the others may do
before the next call (`Eq` when the program runs alone) and its `guar` is what every
call of this program must satisfy; a guarantee that ends in an invariant therefore
gives the invariant at every point where the program can be cut short. A program returns
together with its last call: nothing happens between the two.
-/

namespace SimpleZfsCsi.Library

/-- A finite tree of calls ending in a result. -/
inductive Program (E : Type) (R : E → Type) (α : Type) : Type where
  | pure (a : α)
  | call (e : E) (k : R e → Program E R α)

namespace Program

variable {E : Type} {R : E → Type} {σ α β γ : Type}

def bind : Program E R α → (α → Program E R β) → Program E R β
  | .pure a, f => f a
  | .call e k, f => .call e fun r => (k r).bind f

instance : Monad (Program E R) where
  pure := .pure
  bind := bind

/-- The program that makes one call and returns its answer. -/
def perform (e : E) : Program E R (R e) := .call e .pure

@[simp] theorem pure_bind (a : α) (f : α → Program E R β) :
    (Program.pure a).bind f = f a := rfl

@[simp] theorem call_bind (e : E) (k : R e → Program E R α) (f : α → Program E R β) :
    (Program.call e k).bind f = .call e fun r => (k r).bind f := rfl

@[simp] theorem perform_bind (e : E) (f : R e → Program E R β) :
    (perform e).bind f = .call e f := rfl

@[simp] theorem bind_eq (p : Program E R α) (f : α → Program E R β) : p >>= f = p.bind f := rfl

@[simp] theorem pure_eq (a : α) : (Pure.pure a : Program E R α) = .pure a := rfl

theorem bind_assoc (p : Program E R α) (f : α → Program E R β) (g : β → Program E R γ) :
    (p.bind f).bind g = p.bind fun a => (f a).bind g := by
  induction p with
  | pure a => rfl
  | call e k ih => simp [ih]

@[simp] theorem bind_pure (p : Program E R α) : p.bind .pure = p := by
  induction p with
  | pure a => rfl
  | call e k ih => simp [ih]

instance : LawfulMonad (Program E R) :=
  LawfulMonad.mk' (Program E R) (fun p => bind_pure p) (fun _ _ => rfl) fun p f
    g => bind_assoc p f g

/-- Carry out every call by a program over another interface. -/
def expand {E' : Type} {R' : E' → Type} (impl : (e : E) → Program E' R' (R e)) :
    Program E R α → Program E' R' α
  | .pure a => .pure a
  | .call e k => (impl e).bind fun r => (k r).expand impl

theorem expand_bind {E' : Type} {R' : E' → Type} (impl : (e : E) → Program E' R' (R e))
    (p : Program E R α) (f : α → Program E R β) :
    (p.bind f).expand impl = (p.expand impl).bind fun a => (f a).expand impl := by
  induction p with
  | pure a => rfl
  | call e k ih => simp only [call_bind, expand, ih, bind_assoc]

/-! ## Running alone -/

/-- Run a program alone, the handler `h` answering every call. -/
def exec (h : (e : E) → σ → R e × σ) : Program E R α → σ → α × σ
  | .pure a, s => (a, s)
  | .call e k, s => (k (h e s).1).exec h (h e s).2

@[simp] theorem exec_pure (h : (e : E) → σ → R e × σ) (a : α) (s : σ) :
    (Program.pure a).exec h s = (a, s) := rfl

@[simp] theorem exec_call (h : (e : E) → σ → R e × σ) (e : E) (k : R e → Program E R α) (s : σ) :
    (Program.call e k).exec h s = (k (h e s).1).exec h (h e s).2 := rfl

theorem exec_bind (h : (e : E) → σ → R e × σ) (p : Program E R α) (f : α → Program E R β) (s : σ) :
    (p.bind f).exec h s = (f (p.exec h s).1).exec h (p.exec h s).2 := by
  induction p generalizing s with
  | pure a => rfl
  | call e k ih => simp [ih]

/-- What every call preserves holds at the end. -/
theorem exec_invariant {h : (e : E) → σ → R e × σ} {inv : σ → Prop}
    (hinv : ∀ e s, inv s → inv (h e s).2)
    (p : Program E R α) {s : σ} (hs : inv s) : inv (p.exec h s).2 := by
  induction p generalizing s with
  | pure a => exact hs
  | call e k ih => exact ih _ (hinv e s hs)

/-- The calls a program makes when it runs alone, each with the state it is made in. -/
def trace (h : (e : E) → σ → R e × σ) : Program E R α → σ → List (E × σ)
  | .pure _, _ => []
  | .call e k, s => (e, s) :: (k (h e s).1).trace h (h e s).2

theorem trace_bind (h : (e : E) → σ → R e × σ) (p : Program E R α) (f : α → Program E R β) (s : σ) :
    (p.bind f).trace h s = p.trace h s ++ (f (p.exec h s).1).trace h (p.exec h s).2 := by
  induction p generalizing s with
  | pure a => rfl
  | call e k ih => simp [trace, ih]

/-- Run a program whose calls may fail, while others change the state: `fails e r` says that
`e` may be answered by `r` without any effect, and `rely` what the others may do before the
next call. The run records the calls that took effect, each with the state it was made in.
The result is `none` when the program stops before it ends. -/
inductive Runs (h : (e : E) → σ → R e × σ) (fails : (e : E) → R e → Prop)
    (rely : E → σ → σ → Prop) :
    Program E R α → σ → List (E × σ) → Option α → σ → Prop where
  | done (a : α) (s : σ) : Runs h fails rely (.pure a) s [] (some a) s
  | stop (e : E) (k : R e → Program E R α) {s t : σ} (hst : rely e s t) :
      Runs h fails rely (.call e k) s [] none t
  | answer {e : E} {k : R e → Program E R α} {s u t : σ} {l : List (E × σ)} {o : Option α}
      (hsu : rely e s u) (rest : Runs h fails rely (k (h e u).1) (h e u).2 l o t) :
      Runs h fails rely (.call e k) s ((e, u) :: l) o t
  | fail {e : E} {k : R e → Program E R α} {r : R e} {s u t : σ} {l : List (E × σ)} {o : Option α}
      (hsu : rely e s u) (hr : fails e r) (rest : Runs h fails rely (k r) u l o t) :
      Runs h fails rely (.call e k) s l o t

section Runs

variable {h : (e : E) → σ → R e × σ} {fails : (e : E) → R e → Prop} {rely : E → σ → σ → Prop}

/-- Running alone is one of the runs. -/
theorem Runs.exec (refl : ∀ e s, rely e s s) (p : Program E R α) (s : σ) :
    Runs h fails rely p s (p.trace h s) (some (p.exec h s).1) (p.exec h s).2 := by
  induction p generalizing s with
  | pure a => exact .done a s
  | call e k ih => exact .answer (refl _ _) (ih (h e s).1 (h e s).2)

/-- So is running while the others make the change `g e` before every call `e`. -/
theorem Runs.meanwhile (g : E → σ → σ) (hg : ∀ e s, rely e s (g e s)) (p : Program E R α) (s : σ) :
    Runs h fails rely p s ((p.trace (fun e s => h e (g e s)) s).map fun c => (c.1, g c.1 c.2))
      (some (p.exec (fun e s => h e (g e s)) s).1) (p.exec (fun e s => h e (g e s)) s).2 := by
  induction p generalizing s with
  | pure a => exact .done a s
  | call e k ih => exact .answer (hg _ _) (ih _ _)

/-- So is running under a handler `g` that answers as `h` does or lets the call fail. -/
theorem Runs.faulty {g : (e : E) → σ → R e × σ} (refl : ∀ e s, rely e s s)
    (hg : ∀ e s, g e s = h e s ∨ fails e (g e s).1 ∧ (g e s).2 = s) (p : Program E R α) (s : σ) :
    ∃ l, Runs h fails rely p s l (some (p.exec g s).1) (p.exec g s).2 := by
  induction p generalizing s with
  | pure a => exact ⟨[], .done a s⟩
  | call e k ih =>
    obtain ⟨l, rest⟩ := ih (g e s).1 (g e s).2
    rw [exec_call]
    rcases hg e s with heq | ⟨hfails, hs⟩
    · rw [heq] at rest ⊢
      exact ⟨_, .answer (refl _ _) rest⟩
    · rw [hs] at rest ⊢
      exact ⟨l, .fail (refl _ _) hfails rest⟩

/-- A run of two programs in sequence is a run of the first, and then one of the second
unless the first stopped. -/
theorem Runs.of_bind {p : Program E R α} {f : α → Program E R β}
    {s t : σ} {l : List (E × σ)} {o : Option β} (hr : Runs h fails rely (p.bind f) s l o t) :
    (∃ a u l₁ l₂, Runs h fails rely p s l₁ (some a) u ∧ Runs h fails rely (f a) u l₂ o t ∧
      l = l₁ ++ l₂) ∨ (Runs h fails rely p s l none t ∧ o = none) := by
  induction p generalizing s l with
  | pure a => exact .inl ⟨a, s, [], l, .done a s, hr, rfl⟩
  | call e k ih =>
    cases hr with
    | stop e k hst => exact .inr ⟨.stop e _ hst, rfl⟩
    | answer hsu rest =>
      obtain ⟨a, u, l₁, l₂, h₁, h₂, rfl⟩ | ⟨h₁, ho⟩ := ih _ rest
      · exact .inl ⟨a, u, _ :: l₁, l₂, .answer hsu h₁, h₂, rfl⟩
      · exact .inr ⟨.answer hsu h₁, ho⟩
    | fail hsu hr rest =>
      obtain ⟨a, u, l₁, l₂, h₁, h₂, rfl⟩ | ⟨h₁, ho⟩ := ih _ rest
      · exact .inl ⟨a, u, l₁, l₂, .fail hsu hr h₁, h₂, rfl⟩
      · exact .inr ⟨.fail hsu hr h₁, ho⟩

end Runs

/-! ## Weakest preconditions -/

section WP

variable (h : (e : E) → σ → R e × σ) (fails : (e : E) → R e → Prop)
  (rely guar : E → σ → σ → Prop)

/-- From `s`, whatever the others do within `rely` and whichever calls fail, every call
satisfies `guar` and the result satisfies `Q`. The relation `rely` may depend on the call
the program is about to make. -/
def wp : Program E R α → (α → σ → Prop) → σ → Prop
  | .pure a, Q, s => Q a s
  | .call e k, Q, s => ∀ t, rely e s t →
      guar e t (h e t).2 ∧ (k (h e t).1).wp Q (h e t).2 ∧ ∀ r, fails e r → (k r).wp Q t

variable {h fails rely guar}

theorem wp_mono {Q Q' : α → σ → Prop} (hQ : ∀ a s, Q a s → Q' a s) {p : Program E R α} {s : σ}
    (hp : p.wp h fails rely guar Q s) : p.wp h fails rely guar Q' s := by
  induction p generalizing s with
  | pure a => exact hQ a s hp
  | call e k ih =>
    intro t ht
    obtain ⟨hg, hk, hf⟩ := hp t ht
    exact ⟨hg, ih _ hk, fun r hr => ih r (hf r hr)⟩

theorem wp_guar_mono {guar' : E → σ → σ → Prop} (hg : ∀ e s t, guar e s t → guar' e s t)
    {Q : α → σ → Prop} {p : Program E R α} {s : σ} (hp : p.wp h fails rely guar Q s) :
    p.wp h fails rely guar' Q s := by
  induction p generalizing s with
  | pure a => exact hp
  | call e k ih =>
    intro t ht
    obtain ⟨hge, hk, hf⟩ := hp t ht
    exact ⟨hg _ _ _ hge, ih _ hk, fun r hr => ih r (hf r hr)⟩

theorem wp_and {Q Q' : α → σ → Prop} {p : Program E R α} {s : σ}
    (hp : p.wp h fails rely guar Q s) (hp' : p.wp h fails rely guar Q' s) :
    p.wp h fails rely guar (fun a t => Q a t ∧ Q' a t) s := by
  induction p generalizing s with
  | pure a => exact ⟨hp, hp'⟩
  | call e k ih =>
    intro t ht
    obtain ⟨hg, hk, hf⟩ := hp t ht
    obtain ⟨_, hk', hf'⟩ := hp' t ht
    exact ⟨hg, ih _ hk hk', fun r hr => ih r (hf r hr) (hf' r hr)⟩

theorem wp_trivial (p : Program E R α) (s : σ) :
    p.wp h fails rely (fun _ _ _ => True) (fun _ _ => True) s := by
  induction p generalizing s with
  | pure a => trivial
  | call e k ih => exact fun t _ => ⟨trivial, ih _ _, fun r _ => ih r _⟩

/-- Facts about the result may be proved apart from the guarantee. -/
theorem wp_strengthen {Q Q' : α → σ → Prop} {p : Program E R α} {s : σ}
    (hp : p.wp h fails rely guar Q s) (hp' : p.wp h fails rely (fun _ _ _ => True) Q' s) :
    p.wp h fails rely guar (fun a t => Q a t ∧ Q' a t) s := by
  induction p generalizing s with
  | pure a => exact ⟨hp, hp'⟩
  | call e k ih =>
    intro t ht
    obtain ⟨hg, hk, hf⟩ := hp t ht
    obtain ⟨_, hk', hf'⟩ := hp' t ht
    exact ⟨hg, ih _ hk hk', fun r hr => ih r (hf r hr) (hf' r hr)⟩

theorem wp_bind {f : α → Program E R β} {Q : β → σ → Prop}
    {p : Program E R α} {s : σ}
    (hp : p.wp h fails rely guar (fun a t => (f a).wp h fails rely guar Q t) s) :
    (p.bind f).wp h fails rely guar Q s := by
  induction p generalizing s with
  | pure a => exact hp
  | call e k ih =>
    intro t ht
    obtain ⟨hg, hk, hf⟩ := hp t ht
    exact ⟨hg, ih _ hk, fun r hr => ih r (hf r hr)⟩

/-- The weakest precondition of a program that has not ended is stable under the steps of the
others. -/
theorem wp_stable (trans : ∀ e s t u, rely e s t → rely e t u → rely e s u)
    {Q : α → σ → Prop} {e : E} {k : R e → Program E R α} {s t : σ}
    (hp : (Program.call e k).wp h fails rely guar Q s) (ht : rely e s t) :
    (Program.call e k).wp h fails rely guar Q t :=
  fun u hu => hp u (trans _ _ _ _ ht hu)

/-- In every run each call that took effect satisfies the guarantee, and a run that ends
does so in the postcondition. -/
theorem wp_runs {Q : α → σ → Prop} {p : Program E R α} {s t : σ} {l : List (E × σ)}
    {o : Option α} (hp : p.wp h fails rely guar Q s) (hr : Runs h fails rely p s l o t) :
    (∀ c ∈ l, guar c.1 c.2 (h c.1 c.2).2) ∧ ∀ a, o = some a → Q a t := by
  induction hr with
  | done a s => exact ⟨by simp, fun b hb => by cases hb; exact hp⟩
  | stop e k hst => exact ⟨by simp, by simp⟩
  | answer hsu _ ih =>
    obtain ⟨hg, hk, _⟩ := hp _ hsu
    obtain ⟨hl, hQ⟩ := ih hk
    exact ⟨by simpa using ⟨hg, fun e u hu => hl (e, u) hu⟩, hQ⟩
  | fail hsu hr _ ih => exact ih ((hp _ hsu).2.2 _ hr)

end WP

/-! ## The calls a program can make -/

section Calls

variable {P : E → Prop}

/-- Every call the program can make, whatever the answers, satisfies `P`. -/
def Calls (P : E → Prop) : Program E R α → Prop
  | .pure _ => True
  | .call e k => P e ∧ ∀ r, (k r).Calls P

@[simp] theorem calls_pure (a : α) : (Program.pure a : Program E R α).Calls P := trivial

@[simp] theorem calls_call {e : E} {k : R e → Program E R α} :
    (Program.call e k).Calls P ↔ P e ∧ ∀ r, (k r).Calls P := Iff.rfl

theorem Calls.mono {P' : E → Prop} (h : ∀ e, P e → P' e) {p : Program E R α} (hp : p.Calls P) :
    p.Calls P' := by
  induction p with
  | pure a => trivial
  | call e k ih => exact ⟨h e hp.1, fun r => ih r (hp.2 r)⟩

theorem Calls.bind {p : Program E R α} {f : α → Program E R β} (hp : p.Calls P)
    (hf : ∀ a, (f a).Calls P) : (p.bind f).Calls P := by
  induction p with
  | pure a => exact hf a
  | call e k ih => exact ⟨hp.1, fun r => ih r (hp.2 r)⟩

/-- What every call a program can make preserves is an invariant of its runs. -/
theorem Calls.invariant {h : (e : E) → σ → R e × σ} {fails : (e : E) → R e → Prop}
    {inv : σ → Prop} (hinv : ∀ e s, P e → inv s → inv (h e s).2) {p : Program E R α} {s t : σ}
    {l : List (E × σ)} {o : Option α} (hp : p.Calls P) (hs : inv s)
    (hr : Runs h fails (fun _ => Eq) p s l o t) : inv t := by
  induction hr with
  | done a s => exact hs
  | stop e k hst => exact hst ▸ hs
  | answer hsu _ ih => exact ih (hp.2 _) (hinv _ _ hp.1 (hsu ▸ hs))
  | fail hsu _ _ ih => exact ih (hp.2 _) (hsu ▸ hs)

theorem Calls.runs {h : (e : E) → σ → R e × σ} {fails : (e : E) → R e → Prop}
    {rely : E → σ → σ → Prop}
    {p : Program E R α} {s t : σ} {l : List (E × σ)} {o : Option α} (hp : p.Calls P)
    (hr : Runs h fails rely p s l o t) : ∀ c ∈ l, P c.1 := by
  induction hr with
  | done a s => simp
  | stop e k hst => simp
  | answer hsu _ ih =>
    intro c hc
    rcases List.mem_cons.mp hc with rfl | hc
    · exact hp.1
    · exact ih (hp.2 _) c hc
  | fail hsu _ _ ih => exact ih (hp.2 _)

theorem Calls.expand {E' : Type} {R' : E' → Type} {P' : E' → Prop}
    {impl : (e : E) → Program E' R' (R e)}
    {p : Program E R α} (hp : p.Calls P) (himpl : ∀ e, P e → (impl e).Calls P') :
    (p.expand impl).Calls P' := by
  induction p with
  | pure a => trivial
  | call e k ih => exact (himpl e hp.1).bind fun r => ih r (hp.2 r)

/-- What is stable, and what every call a program can make preserves, holds at its end. -/
theorem Calls.wp {h : (e : E) → σ → R e × σ} {fails : (e : E) → R e → Prop}
    {rely guar : E → σ → σ → Prop} {inv : σ → Prop}
    (hrely : ∀ e s t, P e → inv s → rely e s t → inv t)
    (hcall : ∀ e s, P e → inv s → guar e s (h e s).2 ∧ inv (h e s).2) {p : Program E R α} {s : σ}
    (hp : p.Calls P) (hs : inv s) : p.wp h fails rely guar (fun _ t => inv t) s := by
  induction p generalizing s with
  | pure a => exact hs
  | call e k ih =>
    intro t ht
    have hinv := hrely e s t hp.1 hs ht
    obtain ⟨hg, hinv'⟩ := hcall e t hp.1 hinv
    exact ⟨hg, ih _ (hp.2 _) hinv', fun r _ => ih r (hp.2 r) hinv⟩

end Calls

/-! ## Programs that return errors

`Proc` is the monad of programs that may return an error; a `do` block in it returns the
first error of its steps, which is the source's `if err != nil { return err }`. -/

/-- A program that returns a value or an error. -/
abbrev Proc (E : Type) (R : E → Type) (ε α : Type) : Type := ExceptT ε (Program E R) α

section Proc

variable {ε ε' : Type} {h : (e : E) → σ → R e × σ} {fails : (e : E) → R e → Prop}
  {rely guar : E → σ → σ → Prop}

/-- The outcome of a program, an error included, as a value. -/
def Proc.outcome (p : Proc E R ε α) : Proc E R ε' (Except ε α) := ExceptT.lift p.run

/-- Make one call whose answer is a value or an error, and give the error a new form. -/
def Proc.ask {V : E → Type} (e : E) (onError : ε' → ε) :
    Proc E (fun e => Except ε' (V e)) ε (V e) :=
  ExceptT.mk ((perform e).bind fun r => .pure (r.mapError onError))

@[simp] theorem Proc.run_bind (p : Proc E R ε α) (f : α → Proc E R ε β) :
    (p >>= f).run = p.run.bind fun
      | .ok a => (f a).run
      | .error e => .pure (.error e) := by
  simp only [ExceptT.run_bind, bind_eq]
  congr 1
  funext r
  cases r <;> rfl

@[simp] theorem Proc.run_pure (a : α) : (Pure.pure a : Proc E R ε α).run = .pure (.ok a) := rfl

@[simp] theorem Proc.run_map (f : α → β) (p : Proc E R ε α) :
    (f <$> p).run = p.run.bind fun r => .pure (r.map f) := by
  show p.run.bind _ = _
  congr 1
  funext r
  cases r <;> rfl

@[simp] theorem Proc.run_throw (e : ε) : (throw e : Proc E R ε α).run = .pure (.error e) := rfl

@[simp] theorem Proc.run_outcome (p : Proc E R ε α) :
    (p.outcome : Proc E R ε' (Except ε α)).run = p.run.bind fun r => .pure (.ok r) := rfl

@[simp] theorem Proc.run_ask {V : E → Type} (e : E) (onError : ε' → ε) :
    (Proc.ask e onError : Proc E (fun e => Except ε' (V e)) ε (V e)).run =
      .call e fun r => .pure (r.mapError onError) := rfl

/-- A step that returns a value goes on with it. -/
theorem Proc.exec_bind {p : Proc E R ε α} {a : α} {s t : σ} (hp : p.run.exec h s = (.ok a, t))
    (f : α → Proc E R ε β) : (p >>= f).run.exec h s = (f a).run.exec h t := by
  rw [Proc.run_bind, Program.exec_bind, hp]

theorem Proc.exec_bind_error {p : Proc E R ε α} {e : ε} {s t : σ}
    (hp : p.run.exec h s = (.error e, t))
    (f : α → Proc E R ε β) : (p >>= f).run.exec h s = (.error e, t) := by
  rw [Proc.run_bind, Program.exec_bind, hp]
  rfl

theorem Proc.mem_trace_bind {p : Proc E R ε α} {a : α} {s t : σ} (hp : p.run.exec h s = (.ok a, t))
    {f : α → Proc E R ε β} {c : E × σ} (hc : c ∈ (f a).run.trace h t) :
    c ∈ (p >>= f).run.trace h s := by
  rw [Proc.run_bind, Program.trace_bind, hp]
  exact List.mem_append_right _ hc

theorem Proc.bind_calls {P : E → Prop} {p : Proc E R ε α} {f : α → Proc E R ε β}
    (hp : p.run.Calls P) (hf : ∀ a, (f a).run.Calls P) : (p >>= f).run.Calls P := by
  rw [Proc.run_bind]
  refine hp.bind fun r => ?_
  cases r with
  | ok a => exact hf a
  | error e => simp

theorem Proc.map_calls {P : E → Prop} {f : α → β} {p : Proc E R ε α} (hp : p.run.Calls P) :
    (f <$> p).run.Calls P := by
  rw [Proc.run_map]
  exact hp.bind fun r => by simp

theorem Proc.outcome_calls {P : E → Prop} {p : Proc E R ε α} (hp : p.run.Calls P) :
    (p.outcome : Proc E R ε' (Except ε α)).run.Calls P := by
  rw [Proc.run_outcome]
  exact hp.bind fun r => by simp

/-- The rule for a step that may return an error. -/
theorem Proc.wp_bind {p : Proc E R ε α} {f : α → Proc E R ε β}
    {Q : Except ε β → σ → Prop} {s : σ}
    (hp : p.run.wp h fails rely guar (fun r t => match r with
      | .ok a => (f a).run.wp h fails rely guar Q t
      | .error e => (Program.pure (.error e)).wp h fails rely guar Q t) s) :
    (p >>= f).run.wp h fails rely guar Q s := by
  rw [Proc.run_bind]
  refine Program.wp_bind (wp_mono ?_ hp)
  intro r t hr
  cases r <;> exact hr

/-- The rule for a part whose outcome the program looks at. -/
theorem Proc.wp_outcome_bind {p : Proc E R ε α} {f : Except ε α → Proc E R ε' β}
    {Q : Except ε' β → σ → Prop} {s : σ}
    (hp : p.run.wp h fails rely guar (fun r t => (f r).run.wp h fails rely guar Q t) s) :
    (p.outcome >>= f).run.wp h fails rely guar Q s := by
  rw [Proc.run_bind, Proc.run_outcome, bind_assoc]
  exact Program.wp_bind (wp_mono (fun _ _ hr => hr) hp)

section Ask

variable {V : E → Type} {h : (e : E) → σ → Except ε (V e) × σ}
    {fails : (e : E) → Except ε (V e) → Prop}

/-- The rule for a call whose error the program looks at. -/
theorem Proc.outcome_ask_wp {e : E} {f : Except ε (V e) → Proc E (fun e => Except ε (V e)) ε' β}
    {Q : Except ε' β → σ → Prop} {s : σ}
    (hf : ∀ t, rely e s t → guar e t (h e t).2 ∧
      (f (h e t).1).run.wp h fails rely guar Q (h e t).2 ∧
      ∀ r, fails e r → (f r).run.wp h fails rely guar Q t) :
    ((Proc.ask e id).outcome >>= f).run.wp h fails rely guar Q s := by
  intro t ht
  obtain ⟨hguar, hanswer, hfail⟩ := hf t ht
  refine ⟨hguar, ?_, fun r hr => ?_⟩
  · cases hr : (h e t).1 <;> rw [hr] at hanswer <;> exact hanswer
  · cases r <;> exact hfail _ hr

/-- A run that begins with a call whose error the program looks at. -/
theorem Proc.runs_outcome_ask {e : E}
    {f : Except ε (V e) → Proc E (fun e => Except ε (V e)) ε' β} {s t : σ}
    {l : List (E × σ)} {a : Except ε' β}
    (hr : Runs h fails rely ((Proc.ask e id).outcome >>= f).run s l (some a) t) :
    (∃ u l', l = (e, u) :: l' ∧ Runs h fails rely (f (h e u).1).run (h e u).2 l' (some a) t) ∨
    (∃ u r, fails e r ∧ Runs h fails rely (f r).run u l (some a) t) := by
  cases hr with
  | @answer _ _ _ u _ l' _ hsu rest =>
    refine .inl ⟨u, l', rfl, ?_⟩
    cases hanswer : (h e u).1 <;> rw [hanswer] at rest <;> exact rest
  | @fail _ _ r _ u _ _ _ hsu hfails rest =>
    refine .inr ⟨u, r, hfails, ?_⟩
    cases r <;> exact rest

/-- The rule for a call whose error the program returns. -/
theorem Proc.ask_wp {e : E} {f : V e → Proc E (fun e => Except ε (V e)) ε β}
    {Q : Except ε β → σ → Prop} {s : σ}
    (hf : ∀ t, rely e s t → guar e t (h e t).2 ∧
      (∀ a, (h e t).1 = .ok a → (f a).run.wp h fails rely guar Q (h e t).2) ∧
      (∀ err, (h e t).1 = .error err → Q (.error err) (h e t).2) ∧
      ∀ r, fails e r → (match r with
        | .ok a => (f a).run.wp h fails rely guar Q t
        | .error err => Q (.error err) t)) :
    (Proc.ask e id >>= f).run.wp h fails rely guar Q s := by
  intro t ht
  obtain ⟨hguar, hok, herror, hfail⟩ := hf t ht
  refine ⟨hguar, ?_, fun r hr => ?_⟩
  · cases hr : (h e t).1 with
    | ok a => exact hok a hr
    | error err => exact herror err hr
  · have := hfail r hr
    cases r <;> exact this

end Ask

/-- A run of two steps that ends, in a value or not, is a run of the first, and one of the second
if the first returns a value. -/
theorem Proc.runs_bind {p : Proc E R ε α} {f : α → Proc E R ε β} {s t : σ} {l : List (E × σ)}
    {o : Option (Except ε β)} (hr : Runs h fails rely (p >>= f).run s l o t) :
    (∃ a u l₁ l₂, Runs h fails rely p.run s l₁ (some (.ok a)) u ∧
      Runs h fails rely (f a).run u l₂ o t ∧
      l = l₁ ++ l₂) ∨
    (∃ o', Runs h fails rely p.run s l o' t ∧ (∀ a, o' ≠ some (.ok a)) ∧
      ∀ b, o ≠ some (.ok b)) := by
  rw [Proc.run_bind] at hr
  obtain ⟨r, u, l₁, l₂, h₁, h₂, rfl⟩ | ⟨h₁, rfl⟩ := hr.of_bind
  · cases r with
    | ok a => exact .inl ⟨a, u, l₁, l₂, h₁, h₂, rfl⟩
    | error e =>
      cases h₂ with
      | done => exact .inr ⟨_, by simpa using h₁, by simp, by simp⟩
  · exact .inr ⟨none, h₁, by simp, by simp⟩

section Poll

variable {V : E → Type} {h : (e : E) → σ → Except ε' (V e) × σ}
    {fails : (e : E) → Except ε' (V e) → Prop}

/-- Make a call again and again, at most so many times, until `judge` decides on what it returns. -/
def Proc.poll (e : E) (onError : ε' → ε) (judge : V e → Option (Except ε β)) (timeout : ε) :
    Nat → Proc E (fun e => Except ε' (V e)) ε β
  | 0 => throw timeout
  | rounds + 1 => do
    let v ← Proc.ask e onError
    match judge v with
    | some r => ExceptT.mk (.pure r)
    | none => Proc.poll e onError judge timeout rounds

/-- The answer to `e` in the state of a call does not decide. -/
def Undecided (h : (e : E) → σ → Except ε' (V e) × σ) (e : E) (judge : V e → Option (Except ε β))
    (c : E × σ) : Prop :=
  ∀ v, (h e c.2).1 = .ok v → judge v = none

/-- A loop that polls is decided by its last call, or by none of them. -/
theorem Proc.poll_runs {e : E} {onError : ε' → ε} {judge : V e → Option (Except ε β)} {timeout : ε}
    (hfails : ∀ r, fails e r → ∃ err, r = .error err) {rounds : Nat} {s t : σ} {l : List (E × σ)}
    {o : Option (Except ε β)}
    (hr : Runs h fails rely (Proc.poll e onError judge timeout rounds).run s l o t) :
    (∀ c ∈ l, c.1 = e) ∧
    ((∃ l' u v r, l = l' ++ [(e, u)] ∧ (h e u).1 = .ok v ∧ judge v = some r ∧ o = some r ∧
        ∀ c ∈ l', Undecided h e judge c) ∨
      ((∀ b, o ≠ some (.ok b)) ∧ ∀ c ∈ l, Undecided h e judge c)) := by
  induction rounds generalizing s l with
  | zero => cases hr with | done => exact ⟨by simp, .inr ⟨by simp, by simp⟩⟩
  | succ rounds ih =>
    cases hr with
    | stop => exact ⟨by simp, .inr ⟨by simp, by simp⟩⟩
    | @fail _ _ r _ u _ _ _ hsu hr rest =>
      obtain ⟨err, rfl⟩ := hfails r hr
      cases rest with | done => exact ⟨by simp, .inr ⟨by simp, by simp⟩⟩
    | @answer _ _ _ u _ l _ hsu rest =>
      cases hv : (h e u).1 with
      | error err =>
        rw [hv] at rest
        cases rest with
        | done => exact ⟨by simp, .inr ⟨by simp, by simp [Undecided, hv]⟩⟩
      | ok v =>
        have hrest : Runs h fails rely (match judge v with
            | some r => (ExceptT.mk (.pure r) : Proc E (fun e => Except ε' (V e)) ε β)
            | none => Proc.poll e onError judge timeout rounds).run (h e u).2 l o t := by
          rw [hv] at rest
          exact rest
        cases hjudge : judge v with
        | some r =>
          rw [hjudge] at hrest
          cases hrest with
          | done => exact ⟨by simp, .inl ⟨[], u, v, r, rfl, hv, hjudge, rfl, by simp⟩⟩
        | none =>
          rw [hjudge] at hrest
          have hu : Undecided h e judge (e, u) := by
            intro v' hv'
            rw [hv] at hv'
            exact Except.ok.inj hv' ▸ hjudge
          obtain ⟨hcalls, ⟨l', u', v', r, rfl, hv', hjudge', ho, hl'⟩ | ⟨ho, hl⟩⟩ := ih hrest
          · refine ⟨by simpa using hcalls, .inl ⟨(e, u) :: l', u', v', r, rfl, hv',
              hjudge', ho, ?_⟩⟩
            exact List.forall_mem_cons.mpr ⟨hu, hl'⟩
          · exact ⟨by simpa using hcalls, .inr ⟨ho, List.forall_mem_cons.mpr ⟨hu, hl⟩⟩⟩

/-- The rule for a loop that polls: `I` holds before every call, and what decides
establishes `Q`. -/
theorem Proc.poll_wp {guar : E → σ → σ → Prop} {e : E} {onError : ε' → ε}
    {judge : V e → Option (Except ε β)}
    {timeout : ε} {I : σ → Prop} {Q : Except ε β → σ → Prop}
    (hfails : ∀ r, fails e r → ∃ err, r = .error err)
    (hcall : ∀ s t, I s → rely e s t → guar e t (h e t).2 ∧ I (h e t).2 ∧
      ∀ v r, (h e t).1 = .ok v → judge v = some r → Q r (h e t).2)
    (herror : ∀ err t, Q (.error err) t) {rounds : Nat} {s : σ} (hs : I s) :
    (Proc.poll e onError judge timeout rounds).run.wp h fails rely guar Q s := by
  induction rounds generalizing s with
  | zero => exact herror _ s
  | succ rounds ih =>
    intro t ht
    obtain ⟨hguar, hinv, hdecided⟩ := hcall s t hs ht
    refine ⟨hguar, ?_, fun r hr => ?_⟩
    · cases hv : (h e t).1 with
      | error err => exact herror _ _
      | ok v =>
        have hrest : (match judge v with
            | some r => (ExceptT.mk (.pure r) : Proc E (fun e => Except ε' (V e)) ε β)
            | none => Proc.poll e onError judge timeout rounds).run.wp h fails rely guar Q
              (h e t).2 := by
          cases hjudge : judge v with
          | some r => exact hdecided v r hv hjudge
          | none => exact ih hinv
        exact hrest
    · obtain ⟨err, rfl⟩ := hfails r hr
      exact herror _ t

end Poll

/-- What the last step establishes, whatever came before it and unless an error did. -/
theorem Proc.wp_bind_last {p : Proc E R ε α} {f : α → Proc E R ε β} {Q : Except ε β → σ → Prop}
    (herror : ∀ e t, Q (.error e) t)
    (hf : ∀ a t, (f a).run.wp h fails rely (fun _ _ _ => True) Q t) (s : σ) :
    (p >>= f).run.wp h fails rely (fun _ _ _ => True) Q s := by
  refine Proc.wp_bind (wp_mono ?_ (wp_trivial p.run s))
  rintro (e | a) t _
  · exact herror e t
  · exact hf a t

end Proc

/-! ## What holds when a value is returned -/

section Ensures

variable {ε ε' : Type} {h : (e : E) → σ → R e × σ}

/-- If the program, running alone, returns a value, then `Q` holds of it at the end. -/
def Proc.Ensures (h : (e : E) → σ → R e × σ) (p : Proc E R ε α) (s : σ) (Q : α → σ → Prop) : Prop :=
  ∀ a t, p.run.exec h s = (.ok a, t) → Q a t

variable {p : Proc E R ε α} {s : σ} {Q Q' : α → σ → Prop}

theorem Proc.Ensures.mono (hp : p.Ensures h s Q) (hQ : ∀ a t, Q a t → Q' a t) : p.Ensures h s Q' :=
  fun a t hr => hQ a t (hp a t hr)

theorem Proc.Ensures.pure {a : α} (ha : Q a s) : (Pure.pure a : Proc E R ε α).Ensures h s Q := by
  rintro b t hr
  cases hr
  exact ha

theorem Proc.Ensures.throw (e : ε) : (throw e : Proc E R ε α).Ensures h s Q := by
  rintro b t hr
  cases hr

theorem Proc.Ensures.bind {f : α → Proc E R ε β} {Q : β → σ → Prop}
    (hp : p.Ensures h s fun a t => (f a).Ensures h t Q) : (p >>= f).Ensures h s Q := by
  intro b u hr
  rw [Proc.run_bind, Program.exec_bind] at hr
  rcases hexec : p.run.exec h s with ⟨e | a, t⟩
  · rw [hexec] at hr
    cases hr
  · rw [hexec] at hr
    exact hp a t hexec b u hr

/-- The rule for a part whose error is given another form. -/
theorem Proc.Ensures.outcome_bind {f : Except ε α → Proc E R ε' β} {Q : β → σ → Prop}
    (hp : ∀ r t, p.run.exec h s = (r, t) → (f r).Ensures h t Q) :
    (p.outcome >>= f).Ensures h s Q := by
  intro b u hr
  rw [Proc.run_bind, Proc.run_outcome, bind_assoc, Program.exec_bind] at hr
  exact hp _ _ rfl b u hr

variable {V : E → Type} {h : (e : E) → σ → Except ε' (V e) × σ}

theorem Proc.Ensures.ask {e : E} {onError : ε' → ε} {Q : V e → σ → Prop}
    (he : ∀ v, (h e s).1 = .ok v → Q v (h e s).2) : (Proc.ask e onError).Ensures h s Q := by
  intro v t hr
  rw [Proc.run_ask, exec_call, exec_pure, Prod.mk.injEq] at hr
  obtain ⟨hv, rfl⟩ := hr
  cases hr : (h e s).1 with
  | error err =>
    rw [hr] at hv
    cases hv
  | ok w =>
    rw [hr] at hv
    cases hv
    exact he _ hr

/-- The rule for a call whose error the program looks at. -/
theorem Proc.Ensures.outcome_ask {e : E}
    {f : Except ε' (V e) → Proc E (fun e => Except ε' (V e)) ε β}
    {Q : β → σ → Prop} (he : (f (h e s).1).Ensures h (h e s).2 Q) :
    ((Proc.ask e id).outcome >>= f).Ensures h s Q := by
  refine .outcome_bind fun r t hr => ?_
  rw [Proc.run_ask, exec_call, exec_pure, Prod.mk.injEq] at hr
  obtain ⟨hr, rfl⟩ := hr
  have hid : ∀ x : Except ε' (V e), x.mapError id = x := by
    rintro (_ | _) <;> rfl
  rw [← hr, hid]
  exact he

end Ensures

/-! ## Programs that run alone -/

section Alone

variable {h : (e : E) → σ → R e × σ} {fails : (e : E) → R e → Prop}
  {guar : E → σ → σ → Prop}

/-- The weakest precondition of a program that runs alone. -/
abbrev wpAlone (h : (e : E) → σ → R e × σ) (fails : (e : E) → R e → Prop)
    (guar : E → σ → σ → Prop) (p : Program E R α) (Q : α → σ → Prop) (s : σ) : Prop :=
  p.wp h fails (fun _ => Eq) guar Q s

@[simp] theorem wpAlone_pure {a : α} {Q : α → σ → Prop} {s : σ} :
    (Program.pure a).wpAlone h fails guar Q s ↔ Q a s := by
  simp [wpAlone, wp]

@[simp] theorem wpAlone_call {e : E} {k : R e → Program E R α} {Q : α → σ → Prop} {s : σ} :
    (Program.call e k).wpAlone h fails guar Q s ↔
      guar e s (h e s).2 ∧ (k (h e s).1).wpAlone h fails guar Q (h e s).2 ∧
        ∀ r, fails e r → (k r).wpAlone h fails guar Q s := by
  simp [wpAlone, wp]

theorem wpAlone_bind {f : α → Program E R β} {Q : β → σ → Prop} {p : Program E R α} {s : σ}
    (hp : p.wpAlone h fails guar (fun a t => (f a).wpAlone h fails guar Q t) s) :
    (p.bind f).wpAlone h fails guar Q s :=
  wp_bind hp

/-- What relates the states before and after every call relates those before and after every
run, cut short or not. -/
theorem wpAlone_rel {rel : σ → σ → Prop} (refl : ∀ s, rel s s)
    (trans : ∀ s t u, rel s t → rel t u → rel s u)
    (hrel : ∀ e s, guar e s (h e s).2 → rel s (h e s).2)
    {Q : α → σ → Prop} {p : Program E R α} {s t : σ} {l : List (E × σ)} {o : Option α}
    (hp : p.wpAlone h fails guar Q s) (hr : Runs h fails (fun _ => Eq) p s l o t) : rel s t := by
  induction hr with
  | done a s => exact refl s
  | stop e k hst => exact hst ▸ refl _
  | answer hsu _ ih =>
    subst hsu
    obtain ⟨hg, hk, _⟩ := wpAlone_call.mp hp
    exact trans _ _ _ (hrel _ _ hg) (ih hk)
  | fail hsu hr _ ih => exact hsu ▸ ih (hsu ▸ (wpAlone_call.mp hp).2.2 _ hr)

theorem Calls.wpAlone {P : E → Prop} {inv : σ → Prop}
    (hinv : ∀ e s, P e → inv s → inv (h e s).2) {p : Program E R α} {s : σ} (hp : p.Calls P)
    (hs : inv s) : p.wpAlone h fails (fun _ _ _ => True) (fun _ t => inv t) s :=
  hp.wp (fun _ _ _ _ hs ht => ht ▸ hs) (fun e s he hs => ⟨trivial, hinv e s he hs⟩) hs

theorem wpAlone_exec {Q : α → σ → Prop} {p : Program E R α} {s : σ}
    (hp : p.wpAlone h fails guar Q s) : Q (p.exec h s).1 (p.exec h s).2 := by
  induction p generalizing s with
  | pure a => simpa using hp
  | call e k ih => exact ih _ (wpAlone_call.mp hp).2.1

end Alone

end Program

end SimpleZfsCsi.Library
