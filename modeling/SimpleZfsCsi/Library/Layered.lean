import SimpleZfsCsi.Library.Program

/-!
# One interface on top of another

A program over an interface is turned into one over a lower interface by carrying out every call
by a program there (`Program.expand`). `Layer` says what that program has to do: whether it ends
or is cut short, others of the upper interface cannot tell it from the call itself, one that
failed without effect, or one that was not made. Every run below is then matched by one above.
-/

namespace SimpleZfsCsi.Library.Program

variable {E E' : Type} {R : E → Type} {R' : E' → Type} {σ τ α : Type}

/-- In every run `I` holds at the end, and the postcondition if the program ended. -/
theorem wp_invariant {h : (e : E) → σ → R e × σ} {fails : (e : E) → R e → Prop}
    {rely : E → σ → σ → Prop}
    {I : σ → Prop} (hrely : ∀ e s t, I s → rely e s t → I t) {Q : α → σ → Prop}
    {p : Program E R α} {s t : σ}
    {l : List (E × σ)} {o : Option α} (hp : p.wp h fails rely (fun _ _ t => I t) Q s) (hs : I s)
    (hr : Runs h fails rely p s l o t) : I t ∧ ∀ a, o = some a → Q a t := by
  induction hr with
  | done a s => exact ⟨hs, fun b hb => by cases hb; exact hp⟩
  | stop e k hst => exact ⟨hrely _ _ _ hs hst, by simp⟩
  | answer hsu _ ih =>
    obtain ⟨hI, hk, _⟩ := hp _ hsu
    exact ih hk hI
  | fail hsu hr _ ih => exact ih ((hp _ hsu).2.2 _ hr) (hrely _ _ _ hs hsu)

/-- Every program can be stopped at once, unless it has ended. -/
theorem Runs.idle {h : (e : E) → σ → R e × σ} {fails : (e : E) → R e → Prop}
    {rely : E → σ → σ → Prop}
    (refl : ∀ e s, rely e s s) (p : Program E R α) (s : σ) : ∃ o, Runs h fails rely p s [] o s := by
  cases p with
  | pure a => exact ⟨_, .done a s⟩
  | call e k => exact ⟨_, .stop e k (refl e s)⟩

section Layer

variable (h : (e : E) → σ → R e × σ) (fails : (e : E) → R e → Prop) (rely : E → σ → σ → Prop)
  (h' : (e : E') → τ → R' e × τ) (fails' : (e : E') → R' e → Prop) (rely' : E' → τ → τ → Prop)

/-- What is there when a program that carries out `e` in the state `u` has ended or was
cut short. -/
def Carried (e : E) (u : σ) : Option (R e) → σ → Prop
  | some r, t => (r, t) = h e u ∨ (fails e r ∧ t = u)
  | none, t => t = u ∨ t = (h e u).2

/-- The calls that are `ok` are carried out by `impl`; a state below shows as `abs` above. -/
structure Layer (impl : (e : E) → Program E' R' (R e)) (abs : τ → σ) (inv : τ → Prop)
    (ok : E → σ → Prop) : Prop where
  refl : ∀ e s, rely e s s
  carried : ∀ {e s l o t}, inv s → (∀ u, rely e (abs s) u → ok e u) →
    Runs h' fails' rely' (impl e) s l o t →
    inv t ∧ ∃ u, rely e (abs s) u ∧ Carried h fails e u o (abs t)

variable {h fails rely h' fails' rely'} {impl : (e : E) → Program E' R' (R e)} {abs : τ → σ}
    {inv : τ → Prop}
  {ok : E → σ → Prop}

/-- A program that only makes calls that are `ok` runs above as it runs below. If the run below is
cut short then so is the one above, unless nothing was left to do. -/
theorem Layer.runs (L : Layer h fails rely h' fails' rely' impl abs inv ok)
    {p : Program E R α} {s t : τ}
    {l : List (E' × τ)} {o : Option α} (hs : inv s)
    (hp : p.wp h fails rely (fun e u _ => ok e u) (fun _ _ => True) (abs s))
    (hr : Runs h' fails' rely' (p.expand impl) s l o t) :
    inv t ∧ ∃ l' o', Runs h fails rely p (abs s) l' o' (abs t) ∧ ∀ a, o = some a → o' = some a := by
  induction p generalizing s l with
  | pure a =>
    cases hr with
    | done => exact ⟨hs, [], some a, .done a _, fun _ ha => ha⟩
  | call e k ih =>
    have hok : ∀ u, rely e (abs s) u → ok e u := fun u hu => (hp u hu).1
    obtain ⟨r, v, l₁, l₂, hfirst, hrest, rfl⟩ | ⟨hfirst, rfl⟩ := hr.of_bind
    · obtain ⟨hv, u, hu, hcarried⟩ := L.carried hs hok hfirst
      obtain ⟨_, hk, hf⟩ := hp u hu
      obtain hanswer | ⟨hfails, habs⟩ := hcarried
      · rw [← hanswer] at hk
        obtain ⟨hinv, l', o', hruns, ho⟩ := ih r hv hk hrest
        have hstep : Runs h fails rely (k (h e u).1) (h e u).2 l' o' (abs t) := by
          rw [← hanswer]
          exact hruns
        exact ⟨hinv, _, o', .answer hu hstep, ho⟩
      · obtain ⟨hinv, l', o', hruns, ho⟩ := ih r hv (habs ▸ hf r hfails) hrest
        exact ⟨hinv, l', o', .fail hu hfails (habs ▸ hruns), ho⟩
    · obtain ⟨hv, u, hu, hcarried⟩ := L.carried hs hok hfirst
      obtain habs | habs := hcarried
      · exact ⟨hv, [], none, .stop e k (habs ▸ hu), by simp⟩
      · obtain ⟨o', hidle⟩ : ∃ o', Runs h fails rely (k (h e u).1) (h e u).2 [] o' (h e u).2 :=
          Runs.idle L.refl _ _
        rw [habs]
        exact ⟨hv, _, o', .answer hu hidle, by simp⟩

end Layer

end SimpleZfsCsi.Library.Program
