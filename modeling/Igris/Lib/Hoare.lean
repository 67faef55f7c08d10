import Igris.Lib.Program

/-!
# Pre- and postconditions of programs that may be cut off

A program that runs alone on a machine can stop between any two of its actions, when
the machine loses power.  Its specification therefore has two parts: a property of the
state that holds after every action, and a postcondition for the case that it returns.
Both may rely on an assumption about each single action and its answer.

Main results:

- Definition {lit}`Prog.Meets`: the weakest precondition of such a specification.
- Theorem {lit}`Prog.Meets.bind`: specifications compose along sequencing.
- Theorem {lit}`RunsTo.of_meets`: a program that meets its specification keeps it in
  every run, whether it is cut off or returns.
-/

namespace Concurrency

section Hoare

variable {Act : Type} {Ans : Act → Type} {σ α β : Type}

/-- The program runs alone from a first to a last state while every step meets the
assumption.  It is cut off if there is no result. -/
inductive RunsTo (perform : Semantics Act Ans σ) (ok : σ → (a : Act) → Ans a → Prop) :
    Prog Act Ans α → σ → Option α → σ → Prop where
  | cut (p : Prog Act Ans α) (s : σ) : RunsTo perform ok p s none s
  | ret (value : α) (s : σ) : RunsTo perform ok (.ret value) s (some value) s
  | act {action : Act} {next : Ans action → Prog Act Ans α} {answer : Ans action}
      {s s₁ s₂ : σ} {result : Option α}
      (hstep : perform action answer s = some s₁) (hok : ok s action answer)
      (hrest : RunsTo perform ok (next answer) s₁ result s₂) :
      RunsTo perform ok (.act action next) s result s₂

variable {p : Prog Act Ans α} {s : σ}

namespace Prog

/-- From this state on, every action leads to a state with the invariant, and the
program returns with the postcondition. -/
def Meets (perform : Semantics Act Ans σ) (ok : σ → (a : Act) → Ans a → Prop) (I : σ → Prop)
    (post : α → σ → Prop) : Prog Act Ans α → σ → Prop
  | .ret value, s => post value s
  | .act action next, s => ∀ answer s₁, perform action answer s = some s₁ → ok s action answer →
      I s₁ ∧ (next answer).Meets perform ok I post s₁

variable {perform : Semantics Act Ans σ} {ok : σ → (a : Act) → Ans a → Prop} {I : σ → Prop}
  {post post' : α → σ → Prop} {post₂ : β → σ → Prop}

theorem Meets.bind {rest : α → Prog Act Ans β} (hp : p.Meets perform ok I post s)
    (hrest : ∀ value s₁, post value s₁ → (rest value).Meets perform ok I post₂ s₁) :
    (p.bind rest).Meets perform ok I post₂ s := by
  induction p generalizing s with
  | ret value => exact hrest value s hp
  | act action next ih =>
      intro answer s₁ hstep hok
      have hnext := hp answer s₁ hstep hok
      exact ⟨hnext.1, ih answer hnext.2⟩

end Prog

variable {perform : Semantics Act Ans σ} {ok : σ → (a : Act) → Ans a → Prop} {I : σ → Prop}
  {post : α → σ → Prop}

/-- A run keeps the invariant, and the postcondition if it is not cut off. -/
theorem RunsTo.of_meets {s' : σ} {result : Option α} (h : RunsTo perform ok p s result s')
    (hp : p.Meets perform ok I post s) (hs : I s) :
    I s' ∧ ∀ value, result = some value → post value s' := by
  induction h with
  | cut p s => exact ⟨hs, by simp⟩
  | ret value s =>
      refine ⟨hs, ?_⟩
      rintro _ ⟨⟩
      exact hp
  | act hstep hok hrest ih =>
      obtain ⟨hinvariant, hnext⟩ := hp _ _ hstep hok
      exact ih hnext hinvariant

/-- Run a program while every step meets the assumption, with answers and next states
chosen by action and state. -/
def Prog.runUnder (ok : σ → (a : Act) → Ans a → Prop) [∀ s a answer, Decidable (ok s a answer)]
    (respond : (a : Act) → σ → Option (Ans a × σ)) : Prog Act Ans α → σ → Option (α × σ)
  | .ret value, s => some (value, s)
  | .act action next, s =>
      match respond action s with
      | some (answer, s₁) =>
          if ok s action answer then (next answer).runUnder ok respond s₁ else none
      | none => none

theorem runsTo_of_runUnder [∀ s a answer, Decidable (ok s a answer)]
    {respond : (a : Act) → σ → Option (Ans a × σ)}
    (hrespond : ∀ a s answer s', respond a s = some (answer, s') → perform a answer s = some s')
    {out : α × σ} (h : p.runUnder ok respond s = some out) :
    RunsTo perform ok p s (some out.1) out.2 := by
  induction p generalizing s with
  | ret value =>
      simp only [Prog.runUnder, Option.some.injEq] at h
      subst h
      exact RunsTo.ret value s
  | act action next ih =>
      simp only [Prog.runUnder] at h
      split at h
      · rename_i answer s₁ hanswer
        split at h
        · rename_i hok
          exact RunsTo.act (hrespond _ _ _ _ hanswer) hok (ih _ h)
        · cases h
      · cases h

/-! ## Ghost values -/

namespace Prog

variable {γ : Type} {track : γ → Performed Act Ans → γ} {ok : γ → Performed Act Ans → Prop}
  {post : α → σ → γ → Prop} {post₂ : β → σ → γ → Prop} {g : γ}

/-- A ghost value follows the actions of the program.  If every action is admissible for
it, the program returns with the postcondition. -/
def Follows (perform : Semantics Act Ans σ) (track : γ → Performed Act Ans → γ)
    (ok : γ → Performed Act Ans → Prop) (post : α → σ → γ → Prop) : Prog Act Ans α → σ → γ → Prop
  | .ret value, s, g => post value s g
  | .act action next, s, g => ∀ answer s₁, perform action answer s = some s₁ →
      ok g ⟨action, answer⟩ →
      (next answer).Follows perform track ok post s₁ (track g ⟨action, answer⟩)

theorem Follows.bind {rest : α → Prog Act Ans β} (hp : p.Follows perform track ok post s g)
    (hrest : ∀ value s₁ g₁, post value s₁ g₁ → (rest value).Follows perform track ok post₂ s₁ g₁) :
    (p.bind rest).Follows perform track ok post₂ s g := by
  induction p generalizing s g with
  | ret value => exact hrest value s g hp
  | act action next ih =>
      exact fun answer s₁ hstep hok => ih answer (hp answer s₁ hstep hok)

theorem Follows.weaken {post' : α → σ → γ → Prop} (hp : p.Follows perform track ok post s g)
    (himp : ∀ value s g, post value s g → post' value s g) :
    p.Follows perform track ok post' s g := by
  induction p generalizing s g with
  | ret value => exact himp value s g hp
  | act action next ih => exact fun answer s₁ hstep hok => ih answer (hp answer s₁ hstep hok)

theorem Follows.and {post' : α → σ → γ → Prop} (hp : p.Follows perform track ok post s g)
    (hp' : p.Follows perform track ok post' s g) :
    p.Follows perform track ok (fun value s g => post value s g ∧ post' value s g) s g := by
  induction p generalizing s g with
  | ret value => exact ⟨hp, hp'⟩
  | act action next ih =>
      exact fun answer s₁ hstep hok => ih answer (hp answer s₁ hstep hok) (hp' answer s₁ hstep hok)

/-- A property of state and ghost value that every action of the program keeps. -/
theorem Guarded.follows {may : Act → Prop} {result : α → Prop} {J : σ → γ → Prop}
    (hp : p.Guarded (fun _ _ => True) may result) (hJ : J s g)
    (hkeep : ∀ a answer s s₁ g, may a → perform a answer s = some s₁ → J s g →
      J s₁ (track g ⟨a, answer⟩)) :
    p.Follows perform track ok (fun value s' g' => J s' g' ∧ result value) s g := by
  induction p generalizing s g with
  | ret value => exact ⟨hJ, hp⟩
  | act action next ih =>
      intro answer s₁ hstep _
      exact ih answer (hp.2 answer trivial) (hkeep _ _ _ _ _ hp.1 hstep hJ)

/-- The first value of a kind, kept as a ghost value. -/
def noteFirst {δ : Type} (f : Performed Act Ans → Option δ) (first : Option δ)
    (d : Performed Act Ans) : Option δ :=
  match f d with
  | none => first
  | some value => first.or (some value)

@[simp] theorem noteFirst_some {δ : Type} (f : Performed Act Ans → Option δ) (value : δ)
    (d : Performed Act Ans) : noteFirst f (some value) d = some value := by
  unfold noteFirst
  split <;> rfl

theorem foldl_noteFirst {δ : Type} (f : Performed Act Ans → Option δ)
    (done : List (Performed Act Ans)) (first : Option δ) :
    done.foldl (noteFirst f) first = first.or (done.findSome? f) := by
  induction done generalizing first with
  | nil => simp
  | cons d rest ih =>
      rw [List.foldl_cons, ih, List.findSome?_cons]
      cases hd : f d <;> simp [noteFirst, hd, Option.or_assoc]

/-- All actions are admissible, each for the ghost value it is issued at. -/
def Admitted (track : γ → Performed Act Ans → γ) (ok : γ → Performed Act Ans → Prop) :
    γ → List (Performed Act Ans) → Prop
  | _, [] => True
  | g, d :: ds => ok g d ∧ Admitted track ok (track g d) ds

theorem admitted_true (track : γ → Performed Act Ans → γ) (done : List (Performed Act Ans)) :
    Admitted track (fun _ _ => True) g done := by
  induction done generalizing g with
  | nil => trivial
  | cons d ds ih => exact ⟨trivial, ih⟩

end Prog

theorem Exec.follows {γ : Type} {track : γ → Performed Act Ans → γ}
    {ok : γ → Performed Act Ans → Prop} {post : α → σ → γ → Prop} {g : γ} {s' : σ}
    {done : List (Performed Act Ans)} {value : α} (h : Exec perform p s done value s')
    (hp : p.Follows perform track ok post s g) (hok : Prog.Admitted track ok g done) :
    post value s' (done.foldl track g) := by
  induction h generalizing g with
  | ret value s => exact hp
  | act hstep hrest ih => exact ih (hp _ _ hstep hok.1) hok.2

end Hoare

end Concurrency
