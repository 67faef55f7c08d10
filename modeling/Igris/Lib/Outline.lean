import Igris.Lib.Stages

/-!
# Proof outlines of interleaved programs

Every point of a program carries an assertion about the trace and the shared state.  A
step of a thread takes its own assertion to the next one, keeps an invariant of the
state, and changes the state only as far as a relation allows.  Assertions are stable
under the changes that the relation allows to other threads.

Main results:

- Theorem {lit}`Run.outlined`: after every run the invariant and the assertions of all
  threads hold.
- Theorem {lit}`Outlined.ret`: a thread that has returned meets its postcondition.
-/

namespace Concurrency

variable {σ ℓ : Type} {Act : Type} {Ans : Act → Type} {ρ : Type}

/-- What the threads rely on and guarantee: an assumption about single steps, an invariant, the
changes that a step may make, and what the result of a thread says. -/
structure Discipline (σ ℓ : Type) (Act : Type) (Ans : Act → Type) (ρ : Type) where
  assume : σ → Event ℓ Act Ans → Prop
  invariant : σ → Prop
  change : σ → Event ℓ Act Ans → σ → Prop
  post : Nat → ℓ → ρ → List (Event ℓ Act Ans) → σ → Prop

/-- The steps of other threads keep the assertion. -/
def Discipline.Stable (D : Discipline σ ℓ Act Ans ρ) (tid : Nat)
    (A : List (Event ℓ Act Ans) → σ → Prop) : Prop :=
  ∀ τ s s' (e : Event ℓ Act Ans), e.tid ≠ tid → A τ s → D.change s e s' → A (τ ++ [e]) s'

/-- A step from one assertion to another one. -/
def Discipline.Takes (S : System σ ℓ Act Ans ρ) (D : Discipline σ ℓ Act Ans ρ)
    (A : List (Event ℓ Act Ans) → σ → Prop) (e : Event ℓ Act Ans)
    (B : List (Event ℓ Act Ans) → σ → Prop) : Prop :=
  ∀ τ s s', D.assume s e → D.invariant s → A τ s → S.perform e.action e.answer s = some s' →
    D.invariant s' ∧ D.change s e s' ∧ B (τ ++ [e]) s'

/-- The program has an outline that starts with the assertion. -/
def Outline (S : System σ ℓ Act Ans ρ) (D : Discipline σ ℓ Act Ans ρ) (tid : Nat) (origin : ℓ) :
    Prog Act Ans ρ → (List (Event ℓ Act Ans) → σ → Prop) → Prop
  | .ret r, A => ∀ τ s, A τ s → D.post tid origin r τ s
  | .act action next, A => ∀ answer, ∃ B, D.Stable tid B ∧
      Outline S D tid origin (next answer) B ∧ D.Takes S A ⟨tid, origin, action, answer⟩ B

/-- Every thread of the pool is at an assertion of its outline. -/
def Outlined (S : System σ ℓ Act Ans ρ) (D : Discipline σ ℓ Act Ans ρ)
    (τ : List (Event ℓ Act Ans)) (c : Config σ ℓ Act Ans ρ) : Prop :=
  D.invariant c.state ∧ ∀ (tid : Nat) t, c.pool[tid]? = some t →
    ∃ A, D.Stable tid A ∧ Outline S D tid t.origin t.prog A ∧ A τ c.state

variable {S : System σ ℓ Act Ans ρ} {D : Discipline σ ℓ Act Ans ρ} {c c' : Config σ ℓ Act Ans ρ}
  {τ : List (Event ℓ Act Ans)} {e : Event ℓ Act Ans}

/-- One answer to the next action of a program leads to an outline of the rest. -/
def Leads (S : System σ ℓ Act Ans ρ) (D : Discipline σ ℓ Act Ans ρ) (tid : Nat) (origin : ℓ)
    (A : List (Event ℓ Act Ans) → σ → Prop) (action : Act) (answer : Ans action)
    (rest : Prog Act Ans ρ) : Prop :=
  ∃ B, D.Stable tid B ∧ Outline S D tid origin rest B ∧
    D.Takes S A ⟨tid, origin, action, answer⟩ B

theorem outline_act {tid : Nat} {origin : ℓ} {A : List (Event ℓ Act Ans) → σ → Prop} {action : Act}
    {next : Ans action → Prog Act Ans ρ}
    (h : ∀ answer, Leads S D tid origin A action answer (next answer)) :
    Outline S D tid origin (.act action next) A :=
  h

/-- A guarded statement that went through. -/
theorem of_guard {p : Prop} [Decidable p] {a b : σ}
    (h : (if p then some a else none) = some b) : p ∧ b = a := by
  split at h <;> rename_i hp
  · exact ⟨hp, (Option.some.inj h).symm⟩
  · cases h

/-- A step keeps the outlines, and its change is one that the discipline allows. -/
theorem Outlined.step (hspawn : ∀ a answer, S.spawn a answer = []) (h : Outlined S D τ c)
    (hstep : Step S c e c') (hassume : D.assume c.state e) :
    Outlined S D (τ ++ [e]) c' ∧ D.change c.state e c'.state := by
  cases hstep with
  | @mk tid origin action next answer s hthread hperform =>
      obtain ⟨A, -, hact, hA⟩ := h.2 tid _ hthread
      obtain ⟨B, hstable, hnext, htakes⟩ := hact answer
      obtain ⟨hinv, hchange, hB⟩ := htakes τ c.state s hassume h.1 hA hperform
      refine ⟨⟨hinv, fun tid' t ht => ?_⟩, hchange⟩
      rw [hspawn, List.append_nil] at ht
      rcases getElem?_set_eq_some ht with ⟨rfl, rfl⟩ | ⟨hne, hold⟩
      · exact ⟨B, hstable, hnext, hB⟩
      · obtain ⟨A', hstable', houtline', hA'⟩ := h.2 tid' t hold
        exact ⟨A', hstable', houtline', hstable' τ _ _ _ hne.symm hA' hchange⟩

/-- Invariant and assertions hold after every run whose steps all meet the assumption. -/
theorem Run.outlined (hspawn : ∀ a answer, S.spawn a answer = []) (hinit : Outlined S D [] c)
    (hrun : Run S c τ c') (hassume : EveryStep S c τ fun _ c₁ e => D.assume c₁.state e) :
    Outlined S D τ c' := by
  induction hrun with
  | nil => exact hinit
  | @snoc c₁ c₂ τ e hprev hlast ih =>
      have hbefore := ih fun pre e' post d hsplit hpre =>
        hassume pre e' (post ++ [e]) d (by simp [hsplit]) hpre
      exact (hbefore.step hspawn hlast (hassume τ e [] c₁ rfl hprev)).1

theorem Outlined.ret (h : Outlined S D τ c) {tid : Nat} {origin : ℓ} {r : ρ}
    (hthread : c.pool[tid]? = some ⟨origin, .ret r⟩) : D.post tid origin r τ c.state := by
  obtain ⟨A, -, hret, hA⟩ := h.2 tid _ hthread
  exact hret τ c.state hA

/-- Calls that are labelled with their numbers start outlined. -/
theorem outlined_start {ℓ : Type} {S : System σ (Nat × ℓ) Act Ans ρ}
    {D : Discipline σ (Nat × ℓ) Act Ans ρ} {program : Nat → ℓ → Prog Act Ans ρ} {calls : List ℓ}
    {s : σ} {A : Nat → List (Event (Nat × ℓ) Act Ans) → σ → Prop} (hinv : D.invariant s)
    (hstable : ∀ tid, D.Stable tid (A tid))
    (houtline : ∀ tid call, Outline S D tid (tid, call) (program tid call) (A tid))
    (hinit : ∀ tid < calls.length, A tid [] s) :
    Outlined S D [] ⟨s, calls.zipIdx.map fun call =>
      ⟨(call.2, call.1), program call.2 call.1⟩⟩ := by
  refine ⟨hinv, fun tid t hthread => ?_⟩
  simp only [List.getElem?_map, List.getElem?_zipIdx, Option.map_map, Option.map_eq_some_iff,
    Nat.zero_add] at hthread
  obtain ⟨call, hget, rfl⟩ := hthread
  exact ⟨A tid, hstable tid, houtline tid call, hinit tid (List.getElem?_eq_some_iff.mp hget).1⟩

end Concurrency
