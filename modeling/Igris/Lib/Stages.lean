import Igris.Lib.Interleaving

/-!
# Threads at named stages

The threads of a pool run programs that a label and a stage determine.  A stage is
a program counter together with the local variables, and a move relates the stages
before and after an answer.  An invariant of a run is then a property of the trace,
the shared state and the list of stages.

Main results:

- Theorem {lit}`Step.staged`: a step moves one thread to its next stage.
- Theorem {lit}`Run.staged`: what every move preserves holds after every run.
-/

namespace Concurrency

variable {σ ℓ κ : Type} {Act : Type} {Ans : Act → Type} {ρ : Type}

/-- A pool whose threads are at the given stages. -/
def atStages (prog : ℓ → κ → Prog Act Ans ρ) (threads : List (ℓ × κ)) :
    List (Thread ℓ Act Ans ρ) :=
  threads.map fun thread => ⟨thread.1, prog thread.1 thread.2⟩

/-- Every answer to a program at a stage leads to a program at a stage it may move to. -/
def Moves (prog : ℓ → κ → Prog Act Ans ρ) (Move : ℓ → κ → (a : Act) → Ans a → κ → Prop) : Prop :=
  ∀ origin stage action next, prog origin stage = .act action next → ∀ answer,
    ∃ stage', next answer = prog origin stage' ∧ Move origin stage action answer stage'

variable {S : System σ ℓ Act Ans ρ} {c c' : Config σ ℓ Act Ans ρ} {e : Event ℓ Act Ans}
  {τ : List (Event ℓ Act Ans)} {prog : ℓ → κ → Prog Act Ans ρ}
  {Move : ℓ → κ → (a : Act) → Ans a → κ → Prop} {threads : List (ℓ × κ)}

theorem getElem?_atStages {tid : Nat} {t : Thread ℓ Act Ans ρ} :
    (atStages prog threads)[tid]? = some t ↔
      ∃ stage, threads[tid]? = some (t.origin, stage) ∧ prog t.origin stage = t.prog := by
  obtain ⟨origin, p⟩ := t
  simp only [atStages, List.getElem?_map, Option.map_eq_some_iff, Prod.exists, Thread.mk.injEq]
  constructor
  · rintro ⟨_, stage, hget, rfl, hprog⟩
    exact ⟨stage, hget, hprog⟩
  · rintro ⟨stage, hget, hprog⟩
    exact ⟨origin, stage, hget, rfl, hprog⟩

/-- The acting thread moves, the others stay. -/
theorem Step.staged (hmoves : Moves prog Move) (hspawn : ∀ a answer, S.spawn a answer = [])
    (hpool : c.pool = atStages prog threads) (hstep : Step S c e c') :
    ∃ stage stage', threads[e.tid]? = some (e.origin, stage) ∧
      Move e.origin stage e.action e.answer stage' ∧
      c'.pool = atStages prog (threads.set e.tid (e.origin, stage')) := by
  cases hstep with
  | @mk tid origin action next answer s hthread hperform =>
      rw [hpool, getElem?_atStages] at hthread
      obtain ⟨stage, hget, hprog⟩ := hthread
      obtain ⟨stage', hnext, hmove⟩ := hmoves origin stage action next hprog answer
      refine ⟨stage, stage', hget, hmove, ?_⟩
      simp only [hpool, hspawn, atStages, List.map_set, List.append_nil, hnext]

/-- A property of trace, state and stages that survives every move holds after every run whose
steps all meet the condition. -/
theorem Run.staged {I : List (Event ℓ Act Ans) → σ → List (ℓ × κ) → Prop}
    {P : List (Event ℓ Act Ans) → Config σ ℓ Act Ans ρ → Event ℓ Act Ans → Prop}
    (hmoves : Moves prog Move) (hspawn : ∀ a answer, S.spawn a answer = [])
    (hpool : c.pool = atStages prog threads) (hinit : I [] c.state threads)
    (hstep : ∀ τ s s' threads (e : Event ℓ Act Ans) stage stage',
      Run S c τ ⟨s, atStages prog threads⟩ → I τ s threads →
      threads[e.tid]? = some (e.origin, stage) → Move e.origin stage e.action e.answer stage' →
      S.perform e.action e.answer s = some s' → P τ ⟨s, atStages prog threads⟩ e →
      I (τ ++ [e]) s' (threads.set e.tid (e.origin, stage')))
    (hrun : Run S c τ c') (hevery : EveryStep S c τ P) :
    ∃ threads', c'.pool = atStages prog threads' ∧ I τ c'.state threads' := by
  induction hrun with
  | nil => exact ⟨threads, hpool, hinit⟩
  | @snoc c₁ c₂ τ e hprev hlast ih =>
      obtain ⟨threads₁, hpool₁, hinv⟩ := ih fun pre e' post d hsplit hpre =>
        hevery pre e' (post ++ [e]) d (by simp [hsplit]) hpre
      obtain ⟨stage, stage', hget, hmove, hpool₂⟩ := hlast.staged hmoves hspawn hpool₁
      have hmeets := hevery τ e [] c₁ rfl hprev
      have hconfig : c₁ = ⟨c₁.state, atStages prog threads₁⟩ := by rw [← hpool₁]
      rw [hconfig] at hmeets hprev
      exact ⟨_, hpool₂, hstep τ _ _ _ e _ _ hprev hinv hget hmove hlast.perform_eq hmeets⟩

/-- A thread of the next pool is the acting one, or was there before. -/
theorem getElem?_set_eq_some {α : Type} {xs : List α} {i j : Nat} {x y : α}
    (h : (xs.set i x)[j]? = some y) : (j = i ∧ y = x) ∨ (j ≠ i ∧ xs[j]? = some y) := by
  rw [List.getElem?_set] at h
  split at h <;> rename_i hij
  · split at h
    · exact .inl ⟨hij.symm, (Option.some.inj h).symm⟩
    · cases h
  · exact .inr ⟨Ne.symm hij, h⟩

end Concurrency
