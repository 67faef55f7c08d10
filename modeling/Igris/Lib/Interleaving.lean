import Igris.Lib.Program

/-!
# Interleaved execution of program pools

A configuration holds a shared state and a pool of threads.  A step lets one
thread perform its next action and may start further threads.  Threads carry a
label, which records on whose behalf they act.

Main results:

- Theorem {lit}`Run.invariant`: a property of trace and configuration that holds
  at the start and survives every step holds after every run.
- Theorem {lit}`Run.issues`: every event of a run is justified by the answers its
  thread received before.
- Theorem {lit}`Run.source`: a thread that acts was there from the start or was
  started by an earlier event.
- Theorem {lit}`play_sound`: a script that plays through is a run, so a concrete
  schedule can be evaluated.
-/

namespace Concurrency

/-- A running program with the label of the party it acts for. -/
structure Thread (ℓ : Type) (Act : Type) (Ans : Act → Type) (ρ : Type) where
  origin : ℓ
  prog : Prog Act Ans ρ

/-- Shared state and thread pool. -/
structure Config (σ ℓ : Type) (Act : Type) (Ans : Act → Type) (ρ : Type) where
  state : σ
  pool : List (Thread ℓ Act Ans ρ)

/-- One performed action, with the thread that performed it. -/
structure Event (ℓ : Type) (Act : Type) (Ans : Act → Type) where
  tid : Nat
  origin : ℓ
  action : Act
  answer : Ans action

/-- What actions do to the state, and which threads they start. -/
structure System (σ ℓ : Type) (Act : Type) (Ans : Act → Type) (ρ : Type) where
  perform : Semantics Act Ans σ
  spawn : (a : Act) → Ans a → List (Thread ℓ Act Ans ρ)

variable {σ ℓ : Type} {Act : Type} {Ans : Act → Type} {ρ : Type}

/-- One thread of the pool performs its next action. -/
inductive Step (S : System σ ℓ Act Ans ρ) :
    Config σ ℓ Act Ans ρ → Event ℓ Act Ans → Config σ ℓ Act Ans ρ → Prop where
  | mk {c : Config σ ℓ Act Ans ρ} {tid : Nat} {origin : ℓ} {action : Act}
      {next : Ans action → Prog Act Ans ρ} {answer : Ans action} {s : σ}
      (hthread : c.pool[tid]? = some ⟨origin, .act action next⟩)
      (hperform : S.perform action answer c.state = some s) :
      Step S c ⟨tid, origin, action, answer⟩
        ⟨s, c.pool.set tid ⟨origin, next answer⟩ ++ S.spawn action answer⟩

/-- A finite run, with the events it performed in order. -/
inductive Run (S : System σ ℓ Act Ans ρ) :
    Config σ ℓ Act Ans ρ → List (Event ℓ Act Ans) → Config σ ℓ Act Ans ρ → Prop where
  | nil (c : Config σ ℓ Act Ans ρ) : Run S c [] c
  | snoc {c c₁ c₂ : Config σ ℓ Act Ans ρ} {τ : List (Event ℓ Act Ans)}
      {e : Event ℓ Act Ans} (hrun : Run S c τ c₁) (hstep : Step S c₁ e c₂) :
      Run S c (τ ++ [e]) c₂

variable {S : System σ ℓ Act Ans ρ} {c c₁ c₂ c' : Config σ ℓ Act Ans ρ}
  {τ : List (Event ℓ Act Ans)} {e : Event ℓ Act Ans}

theorem Step.perform_eq (h : Step S c e c') :
    S.perform e.action e.answer c.state = some c'.state := by
  cases h with
  | mk _ hperform => exact hperform

theorem Run.cons (hstep : Step S c e c₁) (hrun : Run S c₁ τ c₂) : Run S c (e :: τ) c₂ := by
  induction hrun with
  | nil => exact Run.snoc (Run.nil c) hstep
  | snoc _ hlast ih => exact Run.snoc ih hlast

/-- What holds at the start and survives every step holds after every run. -/
theorem Run.invariant {I : List (Event ℓ Act Ans) → Config σ ℓ Act Ans ρ → Prop}
    (hrun : Run S c τ c') (hinit : I [] c)
    (hstep : ∀ τ c₁ e c₂, Run S c τ c₁ → I τ c₁ → Step S c₁ e c₂ → I (τ ++ [e]) c₂) : I τ c' := by
  induction hrun with
  | nil => exact hinit
  | snoc hprev hlast ih => exact hstep _ _ _ _ hprev ih hlast

/-- A run without events goes nowhere. -/
theorem Run.eq_of_nil (hrun : Run S c [] c') : c' = c := by
  generalize hτ : [] = τ at hrun
  cases hrun with
  | nil => rfl
  | snoc => simp at hτ

/-- A run splits at every one of its events. -/
theorem Run.split {pre post : List (Event ℓ Act Ans)} (hrun : Run S c (pre ++ e :: post) c') :
    ∃ c₁ c₂, Run S c pre c₁ ∧ Step S c₁ e c₂ ∧ Run S c₂ post c' := by
  generalize hτ : pre ++ e :: post = τ at hrun
  induction hrun generalizing post with
  | nil => simp at hτ
  | @snoc c₁ c₂ τ last hrun hlast ih =>
      rcases List.eq_nil_or_concat post with rfl | ⟨front, x, rfl⟩
      · rcases List.append_inj' hτ rfl with ⟨rfl, hlastEq⟩
        cases hlastEq
        exact ⟨c₁, c₂, hrun, hlast, Run.nil c₂⟩
      · rw [List.concat_eq_append, ← List.cons_append, ← List.append_assoc] at hτ
        rcases List.append_inj' hτ rfl with ⟨hfront, hlastEq⟩
        cases hlastEq
        rcases ih hfront with ⟨d₁, d₂, hpre, hmid, hpost⟩
        refine ⟨d₁, d₂, hpre, hmid, ?_⟩
        rw [List.concat_eq_append]
        exact Run.snoc hpost hlast

theorem Run.cons_inv (hrun : Run S c (e :: τ) c') : ∃ c₁, Step S c e c₁ ∧ Run S c₁ τ c' := by
  have hsplit : Run S c ([] ++ e :: τ) c' := hrun
  rcases hsplit.split with ⟨c₀, c₁, hnil, hstep, hrest⟩
  rw [hnil.eq_of_nil] at hstep
  exact ⟨c₁, hstep, hrest⟩

/-- The steps around an event of a run. -/
theorem Run.at_event (hrun : Run S c τ c') (he : e ∈ τ) :
    ∃ pre post c₁ c₂, τ = pre ++ e :: post ∧ Run S c pre c₁ ∧ Step S c₁ e c₂ ∧
      Run S c₂ post c' := by
  rcases List.append_of_mem he with ⟨pre, post, rfl⟩
  rcases hrun.split with ⟨c₁, c₂, hpre, hstep, hpost⟩
  exact ⟨pre, post, c₁, c₂, rfl, hpre, hstep, hpost⟩

/-! ## What the threads of a run do

Every thread starts as the program of its label.  If that program is guarded for
every account of its answers, then each event of a run is justified by answers the
same thread received before.
-/

section Labelled

/-- Answers a thread has received. -/
def Answered (τ : List (Event ℓ Act Ans)) (tid : Nat) (origin : ℓ) (a : Act) (answer : Ans a) :
    Prop :=
  (⟨tid, origin, a, answer⟩ : Event ℓ Act Ans) ∈ τ

/-- The actions a thread has performed, in order. -/
def performedBy (τ : List (Event ℓ Act Ans)) (tid : Nat) : List (Performed Act Ans) :=
  τ.filterMap fun e => if e.tid = tid then some ⟨e.action, e.answer⟩ else none

/-- The programs of a system by label, and what they can do. -/
structure Labelled (S : System σ ℓ Act Ans ρ) (program : ℓ → Prog Act Ans ρ)
    (may : ((a : Act) → Ans a → Prop) → ℓ → Act → Prop)
    (result : ((a : Act) → Ans a → Prop) → ℓ → ρ → Prop) : Prop where
  spawn : ∀ a answer, ∀ t ∈ S.spawn a answer, t.prog = program t.origin
  guarded : ∀ K o, (program o).Guarded K (may K o) (result K o)

variable {program : ℓ → Prog Act Ans ρ} {pre post : List (Event ℓ Act Ans)}

theorem performedBy_snoc_self (τ : List (Event ℓ Act Ans)) (e : Event ℓ Act Ans) :
    performedBy (τ ++ [e]) e.tid = performedBy τ e.tid ++ [⟨e.action, e.answer⟩] := by
  simp [performedBy]

theorem performedBy_snoc_other {tid : Nat} (τ : List (Event ℓ Act Ans)) {e : Event ℓ Act Ans}
    (h : e.tid ≠ tid) : performedBy (τ ++ [e]) tid = performedBy τ tid := by
  simp [performedBy, h]

theorem performedBy_eq_nil {tid : Nat} {τ : List (Event ℓ Act Ans)}
    (h : ∀ e ∈ τ, e.tid < tid) : performedBy τ tid = [] := by
  rw [performedBy, List.filterMap_eq_nil_iff]
  intro e he
  have := h e he
  exact if_neg (by omega)

/-- Bookkeeping of a run: which thread did what. -/
structure Tracks (program : ℓ → Prog Act Ans ρ) (first : List (Thread ℓ Act Ans ρ))
    (S : System σ ℓ Act Ans ρ) (τ : List (Event ℓ Act Ans)) (c : Config σ ℓ Act Ans ρ) : Prop where
  bound : ∀ e ∈ τ, e.tid < c.pool.length
  path : ∀ tid t, c.pool[tid]? = some t → (program t.origin).Path (performedBy τ tid) t.prog
  origin : ∀ e ∈ τ, ∀ t, c.pool[e.tid]? = some t → e.origin = t.origin
  source : ∀ t ∈ c.pool, t.origin ∈ first.map Thread.origin ∨
    ∃ e ∈ τ, t.origin ∈ (S.spawn e.action e.answer).map Thread.origin

theorem Tracks.init (hstart : ∀ t ∈ c.pool, t.prog = program t.origin) :
    Tracks program c.pool S [] c where
  bound := by simp
  path := by
    intro tid t ht
    rw [hstart t (List.mem_of_getElem? ht)]
    exact Prog.Path.nil
  origin := by simp
  source := fun t ht => Or.inl (List.mem_map_of_mem ht)

/-- The thread at a position after a step: the acting one, another one, or a new one. -/
theorem Step.getElem?_pool (h : Step S c e c') :
    ∃ next, c.pool[e.tid]? = some ⟨e.origin, .act e.action next⟩ ∧
      c'.pool.length = c.pool.length + (S.spawn e.action e.answer).length ∧
      ∀ tid t, c'.pool[tid]? = some t →
        (tid = e.tid ∧ t = ⟨e.origin, next e.answer⟩) ∨
        (tid ≠ e.tid ∧ c.pool[tid]? = some t) ∨
        (c.pool.length ≤ tid ∧ t ∈ S.spawn e.action e.answer) := by
  cases h with
  | @mk tid origin action next answer s hthread hperform =>
      refine ⟨next, hthread, by simp, ?_⟩
      intro i t ht
      dsimp only at ht ⊢
      rw [List.getElem?_append] at ht
      split at ht <;> rename_i hi
      · rw [List.getElem?_set] at ht
        split at ht <;> rename_i heq
        · split at ht
          · cases ht
            exact Or.inl ⟨heq.symm, rfl⟩
          · cases ht
        · exact Or.inr (Or.inl ⟨fun h => heq h.symm, ht⟩)
      · refine Or.inr (Or.inr ⟨?_, List.mem_of_getElem? ht⟩)
        simpa using hi

theorem Tracks.step {first : List (Thread ℓ Act Ans ρ)}
    (hspawn : ∀ a answer, ∀ t ∈ S.spawn a answer, t.prog = program t.origin)
    (h : Tracks program first S τ c) (hstep : Step S c e c') :
    Tracks program first S (τ ++ [e]) c' := by
  rcases hstep.getElem?_pool with ⟨next, hacting, hlength, hpool⟩
  have hlt : e.tid < c.pool.length := (List.getElem?_eq_some_iff.mp hacting).1
  refine ⟨?_, ?_, ?_, ?_⟩
  · intro e' he'
    rcases List.mem_append.mp he' with he' | he'
    · have := h.bound e' he'
      omega
    · rw [List.mem_singleton.mp he']
      omega
  · intro tid t ht
    rcases hpool tid t ht with ⟨rfl, rfl⟩ | ⟨hne, hold⟩ | ⟨hge, hnew⟩
    · rw [performedBy_snoc_self]
      exact (h.path e.tid _ hacting).snoc e.answer
    · rw [performedBy_snoc_other τ (Ne.symm hne)]
      exact h.path tid t hold
    · have hnone : performedBy (τ ++ [e]) tid = [] := by
        rw [performedBy_snoc_other τ (by omega), performedBy_eq_nil]
        intro e' he'
        have := h.bound e' he'
        omega
      rw [hnone, hspawn _ _ t hnew]
      exact Prog.Path.nil
  · intro e' he' t ht
    have hbound : e'.tid < c.pool.length := by
      rcases List.mem_append.mp he' with he' | he'
      · exact h.bound e' he'
      · rw [List.mem_singleton.mp he']
        exact hlt
    rcases hpool e'.tid t ht with ⟨heq, rfl⟩ | ⟨hne, hold⟩ | ⟨hge, -⟩
    · rcases List.mem_append.mp he' with he' | he'
      · rw [← heq] at hacting
        have horigin := h.origin e' he' _ hacting
        exact horigin
      · rw [List.mem_singleton.mp he']
    · rcases List.mem_append.mp he' with he' | he'
      · exact h.origin e' he' t hold
      · exact absurd (congrArg Event.tid (List.mem_singleton.mp he')) hne
    · omega
  · intro t ht
    rcases List.getElem?_of_mem ht with ⟨tid, htid⟩
    rcases hpool tid t htid with ⟨-, rfl⟩ | ⟨-, hold⟩ | ⟨-, hnew⟩
    · rcases h.source _ (List.mem_of_getElem? hacting) with hfirst | ⟨e', he', hsource⟩
      · exact Or.inl hfirst
      · exact Or.inr ⟨e', List.mem_append_left _ he', hsource⟩
    · rcases h.source t (List.mem_of_getElem? hold) with hfirst | ⟨e', he', hsource⟩
      · exact Or.inl hfirst
      · exact Or.inr ⟨e', List.mem_append_left _ he', hsource⟩
    · exact Or.inr ⟨e, by simp, List.mem_map_of_mem hnew⟩

theorem Run.tracks (hspawn : ∀ a answer, ∀ t ∈ S.spawn a answer, t.prog = program t.origin)
    (hstart : ∀ t ∈ c.pool, t.prog = program t.origin) (hrun : Run S c τ c') :
    Tracks program c.pool S τ c' := by
  induction hrun with
  | nil => exact Tracks.init hstart
  | snoc _ hlast ih => exact ih.step hspawn hlast

variable {may : ((a : Act) → Ans a → Prop) → ℓ → Act → Prop}
  {result : ((a : Act) → Ans a → Prop) → ℓ → ρ → Prop}

/-- A thread is guarded with respect to the answers it received so far. -/
theorem Run.thread_guarded (hS : Labelled S program may result)
    (hstart : ∀ t ∈ c.pool, t.prog = program t.origin) (hrun : Run S c τ c') {tid : Nat}
    {t : Thread ℓ Act Ans ρ} (ht : c'.pool[tid]? = some t) :
    t.prog.Guarded (Answered τ tid t.origin) (may (Answered τ tid t.origin) t.origin)
      (result (Answered τ tid t.origin) t.origin) := by
  have htracks := hrun.tracks hS.spawn hstart
  apply (htracks.path tid t ht).guarded (hS.guarded _ _)
  intro d hd
  rcases List.mem_filterMap.mp hd with ⟨e, he, hsome⟩
  split at hsome <;> rename_i htid
  · cases hsome
    have horigin := htracks.origin e he t (htid.symm ▸ ht)
    subst htid
    rw [← horigin]
    exact he
  · cases hsome

/-- Every event of a run is justified by the answers its thread received before. -/
theorem Run.issues (hS : Labelled S program may result)
    (hstart : ∀ t ∈ c.pool, t.prog = program t.origin) (hrun : Run S c (pre ++ e :: post) c') :
    may (Answered pre e.tid e.origin) e.origin e.action := by
  rcases hrun.split with ⟨c₁, c₂, hpre, hstep, -⟩
  rcases hstep.getElem?_pool with ⟨next, hthread, -, -⟩
  exact (hpre.thread_guarded hS hstart hthread).1

/-- What a thread returned is justified by the answers it received. -/
theorem Run.returned (hS : Labelled S program may result)
    (hstart : ∀ t ∈ c.pool, t.prog = program t.origin) (hrun : Run S c τ c') {tid : Nat}
    {origin : ℓ} {value : ρ} (ht : c'.pool[tid]? = some ⟨origin, .ret value⟩) :
    result (Answered τ tid origin) origin value :=
  hrun.thread_guarded hS hstart ht

/-- A thread whose program issues at most one selected action does not issue a second. -/
theorem Run.atMostOnce {sel : Act → Prop} [DecidablePred sel] {e' : Event ℓ Act Ans}
    (hspawn : ∀ a answer, ∀ t ∈ S.spawn a answer, t.prog = program t.origin)
    (hstart : ∀ t ∈ c.pool, t.prog = program t.origin)
    (hrun : Run S c (pre ++ e :: post) c') (honce : (program e.origin).AtMostOnce sel)
    (hsel : sel e.action) (he' : e' ∈ pre) (htid : e'.tid = e.tid) : ¬sel e'.action := by
  rcases hrun.split with ⟨c₁, c₂, hpre, hstep, -⟩
  rcases hstep.getElem?_pool with ⟨next, hthread, -, -⟩
  have hpath := (hpre.tracks hspawn hstart).path e.tid _ hthread
  apply hpath.atMostOnce honce hsel ⟨e'.action, e'.answer⟩
  exact List.mem_filterMap.mpr ⟨e', he', if_pos htid⟩

/-- A thread that acts was there from the start, or an earlier event started it. -/
theorem Run.source (hspawn : ∀ a answer, ∀ t ∈ S.spawn a answer, t.prog = program t.origin)
    (hstart : ∀ t ∈ c.pool, t.prog = program t.origin) (hrun : Run S c (pre ++ e :: post) c') :
    e.origin ∈ c.pool.map Thread.origin ∨
      ∃ e' ∈ pre, e.origin ∈ (S.spawn e'.action e'.answer).map Thread.origin := by
  rcases hrun.split with ⟨c₁, c₂, hpre, hstep, -⟩
  rcases hstep.getElem?_pool with ⟨next, hthread, -, -⟩
  exact (hpre.tracks hspawn hstart).source _ (List.mem_of_getElem? hthread)

end Labelled

/-! ## Playing a schedule -/

/-- A step is determined by its event. -/
theorem Step.unique (h : Step S c e c₁) (h' : Step S c e c₂) : c₁ = c₂ := by
  cases h with
  | mk hthread hperform =>
      cases h' with
      | mk hthread' hperform' =>
          rw [hthread] at hthread'
          cases hthread'
          rw [hperform] at hperform'
          cases hperform'
          rfl

/-- A run is determined by its events. -/
theorem Run.unique (h : Run S c τ c₁) (h' : Run S c τ c₂) : c₁ = c₂ := by
  induction h generalizing c₂ with
  | nil => exact h'.eq_of_nil.symm
  | snoc _ hlast ih =>
      obtain ⟨d₁, d₂, hpre, hstep, hnil⟩ := h'.split
      rw [← ih hpre] at hstep
      rw [hnil.eq_of_nil, hlast.unique hstep]

/-- Every step of the run meets a condition on the events before it, the
configuration it starts from and its event. -/
def EveryStep (S : System σ ℓ Act Ans ρ) (c : Config σ ℓ Act Ans ρ) (τ : List (Event ℓ Act Ans))
    (P : List (Event ℓ Act Ans) → Config σ ℓ Act Ans ρ → Event ℓ Act Ans → Prop) : Prop :=
  ∀ pre e post c₁, τ = pre ++ e :: post → Run S c pre c₁ → P pre c₁ e

/-- A script names the next thread and how the environment answers it. -/
abbrev Script (σ : Type) (Act : Type) (Ans : Act → Type) :=
  List (Nat × ((a : Act) → σ → Option (Ans a)))

/-- Play a script; {lit}`none` if a named thread cannot act as scripted, or a step does
not meet the condition. -/
def play (S : System σ ℓ Act Ans ρ)
    (meets : List (Event ℓ Act Ans) → Config σ ℓ Act Ans ρ → Event ℓ Act Ans → Bool) :
    List (Event ℓ Act Ans) → Config σ ℓ Act Ans ρ → Script σ Act Ans →
      Option (List (Event ℓ Act Ans) × Config σ ℓ Act Ans ρ)
  | _, c, [] => some ([], c)
  | done, c, (tid, pick) :: rest =>
      match c.pool[tid]? with
      | some ⟨origin, .act action next⟩ =>
          match pick action c.state with
          | some answer =>
              match S.perform action answer c.state with
              | some s =>
                  if meets done c ⟨tid, origin, action, answer⟩ then
                    (play S meets (done ++ [⟨tid, origin, action, answer⟩])
                      ⟨s, c.pool.set tid ⟨origin, next answer⟩ ++ S.spawn action answer⟩ rest).map
                        fun out => (⟨tid, origin, action, answer⟩ :: out.1, out.2)
                  else none
              | none => none
          | none => none
      | _ => none

variable {meets : List (Event ℓ Act Ans) → Config σ ℓ Act Ans ρ → Event ℓ Act Ans → Bool}
  {script : Script σ Act Ans}

theorem play_sound {done : List (Event ℓ Act Ans)}
    {out : List (Event ℓ Act Ans) × Config σ ℓ Act Ans ρ}
    (h : play S meets done c script = some out) : Run S c out.1 out.2 ∧
      EveryStep S c out.1 fun pre c₁ e => meets (done ++ pre) c₁ e = true := by
  induction script generalizing c out done with
  | nil =>
      simp only [play, Option.some.injEq] at h
      subst h
      refine ⟨Run.nil c, ?_⟩
      intro pre e post c₁ hsplit
      simp at hsplit
  | cons choice rest ih =>
      rcases choice with ⟨tid, pick⟩
      simp only [play] at h
      split at h
      · rename_i origin action next hthread
        split at h
        · rename_i answer hpick
          split at h
          · rename_i s hperform
            split at h <;> rename_i hmeets
            · rcases Option.map_eq_some_iff.mp h with ⟨tail, htail, rfl⟩
              have hstep := Step.mk hthread hperform
              rcases ih htail with ⟨hrun, hevery⟩
              refine ⟨Run.cons hstep hrun, ?_⟩
              intro pre e post c₁ hsplit hpre
              cases pre with
              | nil =>
                  simp only [List.nil_append, List.cons.injEq] at hsplit
                  rw [hpre.eq_of_nil, ← hsplit.1, List.append_nil]
                  exact hmeets
              | cons first pre =>
                  simp only [List.cons_append, List.cons.injEq] at hsplit
                  rcases hsplit with ⟨rfl, hsplit⟩
                  rcases hpre.cons_inv with ⟨c₂, hfirst, hpre⟩
                  rw [← hstep.unique hfirst] at hpre
                  have hnext := hevery pre e post c₁ hsplit hpre
                  simp only [List.append_assoc] at hnext
                  exact hnext
            · cases h
          · cases h
        · cases h
      · cases h

/-- A Boolean check that succeeds on the outcome of a script holds of some run. -/
theorem exists_run_of_play {check : List (Event ℓ Act Ans) × Config σ ℓ Act Ans ρ → Bool}
    (h : (play S meets [] c script).any check = true) :
    ∃ τ c', Run S c τ c' ∧ check (τ, c') = true ∧
      EveryStep S c τ fun pre c₁ e => meets pre c₁ e = true := by
  cases hplay : play S meets [] c script with
  | none => simp [hplay] at h
  | some out =>
      rw [hplay] at h
      rcases play_sound hplay with ⟨hrun, hevery⟩
      exact ⟨out.1, out.2, hrun, h, hevery⟩

end Concurrency
