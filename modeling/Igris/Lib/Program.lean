import Mathlib.Tactic

/-!
# Programs over atomic actions

A program is a tree of atomic actions: it either returns, or issues one action
and continues with the answer it receives.  Code that talks to a shared store is
written as such a tree, so that one text serves two semantics: the sequential
one of this file, where the program runs alone, and the interleaved one, where
other programs act between two of its actions.

Main results:

- Definition {lit}`Prog.Guarded`: every action the program can issue, and every
  value it can return, satisfies a predicate as long as its answers do.
- Theorem {lit}`Prog.Guarded.bind`: guardedness is checked piece by piece.
- Theorem {lit}`Prog.Path.walks`: which selected actions a path can hold, and in what
  order.
- Definition {lit}`Exec`: the sequential execution of a program.
-/

namespace Concurrency

/-- Programs over actions {lit}`Act` answered in {lit}`Ans`. -/
inductive Prog (Act : Type) (Ans : Act → Type) (α : Type) where
  | ret (value : α)
  | act (action : Act) (next : Ans action → Prog Act Ans α)

namespace Prog

variable {Act : Type} {Ans : Act → Type} {α β : Type}

/-- Run the first program, then the program chosen by its result. -/
def bind : Prog Act Ans α → (α → Prog Act Ans β) → Prog Act Ans β
  | ret value, rest => rest value
  | act action next, rest => act action fun answer => (next answer).bind rest

@[simp]
theorem bind_ret (value : α) (rest : α → Prog Act Ans β) :
    (ret value).bind rest = rest value :=
  rfl

@[simp]
theorem bind_act (action : Act) (next : Ans action → Prog Act Ans α)
    (rest : α → Prog Act Ans β) :
    (act action next).bind rest = act action fun answer => (next answer).bind rest :=
  rfl

instance : Monad (Prog Act Ans) where
  pure := ret
  bind := bind

/-- The program that issues one action and returns its answer. -/
def issue (action : Act) : Prog Act Ans (Ans action) :=
  act action ret

@[simp]
theorem pure_eq (value : α) : (pure value : Prog Act Ans α) = ret value :=
  rfl

@[simp]
theorem bind_eq (p : Prog Act Ans α) (rest : α → Prog Act Ans β) : p >>= rest = p.bind rest :=
  rfl

@[simp]
theorem issue_bind (action : Act) (rest : Ans action → Prog Act Ans α) :
    (issue action).bind rest = act action rest :=
  rfl

/-- The value of a program that has returned. -/
def value : Prog Act Ans α → Option α
  | ret value => some value
  | act _ _ => none

theorem value_eq_some_iff {p : Prog Act Ans α} {value : α} :
    p.value = some value ↔ p = ret value := by
  cases p <;> simp [Prog.value]

/-- As long as every answer satisfies {lit}`ok`, each action the program issues
satisfies {lit}`may` and the value it returns satisfies {lit}`post`. -/
def Guarded (ok : (a : Act) → Ans a → Prop) (may : Act → Prop) (post : α → Prop) :
    Prog Act Ans α → Prop
  | ret value => post value
  | act action next =>
      may action ∧ ∀ answer, ok action answer → (next answer).Guarded ok may post

variable {ok ok' : (a : Act) → Ans a → Prop} {may may' : Act → Prop}
  {post : α → Prop} {post' : β → Prop} {p : Prog Act Ans α} {rest : α → Prog Act Ans β}

/-- Guarded with no demand on the result. -/
abbrev Issues (p : Prog Act Ans α) (ok : (a : Act) → Ans a → Prop) (may : Act → Prop) : Prop :=
  p.Guarded ok may fun _ => True

@[simp]
theorem guarded_ret {value : α} : (ret value : Prog Act Ans α).Guarded ok may post ↔ post value :=
  Iff.rfl

@[simp]
theorem guarded_act {action : Act} {next : Ans action → Prog Act Ans α} :
    (act action next).Guarded ok may post ↔
      may action ∧ ∀ answer, ok action answer → (next answer).Guarded ok may post :=
  Iff.rfl

/-- Nothing is asked of the program. -/
theorem guarded_true (p : Prog Act Ans α) : p.Guarded ok (fun _ => True) fun _ => True := by
  induction p with
  | ret value => trivial
  | act action next ih => exact ⟨trivial, fun answer _ => ih answer⟩

/-- Guardedness composes along sequencing. -/
theorem Guarded.bind (hp : p.Guarded ok may post)
    (hrest : ∀ value, post value → (rest value).Guarded ok may post') :
    (p.bind rest).Guarded ok may post' := by
  induction p with
  | ret value => exact hrest value hp
  | act action next ih =>
      exact ⟨hp.1, fun answer hanswer => ih answer (hp.2 answer hanswer)⟩

/-- Fewer answers, more permitted actions and a weaker result keep a program guarded. -/
theorem Guarded.mono {post'' : α → Prop} (hp : p.Guarded ok may post)
    (hok : ∀ a answer, ok' a answer → ok a answer) (hmay : ∀ a, may a → may' a)
    (hpost : ∀ value, post value → post'' value) : p.Guarded ok' may' post'' := by
  induction p with
  | ret value => exact hpost value hp
  | act action next ih =>
      exact ⟨hmay action hp.1, fun answer hanswer =>
        ih answer (hp.2 answer (hok action answer hanswer))⟩

theorem Guarded.widen (hp : p.Guarded ok may post) (hmay : ∀ a, may a → may' a) :
    p.Guarded ok may' post :=
  hp.mono (fun _ _ => id) hmay fun _ => id

theorem Guarded.issues (hp : p.Guarded ok may post) : p.Issues ok may :=
  hp.mono (fun _ _ => id) (fun _ => id) fun _ _ => trivial

end Prog

/-- One executed action together with its answer. -/
structure Performed (Act : Type) (Ans : Act → Type) where
  action : Act
  answer : Ans action

/-! ## Paths through a program -/

namespace Prog

variable {Act : Type} {Ans : Act → Type} {α β : Type}

/-- After the listed actions the first program has become the second. -/
inductive Path (p : Prog Act Ans α) : List (Performed Act Ans) → Prog Act Ans α → Prop where
  | nil : Path p [] p
  | snoc {done : List (Performed Act Ans)} {action : Act} {next : Ans action → Prog Act Ans α}
      (hpath : Path p done (.act action next)) (answer : Ans action) :
      Path p (done ++ [⟨action, answer⟩]) (next answer)

variable {p q : Prog Act Ans α} {rest : α → Prog Act Ans β} {done : List (Performed Act Ans)}
  {sel : Act → Prop}

/-- What a guarded program has become is guarded, if the answers so far are admissible. -/
theorem Path.guarded {ok : (a : Act) → Ans a → Prop} {may : Act → Prop} {post : α → Prop}
    (h : Path p done q) (hp : p.Guarded ok may post)
    (hok : ∀ d ∈ done, ok d.action d.answer) : q.Guarded ok may post := by
  induction h with
  | nil => exact hp
  | snoc hpath answer ih =>
      have hprev := ih fun d hd => hok d (List.mem_append_left _ hd)
      exact hprev.2 answer (hok ⟨_, answer⟩ (by simp))

/-- No action that the program can issue is selected. -/
abbrev Never (sel : Act → Prop) (p : Prog Act Ans α) : Prop :=
  p.Issues (fun _ _ => True) (¬sel ·)

/-- On every path the selected actions, in order, are a sublist of the list. -/
def Walks {γ : Type} (sel : Act → Option γ) : Prog Act Ans α → List γ → Prop
  | ret _, _ => True
  | act action next, items =>
      match sel action with
      | none => ∀ answer, (next answer).Walks sel items
      | some item => ∃ rest, (item :: rest).Sublist items ∧ ∀ answer, (next answer).Walks sel rest

/-- On every path the program issues at most one selected action. -/
abbrev AtMostOnce (sel : Act → Prop) [DecidablePred sel] (p : Prog Act Ans α) : Prop :=
  p.Walks (fun a => if sel a then some () else none) [()]

/-- Guarded, and on every path the selected actions, in order, are a sublist of the list. -/
def Along {γ : Type} (ok : (a : Act) → Ans a → Prop) (may : Act → Prop) (pick : Act → Option γ)
    (post : α → Prop) : Prog Act Ans α → List γ → Prop
  | ret value, _ => post value
  | act action next, items => may action ∧
      match pick action with
      | none => ∀ answer, ok action answer → (next answer).Along ok may pick post items
      | some item => ∃ rest, (item :: rest).Sublist items ∧
          ∀ answer, ok action answer → (next answer).Along ok may pick post rest

section Walks

variable {γ : Type} {pick : Act → Option γ} {items items' : List γ}

theorem along_act_of_none {action : Act} {next : Ans action → Prog Act Ans α}
    (hmay : may action) (h : pick action = none)
    (hnext : ∀ answer, ok action answer → (next answer).Along ok may pick post items) :
    (act action next).Along ok may pick post items := by
  simpa [Along, h, hmay] using hnext

theorem along_act_of_some {action : Act} {next : Ans action → Prog Act Ans α} {item : γ}
    (hmay : may action) (h : pick action = some item)
    (hnext : ∀ answer, ok action answer → (next answer).Along ok may pick post items) :
    (act action next).Along ok may pick post (item :: items) := by
  simp only [Along, h]
  exact ⟨hmay, items, List.Sublist.refl _, hnext⟩

/-- A program that issues no selected action. -/
theorem Guarded.along (hp : p.Guarded ok may post)
    (h : ∀ a, may a → may' a ∧ pick a = none) : p.Along ok may' pick post [] := by
  induction p with
  | ret value => exact hp
  | act action next ih =>
      obtain ⟨hmay, hnone⟩ := h action hp.1
      exact along_act_of_none hmay hnone fun answer hanswer => ih answer (hp.2 answer hanswer)

theorem Along.guarded (h : p.Along ok may pick post items) : p.Guarded ok may post := by
  induction p generalizing items with
  | ret value => exact h
  | act action next ih =>
      simp only [Along] at h
      obtain ⟨hmay, hnext⟩ := h
      refine ⟨hmay, fun answer hanswer => ?_⟩
      split at hnext
      · exact ih answer (hnext answer hanswer)
      · obtain ⟨rest, -, hnext⟩ := hnext
        exact ih answer (hnext answer hanswer)

theorem Along.walks (h : p.Along (fun _ _ => True) may pick post items) :
    p.Walks pick items := by
  induction p generalizing items with
  | ret value => trivial
  | act action next ih =>
      simp only [Along] at h
      simp only [Walks]
      obtain ⟨-, hnext⟩ := h
      split at hnext
      · exact fun answer => ih answer (hnext answer trivial)
      · obtain ⟨rest, hrest, hnext⟩ := hnext
        exact ⟨rest, hrest, fun answer => ih answer (hnext answer trivial)⟩

theorem Along.mono (h : p.Along ok may pick post items) (hitems : items.Sublist items') :
    p.Along ok may pick post items' := by
  induction p generalizing items items' with
  | ret value => exact h
  | act action next ih =>
      simp only [Along] at h ⊢
      obtain ⟨hmay, hnext⟩ := h
      refine ⟨hmay, ?_⟩
      split at hnext
      · exact fun answer hanswer => ih answer (hnext answer hanswer) hitems
      · obtain ⟨rest, hrest, hnext⟩ := hnext
        exact ⟨rest, hrest.trans hitems, hnext⟩

/-- What a composed program selects is what its parts select. -/
theorem Along.bind (hp : p.Along ok may pick post items)
    (hrest : ∀ value, post value → (rest value).Along ok may pick post' items') :
    (p.bind rest).Along ok may pick post' (items ++ items') := by
  induction p generalizing items with
  | ret value => exact (hrest value hp).mono (List.sublist_append_right _ _)
  | act action next ih =>
      rw [bind_act]
      simp only [Along] at hp ⊢
      obtain ⟨hmay, hnext⟩ := hp
      refine ⟨hmay, ?_⟩
      split at hnext
      · exact fun answer hanswer => ih answer (hnext answer hanswer)
      · obtain ⟨tail, htail, hnext⟩ := hnext
        refine ⟨tail ++ items', ?_, fun answer hanswer => ih answer (hnext answer hanswer)⟩
        rw [← List.cons_append]
        exact htail.append (List.Sublist.refl _)

theorem Along.bind_ret (hp : p.Along ok may pick post items) (f : α → β) :
    (p.bind fun value => .ret (f value)).Along ok may pick (fun _ => True) items := by
  rw [← List.append_nil items]
  exact hp.bind fun _ _ => trivial

/-- Along a path, the selected actions come from the list. -/
theorem Path.walks (h : Path p done q)
    (hp : p.Walks pick items) :
    ∃ rest, ((done.filterMap fun d => pick d.action) ++ rest).Sublist items ∧ q.Walks pick rest := by
  induction h with
  | nil => exact ⟨items, List.Sublist.refl _, hp⟩
  | @snoc done action next hpath answer ih =>
      obtain ⟨rest, hsublist, hwalks⟩ := ih
      simp only [Walks] at hwalks
      rw [List.filterMap_append]
      split at hwalks <;> rename_i hpick
      · exact ⟨rest, by simpa [hpick] using hsublist, hwalks answer⟩
      · obtain ⟨tail, htail, hnext⟩ := hwalks
        refine ⟨tail, ?_, hnext answer⟩
        simp only [List.filterMap_cons, hpick, List.filterMap_nil, List.append_assoc,
          List.singleton_append]
        exact ((List.Sublist.refl _).append htail).trans hsublist

/-- A selected action that is about to be issued is the first one. -/
theorem Path.atMostOnce {action : Act} {next : Ans action → Prog Act Ans α} [DecidablePred sel]
    (h : Path p done (.act action next)) (hp : p.AtMostOnce sel) (hsel : sel action) :
    ∀ d ∈ done, ¬sel d.action := by
  obtain ⟨rest, hsublist, hwalks⟩ := h.walks hp
  simp only [Walks, hsel, if_true] at hwalks
  obtain ⟨tail, htail, -⟩ := hwalks
  have hle := hsublist.length_le
  have hpos := htail.length_le
  simp only [List.length_append, List.length_cons, List.length_nil] at hle hpos
  intro d hd hselected
  have hmem : () ∈ done.filterMap fun d => if sel d.action then some () else none :=
    List.mem_filterMap.mpr ⟨d, hd, if_pos hselected⟩
  have hlength := List.length_pos_of_mem hmem
  omega

end Walks

end Prog

/-! ## Sequential execution -/

section Exec

variable {Act : Type} {Ans : Act → Type} {σ α β : Type}

/-- Which answers an action may receive in a state, and the state it leads to. -/
abbrev Semantics (Act : Type) (Ans : Act → Type) (σ : Type) :=
  (a : Act) → Ans a → σ → Option σ

/-- The program runs alone from a first to a last state, performing the listed
actions and returning a value. -/
inductive Exec (perform : Semantics Act Ans σ) :
    Prog Act Ans α → σ → List (Performed Act Ans) → α → σ → Prop where
  | ret (value : α) (s : σ) : Exec perform (.ret value) s [] value s
  | act {action : Act} {next : Ans action → Prog Act Ans α} {answer : Ans action}
      {s s₁ s₂ : σ} {done : List (Performed Act Ans)} {value : α}
      (hstep : perform action answer s = some s₁)
      (hrest : Exec perform (next answer) s₁ done value s₂) :
      Exec perform (.act action next) s (⟨action, answer⟩ :: done) value s₂

variable {perform : Semantics Act Ans σ} {p : Prog Act Ans α} {s s' : σ}
  {done : List (Performed Act Ans)} {value v : α}

@[simp]
theorem exec_ret_iff :
    Exec perform (.ret value) s done v s' ↔ done = [] ∧ v = value ∧ s' = s := by
  constructor
  · intro h
    cases h
    exact ⟨rfl, rfl, rfl⟩
  · rintro ⟨rfl, rfl, rfl⟩
    exact Exec.ret _ _

theorem exec_act_iff {action : Act} {next : Ans action → Prog Act Ans α} :
    Exec perform (.act action next) s done value s' ↔
      ∃ answer s₁ rest, perform action answer s = some s₁ ∧
        done = ⟨action, answer⟩ :: rest ∧ Exec perform (next answer) s₁ rest value s' := by
  constructor
  · intro h
    cases h with
    | act hstep hrest => exact ⟨_, _, _, hstep, rfl, hrest⟩
  · rintro ⟨answer, s₁, rest, hstep, rfl, hrest⟩
    exact Exec.act hstep hrest

/-- Run a program, with answers chosen by action and state. -/
def Prog.run (perform : Semantics Act Ans σ) (pick : (a : Act) → σ → Option (Ans a)) :
    Prog Act Ans α → σ → Option (List (Performed Act Ans) × α × σ)
  | .ret value, s => some ([], value, s)
  | .act action next, s =>
      match pick action s with
      | some answer =>
          match perform action answer s with
          | some s₁ => ((next answer).run perform pick s₁).map fun out =>
              (⟨action, answer⟩ :: out.1, out.2)
          | none => none
      | none => none

theorem exec_of_run {pick : (a : Act) → σ → Option (Ans a)}
    {out : List (Performed Act Ans) × α × σ} (h : p.run perform pick s = some out) :
    Exec perform p s out.1 out.2.1 out.2.2 := by
  induction p generalizing s out with
  | ret value =>
      simp only [Prog.run, Option.some.injEq] at h
      subst h
      exact Exec.ret value s
  | act action next ih =>
      simp only [Prog.run] at h
      split at h
      · split at h
        · rename_i s₁ hstep
          rcases Option.map_eq_some_iff.mp h with ⟨tail, htail, rfl⟩
          exact Exec.act hstep (ih _ htail)
        · cases h
      · cases h

/-- A Boolean check that succeeds on the outcome of a program holds of some execution. -/
theorem exists_exec_of_run {pick : (a : Act) → σ → Option (Ans a)}
    {check : List (Performed Act Ans) × α × σ → Bool}
    (h : (p.run perform pick s).any check = true) :
    ∃ done value s', Exec perform p s done value s' ∧ check (done, value, s') = true := by
  cases hrun : p.run perform pick s with
  | none => simp [hrun] at h
  | some out =>
      rw [hrun] at h
      exact ⟨out.1, out.2.1, out.2.2, exec_of_run hrun, h⟩

end Exec

end Concurrency
