import Igris.System.Schedule

/-!
# Idempotency of bound actions

Any number of concurrent submissions may carry the same business key.  The unique
keys of the tables decide which of them creates the task; the others find it.

Main results:

- Theorem {lit}`SystemRun.bound_idempotency`: one task per key, which every
  successful submission returns; a submission with another fingerprint changes
  nothing and is refused.
-/

namespace Igris

open Concurrency Coordinator

/-- The submission carries a business key: the gateway refuses an empty key, and
passes the same key for the task and for its bound run. -/
structure Carries (tenantID key : String) (req : TaskSubmitRequest) : Prop where
  tenantID : req.tenantID = tenantID
  idempotencyKey : req.idempotencyKey = key
  nonempty : key ≠ ""
  businessKey : ∀ bound, req.boundAction = some bound → bound.businessIdempotencyKey = key

/-- The event answers a submission with an error before anything was inserted. -/
def Refuses : SystemEvent → Prop
  | ⟨_, _, .rewrite _ _, .error _⟩ => True
  | ⟨_, _, .store (.createTask _ _), .error _⟩ => True
  | ⟨_, _, .getBoundActionRunByIdempotency _ _, .error .database⟩ => True
  | _ => False

section Keys

variable {jsonb : TaskDefinition → TaskDefinition} {runtimeAt : String → String} {store : Store}
  {calls : List Origin} {τ pre post : List SystemEvent} {c c' : SystemConfig} {e : SystemEvent}
  {tenantID key : String} {req : TaskSubmitRequest} {task : TaskRecord}

theorem Carries.tenantKey (h : Carries tenantID key req) (hprepared : Prepared req task) :
    task.tenantKey = (tenantID, key) := by
  unfold TaskRecord.tenantKey
  rw [hprepared.tenantID, hprepared.idempotencyKey, h.tenantID, h.idempotencyKey,
    if_neg h.nonempty]

/-! ## The holder of a key -/

/-- The record holds the key. -/
def Holds (tenantID key : String) (s : Store) (t : TaskRecord) : Prop :=
  s.task t.taskID = some t ∧ t.tenantKey = (tenantID, key)

variable {s : Store} {t : TaskRecord} {bound : BoundActionRunIdentity}

theorem Holds.unique {t' : TaskRecord} (h : Holds tenantID key s t) (h' : Holds tenantID key s t') :
    t.taskID = t'.taskID := by
  rw [Store.eq_of_tenantKey h.1 h'.1 (h.2.trans h'.2.symm)]

theorem Holds.stays (hrun : Run (system jsonb runtimeAt) c τ c')
    (h : Holds tenantID key c.state.store t) :
    ∃ t', Holds tenantID key c'.state.store t' ∧ t'.taskID = t.taskID := by
  rcases task_stays_of_run hrun h.1 with ⟨t', ht', hkey⟩
  have hid := Store.taskID_of_task ht'
  exact ⟨t', ⟨hid ▸ ht', hkey.trans h.2⟩, hid⟩

/-- A task that was inserted under the key holds it. -/
theorem holds_of_insert (hrun : Run (system jsonb runtimeAt) c τ c') (he : e ∈ τ)
    (hins : Inserts task.taskID task e) (hkey : task.tenantKey = (tenantID, key)) :
    ∃ t, Holds tenantID key c'.state.store t ∧ t.taskID = task.taskID := by
  rcases hrun.at_event he with ⟨pre, post, c₁, c₂, -, -, hstep, hpost⟩
  have hrow : Holds tenantID key c₂.state.store (Store.newRow jsonb task) :=
    ⟨(insert_of_step hstep hins).2, hkey⟩
  rcases hrow.stays hpost with ⟨t, ht, hid⟩
  exact ⟨t, ht, hid⟩

variable {o : Origin} {tid : Nat}

/-- A task that was read under the key holds it. -/
theorem holds_of_read (hrun : Run (system jsonb runtimeAt) c τ c')
    (he : (⟨tid, o, .getTaskByIdempotencyKey tenantID key, .ok t⟩ : SystemEvent) ∈ τ) :
    ∃ t', Holds tenantID key c'.state.store t' ∧ t'.taskID = t.taskID := by
  rcases hrun.at_event he with ⟨pre, post, c₁, c₂, -, -, hstep, hpost⟩
  have hperform : perform jsonb (.getTaskByIdempotencyKey tenantID key) (.ok t) c₁.state =
    some c₂.state := hstep.perform_eq
  have hrow : Holds tenantID key c₁.state.store t := perform_getTaskByIdempotencyKey hperform
  exact hrow.stays (Run.cons hstep hpost)

/-! ## The bound run of a key -/

theorem mem_boundRuns_of_run {run : BoundRun} (hrun : Run (system jsonb runtimeAt) c τ c')
    (hmem : run ∈ c.state.store.boundRuns.rows) : run ∈ c'.state.store.boundRuns.rows := by
  induction hrun with
  | nil => exact hmem
  | snoc _ hstep ih =>
      rcases perform_store_cases hstep.perform_eq with ⟨op, answer, -, hop, -⟩ | ⟨-, hsame⟩
      · rcases op.perform_cases hop with ⟨err, -, -, hsame⟩ | ⟨ids, -, happly⟩
        · rw [hsame]
          exact ih
        · exact StoreOp.mem_boundRuns_apply happly ih
      · rw [hsame]
        exact ih

/-- A submission that inserted its task stored its bound run. -/
theorem boundRun_of_insert {first : Uuid} {rest : List Uuid}
    (hrun : Run (system jsonb runtimeAt) c τ c')
    (he : (⟨tid, o, .store (.createTask task (some bound)), .ok (first :: rest)⟩ : SystemEvent) ∈ τ) :
    ⟨task.taskID, task.tenantID, bound⟩ ∈ c'.state.store.boundRuns.rows := by
  rcases hrun.at_event he with ⟨pre, post, c₁, c₂, -, -, hstep, hpost⟩
  have happly : c₁.state.store.createTask jsonb task (some bound) =
      (.ok (first :: rest), c₂.state.store) :=
    StoreOp.apply_of_perform_ok (perform_store hstep.perform_eq).1
  rcases Store.createTask_eq_ok happly with ⟨-, hnil, -⟩ | ⟨-, -, -, -, -, -, hrows⟩
  · cases hnil
  · apply mem_boundRuns_of_run hpost
    rw [hrows]
    simp [Store.boundRowsOf]

/-- An identity that was read under the key is stored. -/
theorem boundRun_of_read {identity : BoundActionRunIdentity}
    (hrun : Run (system jsonb runtimeAt) c τ c')
    (he : (⟨tid, o, .getBoundActionRunByIdempotency tenantID key, .ok identity⟩ :
      SystemEvent) ∈ τ) :
    ∃ run ∈ c'.state.store.boundRuns.rows,
      run.businessKey = (tenantID, key) ∧ run.identity = identity := by
  rcases hrun.at_event he with ⟨pre, post, c₁, c₂, -, -, hstep, hpost⟩
  have hperform : perform jsonb (.getBoundActionRunByIdempotency tenantID key) (.ok identity)
    c₁.state = some c₂.state := hstep.perform_eq
  rcases perform_getBoundActionRunByIdempotency hperform with ⟨run, hmem, hkey, hidentity⟩
  exact ⟨run, mem_boundRuns_of_run (Run.cons hstep hpost) hmem, hkey, hidentity⟩

/-! ## Submissions with another fingerprint -/

/-- The key is stored with another fingerprint than the submission's. -/
structure Conflicts (tenantID key : String) (s : Store) (req : TaskSubmitRequest) : Prop where
  carries : Carries tenantID key req
  differs : ∃ bound, req.boundAction = some bound ∧ ∃ run ∈ s.boundRuns.rows,
    run.businessKey = (tenantID, key) ∧
      run.identity.requestFingerprint ≠ bound.requestFingerprint

/-- A stored run of a conflicting key does not have the submission's fingerprint. -/
theorem Conflicts.fingerprint {run : BoundRun} (h : Conflicts tenantID key s req)
    (hbound : req.boundAction = some bound) (hmem : run ∈ s.boundRuns.rows)
    (hkey : run.businessKey = (tenantID, key)) :
    run.identity.requestFingerprint ≠ bound.requestFingerprint := by
  rcases h.differs with ⟨bound', hbound', run', hmem', hkey', hdiffers⟩
  rw [hbound, Option.some.injEq] at hbound'
  rw [Store.eq_of_businessKey hmem hmem' (hkey.trans hkey'.symm), hbound']
  exact hdiffers

theorem Conflicts.businessKey (h : Conflicts tenantID key s req) (hprepared : Prepared req task)
    (hbound : req.boundAction = some bound) :
    (⟨task.taskID, task.tenantID, bound⟩ : BoundRun).businessKey = (tenantID, key) := by
  unfold BoundRun.businessKey
  rw [hprepared.tenantID, h.carries.tenantID, h.carries.businessKey bound hbound]

/-- Such a submission inserts nothing. -/
theorem Conflicts.not_created (hrun : Run (system jsonb runtimeAt) c τ c')
    (h : Conflicts tenantID key c'.state.store req) : ¬Created (Answered τ tid o) req task := by
  intro hcreated
  rcases hcreated.inserted with ⟨first, rest, hins⟩
  rcases h.differs with ⟨bound, hbound, -⟩
  rw [hbound] at hins
  exact h.fingerprint hbound (boundRun_of_insert hrun hins)
    (h.businessKey hcreated.prepared hbound) rfl

/-- Such a submission does not take itself for a duplicate. -/
theorem Conflicts.not_duplicate (hrun : Run (system jsonb runtimeAt) c τ c')
    (h : Conflicts tenantID key c'.state.store req) : ¬Duplicate (Answered τ tid o) req task := by
  intro hduplicate
  rcases h.differs with ⟨bound, hbound, -⟩
  rcases hduplicate.same bound hbound with ⟨existing, hread, hsame⟩
  have hkey := h.carries.tenantKey hduplicate.prepared
  simp only [TaskRecord.tenantKey, Prod.mk.injEq] at hkey
  rw [hkey.2, h.carries.tenantID] at hread
  rcases boundRun_of_read hrun hread with ⟨run, hmem, hrunKey, hidentity⟩
  apply h.fingerprint hbound hmem hrunKey
  rw [hidentity, hsame]

/-- No event of such a submission changes anything. -/
theorem Conflicts.unchanged {c₁ c₂ : SystemConfig}
    (h : SystemRun jsonb runtimeAt store calls (pre ++ e :: post) c)
    (hconflicts : Conflicts tenantID key c.state.store req) (horigin : e.origin = .submit req)
    (hstep : Step (system jsonb runtimeAt) c₁ e c₂) (hpost : Run (system jsonb runtimeAt) c₂ post c) :
    c₂.state = c₁.state ∧ started e.action e.answer = [] := by
  have hnot : ∀ {task : TaskRecord}, ¬Created (Answered pre e.tid e.origin) req task := by
    intro task hcreated
    rcases hcreated.inserted with ⟨first, rest, hins⟩
    have hlater : Created (Answered (pre ++ e :: post) e.tid e.origin) req task :=
      ⟨hcreated.prepared, first, rest, List.mem_append_left _ hins⟩
    exact hconflicts.not_created h.run hlater
  have hissues := h.issues
  rw [horigin] at hissues hnot
  rcases e with ⟨tid, o, a, answer⟩
  dsimp only at horigin hissues hnot ⊢
  cases hissues with
  | quiet hquiet => exact perform_quiet hquiet hstep.perform_eq
  | fail hcreated | approvalRequired hcreated | dispatch hcreated | go hcreated =>
      exact absurd hcreated hnot
  | @create task hprepared =>
      refine ⟨?_, rfl⟩
      rcases perform_store hstep.perform_eq with ⟨hop, hposted⟩
      have hstore : c₂.state.store = c₁.state.store := by
        rcases StoreOp.perform_cases hop with ⟨err, -, -, hsame⟩ | ⟨ids, -, happly⟩
        · exact hsame
        · rcases hconflicts.differs with ⟨bound, hbound, -⟩
          rw [hbound] at happly
          have hcreate : c₁.state.store.createTask jsonb task (some bound) =
            (.ok ids, c₂.state.store) := happly
          rcases Store.createTask_eq_ok hcreate with ⟨-, -, hsame⟩ | ⟨-, -, -, -, -, -, hrows⟩
          · exact hsame
          · -- the inserted run would be the stored one
            refine absurd rfl (hconflicts.fingerprint hbound (mem_boundRuns_of_run hpost ?_)
              (hconflicts.businessKey hprepared hbound))
            rw [hrows]
            simp [Store.boundRowsOf]
      rw [show c₂.state = ⟨c₂.state.store, c₂.state.posted⟩ from rfl, hstore, hposted]

/-- Such a submission ends with the conflict error, unless it was refused before. -/
theorem Conflicts.returns {result : Except CoordinatorError TaskRecord}
    (h : SystemRun jsonb runtimeAt store calls τ c)
    (hconflicts : Conflicts tenantID key c.state.store req)
    (hdone : c.pool[tid]? = some ⟨.submit req, .ret (.task result)⟩) :
    result = .error .taskIdempotencyConflict ∨ ∃ e ∈ τ, e.tid = tid ∧ Refuses e := by
  rcases h.run.returned (labelled jsonb runtimeAt) (initial_start runtimeAt store calls) hdone with
    ⟨_, heq, hreturns⟩
  cases heq
  cases result with
  | ok t =>
      rcases hreturns with ⟨task, hcreated, -⟩ | ⟨task, hduplicate, -⟩
      · exact absurd hcreated (hconflicts.not_created h.run)
      · exact absurd hduplicate (hconflicts.not_duplicate h.run)
  | error err =>
      cases hreturns with
      | created hcreated => exact absurd hcreated (hconflicts.not_created h.run)
      | duplicate hduplicate => exact absurd hduplicate (hconflicts.not_duplicate h.run)
      | conflict => exact Or.inl rfl
      | rewrite hrefused | create hrefused | lookup hrefused =>
          exact Or.inr ⟨_, hrefused, rfl, trivial⟩

/-- A submission that succeeds returns the task that holds its key. -/
theorem SystemRun.returns_holder (h : SystemRun jsonb runtimeAt store calls τ c)
    (hcarries : Carries tenantID key req)
    (hdone : c.pool[tid]? = some ⟨.submit req, .ret (.task (.ok t))⟩) :
    ∃ t', Holds tenantID key c.state.store t' ∧ t'.taskID = t.taskID := by
  rcases h.run.returned (labelled jsonb runtimeAt) (initial_start runtimeAt store calls) hdone with
    ⟨_, heq, hreturns⟩
  cases heq
  rcases hreturns with ⟨task, hcreated, hid⟩ | ⟨task, hduplicate, hread⟩
  · rcases hcreated.inserted with ⟨first, rest, hins⟩
    rw [hid]
    exact holds_of_insert h.run hins ⟨rfl, _, _, _, _, _, rfl⟩
      (hcarries.tenantKey hcreated.prepared)
  · have hkey := hcarries.tenantKey hduplicate.prepared
    simp only [TaskRecord.tenantKey, Prod.mk.injEq] at hkey
    rw [hkey.2, hcarries.tenantID] at hread
    exact holds_of_read h.run hread

/-- Bound actions are idempotent, in every interleaving of submissions with the
other calls.  All rows that ever hold the key are one task; every successful
submission that carries the key returns that task; and a submission whose
fingerprint differs from the stored one changes nothing and fails with the conflict
error, unless a service or the database refused it before. -/
theorem SystemRun.bound_idempotency (h : SystemRun jsonb runtimeAt store calls τ c)
    (tenantID key : String) :
    ∃ id,
      (∀ p q c₁ t, τ = p ++ q →
        Run (system jsonb runtimeAt) (initial runtimeAt store calls) p c₁ →
        Run (system jsonb runtimeAt) c₁ q c → Holds tenantID key c₁.state.store t →
        t.taskID = id) ∧
      (∀ (tid : Nat) (req : TaskSubmitRequest) (t : TaskRecord), Carries tenantID key req →
        c.pool[tid]? = some ⟨.submit req, .ret (.task (.ok t))⟩ → t.taskID = id) ∧
      (∀ req, Conflicts tenantID key c.state.store req →
        (∀ p e q c₁ c₂, τ = p ++ e :: q → e.origin = .submit req →
          Run (system jsonb runtimeAt) (initial runtimeAt store calls) p c₁ →
          Step (system jsonb runtimeAt) c₁ e c₂ → Run (system jsonb runtimeAt) c₂ q c →
          c₂.state = c₁.state ∧ started e.action e.answer = []) ∧
        ∀ (tid : Nat) (result : Except CoordinatorError TaskRecord), c.pool[tid]? = some ⟨.submit req, .ret (.task result)⟩ →
          result = .error .taskIdempotencyConflict ∨ ∃ e ∈ τ, e.tid = tid ∧ Refuses e) := by
  have hholder : ∃ id, ∀ t, Holds tenantID key c.state.store t → t.taskID = id := by
    by_cases hex : ∃ t, Holds tenantID key c.state.store t
    · rcases hex with ⟨t, ht⟩
      exact ⟨t.taskID, fun t' ht' => ht'.unique ht⟩
    · exact ⟨Uuid.nil, fun t ht => absurd ⟨t, ht⟩ hex⟩
  rcases hholder with ⟨id, hid⟩
  refine ⟨id, ?_, ?_, ?_⟩
  · intro p q c₁ t _ _ hq ht
    rcases ht.stays hq with ⟨t', ht', heq⟩
    rw [← heq]
    exact hid t' ht'
  · intro tid req t hcarries hdone
    rcases h.returns_holder hcarries hdone with ⟨t', ht', heq⟩
    rw [← heq]
    exact hid t' ht'
  · intro req hconflicts
    refine ⟨?_, fun tid result hdone => hconflicts.returns h hdone⟩
    rintro p e q c₁ c₂ rfl horigin - hstep hpost
    exact hconflicts.unchanged h horigin hstep hpost

end Keys

/-! ## A refund that is submitted three times -/

/-- A bound action; the fingerprint stands for its mapped input. -/
def refundRequest (taskID : Uuid) (fingerprint : String) : TaskSubmitRequest where
  taskID := taskID
  tenantID := "acme"
  taskDefinition := { text := "", taskType := .executionGraph }
  idempotencyKey := "order-1"
  boundAction := some {
    bindingID := 3, contractHash := "contract", targetActionID := 4, targetVersionHash := "version"
    businessIdempotencyKey := "order-1", requestFingerprint := fingerprint }

def refundCalls : List Origin :=
  [.submit (refundRequest 7 "amount-10"), .submit (refundRequest 8 "amount-10"),
    .submit (refundRequest 9 "amount-20")]

/-- The second and the third submission find the key taken while the first one is
still looking for a runtime. -/
def refundSchedule : Script State Action Answer :=
  (List.replicate 4 0 ++ List.replicate 5 2 ++ List.replicate 6 1 ++ List.replicate 6 0).map
    fun tid => (tid, smoothly ⟨"runtime-a", "https://a"⟩)

/-- What the call with this label returned. -/
def returned (c : SystemConfig) (tid : Nat) (o : Origin) :
    Option (Except CoordinatorError TaskRecord) :=
  match c.pool[tid]? with
  | some ⟨o', .ret (.task result)⟩ => if o' = o then some result else none
  | _ => none

theorem pool_of_returned {c : SystemConfig} {tid : Nat} {o : Origin}
    {result : Except CoordinatorError TaskRecord} (h : returned c tid o = some result) :
    c.pool[tid]? = some ⟨o, .ret (.task result)⟩ := by
  unfold returned at h
  split at h
  · split at h <;> rename_i ho
    · cases h
      cases ho
      assumption
    · cases h
  · cases h

theorem bound_idempotency_refund :
    ∃ τ c t, SystemRun id id .empty refundCalls τ c ∧
      c.pool[0]? = some ⟨.submit (refundRequest 7 "amount-10"), .ret (.task (.ok t))⟩ ∧
      (∃ t', c.pool[1]? = some ⟨.submit (refundRequest 8 "amount-10"), .ret (.task (.ok t'))⟩ ∧
        t'.taskID = t.taskID) ∧
      Conflicts "acme" "order-1" c.state.store (refundRequest 9 "amount-20") ∧
      c.pool[2]? = some ⟨.submit (refundRequest 9 "amount-20"),
        .ret (.task (.error .taskIdempotencyConflict))⟩ := by
  have hplay : (play (system id id) anyStep [] (initial id .empty refundCalls) refundSchedule).any (fun out =>
      ((returned out.2 0 (.submit (refundRequest 7 "amount-10"))).any fun result =>
        result.toOption.isSome) &&
      ((returned out.2 1 (.submit (refundRequest 8 "amount-10"))).any fun result =>
        result.toOption.isSome) &&
      decide (returned out.2 2 (.submit (refundRequest 9 "amount-20")) =
        some (.error .taskIdempotencyConflict)) &&
      out.2.state.store.boundRuns.rows.any fun run =>
        decide (run.businessKey = ("acme", "order-1")) &&
          decide (run.identity.requestFingerprint ≠ "amount-20")) = true := by
    decide +kernel
  rcases exists_systemRun (by decide) hplay with ⟨τ, c, hrun, hcheck, -⟩
  simp only [Bool.and_eq_true, Option.any_eq_true, List.any_eq_true, decide_eq_true_eq] at hcheck
  rcases hcheck with ⟨⟨⟨⟨first, hfirst, hok⟩, second, hsecond, hok'⟩, hthird⟩,
    run, hmem, hkey, hdiffers⟩
  have hcarries : ∀ taskID fingerprint,
      Carries "acme" "order-1" (refundRequest taskID fingerprint) := fun _ _ =>
    ⟨rfl, rfl, by decide, fun bound hbound => by cases hbound; rfl⟩
  rcases hrun.bound_idempotency "acme" "order-1" with ⟨id, -, hsame, -⟩
  cases first with
  | error err => cases hok
  | ok t =>
      cases second with
      | error err => cases hok'
      | ok t' =>
          have ht := hsame 0 _ t (hcarries _ _) (pool_of_returned hfirst)
          have ht' := hsame 1 _ t' (hcarries _ _) (pool_of_returned hsecond)
          exact ⟨τ, c, t, hrun, pool_of_returned hfirst,
            ⟨t', pool_of_returned hsecond, ht'.trans ht.symm⟩,
            ⟨hcarries _ _, _, rfl, run, hmem, hkey, hdiffers⟩, pool_of_returned hthird⟩

end Igris
