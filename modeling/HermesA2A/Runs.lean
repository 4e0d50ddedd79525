import HermesA2A.QueueSteps
import HermesA2A.Specification

/-!
# Runs of the inbound path

What holds in every reachable configuration, whatever the interleaving: the
queue's own invariant, and what the events of the trace still say about the queue
now.  `Base` collects it, `reaches_base` proves it once; every later invariant is
proved with `run_invariant`, which hands the step the base facts and what the
acting thread had done before (`Call.pre`).
-/

namespace HermesA2A

open Machine

/-- An event of some thread. -/
abbrev Trace := List (ℕ × Event)

/-! ### What events say -/

/-- Thread `i` had `task` accepted. -/
def AcceptsIn (tr : Trace) (i : ℕ) (task : PendingTask) : Prop :=
  ∃ t text metadata contextId createdAt,
    (i, (⟨.enqueue t text metadata contextId createdAt, some task⟩ : Event)) ∈ tr

/-- `complete` took `task` out of the pending tasks, with this response. -/
def CompletesIn (tr : Trace) (task : PendingTask) (response : String) : Prop :=
  ∃ i t, (i, (⟨.complete t response, some task⟩ : Event)) ∈ tr

/-- `cancel` took `task` out of the pending tasks. -/
def CancelsIn (tr : Trace) (task : PendingTask) : Prop :=
  ∃ i t, (i, (⟨.cancel t, some task⟩ : Event)) ∈ tr

/-- `task` was taken out of the pending tasks. -/
def TakenIn (tr : Trace) (task : PendingTask) : Prop :=
  (∃ response, CompletesIn tr task response) ∨ CancelsIn tr task

/-- The completions of a trace: id, response and object. -/
def completions (tr : Trace) : List (TaskId × String × PendingTask) :=
  tr.filterMap fun e =>
    match e.2 with
    | ⟨.complete t response, some task⟩ => some (t, response, task)
    | _ => none

theorem completesIn_of_mem {tr : Trace} {t : TaskId} {response : String} {task : PendingTask}
    (h : (t, response, task) ∈ completions tr) : CompletesIn tr task response := by
  obtain ⟨⟨i, o, r⟩, hmem, hmatch⟩ := List.mem_filterMap.mp h
  split at hmatch
  · rename_i t' response' task' heq
    obtain ⟨rfl, hrest⟩ := Prod.mk.inj (Option.some.inj hmatch)
    obtain ⟨rfl, rfl⟩ := Prod.mk.inj hrest
    exact ⟨i, t', heq ▸ hmem⟩
  · cases hmatch

theorem mem_snoc {tr : Trace} {e e' : ℕ × Event} : e ∈ tr ++ [e'] ↔ e ∈ tr ∨ e = e' := by
  rw [List.mem_append, List.mem_singleton]

section Events

variable {tr : Trace} {i : ℕ} {e : ℕ × Event} {task : PendingTask} {response : String}

theorem AcceptsIn.snoc (h : AcceptsIn tr i task) : AcceptsIn (tr ++ [e]) i task := by
  obtain ⟨t, text, metadata, contextId, createdAt, h⟩ := h
  exact ⟨t, text, metadata, contextId, createdAt, List.mem_append_left _ h⟩

theorem CompletesIn.snoc (h : CompletesIn tr task response) :
    CompletesIn (tr ++ [e]) task response := by
  obtain ⟨i, t, h⟩ := h
  exact ⟨i, t, List.mem_append_left _ h⟩

theorem CancelsIn.snoc (h : CancelsIn tr task) : CancelsIn (tr ++ [e]) task := by
  obtain ⟨i, t, h⟩ := h
  exact ⟨i, t, List.mem_append_left _ h⟩

theorem TakenIn.snoc (h : TakenIn tr task) : TakenIn (tr ++ [e]) task :=
  h.imp (fun ⟨response, h⟩ => ⟨response, h.snoc⟩) CancelsIn.snoc

end Events

section Step

variable {P : Platform} {tr : Trace} {w : World} {i : ℕ} {o : Op} {task : PendingTask}

/-- A new acceptance is an old one, or the step itself. -/
theorem acceptsIn_snoc {j : ℕ} (h : AcceptsIn (tr ++ [(i, ⟨o, o.answer P w⟩)]) j task) :
    AcceptsIn tr j task ∨ (j = i ∧ o.Accepts w.queue task) := by
  obtain ⟨t, text, metadata, contextId, createdAt, h⟩ := h
  rcases mem_snoc.mp h with h | h
  · exact Or.inl ⟨t, text, metadata, contextId, createdAt, h⟩
  · obtain ⟨rfl, h⟩ := Prod.mk.inj h
    refine Or.inr ⟨rfl, t, text, metadata, contextId, createdAt, ?_⟩
    generalize hr : o.answer P w = r at h
    cases h
    exact ⟨rfl, hr⟩

/-- A new completion is an old one, or the step itself. -/
theorem completesIn_snoc {response : String}
    (h : CompletesIn (tr ++ [(i, ⟨o, o.answer P w⟩)]) task response) :
    CompletesIn tr task response ∨
      ∃ t, o = .complete t response ∧ w.queue.pending.get? t = some task := by
  obtain ⟨j, t, h⟩ := h
  rcases mem_snoc.mp h with h | h
  · exact Or.inl ⟨j, t, h⟩
  · obtain ⟨-, h⟩ := Prod.mk.inj h
    refine Or.inr ⟨t, ?_⟩
    generalize hr : o.answer P w = r at h
    cases h
    exact ⟨rfl, (TaskQueue.complete_fst ..).symm.trans hr⟩

/-- A new cancellation is an old one, or the step itself. -/
theorem cancelsIn_snoc (h : CancelsIn (tr ++ [(i, ⟨o, o.answer P w⟩)]) task) :
    CancelsIn tr task ∨ ∃ t, o = .cancel t ∧ w.queue.pending.get? t = some task := by
  obtain ⟨j, t, h⟩ := h
  rcases mem_snoc.mp h with h | h
  · exact Or.inl ⟨j, t, h⟩
  · obtain ⟨-, h⟩ := Prod.mk.inj h
    refine Or.inr ⟨t, ?_⟩
    generalize hr : o.answer P w = r at h
    cases h
    exact ⟨rfl, (TaskQueue.cancel_fst ..).symm.trans hr⟩

theorem takenIn_snoc (h : TakenIn (tr ++ [(i, ⟨o, o.answer P w⟩)]) task) :
    TakenIn tr task ∨ ∃ t, o.Takes w.queue t task := by
  rcases h with ⟨response, h⟩ | h
  · rcases completesIn_snoc h with h | ⟨t, ho, hp⟩
    · exact Or.inl (Or.inl ⟨response, h⟩)
    · exact Or.inr ⟨t, hp, Or.inl ⟨response, ho⟩⟩
  · rcases cancelsIn_snoc h with h | ⟨t, ho, hp⟩
    · exact Or.inl (Or.inr h)
    · exact Or.inr ⟨t, hp, Or.inr ho⟩

/-- Completing a pending task leaves an event that says so. -/
theorem completesIn_of_pending {t : TaskId} {response : String}
    (hp : w.queue.pending.get? t = some task) :
    CompletesIn (tr ++ [(i, ⟨.complete t response, (Op.complete t response).answer P w⟩)]) task
      response := by
  have hr : (Op.complete t response).answer P w = some task := (TaskQueue.complete_fst ..).trans hp
  exact ⟨i, t, by rw [hr]; exact mem_snoc.mpr (Or.inr rfl)⟩

/-- Taking a task out leaves an event that says so. -/
theorem Op.Takes.takenIn {t : TaskId} (h : o.Takes w.queue t task) :
    TakenIn (tr ++ [(i, ⟨o, o.answer P w⟩)]) task := by
  rcases h with ⟨hp, ⟨response, rfl⟩ | rfl⟩
  · exact Or.inl ⟨response, completesIn_of_pending hp⟩
  · have hr : (Op.cancel t).answer P w = some task := (TaskQueue.cancel_fst ..).trans hp
    exact Or.inr ⟨i, t, by rw [hr]; exact mem_snoc.mpr (Or.inr rfl)⟩

end Step

/-! ### The base facts -/

/-- What every run establishes about the queue and the events so far. -/
structure Base (tr : Trace) (w : World) : Prop where
  wf : w.queue.WF
  /-- Drained tasks were accepted once. -/
  drained : ∀ {i tasks}, (i, (⟨.drainPending, tasks⟩ : Event)) ∈ tr → ∀ task ∈ tasks,
    task ∈ w.queue.objects
  accepted : ∀ {i t text metadata contextId createdAt task},
    (i, (⟨.enqueue t text metadata contextId createdAt, some task⟩ : Event)) ∈ tr →
      task ∈ w.queue.objects ∧ task.taskId = t ∧ task.text = text ∧ task.contextId = contextId
  /-- No two threads have one object accepted. -/
  accepted_inj : ∀ {i j task}, AcceptsIn tr i task → AcceptsIn tr j task → i = j
  taken : ∀ {task}, TakenIn tr task → task ∈ w.queue.objects

theorem Base.mem_objects {tr : Trace} {w : World} (h : Base tr w) {i : ℕ} {task : PendingTask}
    (hacc : AcceptsIn tr i task) : task ∈ w.queue.objects := by
  obtain ⟨_, _, _, _, _, hacc⟩ := hacc
  exact (h.accepted hacc).1

/-- A task an `enqueue` accepts is new. -/
theorem Op.Accepts.notMem {q : TaskQueue} (hq : q.WF) {o : Op} {task : PendingTask}
    (h : o.Accepts q task) : task ∉ q.objects := by
  intro hmem
  have := hq.ref_lt task hmem
  rw [h.spec.2.1] at this
  exact Nat.lt_irrefl _ this

theorem Op.Accepts.mem {q : TaskQueue} {o : Op} {task : PendingTask} (h : o.Accepts q task) :
    task ∈ (o.onQueue q).objects := by
  rw [h.spec.2.2]
  exact List.mem_append_right _ (List.mem_singleton.mpr rfl)

/-- One step keeps the base facts. -/
theorem Base.step {P : Platform} {tr : Trace} {w : World} (h : Base tr w) (i : ℕ) {o : Op}
    (hrequeue : ∀ tasks, o = .requeueTasks tasks → ∀ task ∈ tasks, task ∈ w.queue.objects) :
    Base (tr ++ [(i, ⟨o, o.answer P w⟩)]) (o.after P w) where
  wf := h.wf.onQueue hrequeue
  drained := by
    intro j tasks hev task htask
    rcases mem_snoc.mp hev with hev | hev
    · exact mem_objects_onQueue o (h.drained hev task htask)
    · obtain ⟨-, hev⟩ := Prod.mk.inj hev
      generalize hr : o.answer P w = r at hev
      cases hev
      subst hr
      have hval : task ∈ w.queue.pending.values := List.mem_of_mem_filter htask
      obtain ⟨t, hp⟩ := OrderedDict.mem_values_iff_get?.mp hval
      exact (h.wf.pending hp).2
  accepted := by
    intro j t text metadata contextId createdAt task hev
    rcases mem_snoc.mp hev with hev | hev
    · obtain ⟨hmem, hrest⟩ := h.accepted hev
      exact ⟨mem_objects_onQueue o hmem, hrest⟩
    · obtain ⟨-, hev⟩ := Prod.mk.inj hev
      generalize hr : o.answer P w = r at hev
      cases hev
      have hacc : (Op.enqueue t text metadata contextId createdAt).Accepts w.queue task :=
        ⟨_, _, _, _, _, rfl, hr⟩
      refine ⟨hacc.mem, ?_⟩
      rw [TaskQueue.eq_newTask_of_enqueue hr]
      exact ⟨rfl, rfl, rfl⟩
  accepted_inj := by
    intro j k task hj hk
    rcases acceptsIn_snoc hj with hold | ⟨rfl, hnew⟩ <;>
      rcases acceptsIn_snoc hk with hold' | ⟨rfl, hnew'⟩
    · exact h.accepted_inj hold hold'
    · exact absurd (h.mem_objects hold) (hnew'.notMem h.wf)
    · exact absurd (h.mem_objects hold') (hnew.notMem h.wf)
    · rfl
  taken := by
    intro task htaken
    rcases takenIn_snoc htaken with htaken | ⟨t, htakes⟩
    · exact mem_objects_onQueue o (h.taken htaken)
    · exact mem_objects_onQueue o (h.wf.pending htakes.1).2

section Runs

variable {P : Platform} {test : Test} {t₀ : Time} {c : Config}

/-- What the acting thread had done before its next step. -/
theorem pre_of_thread (hc : (system P).Reaches (Allows test) (World.init t₀) c) {i : ℕ}
    {x : Call} {o : Op}
    {k : o.Res → Proc Outcome} (hthread : c.threads[i]? = some (x, .step o k)) :
    x.pre P (c.history i) o :=
  (hc.meets (Call.meets P) hthread).1

/-- How a thread that has ended has gone. -/
theorem post_of_ends (hc : (system P).Reaches (Allows test) (World.init t₀) c) {i : ℕ} {x : Call}
    {outcome : Outcome} (hends : c.Ends i x outcome) : x.post P (c.history i) outcome :=
  Prog.meets_ret.mp (hc.meets (Call.meets P) hends)

/-- Requeued tasks were accepted once. -/
theorem requeue_mem_objects {w : World} (hbase : Base c.trace w) {i : ℕ} {x : Call}
    {tasks : List PendingTask} (hpre : x.pre P (c.history i) (.requeueTasks tasks)) :
    ∀ task ∈ tasks, task ∈ w.queue.objects := by
  obtain ⟨first, -, hev⟩ := hpre
  intro task htask
  exact hbase.drained (mem_historyOf.mp hev) task (List.mem_cons_of_mem _ htask)

/-- **The base facts hold throughout every run.** -/
theorem reaches_base (hc : (system P).Reaches (Allows test) (World.init t₀) c) :
    Base c.trace c.shared := by
  refine hc.invariant (I := Base) ?_ ?_ ?_
  · exact
      { wf := TaskQueue.WF.empty
        drained := fun h => absurd h List.not_mem_nil
        accepted := fun h => absurd h List.not_mem_nil
        accepted_inj := fun ⟨_, _, _, _, _, h⟩ => absurd h List.not_mem_nil
        taken := by
          rintro task (⟨_, _, _, h⟩ | ⟨_, _, h⟩) <;> exact absurd h List.not_mem_nil }
  · exact fun tr w d h => ⟨h.wf, h.drained, h.accepted, h.accepted_inj, h.taken⟩
  · intro c i x o k r w' hreach h hthread _ hexec
    obtain ⟨-, rfl, rfl⟩ := exec_eq_some_iff.mp hexec
    refine h.step i fun tasks ho => ?_
    subst ho
    exact requeue_mem_objects h (pre_of_thread hreach hthread)

/-- **Invariants of runs**, with the base facts and the acting thread's past at
hand in the step. -/
theorem run_invariant {I : Trace → World → Prop} (hstart : I [] (World.init t₀))
    (htick : ∀ tr w d, I tr w → I tr (tick d w))
    (hstep : ∀ (c : Config) (i : ℕ) (x : Call) (o : Op), Base c.trace c.shared →
      I c.trace c.shared → test c i o = true → x.pre P (c.history i) o → c.Calls i x →
        I (c.trace ++ [(i, ⟨o, o.answer P c.shared⟩)]) (o.after P c.shared))
    (hc : (system P).Reaches (Allows test) (World.init t₀) c) : I c.trace c.shared := by
  refine hc.invariant hstart htick ?_
  intro c i x o k r w' hreach h hthread hok hexec
  obtain ⟨-, rfl, rfl⟩ := exec_eq_some_iff.mp hexec
  exact hstep c i x o (reaches_base hreach) h hok (pre_of_thread hreach hthread) ⟨_, hthread⟩

/-- In these runs, no task is requeued that is not pending. -/
def Test.RequeuesPending (test : Test) : Prop :=
  ∀ c i tasks, test c i (.requeueTasks tasks) = true →
    ∀ task ∈ tasks, task.taskId ∈ c.shared.queue.pending

/-- **What was taken out does not come back**, unless it is requeued. -/
theorem TakenIn.not_pending (htest : test.RequeuesPending)
    (hc : (system P).Reaches (Allows test) (World.init t₀) c) {task : PendingTask}
    (h : TakenIn c.trace task) : c.shared.queue.pending.get? task.taskId ≠ some task := by
  have hinv : ∀ task, TakenIn c.trace task →
      c.shared.queue.pending.get? task.taskId ≠ some task := by
    refine run_invariant (I := fun tr w => ∀ task, TakenIn tr task →
      w.queue.pending.get? task.taskId ≠ some task) ?_ ?_ ?_ hc
    · intro task _ hp
      cases hp
    · exact fun _ _ _ h => h
    · intro c i x o hbase ih hok _ _ task htaken hp
      rcases takenIn_snoc htaken with hold | ⟨t, htakes⟩
      · rcases pending_arrives hp with hp | ⟨hnot, -, hacc | ⟨tasks, rfl, hmem⟩⟩
        · exact ih task hold hp
        · exact hacc.notMem hbase.wf (hbase.taken hold)
        · exact hnot (htest c i tasks hok task hmem)
      · obtain ⟨rfl, -⟩ := hbase.wf.pending htakes.1
        exact htakes.not_pending (OrderedDict.mem_of_get? hp)
  exact hinv task h

end Runs

/-! ### The queue along a trace -/

/-- The queue after the steps of a trace. -/
def queueAfter (q : TaskQueue) (tr : Trace) : TaskQueue := Machine.along Op.onQueue q tr

@[simp] theorem queueAfter_nil (q : TaskQueue) : queueAfter q [] = q := rfl

@[simp] theorem queueAfter_snoc (q : TaskQueue) (tr : Trace) (e : ℕ × Event) :
    queueAfter q (tr ++ [e]) = e.2.op.onQueue (queueAfter q tr) := Machine.along_snoc ..

section Along

variable {P : Platform} {test : Test} {w₀ : World} {c : Config}

/-- In every run, from any state, the trace determines the queue. -/
theorem queue_eq_queueAfter (hc : (system P).Reaches (Allows test) w₀ c) :
    c.shared.queue = queueAfter w₀.queue c.trace := by
  refine hc.along (p := World.queue) (fun _ _ => rfl) ?_
  intro o w r w' hexec
  obtain ⟨-, -, rfl⟩ := (exec_eq_some_iff (P := P)).mp hexec
  rfl

/-- **An event in its place**: the configuration the step was made in, with the
queue as the trace before it leaves it. -/
theorem event_at (hc : (system P).Reaches (Allows test) w₀ c) {tr₁ tr₂ : Trace} {i : ℕ} {e : Event}
    (htr : c.trace = tr₁ ++ (i, e) :: tr₂) :
    ∃ b : Config, (system P).Reaches (Allows test) w₀ b ∧ b.trace = tr₁ ∧
      b.shared.queue = queueAfter w₀.queue tr₁ ∧ test b i e.op = true ∧
        e.res = e.op.answer P b.shared := by
  obtain ⟨b, x, k, s', hb, rfl, -, hok, hexec, -⟩ := hc.event htr
  obtain ⟨-, hres, -⟩ := (exec_eq_some_iff (P := P)).mp hexec
  exact ⟨b, hb, rfl, queue_eq_queueAfter hb, hok, hres⟩

end Along

end HermesA2A
