import HermesA2A.QueueSteps

/-!
# Answered tasks

A task is answered when its `ready` event is set: its caller is released with
`task.response`.  `complete` and `cancel` do it under the queue's lock, as the
task leaves the pending ones.  The webhook-failure callback and the orphan watchdog
do it from outside, and leave the task where it is.

Here both are single steps of the queue, as they are when nothing comes between
(`webhookFailure_alone`, `watchdogPass_alone`), and `QueueOp` is a sequence of
these and the queue's own operations.

* `TaskQueue.AnswersFinal` — the invariant: pending tasks are unanswered, and a
  task that is not pending is settled.
* `QueueOp.spares` — the steps that keep it.
* `answered_is_finished` — what follows for an answered task.
-/

namespace HermesA2A

namespace TaskQueue

/-! ### The callback and the watchdog as single steps -/

/-- `if task.response is None: task.response = text; task.ready.set()` -/
def answerUnanswered (text : String) (q : TaskQueue) (task : PendingTask) : TaskQueue :=
  if (q.cells task.ref).response = none then q.modifyCell task.ref (Cell.answer text) else q

/-- `_on_webhook_failure`, left alone. -/
def webhookFailure (t : TaskId) (q : TaskQueue) : TaskQueue :=
  match q.findTaskById t with
  | .ok (some task) => q.answerUnanswered "(webhook delivery failed)" task
  | _ => q

/-- Is the oldest pending task too young to be an orphan? -/
def tooYoung (cutoff : Time) (q : TaskQueue) : Bool := q.oldestPendingTime.any (cutoff ≤ ·)

/-- The watchdog's loop, left alone. -/
def markOrphans (cutoff : Time) (q : TaskQueue) (tasks : List PendingTask) : TaskQueue :=
  (tasks.filter fun task => task.createdAt < cutoff).foldl
    (answerUnanswered "(orphaned — no response)") q

/-- One pass of the orphan watchdog, left alone. -/
def watchdogPass (cutoff : Time) (q : TaskQueue) : TaskQueue :=
  if q.tooYoung cutoff then q else q.markOrphans cutoff q.pending.values

end TaskQueue

theorem TaskQueue.modifyCell_modifyCell (ref : ℕ) (f g : Cell → Cell) (q : TaskQueue) :
    (q.modifyCell ref f).modifyCell ref g = q.modifyCell ref (g ∘ f) := by
  simp [TaskQueue.modifyCell]

section Alone

variable {P : Platform} {w : World}

/-- The world with another queue. -/
def World.withQueue (w : World) (q : TaskQueue) : World := { w with queue := q }

/-- A step that need not wait is performed. -/
theorem alone_act {o : Op} {α : Type} {f : o.Res → Proc α} (h : o.blocked w = false) :
    (act o >>= f).alone (exec P) w = (f (o.answer P w)).alone (exec P) (o.after P w) := by
  show (exec P o w).bind _ = _
  unfold exec
  rw [h]
  rfl

theorem answerUnanswered_alone (task : PendingTask) (text : String) :
    (answerUnanswered task text).alone (exec P) w =
      some ((), w.withQueue (w.queue.answerUnanswered text task)) := by
  unfold TaskQueue.answerUnanswered answerUnanswered
  rw [alone_act rfl]
  have hanswer : (Op.readResponse task).answer P w = (w.queue.cells task.ref).response := rfl
  rw [hanswer]
  cases h : (w.queue.cells task.ref).response with
  | some response => rfl
  | none =>
      have hcell : w.queue.modifyCell task.ref (Cell.answer text) =
          (w.queue.modifyCell task.ref (Cell.write text)).modifyCell task.ref Cell.setReady :=
        (TaskQueue.modifyCell_modifyCell ..).symm
      rw [if_pos rfl, hcell]
      rfl

/-- **The callback, left alone, is one step of the queue.** -/
theorem webhookFailure_alone (t : TaskId) :
    ((webhookFailure t).alone (exec P) w).map Prod.snd =
      some (w.withQueue (w.queue.webhookFailure t)) := by
  unfold webhookFailure TaskQueue.webhookFailure
  rw [alone_act rfl]
  have hanswer : (Op.findTaskById t).answer P w = w.queue.findTaskById t := rfl
  rw [hanswer]
  rcases w.queue.findTaskById t with e | _ | task
  · rfl
  · rfl
  · rw [Prog.alone_bind]
    have hafter : (Op.findTaskById t).after P w = w := rfl
    rw [hafter, answerUnanswered_alone]
    rfl

theorem markOrphans_alone (cutoff : Time) (tasks : List PendingTask) :
    ((markOrphans cutoff tasks).alone (exec P) w).map Prod.snd =
      some (w.withQueue (w.queue.markOrphans cutoff tasks)) := by
  induction tasks generalizing w with
  | nil => rfl
  | cons task tasks ih =>
      rw [markOrphans]
      by_cases hold : task.createdAt < cutoff
      · have hfold : w.queue.markOrphans cutoff (task :: tasks) =
            (w.queue.answerUnanswered "(orphaned — no response)" task).markOrphans cutoff
              tasks := by
          simp [TaskQueue.markOrphans, hold]
        rw [if_pos hold, Prog.alone_bind, answerUnanswered_alone, hfold]
        exact ih
      · have hfold : w.queue.markOrphans cutoff (task :: tasks) =
            w.queue.markOrphans cutoff tasks := by
          simp [TaskQueue.markOrphans, hold]
        rw [if_neg hold, hfold]
        exact ih

/-- **A watchdog pass, left alone, is one step of the queue.** -/
theorem watchdogPass_alone :
    ((watchdogPass P).alone (exec P) w).map Prod.snd =
      some (w.withQueue (w.queue.watchdogPass (w.clock - 2 * P.responseTimeout))) := by
  have hscan : ∀ cutoff, ((watchdogPass.scan cutoff).alone (exec P) w).map Prod.snd =
      some (w.withQueue (w.queue.markOrphans cutoff w.queue.pending.values)) := by
    intro cutoff
    unfold watchdogPass.scan
    rw [alone_act rfl]
    exact markOrphans_alone cutoff _
  have hnow : (Op.now).answer P w = w.clock := rfl
  have holdest : (Op.oldestPendingTime).answer P (Op.now.after P w) =
      w.queue.oldestPendingTime := rfl
  unfold watchdogPass TaskQueue.watchdogPass TaskQueue.tooYoung
  rw [alone_act rfl, hnow, alone_act rfl, holdest]
  cases h : w.queue.oldestPendingTime with
  | none => exact hscan _
  | some oldest =>
      show Option.map Prod.snd (Prog.alone (exec P) (act .oldestPendingTime >>= _) w) = _
      have hagain : (Op.oldestPendingTime).answer P w = some oldest := h
      rw [alone_act rfl, hagain]
      by_cases hyoung : oldest ≥ w.clock - 2 * P.responseTimeout
      · simp only [if_pos hyoung, Option.any_some, decide_eq_true hyoung]
        rfl
      · simp only [if_neg hyoung, Option.any_some, decide_eq_false hyoung]
        exact hscan _

end Alone

/-! ### Sequences of steps -/

/-- A step of the queue: one of its operations, a caller that gives up, the
callback, or a watchdog pass. -/
inductive QueueOp
  | enqueue (t : TaskId) (text : String) (metadata contextId : Json) (createdAt : Time)
  | markProcessing (t : TaskId)
  | transition (t : TaskId) (toState : TaskState)
  | complete (t : TaskId) (response : String)
  | cancel (t : TaskId)
  | giveUp (task : PendingTask)
  | webhookFailure (t : TaskId)
  | watchdogPass (cutoff : Time)

/-- An operation on an id; one that is no dictionary key raises before anything has
happened. -/
def TaskQueue.keyed (t : TaskId) (o : Op) (q : TaskQueue) : TaskQueue :=
  if t.hashable then o.onQueue q else q

/-- What a step does. -/
def QueueOp.run (q : TaskQueue) : QueueOp → TaskQueue
  | enqueue t text metadata contextId createdAt =>
      q.keyed t (.enqueue t text metadata contextId createdAt)
  | markProcessing t => q.keyed t (.markProcessing t)
  | transition t toState => q.keyed t (.transition t toState)
  | complete t response => q.keyed t (.complete t response)
  | cancel t => q.keyed t (.cancel t)
  | giveUp task => (Op.setReturned task).onQueue q
  | webhookFailure t => q.webhookFailure t
  | watchdogPass cutoff => q.watchdogPass cutoff

/-- What a sequence of steps does. -/
def runSteps (q : TaskQueue) (ops : List QueueOp) : TaskQueue := ops.foldl QueueOp.run q

/-- The step answers no pending task, and accepts no id that has been answered. -/
def QueueOp.spares (q : TaskQueue) : QueueOp → Bool
  | enqueue t text metadata contextId createdAt =>
      (q.enqueue t text metadata contextId createdAt).1.isNone ||
        q.objects.all fun task => decide (task.taskId ≠ t) || !(q.cells task.ref).ready
  | webhookFailure t => decide (t ∉ q.pending)
  | watchdogPass cutoff =>
      q.tooYoung cutoff || q.pending.values.all fun task => decide (cutoff ≤ task.createdAt)
  | _ => true

/-- Every step of the sequence is such a step, in the state it is taken in. -/
def sparingSteps (q : TaskQueue) : List QueueOp → Bool
  | [] => true
  | op :: ops => op.spares q && sparingSteps (op.run q) ops

/-! ### The invariant -/

/-- The state recorded for `t` is terminal. -/
def TaskQueue.Settled (q : TaskQueue) (t : TaskId) : Prop :=
  ∃ s, q.states.get? t = some s ∧ s.terminal = true

/-- **Answers are final.** -/
structure TaskQueue.AnswersFinal (q : TaskQueue) : Prop where
  wf : q.WF
  hashable : ∀ task ∈ q.objects, task.taskId.hashable = true
  /-- A pending task has no answer. -/
  unanswered : ∀ {t task}, q.pending.get? t = some task → (q.cells task.ref).response = none
  /-- An answered task has a response, and its id is not pending. -/
  answered : ∀ task ∈ q.objects, (q.cells task.ref).ready = true →
    (q.cells task.ref).response ≠ none ∧ task.taskId ∉ q.pending
  /-- A task that is not pending any more is settled. -/
  settled : ∀ task ∈ q.objects, task.taskId ∉ q.pending → q.Settled task.taskId

theorem TaskQueue.AnswersFinal.empty : TaskQueue.empty.AnswersFinal where
  wf := .empty
  hashable := fun _ h => absurd h List.not_mem_nil
  unanswered := fun h => by cases h
  answered := fun _ h => absurd h List.not_mem_nil
  settled := fun _ h => absurd h List.not_mem_nil

/-- The operation writes nothing from outside, and requeues nothing. -/
def Op.quiet : Op → Bool
  | requeueTasks _ => false
  | writeResponse .. => false
  | setReady _ => false
  | _ => true

/-- Every answer that `q` has, `q'` has too. -/
def TaskQueue.KeepsAnswers (q q' : TaskQueue) : Prop :=
  ∀ task ∈ q.objects, (q.cells task.ref).ready = true →
    task ∈ q'.objects ∧ (q'.cells task.ref).ready = true ∧
      (q'.cells task.ref).response = (q.cells task.ref).response

theorem TaskQueue.KeepsAnswers.refl (q : TaskQueue) : q.KeepsAnswers q :=
  fun _ hmem hready => ⟨hmem, hready, rfl⟩

theorem TaskQueue.KeepsAnswers.trans {q₁ q₂ q₃ : TaskQueue} (h : q₁.KeepsAnswers q₂)
    (h' : q₂.KeepsAnswers q₃) : q₁.KeepsAnswers q₃ := by
  intro task hmem hready
  obtain ⟨hmem', hready', hresponse⟩ := h task hmem hready
  obtain ⟨hmem'', hready'', hresponse'⟩ := h' task hmem' hready'
  exact ⟨hmem'', hready'', hresponse'.trans hresponse⟩

namespace TaskQueue.AnswersFinal

variable {q : TaskQueue} {o : Op} {t : TaskId} {task : PendingTask}

/-- A pending task is not ready. -/
theorem not_ready (h : q.AnswersFinal) (hp : q.pending.get? t = some task) :
    (q.cells task.ref).ready = false := by
  obtain ⟨rfl, hmem⟩ := h.wf.pending hp
  rw [Bool.eq_false_iff]
  intro hready
  exact (h.answered task hmem hready).2 (OrderedDict.mem_of_get? hp)

/-- The fields of an object that the step neither makes nor takes out: all it may do
is give up. -/
theorem cell_onQueue (h : q.AnswersFinal) (hquiet : o.quiet = true) (hmem : task ∈ q.objects)
    (hkept : ¬ o.Takes q task.taskId task) :
    ((o.onQueue q).cells task.ref).response = (q.cells task.ref).response ∧
      ((o.onQueue q).cells task.ref).ready = (q.cells task.ref).ready := by
  have hsame : ∀ {t task'}, q.pending.get? t = some task' → task'.ref = task.ref →
      t = task.taskId ∧ q.pending.get? task.taskId = some task := by
    intro t task' hp href
    obtain ⟨rfl, hmem'⟩ := h.wf.pending hp
    obtain rfl := h.wf.ref_inj _ hmem' _ hmem href
    exact ⟨rfl, hp⟩
  rcases cells_onQueue o q task.ref with heq | ⟨new, hacc, href, -⟩ |
    ⟨t, task', response, rfl, hp, href, -⟩ | ⟨t, task', rfl, hp, href, -⟩ |
    ⟨task', response, rfl, -⟩ | ⟨task', rfl, -⟩ | ⟨task', rfl, -, heq⟩
  · rw [heq]
    exact ⟨rfl, rfl⟩
  · have := h.wf.ref_lt task hmem
    rw [← href, hacc.spec.2.1] at this
    exact absurd this (Nat.lt_irrefl _)
  · obtain ⟨rfl, hp'⟩ := hsame hp href
    exact absurd ⟨hp', Or.inl ⟨response, rfl⟩⟩ hkept
  · obtain ⟨rfl, hp'⟩ := hsame hp href
    exact absurd ⟨hp', Or.inr rfl⟩ hkept
  · cases hquiet
  · cases hquiet
  · rw [heq]
    exact ⟨rfl, rfl⟩

/-- A settled task stays settled while it is not accepted again. -/
theorem settled_onQueue (h : q.Settled t) (hout : t ∉ (o.onQueue q).pending) :
    (o.onQueue q).Settled t := by
  obtain ⟨s, hs, hterminal⟩ := h
  rcases states_onQueue o q t with heq | ⟨new, hacc, rfl, -⟩ | ⟨s', -, hedge, -⟩ | ⟨-, -, heq⟩ |
    ⟨-, -, heq⟩
  · exact ⟨s, heq.trans hs, hterminal⟩
  · refine absurd ?_ hout
    rw [hacc.spec.2.2]
    exact OrderedDict.mem_set_iff.mpr (Or.inl rfl)
  · rw [hs] at hedge
    change s' ∈ s.transitions at hedge
    rw [(TaskState.terminal_iff s).mp hterminal] at hedge
    cases hedge
  · exact ⟨_, heq, rfl⟩
  · exact ⟨_, heq, rfl⟩

/-- Taking a task out settles it. -/
theorem settled_of_takes (h : o.Takes q t task) : (o.onQueue q).Settled t := by
  have hmem := OrderedDict.mem_of_get? h.1
  rcases h.2 with ⟨response, rfl⟩ | rfl
  · exact ⟨_, (complete_states t response q t).trans (if_pos ⟨rfl, hmem⟩), rfl⟩
  · exact ⟨_, (cancel_states t q t).trans (if_pos ⟨rfl, hmem⟩), rfl⟩

/-- Taking a task out leaves a response, unless its caller has given up. -/
theorem response_of_takes (h : q.AnswersFinal) (htakes : o.Takes q t task)
    (hready : ((o.onQueue q).cells task.ref).ready = true) :
    ((o.onQueue q).cells task.ref).response ≠ none := by
  obtain ⟨hp, ⟨response, rfl⟩ | rfl⟩ := htakes
  · have hcell : ((Op.complete t response).onQueue q).cells task.ref =
        completeCell response (q.cells task.ref) :=
      (complete_cells t response q task.ref).trans (if_pos (by rw [hp]; rfl))
    rw [hcell] at hready ⊢
    unfold completeCell at hready ⊢
    split_ifs at hready ⊢
    · rw [h.not_ready hp] at hready
      cases hready
    · exact Option.some_ne_none response
  · have hcell : ((Op.cancel t).onQueue q).cells task.ref =
        (q.cells task.ref).answer "(canceled)" :=
      (cancel_cells t q task.ref).trans (if_pos (by rw [hp]; rfl))
    rw [hcell]
    exact Option.some_ne_none _

/-- **A quiet operation keeps answers final**, provided it accepts no id that has
been answered. -/
theorem onQueue (h : q.AnswersFinal) (hquiet : o.quiet = true)
    (haccepts : ∀ new, o.Accepts q new → new.taskId.hashable = true ∧
      ∀ task ∈ q.objects, task.taskId = new.taskId → (q.cells task.ref).ready = false) :
    (o.onQueue q).AnswersFinal ∧ q.KeepsAnswers (o.onQueue q) := by
  have hold : ∀ {task}, task ∈ (o.onQueue q).objects → task ∈ q.objects ∨ o.Accepts q task := by
    intro task hmem
    rcases objects_onQueue o q with heq | ⟨new, hacc, heq⟩
    · exact Or.inl (heq ▸ hmem)
    · rw [heq] at hmem
      rcases List.mem_append.mp hmem with hmem | hmem
      · exact Or.inl hmem
      · obtain rfl := List.mem_singleton.mp hmem
        exact Or.inr hacc
  have harrives : ∀ {t task}, (o.onQueue q).pending.get? t = some task →
      q.pending.get? t = some task ∨ (task.taskId = t ∧ o.Accepts q task) := by
    intro t task hp
    rcases pending_arrives hp with hp | ⟨-, ht, hacc | ⟨tasks, rfl, -⟩⟩
    · exact Or.inl hp
    · exact Or.inr ⟨ht, hacc⟩
    · cases hquiet
  -- an answered task is not taken out, and its id not accepted
  have hanswered : ∀ task ∈ q.objects, (q.cells task.ref).ready = true →
      ¬ o.Takes q task.taskId task ∧ task.taskId ∉ (o.onQueue q).pending := by
    intro task hmem hready
    obtain ⟨-, hout⟩ := h.answered task hmem hready
    refine ⟨fun htakes => hout (OrderedDict.mem_of_get? htakes.1), fun hin => ?_⟩
    obtain ⟨new, hp⟩ := OrderedDict.mem_iff_exists.mp hin
    rcases harrives hp with hp | ⟨ht, hacc⟩
    · exact hout (OrderedDict.mem_of_get? hp)
    · have := (haccepts new hacc).2 task hmem ht.symm
      rw [hready] at this
      cases this
  refine ⟨⟨?_, ?_, ?_, ?_, ?_⟩, ?_⟩
  · refine h.wf.onQueue fun tasks ho => ?_
    subst ho
    cases hquiet
  · intro task hmem
    rcases hold hmem with hmem | hacc
    · exact h.hashable task hmem
    · exact (haccepts task hacc).1
  · intro t task hp
    rcases harrives hp with hp' | ⟨-, hacc⟩
    · obtain ⟨rfl, hmem⟩ := h.wf.pending hp'
      have hkept : ¬ o.Takes q task.taskId task := fun htakes =>
        htakes.not_pending (OrderedDict.mem_of_get? hp)
      exact (h.cell_onQueue hquiet hmem hkept).1.trans (h.unanswered hp')
    · rw [hacc.cell]
      rfl
  · intro task hmem hready
    rcases hold hmem with hmem | hacc
    · by_cases htakes : o.Takes q task.taskId task
      · exact ⟨h.response_of_takes htakes hready, htakes.not_pending⟩
      · obtain ⟨hresponse, hready'⟩ := h.cell_onQueue hquiet hmem htakes
        rw [hready'] at hready
        rw [hresponse]
        exact ⟨(h.answered task hmem hready).1, (hanswered task hmem hready).2⟩
    · rw [hacc.cell] at hready
      cases hready
  · intro task hmem hout
    rcases hold hmem with hmem | hacc
    · by_cases hin : task.taskId ∈ q.pending
      · obtain ⟨task', hp⟩ := OrderedDict.mem_iff_exists.mp hin
        rcases pending_leaves o hp with hp' | htakes
        · exact absurd (OrderedDict.mem_of_get? hp') hout
        · exact settled_of_takes htakes
      · exact settled_onQueue (h.settled task hmem hin) hout
    · refine absurd ?_ hout
      rw [hacc.spec.2.2]
      exact OrderedDict.mem_set_iff.mpr (Or.inl rfl)
  · intro task hmem hready
    obtain ⟨hresponse, hready'⟩ := h.cell_onQueue hquiet hmem (hanswered task hmem hready).1
    exact ⟨mem_objects_onQueue o hmem, hready'.trans hready, hresponse⟩

/-- Answering a task that is not pending keeps answers final. -/
theorem answerUnanswered (h : q.AnswersFinal) (text : String) (hmem : task ∈ q.objects)
    (hout : task.taskId ∉ q.pending) :
    (q.answerUnanswered text task).AnswersFinal ∧
      q.KeepsAnswers (q.answerUnanswered text task) := by
  unfold TaskQueue.answerUnanswered
  by_cases hnone : (q.cells task.ref).response = none
  · rw [if_pos hnone]
    have hother : ∀ other ∈ q.objects, other ≠ task →
        (q.modifyCell task.ref (Cell.answer text)).cells other.ref = q.cells other.ref := by
      intro other hother hne
      rw [modifyCell_cells, if_neg]
      exact fun href => hne (h.wf.ref_inj _ hother _ hmem href.symm)
    have hself : (q.modifyCell task.ref (Cell.answer text)).cells task.ref =
        (q.cells task.ref).answer text := by
      rw [modifyCell_cells, if_pos rfl]
    refine ⟨⟨?_, h.hashable, ?_, ?_, h.settled⟩, ?_⟩
    · exact ⟨h.wf.ref_lt, h.wf.ref_inj, h.wf.pending, h.wf.completed, h.wf.processing,
        h.wf.recorded⟩
    · intro t other hp
      obtain ⟨rfl, hother'⟩ := h.wf.pending hp
      rw [hother other hother']
      · exact h.unanswered hp
      · rintro rfl
        exact hout (OrderedDict.mem_of_get? hp)
    · intro other hother' hready
      by_cases heq : other = task
      · subst heq
        rw [hself]
        exact ⟨Option.some_ne_none text, hout⟩
      · rw [hother other hother' heq] at hready ⊢
        exact h.answered other hother' hready
    · intro other hother' hready
      have hne : other ≠ task := by
        rintro rfl
        exact (h.answered other hmem hready).1 hnone
      rw [hother other hother' hne]
      exact ⟨hother', hready, rfl⟩
  · rw [if_neg hnone]
    exact ⟨h, .refl q⟩

/-- An operation on an id keeps answers final. -/
theorem keyed (h : q.AnswersFinal) (hquiet : o.quiet = true)
    (haccepts : t.hashable = true → ∀ new, o.Accepts q new → new.taskId.hashable = true ∧
      ∀ task ∈ q.objects, task.taskId = new.taskId → (q.cells task.ref).ready = false) :
    (q.keyed t o).AnswersFinal ∧ q.KeepsAnswers (q.keyed t o) := by
  unfold TaskQueue.keyed
  by_cases hhash : t.hashable = true
  · rw [if_pos hhash]
    exact h.onQueue hquiet (haccepts hhash)
  · rw [if_neg hhash]
    exact ⟨h, .refl q⟩

/-- **One step keeps answers final.** -/
theorem run (h : q.AnswersFinal) {op : QueueOp} (hspares : op.spares q = true) :
    (op.run q).AnswersFinal ∧ q.KeepsAnswers (op.run q) := by
  cases op with
  | enqueue t text metadata contextId createdAt =>
      refine h.keyed rfl fun hhash new hacc => ?_
      obtain ⟨_, _, _, _, _, heq, hnew⟩ := hacc
      cases heq
      rw [taskId_of_enqueue hnew]
      refine ⟨hhash, fun task hmem ht => ?_⟩
      simp only [QueueOp.spares, hnew, Option.isNone_some, Bool.false_or, List.all_eq_true]
        at hspares
      simpa [ht] using hspares task hmem
  | markProcessing t => exact h.keyed rfl fun _ new ⟨_, _, _, _, _, heq, _⟩ => nomatch heq
  | transition t toState => exact h.keyed rfl fun _ new ⟨_, _, _, _, _, heq, _⟩ => nomatch heq
  | complete t response => exact h.keyed rfl fun _ new ⟨_, _, _, _, _, heq, _⟩ => nomatch heq
  | cancel t => exact h.keyed rfl fun _ new ⟨_, _, _, _, _, heq, _⟩ => nomatch heq
  | giveUp task =>
      refine h.onQueue (o := .setReturned task) rfl ?_
      rintro new ⟨_, _, _, _, _, heq, -⟩
      cases heq
  | webhookFailure t =>
      have hout : t ∉ q.pending := of_decide_eq_true hspares
      show (q.webhookFailure t).AnswersFinal ∧ q.KeepsAnswers (q.webhookFailure t)
      unfold TaskQueue.webhookFailure TaskQueue.findTaskById
      by_cases hhash : t.hashable = true
      · rw [if_pos hhash, OrderedDict.get?_eq_none_iff.mpr hout, Option.none_or]
        cases hfound : q.completed.get? t with
        | none => exact ⟨h, .refl q⟩
        | some task =>
            obtain ⟨rfl, hmem⟩ := h.wf.completed hfound
            exact h.answerUnanswered _ hmem hout
      · rw [if_neg hhash]
        exact ⟨h, .refl q⟩
  | watchdogPass cutoff =>
      -- there is nothing to mark
      have hidle : q.watchdogPass cutoff = q := by
        unfold TaskQueue.watchdogPass
        by_cases hyoung : q.tooYoung cutoff = true
        · rw [if_pos hyoung]
        · rw [if_neg hyoung]
          simp only [QueueOp.spares, hyoung, Bool.false_or, List.all_eq_true,
            decide_eq_true_eq] at hspares
          have hnone : q.pending.values.filter (fun task => task.createdAt < cutoff) = [] :=
            List.filter_eq_nil_iff.mpr fun task hmem => by simpa using hspares task hmem
          unfold TaskQueue.markOrphans
          rw [hnone]
          rfl
      show (q.watchdogPass cutoff).AnswersFinal ∧ q.KeepsAnswers (q.watchdogPass cutoff)
      rw [hidle]
      exact ⟨h, .refl q⟩

/-- **A sequence of such steps keeps answers final.** -/
theorem runSteps {ops : List QueueOp} (h : q.AnswersFinal) (hspares : sparingSteps q ops = true) :
    (runSteps q ops).AnswersFinal ∧ q.KeepsAnswers (runSteps q ops) := by
  induction ops generalizing q with
  | nil => exact ⟨h, .refl q⟩
  | cons op ops ih =>
      obtain ⟨hop, hops⟩ := Bool.and_eq_true_iff.mp hspares
      obtain ⟨hfirst, hkeeps⟩ := h.run hop
      obtain ⟨hlast, hkeeps'⟩ := ih hfirst hops
      exact ⟨hlast, hkeeps.trans hkeeps'⟩

/-- What `get_status` says about a settled task. -/
theorem getStatus_of_settled (h : q.AnswersFinal) (hmem : task ∈ q.objects)
    (hout : task.taskId ∉ q.pending) :
    ∃ s, q.getStatus task.taskId = .ok ⟨some s, none⟩ ∧ s.terminal = true := by
  obtain ⟨s, hs, hterminal⟩ := h.settled task hmem hout
  unfold TaskQueue.getStatus
  rw [if_pos (h.hashable task hmem), if_neg hout, hs]
  split
  · split_ifs
    · exact ⟨_, rfl, rfl⟩
    · exact ⟨s, rfl, hterminal⟩
  · exact ⟨s, rfl, hterminal⟩

/-- What is not pending is not offered. -/
theorem notMem_drainPending (h : q.AnswersFinal) (hout : task.taskId ∉ q.pending)
    (exclude : List TaskId) : task ∉ q.drainPending exclude := by
  intro hmem
  obtain ⟨t, hp⟩ := OrderedDict.mem_values_iff_get?.mp (List.mem_of_mem_filter hmem)
  obtain ⟨rfl, -⟩ := h.wf.pending hp
  exact hout (OrderedDict.mem_of_get? hp)

end TaskQueue.AnswersFinal

theorem sparingSteps_append {q : TaskQueue} {ops ops' : List QueueOp} :
    sparingSteps q (ops ++ ops') = (sparingSteps q ops && sparingSteps (runSteps q ops) ops') := by
  induction ops generalizing q with
  | nil => rfl
  | cons op ops ih =>
      show (op.spares q && sparingSteps (op.run q) (ops ++ ops')) = _
      rw [ih, ← Bool.and_assoc]
      rfl

/-- **An answered task is finished**, if no callback or watchdog pass answers a
pending task and no answered id is accepted again: it is not pending, `get_status`
reports a terminal state, it is never offered, and its response does not change. -/
theorem answered_is_finished {ops ops' : List QueueOp} {task : PendingTask}
    (hspares : sparingSteps .empty (ops ++ ops') = true)
    (hmem : task ∈ (runSteps .empty ops).objects)
    (hready : ((runSteps .empty ops).cells task.ref).ready = true) :
    task.taskId ∉ (runSteps .empty (ops ++ ops')).pending ∧
      (∃ s, (runSteps .empty (ops ++ ops')).getStatus task.taskId = .ok ⟨some s, none⟩ ∧
        s.terminal = true) ∧
      (∀ exclude, task ∉ (runSteps .empty (ops ++ ops')).drainPending exclude) ∧
      ((runSteps .empty (ops ++ ops')).cells task.ref).response =
        ((runSteps .empty ops).cells task.ref).response := by
  rw [sparingSteps_append] at hspares
  obtain ⟨hbefore, hafter⟩ := Bool.and_eq_true_iff.mp hspares
  have happend : runSteps .empty (ops ++ ops') = runSteps (runSteps .empty ops) ops' :=
    List.foldl_append ..
  rw [happend]
  have hfinal := (TaskQueue.AnswersFinal.empty.runSteps hbefore).1
  obtain ⟨hlast, hkeeps⟩ := hfinal.runSteps hafter
  obtain ⟨hmem', hready', hresponse⟩ := hkeeps task hmem hready
  have hout := (hlast.answered task hmem' hready').2
  exact ⟨hout, hlast.getStatus_of_settled hmem' hout, hlast.notMem_drainPending hout, hresponse⟩

/-- The first task accepted, under the id `a`. -/
def firstTask : PendingTask := ⟨0, .str "a", "hi", .null, .null, 0⟩

/-- Accept it. -/
def acceptFirst : QueueOp := .enqueue (.str "a") "hi" .null .null 0

/-- A completed task, whatever fails or is canceled afterwards. -/
theorem completed_is_finished :
    .str "a" ∉ (runSteps .empty
      [acceptFirst, .complete (.str "a") "done", .webhookFailure (.str "a"), .watchdogPass 500,
        .cancel (.str "a")]).pending :=
  (@answered_is_finished [acceptFirst, .complete (.str "a") "done"]
    [.webhookFailure (.str "a"), .watchdogPass 500, .cancel (.str "a")] firstTask
    (by decide +kernel) (by decide +kernel) (by decide +kernel)).1

/-- After a failed webhook delivery the caller is released, the task is still
pending and offered, and a later completion changes its response. -/
theorem undelivered_is_offered :
    ((runSteps .empty [acceptFirst, .webhookFailure (.str "a")]).cells 0).ready = true ∧
      firstTask ∈ (runSteps .empty [acceptFirst, .webhookFailure (.str "a")]).objects ∧
      .str "a" ∈ (runSteps .empty [acceptFirst, .webhookFailure (.str "a")]).pending ∧
      (runSteps .empty [acceptFirst, .webhookFailure (.str "a")]).getStatus (.str "a") =
        .ok ⟨some .submitted, none⟩ ∧
      firstTask ∈ (runSteps .empty [acceptFirst, .webhookFailure (.str "a")]).drainPending [] ∧
      ((runSteps .empty [acceptFirst, .webhookFailure (.str "a")]).cells 0).response =
        some "(webhook delivery failed)" ∧
      ((runSteps .empty [acceptFirst, .webhookFailure (.str "a"),
        .complete (.str "a") "done"]).cells 0).response = some "done" := by
  decide +kernel

end HermesA2A
