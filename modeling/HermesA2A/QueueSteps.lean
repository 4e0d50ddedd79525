import HermesA2A.System

/-!
# What an atomic step does to the queue

One section per field of the queue: how a lookup after a step relates to a lookup
before it.  These are the only lemmas that go through all operations; invariants
are derived from them.

* `pending_arrives`, `pending_leaves` — where a pending task comes from, and how
  it goes.
* `states_onQueue` — the four ways a recorded state changes.
* `cells_onQueue` — the writers of an object's mutable fields.
* `TaskQueue.WF`, `wf_onQueue` — the invariant of the queue.
-/

namespace HermesA2A

namespace TaskQueue

/-! ### Requeueing -/

theorem requeue_pending (q : TaskQueue) (task : PendingTask) (t : TaskId) :
    (q.requeue task).pending.get? t =
      if t = task.taskId ∧ task.taskId ∉ q.pending ∧ task.taskId ∉ q.processing then some task
      else q.pending.get? t := by
  unfold requeue
  split_ifs with h ht ht
  · rw [OrderedDict.get?_set, if_pos ht.1]
  · rw [OrderedDict.get?_set, if_neg (fun heq => ht ⟨heq, h⟩)]
  · exact absurd ht.2 h
  · rfl

/-- Requeueing only adds tasks of the list, under ids that were not pending. -/
theorem requeueTasks_pending :
    ∀ {tasks : List PendingTask} {q : TaskQueue} {t : TaskId} {task : PendingTask},
      (q.requeueTasks tasks).pending.get? t = some task →
        q.pending.get? t = some task ∨ (task ∈ tasks ∧ t = task.taskId ∧ t ∉ q.pending) := by
  intro tasks
  induction tasks with
  | nil => intro q t task h; exact Or.inl h
  | cons a tasks ih =>
      intro q t task h
      rcases ih (q := q.requeue a) h with h | ⟨hmem, ht, hnot⟩
      · rw [requeue_pending] at h
        split_ifs at h with hadd
        · obtain rfl := Option.some.inj h
          exact Or.inr ⟨List.mem_cons_self, hadd.1, hadd.1 ▸ hadd.2.1⟩
        · exact Or.inl h
      · refine Or.inr ⟨List.mem_cons_of_mem a hmem, ht, ?_⟩
        rw [← OrderedDict.get?_eq_none_iff, requeue_pending] at hnot
        split_ifs at hnot with hadd
        exact OrderedDict.get?_eq_none_iff.mp hnot

theorem requeueTasks_of_pending :
    ∀ {tasks : List PendingTask} {q : TaskQueue} {t : TaskId} {task : PendingTask},
      q.pending.get? t = some task → (q.requeueTasks tasks).pending.get? t = some task := by
  intro tasks
  induction tasks with
  | nil => intro q t task h; exact h
  | cons a tasks ih =>
      intro q t task h
      apply ih (q := q.requeue a)
      rw [requeue_pending, if_neg]
      · exact h
      · rintro ⟨rfl, hnot, -⟩
        exact hnot (OrderedDict.mem_of_get? h)

/-- Requeueing tasks that never left is no change. -/
theorem requeueTasks_eq_self {tasks : List PendingTask} {q : TaskQueue}
    (h : ∀ task ∈ tasks, task.taskId ∈ q.pending) : q.requeueTasks tasks = q := by
  induction tasks with
  | nil => rfl
  | cons a tasks ih =>
      have ha : q.requeue a = q := by
        unfold requeue
        rw [if_neg (fun hadd => hadd.1 (h a List.mem_cons_self))]
      show (q.requeue a).requeueTasks tasks = q
      rw [ha]
      exact ih fun task htask => h task (List.mem_cons_of_mem a htask)

@[simp] theorem requeue_objects (q : TaskQueue) (task : PendingTask) :
    (q.requeue task).objects = q.objects := by unfold requeue; split <;> rfl

@[simp] theorem requeue_cells (q : TaskQueue) (task : PendingTask) :
    (q.requeue task).cells = q.cells := by unfold requeue; split <;> rfl

@[simp] theorem requeue_completed (q : TaskQueue) (task : PendingTask) :
    (q.requeue task).completed = q.completed := by unfold requeue; split <;> rfl

@[simp] theorem requeue_processing (q : TaskQueue) (task : PendingTask) :
    (q.requeue task).processing = q.processing := by unfold requeue; split <;> rfl

@[simp] theorem requeue_states (q : TaskQueue) (task : PendingTask) :
    (q.requeue task).states = q.states := by unfold requeue; split <;> rfl

@[simp] theorem requeue_oldestPendingTime (q : TaskQueue) (task : PendingTask) :
    (q.requeue task).oldestPendingTime = q.oldestPendingTime := by unfold requeue; split <;> rfl

/-- A field that no single requeueing changes. -/
private theorem requeueTasks_field {α : Sort*} (f : TaskQueue → α)
    (h : ∀ q task, f (requeue q task) = f q) (tasks : List PendingTask) (q : TaskQueue) :
    f (q.requeueTasks tasks) = f q := by
  induction tasks generalizing q with
  | nil => rfl
  | cons a tasks ih => exact (ih (q.requeue a)).trans (h q a)

@[simp] theorem requeueTasks_objects (tasks : List PendingTask) (q : TaskQueue) :
    (q.requeueTasks tasks).objects = q.objects := requeueTasks_field objects requeue_objects _ _

@[simp] theorem requeueTasks_cells (tasks : List PendingTask) (q : TaskQueue) :
    (q.requeueTasks tasks).cells = q.cells := requeueTasks_field cells requeue_cells _ _

@[simp] theorem requeueTasks_completed (tasks : List PendingTask) (q : TaskQueue) :
    (q.requeueTasks tasks).completed = q.completed :=
  requeueTasks_field completed requeue_completed _ _

@[simp] theorem requeueTasks_processing (tasks : List PendingTask) (q : TaskQueue) :
    (q.requeueTasks tasks).processing = q.processing :=
  requeueTasks_field processing requeue_processing _ _

@[simp] theorem requeueTasks_states (tasks : List PendingTask) (q : TaskQueue) :
    (q.requeueTasks tasks).states = q.states := requeueTasks_field states requeue_states _ _

@[simp] theorem requeueTasks_oldestPendingTime (tasks : List PendingTask) (q : TaskQueue) :
    (q.requeueTasks tasks).oldestPendingTime = q.oldestPendingTime :=
  requeueTasks_field oldestPendingTime requeue_oldestPendingTime _ _

/-- **A lookup after requeueing**: of the tasks with an id that is neither pending nor
being processed, the first one comes in. -/
theorem get?_requeueTasks (tasks : List PendingTask) (q : TaskQueue) (t : TaskId) :
    (q.requeueTasks tasks).pending.get? t =
      if t ∈ q.pending ∨ t ∈ q.processing then q.pending.get? t
      else tasks.find? fun task => task.taskId = t := by
  induction tasks generalizing q with
  | nil =>
      split_ifs with h
      · rfl
      · exact OrderedDict.get?_eq_none_iff.mpr fun hmem => h (Or.inl hmem)
  | cons a tasks ih =>
      refine (ih (q.requeue a)).trans ?_
      rw [requeue_processing]
      by_cases ha : a.taskId = t
      · subst ha
        rw [List.find?_cons_of_pos (by simp)]
        by_cases hknown : a.taskId ∈ q.pending ∨ a.taskId ∈ q.processing
        · have hsame : q.requeue a = q := if_neg fun hnew => hknown.elim hnew.1 hnew.2
          rw [hsame, if_pos hknown, if_pos hknown]
        · have hget : (q.requeue a).pending.get? a.taskId = some a := by
            rw [requeue_pending]
            exact if_pos ⟨rfl, not_or.mp hknown⟩
          rw [if_pos (Or.inl (OrderedDict.mem_of_get? hget)), if_neg hknown, hget]
      · have hget : (q.requeue a).pending.get? t = q.pending.get? t := by
          rw [requeue_pending]
          exact if_neg fun h => ha h.1.symm
        have hmem : t ∈ (q.requeue a).pending ↔ t ∈ q.pending := by
          simp only [OrderedDict.mem_iff_exists, hget]
        rw [List.find?_cons_of_neg (by simpa using ha), hget]
        simp only [hmem]

/-! ### Claiming and moving -/

@[simp] theorem markProcessing_pending (t : TaskId) (q : TaskQueue) :
    (q.markProcessing t).pending = q.pending := by unfold markProcessing; split <;> rfl

@[simp] theorem markProcessing_objects (t : TaskId) (q : TaskQueue) :
    (q.markProcessing t).objects = q.objects := by unfold markProcessing; split <;> rfl

@[simp] theorem markProcessing_cells (t : TaskId) (q : TaskQueue) :
    (q.markProcessing t).cells = q.cells := by unfold markProcessing; split <;> rfl

@[simp] theorem markProcessing_completed (t : TaskId) (q : TaskQueue) :
    (q.markProcessing t).completed = q.completed := by unfold markProcessing; split <;> rfl

@[simp] theorem markProcessing_states (t : TaskId) (q : TaskQueue) :
    (q.markProcessing t).states = q.states := by unfold markProcessing; split <;> rfl

theorem mem_markProcessing {t t' : TaskId} {q : TaskQueue} :
    t' ∈ (q.markProcessing t).processing ↔ t' ∈ q.processing ∨ (t' = t ∧ t ∈ q.pending) := by
  unfold markProcessing
  split_ifs with h
  · simp [List.mem_insert_iff, h, or_comm]
  · simp [h]

@[simp] theorem transition_pending (t : TaskId) (s : TaskState) (q : TaskQueue) :
    (q.transition t s).2.pending = q.pending := by
  simp only [transition]; split <;> rfl

@[simp] theorem transition_objects (t : TaskId) (s : TaskState) (q : TaskQueue) :
    (q.transition t s).2.objects = q.objects := by
  simp only [transition]; split <;> rfl

@[simp] theorem transition_cells (t : TaskId) (s : TaskState) (q : TaskQueue) :
    (q.transition t s).2.cells = q.cells := by
  simp only [transition]; split <;> rfl

@[simp] theorem transition_completed (t : TaskId) (s : TaskState) (q : TaskQueue) :
    (q.transition t s).2.completed = q.completed := by
  simp only [transition]; split <;> rfl

@[simp] theorem transition_processing (t : TaskId) (s : TaskState) (q : TaskQueue) :
    (q.transition t s).2.processing = q.processing := by
  simp only [transition]; split <;> rfl

theorem transition_states (t : TaskId) (s : TaskState) (q : TaskQueue) (t' : TaskId) :
    (q.transition t s).2.states.get? t' =
      if t' = t ∧ s ∈ ((q.states.get? t).getD .submitted).transitions then some s
      else q.states.get? t' := by
  simp only [transition]
  split_ifs with h ht ht
  · rw [OrderedDict.get?_set, if_pos ht.1]
  · rw [OrderedDict.get?_set, if_neg (fun heq => ht ⟨heq, h⟩)]
  · exact absurd ht.2 h
  · rfl

/-! ### Completing and cancelling -/

section Complete

variable (t : TaskId) (response : String) (q : TaskQueue)

@[simp] theorem complete_objects : (q.complete t response).2.objects = q.objects := by
  obtain ⟨n, d, h, -⟩ := complete_snd t response q
  rw [h]; exact takeOut_objects ..

@[simp] theorem complete_processing :
    (q.complete t response).2.processing = q.processing.filter (· ≠ t) := by
  obtain ⟨n, d, h, -⟩ := complete_snd t response q
  rw [h]; exact takeOut_processing ..

theorem complete_pending (t' : TaskId) :
    (q.complete t response).2.pending.get? t' = if t' = t then none else q.pending.get? t' := by
  obtain ⟨n, d, h, -⟩ := complete_snd t response q
  rw [h]; exact takeOut_pending ..

theorem complete_states (t' : TaskId) :
    (q.complete t response).2.states.get? t' =
      if t' = t ∧ t ∈ q.pending then some .completed else q.states.get? t' := by
  obtain ⟨n, d, h, -⟩ := complete_snd t response q
  rw [h]; exact takeOut_states ..

theorem complete_cells (ref : ℕ) :
    (q.complete t response).2.cells ref =
      if (q.pending.get? t).map PendingTask.ref = some ref then completeCell response (q.cells ref)
      else q.cells ref := by
  obtain ⟨n, d, h, -⟩ := complete_snd t response q
  rw [h]; exact takeOut_cells ..

theorem complete_completed {t' : TaskId} {task : PendingTask}
    (hc : (q.complete t response).2.completed.get? t' = some task) :
    q.completed.get? t' = some task ∨ (t' = t ∧ q.pending.get? t = some task) := by
  obtain ⟨n, d, h, hd⟩ := complete_snd t response q
  rw [h] at hc
  have := hd hc
  rw [takeOut_completed] at this
  split_ifs at this with ht
  · cases hp : q.pending.get? t with
    | none => rw [hp] at this; exact Or.inl (ht ▸ this)
    | some task' => rw [hp] at this; exact Or.inr ⟨ht, this⟩
  · exact Or.inl this

@[simp] theorem cancel_objects : (q.cancel t).2.objects = q.objects := by
  obtain ⟨n, h⟩ := cancel_snd t q
  rw [h]; exact takeOut_objects ..

@[simp] theorem cancel_processing :
    (q.cancel t).2.processing = q.processing.filter (· ≠ t) := by
  obtain ⟨n, h⟩ := cancel_snd t q
  rw [h]; exact takeOut_processing ..

theorem cancel_pending (t' : TaskId) :
    (q.cancel t).2.pending.get? t' = if t' = t then none else q.pending.get? t' := by
  obtain ⟨n, h⟩ := cancel_snd t q
  rw [h]; exact takeOut_pending ..

theorem cancel_states (t' : TaskId) :
    (q.cancel t).2.states.get? t' =
      if t' = t ∧ t ∈ q.pending then some .canceled else q.states.get? t' := by
  obtain ⟨n, h⟩ := cancel_snd t q
  rw [h]; exact takeOut_states ..

theorem cancel_cells (ref : ℕ) :
    (q.cancel t).2.cells ref =
      if (q.pending.get? t).map PendingTask.ref = some ref then
        (q.cells ref).answer "(canceled)"
      else q.cells ref := by
  obtain ⟨n, h⟩ := cancel_snd t q
  rw [h]; exact takeOut_cells ..

theorem cancel_completed {t' : TaskId} {task : PendingTask}
    (hc : (q.cancel t).2.completed.get? t' = some task) :
    q.completed.get? t' = some task ∨ (t' = t ∧ q.pending.get? t = some task) := by
  obtain ⟨n, h⟩ := cancel_snd t q
  rw [h] at hc
  have := (takeOut_completed ..).symm.trans hc
  split_ifs at this with ht
  · cases hp : q.pending.get? t with
    | none => rw [hp] at this; exact Or.inl (ht ▸ this)
    | some task' => rw [hp] at this; exact Or.inr ⟨ht, this⟩
  · exact Or.inl this

end Complete

end TaskQueue

open TaskQueue

/-! ## Steps in general -/

/-- The step is an `enqueue` that accepts, and `task` is the new object. -/
def Op.Accepts (o : Op) (q : TaskQueue) (task : PendingTask) : Prop :=
  ∃ t text metadata contextId createdAt, o = .enqueue t text metadata contextId createdAt ∧
    (q.enqueue t text metadata contextId createdAt).1 = some task

/-- The step completes or cancels `t`, and `task` is the object it takes out. -/
def Op.Takes (o : Op) (q : TaskQueue) (t : TaskId) (task : PendingTask) : Prop :=
  q.pending.get? t = some task ∧ ((∃ response, o = .complete t response) ∨ o = .cancel t)

section OnQueue

variable {o : Op} {q : TaskQueue} {t : TaskId} {task : PendingTask}

/-- What an accepting `enqueue` does. -/
theorem Op.Accepts.spec (h : o.Accepts q task) :
    task.taskId ∉ q.pending ∧ task.ref = q.objects.length ∧
      o.onQueue q = { q.addPending task with enqueueCount := q.enqueueCount + 1 } := by
  obtain ⟨t, text, metadata, contextId, createdAt, rfl, h⟩ := h
  rcases enqueue_cases q t text metadata contextId createdAt with ⟨hno, -⟩ | ⟨hmem, -, hyes⟩
  · rw [hno] at h
    cases h
  · rw [hyes] at h
    obtain rfl := Option.some.inj h
    exact ⟨hmem, rfl, by rw [Op.onQueue, hyes]⟩

/-- The fields of a task that is accepted. -/
theorem Op.Accepts.cell (h : o.Accepts q task) : (o.onQueue q).cells task.ref = Cell.new := by
  rw [h.spec.2.2]
  exact Function.update_self ..

/-- An `enqueue` that refuses changes nothing. -/
theorem enqueue_refuses {text : String} {metadata contextId : Json} {createdAt : Time}
    (h : (q.enqueue t text metadata contextId createdAt).1 = none) :
    (q.enqueue t text metadata contextId createdAt).2 = q := by
  rcases enqueue_cases q t text metadata contextId createdAt with ⟨hno, -⟩ | ⟨-, -, hyes⟩
  · rw [hno]
  · rw [hyes] at h
    cases h

/-- An `enqueue` accepts or changes nothing. -/
theorem enqueue_accepts_or (text : String) (metadata contextId : Json) (createdAt : Time) :
    (∃ task, (Op.enqueue t text metadata contextId createdAt).Accepts q task) ∨
      (Op.enqueue t text metadata contextId createdAt).onQueue q = q := by
  cases h : (q.enqueue t text metadata contextId createdAt).1 with
  | none => exact Or.inr (enqueue_refuses h)
  | some task => exact Or.inl ⟨task, t, text, metadata, contextId, createdAt, rfl, h⟩

/-! ### Objects -/

/-- Objects are only ever added, by an accepting `enqueue`. -/
theorem objects_onQueue (o : Op) (q : TaskQueue) :
    (o.onQueue q).objects = q.objects ∨
      ∃ task, o.Accepts q task ∧ (o.onQueue q).objects = q.objects ++ [task] := by
  cases o with
  | enqueue t text metadata contextId createdAt =>
      rcases enqueue_accepts_or (t := t) (q := q) text metadata contextId createdAt with
        ⟨task, h⟩ | h
      · exact Or.inr ⟨task, h, by rw [h.spec.2.2]; rfl⟩
      · exact Or.inl (by rw [h])
  | _ => exact Or.inl (by simp [Op.onQueue, modifyCell])

theorem mem_objects_onQueue (o : Op) (h : task ∈ q.objects) : task ∈ (o.onQueue q).objects := by
  rcases objects_onQueue o q with heq | ⟨new, -, heq⟩
  · rw [heq]; exact h
  · rw [heq]; exact List.mem_append_left _ h

/-! ### Pending tasks -/

/-- **Where a pending task comes from.** -/
theorem pending_arrives (h : (o.onQueue q).pending.get? t = some task) :
    q.pending.get? t = some task ∨
      (t ∉ q.pending ∧ task.taskId = t ∧
        (o.Accepts q task ∨ ∃ tasks, o = .requeueTasks tasks ∧ task ∈ tasks)) := by
  cases o with
  | enqueue t' text metadata contextId createdAt =>
      rcases enqueue_accepts_or (t := t') (q := q) text metadata contextId createdAt with
        ⟨new, hacc⟩ | hno
      · obtain ⟨hnot, -, hq⟩ := hacc.spec
        rw [hq] at h
        change (q.pending.set new.taskId new).get? t = some task at h
        rw [OrderedDict.get?_set] at h
        split_ifs at h with ht
        · obtain rfl := Option.some.inj h
          exact Or.inr ⟨ht ▸ hnot, ht.symm, Or.inl hacc⟩
        · exact Or.inl h
      · rw [hno] at h
        exact Or.inl h
  | requeueTasks tasks =>
      rcases requeueTasks_pending h with h | ⟨hmem, ht, hnot⟩
      · exact Or.inl h
      · exact Or.inr ⟨hnot, ht.symm, Or.inr ⟨tasks, rfl, hmem⟩⟩
  | complete t' response =>
      have h' := (complete_pending t' response q t).symm.trans h
      split_ifs at h'
      exact Or.inl h'
  | cancel t' =>
      have h' := (cancel_pending t' q t).symm.trans h
      split_ifs at h'
      exact Or.inl h'
  | _ => exact Or.inl (by simpa [Op.onQueue, modifyCell] using h)

/-- **How a pending task goes.** -/
theorem pending_leaves (o : Op) (h : q.pending.get? t = some task) :
    (o.onQueue q).pending.get? t = some task ∨ o.Takes q t task := by
  cases o with
  | enqueue t' text metadata contextId createdAt =>
      rcases enqueue_accepts_or (t := t') (q := q) text metadata contextId createdAt with
        ⟨new, hacc⟩ | hno
      · obtain ⟨hnot, -, hq⟩ := hacc.spec
        refine Or.inl ?_
        rw [hq]
        show (q.pending.set new.taskId new).get? t = some task
        rw [OrderedDict.get?_set_of_ne]
        · exact h
        · rintro rfl
          exact hnot (OrderedDict.mem_of_get? h)
      · rw [hno]
        exact Or.inl h
  | requeueTasks tasks => exact Or.inl (requeueTasks_of_pending h)
  | complete t' response =>
      by_cases ht : t = t'
      · subst ht
        exact Or.inr ⟨h, Or.inl ⟨response, rfl⟩⟩
      · refine Or.inl ((complete_pending t' response q t).trans ?_)
        rw [if_neg ht]
        exact h
  | cancel t' =>
      by_cases ht : t = t'
      · subst ht
        exact Or.inr ⟨h, Or.inr rfl⟩
      · refine Or.inl ((cancel_pending t' q t).trans ?_)
        rw [if_neg ht]
        exact h
  | _ => exact Or.inl (by simpa [Op.onQueue, modifyCell] using h)

/-- What is taken out is gone. -/
theorem Op.Takes.not_pending (h : o.Takes q t task) : t ∉ (o.onQueue q).pending := by
  rw [← OrderedDict.get?_eq_none_iff]
  rcases h.2 with ⟨response, rfl⟩ | rfl
  · exact (complete_pending t response q t).trans (if_pos rfl)
  · exact (cancel_pending t q t).trans (if_pos rfl)

/-! ### Recorded states -/

/-- **The four ways a recorded state changes.** -/
theorem states_onQueue (o : Op) (q : TaskQueue) (t : TaskId) :
    (o.onQueue q).states.get? t = q.states.get? t ∨
      (∃ task, o.Accepts q task ∧ task.taskId = t ∧
        (o.onQueue q).states.get? t = some .submitted) ∨
      (∃ s, o = .transition t s ∧ s ∈ ((q.states.get? t).getD .submitted).transitions ∧
        (o.onQueue q).states.get? t = some s) ∨
      (t ∈ q.pending ∧ (∃ response, o = .complete t response) ∧
        (o.onQueue q).states.get? t = some .completed) ∨
      (t ∈ q.pending ∧ o = .cancel t ∧ (o.onQueue q).states.get? t = some .canceled) := by
  cases o with
  | enqueue t' text metadata contextId createdAt =>
      rcases enqueue_accepts_or (t := t') (q := q) text metadata contextId createdAt with
        ⟨new, hacc⟩ | hno
      · obtain ⟨-, -, hq⟩ := hacc.spec
        have hstates : ((Op.enqueue t' text metadata contextId createdAt).onQueue q).states.get? t =
            if t = new.taskId then some .submitted else q.states.get? t := by
          rw [hq]
          exact OrderedDict.get?_set ..
        by_cases ht : t = new.taskId
        · exact Or.inr (Or.inl ⟨new, hacc, ht.symm, hstates.trans (if_pos ht)⟩)
        · exact Or.inl (hstates.trans (if_neg ht))
      · exact Or.inl (by rw [hno])
  | transition t' s =>
      have hstates := transition_states t' s q t
      by_cases h : t = t' ∧ s ∈ ((q.states.get? t').getD .submitted).transitions
      · obtain ⟨rfl, hs⟩ := h
        exact Or.inr (Or.inr (Or.inl ⟨s, rfl, hs, hstates.trans (if_pos ⟨rfl, hs⟩)⟩))
      · exact Or.inl (hstates.trans (if_neg h))
  | complete t' response =>
      have hstates := complete_states t' response q t
      by_cases h : t = t' ∧ t' ∈ q.pending
      · obtain ⟨rfl, hp⟩ := h
        exact Or.inr (Or.inr (Or.inr (Or.inl ⟨hp, ⟨response, rfl⟩,
          hstates.trans (if_pos ⟨rfl, hp⟩)⟩)))
      · exact Or.inl (hstates.trans (if_neg h))
  | cancel t' =>
      have hstates := cancel_states t' q t
      by_cases h : t = t' ∧ t' ∈ q.pending
      · obtain ⟨rfl, hp⟩ := h
        exact Or.inr (Or.inr (Or.inr (Or.inr ⟨hp, rfl, hstates.trans (if_pos ⟨rfl, hp⟩)⟩)))
      · exact Or.inl (hstates.trans (if_neg h))
  | _ => exact Or.inl (by simp [Op.onQueue, modifyCell])

/-- A state once recorded stays recorded. -/
theorem mem_states_onQueue (o : Op) (h : t ∈ q.states) : t ∈ (o.onQueue q).states := by
  rcases states_onQueue o q t with heq | ⟨_, _, _, heq⟩ | ⟨_, _, _, heq⟩ | ⟨_, _, heq⟩ |
    ⟨_, _, heq⟩
  · obtain ⟨s, hs⟩ := OrderedDict.mem_iff_exists.mp h
    exact OrderedDict.mem_of_get? (heq.trans hs)
  all_goals exact OrderedDict.mem_of_get? heq

/-! ### Mutable fields -/

/-- **The writers of an object's mutable fields.** -/
theorem cells_onQueue (o : Op) (q : TaskQueue) (ref : ℕ) :
    (o.onQueue q).cells ref = q.cells ref ∨
      (∃ task, o.Accepts q task ∧ task.ref = ref ∧ (o.onQueue q).cells ref = Cell.new) ∨
      (∃ t task response, o = .complete t response ∧ q.pending.get? t = some task ∧
        task.ref = ref ∧ (o.onQueue q).cells ref = completeCell response (q.cells ref)) ∨
      (∃ t task, o = .cancel t ∧ q.pending.get? t = some task ∧ task.ref = ref ∧
        (o.onQueue q).cells ref = (q.cells ref).answer "(canceled)") ∨
      (∃ task response, o = .writeResponse task response ∧ task.ref = ref ∧
        (o.onQueue q).cells ref = (q.cells ref).write response) ∨
      (∃ task, o = .setReady task ∧ task.ref = ref ∧
        (o.onQueue q).cells ref = (q.cells ref).setReady) ∨
      (∃ task, o = .setReturned task ∧ task.ref = ref ∧
        (o.onQueue q).cells ref = (q.cells ref).setReturned) := by
  cases o with
  | enqueue t text metadata contextId createdAt =>
      rcases enqueue_accepts_or (t := t) (q := q) text metadata contextId createdAt with
        ⟨new, hacc⟩ | hno
      · obtain ⟨-, -, hq⟩ := hacc.spec
        by_cases hr : new.ref = ref
        · refine Or.inr (Or.inl ⟨new, hacc, hr, ?_⟩)
          rw [hq]
          subst hr
          exact Function.update_self ..
        · refine Or.inl ?_
          rw [hq]
          exact Function.update_of_ne (Ne.symm hr) ..
      · exact Or.inl (by rw [hno])
  | complete t response =>
      have hcells := complete_cells t response q ref
      cases hp : q.pending.get? t with
      | none => exact Or.inl (hcells.trans (by simp [hp]))
      | some task =>
          by_cases hr : task.ref = ref
          · exact Or.inr (Or.inr (Or.inl ⟨t, task, response, rfl, hp, hr,
              hcells.trans (by simp [hp, hr])⟩))
          · exact Or.inl (hcells.trans (by simp [hp, hr]))
  | cancel t =>
      have hcells := cancel_cells t q ref
      cases hp : q.pending.get? t with
      | none => exact Or.inl (hcells.trans (by simp [hp]))
      | some task =>
          by_cases hr : task.ref = ref
          · exact Or.inr (Or.inr (Or.inr (Or.inl ⟨t, task, rfl, hp, hr,
              hcells.trans (by simp [hp, hr])⟩)))
          · exact Or.inl (hcells.trans (by simp [hp, hr]))
  | writeResponse task response =>
      by_cases hr : task.ref = ref
      · exact Or.inr (Or.inr (Or.inr (Or.inr (Or.inl ⟨task, response, rfl, hr,
          (modifyCell_cells ..).trans (if_pos hr)⟩))))
      · exact Or.inl ((modifyCell_cells ..).trans (if_neg hr))
  | setReady task =>
      by_cases hr : task.ref = ref
      · exact Or.inr (Or.inr (Or.inr (Or.inr (Or.inr (Or.inl ⟨task, rfl, hr,
          (modifyCell_cells ..).trans (if_pos hr)⟩)))))
      · exact Or.inl ((modifyCell_cells ..).trans (if_neg hr))
  | setReturned task =>
      by_cases hr : task.ref = ref
      · exact Or.inr (Or.inr (Or.inr (Or.inr (Or.inr (Or.inr ⟨task, rfl, hr,
          (modifyCell_cells ..).trans (if_pos hr)⟩)))))
      · exact Or.inl ((modifyCell_cells ..).trans (if_neg hr))
  | _ => exact Or.inl (by simp [Op.onQueue])

/-! ### Claims and the completed cache -/

theorem processing_onQueue (h : t ∈ (o.onQueue q).processing) :
    (t ∈ q.processing ∧ ¬ ∃ task, o.Takes q t task) ∨ (o = .markProcessing t ∧ t ∈ q.pending) := by
  cases o with
  | enqueue t' text metadata contextId createdAt =>
      have hno : ¬ ∃ task, (Op.enqueue t' text metadata contextId createdAt).Takes q t task := by
        rintro ⟨_, _, ⟨_, h⟩ | h⟩ <;> cases h
      rcases enqueue_accepts_or (t := t') (q := q) text metadata contextId createdAt with
        ⟨new, hacc⟩ | heq
      · rw [hacc.spec.2.2] at h
        exact Or.inl ⟨h, hno⟩
      · rw [heq] at h
        exact Or.inl ⟨h, hno⟩
  | markProcessing t' =>
      rcases mem_markProcessing.mp h with h | ⟨rfl, hp⟩
      · exact Or.inl ⟨h, by rintro ⟨_, _, ⟨_, h⟩ | h⟩ <;> cases h⟩
      · exact Or.inr ⟨rfl, hp⟩
  | complete t' response =>
      change t ∈ (q.complete t' response).2.processing at h
      rw [complete_processing, List.mem_filter] at h
      refine Or.inl ⟨h.1, ?_⟩
      rintro ⟨_, _, ⟨_, heq⟩ | heq⟩ <;> cases heq
      simp at h
  | cancel t' =>
      change t ∈ (q.cancel t').2.processing at h
      rw [cancel_processing, List.mem_filter] at h
      refine Or.inl ⟨h.1, ?_⟩
      rintro ⟨_, _, ⟨_, heq⟩ | heq⟩ <;> cases heq
      simp at h
  | _ =>
      exact Or.inl ⟨by simpa [Op.onQueue, modifyCell] using h,
        by rintro ⟨_, _, ⟨_, h⟩ | h⟩ <;> cases h⟩

/-- **How a claim goes.** -/
theorem processing_leaves (o : Op) (h : t ∈ q.processing) :
    t ∈ (o.onQueue q).processing ∨ (∃ response, o = .complete t response) ∨ o = .cancel t := by
  cases o with
  | enqueue t' text metadata contextId createdAt =>
      refine Or.inl ?_
      rcases enqueue_accepts_or (t := t') (q := q) text metadata contextId createdAt with
        ⟨new, hacc⟩ | heq
      · rw [hacc.spec.2.2]
        exact h
      · rw [heq]
        exact h
  | markProcessing t' => exact Or.inl (mem_markProcessing.mpr (Or.inl h))
  | complete t' response =>
      by_cases ht : t = t'
      · subst ht
        exact Or.inr (Or.inl ⟨response, rfl⟩)
      · refine Or.inl ?_
        show t ∈ (q.complete t' response).2.processing
        rw [complete_processing]
        exact List.mem_filter.mpr ⟨h, by simpa using ht⟩
  | cancel t' =>
      by_cases ht : t = t'
      · subst ht
        exact Or.inr (Or.inr rfl)
      · refine Or.inl ?_
        show t ∈ (q.cancel t').2.processing
        rw [cancel_processing]
        exact List.mem_filter.mpr ⟨h, by simpa using ht⟩
  | _ => exact Or.inl (by simpa [Op.onQueue, modifyCell] using h)

theorem completed_onQueue (h : (o.onQueue q).completed.get? t = some task) :
    q.completed.get? t = some task ∨ o.Takes q t task := by
  cases o with
  | enqueue t' text metadata contextId createdAt =>
      rcases enqueue_accepts_or (t := t') (q := q) text metadata contextId createdAt with
        ⟨new, hacc⟩ | heq
      · rw [hacc.spec.2.2] at h
        exact Or.inl h
      · rw [heq] at h
        exact Or.inl h
  | complete t' response =>
      rcases complete_completed t' response q h with h | ⟨rfl, hp⟩
      · exact Or.inl h
      · exact Or.inr ⟨hp, Or.inl ⟨response, rfl⟩⟩
  | cancel t' =>
      rcases cancel_completed t' q h with h | ⟨rfl, hp⟩
      · exact Or.inl h
      · exact Or.inr ⟨hp, Or.inr rfl⟩
  | _ => exact Or.inl (by simpa [Op.onQueue, modifyCell] using h)

end OnQueue

/-! ## The invariant of the queue -/

/-- **The queue's own invariant.** -/
structure TaskQueue.WF (q : TaskQueue) : Prop where
  ref_lt : ∀ task ∈ q.objects, task.ref < q.objects.length
  ref_inj : ∀ task ∈ q.objects, ∀ task' ∈ q.objects, task.ref = task'.ref → task = task'
  pending : ∀ {t task}, q.pending.get? t = some task → task.taskId = t ∧ task ∈ q.objects
  completed : ∀ {t task}, q.completed.get? t = some task → task.taskId = t ∧ task ∈ q.objects
  processing : ∀ t ∈ q.processing, t ∈ q.pending
  recorded : ∀ task ∈ q.objects, task.taskId ∈ q.states

theorem TaskQueue.WF.empty : TaskQueue.empty.WF where
  ref_lt := fun _ h => absurd h List.not_mem_nil
  ref_inj := fun _ h => absurd h List.not_mem_nil
  pending := fun h => by cases h
  completed := fun h => by cases h
  processing := fun _ h => absurd h List.not_mem_nil
  recorded := fun _ h => absurd h List.not_mem_nil

/-- **Every step keeps the invariant**, provided tasks are requeued that once were
enqueued. -/
theorem TaskQueue.WF.onQueue {q : TaskQueue} (hq : q.WF) {o : Op}
    (hrequeue : ∀ tasks, o = .requeueTasks tasks → ∀ task ∈ tasks, task ∈ q.objects) :
    (o.onQueue q).WF := by
  have hnew : ∀ {task}, o.Accepts q task → task ∈ (o.onQueue q).objects := by
    intro task h
    rw [h.spec.2.2]
    exact List.mem_append_right _ (List.mem_singleton.mpr rfl)
  have hpending : ∀ {t task}, (o.onQueue q).pending.get? t = some task →
      task.taskId = t ∧ task ∈ (o.onQueue q).objects := by
    intro t task h
    rcases pending_arrives h with h | ⟨-, ht, hacc | ⟨tasks, ho, hmem⟩⟩
    · exact ⟨(hq.pending h).1, mem_objects_onQueue o (hq.pending h).2⟩
    · exact ⟨ht, hnew hacc⟩
    · exact ⟨ht, mem_objects_onQueue o (hrequeue tasks ho task hmem)⟩
  refine ⟨?_, ?_, hpending, ?_, ?_, ?_⟩
  · intro task h
    rcases objects_onQueue o q with heq | ⟨new, hacc, heq⟩
    · rw [heq] at h ⊢
      exact hq.ref_lt task h
    · rw [heq, List.length_append, List.length_singleton]
      rw [heq] at h
      rcases List.mem_append.mp h with h | h
      · exact Nat.lt_succ_of_lt (hq.ref_lt task h)
      · obtain rfl := List.mem_singleton.mp h
        rw [hacc.spec.2.1]
        exact Nat.lt_succ_self _
  · intro task h task' h' href
    rcases objects_onQueue o q with heq | ⟨new, hacc, heq⟩
    · rw [heq] at h h'
      exact hq.ref_inj task h task' h' href
    · rw [heq] at h h'
      have hlt : ∀ old ∈ q.objects, old.ref ≠ new.ref := fun old hold heq =>
        absurd (hq.ref_lt old hold) (by rw [heq, hacc.spec.2.1]; exact Nat.lt_irrefl _)
      rcases List.mem_append.mp h with hin | hin <;> rcases List.mem_append.mp h' with hin' | hin'
      · exact hq.ref_inj task hin task' hin' href
      · exact absurd (List.mem_singleton.mp hin' ▸ href) (hlt task hin)
      · exact absurd (List.mem_singleton.mp hin ▸ href).symm (hlt task' hin')
      · exact (List.mem_singleton.mp hin).trans (List.mem_singleton.mp hin').symm
  · intro t task h
    rcases completed_onQueue h with h | h
    · exact ⟨(hq.completed h).1, mem_objects_onQueue o (hq.completed h).2⟩
    · exact ⟨(hq.pending h.1).1, mem_objects_onQueue o (hq.pending h.1).2⟩
  · intro t h
    rcases processing_onQueue h with ⟨h, hno⟩ | ⟨rfl, hp⟩
    · obtain ⟨task, hp⟩ := OrderedDict.mem_iff_exists.mp (hq.processing t h)
      rcases pending_leaves o hp with hp | htakes
      · exact OrderedDict.mem_of_get? hp
      · exact absurd ⟨task, htakes⟩ hno
    · show t ∈ (q.markProcessing t).pending
      rw [markProcessing_pending]
      exact hp
  · intro task h
    rcases objects_onQueue o q with heq | ⟨new, hacc, heq⟩
    · rw [heq] at h
      exact mem_states_onQueue o (hq.recorded task h)
    · rw [heq] at h
      rcases List.mem_append.mp h with h | h
      · exact mem_states_onQueue o (hq.recorded task h)
      · obtain rfl := List.mem_singleton.mp h
        rw [hacc.spec.2.2]
        exact OrderedDict.mem_set_iff.mpr (Or.inl rfl)

/-! ### What `get_status` reports -/

/-- **`get_status` never reports a response.**  Its last branch, the only one
that carries one, is for a completed task without recorded state, and there is
none. -/
theorem TaskQueue.WF.getStatus {q : TaskQueue} (hq : q.WF) {t : TaskId}
    (hhash : t.hashable = true) :
    ∃ state, q.getStatus t = .ok ⟨state, none⟩ ∧ (t ∈ q.states → state.isSome = true) := by
  unfold TaskQueue.getStatus
  rw [if_pos hhash]
  split_ifs with hpending
  · exact ⟨_, rfl, fun _ => rfl⟩
  split
  · rename_i task hcompleted
    split_ifs with hcanceled
    · exact ⟨_, rfl, fun _ => rfl⟩
    split
    · exact ⟨_, rfl, fun _ => rfl⟩
    · rename_i hstates
      -- a completed task has a recorded state
      obtain ⟨rfl, hmem⟩ := hq.completed hcompleted
      exact absurd (hq.recorded task hmem) (OrderedDict.get?_eq_none_iff.mp hstates)
  · refine ⟨_, rfl, fun hmem => ?_⟩
    obtain ⟨state, hstate⟩ := OrderedDict.mem_iff_exists.mp hmem
    rw [hstate]
    rfl

theorem TaskQueue.WF.getStatus_response {q : TaskQueue} (hq : q.WF) {t : TaskId} {status : Status}
    (h : q.getStatus t = .ok status) : status.response = none := by
  by_cases hhash : t.hashable = true
  · obtain ⟨state, heq, -⟩ := hq.getStatus hhash
    obtain rfl := Except.ok.inj (heq.symm.trans h)
    rfl
  · unfold TaskQueue.getStatus at h
    rw [if_neg hhash] at h
    cases h

end HermesA2A
