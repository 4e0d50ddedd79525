import HermesA2A.QueueCaps

/-!
# The task metrics

`enqueue`, `complete` and `cancel` report to `A2AMetrics` after they have released the
queue's lock.  `enqueue` reports a task it has accepted.  The other two report what
they were asked for, whether there was a task to take out or not: the counters of the
queue itself, a few lines above, are inside the condition.

* `QueueCall.Counted` — the operation does what it reports.
* `balanced_on_iff` — from balanced metrics, an operation leaves them balanced exactly
  when it is counted.
* `balanced_iff` — so does a run.
-/

namespace HermesA2A

open TaskQueue

/-- `A2AMetrics`, with what the queue reports. -/
structure A2AMetrics where
  tasksReceived : ℕ
  tasksCompleted : ℕ
  tasksCanceled : ℕ

namespace A2AMetrics

/-- `record_task_received` -/
def recordTaskReceived (m : A2AMetrics) : A2AMetrics :=
  { m with tasksReceived := m.tasksReceived + 1 }

/-- `record_task_completed` -/
def recordTaskCompleted (m : A2AMetrics) : A2AMetrics :=
  { m with tasksCompleted := m.tasksCompleted + 1 }

/-- `record_task_canceled` -/
def recordTaskCanceled (m : A2AMetrics) : A2AMetrics :=
  { m with tasksCanceled := m.tasksCanceled + 1 }

end A2AMetrics

/-- The queue, and the metrics it reports to. -/
structure MeteredQueue where
  queue : TaskQueue
  metrics : A2AMetrics

namespace MeteredQueue

/-- A process that has just started. -/
def new : MeteredQueue := ⟨.empty, ⟨0, 0, 0⟩⟩

/-- **The metrics add up.** -/
def Balanced (s : MeteredQueue) : Prop :=
  s.metrics.tasksReceived =
    s.metrics.tasksCompleted + s.metrics.tasksCanceled + s.queue.pending.length

end MeteredQueue

namespace QueueCall

/-- What an operation reports. -/
def report (caps : Caps) : QueueCall → TaskQueue → A2AMetrics → A2AMetrics
  | enqueue t text metadata contextId createdAt, q, m =>
      if (q.enqueueWithin caps t text metadata contextId createdAt).1.isSome then
        m.recordTaskReceived
      else m
  | complete _ _, _, m => m.recordTaskCompleted
  | cancel _, _, m => m.recordTaskCanceled
  | _, _, m => m

/-- What an operation does to the queue and to the metrics. -/
def metered (caps : Caps) (o : QueueCall) (s : MeteredQueue) : MeteredQueue :=
  ⟨o.on caps s.queue, o.report caps s.queue s.metrics⟩

/-- The operation does what it reports: there is a task to complete or to cancel, an
accepted task drives out no other, and nothing is put back. -/
def Counted (caps : Caps) : QueueCall → TaskQueue → Prop
  | enqueue t _ _ _ _, q =>
      t ∉ q.pending → q.pending.length < caps.maxPending → q.evictees caps t = []
  | requeueTasks tasks, q => q.returning tasks = ∅
  | complete t _, q => t ∈ q.pending
  | cancel t, q => t ∈ q.pending
  | _, _ => True

end QueueCall

/-! ### One step -/

section Step

variable {caps : Caps} {q q' : TaskQueue} {t : TaskId} {task : PendingTask}

/-- An accepted task comes on top, unless it drives out another. -/
theorem TaskQueue.Enqueued.length_eq_iff (h : Enqueued caps t task q q') :
    q'.pending.length = q.pending.length + 1 ↔ q.evictees caps t = [] := by
  have hlen : (q.pending.entries ++ [(t, task)]).length = q.pending.length + 1 :=
    List.length_append
  have hfilter : q'.pending.length =
      ((q.pending.entries ++ [(t, task)]).filter fun e => e.1 ∉ q.evictees caps t).length :=
    congrArg List.length h.entries
  rw [hfilter, ← hlen, List.length_filter_eq_length_iff]
  constructor
  · intro hall
    rw [List.eq_nil_iff_forall_not_mem]
    intro k hk
    have hkey : k ∈ q.pending.keys ++ [t] :=
      (List.mem_filter.mp (List.mem_of_mem_take hk)).1
    obtain ⟨e, he, rfl⟩ : ∃ e ∈ q.pending.entries ++ [(t, task)], e.1 = k := by
      rcases List.mem_append.mp hkey with hkey | hkey
      · obtain ⟨e, he, rfl⟩ := List.mem_map.mp hkey
        exact ⟨e, List.mem_append_left _ he, rfl⟩
      · exact ⟨(t, task), by simp, (List.mem_singleton.mp hkey).symm⟩
    exact of_decide_eq_true (hall e he) hk
  · intro hnil e _
    rw [hnil]
    exact decide_eq_true List.not_mem_nil

/-- Taking a task out makes the pending ones one less, if it was there. -/
theorem length_erase_iff (pending : OrderedDict TaskId PendingTask) (t : TaskId) :
    (pending.erase t).length + 1 = pending.length ↔ t ∈ pending := by
  by_cases hmem : t ∈ pending
  · exact iff_of_true (OrderedDict.length_erase_of_mem hmem) hmem
  · rw [OrderedDict.erase_of_notMem hmem]
    exact iff_of_false (Nat.succ_ne_self _) hmem

/-- An operation that reports nothing and leaves the pending tasks alone. -/
theorem balanced_same {s : MeteredQueue} {q' : TaskQueue} (hs : s.Balanced)
    (h : q'.pending = s.queue.pending) : (⟨q', s.metrics⟩ : MeteredQueue).Balanced := by
  show s.metrics.tasksReceived = _ + q'.pending.length
  rw [h]
  exact hs

end Step

/-- **One step**: balanced metrics stay balanced exactly when the operation does what
it reports. -/
theorem balanced_on_iff {caps : Caps} (o : QueueCall) {s : MeteredQueue} (hs : s.Balanced) :
    (o.metered caps s).Balanced ↔ o.Counted caps s.queue := by
  have hs' : s.metrics.tasksReceived =
      s.metrics.tasksCompleted + s.metrics.tasksCanceled + s.queue.pending.length := hs
  cases o with
  | enqueue t text metadata contextId createdAt =>
      show (MeteredQueue.mk (s.queue.enqueueWithin caps t text metadata contextId createdAt).2
        (if (s.queue.enqueueWithin caps t text metadata contextId createdAt).1.isSome then
          s.metrics.recordTaskReceived else s.metrics)).Balanced ↔ (_ → _ → _)
      rcases s.queue.enqueued_of_enqueueWithin caps t text metadata contextId createdAt with
        ⟨hno, hwhy⟩ | ⟨hmem, hlt, q', hyes, h⟩
      · rw [hno]
        refine iff_of_true hs fun hmem hlt => ?_
        exact absurd hwhy (not_or.mpr ⟨Nat.not_le.mpr hlt, hmem⟩)
      · rw [hyes]
        have hlen := h.length_eq_iff
        show s.metrics.tasksReceived + 1 =
          s.metrics.tasksCompleted + s.metrics.tasksCanceled + q'.pending.length ↔ _
        constructor
        · exact fun hbal _ _ => hlen.mp (by omega)
        · intro hnil
          have := hlen.mpr (hnil hmem hlt)
          omega
  | requeueTasks tasks =>
      show s.metrics.tasksReceived = s.metrics.tasksCompleted + s.metrics.tasksCanceled +
        (s.queue.requeueTasks tasks).pending.length ↔ s.queue.returning tasks = ∅
      rw [length_requeueTasks, ← Finset.card_eq_zero]
      omega
  -- the report is made in any case, so a task has to go
  | complete t response =>
      have hlen := length_erase_iff s.queue.pending t
      show s.metrics.tasksReceived = s.metrics.tasksCompleted + 1 + s.metrics.tasksCanceled +
        (s.queue.completeWithin caps t response).2.pending.length ↔ t ∈ s.queue.pending
      rw [completeWithin_pending, ← hlen]
      omega
  | cancel t =>
      have hlen := length_erase_iff s.queue.pending t
      show s.metrics.tasksReceived = s.metrics.tasksCompleted + (s.metrics.tasksCanceled + 1) +
        (s.queue.cancel t).2.pending.length ↔ t ∈ s.queue.pending
      rw [cancel_pending_eq, ← hlen]
      omega
  | markProcessing t => exact iff_of_true (balanced_same hs (markProcessing_pending ..)) trivial
  | transition t toState => exact iff_of_true (balanced_same hs (transition_pending ..)) trivial
  | setAuthRequired t => exact iff_of_true (balanced_same hs rfl) trivial
  | setAuthenticated t => exact iff_of_true (balanced_same hs rfl) trivial

/-- **The metrics add up throughout a run exactly when each operation does what it
reports.** -/
theorem balanced_iff (caps : Caps) (ops : List QueueCall) :
    Sequential.Always (QueueCall.metered caps) MeteredQueue.Balanced ops .new ↔
      Sequential.Each (QueueCall.metered caps) (fun o s => o.Counted caps s.queue) ops .new :=
  Sequential.always_iff_each (J := fun _ => True) (fun _ _ h => h)
    (fun o _ _ hs => balanced_on_iff o hs) trivial rfl

/-- **A late answer is counted**: a task that was canceled is completed as well. -/
theorem late_answer_counted :
    ¬ ∀ ops, Sequential.Always (QueueCall.metered .source) MeteredQueue.Balanced ops .new := by
  intro h
  let ops : List QueueCall :=
    [.enqueue (.str "a") "" (.obj []) .null 0, .cancel (.str "a"), .complete (.str "a") "late"]
  have hlast : (Sequential.run (QueueCall.metered .source) ops .new).Balanced :=
    Sequential.always_iff.mp (h ops) ops [] (List.append_nil _).symm
  -- one task received, one completed, one canceled
  have hsum : (1 : ℕ) = 1 + 1 + 0 := hlast
  exact absurd hsum (by decide)

end HermesA2A
