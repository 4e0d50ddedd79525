import HermesA2A.Lib.Sequential
import HermesA2A.QueueSteps
import HermesA2A.Server.Http

/-!
# Runs of the queue

The queue alone, under any caps: sequences of its operations on any arguments,
also those no caller makes (a `requeue_tasks` of tasks that were never enqueued,
a `transition` of an id nobody has seen).

* `TaskQueue.evictOverflow_spec` — the eviction loop in closed form: it drops the
  oldest tasks nobody is processing, as many as the cache is too long by.
* `QueueCall.on` — the operations, and `afterCalls` the queue after a sequence of them.
* `TaskQueue.Represented` — what the counters, the claims and the keys represent;
  `Represented.on` is the step lemma, `represented_run` the invariant over all runs.
* `represented_reaches` — the same for the queue of the running server.
-/

namespace HermesA2A

namespace TaskQueue

/-! ### The eviction loop -/

section Evict

variable (q : TaskQueue) (t : TaskId) (task : PendingTask)

@[simp] theorem refreshOldest_enqueueCount :
    (q.refreshOldest task).enqueueCount = q.enqueueCount := by unfold refreshOldest; split <;> rfl

@[simp] theorem refreshOldest_completeCount :
    (q.refreshOldest task).completeCount = q.completeCount := by unfold refreshOldest; split <;> rfl

@[simp] theorem refreshOldest_cancelCount :
    (q.refreshOldest task).cancelCount = q.cancelCount := by unfold refreshOldest; split <;> rfl

@[simp] theorem evict_pending : (q.evict t task).pending = q.pending.erase t := by
  simp [evict, modifyCell]

@[simp] theorem evict_completed : (q.evict t task).completed = q.completed := by
  simp [evict, modifyCell]

@[simp] theorem evict_processing : (q.evict t task).processing = q.processing := by
  simp [evict, modifyCell]

@[simp] theorem evict_states : (q.evict t task).states = q.states := by simp [evict, modifyCell]

@[simp] theorem evict_enqueueCount : (q.evict t task).enqueueCount = q.enqueueCount := by
  simp [evict, modifyCell]

@[simp] theorem evict_completeCount : (q.evict t task).completeCount = q.completeCount := by
  simp [evict, modifyCell]

@[simp] theorem evict_cancelCount : (q.evict t task).cancelCount = q.cancelCount := by
  simp [evict, modifyCell]

/-- The pending ids nobody is processing, oldest first. -/
def unclaimed : List TaskId := q.pending.keys.filter (· ∉ q.processing)

variable {q t task}

/-- One turn of the loop drops the first unclaimed task. -/
theorem evictOne_cases (q : TaskQueue) :
    (q.unclaimed = [] ∧ q.evictOne = none) ∨
      ∃ t task rest, q.unclaimed = t :: rest ∧ q.pending.get? t = some task ∧
        q.evictOne = some (q.evict t task) := by
  unfold evictOne unclaimed OrderedDict.keys
  cases hfind : q.pending.entries.find? fun e => e.1 ∉ q.processing with
  | none =>
      refine Or.inl ⟨?_, rfl⟩
      rw [List.filter_eq_nil_iff]
      intro t ht
      obtain ⟨e, he, rfl⟩ := List.mem_map.mp ht
      exact List.find?_eq_none.mp hfind e he
  | some e =>
      obtain ⟨he, before, after, hentries, hbefore⟩ := List.find?_eq_some_iff_append.mp hfind
      have hclaimed : (before.map Prod.fst).filter (· ∉ q.processing) = [] := by
        rw [List.filter_eq_nil_iff]
        intro t ht
        obtain ⟨b, hb, rfl⟩ := List.mem_map.mp ht
        simpa using hbefore b hb
      refine Or.inr ⟨e.1, e.2, (after.map Prod.fst).filter (· ∉ q.processing), ?_, ?_, rfl⟩
      · rw [hentries, List.map_append, List.filter_append, hclaimed, List.map_cons,
          List.filter_cons_of_pos (p := fun t => decide (t ∉ q.processing)) he, List.nil_append]
      · rw [OrderedDict.get?_eq_some_iff, hentries]
        exact List.mem_append_right _ List.mem_cons_self

theorem unclaimed_evict {rest : List TaskId} (h : q.unclaimed = t :: rest) :
    (q.evict t task).unclaimed = rest := by
  have hnodup : (t :: rest).Nodup :=
    h ▸ (show q.pending.keys.Nodup from q.pending.nodup_keys).filter _
  have hne : rest.filter (· ≠ t) = rest := by
    rw [List.filter_eq_self]
    intro a ha
    exact decide_eq_true fun heq => (List.nodup_cons.mp hnodup).1 (heq ▸ ha)
  calc (q.evict t task).unclaimed
      = (q.pending.keys.filter (· ≠ t)).filter (· ∉ q.processing) := by
        rw [unclaimed, evict_pending, evict_processing, OrderedDict.keys_erase]
    _ = q.unclaimed.filter (· ≠ t) := by
        rw [unclaimed, List.filter_filter, List.filter_filter]
        exact List.filter_congr fun a _ => Bool.and_comm ..
    _ = rest := by
        rw [h, List.filter_cons_of_neg (by simp), hne]

/-- What every eviction keeps, the loop keeps. -/
theorem evictOverflow_invariant {I : TaskQueue → Prop}
    (h : ∀ t task q, I q → q.pending.get? t = some task → I (q.evict t task)) (cap : ℕ)
    (fuel : ℕ) (n : ℤ) {q : TaskQueue} (hq : I q) : I (evictOverflow cap fuel n q).2 := by
  induction fuel generalizing n q with
  | zero => exact hq
  | succ fuel ih =>
      unfold evictOverflow
      split
      · rcases evictOne_cases q with ⟨-, hone⟩ | ⟨t, task, rest, -, hget, hone⟩
        · rw [hone]
          exact hq
        · rw [hone]
          exact ih (n + 1) (h t task q hq hget)
      · exact hq

/-- What the loop leaves alone. -/
theorem evictOverflow_keeps {α : Sort*} (f : TaskQueue → α)
    (h : ∀ t task (q : TaskQueue), f (q.evict t task) = f q) (cap fuel : ℕ) (n : ℤ)
    (q : TaskQueue) : f (evictOverflow cap fuel n q).2 = f q :=
  evictOverflow_invariant (I := fun q' => f q' = f q)
    (fun t task q' hq' _ => (h t task q').trans hq') cap fuel n rfl

/-- **The eviction loop in closed form.**  With a turn for each task by which the
cache is too long, it drops the first that many unclaimed ones. -/
theorem evictOverflow_spec {cap : ℕ} (fuel : ℕ) (n : ℤ) (q : TaskQueue)
    (hfuel : q.pending.length ≤ fuel + cap) {out : List TaskId}
    (hout : out = q.unclaimed.take (q.pending.length - cap)) :
    (evictOverflow cap fuel n q).2.pending.entries =
        q.pending.entries.filter (fun e => e.1 ∉ out) ∧
      (evictOverflow cap fuel n q).2.pending.length + (evictOverflow cap fuel n q).1 =
        q.pending.length + n := by
  have hnil : ∀ q : TaskQueue,
      q.pending.entries.filter (fun e => e.1 ∉ ([] : List TaskId)) = q.pending.entries :=
    fun q => List.filter_eq_self.mpr fun e _ => decide_eq_true List.not_mem_nil
  induction fuel generalizing n q out with
  | zero =>
      rw [show q.pending.length - cap = 0 by omega, List.take_zero] at hout
      exact ⟨by rw [hout, hnil]; rfl, rfl⟩
  | succ fuel ih =>
      unfold evictOverflow
      split_ifs with hlong
      · rcases evictOne_cases q with ⟨hnone, hone⟩ | ⟨t, task, rest, hsome, hget, hone⟩
        · rw [hnone, List.take_nil] at hout
          rw [hone]
          exact ⟨by rw [hout, hnil], rfl⟩
        · have hlen := OrderedDict.length_erase_of_mem (OrderedDict.mem_of_get? hget)
          obtain ⟨hentries, hcount⟩ := ih (n + 1) (q.evict t task)
            (by rw [evict_pending]; omega) rfl
          rw [unclaimed_evict hsome] at hentries
          rw [evict_pending] at hentries hcount
          rw [show q.pending.length - cap = ((q.pending.erase t).length - cap) + 1 by omega, hsome,
            List.take_succ_cons] at hout
          rw [hone]
          refine ⟨hentries.trans ?_, by rw [hcount]; omega⟩
          generalize (q.pending.erase t).length - cap = more at hout
          rw [hout]
          show (q.pending.entries.filter _).filter _ = _
          rw [List.filter_filter]
          exact List.filter_congr fun e _ => by simp [Bool.and_comm]
      · rw [show q.pending.length - cap = 0 by omega, List.take_zero] at hout
        exact ⟨by rw [hout, hnil], rfl⟩

end Evict

/-! ### The operations in full -/

section Enqueue

variable {caps : Caps} {q q' : TaskQueue} {t : TaskId} {task : PendingTask}

/-- The ids an `enqueue` of `t` evicts, if it is accepted. -/
def evictees (caps : Caps) (t : TaskId) (q : TaskQueue) : List TaskId :=
  ((q.pending.keys ++ [t]).filter (· ∉ q.processing)).take
    (q.pending.length + 1 - caps.taskCacheMax)

/-- What an accepting `enqueue` does. -/
structure Enqueued (caps : Caps) (t : TaskId) (task : PendingTask) (q q' : TaskQueue) : Prop where
  entries : q'.pending.entries =
    (q.pending.entries ++ [(t, task)]).filter fun e => e.1 ∉ q.evictees caps t
  depth : q'.enqueueCount + q.pending.length = q.enqueueCount + q'.pending.length
  completed : q'.completed = q.completed
  processing : q'.processing = q.processing
  states : q'.states = q.states.set t .submitted
  completeCount : q'.completeCount = q.completeCount
  cancelCount : q'.cancelCount = q.cancelCount

/-- **`enqueue` refuses, or takes the task in and evicts.** -/
theorem enqueued_of_enqueueWithin (q : TaskQueue) (caps : Caps) (t : TaskId) (text : String)
    (metadata contextId : Json) (createdAt : Time) :
    (q.enqueueWithin caps t text metadata contextId createdAt = (none, q) ∧
        (caps.maxPending ≤ q.pending.length ∨ t ∈ q.pending)) ∨
      (t ∉ q.pending ∧ q.pending.length < caps.maxPending ∧
        ∃ q', q.enqueueWithin caps t text metadata contextId createdAt =
            (some (q.newTask t text metadata contextId createdAt), q') ∧
          Enqueued caps t (q.newTask t text metadata contextId createdAt) q q') := by
  rcases enqueueWithin_cases q t text metadata contextId createdAt caps with
    hno | ⟨hmem, hlt, added, evicted, kept, hadded, hevict, hyes⟩
  · exact Or.inl hno
  refine Or.inr ⟨hmem, hlt, _, hyes, ?_⟩
  have hentries : added.pending.entries =
      q.pending.entries ++ [(t, q.newTask t text metadata contextId createdAt)] := by
    rw [hadded]
    exact OrderedDict.entries_set_of_notMem _ hmem
  have hlen : added.pending.length = q.pending.length + 1 := by
    rw [hadded]
    exact OrderedDict.length_set_of_notMem _ hmem
  have hout : q.evictees caps t =
      added.unclaimed.take (added.pending.length - caps.taskCacheMax) := by
    have hprocessing : added.processing = q.processing := by rw [hadded]; rfl
    rw [unclaimed, hlen, hprocessing, OrderedDict.keys, hentries, List.map_append]
    rfl
  have hspec := evictOverflow_spec added.pending.length 0 added (Nat.le_add_right _ _) hout
  have hkept : ∀ {α : Type} (f : TaskQueue → α), (∀ t task q, f (evict t task q) = f q) →
      f kept = f added := by
    intro α f hf
    have := evictOverflow_keeps f hf caps.taskCacheMax added.pending.length 0 added
    rwa [hevict] at this
  rw [hevict] at hspec
  have hcount := hkept enqueueCount fun t task q => evict_enqueueCount q t task
  refine ⟨?_, ?_, ?_, ?_, ?_, ?_, ?_⟩
  · exact hspec.1.trans (by rw [hentries])
  · have hdepth := hspec.2
    show kept.enqueueCount + (1 - evicted) + (q.pending.length : ℤ) = _ + (kept.pending.length : ℤ)
    rw [hcount, hadded]
    rw [hlen] at hdepth
    push_cast at hdepth
    show q.enqueueCount + (1 - evicted) + (q.pending.length : ℤ) = _
    omega
  · exact (hkept TaskQueue.completed fun t task q => evict_completed q t task).trans
      (by rw [hadded]; rfl)
  · exact (hkept TaskQueue.processing fun t task q => evict_processing q t task).trans
      (by rw [hadded]; rfl)
  · exact (hkept TaskQueue.states fun t task q => evict_states q t task).trans
      (by rw [hadded]; rfl)
  · exact (hkept TaskQueue.completeCount fun t task q => evict_completeCount q t task).trans
      (by rw [hadded]; rfl)
  · exact (hkept TaskQueue.cancelCount fun t task q => evict_cancelCount q t task).trans
      (by rw [hadded]; rfl)

theorem notMem_evictees_of_processing (h : t ∈ q.processing) (t' : TaskId) :
    t ∉ q.evictees caps t' :=
  fun hmem => of_decide_eq_true (List.mem_filter.mp (List.mem_of_mem_take hmem)).2 h

/-- A lookup after an accepting `enqueue`. -/
theorem Enqueued.get? (h : Enqueued caps t task q q') {t' : TaskId} {task' : PendingTask} :
    q'.pending.get? t' = some task' ↔
      (q.pending.get? t' = some task' ∨ (t' = t ∧ task' = task)) ∧ t' ∉ q.evictees caps t := by
  rw [OrderedDict.get?_eq_some_iff, h.entries, List.mem_filter, List.mem_append,
    OrderedDict.get?_eq_some_iff, List.mem_singleton, Prod.mk.injEq, decide_eq_true_eq]

/-- Nothing that is being processed is evicted. -/
theorem Enqueued.keeps_processing (h : Enqueued caps t task q q') {t' : TaskId}
    {task' : PendingTask} (hp : t' ∈ q.processing) (hget : q.pending.get? t' = some task') :
    q'.pending.get? t' = some task' :=
  h.get?.mpr ⟨Or.inl hget, notMem_evictees_of_processing hp t⟩

end Enqueue

section TakeOut

variable (caps : Caps) (t : TaskId) (state : TaskState) (f : Cell → Cell) (response : String)
variable (q : TaskQueue)

theorem takeOut_pending_eq : (q.takeOut t state f).2.pending = q.pending.erase t := by
  unfold takeOut
  split
  · rename_i h
    exact (OrderedDict.erase_of_notMem (OrderedDict.get?_eq_none_iff.mp h)).symm
  · simp [modifyCell]

@[simp] theorem takeOut_enqueueCount : (q.takeOut t state f).2.enqueueCount = q.enqueueCount := by
  unfold takeOut; split <;> simp [modifyCell]

@[simp] theorem takeOut_completeCount :
    (q.takeOut t state f).2.completeCount = q.completeCount := by
  unfold takeOut; split <;> simp [modifyCell]

@[simp] theorem takeOut_cancelCount : (q.takeOut t state f).2.cancelCount = q.cancelCount := by
  unfold takeOut; split <;> simp [modifyCell]

variable {t q} {task : PendingTask}

theorem takeOut_of_notMem (h : t ∉ q.pending) :
    q.takeOut t state f = (none, { q with processing := q.processing.filter (· ≠ t) }) := by
  unfold takeOut
  rw [OrderedDict.get?_eq_none_iff.mpr h]

theorem takeOut_completed_eq (h : q.pending.get? t = some task) :
    (q.takeOut t state f).2.completed = q.completed.set t task := by
  unfold takeOut
  rw [h]
  simp [modifyCell]

theorem takeOut_states_eq (h : q.pending.get? t = some task) :
    (q.takeOut t state f).2.states = q.states.set t state := by
  unfold takeOut
  rw [h]
  simp [modifyCell]

/-- `complete` of an id that is not pending. -/
theorem completeWithin_of_notMem (h : t ∉ q.pending) :
    q.completeWithin caps t response =
      (none, { q with processing := q.processing.filter (· ≠ t) }) := by
  unfold completeWithin
  rw [takeOut_of_notMem _ _ h]

/-- `complete` of a pending task. -/
theorem completeWithin_of_pending (h : q.pending.get? t = some task) :
    q.completeWithin caps t response =
      (some task, { (q.takeOut t .completed (completeCell response)).2 with
        completeCount := q.completeCount + 1
        completed := trimCompleted caps.taskCacheMax (q.completed.set t task) }) := by
  have hcell : (fun c : Cell => if c.returned then c else c.answer response) =
      completeCell response := rfl
  have hfst := (takeOut_fst t .completed (completeCell response) q).trans h
  have hcompleted := takeOut_completed_eq .completed (completeCell response) h
  have hcount := takeOut_completeCount t .completed (completeCell response) q
  unfold completeWithin
  rw [hcell]
  generalize q.takeOut t .completed (completeCell response) = out at *
  obtain ⟨task', q'⟩ := out
  obtain rfl : task' = some task := hfst
  dsimp only at hcompleted hcount ⊢
  rw [hcompleted, hcount]

theorem cancel_of_notMem (h : t ∉ q.pending) :
    q.cancel t = (none, { q with processing := q.processing.filter (· ≠ t) }) := by
  unfold cancel
  rw [takeOut_of_notMem _ _ h]

/-- `cancel` of a pending task. -/
theorem cancel_of_pending (h : q.pending.get? t = some task) :
    q.cancel t =
      (some task, { (q.takeOut t .canceled (Cell.answer "(canceled)")).2 with
        cancelCount := q.cancelCount + 1 }) := by
  unfold cancel
  have hfst := (takeOut_fst t .canceled (Cell.answer "(canceled)") q).trans h
  have hcount := takeOut_cancelCount t .canceled (Cell.answer "(canceled)") q
  generalize q.takeOut t .canceled (Cell.answer "(canceled)") = out at *
  obtain ⟨task', q'⟩ := out
  obtain rfl : task' = some task := hfst
  dsimp only at hcount ⊢
  rw [hcount]

/-- Below the cap, `complete` trims nothing. -/
theorem completeWithin_completed_of_lt (hget : q.pending.get? t = some task)
    (hlt : q.completed.length < caps.taskCacheMax) :
    (q.completeWithin caps t response).2.completed = q.completed.set t task := by
  have hle := (OrderedDict.length_set_le q.completed t task).trans hlt
  rw [completeWithin_of_pending caps response hget]
  show trimCompleted caps.taskCacheMax (q.completed.set t task) = _
  rw [trimCompleted, Nat.sub_eq_zero_of_le hle]
  rfl

theorem cancel_completed_eq (hget : q.pending.get? t = some task) :
    (q.cancel t).2.completed = q.completed.set t task := by
  rw [cancel_of_pending hget]
  exact takeOut_completed_eq _ _ hget

variable (t q)

theorem completeWithin_pending :
    (q.completeWithin caps t response).2.pending = q.pending.erase t := by
  cases hget : q.pending.get? t with
  | none =>
      have hno := OrderedDict.get?_eq_none_iff.mp hget
      rw [completeWithin_of_notMem caps response hno, OrderedDict.erase_of_notMem hno]
  | some task =>
      rw [completeWithin_of_pending caps response hget]
      exact takeOut_pending_eq ..

theorem cancel_pending_eq : (q.cancel t).2.pending = q.pending.erase t := by
  cases hget : q.pending.get? t with
  | none =>
      have hno := OrderedDict.get?_eq_none_iff.mp hget
      rw [cancel_of_notMem hno, OrderedDict.erase_of_notMem hno]
  | some task =>
      rw [cancel_of_pending hget]
      exact takeOut_pending_eq ..

end TakeOut

end TaskQueue

/-! ### Operations and runs -/

/-- An operation of the queue, with any arguments. -/
inductive QueueCall
  | enqueue (t : TaskId) (text : String) (metadata contextId : Json) (createdAt : Time)
  | requeueTasks (tasks : List PendingTask)
  | markProcessing (t : TaskId)
  | transition (t : TaskId) (toState : TaskState)
  | complete (t : TaskId) (response : String)
  | cancel (t : TaskId)
  | setAuthRequired (t : TaskId)
  | setAuthenticated (t : TaskId)

/-- What an operation does to the queue. -/
def QueueCall.on (caps : Caps) : QueueCall → TaskQueue → TaskQueue
  | enqueue t text metadata contextId createdAt, q =>
      (q.enqueueWithin caps t text metadata contextId createdAt).2
  | requeueTasks tasks, q => q.requeueTasks tasks
  | markProcessing t, q => q.markProcessing t
  | transition t toState, q => (q.transition t toState).2
  | complete t response, q => (q.completeWithin caps t response).2
  | cancel t, q => (q.cancel t).2
  | setAuthRequired t, q => q.setAuthRequired t
  | setAuthenticated t, q => q.setAuthenticated t

/-- The queue after a sequence of operations. -/
abbrev afterCalls (caps : Caps) (ops : List QueueCall) : TaskQueue :=
  Sequential.run (QueueCall.on caps) ops .empty

/-! ### What the fields represent -/

/-- **The representation invariant.** -/
structure TaskQueue.Represented (q : TaskQueue) : Prop where
  depth : q.enqueueCount - q.completeCount - q.cancelCount = q.pending.length
  processing : ∀ t ∈ q.processing, t ∈ q.pending
  pending : ∀ t task, q.pending.get? t = some task → task.taskId = t
  completed : ∀ t task, q.completed.get? t = some task → task.taskId = t

namespace TaskQueue.Represented

variable {caps : Caps} {q q' : TaskQueue} {t : TaskId} {task : PendingTask}

theorem empty : TaskQueue.empty.Represented where
  depth := rfl
  processing := fun _ h => absurd h List.not_mem_nil
  pending := fun t _ h => by rw [TaskQueue.empty, OrderedDict.get?_empty] at h; cases h
  completed := fun t _ h => by rw [TaskQueue.empty, OrderedDict.get?_empty] at h; cases h

/-- The clipping of `pending_count` never clips. -/
theorem pendingCount_eq (h : q.Represented) : q.pendingCount = q.pending.length := by
  rw [pendingCount, h.depth]
  exact max_eq_right (Int.natCast_nonneg _)

theorem enqueued (hq : q.Represented) (h : Enqueued caps t task q q') (ht : task.taskId = t) :
    q'.Represented where
  depth := by
    have := hq.depth
    have := h.depth
    rw [h.completeCount, h.cancelCount]
    omega
  processing := by
    intro t' ht'
    rw [h.processing] at ht'
    obtain ⟨task', hget⟩ := OrderedDict.mem_iff_exists.mp (hq.processing t' ht')
    exact OrderedDict.mem_of_get? (h.keeps_processing ht' hget)
  pending := by
    intro t' task' hget
    rcases (h.get?.mp hget).1 with hold | ⟨rfl, rfl⟩
    · exact hq.pending t' task' hold
    · exact ht
  completed := by
    rw [h.completed]
    exact hq.completed

theorem requeue (hq : q.Represented) (task : PendingTask) : (q.requeue task).Represented := by
  unfold TaskQueue.requeue
  split
  · rename_i hnew
    refine ⟨?_, ?_, ?_, hq.completed⟩
    · show q.enqueueCount + 1 - q.completeCount - q.cancelCount = _
      have := hq.depth
      rw [OrderedDict.length_set_of_notMem _ hnew.1]
      omega
    · exact fun t ht => OrderedDict.mem_set_iff.mpr (Or.inr (hq.processing t ht))
    · intro t task' hget
      change (q.pending.set task.taskId task).get? t = some task' at hget
      rw [OrderedDict.get?_set] at hget
      split_ifs at hget with ht
      · exact Option.some.inj hget ▸ ht.symm
      · exact hq.pending t task' hget
  · exact hq

theorem requeueTasks (hq : q.Represented) (tasks : List PendingTask) :
    (q.requeueTasks tasks).Represented := by
  induction tasks generalizing q with
  | nil => exact hq
  | cons task tasks ih => exact ih (hq.requeue task)

theorem markProcessing (hq : q.Represented) (t : TaskId) : (q.markProcessing t).Represented := by
  refine ⟨?_, ?_, ?_, ?_⟩
  · have := hq.depth
    unfold TaskQueue.markProcessing
    split <;> exact this
  · intro t' ht'
    rw [markProcessing_pending]
    rcases mem_markProcessing.mp ht' with h | ⟨rfl, h⟩
    · exact hq.processing t' h
    · exact h
  · rw [markProcessing_pending]
    exact hq.pending
  · rw [markProcessing_completed]
    exact hq.completed

/-- A change of the recorded states represents the same. -/
theorem withStates (hq : q.Represented) (states : OrderedDict TaskId TaskState) :
    ({ q with states } : TaskQueue).Represented :=
  ⟨hq.depth, hq.processing, hq.pending, hq.completed⟩

theorem transition (hq : q.Represented) (t : TaskId) (toState : TaskState) :
    (q.transition t toState).2.Represented := by
  simp only [TaskQueue.transition]
  split
  · exact hq.withStates _
  · exact hq

/-- Releasing a claim on an id that is not pending. -/
theorem release (hq : q.Represented) (t : TaskId) :
    ({ q with processing := q.processing.filter (· ≠ t) } : TaskQueue).Represented :=
  ⟨hq.depth, fun t' ht' => hq.processing t' (List.mem_filter.mp ht').1, hq.pending, hq.completed⟩

/-- What `complete` and `cancel` of a pending task share: the task leaves with its
claim, one of the counters goes up, and at most the task itself is filed. -/
theorem leave (hq : q.Represented) (hget : q.pending.get? t = some task)
    (hpending : q'.pending = q.pending.erase t)
    (hprocessing : q'.processing = q.processing.filter (· ≠ t))
    (hcount : q'.enqueueCount - q'.completeCount - q'.cancelCount =
      q.enqueueCount - q.completeCount - q.cancelCount - 1)
    (hcompleted : ∀ t' task', q'.completed.get? t' = some task' →
      (q.completed.set t task).get? t' = some task') : q'.Represented where
  depth := by
    have hlen := OrderedDict.length_erase_of_mem (OrderedDict.mem_of_get? hget)
    have := hq.depth
    rw [hcount, hpending]
    omega
  processing := by
    intro t' ht'
    rw [hprocessing] at ht'
    obtain ⟨hin, hne⟩ := List.mem_filter.mp ht'
    rw [hpending]
    exact OrderedDict.mem_erase_iff.mpr ⟨of_decide_eq_true hne, hq.processing t' hin⟩
  pending := by
    intro t' task' h
    rw [hpending, OrderedDict.get?_erase] at h
    split_ifs at h
    exact hq.pending t' task' h
  completed := by
    intro t' task' h
    have h := hcompleted t' task' h
    rw [OrderedDict.get?_set] at h
    split_ifs at h with ht
    · exact (Option.some.inj h) ▸ (hq.pending t task hget).trans ht.symm
    · exact hq.completed t' task' h

theorem complete (hq : q.Represented) (caps : Caps) (t : TaskId) (response : String) :
    (q.completeWithin caps t response).2.Represented := by
  cases hget : q.pending.get? t with
  | none =>
      rw [completeWithin_of_notMem caps response (OrderedDict.get?_eq_none_iff.mp hget)]
      exact hq.release t
  | some task =>
      rw [completeWithin_of_pending caps response hget]
      refine hq.leave hget (takeOut_pending_eq ..) (takeOut_processing ..) ?_
        fun t' task' h => get?_trimCompleted h
      simp only [takeOut_enqueueCount, takeOut_cancelCount]
      omega

theorem cancel (hq : q.Represented) (t : TaskId) : (q.cancel t).2.Represented := by
  cases hget : q.pending.get? t with
  | none =>
      rw [cancel_of_notMem (OrderedDict.get?_eq_none_iff.mp hget)]
      exact hq.release t
  | some task =>
      rw [cancel_of_pending hget]
      refine hq.leave hget (takeOut_pending_eq ..) (takeOut_processing ..) ?_ ?_
      · simp only [takeOut_enqueueCount, takeOut_completeCount]
        omega
      · intro t' task' h
        rwa [← takeOut_completed_eq .canceled (Cell.answer "(canceled)") hget]

/-- **Every operation keeps it**, whatever the caps and the arguments. -/
theorem on (caps : Caps) (o : QueueCall) (hq : q.Represented) : (o.on caps q).Represented := by
  cases o with
  | enqueue t text metadata contextId createdAt =>
      show (q.enqueueWithin caps t text metadata contextId createdAt).2.Represented
      rcases q.enqueued_of_enqueueWithin caps t text metadata contextId createdAt with
        ⟨hno, -⟩ | ⟨-, -, q', hyes, h⟩
      · rw [hno]
        exact hq
      · rw [hyes]
        exact hq.enqueued h rfl
  | requeueTasks tasks => exact hq.requeueTasks tasks
  | markProcessing t => exact hq.markProcessing t
  | transition t toState => exact hq.transition t toState
  | complete t response => exact hq.complete caps t response
  | cancel t => exact hq.cancel t
  | setAuthRequired t => exact hq.withStates _
  | setAuthenticated t => exact hq.withStates _

end TaskQueue.Represented

theorem represented_afterCalls (caps : Caps) (ops : List QueueCall) :
    (afterCalls caps ops).Represented :=
  Sequential.run_invariant (fun o _ hq => hq.on caps o) ops .empty

/-- **The fields say what they are for.**  Whatever the caps and the operations, the
counters add up to the number of pending tasks and `pending_count` is that number,
a task being processed is pending, both maps file a task under its own id, and no
`enqueue` evicts a task that is being processed.  Ids are JSON values here (`TaskId`). -/
theorem queue_representation (caps : Caps) (ops : List QueueCall) :
    let q := afterCalls caps ops
    q.enqueueCount - q.completeCount - q.cancelCount = q.pending.length ∧
      q.pendingCount = q.pending.length ∧
      (∀ t ∈ q.processing, t ∈ q.pending) ∧
      (∀ t task, q.pending.get? t = some task → task.taskId = t) ∧
      (∀ t task, q.completed.get? t = some task → task.taskId = t) ∧
      ∀ t text metadata contextId createdAt, ∀ t' ∈ q.processing,
        t' ∈ (q.enqueueWithin caps t text metadata contextId createdAt).2.processing ∧
          (q.enqueueWithin caps t text metadata contextId createdAt).2.pending.get? t' =
            q.pending.get? t' := by
  intro q
  have hrep : q.Represented := represented_afterCalls caps ops
  refine ⟨hrep.depth, hrep.pendingCount_eq, hrep.processing, hrep.pending, hrep.completed, ?_⟩
  intro t text metadata contextId createdAt t' ht'
  rcases q.enqueued_of_enqueueWithin caps t text metadata contextId createdAt with
    ⟨hno, -⟩ | ⟨-, -, q', hyes, h⟩
  · rw [hno]
    exact ⟨ht', rfl⟩
  · obtain ⟨task, hget⟩ := OrderedDict.mem_iff_exists.mp (hrep.processing t' ht')
    rw [hyes, hget]
    refine ⟨?_, h.keeps_processing ht' hget⟩
    show t' ∈ q'.processing
    rw [h.processing]
    exact ht'

/-! ### The queue of the server -/

/-- Every atomic step keeps the invariant. -/
theorem TaskQueue.Represented.onQueue {q : TaskQueue} (hq : q.Represented) (o : Op) :
    (o.onQueue q).Represented := by
  cases o with
  | enqueue t text metadata contextId createdAt =>
      exact hq.on .source (.enqueue t text metadata contextId createdAt)
  | transition t toState => exact hq.transition t toState
  | markProcessing t => exact hq.markProcessing t
  | requeueTasks tasks => exact hq.requeueTasks tasks
  | complete t response => exact hq.complete .source t response
  | cancel t => exact hq.cancel t
  | writeResponse | setReady | setReturned =>
      exact ⟨hq.depth, hq.processing, hq.pending, hq.completed⟩
  | _ => exact hq

/-- In every run of the server, whatever the interleaving. -/
theorem represented_reaches {site : Site}
    {guard : Machine.Guard ServerOp ServerOp.Res ServerState ServerCall ServerOutcome}
    {clock : Time} {c : ServerConfig}
    (hc : (httpServer site).Reaches guard (ServerState.init clock) c) :
    c.shared.world.queue.Represented := by
  refine hc.invariant (I := fun _ s => s.world.queue.Represented) .empty ?_ ?_
  · intro tr s e hs
    cases e with
    | tick d => exact hs
    | hangUp id => exact hs
  · intro b i x o k r s' _ hs _ _ hserve
    obtain ⟨-, -, rfl⟩ := serve_eq_some_iff.mp hserve
    cases o with
    | base o => exact hs.onQueue o
    | _ => exact hs

end HermesA2A
