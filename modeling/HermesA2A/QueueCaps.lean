import HermesA2A.QueueRuns
import Mathlib.Data.Finset.Card
import Mathlib.Data.Finset.Dedup

/-!
# The caps of the queue

`_pending` is to hold at most `_MAX_PENDING` tasks and `_completed` at most
`_TASK_CACHE_MAX`.  `enqueue` and `complete` see to it.  The other two operations
that make a map longer do not: `cancel` files a task without trimming, and
`requeue_tasks` puts back whatever it is given.

* `QueueCall.HasRoom` — the operation does not need the check that is missing.
* `withinCaps_on_iff` — from a state within the caps, an operation stays within them
  exactly when it has room.
* `withinCaps_iff` — so does a run.
-/

namespace HermesA2A

open TaskQueue

/-- Both maps are within their caps. -/
structure TaskQueue.WithinCaps (caps : Caps) (q : TaskQueue) : Prop where
  pending : q.pending.length ≤ caps.maxPending
  completed : q.completed.length ≤ caps.taskCacheMax

/-- The ids `requeue_tasks` files anew: they are neither pending nor being processed. -/
def TaskQueue.returning (tasks : List PendingTask) (q : TaskQueue) : Finset TaskId :=
  (tasks.map PendingTask.taskId).toFinset.filter fun t => t ∉ q.pending ∧ t ∉ q.processing

/-- The operation needs no check that it does not make: there is room for the tasks
put back, and for a canceled task in the cache. -/
def QueueCall.HasRoom (caps : Caps) : QueueCall → TaskQueue → Prop
  | requeueTasks tasks, q => q.pending.length + (q.returning tasks).card ≤ caps.maxPending
  | cancel t, q => t ∈ q.pending → t ∉ q.completed → q.completed.length < caps.taskCacheMax
  | _, _ => True

instance (caps : Caps) (o : QueueCall) (q : TaskQueue) : Decidable (o.HasRoom caps q) :=
  match o with
  | .requeueTasks _ => inferInstanceAs (Decidable (_ ≤ _))
  | .cancel _ => inferInstanceAs (Decidable (_ → _ → _ < _))
  | .enqueue .. | .markProcessing _ | .transition .. | .complete .. | .setAuthRequired _
  | .setAuthenticated _ => isTrue trivial

/-! ### Lengths -/

section Lengths

variable {caps : Caps} {q q' : TaskQueue} {t : TaskId} {task : PendingTask}

/-- What one task of `requeue_tasks` adds. -/
theorem returning_cons (task : PendingTask) (tasks : List PendingTask) (q : TaskQueue) :
    q.pending.length + (q.returning (task :: tasks)).card =
      (q.requeue task).pending.length + ((q.requeue task).returning tasks).card := by
  have hcons : (task :: tasks).map PendingTask.taskId =
      task.taskId :: tasks.map PendingTask.taskId := rfl
  unfold TaskQueue.returning TaskQueue.requeue
  rw [hcons, List.toFinset_cons]
  split_ifs with hnew
  · -- the task goes in, and its id is one less to come
    have herase : (insert task.taskId (tasks.map PendingTask.taskId).toFinset).filter
          (fun t => t ∉ q.pending ∧ t ∉ q.processing) =
        insert task.taskId ((tasks.map PendingTask.taskId).toFinset.filter
          fun t => t ∉ q.pending.set task.taskId task ∧ t ∉ q.processing) := by
      ext t
      simp only [Finset.mem_filter, Finset.mem_insert, OrderedDict.mem_set_iff]
      by_cases ht : t = task.taskId
      · simp [ht, hnew.1, hnew.2]
      · simp [ht]
    have hnotMem : task.taskId ∉ (tasks.map PendingTask.taskId).toFinset.filter
        fun t => t ∉ q.pending.set task.taskId task ∧ t ∉ q.processing := by simp
    rw [herase, Finset.card_insert_of_notMem hnotMem, OrderedDict.length_set_of_notMem _ hnew.1]
    exact (Nat.succ_add ..).symm
  · rw [Finset.filter_insert, if_neg hnew]

/-- `requeue_tasks` adds one task for each id it files anew. -/
theorem length_requeueTasks (tasks : List PendingTask) (q : TaskQueue) :
    (q.requeueTasks tasks).pending.length = q.pending.length + (q.returning tasks).card := by
  induction tasks generalizing q with
  | nil => rfl
  | cons task tasks ih => exact (ih (q.requeue task)).trans (returning_cons task tasks q).symm

theorem length_trimCompleted_le (cap : ℕ) (completed : OrderedDict TaskId PendingTask) :
    (trimCompleted cap completed).length ≤ cap := by
  rw [trimCompleted, OrderedDict.length_iterate_popFirst]
  omega

theorem length_erase_le (d : OrderedDict TaskId PendingTask) (t : TaskId) :
    (d.erase t).length ≤ d.length := List.length_filter_le ..

/-- An `enqueue` makes the pending tasks at most one more. -/
theorem TaskQueue.Enqueued.length_le (h : Enqueued caps t task q q') :
    q'.pending.length ≤ q.pending.length + 1 := by
  show q'.pending.entries.length ≤ q.pending.entries.length + 1
  rw [h.entries]
  exact (List.length_filter_le ..).trans (by simp)

end Lengths

/-! ### Steps and runs -/

/-- **One step**: it stays within the caps exactly when it has room. -/
theorem withinCaps_on_iff {caps : Caps} {q : TaskQueue} (o : QueueCall) (hq : q.WithinCaps caps) :
    (o.on caps q).WithinCaps caps ↔ o.HasRoom caps q := by
  have hsame : ∀ {q' : TaskQueue}, q'.pending = q.pending → q'.completed = q.completed →
      q'.WithinCaps caps := fun hp hc => ⟨hp ▸ hq.pending, hc ▸ hq.completed⟩
  cases o with
  | enqueue t text metadata contextId createdAt =>
      refine iff_of_true ?_ trivial
      show (q.enqueueWithin caps t text metadata contextId createdAt).2.WithinCaps caps
      rcases q.enqueued_of_enqueueWithin caps t text metadata contextId createdAt with
        ⟨hno, -⟩ | ⟨-, hlt, q', hyes, h⟩
      · rw [hno]
        exact hq
      · rw [hyes]
        exact ⟨h.length_le.trans hlt, h.completed ▸ hq.completed⟩
  | requeueTasks tasks =>
      show (q.requeueTasks tasks).WithinCaps caps ↔ _ + _ ≤ _
      rw [← length_requeueTasks]
      exact ⟨WithinCaps.pending, fun h => ⟨h, by rw [requeueTasks_completed]; exact hq.completed⟩⟩
  | markProcessing t =>
      exact iff_of_true (hsame (markProcessing_pending ..) (markProcessing_completed ..)) trivial
  | transition t toState =>
      exact iff_of_true (hsame (transition_pending ..) (transition_completed ..)) trivial
  | complete t response =>
      refine iff_of_true ?_ trivial
      show (q.completeWithin caps t response).2.WithinCaps caps
      cases hget : q.pending.get? t with
      | none =>
          rw [completeWithin_of_notMem caps response (OrderedDict.get?_eq_none_iff.mp hget)]
          exact hsame rfl rfl
      | some task =>
          have hpending : (q.completeWithin caps t response).2.pending.length ≤ caps.maxPending := by
            rw [completeWithin_pending]
            exact (length_erase_le ..).trans hq.pending
          rw [completeWithin_of_pending caps response hget] at hpending ⊢
          exact ⟨hpending, length_trimCompleted_le ..⟩
  | cancel t =>
      show (q.cancel t).2.WithinCaps caps ↔ (t ∈ q.pending → t ∉ q.completed → _ < _)
      cases hget : q.pending.get? t with
      | none =>
          have hno := OrderedDict.get?_eq_none_iff.mp hget
          rw [cancel_of_notMem hno]
          exact iff_of_true (hsame rfl rfl) fun h => absurd h hno
      | some task =>
          have hcompleted := cancel_completed_eq hget
          have hiff : (q.cancel t).2.WithinCaps caps ↔
              (q.completed.set t task).length ≤ caps.taskCacheMax := by
            refine ⟨fun h => hcompleted ▸ h.completed, fun h => ⟨?_, ?_⟩⟩
            · rw [cancel_pending_eq]
              exact (length_erase_le ..).trans hq.pending
            · rw [hcompleted]
              exact h
          rw [hiff]
          -- a canceled task takes a new place, unless its id has one already
          have hmem := OrderedDict.mem_of_get? hget
          by_cases hin : t ∈ q.completed
          · rw [OrderedDict.length_set_of_mem task hin]
            exact iff_of_true hq.completed fun _ hno => absurd hin hno
          · rw [OrderedDict.length_set_of_notMem task hin]
            exact ⟨fun h _ _ => h, fun h => h hmem hin⟩
  | setAuthRequired t => exact iff_of_true (hsame rfl rfl) trivial
  | setAuthenticated t => exact iff_of_true (hsame rfl rfl) trivial

/-- **A run stays within the caps exactly when all its steps have room.** -/
theorem withinCaps_iff (caps : Caps) (ops : List QueueCall) :
    Sequential.Always (QueueCall.on caps) (TaskQueue.WithinCaps caps) ops .empty ↔
      Sequential.Each (QueueCall.on caps) (QueueCall.HasRoom caps) ops .empty :=
  Sequential.always_iff_each (J := fun _ => True) (fun _ _ h => h)
    (fun o _ _ hq => withinCaps_on_iff o hq) trivial ⟨Nat.zero_le _, Nat.zero_le _⟩

/-! ### Only cancellations -/

/-- Ids, one for each number. -/
def idNo (n : ℕ) : TaskId := .str (String.ofList (List.replicate n 'a'))

theorem idNo_inj {m n : ℕ} (h : idNo m = idNo n) : m = n := by
  have hlist := String.ofList_inj.mp (Json.str.inj h)
  simpa using congrArg List.length hlist

/-- Each task is enqueued and canceled before the next one comes. -/
def churn (n : ℕ) : List QueueCall :=
  (List.range n).flatMap fun i => [.enqueue (idNo i) "" (.obj []) .null 0, .cancel (idNo i)]

/-- One task enqueued and canceled. -/
theorem enqueue_cancel {q : TaskQueue} {t : TaskId} (hempty : q.pending.length = 0)
    (hnew : t ∉ q.completed) :
    let q' := Sequential.run (QueueCall.on .source) [.enqueue t "" (.obj []) .null 0, .cancel t] q
    q'.pending.length = 0 ∧ q'.completed.keys = q.completed.keys ++ [t] := by
  have hno : t ∉ q.pending := fun hmem => by
    have := OrderedDict.length_erase_of_mem hmem
    omega
  rcases enqueue_cases q t "" (.obj []) .null 0 with ⟨-, hfull | hmem⟩ | ⟨-, -, hyes⟩
  · rw [hempty] at hfull
    exact absurd hfull (by decide)
  · exact absurd hmem hno
  · have hrun : Sequential.run (QueueCall.on .source)
        [.enqueue t "" (.obj []) .null 0, .cancel t] q =
        ((q.enqueue t "" (.obj []) .null 0).2.cancel t).2 := rfl
    intro q'
    have hq' : q' = _ := hrun
    rw [hyes] at hq'
    rw [hq', cancel_of_pending (OrderedDict.get?_set_self q.pending t _)]
    refine ⟨?_, ?_⟩
    · have hlen := OrderedDict.length_set_of_notMem (q.newTask t "" (.obj []) .null 0) hno
      have hdrop := OrderedDict.length_erase_of_mem
        (OrderedDict.mem_set_iff (v := q.newTask t "" (.obj []) .null 0) |>.mpr
          (Or.inl (rfl : t = t)) : t ∈ q.pending.set t (q.newTask t "" (.obj []) .null 0))
      rw [takeOut_pending_eq]
      show ((q.pending.set t _).erase t).length = 0
      omega
    · show (TaskQueue.takeOut _ _ _ _).2.completed.keys = _
      rw [takeOut_completed_eq _ _ (OrderedDict.get?_set_self q.pending t _)]
      exact OrderedDict.keys_set_of_notMem _ hnew

theorem churn_spec (n : ℕ) :
    (afterCalls .source (churn n)).pending.length = 0 ∧
      (afterCalls .source (churn n)).completed.keys = (List.range n).map idNo := by
  induction n with
  | zero => exact ⟨rfl, rfl⟩
  | succ n ih =>
      have hnew : idNo n ∉ (afterCalls .source (churn n)).completed := by
        intro hmem
        have hmem : idNo n ∈ (afterCalls .source (churn n)).completed.keys := hmem
        rw [ih.2] at hmem
        obtain ⟨m, hm, heq⟩ := List.mem_map.mp hmem
        exact absurd (idNo_inj heq) (List.mem_range.mp hm).ne
      have hsucc : churn (n + 1) =
          churn n ++ [.enqueue (idNo n) "" (.obj []) .null 0, .cancel (idNo n)] := by
        simp [churn, List.range_succ, List.flatMap_append]
      obtain ⟨hpending, hcompleted⟩ := enqueue_cancel ih.1 hnew
      rw [afterCalls, hsucc, Sequential.run_append]
      refine ⟨hpending, hcompleted.trans ?_⟩
      rw [ih.2, List.range_succ, List.map_append]
      rfl

theorem le_cap_of_churn {n : ℕ}
    (h : Sequential.Always (QueueCall.on .source) (TaskQueue.WithinCaps .source) (churn n) .empty) :
    n ≤ Caps.source.taskCacheMax := by
  have hlast := (Sequential.always_iff.mp h _ [] (List.append_nil _).symm).completed
  have hlen : (afterCalls .source (churn n)).completed.length =
      (afterCalls .source (churn n)).completed.keys.length := (List.length_map _).symm
  rw [(churn_spec n).2, List.length_map, List.length_range] at hlen
  exact hlen ▸ hlast

/-- **A workload of cancellations outgrows the cache**: one task more than the cap,
each one enqueued and canceled before the next. -/
theorem canceled_outgrow :
    ¬ ∀ ops, Sequential.Always (QueueCall.on .source) (TaskQueue.WithinCaps .source) ops
      .empty := by
  intro h
  obtain ⟨n, hn⟩ : ∃ n, Caps.source.taskCacheMax < n := ⟨_, Nat.lt_succ_self _⟩
  exact absurd (le_cap_of_churn (h (churn n))) (Nat.not_le.mpr hn)

end HermesA2A
