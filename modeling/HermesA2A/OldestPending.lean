import HermesA2A.QueueRuns

/-!
# The watchdog's short cut

The queue caches the creation time of its oldest pending task, and a watchdog pass
that finds it young enough skips the scan.  `enqueue` lowers the cached time, and
whoever takes the oldest task out computes it again.  `requeue_tasks` forgets about
it: a task that comes back may be older than the cache says; and a cache that is
`None` while tasks have come back starts again with the next new task.

* `FastPathAgrees` — where the short cut is taken, the scan would find nothing.
* `QueueCall.KeepsOldest` — the operation brings in nothing older than the cached time.
* `fastPathAgrees_iff` — the short cut is right throughout a run if all operations are
  such, and, under caps that leave nothing to evict, only then.
-/

namespace HermesA2A

open TaskQueue

/-- **Where the watchdog skips its scan, the scan would find nothing**: no pending task
was created before the cutoff. -/
def FastPathAgrees (q : TaskQueue) : Prop :=
  ∀ cutoff oldest, q.oldestPendingTime = some oldest → oldest ≥ cutoff →
    ∀ t task, q.pending.get? t = some task → ¬ task.createdAt < cutoff

/-- The cached time is a lower bound. -/
theorem fastPathAgrees_iff_le {q : TaskQueue} :
    FastPathAgrees q ↔ ∀ oldest, q.oldestPendingTime = some oldest →
      ∀ t task, q.pending.get? t = some task → oldest ≤ task.createdAt := by
  constructor
  · intro h oldest holdest t task hget
    exact Int.not_lt.mp (h oldest oldest holdest le_rfl t task hget)
  · intro h cutoff oldest holdest hcutoff t task hget
    exact Int.not_lt.mpr (hcutoff.trans (h oldest holdest t task hget))

/-- A scan that finds nothing does nothing. -/
theorem markOrphans_of_young {cutoff : Time} {tasks : List PendingTask}
    (h : ∀ task ∈ tasks, ¬ task.createdAt < cutoff) : markOrphans cutoff tasks = return .done := by
  induction tasks with
  | nil => rfl
  | cons task tasks ih =>
      obtain ⟨hhead, htail⟩ := List.forall_mem_cons.mp h
      unfold markOrphans
      rw [if_neg hhead]
      exact ih htail

/-- So the short cut loses nothing. -/
theorem FastPathAgrees.scan {q : TaskQueue} (h : FastPathAgrees q) {cutoff oldest : Time}
    (holdest : q.oldestPendingTime = some oldest) (hcutoff : oldest ≥ cutoff) :
    markOrphans cutoff q.pending.values = return .done := by
  refine markOrphans_of_young fun task htask => ?_
  obtain ⟨t, hget⟩ := OrderedDict.mem_values_iff_get?.mp htask
  exact h cutoff oldest holdest hcutoff t task hget

/-- The operation brings in nothing older than the cached time: where there is none,
no pending task is older than the new one, and of the tasks that `requeue_tasks` files
anew none is older. -/
def QueueCall.KeepsOldest (caps : Caps) : QueueCall → TaskQueue → Prop
  | enqueue t _ _ _ createdAt, q =>
      q.oldestPendingTime = none → t ∉ q.pending → q.pending.length < caps.maxPending →
        ∀ task ∈ q.pending.values, createdAt ≤ task.createdAt
  | requeueTasks tasks, q =>
      ∀ oldest ∈ q.oldestPendingTime, ∀ task ∈ tasks,
        tasks.find? (fun task' => task'.taskId = task.taskId) = some task →
          task.taskId ∉ q.pending → task.taskId ∉ q.processing → oldest ≤ task.createdAt
  | _, _ => True

instance (caps : Caps) (o : QueueCall) (q : TaskQueue) : Decidable (o.KeepsOldest caps q) :=
  match o with
  | .enqueue .. => inferInstanceAs (Decidable (_ → _ → _ → ∀ task ∈ q.pending.values, _))
  | .requeueTasks tasks =>
      inferInstanceAs (Decidable (∀ oldest ∈ q.oldestPendingTime, ∀ task ∈ tasks, _))
  | .markProcessing _ | .transition .. | .complete .. | .cancel _ | .setAuthRequired _
  | .setAuthenticated _ => isTrue trivial

/-! ### Tasks that leave -/

section Leave

variable {q : TaskQueue} {t : TaskId} {task left : PendingTask}

/-- Taking out the oldest computes the time again; it then is exact. -/
theorem FastPathAgrees.refreshOldest (h : FastPathAgrees q) (left : PendingTask) :
    FastPathAgrees (q.refreshOldest left) := by
  unfold TaskQueue.refreshOldest
  split
  · rw [fastPathAgrees_iff_le]
    intro oldest holdest t task hget
    refine (List.min?_eq_some_iff.mp holdest).2 _ (List.mem_map_of_mem ?_)
    exact OrderedDict.mem_values_iff_get?.mpr ⟨t, hget⟩
  · exact h

/-- With fewer pending tasks the cached time is still a lower bound. -/
theorem FastPathAgrees.of_subset {q' : TaskQueue} (h : FastPathAgrees q)
    (holdest : q'.oldestPendingTime = q.oldestPendingTime)
    (hpending : ∀ t task, q'.pending.get? t = some task → q.pending.get? t = some task) :
    FastPathAgrees q' :=
  fun cutoff oldest hold hcutoff t task hget =>
    h cutoff oldest (holdest ▸ hold) hcutoff t task (hpending t task hget)

theorem get?_of_get?_erase {d : OrderedDict TaskId PendingTask} {k : TaskId}
    (h : (d.erase k).get? t = some task) : d.get? t = some task := by
  rw [OrderedDict.get?_erase] at h
  split_ifs at h
  exact h

theorem FastPathAgrees.evict (h : FastPathAgrees q) (t : TaskId) (task : PendingTask) :
    FastPathAgrees (q.evict t task) := by
  have herased : FastPathAgrees (modifyCell task.ref (Cell.answer "(dropped — queue overflow)")
      { q with pending := q.pending.erase t }) :=
    h.of_subset rfl fun _ _ => get?_of_get?_erase
  exact herased.refreshOldest task

theorem FastPathAgrees.takeOut (h : FastPathAgrees q) (t : TaskId) (state : TaskState)
    (f : Cell → Cell) : FastPathAgrees (q.takeOut t state f).2 := by
  unfold TaskQueue.takeOut
  split
  · exact h.of_subset rfl fun _ _ hget => hget
  · exact FastPathAgrees.refreshOldest
      (h.of_subset (by simp [modifyCell]) fun _ _ => get?_of_get?_erase) _

end Leave

/-! ### Tasks that come -/

section Come

variable {caps : Caps} {q : TaskQueue} {t : TaskId} {task : PendingTask}

/-- A new task is not older than the cached time afterwards; the tasks that were there
are not if there was a time, or if none is older than the new one. -/
theorem fastPathAgrees_addPending (h : FastPathAgrees q) (hnew : task.taskId ∉ q.pending) :
    FastPathAgrees (q.addPending task) ↔
      (q.oldestPendingTime = none → ∀ task' ∈ q.pending.values, task.createdAt ≤ task'.createdAt) := by
  rw [fastPathAgrees_iff_le] at h ⊢
  have hget : ∀ t' task', (q.addPending task).pending.get? t' = some task' ↔
      (t' = task.taskId ∧ task' = task) ∨ q.pending.get? t' = some task' := by
    intro t' task'
    show (q.pending.set task.taskId task).get? t' = _ ↔ _
    rw [OrderedDict.get?_set]
    split_ifs with ht
    · have hnone : q.pending.get? t' = none := OrderedDict.get?_eq_none_iff.mpr (ht ▸ hnew)
      rw [hnone]
      simp [ht, eq_comm]
    · simp [ht]
  constructor
  · intro hadd hnone task' htask'
    obtain ⟨t', hget'⟩ := OrderedDict.mem_values_iff_get?.mp htask'
    refine hadd task.createdAt ?_ t' task' ((hget t' task').mpr (Or.inr hget'))
    simp only [addPending, hnone]
  · intro hold oldest holdest t' task' hget'
    simp only [addPending, Option.some.injEq] at holdest
    cases hcached : q.oldestPendingTime with
    | none =>
        rw [hcached] at holdest
        obtain rfl : task.createdAt = oldest := holdest
        rcases (hget t' task').mp hget' with ⟨-, rfl⟩ | hget'
        · exact le_rfl
        · exact hold hcached task' (OrderedDict.mem_values_iff_get?.mpr ⟨t', hget'⟩)
    | some cached =>
        rw [hcached] at holdest
        obtain rfl : min cached task.createdAt = oldest := holdest
        rcases (hget t' task').mp hget' with ⟨-, rfl⟩ | hget'
        · exact min_le_right _ _
        · exact (min_le_left _ _).trans (h cached hcached t' task' hget')

/-- A `requeue_tasks`. -/
theorem fastPathAgrees_requeueTasks (h : FastPathAgrees q) (tasks : List PendingTask) :
    FastPathAgrees (q.requeueTasks tasks) ↔
      ∀ oldest ∈ q.oldestPendingTime, ∀ task ∈ tasks,
        tasks.find? (fun task' => task'.taskId = task.taskId) = some task →
          task.taskId ∉ q.pending → task.taskId ∉ q.processing → oldest ≤ task.createdAt := by
  rw [fastPathAgrees_iff_le] at h ⊢
  rw [requeueTasks_oldestPendingTime]
  constructor
  · intro hreq oldest holdest task htask hfirst hpending hprocessing
    refine hreq oldest holdest task.taskId task ?_
    rw [get?_requeueTasks, if_neg (not_or.mpr ⟨hpending, hprocessing⟩)]
    exact hfirst
  · intro hreq oldest holdest t task hget
    rw [get?_requeueTasks] at hget
    split_ifs at hget with hknown
    · exact h oldest holdest t task hget
    · obtain rfl : task.taskId = t := by simpa using List.find?_some hget
      obtain ⟨hpending, hprocessing⟩ := not_or.mp hknown
      exact hreq oldest holdest task (List.mem_of_find?_eq_some hget) hget hpending hprocessing

/-- An `enqueue` that meets the condition. -/
theorem FastPathAgrees.enqueue (h : FastPathAgrees q) (caps : Caps) {text : String}
    {metadata contextId : Json} {createdAt : Time}
    (hold : q.oldestPendingTime = none → t ∉ q.pending → q.pending.length < caps.maxPending →
      ∀ task ∈ q.pending.values, createdAt ≤ task.createdAt) :
    FastPathAgrees (q.enqueueWithin caps t text metadata contextId createdAt).2 := by
  rcases enqueueWithin_cases q t text metadata contextId createdAt caps with
    ⟨hno, -⟩ | ⟨hnew, hlt, added, evicted, kept, hadded, hevict, hyes⟩
  · rw [hno]
    exact h
  · have hfast : FastPathAgrees added := by
      rw [hadded]
      exact (fastPathAgrees_addPending h hnew).mpr fun hnone => hold hnone hnew hlt
    have hkept := evictOverflow_invariant (I := FastPathAgrees)
      (fun t task q hq _ => hq.evict t task) caps.taskCacheMax added.pending.length 0 hfast
    rw [hevict] at hkept
    rw [hyes]
    exact hkept.of_subset rfl fun _ _ hget => hget

/-- Where nothing is ever evicted, only such. -/
theorem FastPathAgrees.of_enqueue (h : FastPathAgrees q)
    (hcaps : caps.maxPending ≤ caps.taskCacheMax)
    {text : String} {metadata contextId : Json} {createdAt : Time}
    (hafter : FastPathAgrees (q.enqueueWithin caps t text metadata contextId createdAt).2)
    (hnone : q.oldestPendingTime = none) (hnew : t ∉ q.pending)
    (hlt : q.pending.length < caps.maxPending) :
    ∀ task ∈ q.pending.values, createdAt ≤ task.createdAt := by
  rcases enqueueWithin_cases q t text metadata contextId createdAt caps with
    ⟨-, hfull | hmem⟩ | ⟨-, -, added, evicted, kept, hadded, hevict, hyes⟩
  · exact absurd hlt (Nat.not_lt.mpr hfull)
  · exact absurd hmem hnew
  · have hlen : added.pending.length ≤ caps.taskCacheMax := by
      rw [hadded]
      exact (OrderedDict.length_set_le ..).trans ((Nat.succ_le_of_lt hlt).trans hcaps)
    rw [evictOverflow_eq_self hlen] at hevict
    obtain ⟨rfl, rfl⟩ := Prod.mk.inj hevict
    rw [hyes] at hafter
    have hadd : FastPathAgrees added := hafter.of_subset rfl fun _ _ hget => hget
    rw [hadded] at hadd
    exact (fastPathAgrees_addPending h hnew).mp hadd hnone

end Come

/-! ### Steps and runs -/

section Steps

variable {caps : Caps} {q : TaskQueue}

theorem FastPathAgrees.complete (h : FastPathAgrees q) (t : TaskId) (response : String) :
    FastPathAgrees (q.completeWithin caps t response).2 := by
  cases hget : q.pending.get? t with
  | none =>
      rw [completeWithin_of_notMem caps response (OrderedDict.get?_eq_none_iff.mp hget)]
      exact h.of_subset rfl fun _ _ hget => hget
  | some task =>
      rw [completeWithin_of_pending caps response hget]
      exact (h.takeOut t .completed (completeCell response)).of_subset rfl fun _ _ hget => hget

theorem FastPathAgrees.cancel (h : FastPathAgrees q) (t : TaskId) :
    FastPathAgrees (q.cancel t).2 := by
  cases hget : q.pending.get? t with
  | none =>
      rw [cancel_of_notMem (OrderedDict.get?_eq_none_iff.mp hget)]
      exact h.of_subset rfl fun _ _ hget => hget
  | some task =>
      rw [cancel_of_pending hget]
      exact (h.takeOut t .canceled (Cell.answer "(canceled)")).of_subset rfl fun _ _ hget => hget

/-- **One step.** -/
theorem FastPathAgrees.on (h : FastPathAgrees q) {o : QueueCall} (ho : o.KeepsOldest caps q) :
    FastPathAgrees (o.on caps q) := by
  cases o with
  | enqueue t text metadata contextId createdAt => exact h.enqueue caps ho
  | requeueTasks tasks => exact (fastPathAgrees_requeueTasks h tasks).mpr ho
  | markProcessing t =>
      show FastPathAgrees (q.markProcessing t)
      unfold TaskQueue.markProcessing
      split
      · exact h.of_subset rfl fun _ _ hget => hget
      · exact h
  | transition t toState =>
      show FastPathAgrees (q.transition t toState).2
      simp only [TaskQueue.transition]
      split
      · exact h.of_subset rfl fun _ _ hget => hget
      · exact h
  | complete t response => exact h.complete t response
  | cancel t => exact h.cancel t
  | setAuthRequired t => exact h.of_subset rfl fun _ _ hget => hget
  | setAuthenticated t => exact h.of_subset rfl fun _ _ hget => hget

/-- One step, under caps that leave nothing to evict. -/
theorem FastPathAgrees.of_on (hcaps : caps.maxPending ≤ caps.taskCacheMax) (h : FastPathAgrees q)
    {o : QueueCall} (hafter : FastPathAgrees (o.on caps q)) : o.KeepsOldest caps q := by
  cases o with
  | enqueue t text metadata contextId createdAt => exact h.of_enqueue hcaps hafter
  | requeueTasks tasks => exact (fastPathAgrees_requeueTasks h tasks).mp hafter
  | _ => trivial

end Steps

theorem fastPathAgrees_empty : FastPathAgrees .empty :=
  fun _ _ holdest => by cases holdest

/-- **The short cut is right in every state of a run whose operations bring in nothing
older than the cached time.**  Under the source's caps, or others that leave nothing to
evict, it is right in no other run. -/
theorem fastPathAgrees_iff (caps : Caps) (ops : List QueueCall) :
    (Sequential.Each (QueueCall.on caps) (QueueCall.KeepsOldest caps) ops .empty →
        Sequential.Always (QueueCall.on caps) FastPathAgrees ops .empty) ∧
      (caps.maxPending ≤ caps.taskCacheMax →
        Sequential.Always (QueueCall.on caps) FastPathAgrees ops .empty →
          Sequential.Each (QueueCall.on caps) (QueueCall.KeepsOldest caps) ops .empty) :=
  ⟨Sequential.always_of_each (fun _ _ h ho => h.on ho) fastPathAgrees_empty,
    fun hcaps => Sequential.each_of_always (fun _ _ h hafter => h.of_on hcaps hafter)⟩

/-! ### A task that comes back -/

/-- The task `A`, created at 0: the first object. -/
def olderTask : PendingTask := ⟨0, .str "A", "", .obj [], .null, 0⟩

/-- `A` and a younger `B` are enqueued.  A hook has drained both when `A` is canceled;
it then requeues `A`. -/
def comesBack : List QueueCall :=
  [.enqueue (.str "A") "" (.obj []) .null 0, .enqueue (.str "B") "" (.obj []) .null 10,
    .cancel (.str "A"), .requeueTasks [olderTask]]

/-- **The task that came back is hidden**: the cached time is `B`'s, and `A` is older. -/
theorem older_task_hidden :
    ¬ Sequential.Always (QueueCall.on .source) FastPathAgrees comesBack .empty := by
  intro h
  have hlast := Sequential.always_iff.mp h comesBack [] (List.append_nil _).symm
  exact hlast 10 10 (by decide +kernel) le_rfl (.str "A") olderTask (by decide +kernel) (by decide)

end HermesA2A
