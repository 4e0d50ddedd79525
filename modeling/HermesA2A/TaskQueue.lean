import HermesA2A.Lib.OrderedDict
import HermesA2A.Payloads
import Mathlib.Logic.Function.Basic

/-!
# The task queue

`TaskQueue` with its lock-protected operations, each one a function of the queue.

A `_PendingTask` object is split in two.  What never changes after construction
is its handle, `PendingTask`; `ref` is the object's identity, so that two objects
with one task id are two handles.  What other threads write to (`response`,
`ready`, `_returned`) is its `Cell`, kept in the queue under that identity.
`objects` lists the handles of all objects that were ever accepted.

Both caps are 100000 in the source, and `enqueue` refuses a full queue before it
adds anything: its eviction loop never runs (`evictOverflow_eq_self`).  The caps
are module constants that a deployment or a test may set; what depends on them is
defined for all `Caps`, and `enqueue` and `complete` are the source's instance.

* `TaskQueue.WF` — the invariant of the queue alone: pending and completed tasks
  are filed under their own id, claimed ids are pending, and a task once accepted
  has a recorded state for ever.
* `WF.enqueue`, `WF.requeueTasks`, `WF.takeOut`, … — every operation keeps it.
-/

namespace HermesA2A

/-- The states `_TRANSITIONS` knows. -/
inductive TaskState
  | submitted
  | working
  | authRequired
  | authenticated
  | completed
  | failed
  | canceled
  | rejected
  deriving DecidableEq, Repr

namespace TaskState

/-- The state's name on the wire. -/
def name : TaskState → String
  | submitted => "submitted"
  | working => "working"
  | authRequired => "auth_required"
  | authenticated => "authenticated"
  | completed => "completed"
  | failed => "failed"
  | canceled => "canceled"
  | rejected => "rejected"

/-- `_TRANSITIONS` -/
def transitions : TaskState → List TaskState
  | submitted => [working, completed, failed, canceled]
  | working => [completed, failed, canceled]
  | authRequired => [authenticated, rejected]
  | authenticated => [working, failed]
  | completed => []
  | failed => []
  | canceled => []
  | rejected => []

/-- `TERMINAL_STATES` -/
def terminal : TaskState → Bool
  | completed => true
  | failed => true
  | canceled => true
  | rejected => true
  | _ => false

/-- The terminal states are the ones without a way out. -/
theorem terminal_iff (s : TaskState) : s.terminal = true ↔ s.transitions = [] := by
  cases s <;> decide

end TaskState

/-- The handle of a `_PendingTask` object: its identity and the fields that are
fixed by the constructor. -/
structure PendingTask where
  ref : ℕ
  taskId : TaskId
  text : String
  metadata : Json
  contextId : Json
  createdAt : Time
  deriving DecidableEq

/-- The fields of a `_PendingTask` that are written after construction. -/
structure Cell where
  response : Option String
  ready : Bool
  /-- `_returned`: the server has answered the caller without a response. -/
  returned : Bool
  deriving DecidableEq

/-- The fields as the constructor leaves them. -/
def Cell.new : Cell := ⟨none, false, false⟩

/-- `task.response = response` -/
def Cell.write (response : String) (c : Cell) : Cell := { c with response := some response }

/-- `task.ready.set()` -/
def Cell.setReady (c : Cell) : Cell := { c with ready := true }

/-- `task._returned = True` -/
def Cell.setReturned (c : Cell) : Cell := { c with returned := true }

/-- `task.response = response; task.ready.set()` -/
def Cell.answer (response : String) (c : Cell) : Cell := (c.write response).setReady

/-- `_MAX_PENDING` -/
def MAX_PENDING : ℕ := 100000

/-- `_TASK_CACHE_MAX` -/
def TASK_CACHE_MAX : ℕ := 100000

/-- Values of the two caps. -/
structure Caps where
  /-- `_MAX_PENDING` -/
  maxPending : ℕ
  /-- `_TASK_CACHE_MAX` -/
  taskCacheMax : ℕ
  deriving DecidableEq

/-- The caps as the module sets them. -/
def Caps.source : Caps := ⟨MAX_PENDING, TASK_CACHE_MAX⟩

/-- The queue's fields, and the objects its references point to. -/
structure TaskQueue where
  objects : List PendingTask
  cells : ℕ → Cell
  pending : OrderedDict TaskId PendingTask
  completed : OrderedDict TaskId PendingTask
  processing : List TaskId
  enqueueCount : ℤ
  completeCount : ℤ
  cancelCount : ℤ
  states : OrderedDict TaskId TaskState
  oldestPendingTime : Option Time

/-- What `get_status` returns; no state stands for `"unknown"`. -/
structure Status where
  state : Option TaskState
  response : Option String
  deriving DecidableEq

/-- The state's name, as the dictionary has it. -/
def Status.name (s : Status) : String :=
  match s.state with
  | some state => state.name
  | none => "unknown"

namespace TaskQueue

/-- `TaskQueue()` -/
def empty : TaskQueue where
  objects := []
  cells := fun _ => Cell.new
  pending := .empty
  completed := .empty
  processing := []
  enqueueCount := 0
  completeCount := 0
  cancelCount := 0
  states := .empty
  oldestPendingTime := none

/-! ## Operations -/

/-- Change one object's mutable fields. -/
def modifyCell (ref : ℕ) (f : Cell → Cell) (q : TaskQueue) : TaskQueue :=
  { q with cells := Function.update q.cells ref (f (q.cells ref)) }

theorem modifyCell_cells (ref : ℕ) (f : Cell → Cell) (q : TaskQueue) (ref' : ℕ) :
    (q.modifyCell ref f).cells ref' = if ref = ref' then f (q.cells ref') else q.cells ref' := by
  by_cases h : ref = ref'
  · subst h; simp [modifyCell]
  · simp [modifyCell, h, Function.update_of_ne (Ne.symm h)]

/-- `min((t.created_at for t in self._pending.values()), default=None)`, if the
task that has just left was the oldest. -/
def refreshOldest (left : PendingTask) (q : TaskQueue) : TaskQueue :=
  if some left.createdAt = q.oldestPendingTime then
    { q with oldestPendingTime := (q.pending.values.map PendingTask.createdAt).min? }
  else q

/-- `set_auth_required` -/
def setAuthRequired (t : TaskId) (q : TaskQueue) : TaskQueue :=
  { q with states := q.states.set t .authRequired }

/-- `set_authenticated` -/
def setAuthenticated (t : TaskId) (q : TaskQueue) : TaskQueue :=
  { q with states := q.states.set t .authenticated }

/-- `transition` -/
def transition (t : TaskId) (toState : TaskState) (q : TaskQueue) : Bool × TaskQueue :=
  let fromState := (q.states.get? t).getD .submitted
  if toState ∈ fromState.transitions then
    (true, { q with states := q.states.set t toState })
  else (false, q)

/-- `pending_count` -/
def pendingCount (q : TaskQueue) : ℤ :=
  max 0 (q.enqueueCount - q.completeCount - q.cancelCount)

/-- What the eviction loop does to one task. -/
def evict (t : TaskId) (task : PendingTask) (q : TaskQueue) : TaskQueue :=
  refreshOldest task <|
    modifyCell task.ref (Cell.answer "(dropped — queue overflow)")
      { q with pending := q.pending.erase t }

/-- One turn of the eviction loop: drop the first task nobody is processing. -/
def evictOne (q : TaskQueue) : Option TaskQueue :=
  (q.pending.entries.find? fun e => e.1 ∉ q.processing).map fun e => q.evict e.1 e.2

/-- The eviction loop of `enqueue`, with the number of evicted tasks. -/
def evictOverflow (cap : ℕ) : ℕ → ℤ → TaskQueue → ℤ × TaskQueue
  | 0, evicted, q => (evicted, q)
  | fuel + 1, evicted, q =>
      if q.pending.length > cap then
        match evictOne q with
        | some q' => evictOverflow cap fuel (evicted + 1) q'
        | none => (evicted, q)
      else (evicted, q)

/-- The object `enqueue` constructs. -/
def newTask (t : TaskId) (text : String) (metadata contextId : Json) (createdAt : Time)
    (q : TaskQueue) : PendingTask :=
  ⟨q.objects.length, t, text, metadata, contextId, createdAt⟩

/-- Take a new object in: what `enqueue` does before it looks for an overflow. -/
def addPending (task : PendingTask) (q : TaskQueue) : TaskQueue :=
  { q with
    objects := q.objects ++ [task]
    cells := Function.update q.cells task.ref Cell.new
    pending := q.pending.set task.taskId task
    states := q.states.set task.taskId .submitted
    oldestPendingTime := some <|
      match q.oldestPendingTime with
      | none => task.createdAt
      | some oldest => min oldest task.createdAt }

/-- `enqueue` under given caps: the new task, or `none` for a full queue or an id
that is pending already.  `createdAt` is the clock reading of the `_PendingTask`
constructor. -/
def enqueueWithin (caps : Caps) (t : TaskId) (text : String) (metadata contextId : Json)
    (createdAt : Time) (q : TaskQueue) : Option PendingTask × TaskQueue :=
  if q.pending.length ≥ caps.maxPending then (none, q)
  else if t ∈ q.pending then (none, q)
  else
    let task := q.newTask t text metadata contextId createdAt
    let added := q.addPending task
    let (evicted, kept) := evictOverflow caps.taskCacheMax added.pending.length 0 added
    (some task, { kept with enqueueCount := kept.enqueueCount + (1 - evicted) })

/-- `enqueue` -/
def enqueue (t : TaskId) (text : String) (metadata contextId : Json) (createdAt : Time)
    (q : TaskQueue) : Option PendingTask × TaskQueue :=
  q.enqueueWithin .source t text metadata contextId createdAt

/-- `drain_pending` -/
def drainPending (exclude : List TaskId) (q : TaskQueue) : List PendingTask :=
  q.pending.values.filter fun task => task.taskId ∉ exclude ∧ task.taskId ∉ q.processing

/-- One task of `requeue_tasks`. -/
def requeue (q : TaskQueue) (task : PendingTask) : TaskQueue :=
  if task.taskId ∉ q.pending ∧ task.taskId ∉ q.processing then
    { q with
      pending := q.pending.set task.taskId task
      enqueueCount := q.enqueueCount + 1 }
  else q

/-- `requeue_tasks` -/
def requeueTasks (tasks : List PendingTask) (q : TaskQueue) : TaskQueue := tasks.foldl requeue q

/-- `mark_processing` -/
def markProcessing (t : TaskId) (q : TaskQueue) : TaskQueue :=
  if t ∈ q.pending then { q with processing := q.processing.insert t } else q

/-- What `complete` and `cancel` share: release the claim, take the task out of
the pending ones, file it under the completed ones with its new state and with
its mutable fields changed by `f`.  The first component is the task taken out. -/
def takeOut (t : TaskId) (state : TaskState) (f : Cell → Cell) (q : TaskQueue) :
    Option PendingTask × TaskQueue :=
  let released := { q with processing := q.processing.filter (· ≠ t) }
  match q.pending.get? t with
  | none => (none, released)
  | some task =>
      (some task,
        refreshOldest task <|
          modifyCell task.ref f
            { released with
              pending := q.pending.erase t
              completed := q.completed.set t task
              states := q.states.set t state })

/-- `while len(self._completed) > _TASK_CACHE_MAX: self._completed.popitem(last=False)` -/
def trimCompleted (cap : ℕ) (completed : OrderedDict TaskId PendingTask) :
    OrderedDict TaskId PendingTask :=
  OrderedDict.popFirst^[completed.length - cap] completed

/-- `complete` under given caps: a response that comes after the caller was sent
away is dropped. -/
def completeWithin (caps : Caps) (t : TaskId) (response : String) (q : TaskQueue) :
    Option PendingTask × TaskQueue :=
  match q.takeOut t .completed fun c => if c.returned then c else c.answer response with
  | (none, q') => (none, q')
  | (some task, q') =>
      (some task,
        { q' with
          completeCount := q'.completeCount + 1
          completed := trimCompleted caps.taskCacheMax q'.completed })

/-- `complete` -/
def complete (t : TaskId) (response : String) (q : TaskQueue) : Option PendingTask × TaskQueue :=
  q.completeWithin .source t response

/-- `cancel` -/
def cancel (t : TaskId) (q : TaskQueue) : Option PendingTask × TaskQueue :=
  match q.takeOut t .canceled (Cell.answer "(canceled)") with
  | (none, q') => (none, q')
  | (some task, q') => (some task, { q' with cancelCount := q'.cancelCount + 1 })

/-- `get_status`.  A task in the completed cache shows its response only where its
state was never recorded. -/
def getStatus (t : TaskId) (q : TaskQueue) : Except PyError Status :=
  if t.hashable then
    if t ∈ q.pending then .ok ⟨some ((q.states.get? t).getD .working), none⟩
    else
      match q.completed.get? t with
      | some task =>
          if (q.cells task.ref).response = some "(canceled)" then .ok ⟨some .canceled, none⟩
          else
            match q.states.get? t with
            | some state => .ok ⟨some state, none⟩
            | none =>
                match (q.cells task.ref).response with
                | some response => .ok ⟨some .completed, some (filterOutbound response)⟩
                | none => .error .typeError
      | none => .ok ⟨q.states.get? t, none⟩
  else .error .typeError

/-- `find_task_by_id` -/
def findTaskById (t : TaskId) (q : TaskQueue) : Except PyError (Option PendingTask) :=
  if t.hashable then .ok ((q.pending.get? t).or (q.completed.get? t)) else .error .typeError

/-- `get_task_metadata` -/
def getTaskMetadata (t : TaskId) (q : TaskQueue) : Json :=
  match (q.pending.get? t).or (q.completed.get? t) with
  | some task => task.metadata
  | none => .obj []

/-- `snapshot` -/
def snapshot (q : TaskQueue) : List (Time × PendingTask × Option TaskState) :=
  (q.pending.values ++ q.completed.values).map fun task =>
    (task.createdAt, task, q.states.get? task.taskId)

/-! ## What the operations do

For each operation, what it does to each field that a later operation reads. -/

section Enqueue

variable (q : TaskQueue) (t : TaskId) (text : String) (metadata contextId : Json) (createdAt : Time)

theorem evictOverflow_eq_self {q : TaskQueue} {cap : ℕ} (h : q.pending.length ≤ cap) (fuel : ℕ)
    (evicted : ℤ) : evictOverflow cap fuel evicted q = (evicted, q) := by
  cases fuel with
  | zero => rfl
  | succ fuel => rw [evictOverflow, if_neg (Nat.not_lt.mpr h)]

/-- **`enqueue` refuses, or adds and evicts.** -/
theorem enqueueWithin_cases (caps : Caps) :
    (q.enqueueWithin caps t text metadata contextId createdAt = (none, q) ∧
        (caps.maxPending ≤ q.pending.length ∨ t ∈ q.pending)) ∨
      (t ∉ q.pending ∧ q.pending.length < caps.maxPending ∧
        ∃ added evicted kept,
          added = q.addPending (q.newTask t text metadata contextId createdAt) ∧
          evictOverflow caps.taskCacheMax added.pending.length 0 added = (evicted, kept) ∧
          q.enqueueWithin caps t text metadata contextId createdAt =
            (some (q.newTask t text metadata contextId createdAt),
              { kept with enqueueCount := kept.enqueueCount + (1 - evicted) })) := by
  unfold enqueueWithin
  by_cases hfull : q.pending.length ≥ caps.maxPending
  · rw [if_pos hfull]
    exact Or.inl ⟨rfl, Or.inl hfull⟩
  rw [if_neg hfull]
  by_cases hmem : t ∈ q.pending
  · rw [if_pos hmem]
    exact Or.inl ⟨rfl, Or.inr hmem⟩
  rw [if_neg hmem]
  exact Or.inr ⟨hmem, Nat.not_le.mp hfull, _, _, _, rfl, rfl, rfl⟩

/-- **`enqueue` refuses or adds**; nothing is ever evicted to make room. -/
theorem enqueue_cases :
    (q.enqueue t text metadata contextId createdAt = (none, q) ∧
        (MAX_PENDING ≤ q.pending.length ∨ t ∈ q.pending)) ∨
      (t ∉ q.pending ∧ q.pending.length < MAX_PENDING ∧
        q.enqueue t text metadata contextId createdAt =
          (some (q.newTask t text metadata contextId createdAt),
            { q.addPending (q.newTask t text metadata contextId createdAt) with
              enqueueCount := q.enqueueCount + 1 })) := by
  rcases enqueueWithin_cases q t text metadata contextId createdAt .source with
    hno | ⟨hmem, hlt, added, evicted, kept, rfl, hevict, hyes⟩
  · exact Or.inl hno
  refine Or.inr ⟨hmem, hlt, hyes.trans ?_⟩
  have hlen : (q.addPending (q.newTask t text metadata contextId createdAt)).pending.length ≤
      Caps.source.taskCacheMax := by
    have := OrderedDict.length_set_le q.pending t (q.newTask t text metadata contextId createdAt)
    have : Caps.source.taskCacheMax = Caps.source.maxPending := rfl
    show (q.pending.set t _).length ≤ _
    omega
  rw [evictOverflow_eq_self hlen] at hevict
  obtain ⟨rfl, rfl⟩ := Prod.mk.inj hevict
  rfl

variable {q t text metadata contextId createdAt}

/-- The object `enqueue` answers with is the one it constructs. -/
theorem eq_newTask_of_enqueue {task : PendingTask}
    (h : (q.enqueue t text metadata contextId createdAt).1 = some task) :
    task = q.newTask t text metadata contextId createdAt := by
  rcases enqueue_cases q t text metadata contextId createdAt with ⟨hno, -⟩ | ⟨-, -, hyes⟩
  · rw [hno] at h
    cases h
  · rw [hyes] at h
    exact (Option.some.inj h).symm

theorem taskId_of_enqueue {task : PendingTask}
    (h : (q.enqueue t text metadata contextId createdAt).1 = some task) : task.taskId = t := by
  rw [eq_newTask_of_enqueue h]
  rfl

end Enqueue

section TakeOut

variable (t : TaskId) (state : TaskState) (f : Cell → Cell) (q : TaskQueue)

@[simp] theorem refreshOldest_objects (left : PendingTask) :
    (q.refreshOldest left).objects = q.objects := by unfold refreshOldest; split <;> rfl

@[simp] theorem refreshOldest_cells (left : PendingTask) :
    (q.refreshOldest left).cells = q.cells := by unfold refreshOldest; split <;> rfl

@[simp] theorem refreshOldest_pending (left : PendingTask) :
    (q.refreshOldest left).pending = q.pending := by unfold refreshOldest; split <;> rfl

@[simp] theorem refreshOldest_completed (left : PendingTask) :
    (q.refreshOldest left).completed = q.completed := by unfold refreshOldest; split <;> rfl

@[simp] theorem refreshOldest_processing (left : PendingTask) :
    (q.refreshOldest left).processing = q.processing := by unfold refreshOldest; split <;> rfl

@[simp] theorem refreshOldest_states (left : PendingTask) :
    (q.refreshOldest left).states = q.states := by unfold refreshOldest; split <;> rfl

@[simp] theorem takeOut_fst : (q.takeOut t state f).1 = q.pending.get? t := by
  unfold takeOut; split <;> simp_all

@[simp] theorem takeOut_objects : (q.takeOut t state f).2.objects = q.objects := by
  unfold takeOut; split <;> simp [modifyCell]

@[simp] theorem takeOut_processing :
    (q.takeOut t state f).2.processing = q.processing.filter (· ≠ t) := by
  unfold takeOut; split <;> simp [modifyCell]

theorem takeOut_pending (t' : TaskId) :
    (q.takeOut t state f).2.pending.get? t' = if t' = t then none else q.pending.get? t' := by
  unfold takeOut
  split
  · rename_i h
    by_cases ht : t' = t <;> simp [ht, h]
  · simp [modifyCell, OrderedDict.get?_erase]

theorem takeOut_completed (t' : TaskId) :
    (q.takeOut t state f).2.completed.get? t' =
      if t' = t then (q.pending.get? t).or (q.completed.get? t) else q.completed.get? t' := by
  unfold takeOut
  split
  · rename_i h
    by_cases ht : t' = t <;> simp [ht, h]
  · rename_i task h
    by_cases ht : t' = t <;> simp [modifyCell, OrderedDict.get?_set, ht, h]

theorem takeOut_states (t' : TaskId) :
    (q.takeOut t state f).2.states.get? t' =
      if t' = t ∧ t ∈ q.pending then some state else q.states.get? t' := by
  unfold takeOut
  split
  · rename_i h
    have hnot : t ∉ q.pending := OrderedDict.get?_eq_none_iff.mp h
    simp [hnot]
  · rename_i task h
    have hmem : t ∈ q.pending := OrderedDict.mem_of_get? h
    simp [modifyCell, OrderedDict.get?_set, hmem]

theorem takeOut_cells (ref : ℕ) :
    (q.takeOut t state f).2.cells ref =
      if (q.pending.get? t).map PendingTask.ref = some ref then f (q.cells ref)
      else q.cells ref := by
  unfold takeOut
  split
  · rename_i h
    simp [h]
  · rename_i task h
    by_cases hr : ref = task.ref
    · subst hr; simp [modifyCell, h]
    · have : task.ref ≠ ref := fun heq => hr heq.symm
      simp [modifyCell, h, hr, this]

end TakeOut

section Complete

variable (t : TaskId) (response : String) (q : TaskQueue)

/-- How `complete` changes the object it takes out. -/
def completeCell (response : String) (c : Cell) : Cell :=
  if c.returned then c else c.answer response

theorem get?_trimCompleted {cap : ℕ} {d : OrderedDict TaskId PendingTask} {t : TaskId}
    {task : PendingTask} (h : (trimCompleted cap d).get? t = some task) :
    d.get? t = some task := by
  unfold trimCompleted at h
  generalize d.length - cap = n at h
  induction n generalizing d with
  | zero => exact h
  | succ n ih =>
      rw [Function.iterate_succ_apply] at h
      exact OrderedDict.get?_of_get?_popFirst (ih h)

@[simp] theorem complete_fst : (q.complete t response).1 = q.pending.get? t := by
  rw [← takeOut_fst t .completed (completeCell response) q]
  unfold complete completeWithin completeCell
  split <;> simp_all

/-- Up to the counter and the trimmed cache, `complete` takes the task out. -/
theorem complete_snd :
    ∃ n d, (q.complete t response).2 =
        { (q.takeOut t .completed (completeCell response)).2 with
          completeCount := n
          completed := d } ∧
      ∀ {t' task}, d.get? t' = some task →
        (q.takeOut t .completed (completeCell response)).2.completed.get? t' = some task := by
  unfold complete completeWithin
  show ∃ n d, (match q.takeOut t .completed (completeCell response) with
    | (none, q') => _
    | (some task, q') => _ : Option PendingTask × TaskQueue).2 = _ ∧ _
  split
  · rename_i q' h
    exact ⟨_, _, by rw [h], id⟩
  · rename_i task q' h
    exact ⟨_, _, by rw [h], fun hd => by rw [h]; exact get?_trimCompleted hd⟩

@[simp] theorem cancel_fst : (q.cancel t).1 = q.pending.get? t := by
  rw [← takeOut_fst t .canceled (Cell.answer "(canceled)") q]
  unfold cancel
  split <;> simp_all

/-- Up to the counter, `cancel` takes the task out. -/
theorem cancel_snd :
    ∃ n, (q.cancel t).2 =
      { (q.takeOut t .canceled (Cell.answer "(canceled)")).2 with cancelCount := n } := by
  unfold cancel
  split
  · rename_i q' h
    exact ⟨_, by rw [h]⟩
  · rename_i task q' h
    exact ⟨_, by rw [h]⟩

end Complete

end TaskQueue

end HermesA2A
