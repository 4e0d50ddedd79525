import HermesA2A.Lib.Machine
import HermesA2A.TaskQueue
import HermesA2A.Persistence
import HermesA2A.Server.SendMessage

/-!
# The inbound path as a concurrent system

One task queue, one idempotency store and one clock, shared by any number of
HTTP handler threads, LLM hooks, webhook-failure callbacks and watchdog passes.

An `Op` is one atomic step: a lock-protected method of the queue or the store, or
one unprotected access to a field of a `_PendingTask`.  What happens between two
atomic steps of one thread is its own business, so a handler is a `Prog` over
them, written in the order of the source; `system` runs any number of these
programs in any interleaving.  The environment moves the clock.

### Answers that the source does not return

`complete` and `cancel` return nothing.  Here they answer with the task they took
out, so that a trace says which object left the queue when; no program looks at
that answer.

### Where the threads come from

A callback is a call of its own, to be started at any time, and so is every pass
of the watchdog and of the store's cleanup: the system has at least the
behaviours of the source, where some of them are started by another thread.
-/

namespace HermesA2A

/-- What the deployment fixes: the Unicode table, the payload digest, and
`_RESPONSE_TIMEOUT`. -/
structure Platform where
  table : CharTable
  digest : Json → String
  responseTimeout : Time

/-- The state all threads share. -/
structure World where
  queue : TaskQueue
  idem : IdempotencyStore
  clock : Time

/-- The state at start-up. -/
def World.init (clock : Time) : World := ⟨.empty, .empty, clock⟩

/-- The atomic steps. -/
inductive Op
  /-- `time.time()` -/
  | now
  | getStatus (t : TaskId)
  | findTaskById (t : TaskId)
  | enqueue (t : TaskId) (text : String) (metadata contextId : Json) (createdAt : Time)
  | drainPending
  | transition (t : TaskId) (toState : TaskState)
  | markProcessing (t : TaskId)
  | requeueTasks (tasks : List PendingTask)
  | complete (t : TaskId) (response : String)
  | cancel (t : TaskId)
  /-- `get_processing_tasks`; a set has no order of its own, so `turn` says where
  its iteration starts. -/
  | processingTasks (turn : ℕ)
  /-- `_trigger_state_change_hook`, which reaches neither queue nor store; the old
  state is what the caller says it was. -/
  | stateHook (t : TaskId) (oldState : String) (newState : TaskState) (contextId : Json)
  /-- `task.ready.wait`, until the event is set or the deadline has come. -/
  | awaitReady (task : PendingTask) (deadline : Time)
  /-- `task.response` -/
  | readResponse (task : PendingTask)
  /-- `task.response = …` -/
  | writeResponse (task : PendingTask) (response : String)
  /-- `task.ready.set()` -/
  | setReady (task : PendingTask)
  /-- `task._returned = True` -/
  | setReturned (task : PendingTask)
  /-- `task_queue._oldest_pending_time` -/
  | oldestPendingTime
  /-- `list(task_queue._pending.values())` -/
  | pendingTasks
  | checkConflict (key payload : Json)
  /-- `IdempotencyStore.get` -/
  | idemGet (key : Json)
  /-- `IdempotencyStore.set` -/
  | idemSet (key : Json) (t : TaskId) (payload result : Json)
  | evictExpired

/-- What an atomic step answers. -/
abbrev Op.Res : Op → Type
  | now => Time
  | getStatus _ => Except PyError Status
  | findTaskById _ => Except PyError (Option PendingTask)
  | enqueue .. => Option PendingTask
  | drainPending => List PendingTask
  | transition .. => Bool
  | markProcessing _ => Unit
  | requeueTasks _ => Unit
  | complete .. => Option PendingTask
  | cancel _ => Option PendingTask
  | processingTasks _ => List TaskId
  | stateHook .. => Unit
  | awaitReady .. => Unit
  | readResponse _ => Option String
  | writeResponse .. => Unit
  | setReady _ => Unit
  | setReturned _ => Unit
  | oldestPendingTime => Option Time
  | pendingTasks => List PendingTask
  | checkConflict .. => Except PyError Bool
  | idemGet _ => Except PyError (Option (TaskId × Json))
  | idemSet .. => Unit
  | evictExpired => Unit

/-! ### Steps -/

/-- What an atomic step does to the queue. -/
def Op.onQueue : Op → TaskQueue → TaskQueue
  | enqueue t text metadata contextId createdAt, q =>
      (q.enqueue t text metadata contextId createdAt).2
  | transition t toState, q => (q.transition t toState).2
  | markProcessing t, q => q.markProcessing t
  | requeueTasks tasks, q => q.requeueTasks tasks
  | complete t response, q => (q.complete t response).2
  | cancel t, q => (q.cancel t).2
  | writeResponse task response, q => q.modifyCell task.ref (Cell.write response)
  | setReady task, q => q.modifyCell task.ref Cell.setReady
  | setReturned task, q => q.modifyCell task.ref Cell.setReturned
  | _, q => q

/-- What an atomic step does to the idempotency store. -/
def Op.onStore (P : Platform) (clock : Time) : Op → IdempotencyStore → IdempotencyStore
  | checkConflict key payload, store => (store.checkConflict P.digest clock key payload).2
  | idemGet key, store => (store.get clock key).2
  | idemSet key t payload result, store => store.set P.digest clock key t payload result
  | evictExpired, store => store.evictExpired clock
  | _, store => store

/-- Does the step have to wait? -/
def Op.blocked (w : World) : Op → Bool
  | awaitReady task deadline => !(w.queue.cells task.ref).ready && decide (w.clock < deadline)
  | _ => false

/-- What an atomic step answers, in a state where it is not blocked. -/
def Op.answer (P : Platform) (w : World) : (o : Op) → o.Res
  | now => w.clock
  | getStatus t => w.queue.getStatus t
  | findTaskById t => w.queue.findTaskById t
  | enqueue t text metadata contextId createdAt =>
      (w.queue.enqueue t text metadata contextId createdAt).1
  | drainPending => w.queue.drainPending []
  | transition t toState => (w.queue.transition t toState).1
  | markProcessing _ => ()
  | requeueTasks _ => ()
  | complete t response => (w.queue.complete t response).1
  | cancel t => (w.queue.cancel t).1
  | processingTasks turn => w.queue.processing.rotate turn
  | stateHook .. => ()
  | awaitReady .. => ()
  | readResponse task => (w.queue.cells task.ref).response
  | writeResponse .. => ()
  | setReady _ => ()
  | setReturned _ => ()
  | oldestPendingTime => w.queue.oldestPendingTime
  | pendingTasks => w.queue.pending.values
  | checkConflict key payload => (w.idem.checkConflict P.digest w.clock key payload).1
  | idemGet key => (w.idem.get w.clock key).1
  | idemSet .. => ()
  | evictExpired => ()

/-- The state after an atomic step. -/
def Op.after (P : Platform) (o : Op) (w : World) : World :=
  { w with queue := o.onQueue w.queue, idem := o.onStore P w.clock w.idem }

/-- One atomic step. -/
def exec (P : Platform) (o : Op) (w : World) : Option (o.Res × World) :=
  if o.blocked w then none else some (o.answer P w, o.after P w)

theorem exec_eq_some_iff {P : Platform} {o : Op} {w w' : World} {r : o.Res} :
    exec P o w = some (r, w') ↔ o.blocked w = false ∧ r = o.answer P w ∧ w' = o.after P w := by
  unfold exec
  by_cases h : o.blocked w = true
  · simp [h]
  · simp [h, eq_comm]

/-! ### SendMessage -/

/-- A thread's program. -/
abbrev Proc (α : Type) := Prog Op Op.Res α

/-- Perform one atomic step. -/
abbrev act (o : Op) : Proc o.Res := Prog.perform o

/-- What `_prepare_and_enqueue` returns. -/
inductive Prepared
  | accepted (task : PendingTask)
  | refused (code : ℤ) (httpStatus : ℕ) (message : String)
  | replay (result : Json)

/-- The idempotency check of `_prepare_and_enqueue`; `none` lets the request
through. -/
def checkIdempotency (s : Submission) : Proc (Except PyError (Option Prepared)) :=
  if s.idemKey.truthy then do
    match ← act (.checkConflict s.idemKey s.payload) with
    | .error e => return .error e
    | .ok true =>
        return .ok <| some <| .refused A2A_ERR_NON_IDEMPOTENT 409
          ("Non-idempotent task: idempotency key '" ++ s.idemKey.display ++
            "' already used with a different payload")
    | .ok false => do
        match ← act (.idemGet s.idemKey) with
        | .error e => return .error e
        | .ok (some (_, result)) => return .ok (some (.replay result))
        | .ok none => return .ok none
  else return .ok none

/-- The task-id check and the `enqueue` of `_prepare_and_enqueue`. -/
def enqueueChecked (s : Submission) (userText : String) : Proc (Except PyError Prepared) := do
  match ← act (.findTaskById s.taskId) with
  | .error e => return .error e
  | .ok (some _) =>
      return .ok (.refused A2A_ERR_NON_IDEMPOTENT 409 "Task ID already in use")
  | .ok none => do
      let createdAt ← act .now
      match ← act (.enqueue s.taskId userText s.metadata s.contextId createdAt) with
      | none => return .ok (.refused (-32603) 503 "Agent busy — too many pending tasks")
      | some task => return .ok (.accepted task)

/-- `_prepare_and_enqueue`, for a submission whose origin is marked. -/
def prepareAndEnqueue (s : Submission) : Proc (Except PyError Prepared) := do
  match ← checkIdempotency s with
  | .error e => return .error e
  | .ok (some prepared) => return .ok prepared
  | .ok none => enqueueChecked s (sanitizeInbound s.userText)

/-- Wait for the worker, and read what it left: the second half of
`_enqueue_and_await_task`. -/
def awaitTask (P : Platform) (s : Submission) (stamp : Stamp) (task : PendingTask) :
    Proc (Except PyError Awaited) := do
  let start ← act .now
  act (.awaitReady task (start + P.responseTimeout))
  match ← act (.readResponse task) with
  | none => do
      act (.setReturned task)
      return .ok .timedOut
  | some _ => do
      -- the attribute is read a second time
      match ← act (.readResponse task) with
      | none => return .error .typeError
      | some response =>
          let result := buildTaskObject s.taskId "completed" task.contextId
            (some (filterOutbound response)) none stamp
          if s.idemKey.truthy then do
            act (.idemSet s.idemKey s.taskId s.payload result)
            return .ok (.answered result)
          else return .ok (.answered result)

/-- `_enqueue_and_await_task` -/
def enqueueAndAwaitTask (P : Platform) (s : Submission) (stamp : Stamp) :
    Proc (Except PyError Awaited) := do
  match ← prepareAndEnqueue s with
  | .error e => return .error e
  | .ok (.replay result) => return .ok (.answered result)
  | .ok (.refused code httpStatus message) =>
      return .ok (.refused ⟨httpStatus, rpcErrorBody code message s.rpcId⟩)
  | .ok (.accepted task) => awaitTask P s stamp task

/-- How a thread ends. -/
inductive Outcome
  /-- With these responses sent. -/
  | replied (responses : List HttpResponse)
  /-- With an exception. -/
  | raised (e : PyError)
  /-- `pre_llm_call`: with a context to inject, or with `{}`. -/
  | context (text : Option String)
  | done
  deriving DecidableEq

/-- The end of a handler. -/
def Outcome.ofExcept : Except PyError (List HttpResponse) → Outcome
  | .ok responses => .replied responses
  | .error e => .raised e

/-- `_handle_task_send` and `_rest_send_message`. -/
def sendMessage (P : Platform) (transport : Transport) (req : SendRequest) : Proc Outcome :=
  match planSend P.table transport req with
  | .error e => return .raised e
  | .ok (.answer _ task) => return .replied [replyEarly transport req task]
  | .ok (.submit s) => do
      match ← enqueueAndAwaitTask P s.markOrigin req.stamp with
      | .error e => return .raised e
      | .ok awaited => return .ofExcept (replySend transport req s.markOrigin awaited)

/-! ### GetTask and CancelTask -/

/-- The response with a Task of GetTask and CancelTask. -/
def taskResponse (transport : Transport) (rpcId task : Json) : HttpResponse :=
  match transport with
  | .jsonRpc => rpcResult (.obj [("task", task)]) rpcId
  | .rest => ⟨200, .obj [("task", task)]⟩

/-- The Task in a response of GetTask or CancelTask. -/
def taskInResponse? (transport : Transport) (response : HttpResponse) : Option Json :=
  match transport with
  | .jsonRpc => (response.body.field? "result").bind (·.field? "task")
  | .rest => response.body.field? "task"

/-- `_load_task_or_404`, when there is no such task. -/
def taskNotFound (t : TaskId) (rpcId : Json) : HttpResponse :=
  ⟨404, rpcErrorBody A2A_ERR_TASK_NOT_FOUND ("Task not found: " ++ t.display) rpcId⟩

/-- The reply of `_get_task_core` to a status. -/
def replyGetTask (transport : Transport) (t : TaskId) (rpcId : Json) (stamp : Stamp)
    (status : Status) : HttpResponse :=
  if status.state = none then taskNotFound t rpcId
  else
    taskResponse transport rpcId
      (buildTaskObject t status.name .null status.response none stamp)

/-- `_get_task_core` with its two callers. -/
def getTask (transport : Transport) (t : TaskId) (rpcId : Json) (stamp : Stamp) :
    Proc Outcome := do
  match ← act (.getStatus t) with
  | .error e => return .raised e
  | .ok status => return .replied [replyGetTask transport t rpcId stamp status]

/-- `_cancel_task_core` with its two callers.  `cancel_worker` works on the
registry of worker processes only. -/
def cancelTask (transport : Transport) (t : TaskId) (rpcId : Json) (stamp : Stamp) :
    Proc Outcome := do
  match ← act (.getStatus t) with
  | .error e => return .raised e
  | .ok status =>
      if status.state = none then return .replied [taskNotFound t rpcId]
      else if status.state ∈ [some .completed, some .failed, some .canceled] then
        return .replied
          [⟨409, rpcErrorBody A2A_ERR_TASK_NOT_CANCELABLE
            ("Task not cancelable: task is " ++ status.name) rpcId⟩]
      else do
        let _ ← act (.cancel t)
        return .replied
          [taskResponse transport rpcId (buildTaskObject t "canceled" .null none none stamp)]

/-! ### The LLM hooks -/

/-- The context `pre_llm_call` injects. -/
def triggerContext (t : TaskId) (sender : Json) (text : String) : String :=
  "[A2A trigger]<" ++ t.display ++ ">|<" ++ sender.display ++ ">|" ++ text ++
    "\nUse the tools above to respond to this inbound A2A task."

/-- `pre_llm_call`.  Nothing in its `try` block raises. -/
def preLlmCall : Proc Outcome := do
  match ← act .drainPending with
  | [] => return .context none
  | task :: rest =>
      match task.metadata.get "sender_name" (.str "unknown") with
      | .error e => return .raised e
      | .ok sender => do
          let _ ← act (.transition task.taskId .working)
          act (.markProcessing task.taskId)
          act (.stateHook task.taskId TaskState.submitted.name .working task.contextId)
          let context := triggerContext task.taskId sender task.text
          match rest with
          | [] => return .context (some context)
          | next :: rest => do
              act (.requeueTasks (next :: rest))
              return .context (some context)

/-- The part of `post_llm_call` that completes a task. -/
def completeTask (t : TaskId) (response : String) : Proc Outcome := do
  match ← act (.getStatus t) with
  | .error e => return .raised e
  | .ok status => do
      let _ ← act (.complete t response)
      act (.stateHook t status.name .completed t)
      return .done

/-- `post_llm_call`, for the task id it was given or else for a task being
processed. -/
def postLlmCall (taskId : Json) (response : String) (turn turn' : ℕ) : Proc Outcome :=
  if response = "" then return .done
  else if taskId.truthy then completeTask taskId response
  else do
    match ← act (.processingTasks turn) with
    | [] => afterwards
    | t :: _ => if t.truthy then completeTask t response else afterwards
where
  /-- No target, or one that is falsy: the first task being processed. -/
  afterwards : Proc Outcome := do
    match ← act (.processingTasks turn') with
    | [] => return .done
    | t :: _ => completeTask t response

/-! ### Background threads -/

/-- Answer a task nobody has answered: what the callback and the watchdog do to
one task. -/
def answerUnanswered (task : PendingTask) (text : String) : Proc Unit := do
  match ← act (.readResponse task) with
  | some _ => return ()
  | none => do
      act (.writeResponse task text)
      act (.setReady task)

/-- `_on_webhook_failure` -/
def webhookFailure (t : TaskId) : Proc Outcome := do
  match ← act (.findTaskById t) with
  | .error e => return .raised e
  | .ok none => return .done
  | .ok (some task) => do
      answerUnanswered task "(webhook delivery failed)"
      return .done

/-- The watchdog's loop over the pending tasks. -/
def markOrphans (cutoff : Time) : List PendingTask → Proc Outcome
  | [] => return .done
  | task :: tasks =>
      if task.createdAt < cutoff then do
        answerUnanswered task "(orphaned — no response)"
        markOrphans cutoff tasks
      else markOrphans cutoff tasks

/-- One pass of the orphan watchdog.  The oldest time is read twice, and the
comparison raises if it has become `None` in between. -/
def watchdogPass (P : Platform) : Proc Outcome := do
  let now ← act .now
  let cutoff := now - 2 * P.responseTimeout
  match ← act .oldestPendingTime with
  | none => scan cutoff
  | some _ => do
      match ← act .oldestPendingTime with
      | none => return .raised .typeError
      | some oldest => if oldest ≥ cutoff then return .done else scan cutoff
where
  /-- The full scan. -/
  scan (cutoff : Time) : Proc Outcome := do
    let tasks ← act .pendingTasks
    markOrphans cutoff tasks

/-! ### The system -/

/-- What a thread can be started for. -/
inductive Call
  | sendMessage (transport : Transport) (req : SendRequest)
  | getTask (transport : Transport) (t : TaskId) (rpcId : Json) (stamp : Stamp)
  | cancelTask (transport : Transport) (t : TaskId) (rpcId : Json) (stamp : Stamp)
  | preLlmCall
  | postLlmCall (taskId : Json) (response : String) (turn turn' : ℕ)
  | webhookFailure (t : TaskId)
  | watchdogPass
  | evictExpired

/-- The program of a call. -/
def Call.prog (P : Platform) : Call → Proc Outcome
  | sendMessage transport req => HermesA2A.sendMessage P transport req
  | getTask transport t rpcId stamp => HermesA2A.getTask transport t rpcId stamp
  | cancelTask transport t rpcId stamp => HermesA2A.cancelTask transport t rpcId stamp
  | preLlmCall => HermesA2A.preLlmCall
  | postLlmCall taskId response turn turn' => HermesA2A.postLlmCall taskId response turn turn'
  | webhookFailure t => HermesA2A.webhookFailure t
  | watchdogPass => HermesA2A.watchdogPass P
  | evictExpired => do
      act .evictExpired
      return .done

/-- Let time pass. -/
def tick (d : ℕ) (w : World) : World := { w with clock := w.clock + d }

/-- The inbound path. -/
def system (P : Platform) : Machine Op Op.Res World ℕ Call Outcome where
  exec := exec P
  env := tick
  prog := Call.prog P

/-- A configuration of the inbound path. -/
abbrev Config := Machine.Config Op Op.Res World Call Outcome

/-- A condition on the atomic steps of a run, decided before the step. -/
abbrev Test := Config → ℕ → Op → Bool

/-- The runs all of whose steps meet the condition are those of this guard. -/
abbrev Allows (test : Test) : Machine.Guard Op Op.Res World Call Outcome :=
  fun c i o => test c i o = true

/-- Every step allowed. -/
def anyStep : Test := fun _ _ _ => true

theorem anyStep_eq_true (c : Config) (i : ℕ) (o : Op) : anyStep c i o = true := rfl

/-! ### Fixed inputs -/

/-- A deployment for runs on fixed inputs: ASCII names, the dumped payload as its
own digest, the source's default time-out. -/
def Platform.sample : Platform where
  table := ⟨Char.isAlphanum, fun _ _ => rfl⟩
  digest := Json.dumps
  responseTimeout := 120

/-- A message with one text part, from the address `10.0.0.1`. -/
def SendRequest.sample (fields : List (String × Json)) (text : String) : SendRequest where
  body := .obj <| fields ++
    [("message", .obj [("parts", .arr [.obj [("text", .str text)]])])]
  clientIp := "10.0.0.1"
  rpcId := .int 1
  uuid := "uuid-1"
  stamp := Stamp.sample
  workerUuid := "uuid-2"
  worker := .failed ""

/-- The configuration before any call. -/
def Config.sample : Config := Machine.start (World.init 0)

/-- Scheduling decisions of the inbound path. -/
abbrev Move := Machine.Move ℕ Call

/-- Carry out a schedule in the sample deployment. -/
def playSample (test : Test) (moves : List Move) (c : Config) : Option Config :=
  (system Platform.sample).play test moves c

/-- To show that some run gets somewhere, run a schedule. -/
theorem exists_of_playSample {test : Test} {moves : List Move} {c : Config} {p : Config → Bool}
    (h : (playSample test moves c).any p = true) :
    ∃ c', Relation.ReflTransGen ((system Platform.sample).Step (Allows test)) c c' ∧ p c' = true :=
  Machine.exists_of_play (fun _ _ _ h => h) h

/-- The configuration in which these calls have been started and nothing more. -/
def Config.calling (calls : List Call) : Config where
  shared := World.init 0
  threads := calls.map fun x => (x, x.prog Platform.sample)
  trace := []

theorem reaches_calling {test : Test} (calls : List Call) :
    (system Platform.sample).Reaches (Allows test) (World.init 0) (Config.calling calls) := by
  induction calls using List.reverseRecOn with
  | nil => exact .refl
  | append_singleton calls x ih =>
      have heq : Config.calling (calls ++ [x]) =
          (Config.calling calls).called x (x.prog Platform.sample) := by
        simp [Config.calling]
      rw [heq]
      exact .tail ih (.call _ x)

/-- A schedule of started calls is a run in which they are the first threads. -/
theorem exists_of_playCalls {test : Test} {moves : List Move} {calls : List Call}
    {p : Config → Bool} (h : (playSample test moves (Config.calling calls)).any p = true) :
    ∃ c, (system Platform.sample).Reaches (Allows test) (World.init 0) c ∧
      (∀ i x, calls[i]? = some x → c.Calls i x) ∧ p c = true := by
  obtain ⟨c, hsteps, hp⟩ := exists_of_playSample h
  refine ⟨c, (reaches_calling calls).trans hsteps, fun i x hx => ?_, hp⟩
  refine Machine.calls_of_steps hsteps ⟨x.prog Platform.sample, ?_⟩
  show (calls.map _)[i]? = _
  rw [List.getElem?_map, hx]
  rfl

end HermesA2A
