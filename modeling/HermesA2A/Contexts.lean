import HermesA2A.QueueSteps
import HermesA2A.Responses
import HermesA2A.Streaming

/-!
# Which context a task is told with

A task is enqueued with a context id, and whoever hears of the task should hear of that
context.  Each builder of a Task or an event has its own argument for it, and where a caller
passes none the builder takes the task id instead.

`ServerOp.tells` has what a step says: which tasks it names, each with the context it gives
for it.  `ContextsStable` says of a trace that each is the context the task was enqueued with.

Some call sites do not ask the queue.  `ServerCall.FallsBackTo` lists them: the context a call
gives a task there depends on the request alone.  All others work on what the queue or the
idempotency store has answered; `ContextRecord` is what these answers owe to them
(`OnRecord.after`), and `ContextConduct` goes through the programs.
-/

namespace HermesA2A

/-! ### What is said about tasks -/

/-- The task that a Task or an event names, with the context it gives, if it gives one. -/
def named (id context : String) (j : Json) : List (TaskId × Option Json) :=
  ((j.field? id).map fun t => (t, j.field? context)).toList

/-- What a Task names. -/
abbrev namedByTask (task : Json) : List (TaskId × Option Json) := named "id" "context_id" task

/-- What the payload of an event names. -/
abbrev namedByEvent (payload : Json) : List (TaskId × Option Json) :=
  named "taskId" "contextId" payload

/-- The Tasks in a response: one or a page under `task`, in the JSON-RPC `result` if there is
one, or else the body itself, if it has artifacts. -/
def tasksSent (body : Json) : List Json :=
  let inner := (body.field? "result").getD body
  match inner.field? "task" with
  | some (.arr tasks) => tasks
  | some task => [task]
  | none => if (inner.field? "artifacts").isSome then [inner] else []

/-- **What a step says about tasks.**  A message that was pushed is said when it is pushed. -/
def ServerOp.tells : ServerOp → List (TaskId × Option Json)
  | send response => (tasksSent response.body).flatMap namedByTask
  | pushEvent _ event => namedByEvent (event.payload "")
  | sendLine _ (.status _ _ payload) => namedByEvent payload
  | deliver _ payload _ => namedByEvent ((payload.field? "artifact_update").getD payload)
  | _ => []

/-- An event names its task, whenever it is written. -/
theorem namedByEvent_payload (e : SseEvent) (timestamp : String) :
    namedByEvent (e.payload timestamp) = [(e.taskId, some (e.contextId.orElse e.taskId))] := by
  unfold SseEvent.payload
  cases e.kind <;> rfl

/-- Its number does not matter. -/
theorem namedByEvent_stamp (stream : SseStream) (e : SseEvent) (timestamp : String) :
    namedByEvent ((stream.stamp e).payload timestamp) = namedByEvent (e.payload "") := by
  rw [namedByEvent_payload, namedByEvent_payload]
  unfold SseStream.stamp
  split <;> rfl

/-- A Task put together by hand names no context. -/
theorem namedByTask_plainTask (t : Json) (state : String) (text : Json) :
    namedByTask (plainTask [("id", t)] state text) = [(t, none)] := rfl

/-- A response with one Task. -/
theorem tasksSent_task {body task : Json}
    (h : ((body.field? "result").getD body).field? "task" = some task)
    (hnot : ∀ tasks, task ≠ .arr tasks) : tasksSent body = [task] := by
  unfold tasksSent
  dsimp only
  rw [h]
  cases task with
  | arr tasks => exact absurd rfl (hnot tasks)
  | _ => rfl

/-- A notice is about no task. -/
theorem tasksSent_notice (notice : Notice) : tasksSent notice.json = [] := by
  unfold tasksSent
  simp only [notice.taskless "result" (by simp), notice.taskless "task" (by simp),
    notice.taskless "artifacts" (by simp), Option.getD_none, Option.isSome_none,
    Bool.false_eq_true, if_false]

/-! ### The contexts of a run -/

/-- The trace of the server. -/
abbrev ServerTrace := List (ℕ × ServerEvent)

/-- The context that a step has enqueued the task with. -/
def contextGiven? (t : TaskId) : ServerEvent → Option Json
  | ⟨.base (.enqueue t' _ _ c _), some _⟩ => if t' = t then some c else none
  | _ => none

/-- The contexts that the task has been enqueued with: one, as long as ids are not reused. -/
def contextsOf (trace : ServerTrace) (t : TaskId) : List Json :=
  trace.filterMap fun e => contextGiven? t e.2

/-- The task has been enqueued with this context. -/
def EnqueuedAs (trace : ServerTrace) (t : TaskId) (c : Json) : Prop := c ∈ contextsOf trace t

/-- The Task has been stored under this idempotency key. -/
def StoredUnder (trace : ServerTrace) (key task : Json) : Prop :=
  ∃ i t payload, (i, (⟨.base (.idemSet key t payload task), ()⟩ : ServerEvent)) ∈ trace

/-- The context is one the task was enqueued with, if it was enqueued at all. -/
def Agrees (enqueued : TaskId → Json → Prop) (t : TaskId) (context : Option Json) : Prop :=
  (∃ c, enqueued t c) → ∃ c, enqueued t c ∧ context = some c

/-- **Every task is told with the context it was enqueued with**: by each step, as things
are then; and a message that is sent as it was pushed says what was said then. -/
structure ContextsStable (trace : ServerTrace) : Prop where
  told : ∀ before e after, trace = before ++ e :: after →
    ∀ p ∈ e.2.op.tells, Agrees (EnqueuedAs before) p.1 p.2
  relayed : ∀ i id event timestamp written,
    (i, (⟨.sendLine id (.pushed event timestamp), written⟩ : ServerEvent)) ∈ trace →
      ∃ j e pushed, (j, (⟨.pushEvent id e, pushed⟩ : ServerEvent)) ∈ trace ∧
        (ServerOp.pushEvent id e).tells = namedByEvent (event.payload timestamp)

/-! ### Where the queue is not asked -/

/-- The JSON-RPC method that a request asks for. -/
def HttpRequest.AsksFor (req : HttpRequest) (m : RpcMethod) (params rpcId : Json) : Prop :=
  req.postRoute = .jsonRpc ∧ ∃ body, req.body = some body ∧
    readRpc body = .ok (.method m params rpcId)

/-- **The fallbacks**: where a call names a task with a context that it has from nowhere but
the request, or with none at all. -/
inductive ServerCall.FallsBackTo (site : Site) (trace : ServerTrace) :
    ServerCall → TaskId → Option Json → Prop
  /-- `_get_task_core` passes no context. -/
  | getTask {req : HttpRequest} {t : String} (route : req.getRoute = .getTask t) :
      FallsBackTo site trace (.get req) (.str t) (some (.str t))
  /-- `_stream_task_sse` passes none. -/
  | subscribe {req : HttpRequest} {t : String} (route : req.getRoute = .subscribe t) :
      FallsBackTo site trace (.get req) (.str t) (some (.str t))
  /-- `_cancel_task_core` passes none. -/
  | cancelTask {req : HttpRequest} {t : String} (route : req.postRoute = .cancel t) :
      FallsBackTo site trace (.post req) (.str t) (some (.str t))
  /-- The same over JSON-RPC. -/
  | method {req : HttpRequest} {m : RpcMethod} {params rpcId t : Json}
      (asks : req.AsksFor m params rpcId)
      (unasked : m = .getTask ∨ m = .cancelTask ∨ m = .subscribeToTask) :
      FallsBackTo site trace (.post req) t (some t)
  /-- `post_llm_call` passes the task id. -/
  | completed {taskId : Json} {response : String} {turn turn' : ℕ} {t : TaskId} :
      FallsBackTo site trace (.postLlmCall taskId response turn turn') t (some t)
  /-- `_rest_send_message` answers with Tasks without a context. -/
  | restSend {req : HttpRequest} {t : TaskId} (route : req.postRoute = .send) :
      FallsBackTo site trace (.post req) t none
  /-- So does `_rest_send_message_stream`, for an empty message. -/
  | restStream {req : HttpRequest} {body task : Json} {exit : EarlyExit}
      (route : req.postRoute = .stream) (read : req.body = some body)
      (plan : planRestSend site.platform.table (req.message body .null) = .ok (.answer exit task)) :
      FallsBackTo site trace (.post req) (.str req.uuid) none
  /-- `_handle_task_send` answers by itself. -/
  | answered {req : HttpRequest} {params rpcId task : Json} {exit : EarlyExit} {t : TaskId}
      {context : Option Json} (asks : req.AsksFor .sendMessage params rpcId)
      (plan : planTaskSend site.platform.table (req.message params rpcId) =
        .ok (.answer exit task))
      (names : (t, context) ∈ namedByTask task) :
      FallsBackTo site trace (.post req) t context
  /-- `_handle_task_send` delivers artifacts under the request's own context. -/
  | submitted {req : HttpRequest} {params rpcId : Json} {s : Submission}
      (asks : req.AsksFor .sendMessage params rpcId)
      (plan : planTaskSend site.platform.table (req.message params rpcId) = .ok (.submit s)) :
      FallsBackTo site trace (.post req) s.taskId (some s.contextId)
  /-- `_stream_cached_result` puts the request's context for a falsy id. -/
  | replayed {req : HttpRequest} {body cached t c : Json} {s : Submission}
      (route : req.postRoute = .stream) (read : req.body = some body)
      (plan : planRestSend site.platform.table (req.message body .null) = .ok (.submit s))
      (stored : StoredUnder trace s.idemKey cached) (id : cached.field? "id" = some t)
      (falsy : t.truthy = false) (context : cached.field? "context_id" = some c) :
      FallsBackTo site trace (.post req) s.contextId (some (c.orElse s.contextId))

/-- **No fallback goes wrong**: a step names no enqueued task by a fallback, unless what the
call falls back to is a context of the task. -/
def FallsBackRightly (site : Site) :
    Machine.Guard ServerOp ServerOp.Res ServerState ServerCall ServerOutcome :=
  fun b i o => ∀ x, b.Calls i x → ∀ t ∈ o.tells.map Prod.fst, ∀ context,
    x.FallsBackTo site b.trace t context → Agrees (EnqueuedAs b.trace) t context

/-! ### What is on record -/

/-- What the answers of a run are about: which tasks were enqueued with which context, which
Tasks were stored under which key, and which messages were put into a buffer. -/
structure ContextRecord where
  enqueued : TaskId → Json → Prop
  /-- A context is empty only where the task id is. -/
  own : ∀ t c, enqueued t c → c.orElse t = c
  stored : Json → Json → Prop
  buffered : StreamId → SseLine → Prop
  /-- Only what is pushed gets into a buffer. -/
  pushed : ∀ id line, buffered id line → line.isPushed = true

namespace ContextRecord

variable (R : ContextRecord)

/-- The Task has the context its task was enqueued with. -/
def Filed (task : Json) : Prop :=
  ∃ t c, R.enqueued t c ∧ task.field? "id" = some t ∧ task.field? "context_id" = some c

/-- The object has the context it was enqueued with. -/
def Knows (task : PendingTask) : Prop := R.enqueued task.taskId task.contextId

/-- What a step leaves on record. -/
def Records : ServerEvent → Prop
  | ⟨.base (.enqueue t _ _ c _), some _⟩ => c.orElse t = c → R.enqueued t c
  | ⟨.base (.idemSet key _ _ task), _⟩ => R.stored key task
  | ⟨.pushEvent id event, _⟩ => ∀ line : SseLine, line.isPushed = true →
      namedByEvent line.payload = namedByEvent (event.payload "") → R.buffered id line
  | _ => True

/-- What the inbound path relies on. -/
def GoodOp : (o : Op) → o.Res → Prop
  | .enqueue t _ _ c _, answer =>
      ∀ task, answer = some task → task.contextId = c ∧ R.enqueued t c
  | .drainPending, tasks => ∀ task ∈ tasks, R.Knows task
  | .findTaskById t, answer => ∀ task, answer = .ok (some task) → R.enqueued t task.contextId
  | .idemGet key, answer =>
      ∀ t task, answer = .ok (some (t, task)) → R.Filed task ∧ R.stored key task
  | _, _ => True

/-- What the handlers rely on. -/
def Good : (o : ServerOp) → o.Res → Prop
  | .base o, answer => R.GoodOp o answer
  | .snapshot, page => ∀ e ∈ page, R.Knows e.2.1
  | .pushEvent _ event, pushed =>
      namedByEvent (pushed.event.payload "") = namedByEvent (event.payload "")
  | .getPending id, lines => ∀ line ∈ lines, R.buffered id line
  | _, _ => True

/-- A context that is on record, or one that a call falls back to. -/
def May (fallback : TaskId → Option Json → Prop) (t : TaskId) (context : Option Json) : Prop :=
  (∃ c, R.enqueued t c ∧ context = some c) ∨ fallback t context

/-- What a step of the inbound path owes. -/
def KeepsOp (fallback : TaskId → Option Json → Prop) : Op → Prop
  | .enqueue t _ _ c _ => c.orElse t = c
  | .requeueTasks tasks => ∀ task ∈ tasks, R.Knows task
  | .idemSet _ _ _ task => R.Filed task
  | .stateHook t _ _ c => R.May fallback t (some (c.orElse t))
  | _ => True

/-- What a step leaves behind for others. -/
def KeepsShared (fallback : TaskId → Option Json → Prop) : ServerOp → Prop
  | .base o => R.KeepsOp fallback o
  | .sendLine id line => line.isPushed = true → R.buffered id line
  | _ => True

/-- **The steps of a thread that falls back to no more than `fallback`.** -/
structure Keeps (fallback : TaskId → Option Json → Prop) (o : ServerOp) : Prop where
  shared : R.KeepsShared fallback o
  tells : ∀ p ∈ o.tells, R.May fallback p.1 p.2

/-- The shared state has on record what it holds. -/
structure Holds (s : ServerState) : Prop where
  pending : ∀ t task, s.world.queue.pending.get? t = some task → task.taskId = t ∧ R.Knows task
  completed : ∀ t task,
    s.world.queue.completed.get? t = some task → task.taskId = t ∧ R.Knows task
  stored : ∀ key entry, OrderedDict.get? s.world.idem key = some entry →
    R.Filed entry.result ∧ R.stored key entry.result
  buffers : ∀ id stream, s.streams.streams.get? id = some stream →
    ∀ line ∈ stream.pending, R.buffered id line

/-! ### What is held stays on record -/

variable {R} {fallback : TaskId → Option Json → Prop} {s : ServerState} {site : Site}

theorem May.known {t : TaskId} {c : Json} (h : R.enqueued t c) :
    R.May fallback t (some (c.orElse t)) := by
  rw [R.own t c h]
  exact Or.inl ⟨c, h, rfl⟩

/-- A step that names no task. -/
theorem Keeps.silent {o : ServerOp} (htells : o.tells = []) (hshared : R.KeepsShared fallback o) :
    R.Keeps fallback o := by
  refine ⟨hshared, ?_⟩
  rw [htells]
  exact List.forall_mem_nil _

/-- Nothing is held at the start. -/
theorem holds_init (clock : Time) : R.Holds (ServerState.init clock) where
  pending t task h := by cases (OrderedDict.get?_empty t).symm.trans h
  completed t task h := by cases (OrderedDict.get?_empty t).symm.trans h
  stored key entry h := by cases (OrderedDict.get?_empty key).symm.trans h
  buffers id stream h := by cases (OrderedDict.get?_empty id).symm.trans h

/-- The surroundings touch none of it. -/
theorem Holds.move (h : R.Holds s) (e : ServerEnv) : R.Holds (e.move s) := by
  cases e with
  | tick d => exact ⟨h.pending, h.completed, h.stored, h.buffers⟩
  | hangUp id => exact ⟨h.pending, h.completed, h.stored, h.buffers⟩

/-- What is accepted has the id and the context it was enqueued with. -/
theorem fields_of_enqueue {q : TaskQueue} {t : TaskId} {text : String} {metadata c : Json}
    {createdAt : Time} {task : PendingTask}
    (h : (q.enqueue t text metadata c createdAt).1 = some task) :
    task.taskId = t ∧ task.contextId = c := by
  rcases TaskQueue.enqueue_cases q t text metadata c createdAt with ⟨hno, -⟩ | ⟨-, -, hyes⟩
  · rw [hno] at h
    cases h
  · rw [hyes] at h
    obtain rfl := Option.some.inj h
    exact ⟨rfl, rfl⟩

/-- An accepted task is on record. -/
theorem knows_of_accepts {o : Op} {task : PendingTask} (hkeeps : R.Keeps fallback (.base o))
    (hrec : R.Records ⟨.base o, (ServerOp.base o).answer site s⟩)
    (hacc : o.Accepts s.world.queue task) : R.Knows task := by
  obtain ⟨t, text, metadata, c, createdAt, rfl, hanswer⟩ := hacc
  obtain ⟨ht, hc⟩ := fields_of_enqueue hanswer
  unfold Knows
  rw [ht, hc]
  have hres : (ServerOp.base (.enqueue t text metadata c createdAt)).answer site s = some task :=
    hanswer
  rw [hres] at hrec
  exact hrec hkeeps.shared

/-- **A step that keeps the record leaves a state that has it.** -/
theorem Holds.after {o : ServerOp} (h : R.Holds s) (hkeeps : R.Keeps fallback o)
    (hrec : R.Records ⟨o, o.answer site s⟩) : R.Holds (o.after site s) := by
  refine ⟨fun t task hget => ?_, fun t task hget => ?_, fun key entry hget => ?_,
    fun id stream hget line hline => ?_⟩
  · cases o with
    | base o =>
        rcases pending_arrives hget with hold | ⟨-, ht, hacc | ⟨tasks, rfl, hmem⟩⟩
        · exact h.pending t task hold
        · exact ⟨ht, knows_of_accepts hkeeps hrec hacc⟩
        · exact ⟨ht, hkeeps.shared task hmem⟩
    | _ => exact h.pending t task hget
  · cases o with
    | base o =>
        rcases completed_onQueue hget with hold | ⟨hpending, -⟩
        · exact h.completed t task hold
        · exact h.pending t task hpending
    | _ => exact h.completed t task hget
  · cases o with
    | base o =>
        rcases entry_of_onStore hget with hold | ⟨t, payload, rfl⟩
        · exact h.stored key entry hold
        · exact ⟨hkeeps.shared, hrec⟩
    | _ => exact h.stored key entry hget
  · rcases pending_of_onStreams hget hline with ⟨before, hbefore, hline⟩ |
      ⟨e, timestamp, before, rfl, hline'⟩
    · exact h.buffers id before hbefore line hline
    · rw [hline']
      exact hrec (.pushed _ timestamp) rfl (namedByEvent_stamp before e timestamp)

/-- Whoever is in the queue is on record. -/
theorem Holds.knows {t : TaskId} {task : PendingTask} (h : R.Holds s)
    (hget : (s.world.queue.pending.get? t).or (s.world.queue.completed.get? t) = some task) :
    task.taskId = t ∧ R.Knows task := by
  rcases Option.or_eq_some_iff.mp hget with hpending | ⟨-, hcompleted⟩
  · exact h.pending t task hpending
  · exact h.completed t task hcompleted

/-- The same of a list of values. -/
theorem knows_of_mem_values {d : OrderedDict TaskId PendingTask} {task : PendingTask}
    (hd : ∀ t task, d.get? t = some task → task.taskId = t ∧ R.Knows task)
    (hmem : task ∈ d.values) : R.Knows task := by
  obtain ⟨t, hget⟩ := OrderedDict.mem_values_iff_get?.mp hmem
  exact (hd t task hget).2

/-- **What is answered is on record.** -/
theorem good_of_holds {o : ServerOp} (h : R.Holds s) (hkeeps : R.Keeps fallback o)
    (hrec : R.Records ⟨o, o.answer site s⟩) : R.Good o (o.answer site s) := by
  cases o with
  | base o =>
      cases o with
      | enqueue t text metadata c createdAt =>
          intro task hanswer
          have hacc : (Op.enqueue t text metadata c createdAt).Accepts s.world.queue task :=
            ⟨t, text, metadata, c, createdAt, rfl, hanswer⟩
          have hknows := knows_of_accepts hkeeps hrec hacc
          obtain ⟨rfl, rfl⟩ := fields_of_enqueue hanswer
          exact ⟨rfl, hknows⟩
      | drainPending =>
          intro task hmem
          exact knows_of_mem_values h.pending (List.mem_filter.mp hmem).1
      | findTaskById t =>
          intro task hanswer
          change s.world.queue.findTaskById t = _ at hanswer
          unfold TaskQueue.findTaskById at hanswer
          split_ifs at hanswer
          obtain ⟨rfl, hknows⟩ := h.knows (Except.ok.inj hanswer)
          exact hknows
      | idemGet key =>
          intro t result hanswer
          change (s.world.idem.get s.world.clock key).1 = _ at hanswer
          unfold IdempotencyStore.get at hanswer
          split_ifs at hanswer
          obtain ⟨entry, hlive, heq⟩ := Option.map_eq_some_iff.mp (Except.ok.inj hanswer)
          obtain ⟨-, rfl⟩ := Prod.mk.inj heq
          exact h.stored key entry (IdempotencyStore.live?_eq_some_iff.mp hlive).1
      | _ => exact trivial
  | snapshot =>
      intro e hmem
      obtain ⟨task, htask, rfl⟩ := List.mem_map.mp hmem
      rcases List.mem_append.mp htask with hpending | hcompleted
      · exact knows_of_mem_values h.pending hpending
      · exact knows_of_mem_values h.completed hcompleted
  | pushEvent id event =>
      change namedByEvent ((s.streams.pushEvent _ _ id event).1.event.payload "") = _
      unfold SseStreamer.pushEvent
      split
      · rfl
      · exact namedByEvent_stamp _ event ""
  | getPending id =>
      intro line hline
      change line ∈ (s.streams.getPending id).1 at hline
      unfold SseStreamer.getPending at hline
      split at hline
      · cases hline
      · rename_i stream hstream
        exact h.buffers id stream hstream line hline
  | _ => exact trivial

end ContextRecord

end HermesA2A
