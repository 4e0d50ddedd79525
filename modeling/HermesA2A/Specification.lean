import HermesA2A.System

/-!
# What each thread does

The programs of `System` on their own, as statements about their histories: which
steps a thread can perform after what (`Call.pre`), and with what history and how
it can end (`Call.post`).  `Call.meets` proves both for every call; from here on no
proof looks into a program.

A SendMessage thread that reaches the queue goes through a fixed sequence of steps
and leaves it at one of nine places; `SendEnds` has one constructor for each.
-/

namespace HermesA2A

/-- One performed step. -/
abbrev Event := Act Op Op.Res

/-- The call is a SendMessage whose handler goes on to the queue with `s`. -/
def Call.Submits (P : Platform) (x : Call) (transport : Transport) (req : SendRequest)
    (s : Submission) : Prop :=
  x = .sendMessage transport req ∧
    ∃ s₀, planSend P.table transport req = .ok (.submit s₀) ∧ s = s₀.markOrigin

section Send

variable (P : Platform) (transport : Transport) (req : SendRequest) (s : Submission)

/-! ### The stations of a SendMessage -/

/-- The key was looked up and lets the request through; or there is none. -/
def clearedHistory : List Event :=
  if s.idemKey.truthy then
    [⟨.checkConflict s.idemKey s.payload, .ok false⟩, ⟨.idemGet s.idemKey, .ok none⟩]
  else []

/-- The task id was found free, and `enqueue` answered `result`. -/
def enqueuedHistory (createdAt : Time) (result : Option PendingTask) : List Event :=
  clearedHistory s ++
    [ ⟨.findTaskById s.taskId, .ok none⟩,
      ⟨.now, createdAt⟩,
      ⟨.enqueue s.taskId (sanitizeInbound s.userText) s.metadata s.contextId createdAt, result⟩ ]

/-- The task was accepted and the wait is over. -/
def waitedHistory (createdAt : Time) (task : PendingTask) (start : Time) : List Event :=
  enqueuedHistory s createdAt (some task) ++
    [⟨.now, start⟩, ⟨.awaitReady task (start + P.responseTimeout), ()⟩]

/-- The result dictionary for a response. -/
def completedTask (stamp : Stamp) (task : PendingTask) (response : String) : Json :=
  buildTaskObject s.taskId "completed" task.contextId (some (filterOutbound response)) none stamp

/-- A response was read, twice. -/
def readHistory (createdAt : Time) (task : PendingTask) (start : Time)
    (response₀ response : String) : List Event :=
  waitedHistory P s createdAt task start ++
    [⟨.readResponse task, some response₀⟩, ⟨.readResponse task, some response⟩]

/-- The result was stored under the key, if there is one. -/
def storedHistory (createdAt : Time) (task : PendingTask) (start : Time)
    (response₀ response : String) : List Event :=
  readHistory P s createdAt task start response₀ response ++
    if s.idemKey.truthy then
      [⟨.idemSet s.idemKey s.taskId s.payload (completedTask s req.stamp task response), ()⟩]
    else []

/-- How `_enqueue_and_await_task` ends, with the history it has then. -/
inductive AwaitEnds : List Event → Except PyError Awaited → Prop
  | checkRaised (e : PyError) (key : s.idemKey.truthy = true) :
      AwaitEnds [⟨.checkConflict s.idemKey s.payload, .error e⟩] (.error e)
  | conflict (key : s.idemKey.truthy = true) (message : String) :
      AwaitEnds [⟨.checkConflict s.idemKey s.payload, .ok true⟩]
        (.ok (.refused ⟨409, rpcErrorBody A2A_ERR_NON_IDEMPOTENT message s.rpcId⟩))
  | getRaised (e : PyError) (key : s.idemKey.truthy = true) :
      AwaitEnds [⟨.checkConflict s.idemKey s.payload, .ok false⟩, ⟨.idemGet s.idemKey, .error e⟩]
        (.error e)
  | replay (key : s.idemKey.truthy = true) (t : TaskId) (result : Json) :
      AwaitEnds
        [⟨.checkConflict s.idemKey s.payload, .ok false⟩,
          ⟨.idemGet s.idemKey, .ok (some (t, result))⟩]
        (.ok (.answered result))
  | findRaised (e : PyError) :
      AwaitEnds (clearedHistory s ++ [⟨.findTaskById s.taskId, .error e⟩]) (.error e)
  | collision (task : PendingTask) :
      AwaitEnds (clearedHistory s ++ [⟨.findTaskById s.taskId, .ok (some task)⟩])
        (.ok (.refused
          ⟨409, rpcErrorBody A2A_ERR_NON_IDEMPOTENT "Task ID already in use" s.rpcId⟩))
  | busy (createdAt : Time) :
      AwaitEnds (enqueuedHistory s createdAt none)
        (.ok (.refused
          ⟨503, rpcErrorBody (-32603) "Agent busy — too many pending tasks" s.rpcId⟩))
  | timedOut (createdAt : Time) (task : PendingTask) (start : Time) :
      AwaitEnds
        (waitedHistory P s createdAt task start ++
          [⟨.readResponse task, none⟩, ⟨.setReturned task, ()⟩])
        (.ok .timedOut)
  | vanished (createdAt : Time) (task : PendingTask) (start : Time) (response₀ : String) :
      AwaitEnds
        (waitedHistory P s createdAt task start ++
          [⟨.readResponse task, some response₀⟩, ⟨.readResponse task, none⟩])
        (.error .typeError)
  | answered (createdAt : Time) (task : PendingTask) (start : Time)
      (response₀ response : String) :
      AwaitEnds (storedHistory P req s createdAt task start response₀ response)
        (.ok (.answered (completedTask s req.stamp task response)))

/-- The outcome of the handler for what `_enqueue_and_await_task` returned. -/
def outcomeOf : Except PyError Awaited → Outcome
  | .error e => .raised e
  | .ok awaited => .ofExcept (replySend transport req s awaited)

variable {P transport req s}

/-- Responses are sent for what was returned. -/
theorem reply_of_outcomeOf {result : Except PyError Awaited} {responses : List HttpResponse}
    (h : outcomeOf transport req s result = .replied responses) :
    ∃ awaited, result = .ok awaited ∧ replySend transport req s awaited = .ok responses := by
  cases result with
  | error e => cases h
  | ok awaited =>
      refine ⟨awaited, rfl, ?_⟩
      change Outcome.ofExcept (replySend transport req s awaited) = .replied responses at h
      cases hreply : replySend transport req s awaited with
      | error e =>
          rw [hreply] at h
          cases h
      | ok sent =>
          rw [hreply] at h
          rw [Outcome.replied.inj h]

/-- A refusal is a JSON-RPC error. -/
theorem AwaitEnds.refused_body {h : List Event} {error : HttpResponse}
    (hends : AwaitEnds P req s h (.ok (.refused error))) :
    ∃ code message, error.body = rpcErrorBody code message s.rpcId := by
  cases hends <;> exact ⟨_, _, rfl⟩

/-- What a `check_conflict` step has answered. -/
def checked? : Event → Option (Except PyError Bool)
  | ⟨.checkConflict .., answer⟩ => some answer
  | _ => none

theorem filterMap_checked?_clearedHistory (s : Submission) :
    (clearedHistory s).filterMap checked? = if s.idemKey.truthy then [.ok false] else [] := by
  unfold clearedHistory
  split_ifs <;> rfl

/-- Where a conflict was found, there is one way to end. -/
theorem AwaitEnds.of_conflict {h : List Event} {result : Except PyError Awaited}
    {key payload : Json}
    (hends : AwaitEnds P req s h result)
    (hin : (⟨.checkConflict key payload, .ok true⟩ : Event) ∈ h) :
    ∃ message, result =
      .ok (.refused ⟨409, rpcErrorBody A2A_ERR_NON_IDEMPOTENT message s.rpcId⟩) := by
  have hchecked : .ok true ∈ h.filterMap checked? := List.mem_filterMap.mpr ⟨_, hin, rfl⟩
  cases hends with
  | conflict key message => exact ⟨message, rfl⟩
  | checkRaised => simp [checked?] at hchecked
  | getRaised => simp [checked?] at hchecked
  | replay => simp [checked?] at hchecked
  | _ =>
      -- every other history has a check that let the request through, or none
      refine absurd hchecked ?_
      simp only [storedHistory, readHistory, waitedHistory, enqueuedHistory,
        List.filterMap_append, filterMap_checked?_clearedHistory]
      split_ifs <;> simp [checked?]

end Send

/-! ### Preconditions -/

/-- What a thread has done when it performs a step that changes something. -/
def Call.pre (P : Platform) (x : Call) (h : List Event) : Op → Prop
  | .checkConflict key payload =>
      ∃ transport req s, x.Submits P transport req s ∧ s.idemKey.truthy = true ∧
        key = s.idemKey ∧ payload = s.payload ∧ h = []
  | .idemGet key =>
      ∃ transport req s, x.Submits P transport req s ∧ s.idemKey.truthy = true ∧
        key = s.idemKey ∧ h = [⟨.checkConflict s.idemKey s.payload, .ok false⟩]
  | .enqueue t text metadata contextId createdAt =>
      ∃ transport req s, x.Submits P transport req s ∧ t = s.taskId ∧
        text = sanitizeInbound s.userText ∧ metadata = s.metadata ∧ contextId = s.contextId ∧
          h = clearedHistory s ++ [⟨.findTaskById s.taskId, .ok none⟩, ⟨.now, createdAt⟩]
  | .readResponse task =>
      ∀ transport req s, x.Submits P transport req s → ∃ createdAt start,
        h = waitedHistory P s createdAt task start ∨
          ∃ response₀, h = waitedHistory P s createdAt task start ++
            [⟨.readResponse task, some response₀⟩]
  | .setReturned task =>
      ∃ transport req s createdAt start, x.Submits P transport req s ∧
        h = waitedHistory P s createdAt task start ++ [⟨.readResponse task, none⟩]
  | .idemSet key t payload result =>
      ∃ transport req s createdAt task start response₀ response,
        x.Submits P transport req s ∧ s.idemKey.truthy = true ∧ key = s.idemKey ∧
          t = s.taskId ∧ payload = s.payload ∧ result = completedTask s req.stamp task response ∧
            h = readHistory P s createdAt task start response₀ response
  | .drainPending => x = .preLlmCall ∧ h = []
  | .transition t toState =>
      ∃ task rest, x = .preLlmCall ∧ t = task.taskId ∧ toState = .working ∧
        h = [⟨.drainPending, task :: rest⟩]
  | .markProcessing t =>
      ∃ task rest moved, x = .preLlmCall ∧ t = task.taskId ∧
        h = [⟨.drainPending, task :: rest⟩, ⟨.transition t .working, moved⟩]
  | .requeueTasks tasks =>
      ∃ task, x = .preLlmCall ∧ ⟨.drainPending, task :: tasks⟩ ∈ h
  | .writeResponse task text =>
      (⟨.readResponse task, none⟩ : Event) ∈ h ∧
        (x = .watchdogPass ∧ text = "(orphaned — no response)" ∨
          ∃ t, x = .webhookFailure t ∧ text = "(webhook delivery failed)")
  | .setReady task => ∃ text, (⟨.writeResponse task text, ()⟩ : Event) ∈ h
  | .complete _ response => ∃ taskId turn turn', x = .postLlmCall taskId response turn turn'
  | .stateHook .. =>
      x = .preLlmCall ∨ ∃ taskId response turn turn', x = .postLlmCall taskId response turn turn'
  | _ => True

/-- A request is submitted in one way. -/
theorem Call.Submits.unique {P : Platform} {x : Call} {transport transport' : Transport}
    {req req' : SendRequest} {s s' : Submission} (h : x.Submits P transport req s)
    (h' : x.Submits P transport' req' s') : transport = transport' ∧ req = req' ∧ s = s' := by
  obtain ⟨rfl, s₀, hplan, rfl⟩ := h
  obtain ⟨heq, s₀', hplan', rfl⟩ := h'
  cases heq
  obtain rfl := SendPlan.submit.inj (Except.ok.inj (hplan.symm.trans hplan'))
  exact ⟨rfl, rfl, rfl⟩

/-! ### Postconditions -/

/-- How a SendMessage ends. -/
def sendPost (P : Platform) (transport : Transport) (req : SendRequest) (h : List Event)
    (outcome : Outcome) : Prop :=
  match planSend P.table transport req with
  | .error e => h = [] ∧ outcome = .raised e
  | .ok (.answer _ task) => h = [] ∧ outcome = .replied [replyEarly transport req task]
  | .ok (.submit s) =>
      ∃ result, AwaitEnds P req s.markOrigin h result ∧
        outcome = outcomeOf transport req s.markOrigin result

/-- How `pre_llm_call` ends. -/
inductive HookEnds : List Event → Outcome → Prop
  | idle : HookEnds [⟨.drainPending, []⟩] (.context none)
  | raised (task : PendingTask) (rest : List PendingTask) (e : PyError) :
      HookEnds [⟨.drainPending, task :: rest⟩] (.raised e)
  | injected (task : PendingTask) (rest : List PendingTask) (moved : Bool) (sender : Json)
      (requeued : List Event) :
      HookEnds
        ([ ⟨.drainPending, task :: rest⟩,
           ⟨.transition task.taskId .working, moved⟩,
           ⟨.markProcessing task.taskId, ()⟩,
           ⟨.stateHook task.taskId TaskState.submitted.name .working task.contextId, ()⟩ ] ++ requeued)
        (.context (some (triggerContext task.taskId sender task.text)))

/-- How a thread has gone when it ends. -/
def Call.post (P : Platform) (x : Call) (h : List Event) (outcome : Outcome) : Prop :=
  match x with
  | .sendMessage transport req => sendPost P transport req h outcome
  | .getTask transport t rpcId stamp =>
      ∃ status, h = [⟨.getStatus t, status⟩] ∧
        outcome =
          match status with
          | .error e => .raised e
          | .ok status => .replied [replyGetTask transport t rpcId stamp status]
  | .preLlmCall => HookEnds h outcome
  | _ => True

/-! ### The programs meet them -/

section Meets

variable {P : Platform} {transport : Transport} {req : SendRequest} {s : Submission} {x : Call}

/-- How `_prepare_and_enqueue` ends. -/
def PreparedEnds (P : Platform) (req : SendRequest) (s : Submission) (h : List Event) :
    Except PyError Prepared → Prop
  | .error e => AwaitEnds P req s h (.error e)
  | .ok (.refused code httpStatus message) =>
      AwaitEnds P req s h (.ok (.refused ⟨httpStatus, rpcErrorBody code message s.rpcId⟩))
  | .ok (.replay result) => AwaitEnds P req s h (.ok (.answered result))
  | .ok (.accepted task) => ∃ createdAt, h = enqueuedHistory s createdAt (some task)

theorem checkIdempotency_meets (hx : x.Submits P transport req s) :
    (checkIdempotency s).Meets (x.pre P)
      (fun h r =>
        match r with
        | .error e => PreparedEnds P req s h (.error e)
        | .ok (some prepared) => PreparedEnds P req s h (.ok prepared)
        | .ok none => h = clearedHistory s) [] := by
  unfold checkIdempotency
  by_cases key : s.idemKey.truthy = true
  · rw [if_pos key]
    refine ⟨⟨transport, req, s, hx, key, rfl, rfl, rfl⟩, ?_⟩
    rintro (e | b)
    · exact AwaitEnds.checkRaised e key
    cases b with
    | true => exact AwaitEnds.conflict key _
    | false =>
        refine ⟨⟨transport, req, s, hx, key, rfl, rfl⟩, ?_⟩
        rintro (e | r)
        · exact AwaitEnds.getRaised e key
        cases r with
        | none =>
            show _ = clearedHistory s
            rw [clearedHistory, if_pos key]
            rfl
        | some r => exact AwaitEnds.replay key r.1 r.2
  · rw [if_neg key]
    show [] = clearedHistory s
    rw [clearedHistory, if_neg key]

theorem enqueueChecked_meets (hx : x.Submits P transport req s) :
    (enqueueChecked s (sanitizeInbound s.userText)).Meets (x.pre P) (PreparedEnds P req s)
      (clearedHistory s) := by
  refine ⟨trivial, ?_⟩
  rintro (e | found)
  · exact AwaitEnds.findRaised e
  cases found with
  | some task => exact AwaitEnds.collision task
  | none =>
      refine ⟨trivial, fun createdAt => ⟨?_, fun result => ?_⟩⟩
      · exact ⟨transport, req, s, hx, rfl, rfl, rfl, rfl, by simp⟩
      · have hhist : clearedHistory s ++ [⟨.findTaskById s.taskId, .ok none⟩] ++
            [⟨.now, createdAt⟩] ++
            [⟨.enqueue s.taskId (sanitizeInbound s.userText) s.metadata s.contextId createdAt,
              result⟩] = enqueuedHistory s createdAt result := by
          simp [enqueuedHistory]
        rw [hhist]
        cases result with
        | none => exact AwaitEnds.busy createdAt
        | some task => exact ⟨createdAt, rfl⟩

theorem awaitTask_meets (hx : x.Submits P transport req s) (createdAt : Time)
    (task : PendingTask) :
    (awaitTask P s req.stamp task).Meets (x.pre P) (AwaitEnds P req s)
      (enqueuedHistory s createdAt (some task)) := by
  refine ⟨trivial, fun start => ⟨trivial, fun _ => ?_⟩⟩
  have hwait : enqueuedHistory s createdAt (some task) ++ [⟨.now, start⟩] ++
      [⟨.awaitReady task (start + P.responseTimeout), ()⟩] =
        waitedHistory P s createdAt task start := by
    simp [waitedHistory]
  rw [hwait]
  have hread : ∀ h, (∃ createdAt start, h = waitedHistory P s createdAt task start ∨
      ∃ response₀, h = waitedHistory P s createdAt task start ++
        [⟨.readResponse task, some response₀⟩]) → x.pre P h (.readResponse task) := by
    intro h hh transport' req' s' hx'
    obtain ⟨-, -, rfl⟩ := hx.unique hx'
    exact hh
  refine ⟨hread _ ⟨createdAt, start, Or.inl rfl⟩, fun response₀ => ?_⟩
  cases response₀ with
  -- the time is up: the handler marks the task and leaves it
  | none =>
      refine ⟨⟨transport, req, s, createdAt, start, hx, rfl⟩, fun _ => ?_⟩
      have : AwaitEnds P req s _ _ := .timedOut createdAt task start
      rwa [List.append_cons] at this
  | some response₀ =>
      refine ⟨hread _ ⟨createdAt, start, Or.inr ⟨response₀, rfl⟩⟩, fun response => ?_⟩
      cases response with
      -- the second read found less than the first
      | none =>
          have : AwaitEnds P req s _ _ := .vanished createdAt task start response₀
          rwa [List.append_cons] at this
      | some response =>
          have hreads : waitedHistory P s createdAt task start ++
              [⟨.readResponse task, some response₀⟩] ++ [⟨.readResponse task, some response⟩] =
                readHistory P s createdAt task start response₀ response := by
            simp [readHistory]
          have hend : AwaitEnds P req s _ _ := .answered createdAt task start response₀ response
          rw [storedHistory] at hend
          rw [hreads]
          show (if s.idemKey.truthy = true then _ else _ : Proc _).Meets _ _ _
          by_cases key : s.idemKey.truthy = true
          · rw [if_pos key] at hend ⊢
            exact ⟨⟨transport, req, s, createdAt, task, start, response₀, response, hx, key, rfl,
              rfl, rfl, rfl, rfl⟩, fun _ => hend⟩
          · rw [if_neg key, List.append_nil] at hend
            rw [if_neg key]
            exact hend

theorem enqueueAndAwaitTask_meets (hx : x.Submits P transport req s) :
    (enqueueAndAwaitTask P s req.stamp).Meets (x.pre P) (AwaitEnds P req s) [] := by
  have hprepare : (prepareAndEnqueue s).Meets (x.pre P) (PreparedEnds P req s) [] := by
    refine (checkIdempotency_meets hx).bind fun h r hr => ?_
    rcases r with e | _ | prepared
    · exact hr
    · subst hr
      exact enqueueChecked_meets hx
    · exact hr
  refine hprepare.bind fun h r hr => ?_
  rcases r with e | task | ⟨code, httpStatus, message⟩ | result
  · exact hr
  · obtain ⟨createdAt, rfl⟩ := hr
    exact awaitTask_meets hx createdAt task
  · exact hr
  · exact hr

theorem sendMessage_meets :
    (sendMessage P transport req).Meets ((Call.sendMessage transport req).pre P)
      (sendPost P transport req) [] := by
  unfold sendMessage
  split
  · rename_i e hplan
    show sendPost P transport req [] (.raised e)
    unfold sendPost
    rw [hplan]
    exact ⟨rfl, rfl⟩
  · rename_i exit task hplan
    show sendPost P transport req [] (.replied [replyEarly transport req task])
    unfold sendPost
    rw [hplan]
    exact ⟨rfl, rfl⟩
  · rename_i s hplan
    have hx : (Call.sendMessage transport req).Submits P transport req s.markOrigin :=
      ⟨rfl, s, hplan, rfl⟩
    refine (enqueueAndAwaitTask_meets hx).bind fun h r hr => ?_
    rcases r with e | awaited
    · show sendPost P transport req h (.raised e)
      unfold sendPost
      rw [hplan]
      exact ⟨_, hr, rfl⟩
    · show sendPost P transport req h (.ofExcept (replySend transport req s.markOrigin awaited))
      unfold sendPost
      rw [hplan]
      exact ⟨_, hr, rfl⟩

theorem getTask_meets (t : TaskId) (rpcId : Json) (stamp : Stamp) :
    (getTask transport t rpcId stamp).Meets ((Call.getTask transport t rpcId stamp).pre P)
      ((Call.getTask transport t rpcId stamp).post P) [] := by
  refine ⟨trivial, ?_⟩
  rintro (e | status)
  · exact ⟨_, rfl, rfl⟩
  · exact ⟨_, rfl, rfl⟩

theorem cancelTask_meets (t : TaskId) (rpcId : Json) (stamp : Stamp) :
    (cancelTask transport t rpcId stamp).Meets ((Call.cancelTask transport t rpcId stamp).pre P)
      ((Call.cancelTask transport t rpcId stamp).post P) [] := by
  refine ⟨trivial, ?_⟩
  rintro (e | status)
  · exact trivial
  show (if status.state = none then _ else _ : Proc _).Meets _ _ _
  split_ifs
  · exact trivial
  · exact trivial
  · exact ⟨trivial, fun _ => trivial⟩

theorem preLlmCall_meets :
    preLlmCall.Meets (Call.preLlmCall.pre P) HookEnds [] := by
  refine ⟨⟨rfl, rfl⟩, ?_⟩
  rintro (_ | ⟨task, rest⟩)
  · exact HookEnds.idle
  dsimp only [Prog.bind]
  cases task.metadata.get "sender_name" (.str "unknown") with
  | error e => exact HookEnds.raised task rest e
  | ok sender =>
      refine ⟨⟨task, rest, rfl, rfl, rfl, rfl⟩, fun moved => ?_⟩
      refine ⟨⟨task, rest, moved, rfl, rfl, rfl⟩, fun _ => ⟨Or.inl rfl, fun _ => ?_⟩⟩
      cases rest with
      | nil => exact HookEnds.injected task [] moved sender []
      | cons next rest =>
          refine ⟨⟨task, rfl, by simp⟩, fun _ => ?_⟩
          exact HookEnds.injected task (next :: rest) moved sender
            [⟨.requeueTasks (next :: rest), ()⟩]

theorem completeTask_meets (t : TaskId) (response : String) {post : List Event → Outcome → Prop}
    (hx : ∃ taskId turn turn', x = .postLlmCall taskId response turn turn')
    (hpost : ∀ h outcome, post h outcome) (h : List Event) :
    (completeTask t response).Meets (x.pre P) post h := by
  obtain ⟨taskId, turn, turn', rfl⟩ := hx
  refine ⟨trivial, ?_⟩
  rintro (e | status)
  · exact hpost _ _
  · refine ⟨⟨taskId, turn, turn', rfl⟩, fun _ => ⟨?_, fun _ => hpost _ _⟩⟩
    exact Or.inr ⟨taskId, response, turn, turn', rfl⟩

theorem postLlmCall_meets (taskId : Json) (response : String) (turn turn' : ℕ) :
    (postLlmCall taskId response turn turn').Meets
      ((Call.postLlmCall taskId response turn turn').pre P)
      ((Call.postLlmCall taskId response turn turn').post P) [] := by
  have hcomplete : ∀ t h, (completeTask t response).Meets
      ((Call.postLlmCall taskId response turn turn').pre P)
      ((Call.postLlmCall taskId response turn turn').post P) h :=
    fun t h => completeTask_meets t response ⟨taskId, turn, turn', rfl⟩ (fun _ _ => trivial) h
  have hafter : ∀ h, (postLlmCall.afterwards response turn').Meets
      ((Call.postLlmCall taskId response turn turn').pre P)
      ((Call.postLlmCall taskId response turn turn').post P) h := by
    intro h
    refine ⟨trivial, ?_⟩
    rintro (_ | ⟨t, _⟩)
    · exact trivial
    · exact hcomplete t _
  unfold postLlmCall
  split_ifs
  · exact trivial
  · exact hcomplete taskId _
  · refine ⟨trivial, ?_⟩
    rintro (_ | ⟨t, ts⟩)
    · exact hafter _
    · show (if t.truthy = true then _ else _ : Proc _).Meets _ _ _
      split_ifs
      · exact hcomplete t _
      · exact hafter _

theorem answerUnanswered_meets (task : PendingTask) (text : String)
    (hx : x = .watchdogPass ∧ text = "(orphaned — no response)" ∨
      ∃ t, x = .webhookFailure t ∧ text = "(webhook delivery failed)") (h : List Event) :
    (answerUnanswered task text).Meets (x.pre P) (fun _ _ => True) h := by
  have hread : x.pre P h (.readResponse task) := by
    rintro transport req s ⟨rfl, -⟩
    rcases hx with ⟨heq, -⟩ | ⟨t, heq, -⟩ <;> cases heq
  refine ⟨hread, ?_⟩
  rintro (_ | response)
  · refine ⟨⟨?_, hx⟩, fun _ => ⟨⟨text, ?_⟩, fun _ => trivial⟩⟩
    · exact List.mem_append_right _ (List.mem_singleton.mpr rfl)
    · exact List.mem_append_right _ (List.mem_singleton.mpr rfl)
  · exact trivial

theorem webhookFailure_meets (t : TaskId) :
    (webhookFailure t).Meets ((Call.webhookFailure t).pre P) ((Call.webhookFailure t).post P)
      [] := by
  refine ⟨trivial, ?_⟩
  rintro (e | _ | task)
  · exact trivial
  · exact trivial
  · exact (answerUnanswered_meets task _ (Or.inr ⟨t, rfl, rfl⟩) _).bind fun _ _ _ => trivial

theorem markOrphans_meets (cutoff : Time) (tasks : List PendingTask) (h : List Event) :
    (markOrphans cutoff tasks).Meets (Call.watchdogPass.pre P) (Call.watchdogPass.post P) h := by
  induction tasks generalizing h with
  | nil => exact trivial
  | cons task tasks ih =>
      rw [markOrphans]
      split_ifs
      · exact (answerUnanswered_meets task _ (Or.inl ⟨rfl, rfl⟩) h).bind fun h _ _ => ih h
      · exact ih h

theorem watchdogPass_meets :
    (watchdogPass P).Meets (Call.watchdogPass.pre P) (Call.watchdogPass.post P) [] := by
  have hscan : ∀ cutoff h, (watchdogPass.scan cutoff).Meets (Call.watchdogPass.pre P)
      (Call.watchdogPass.post P) h :=
    fun cutoff h => ⟨trivial, fun tasks => markOrphans_meets cutoff tasks _⟩
  refine ⟨trivial, fun now => ⟨trivial, ?_⟩⟩
  rintro (_ | _)
  · exact hscan _ _
  refine ⟨trivial, ?_⟩
  rintro (_ | oldest)
  · exact trivial
  show (if oldest ≥ _ then _ else _ : Proc _).Meets _ _ _
  split_ifs
  · exact trivial
  · exact hscan _ _

/-- **Every call does what its pre- and postcondition say.** -/
theorem Call.meets (P : Platform) (x : Call) : (x.prog P).Meets (x.pre P) (x.post P) [] := by
  cases x with
  | sendMessage transport req => exact sendMessage_meets
  | getTask transport t rpcId stamp => exact getTask_meets t rpcId stamp
  | cancelTask transport t rpcId stamp => exact cancelTask_meets t rpcId stamp
  | preLlmCall => exact preLlmCall_meets
  | postLlmCall taskId response turn turn' => exact postLlmCall_meets taskId response turn turn'
  | webhookFailure t => exact webhookFailure_meets t
  | watchdogPass => exact watchdogPass_meets
  | evictExpired => exact ⟨trivial, fun _ => trivial⟩

end Meets

end HermesA2A
