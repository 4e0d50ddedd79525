import HermesA2A.Server.SendMessage

/-!
# What the handlers plan

`planTaskSend` and `planRestSend` taken apart: for each way a handler can go on, the
values it has read from the request.  Both submit the same thing: `Submits` has
what a submission owes to the request, whichever way it came in.
-/

namespace HermesA2A

/-- `configuration.get("return_immediately", False)`, as a truth value. -/
def SendRequest.returnImmediately (req : SendRequest) : Bool :=
  match req.body.get "configuration" (.obj []) >>= (·.get "return_immediately" (.bool false)) with
  | .ok value => value.truthy
  | .error _ => false

theorem SendRequest.returnImmediately_eq {req : SendRequest} {value : Json}
    (h : req.body.get "configuration" (.obj []) >>= (·.get "return_immediately" (.bool false)) =
      .ok value) : req.returnImmediately = value.truthy := by
  unfold SendRequest.returnImmediately
  rw [h]

/-- Does the metadata of the message ask for a worker? -/
def SendRequest.asksWorker (req : SendRequest) : Bool :=
  match req.body.get "message" (.obj []) >>= (·.get "metadata" (.obj [])) >>= wantsWorker with
  | .ok wanted => wanted
  | .error _ => false

theorem SendRequest.asksWorker_eq {req : SendRequest} {message metadata : Json} {wanted : Bool}
    (message_eq : req.body.get "message" (.obj []) = .ok message)
    (metadata_eq : message.get "metadata" (.obj []) = .ok metadata)
    (worker_eq : wantsWorker metadata = .ok wanted) : req.asksWorker = wanted := by
  unfold SendRequest.asksWorker
  rw [message_eq]
  show (match message.get "metadata" (.obj []) >>= wantsWorker with
    | .ok w => w | .error _ => _) = _
  rw [metadata_eq]
  show (match wantsWorker metadata with | .ok w => w | .error _ => _) = _
  rw [worker_eq]

section Task

variable {table : CharTable} {req : SendRequest} {plan : SendPlan}

/-- The ways of `_handle_task_send`. -/
inductive TaskSendPlans (table : CharTable) (req : SendRequest) : SendPlan → Prop
  | blank {taskId message : Json} {userText : String}
      (message_eq : req.body.get "message" (.obj []) = .ok message)
      (text_eq : extractTextParts message = .ok userText) (blank : userText.strip = "") :
      TaskSendPlans table req (.answer .emptyMessage
        (buildTaskObject taskId "failed" .null (some "Empty message") none req.stamp))
  | worker {message metadata contextId task : Json} {userText : String}
      (message_eq : req.body.get "message" (.obj []) = .ok message)
      (text_eq : extractTextParts message = .ok userText) (text_ne : userText.strip ≠ "")
      (metadata_eq : message.get "metadata" (.obj []) = .ok metadata)
      (worker_eq : wantsWorker metadata = .ok true)
      (task_eq : handleTaskSendMode3 req.body metadata contextId req.workerUuid req.worker = .ok task) :
      TaskSendPlans table req (.answer .worker task)
  | returnImmediately {taskId message metadata contextId : Json} {userText : String}
      (id_eq : req.body.get "id" (.str req.uuid) = .ok taskId)
      (message_eq : req.body.get "message" (.obj []) = .ok message)
      (text_eq : extractTextParts message = .ok userText) (text_ne : userText.strip ≠ "")
      (metadata_eq : message.get "metadata" (.obj []) = .ok metadata)
      (worker_eq : wantsWorker metadata = .ok false)
      (asked : req.returnImmediately = true) :
      TaskSendPlans table req (.answer .returnImmediately
        (buildTaskObject taskId "working" (contextId.orElse taskId) (some pollText) none req.stamp))
  | submit {taskId message metadata value contextId named idemKey : Json} {userText : String}
      (id_eq : req.body.get "id" (.str req.uuid) = .ok taskId)
      (message_eq : req.body.get "message" (.obj []) = .ok message)
      (text_eq : extractTextParts message = .ok userText) (text_ne : userText.strip ≠ "")
      (metadata_eq : message.get "metadata" (.obj []) = .ok metadata)
      (context_eq : contextOf req.body metadata taskId = .ok contextId)
      (value_eq : req.body.get "configuration" (.obj []) >>=
        (·.get "return_immediately" (.bool false)) = .ok value)
      (asked : value.truthy = false) (worker_eq : wantsWorker metadata = .ok false)
      (named_eq : resolveSenderName table metadata req.body req.clientIp = .ok named)
      (key_eq : req.body.get "idempotencyKey" .null = .ok idemKey) :
      TaskSendPlans table req (.submit {
        taskId := taskId
        userText := userText
        metadata := named
        contextId := contextId
        idemKey := idemKey
        request := req.body
        shared := (message.field? "metadata").isSome
        rpcId := req.rpcId })

theorem planTaskSend_plans (h : planTaskSend table req = .ok plan) :
    TaskSendPlans table req plan := by
  obtain ⟨taskId, id_eq, h⟩ := exists_of_bind_ok h
  obtain ⟨message, message_eq, h⟩ := exists_of_bind_ok h
  obtain ⟨configuration, configuration_eq, h⟩ := exists_of_bind_ok h
  obtain ⟨value, value_eq, h⟩ := exists_of_bind_ok h
  obtain ⟨userText, text_eq, h⟩ := exists_of_bind_ok h
  have value_eq : req.body.get "configuration" (.obj []) >>=
      (·.get "return_immediately" (.bool false)) = .ok value := by
    rw [configuration_eq]
    exact value_eq
  by_cases hblank : userText.strip = ""
  · rw [if_pos hblank] at h
    obtain rfl := Except.ok.inj h
    exact .blank message_eq text_eq hblank
  rw [if_neg hblank] at h
  obtain ⟨metadata, metadata_eq, h⟩ := exists_of_bind_ok h
  obtain ⟨contextId, context_eq, h⟩ := exists_of_bind_ok h
  obtain ⟨wanted, wanted_eq, h⟩ := exists_of_bind_ok h
  by_cases hworker : wanted = true
  · rw [if_pos hworker] at h
    obtain ⟨task, task_eq, h⟩ := exists_of_bind_ok h
    obtain rfl := Except.ok.inj h
    have worker_eq : wantsWorker metadata = .ok true := by rw [wanted_eq, hworker]
    exact .worker message_eq text_eq hblank metadata_eq worker_eq task_eq
  rw [if_neg hworker] at h
  have worker_eq : wantsWorker metadata = .ok false := by
    rw [wanted_eq, Bool.eq_false_iff.mpr hworker]
  by_cases hvalue : value.truthy = true
  · rw [if_pos hvalue] at h
    obtain rfl := Except.ok.inj h
    exact .returnImmediately id_eq message_eq text_eq hblank metadata_eq worker_eq
      ((SendRequest.returnImmediately_eq value_eq).trans hvalue)
  · rw [if_neg hvalue] at h
    obtain ⟨named, named_eq, h⟩ := exists_of_bind_ok h
    obtain ⟨idemKey, key_eq, h⟩ := exists_of_bind_ok h
    obtain rfl := Except.ok.inj h
    exact .submit id_eq message_eq text_eq hblank metadata_eq context_eq value_eq
      (Bool.eq_false_iff.mpr hvalue) worker_eq named_eq key_eq

/-- Whoever waits for a worker asks the queue for nothing. -/
theorem not_submit_of_workerJob {job : WorkerJob} (hjob : req.workerJob? table = some job)
    (s : Submission) : planTaskSend table req ≠ .ok (.submit s) := by
  intro hsubmit
  have hnot : req.asksWorker = false := by
    cases planTaskSend_plans hsubmit with
    | submit _ message_eq _ _ metadata_eq _ _ _ worker_eq =>
        exact SendRequest.asksWorker_eq message_eq metadata_eq worker_eq
  unfold SendRequest.workerJob? at hjob
  split at hjob
  · rename_i task hplan
    cases planTaskSend_plans hplan with
    | worker message_eq _ _ metadata_eq worker_eq =>
        have hasks : req.asksWorker = true :=
          SendRequest.asksWorker_eq message_eq metadata_eq worker_eq
        exact Bool.noConfusion (hasks.symm.trans hnot)
  · cases hjob

/-- The ways of `_rest_send_message`. -/
inductive RestSendPlans (table : CharTable) (req : SendRequest) : SendPlan → Prop
  | blank {message : Json} {userText : String}
      (message_eq : req.body.get "message" (.obj []) = .ok message)
      (text_eq : extractTextParts message = .ok userText) (blank : userText.strip = "") :
      RestSendPlans table req (.answer .emptyMessage
        (plainTask [("id", .str req.uuid)] "failed" (.str "Empty message")))
  | submit {taskId message metadata contextId named idemKey : Json} {userText : String}
      (id_eq : req.body.get "id" .null = .ok taskId)
      (message_eq : req.body.get "message" (.obj []) = .ok message)
      (text_eq : extractTextParts message = .ok userText) (text_ne : userText.strip ≠ "")
      (metadata_eq : message.get "metadata" (.obj []) = .ok metadata)
      (context_eq : contextOf req.body metadata (taskId.orElse (.str req.uuid)) = .ok contextId)
      (named_eq : resolveSenderName table metadata req.body req.clientIp = .ok named)
      (key_eq : req.body.get "idempotencyKey" .null = .ok idemKey) :
      RestSendPlans table req (.submit {
        taskId := taskId.orElse (.str req.uuid)
        userText := userText
        metadata := named
        contextId := contextId
        idemKey := idemKey
        request := req.body
        shared := (message.field? "metadata").isSome
        rpcId := .null })

theorem planRestSend_plans (h : planRestSend table req = .ok plan) :
    RestSendPlans table req plan := by
  obtain ⟨message, message_eq, h⟩ := exists_of_bind_ok h
  obtain ⟨userText, text_eq, h⟩ := exists_of_bind_ok h
  split_ifs at h with hblank
  · obtain rfl := Except.ok.inj h
    exact .blank message_eq text_eq hblank
  obtain ⟨metadata, metadata_eq, h⟩ := exists_of_bind_ok h
  obtain ⟨taskId, id_eq, h⟩ := exists_of_bind_ok h
  obtain ⟨contextId, context_eq, h⟩ := exists_of_bind_ok h
  obtain ⟨named, named_eq, h⟩ := exists_of_bind_ok h
  obtain ⟨idemKey, key_eq, h⟩ := exists_of_bind_ok h
  obtain rfl := Except.ok.inj h
  exact .submit id_eq message_eq text_eq hblank metadata_eq context_eq named_eq key_eq

/-! ### Answers without the queue -/

@[simp] theorem taskState?_plainTask (id : Json) (state : String) (text : Json) :
    taskState? (plainTask [("id", id)] state text) = some (.str state) := rfl

@[simp] theorem artifactText?_plainTask (id : Json) (state : String) (text : Json) :
    artifactText? (plainTask [("id", id)] state text) = some text := rfl

/-- **A worker's Task** has an id and a context, and says what the worker came to. -/
theorem handleTaskSendMode3_spec {params metadata contextId task : Json} {uuid : String}
    {worker : WorkerOutcome} (h : handleTaskSendMode3 params metadata contextId uuid worker = .ok task) :
    ∃ taskId c,
      (∃ text, worker = .failed text ∧
        task = plainTask [("id", taskId), ("context_id", c)] "failed" (.str text)) ∨
      ∃ response, worker = .completed response ∧
        task = plainTask [("id", taskId), ("context_id", c)] "completed" response := by
  obtain ⟨job, -, h⟩ := exists_of_bind_ok h
  refine ⟨job.taskId, contextId.orElse job.taskId, ?_⟩
  split_ifs at h with hhashable
  cases hwait : waitable job.timeout with
  | false =>
      rw [hwait] at h
      cases worker <;> cases h
  | true =>
      rw [hwait] at h
      cases worker with
      | raised e => cases h
      | failed text => exact Or.inl ⟨text, rfl, (Except.ok.inj h).symm⟩
      | completed response => exact Or.inr ⟨response, rfl, (Except.ok.inj h).symm⟩

/-- The states of a Task a handler makes up by itself: only `return_immediately`
promises anything. -/
theorem taskState?_of_answer {transport : Transport} {exit : EarlyExit} {task : Json}
    (h : planSend table transport req = .ok (.answer exit task)) :
    taskState? task = some (.str "failed") ∨ taskState? task = some (.str "completed") ∨
      (transport = .jsonRpc ∧ req.returnImmediately = true) := by
  cases transport with
  | jsonRpc =>
      cases planTaskSend_plans h with
      | blank => exact Or.inl (taskState?_buildTaskObject ..)
      | worker _ _ _ _ _ task_eq =>
          obtain ⟨-, -, ⟨_, -, rfl⟩ | ⟨_, -, rfl⟩⟩ := handleTaskSendMode3_spec task_eq
          · exact Or.inl rfl
          · exact Or.inr (Or.inl rfl)
      | returnImmediately _ _ _ _ _ _ asked => exact Or.inr (Or.inr ⟨rfl, asked⟩)
  | rest =>
      cases planRestSend_plans h with
      | blank => exact Or.inl rfl

/-- A Task a handler makes up by itself has an id. -/
theorem taskId?_of_answer {transport : Transport} {exit : EarlyExit} {task : Json}
    (h : planSend table transport req = .ok (.answer exit task)) : ∃ t, taskId? task = some t := by
  cases transport with
  | jsonRpc =>
      cases planTaskSend_plans h with
      | blank => exact ⟨_, taskId?_buildTaskObject ..⟩
      | worker _ _ _ _ _ task_eq =>
          obtain ⟨taskId, -, ⟨_, -, rfl⟩ | ⟨_, -, rfl⟩⟩ := handleTaskSendMode3_spec task_eq
          · exact ⟨taskId, rfl⟩
          · exact ⟨taskId, rfl⟩
      | returnImmediately => exact ⟨_, taskId?_buildTaskObject ..⟩
  | rest =>
      cases planRestSend_plans h with
      | blank => exact ⟨_, rfl⟩

/-! ### Submissions -/

/-- The text of the message. -/
def SendRequest.userText (req : SendRequest) : Except PyError String := do
  let message ← req.body.get "message" (.obj [])
  extractTextParts message

/-- Is there nothing to say? -/
def SendRequest.blank (req : SendRequest) : Bool :=
  match req.userText with
  | .ok userText => decide (userText.strip = "")
  | .error _ => false

/-- The text of a message that could be read. -/
theorem SendRequest.userText_eq {req : SendRequest} {message : Json} {userText : String}
    (message_eq : req.body.get "message" (.obj []) = .ok message)
    (text_eq : extractTextParts message = .ok userText) : req.userText = .ok userText := by
  unfold SendRequest.userText
  rw [message_eq]
  exact text_eq

theorem SendRequest.blank_eq {req : SendRequest} {message : Json} {userText : String}
    (message_eq : req.body.get "message" (.obj []) = .ok message)
    (text_eq : extractTextParts message = .ok userText) :
    req.blank = decide (userText.strip = "") := by
  unfold SendRequest.blank
  rw [SendRequest.userText_eq message_eq text_eq]

/-- **What is submitted**, whichever way it came in. -/
theorem submission_of_plan {transport : Transport} {s : Submission}
    (h : planSend table transport req = .ok (.submit s)) :
    req.userText = .ok s.userText ∧
      (transport = .jsonRpc → req.returnImmediately = false) := by
  cases transport with
  | jsonRpc =>
      cases planTaskSend_plans h with
      | submit _ message_eq text_eq _ _ _ value_eq asked =>
          exact ⟨SendRequest.userText_eq message_eq text_eq,
            fun _ => (SendRequest.returnImmediately_eq value_eq).trans asked⟩
  | rest =>
      cases planRestSend_plans h with
      | submit _ message_eq text_eq =>
          exact ⟨SendRequest.userText_eq message_eq text_eq, fun h => nomatch h⟩

end Task

end HermesA2A
