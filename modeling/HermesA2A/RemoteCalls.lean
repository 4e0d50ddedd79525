import HermesA2A.Conversations

/-!
# Calling a remote agent

The tools that call another agent post a request and take apart what comes back.  Nothing of
that can be relied on: the body is whatever the other side has sent, if it is JSON at all.

* `rpcCall` — the body, or a message that says why there is none.
* `sendRemoteTask` with its `pollLoop`, `cancelRemoteTask`, `runRemoteTask` — what the tools do with it.
* `handleSendProtocolTask`, `handleCancelProtocolTask`, `handleCallMode3` — the tools, with all
  that they refuse before they call.

What a tool knows of the agents is a parameter (`AgentDirectory`), and so is what comes back from
the network (`HttpOutcome`).
-/

namespace HermesA2A

/-- What comes of `_http_request`: the parsed body, or an exception by its class. -/
inductive HttpOutcome
  | body (j : Json)
  | connectionError
  | timeoutError
  | failed (exc : String)

/-- `parse_json_rpc_error`: nothing, or the message as the other side has it. -/
def parseJsonRpcError (locale : Locale) (response : Json) : Json :=
  let rpcError := response.getIfDict "error" .null
  if !rpcError.truthy then .str ""
  else
    match rpcError with
    | .obj fields => ((fields.lookup "message").getD .null).orElse (.str (locale.format rpcError))
    | _ => .str (locale.format rpcError)

/-- The `result` of a body. -/
def resultOf (body : Json) : Except PyError Json := do
  let result ← body.get "result" (.obj [])
  return result.orElse (.obj [])

/-- `_rpc_call`: the result, and a message if there is none. -/
def rpcCall (locale : Locale) (targetUrl : String) (timeout : ℤ) :
    HttpOutcome → Except PyError (Json × String)
  | .connectionError => return (.obj [], "Cannot connect to " ++ targetUrl)
  | .timeoutError => return (.obj [], "Remote agent timed out after " ++ toString timeout ++ "s")
  | .failed exc => return (.obj [], "Call failed: " ++ exc)
  | .body result => do
      let errMsg := parseJsonRpcError locale result
      if errMsg.truthy then
        return (.obj [], "Remote agent error: " ++ locale.format errMsg)
      return (← resultOf result, "")

/-- A call, and what is read of it: a message, or a Task. -/
def callAndParse (locale : Locale) (targetUrl : String) (timeout : ℤ) (taskId : Json)
    (answer : HttpOutcome) : Except PyError (String ⊕ TaskResult) := do
  let (rpcResult, errorMsg) ← rpcCall locale targetUrl timeout answer
  if errorMsg ≠ "" then return .inl errorMsg
  return .inr (← parseTaskResult rpcResult taskId)

/-! ### Polling -/

/-- `TERMINAL_STATES` -/
def TERMINAL_STATES : List String := ["completed", "failed", "canceled", "rejected"]

/-- `is_terminal_state` -/
def isTerminalState (locale : Locale) (state : Json) : Bool :=
  TERMINAL_STATES.contains (locale.lower (locale.format (state.orElse (.str ""))))

/-- What a poll brings: nothing if the other side reports an error, or the result and the state
of the Task in it. -/
def pollOnce (locale : Locale) (remoteTaskId : Json) (pollResult : Json) :
    Except PyError (Option (Json × Json)) := do
  if (parseJsonRpcError locale pollResult).truthy then return none
  let pollInner ← resultOf pollResult
  let pollParsed ← parseTaskResult pollInner remoteTaskId
  return some (pollInner, pollParsed.state)

/-- The variables of the loop. -/
structure PollState where
  rpcResult : Json
  taskState : Json
  pollErrors : ℕ

/-- The variables after a poll that was read, and whether the loop is left. -/
def PollState.record (locale : Locale) (s : PollState) (pollInner pollState : Json) :
    PollState × Bool :=
  (if pollState.truthy ∧ pollState ≠ .str "unknown" then
    { s with rpcResult := pollInner, taskState := pollState } else s,
    isTerminalState locale pollState)

/-- The variables after one round, and whether the loop is left: whatever is raised in it is
counted. -/
def PollState.round (locale : Locale) (remoteTaskId : Json) (s : PollState) :
    HttpOutcome → PollState × Bool
  | .body pollResult =>
      match pollOnce locale remoteTaskId pollResult with
      | .ok none => (s, false)
      | .ok (some (pollInner, pollState)) => s.record locale pollInner pollState
      | .error _ => ({ s with pollErrors := s.pollErrors + 1 }, false)
  | _ => ({ s with pollErrors := s.pollErrors + 1 }, false)

/-- The polls, until one of them finds an end. -/
def pollLoop (locale : Locale) (remoteTaskId : Json) : List HttpOutcome → PollState → PollState
  | [], s => s
  | answer :: answers, s =>
      let (s, left) := s.round locale remoteTaskId answer
      if left then s else pollLoop locale remoteTaskId answers s

/-! ### What is done with an answer -/

/-- `handle_send_protocol_task`, with a target: `polls` are the answers to the attempts. -/
def sendRemoteTask (locale : Locale) (targetUrl taskId : String) (timeout pollAttempts : ℤ)
    (first : HttpOutcome) (polls : ℕ → HttpOutcome) : Except PyError Json := do
  let (rpcResult, errorMsg) ← rpcCall locale targetUrl timeout first
  if errorMsg ≠ "" then return .obj [("error", .str errorMsg)]
  let parsed ← parseTaskResult rpcResult (.str taskId)
  let polling : Bool := (parsed.state = .str "working" ∨ parsed.state = .str "submitted") ∧
    parsed.taskId.truthy ∧ pollAttempts > 0
  let start : PollState := ⟨rpcResult, parsed.state, 0⟩
  let polled :=
    if polling then
      pollLoop locale parsed.taskId ((List.range pollAttempts.toNat).map polls) start
    else start
  if polling ∧ (polled.pollErrors : ℤ) = pollAttempts ∧ !isTerminalState locale polled.taskState then
    return .obj [("error", .str ("All " ++ toString pollAttempts ++
      " poll attempts failed. Could not determine task result."))]
  let parsed ← parseTaskResult polled.rpcResult (.str taskId)
  return .obj [
    ("task_id", ← polled.rpcResult.get "id" (.str taskId)),
    ("state", polled.taskState),
    ("response", .str (if parsed.response = "" then "(no text response)" else parsed.response)),
    ("source", .str targetUrl),
    ("raw_result", polled.rpcResult)]

/-- `handle_cancel_protocol_task`, with a target. -/
def cancelRemoteTask (locale : Locale) (targetUrl taskId : String) (localCanceled : Bool) (timeout : ℤ)
    (answer : HttpOutcome) : Except PyError Json := do
  match ← callAndParse locale targetUrl timeout (.str taskId) answer with
  | .inl errorMsg =>
      return .obj [("error", .str errorMsg), ("task_id", .str taskId),
        ("local_canceled", .bool localCanceled)]
  | .inr parsed =>
      return .obj [
        ("task_id", parsed.taskId),
        ("state", parsed.state),
        ("response",
          .str (if parsed.response = "" then "(no text response)" else parsed.response)),
        ("source", .str targetUrl),
        ("local_canceled", .bool localCanceled),
        ("raw_result", parsed.rawResult)]

/-- `_handle_call_mode3`, with a target. -/
def runRemoteTask (locale : Locale) (name targetUrl taskId : String) (hermes : Json) (timeout : ℤ)
    (answer : HttpOutcome) : Except PyError Json := do
  match ← callAndParse locale targetUrl timeout (.str taskId) answer with
  | .inl errorMsg => return .obj [("error", .str errorMsg)]
  | .inr parsed =>
      if parsed.response ≠ "" then
        return .obj [
          ("task_id", parsed.taskId),
          ("state", parsed.state),
          ("response", .str parsed.response),
          ("source", .str ("ephemeral:" ++ name)),
          ("mode", .str "3"),
          ("hermes", hermes)]
      return .obj [("error", .str ("Mode 3: target returned status=" ++
        locale.format parsed.state))]

/-! ### The tools -/

/-- What `_resolve_outbound_target` finds: no agent of the name, an agent without an address, or
an address and whether it may be the caller's own machine. -/
inductive Resolution
  | unknown (err : List (String × Json))
  | unaddressed (agentInfo : Json) (err : List (String × Json))
  | found (agentInfo : Option Json) (targetUrl : String) (allowLoopback : Bool)

/-- What a tool knows beside its arguments.  An absent argument is an empty text. -/
structure AgentDirectory where
  locale : Locale
  /-- `_resolve_outbound_target`, by name and URL. -/
  resolve : String → String → Resolution
  /-- `validate_skill`: whether the agent has it, and what it has. -/
  validateSkill : Option Json → String → Bool × Json
  /-- `_validate_target_url`, or the text of its exception. -/
  validateTargetUrl : String → Bool → Except String String

/-- The target of a message, or what is returned instead. -/
def AgentDirectory.sendTarget (agents : AgentDirectory) (name url skill message : String) :
    Except (List (String × Json)) String := do
  if message = "" then throw [("error", .str "'message' is required")]
  if url = "" ∧ name = "" then throw [("error", .str "Provide either 'url' or 'name'")]
  let skilled := fun agentInfo =>
    let (valid, available) := agents.validateSkill agentInfo skill
    if name ≠ "" ∧ skill ≠ "" ∧ !valid then
      throw [("error", .str ("Skill '" ++ skill ++ "' not found for agent '" ++ name ++ "'")),
        ("available_skills", available)]
    else pure ()
  match agents.resolve name url with
  | .unknown err => throw err
  | .unaddressed agentInfo err =>
      skilled (some agentInfo)
      throw err
  | .found agentInfo targetUrl allowLoopback =>
      skilled agentInfo
      (agents.validateTargetUrl targetUrl allowLoopback).mapError fun e => [("error", .str e)]

/-- `handle_send_protocol_task` -/
def handleSendProtocolTask (agents : AgentDirectory) (name url skill message taskId : String)
    (timeout pollAttempts : ℤ) (first : HttpOutcome) (polls : ℕ → HttpOutcome) :
    Except PyError Json :=
  match agents.sendTarget name url skill message with
  | .error err => return .obj err
  | .ok targetUrl => sendRemoteTask agents.locale targetUrl taskId timeout pollAttempts first polls

/-- The target of a cancellation, or what is returned instead. -/
def AgentDirectory.cancelTarget (agents : AgentDirectory) (name url taskId : String) (localCanceled : Bool) :
    Except (List (String × Json)) String := do
  if taskId = "" then throw [("error", .str "'task_id' is required")]
  if url = "" ∧ name = "" then
    throw [
      ("task_id", .str taskId),
      ("state", .str (if localCanceled then "canceled" else "unknown")),
      ("local_canceled", .bool localCanceled),
      ("response",
        .str (if localCanceled then "canceled local worker" else "no local worker found"))]
  match agents.resolve name url with
  | .unknown err => throw err
  | .unaddressed _ err => throw err
  | .found _ targetUrl allowLoopback =>
      (agents.validateTargetUrl targetUrl allowLoopback).mapError fun e =>
        [("error", .str e), ("task_id", .str taskId), ("local_canceled", .bool localCanceled)]

/-- `handle_cancel_protocol_task`: `localCanceled` is what `cancel_worker` returns. -/
def handleCancelProtocolTask (agents : AgentDirectory) (name url taskId : String) (localCanceled : Bool)
    (timeout : ℤ) (answer : HttpOutcome) : Except PyError Json :=
  match agents.cancelTarget name url taskId localCanceled with
  | .error err => return .obj err
  | .ok targetUrl => cancelRemoteTask agents.locale targetUrl taskId localCanceled timeout answer

/-- The target of a worker, or what is returned instead. -/
def AgentDirectory.workerTarget (agents : AgentDirectory) (name message : String) :
    Except (List (String × Json)) String := do
  if message = "" then throw [("error", .str "'message' is required for Mode 3")]
  if name = "" then
    throw [("error", .str "'name' is required for Mode 3 (URL not supported in Mode 3)")]
  match agents.resolve name "" with
  | .unknown err => throw err
  | .unaddressed _ err => throw err
  | .found _ targetUrl _ =>
      (agents.validateTargetUrl targetUrl true).mapError fun e => [("error", .str e)]

/-- `_handle_call_mode3`: `hermes` is the metadata that the request carries. -/
def handleCallMode3 (agents : AgentDirectory) (name message taskId : String) (hermes : Json) (timeout : ℤ)
    (answer : HttpOutcome) : Except PyError Json :=
  match agents.workerTarget name message with
  | .error err => return .obj err
  | .ok targetUrl => runRemoteTask agents.locale name targetUrl taskId hermes timeout answer

end HermesA2A
