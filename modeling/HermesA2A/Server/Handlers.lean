import HermesA2A.FloatLimiter
import HermesA2A.Server.Operations

/-!
# The request handlers

What `A2ARequestHandler` does with a request once it is routed: the REST handlers and
the JSON-RPC methods, in the order of the source.  An exception leaves a handler as
one; who catches it is decided where the handler is called.

`_sse_poll_until_terminal` goes round until the task has ended, the client has hung up
or the time is over.  A program here is finite: `polls` bounds the rounds, and the
program halts where the source would begin the next one.  Every finite run of the
source is a run of these programs, for `polls` large enough.

Left out: log and audit entries, the response's fixed headers, and the worker registry.
-/

namespace HermesA2A

/-- An HTTP request, with what its handler takes from outside. -/
structure HttpRequest where
  /-- `self.path` -/
  path : String
  /-- `self.headers.get` -/
  header : String → Option String
  clientIp : String
  /-- `int(self.headers.get("Content-Length", 0))`, if that is a number -/
  contentLength : Option ℤ
  /-- The body, if it is JSON. -/
  body : Option Json
  /-- The limiter as the request finds it, and `time.monotonic()` then. -/
  limiter : FloatLimiter
  askedAt : Double
  /-- The ids that are drawn: for a task without one, for a worker's task, for a push
  configuration, for the first message on a stream. -/
  uuid : String
  workerUuid : String
  configId : String
  eventId : String
  worker : WorkerOutcome
  /-- How long its worker runs, in seconds. -/
  workerTime : ℕ
  /-- What the builder calls draw, one after the other. -/
  stamps : ℕ → Stamp
  /-- How often a stream is polled, at most. -/
  polls : ℕ

/-- The message of a request. -/
def HttpRequest.message (req : HttpRequest) (body rpcId : Json) : SendRequest where
  body := body
  clientIp := req.clientIp
  rpcId := rpcId
  uuid := req.uuid
  stamp := req.stamps 0
  workerUuid := req.workerUuid
  worker := req.worker

/-! ### Steps that can fail -/

/-- Perform one atomic step. -/
def call (o : ServerOp) : Handler o.Res := ExceptT.lift (server o)

/-- Perform one atomic step that answers with a value or an exception. -/
def attempt {α : Type} (p : ServerProc (Except PyError α)) : Handler α := ExceptT.mk p

/-- A pure computation. -/
def compute {α : Type} (x : Except PyError α) : Handler α := ExceptT.mk (pure x)

/-- `_send_json` -/
def sendJson (status : ℕ) (body : Json) : Handler Unit := call (.send ⟨status, body⟩)

/-- `_send_rpc_error` -/
def sendRpcError (code : ℤ) (message : String) (status : ℕ) (rpcId : Json) : Handler Unit :=
  call (.send ⟨status, rpcErrorBody code message rpcId⟩)

/-- An error without `data` and `id`. -/
def bareError (code : ℤ) (message : String) : Json :=
  .obj [("jsonrpc", .str "2.0"), ("error", .obj [("code", .int code), ("message", .str message)])]

/-- `build_error_response` -/
def buildErrorResponse (code : ℤ) (message : String) (id : Json) : Json :=
  .obj <| [("jsonrpc", .str "2.0"), ("code", .int code), ("message", .str message)] ++
    if id = .null then [] else [("id", id)]

/-! ### GetTask and CancelTask -/

/-- `get_status` -/
def getStatus (t : TaskId) : Handler Status := attempt (server (.base (.getStatus t)))

/-- `_load_task_or_404` -/
def loadTaskOr404 (t : TaskId) (rpcId : Json) : Handler (Option Status) := do
  let status ← getStatus t
  if status.state = none then
    call (.send (taskNotFound t rpcId))
    return none
  else return some status

/-- `_get_task_core` -/
def getTaskCore (t : TaskId) (rpcId : Json) (stamp : Stamp) : Handler (Option Json) := do
  match ← loadTaskOr404 t rpcId with
  | none => return none
  | some status => return some (buildTaskObject t status.name .null status.response none stamp)

/-- `_cancel_task_core` -/
def cancelTaskCore (t : TaskId) (rpcId : Json) (stamp : Stamp) : Handler (Option Json) := do
  match ← loadTaskOr404 t rpcId with
  | none => return none
  | some status =>
      if [some .completed, some .failed, some .canceled].contains status.state then
        sendRpcError A2A_ERR_TASK_NOT_CANCELABLE
          ("Task not cancelable: task is " ++ status.name) 409 rpcId
        return none
      else
        let _ ← call (.base (.cancel t))
        return some (buildTaskObject t "canceled" .null none none stamp)

/-! ### Artifacts -/

/-- `task.get("artifacts", [])`, of a Task that was built. -/
def artifactsOf (task : Json) : List Json :=
  match task.field? "artifacts" with
  | some (.arr artifacts) => artifacts
  | _ => []

/-- Push an event for each artifact to several streams. -/
def emitArtifacts (t : TaskId) (contextId : Json) (ids : List StreamId) : List Json → ServerProc Unit
  | [] => return ()
  | artifact :: artifacts => do
      let metadata := .obj [("index", artifact.getIfDict "index" .null)]
      broadcast ids (emitArtifactEvent t contextId artifact metadata)
      emitArtifacts t contextId ids artifacts

/-- The SSE half of the delivery in `_handle_task_send`. -/
def streamArtifacts (t : TaskId) (contextId task : Json) : ServerProc Unit := do
  match ← server (.streamIdsForTask t) with
  | .error _ => return ()
  | .ok ids => if ids.isEmpty then return () else emitArtifacts t contextId ids (artifactsOf task)

/-- The payload of a push notification about an artifact. -/
def artifactUpdate (t : TaskId) (contextId artifact : Json) : Json :=
  .obj
    [ ("artifact_update", .obj
        [ ("contextId", contextId), ("taskId", t), ("artifact", artifact),
          ("metadata", .obj [("index", artifact.getIfDict "index" .null)]) ]) ]

/-- Deliver each artifact to one subscriber. -/
def deliverArtifacts (t : TaskId) (contextId : Json) (sub : Subscription) :
    List Json → ServerProc Unit
  | [] => return ()
  | artifact :: artifacts => do
      server (.deliver sub.url (artifactUpdate t contextId artifact) sub.hmacKey)
      deliverArtifacts t contextId sub artifacts

/-- Deliver the artifacts to several subscribers. -/
def deliverArtifactsAll (t : TaskId) (contextId : Json) (artifacts : List Json) :
    List Subscription → ServerProc Unit
  | [] => return ()
  | sub :: subs => do
      deliverArtifacts t contextId sub artifacts
      deliverArtifactsAll t contextId artifacts subs

/-- The push half of the delivery in `_handle_task_send`. -/
def pushArtifacts (t : TaskId) (contextId task : Json) : ServerProc Unit := do
  match ← server (.subscriptionsOf t) with
  | .error _ => return ()
  | .ok subs => deliverArtifactsAll t contextId (artifactsOf task) subs

/-- `_emit_get_task_artifacts` -/
def emitGetTaskArtifacts (t : TaskId) (task : Json) : ServerProc Unit := do
  match ← server (.streamIdsForTask t) with
  | .error _ => return ()
  | .ok [] => return ()
  | .ok (id :: ids) => do
      match ← server (.base (.findTaskById t)) with
      | .error _ => return ()
      | .ok pending =>
          let contextId := (pending.map PendingTask.contextId).getD t
          emitArtifacts t contextId (id :: ids) (artifactsOf task)

/-! ### ListTasks -/

/-- The items of a page.  A response is read twice, like the other fields of the task. -/
def listItems : List (Time × PendingTask × Option TaskState) → (ℕ → Stamp) → Handler (List Json)
  | [], _ => return []
  | (_, task, state) :: page, stamps => do
      let filtered ←
        match nonEmpty? (← call (.base (.readResponse task))) with
        | none => pure none
        | some _ => do
            match ← call (.base (.readResponse task)) with
            | none => throw .typeError
            | some response => pure (some (filterOutbound response))
      let stateName := (state.map TaskState.name).getD "unknown"
      let item := buildTaskObject task.taskId stateName task.contextId filtered
        (some task.createdAt) (stamps 0)
      let items ← listItems page fun n => stamps (n + 1)
      return item :: items

/-- `_build_paginated_task_list` -/
def buildPaginatedTaskList (site : Site) (pageSize : ℤ) (token : Json) (stamps : ℕ → Stamp) :
    Handler Json := do
  let snapshot ← call .snapshot
  let allTasks := snapshot.mergeSort fun x y => decide (x.1 ≥ y.1)
  let offset := if token.truthy then (site.decodeToken token).toNat else 0
  let size := pageSize.toNat
  let items ← listItems ((allTasks.drop offset).take size) stamps
  let nextToken :=
    if allTasks.length > offset + size then site.encodeToken (offset + size) else ""
  return .obj
    [ ("task", .arr items), ("pageSize", .int pageSize), ("totalSize", .int allTasks.length),
      ("nextPageToken", .str nextToken) ]

/-- `min(max(pageSize, 1), 100)` -/
def clampPageSize (pageSize : ℤ) : ℤ := min (max pageSize 1) 100

/-! ### Streams -/

/-- `_open_sse_stream` -/
def openSseStream (t : TaskId) : Handler StreamId := do
  let id ← attempt (server (.openStream t))
  call (.startStream id)
  return id

/-- `_sse_emit`; was it written? -/
def sseEmit (id : StreamId) (eventId : Option String) (t : TaskId) (state : String)
    (contextId : Json) : Handler Bool := do
  let timestamp ← call .utcNow
  call (.sendLine id
    (.status eventId (eventNameForState state)
      (buildStatusUpdatePayload t state contextId timestamp)))

/-- Write several messages, up to the first that is not written. -/
def sendLines (id : StreamId) : List SseLine → Handler Bool
  | [] => return true
  | line :: lines => do
      if ← call (.sendLine id line) then sendLines id lines else return false

/-- `_sse_poll_until_terminal` -/
def ssePollUntilTerminal (site : Site) (id : StreamId) (t : TaskId) (contextId : Json)
    (deadline : Time) : ℕ → Handler Unit
  | 0 => call .halt
  | polls + 1 => do
      let now ← call (.base .now)
      if now < deadline then
        let lines ← call (.getPending id)
        if ← sendLines id lines then
          if ← call (.isClosed id) then return ()
          else
            let status ← getStatus t
            if status.state.any TaskState.terminal then
              let _ ← sseEmit id none t status.name contextId
              call (.closeStream id)
            else
              let now ← call (.base .now)
              call (.sleepUntil (now + site.pollInterval))
              ssePollUntilTerminal site id t contextId deadline polls
        else call (.closeStream id)
      else
        let _ ← call (.sendLine id .timedOut)
        call (.closeStream id)

/-- The loop, with its deadline. -/
def pollStream (site : Site) (req : HttpRequest) (id : StreamId) (t : TaskId) (contextId : Json) :
    Handler Unit := do
  let start ← call (.base .now)
  ssePollUntilTerminal site id t contextId (start + site.sseTimeout) req.polls

/-- `_stream_task_sse` -/
def streamTaskSse (site : Site) (req : HttpRequest) (t : TaskId) : Handler Unit := do
  let status ← getStatus t
  if status.state = none then call (.send (taskNotFound t .null))
  else
    let id ← openSseStream t
    if ← sseEmit id (some req.eventId) t status.name .null then
      if status.state.any TaskState.terminal then call (.closeStream id)
      else pollStream site req id t .null
    else call (.closeStream id)

/-! ### The REST handlers -/

/-- `_rest_get_task` -/
def restGetTask (req : HttpRequest) (t : String) : Handler Unit := do
  match ← getTaskCore (.str t) .null (req.stamps 0) with
  | none => return ()
  | some task => sendJson 200 (.obj [("task", task)])

/-- `_rest_list_tasks` -/
def restListTasks (site : Site) (req : HttpRequest) : Handler Unit := do
  let (pageSize, token) := site.listQuery req.path
  sendJson 200 (← buildPaginatedTaskList site (clampPageSize pageSize) token req.stamps)

/-- `_rest_cancel_task` -/
def restCancelTask (req : HttpRequest) (t : String) : Handler Unit := do
  match ← cancelTaskCore (.str t) .null (req.stamps 0) with
  | none => return ()
  | some task => sendJson 200 (.obj [("task", task)])

/-- `_rest_send_message` -/
def restSendMessage (site : Site) (req : HttpRequest) (body : Json) : Handler Unit := do
  let message := req.message body .null
  match ← compute (planRestSend site.platform.table message) with
  | .answer _ task => sendJson 200 task
  | .submit s => do
      let s := s.markOrigin
      match ← attempt (lift (enqueueAndAwaitTask site.platform s message.stamp)) with
      | .refused error => call (.send error)
      | .timedOut => sendJson 200 (plainTask [("id", s.taskId)] "working" (.str pollText))
      | .answered result => do
          let text ← compute (result.get "response" (.str ""))
          sendJson 200 (plainTask [("id", s.taskId)] "completed" text)

/-- `_stream_cached_result` -/
def streamCachedResult (req : HttpRequest) (cached fallbackContextId : Json) : Handler Unit := do
  let t := (← compute (cached.get "id" .null)).orElse fallbackContextId
  let contextId := (← compute (cached.get "context_id" .null)).orElse fallbackContextId
  let status ← compute (cached.get "status" (.obj []))
  let state ← compute (status.get "state" (.str "completed"))
  let id ← openSseStream t
  if ← sseEmit id (some req.eventId) t "working" contextId then
    let _ ← sseEmit id none t state.display contextId
    call (.closeStream id)
  else call (.closeStream id)

/-- `_rest_send_message_stream` -/
def restSendMessageStream (site : Site) (req : HttpRequest) (body : Json) : Handler Unit := do
  let message := req.message body .null
  match ← compute (planRestSend site.platform.table message) with
  | .answer _ task => sendJson 200 task
  | .submit s => do
      let s := s.markOrigin
      match ← attempt (lift (prepareAndEnqueue s)) with
      | .replay result => streamCachedResult req result s.contextId
      | .refused code status message => sendJson status (bareError code message)
      | .accepted _ => do
          let id ← openSseStream s.taskId
          if ← sseEmit id (some req.eventId) s.taskId "working" s.contextId then
            pollStream site req id s.taskId s.contextId
          else call (.closeStream id)

/-! ### Push configurations -/

/-- `_check_hmac_push`, which the handlers call with `required=True` only. -/
def checkHmacPush (site : Site) (req : HttpRequest) : Handler Bool := do
  if site.hmacKey = "" then return true
  else if req.header "X-HMAC-Key" = some site.hmacKey then return true
  else
    sendRpcError (-32603) "Unauthorized" 401 .null
    return false

/-- The value under the first key that has a truthy one, or under the last. -/
def firstOf (j : Json) : List String → Except PyError Json
  | [] => return .null
  | [key] => j.get key .null
  | key :: keys => do
      let value ← j.get key .null
      if value.truthy then return value else firstOf j keys

/-- The `AuthenticationInfo` of a request body. -/
def authenticationOf (body : Json) : Except PyError (Option AuthenticationInfo) := do
  let auth ← body.get "authentication" .null
  let auth ← if auth.truthy then pure auth else body.get "auth" (.obj [])
  if auth.truthy then
    let scheme ← firstOf auth ["scheme", "authType", "auth_type"]
    let credentials ← firstOf auth ["credentials", "authCode", "auth_code"]
    return some ⟨scheme, credentials⟩
  else return none

/-- The response with a configuration. -/
def configResponse (config : PushConfig) : Json :=
  .obj [("configId", .str config.id), ("config", serializePushConfig config)]

/-- `_rest_create_push_config` -/
def restCreatePushConfig (site : Site) (req : HttpRequest) (t : String) (body : Json) :
    Handler Unit := do
  if ← checkHmacPush site req then
    match ← loadTaskOr404 (.str t) .null with
    | none => return ()
    | some _ => do
        let url ← compute (body.get "url" (.str ""))
        let hmacKey ← compute (body.get "hmacKey" (.str ""))
        let other ← compute (body.get "hmac_key" (.str ""))
        if url.truthy = false then sendJson 400 (bareError (-32600) "url is required")
        else if (hmacKey.orElse other).truthy = false then
          sendJson 400 (bareError (-32600) "hmacKey is required")
        else do
          let authentication ← compute (authenticationOf body)
          let metadata ← compute (body.get "metadata" .null)
          let config : PushConfig := ⟨req.configId, t, url, authentication, metadata⟩
          call (.createPushConfig config)
          sendJson 201 (configResponse config)
  else return ()

/-- The error for a configuration that is not there. -/
def configNotFound (id : String) : HttpResponse :=
  ⟨404, bareError A2A_ERR_TASK_NOT_FOUND ("Push notification config not found: " ++ id)⟩

/-- `_rest_get_push_config` -/
def restGetPushConfig (site : Site) (req : HttpRequest) (t id : String) : Handler Unit := do
  if ← checkHmacPush site req then
    match ← loadTaskOr404 (.str t) .null with
    | none => return ()
    | some _ => do
        match ← call (.getPushConfig t id) with
        | none => call (.send (configNotFound id))
        | some config => sendJson 200 (configResponse config)
  else return ()

/-- `_rest_list_push_configs` -/
def restListPushConfigs (t : String) : Handler Unit := do
  match ← loadTaskOr404 (.str t) .null with
  | none => return ()
  | some _ => do
      let configs ← call (.listPushConfigs t)
      sendJson 200 (.obj [("items", .arr (configs.map serializePushConfig))])

/-- `_rest_delete_push_config`; the response to a deletion has no body. -/
def restDeletePushConfig (site : Site) (req : HttpRequest) (t id : String) : Handler Unit := do
  if ← checkHmacPush site req then
    match ← loadTaskOr404 (.str t) .null with
    | none => return ()
    | some _ => do
        match ← call (.deletePushConfig t id) with
        | none => call (.send (configNotFound id))
        | some _ => call (.send ⟨204, .null⟩)
  else return ()

/-! ### The JSON-RPC methods -/

/-- What a JSON-RPC method returns. -/
inductive RpcResult
  /-- `_RPC_HANDLED` -/
  | handled
  | result (j : Json)

/-- How long the worker of a message is waited for, if it has one: `communicate` gives up after
the time-out. -/
def HttpRequest.workerWait? (site : Site) (req : HttpRequest) (message : SendRequest) : Option ℕ :=
  (message.workerJob? site.platform.table).map fun job => min req.workerTime job.timeout.toNat

/-- `communicate`, in `_run_worker_subprocess` -/
def awaitWorker (site : Site) (req : HttpRequest) (message : SendRequest) : Handler Unit :=
  match req.workerWait? site message with
  | none => return ()
  | some seconds => do
      let now ← call (.base .now)
      call (.sleepUntil (now + seconds))

/-- `_handle_task_send`; `None` where the error has been sent. -/
def handleTaskSend (site : Site) (req : HttpRequest) (params rpcId : Json) : Handler Json := do
  let message := req.message params rpcId
  awaitWorker site req message
  match ← compute (planTaskSend site.platform.table message) with
  | .answer _ task => return task
  | .submit s => do
      let s := s.markOrigin
      match ← attempt (lift (enqueueAndAwaitTask site.platform s message.stamp)) with
      | .refused error => do
          call (.send error)
          return .null
      | .timedOut =>
          return buildTaskObject s.taskId "working" s.contextId (some pollText) none message.stamp
      | .answered result => do
          let contextId := s.contextId.orElse s.taskId
          ExceptT.lift (streamArtifacts s.taskId contextId result)
          ExceptT.lift (pushArtifacts s.taskId contextId result)
          return result

/-- `_rpc_send_message` -/
def rpcSendMessage (site : Site) (req : HttpRequest) (params rpcId : Json) : Handler RpcResult := do
  let task ← handleTaskSend site req params rpcId
  return .result (.obj [("task", task)])

/-- `_rpc_get_task` -/
def rpcGetTask (req : HttpRequest) (params rpcId : Json) : Handler RpcResult := do
  let t ← compute (params.get "id" (.str ""))
  match ← getTaskCore t rpcId (req.stamps 0) with
  | none => return .handled
  | some task => do
      ExceptT.lift (emitGetTaskArtifacts t task)
      return .result (.obj [("task", task)])

/-- `_rpc_cancel_task` -/
def rpcCancelTask (req : HttpRequest) (params rpcId : Json) : Handler RpcResult := do
  let t ← compute (params.get "id" (.str ""))
  match ← cancelTaskCore t rpcId (req.stamps 0) with
  | none => return .handled
  | some task => return .result (.obj [("task", task)])

/-- `_handle_send_subscribe` -/
def handleSendSubscribe (site : Site) (req : HttpRequest) (params rpcId : Json) : Handler Unit := do
  let t ← compute (params.get "taskId" (.str ""))
  let sendError (code : ℤ) (message : String) : Handler Unit :=
    sendJson 200 (.obj [("jsonrpc", .str "2.0"), ("id", rpcId),
      ("error", buildErrorResponse code message rpcId)])
  if t.truthy = false then sendError (-32600) "Invalid Request: taskId is required"
  else
    let status ← getStatus t
    if status.state = none then
      sendError A2A_ERR_TASK_NOT_FOUND ("Task not found: " ++ t.display)
    else streamTaskSse site req t

/-- `_rpc_subscribe_to_task` -/
def rpcSubscribeToTask (site : Site) (req : HttpRequest) (params rpcId : Json) :
    Handler RpcResult := do
  handleSendSubscribe site req params rpcId
  return .handled

/-- `_rpc_list_tasks` -/
def rpcListTasks (site : Site) (req : HttpRequest) (params : Json) : Handler RpcResult := do
  let pageSize ← compute (params.get "pageSize" (.int 20))
  let pageSize ← compute pageSize.toInt
  let token ← compute (params.get "continuationToken" .null)
  return .result (← buildPaginatedTaskList site (clampPageSize pageSize) token req.stamps)

end HermesA2A
