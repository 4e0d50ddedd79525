import HermesA2A.A2ASpec.Tasks
import HermesA2A.RateSettings

/-!
# SendMessage: from the request to the queue and back to the client

The two handlers of a message, `_handle_task_send` (JSON-RPC) and
`_rest_send_message` (REST), without their common middle: what they make of a
request before the queue is asked (`planTaskSend`, `planRestSend`), and what they
send for each outcome of the middle (`replyTaskSend`, `replyRestSend`).  The
middle itself, `_enqueue_and_await_task`, is a program over the shared state.

### Aliasing

The idempotency payload is the request dictionary itself, and the metadata the
handler writes to is the dictionary *inside* it, provided the client sent one; for
a client that sent none it is a fresh dictionary.  A `Submission` keeps the
request as it came, the metadata as it is now, and whether the two are shared;
`Submission.payload` puts them together.

### Left out

The Server-Sent Events and push deliveries after a JSON-RPC answer, which reach
neither the queue nor the answer; the subprocess of a worker request, known here
by what it came to and, where it is waited for, by its time.
-/

namespace HermesA2A

/-- `str.isalnum` of one character: a Unicode table, known on ASCII. -/
structure CharTable where
  isAlnum : Char → Bool
  ascii : ∀ c : Char, c.toNat < 128 → isAlnum c = c.isAlphanum

/-- What a worker subprocess came to. -/
inductive WorkerOutcome
  /-- It was not started, or printed a result that is no dictionary. -/
  | raised (e : PyError)
  /-- It timed out, failed, or printed no JSON; the text says which. -/
  | failed (text : String)
  /-- It printed a result with this `response`. -/
  | completed (response : Json)

/-- A message as a handler gets it, with what the handler takes from outside. -/
structure SendRequest where
  /-- The JSON-RPC `params`, or the REST body. -/
  body : Json
  clientIp : String
  rpcId : Json
  /-- The id drawn for a task without one. -/
  uuid : String
  stamp : Stamp
  /-- The same, for a worker request. -/
  workerUuid : String
  worker : WorkerOutcome

/-- An HTTP response: status code and JSON body. -/
structure HttpResponse where
  status : ℕ
  body : Json
  deriving DecidableEq

/-- The two ways in. -/
inductive Transport
  | jsonRpc
  | rest
  deriving DecidableEq

/-! ### Reading the message -/

/-- The `text` of every part that has one. -/
def textsOf : List Json → Except PyError (List Json)
  | [] => return []
  | part :: parts => do
      if ← part.contains "text" then
        let text ← part.get "text" (.str "")
        let texts ← textsOf parts
        return text :: texts
      else textsOf parts

/-- `_extract_text_parts` -/
def extractTextParts (message : Json) : Except PyError String := do
  let parts ← message.get "parts" (.arr [])
  let items ← parts.iterate
  let texts ← textsOf items
  let texts ← texts.mapM Json.asText
  return String.intercalate "\n" texts

/-- Does a piece of the raw name stay in the label? -/
def keepsPiece (table : CharTable) (piece : String) : Bool :=
  (piece != "" && piece.toList.all table.isAlnum) || Json.isSubstring piece "-_.@ "

/-- A piece of the raw name: only a text has `isalnum`. -/
def asPiece : Json → Except PyError String
  | .str s => .ok s
  | _ => .error .attributeError

/-- `"".join(c for c in raw_name if c.isalnum() or c in "-_.@ ")[:64]` -/
def sanitizeName (table : CharTable) (rawName : Json) : Except PyError String := do
  let items ← rawName.iterate
  let pieces ← items.mapM asPiece
  return String.ofList (((pieces.filter (keepsPiece table)).flatMap String.toList).take 64)

/-- The sender's label where the metadata has none. -/
def senderLabel (metadata source : Json) (clientIp : String) : Except PyError Json := do
  let fromField ← source.get "from" .null
  let fromField ←
    if fromField.truthy then pure fromField
    else do
      let sender ← source.get "sender" (.obj [])
      sender.get "name" .null
  if fromField.truthy then return fromField
  let agentName ← metadata.get "agent_name" .null
  return agentName.orElse (.str ("agent-" ++ clientIp))

/-- `_resolve_sender_name`: the metadata with its `sender_name`. -/
def resolveSenderName (table : CharTable) (metadata source : Json) (clientIp : String) :
    Except PyError Json := do
  let metadata ←
    if ← metadata.contains "sender_name" then pure metadata
    else do
      let label ← senderLabel metadata source clientIp
      metadata.set "sender_name" label
  let rawName ← metadata.get "sender_name" (.str "")
  let name ← sanitizeName table (rawName.orElse (.str ""))
  metadata.set "sender_name" (.str name)

/-! ### Submissions -/

/-- What `_enqueue_and_await_task` is called with. -/
structure Submission where
  taskId : TaskId
  userText : String
  metadata : Json
  contextId : Json
  idemKey : Json
  /-- The request as it came. -/
  request : Json
  /-- Is `metadata` the dictionary inside `request`? -/
  shared : Bool
  rpcId : Json
  deriving DecidableEq

/-- A request with the metadata of its message replaced. -/
def withMetadata (request metadata : Json) : Json :=
  match request with
  | .obj fields =>
      match fields.lookup "message" with
      | some (.obj message) =>
          .obj (Json.setField "message" (.obj (Json.setField "metadata" metadata message)) fields)
      | _ => request
  | _ => request

/-- The dictionary that is hashed: the request, seen through the aliasing. -/
def Submission.payload (s : Submission) : Json :=
  if s.shared then withMetadata s.request s.metadata else s.request

/-- `metadata["_a2a_origin"] = "peer"` -/
def Submission.markOrigin (s : Submission) : Submission :=
  { s with metadata := setInside "_a2a_origin" (.str "peer") s.metadata }

/-! ### Before the queue -/

/-- Why a handler answers by itself. -/
inductive EarlyExit
  | emptyMessage
  | worker
  | returnImmediately
  deriving DecidableEq

/-- What a handler does with a request. -/
inductive SendPlan
  /-- Answer with this Task. -/
  | answer (exit : EarlyExit) (task : Json)
  /-- Go on to `_enqueue_and_await_task`. -/
  | submit (s : Submission)

/-- What a client is told that has to come back. -/
def pollText : String := "(processing — poll with tasks/get)"

/-- A Task without builder: one artifact with one text. -/
def plainTask (header : List (String × Json)) (state : String) (text : Json) : Json :=
  .obj <| header ++
    [ ("status", .obj [("state", .str state)]),
      ("artifacts", .arr [.obj [("parts", .arr [.obj [("text", text)]]), ("index", .int 0)]]) ]

/-- `int(…)` -/
def Json.toInt : Json → Except PyError ℤ
  | .bool b => .ok b.toNat
  | .int n => .ok n
  | .float repr => floatOfText repr >>= intOf
  | .str text => intOfText text
  | _ => .error .typeError

/-- What a worker is started for. -/
structure WorkerJob where
  taskId : Json
  timeout : ℤ
  /-- The profile, as it was named. -/
  name : String

/-- `_handle_task_send_mode3`, before the subprocess. -/
def workerJob (params metadata : Json) (uuid : String) : Except PyError WorkerJob := do
  let taskId ← params.get "id" (.str uuid)
  let asked ← metadata.get "timeout" .null
  let given ← params.get "timeout" .null
  let timeout ← ((asked.orElse given).orElse (.int 300)).toInt
  let name ← params.get "name" .null
  let agentName ← metadata.get "agent_name" .null
  let senderName ← metadata.get "sender_name" .null
  let name := (name.orElse agentName).orElse senderName
  if name.truthy = false then throw .valueError
  else
    match name with
    | .str name => return ⟨taskId, timeout, name⟩
    | _ => throw .attributeError

/-- Can `communicate` wait that long?  It adds the time-out to a float, and polls with a C `int`
of milliseconds. -/
def waitable (timeout : ℤ) : Bool := -Double.overflowBound < timeout && timeout ≤ 2147483

/-- `_handle_task_send_mode3` -/
def handleTaskSendMode3 (params metadata contextId : Json) (uuid : String)
    (outcome : WorkerOutcome) : Except PyError Json := do
  let job ← workerJob params metadata uuid
  -- the registry of workers is a dictionary
  if job.taskId.hashable = false then throw .typeError
  else
    let header := [("id", job.taskId), ("context_id", contextId.orElse job.taskId)]
    match outcome, waitable job.timeout with
    | .raised e, _ => throw e
    | _, false => throw .overflowError
    | .failed text, true => return plainTask header "failed" (.str text)
    | .completed response, true => return plainTask header "completed" response

/-- Does the request ask for a worker on this side? -/
def wantsWorker (metadata : Json) : Except PyError Bool := do
  let hermes ← metadata.get "hermes" (.obj [])
  let workerAt ← metadata.get "worker_at" (.str "")
  return workerAt == .str "target" ||
    hermes.getIfDict "execution" .null == .str "remote_subprocess"

/-- The task's context: the request's, the metadata's, or the task itself. -/
def contextOf (body metadata : Json) (taskId : TaskId) : Except PyError Json := do
  let contextId ← body.get "contextId" .null
  if contextId.truthy then return contextId
  let contextId ← metadata.get "context_id" .null
  return contextId.orElse taskId

/-- `_handle_task_send`, up to the call of `_enqueue_and_await_task`. -/
def planTaskSend (table : CharTable) (req : SendRequest) : Except PyError SendPlan := do
  let params := req.body
  let taskId ← params.get "id" (.str req.uuid)
  let message ← params.get "message" (.obj [])
  let configuration ← params.get "configuration" (.obj [])
  let returnImmediately ← configuration.get "return_immediately" (.bool false)
  let userText ← extractTextParts message
  if userText.strip = "" then
    return .answer .emptyMessage
      (buildTaskObject taskId "failed" .null (some "Empty message") none req.stamp)
  let metadata ← message.get "metadata" (.obj [])
  let contextId ← contextOf params metadata taskId
  if ← wantsWorker metadata then
    let task ← handleTaskSendMode3 params metadata contextId req.workerUuid req.worker
    return .answer .worker task
  if returnImmediately.truthy then
    return .answer .returnImmediately
      (buildTaskObject taskId "working" (contextId.orElse taskId) (some pollText) none req.stamp)
  let metadata ← resolveSenderName table metadata params req.clientIp
  let idemKey ← params.get "idempotencyKey" .null
  return .submit {
    taskId := taskId
    userText := userText
    metadata := metadata
    contextId := contextId
    idemKey := idemKey
    request := params
    shared := (message.field? "metadata").isSome
    rpcId := req.rpcId }

/-- The job of the worker that is waited for, if the request gets that far: it is answered by a
worker that does no more than fail. -/
def SendRequest.workerJob? (table : CharTable) (req : SendRequest) : Option WorkerJob :=
  match planTaskSend table { req with worker := .failed "" } with
  | .ok (.answer .worker _) => Except.toOption do
      let message ← req.body.get "message" (.obj [])
      let metadata ← message.get "metadata" (.obj [])
      workerJob req.body metadata req.workerUuid
  | _ => none

/-- `_rest_send_message`, up to the call of `_enqueue_and_await_task`. -/
def planRestSend (table : CharTable) (req : SendRequest) : Except PyError SendPlan := do
  let body := req.body
  let message ← body.get "message" (.obj [])
  let userText ← extractTextParts message
  if userText.strip = "" then
    return .answer .emptyMessage
      (plainTask [("id", .str req.uuid)] "failed" (.str "Empty message"))
  let metadata ← message.get "metadata" (.obj [])
  let taskId ← body.get "id" .null
  let taskId := taskId.orElse (.str req.uuid)
  let contextId ← contextOf body metadata taskId
  let metadata ← resolveSenderName table metadata body req.clientIp
  let idemKey ← body.get "idempotencyKey" .null
  return .submit {
    taskId := taskId
    userText := userText
    metadata := metadata
    contextId := contextId
    idemKey := idemKey
    request := body
    shared := (message.field? "metadata").isSome
    rpcId := .null }

/-- The plan of either handler. -/
def planSend (table : CharTable) (transport : Transport) (req : SendRequest) :
    Except PyError SendPlan :=
  match transport with
  | .jsonRpc => planTaskSend table req
  | .rest => planRestSend table req

/-! ### Back to the client -/

/-- The body `_send_rpc_error` sends. -/
def rpcErrorBody (code : ℤ) (message : String) (rpcId : Json) : Json :=
  .obj
    [ ("jsonrpc", .str "2.0"),
      ("error", .obj [("code", .int code), ("message", .str message), ("data", .null)]),
      ("id", rpcId) ]

/-- The envelope of a JSON-RPC result. -/
def rpcResult (result rpcId : Json) : HttpResponse :=
  ⟨200, .obj [("jsonrpc", .str "2.0"), ("result", result), ("id", rpcId)]⟩

/-- What `_enqueue_and_await_task` returns; a refusal has been sent already. -/
inductive Awaited
  | answered (result : Json)
  | refused (error : HttpResponse)
  | timedOut

/-- What `_handle_task_send` and its caller send for each outcome.  After a
refusal the caller still wraps the handler's `None`. -/
def replyTaskSend (req : SendRequest) (s : Submission) :
    Awaited → Except PyError (List HttpResponse)
  | .answered result => return [rpcResult (.obj [("task", result)]) req.rpcId]
  | .refused error => return [error, rpcResult (.obj [("task", .null)]) req.rpcId]
  | .timedOut =>
      let task := buildTaskObject s.taskId "working" s.contextId (some pollText) none req.stamp
      return [rpcResult (.obj [("task", task)]) req.rpcId]

/-- What `_rest_send_message` sends for each outcome. -/
def replyRestSend (s : Submission) : Awaited → Except PyError (List HttpResponse)
  | .answered result => do
      let text ← result.get "response" (.str "")
      return [⟨200, plainTask [("id", s.taskId)] "completed" text⟩]
  | .refused error => return [error]
  | .timedOut => return [⟨200, plainTask [("id", s.taskId)] "working" (.str pollText)⟩]

/-- What either handler sends for each outcome. -/
def replySend (transport : Transport) (req : SendRequest) (s : Submission) :
    Awaited → Except PyError (List HttpResponse) :=
  match transport with
  | .jsonRpc => replyTaskSend req s
  | .rest => replyRestSend s

/-- What either handler sends when it answers by itself. -/
def replyEarly (transport : Transport) (req : SendRequest) (task : Json) : HttpResponse :=
  match transport with
  | .jsonRpc => rpcResult (.obj [("task", task)]) req.rpcId
  | .rest => ⟨200, task⟩

/-- The Task in a response: under `result` for JSON-RPC, the body itself for
REST. -/
def taskIn? (transport : Transport) (response : HttpResponse) : Option Json :=
  match transport with
  | .jsonRpc => (response.body.field? "result").bind (·.field? "task")
  | .rest => some response.body

/-- The error code in a response. -/
def errorCode? (response : HttpResponse) : Option Json :=
  (response.body.field? "error").bind (·.field? "code")

end HermesA2A
