import HermesA2A.Server.Handlers

/-!
# The HTTP server as a concurrent system

`do_GET`, `do_POST` and `do_DELETE`: who is let in, which handler a path leads to, and
who catches what the handler raises.  `do_GET` has the route handlers in a `try`,
`_do_json_rpc` has everything in one; the REST half of `do_POST` and `do_DELETE` have
none.

`httpServer` runs any number of requests, LLM hooks and background passes in any
interleaving.

`hmac.compare_digest` raises on a text that is not ASCII, and a header can be one.
-/

namespace HermesA2A

/-! ### Who is let in -/

/-- `hmac.compare_digest` -/
def compareDigest (a b : String) : Except PyError Bool :=
  if a.toList.all (·.toNat < 128) ∧ b.toList.all (·.toNat < 128) then .ok (a == b)
  else .error .typeError

/-- What follows `Bearer ` in the `Authorization` header, stripped. -/
def HttpRequest.bearer? (req : HttpRequest) : Option String :=
  let auth := ((req.header "Authorization").getD "").toList
  if "Bearer ".toList.isPrefixOf auth then some (String.ofList (auth.drop 7)).strip else none

/-- Does the request come from the machine itself? -/
def HttpRequest.isLocal (req : HttpRequest) : Bool :=
  req.clientIp = "127.0.0.1" ∨ req.clientIp = "::1"

/-- `_check_auth` -/
def checkAuth (site : Site) (req : HttpRequest) : Except PyError Bool :=
  if req.isLocal then .ok !site.requireAuth
  else if site.authToken = "" then .ok false
  else
    match req.bearer? with
    | none => .ok false
    | some given => compareDigest given site.authToken

/-- `_rate_limit_client_id` -/
def rateLimitClientId (site : Site) (req : HttpRequest) : String :=
  let forwarded := (req.header site.rateLimits.headerName).getD ""
  if forwarded = "" then req.clientIp
  else (String.ofList (forwarded.toList.takeWhile (· ≠ ','))).strip

/-- `limiter.allow(self._rate_limit_client_id())`: the `retry_after` of a request that is
refused. -/
def limiterAllow (site : Site) (req : HttpRequest) : Except PyError (Option ℤ) := do
  let ((allowed, retryAfter), _) ←
    req.limiter.allow site.rateLimits (rateLimitClientId site req) (.round 1) req.askedAt
  return if allowed then none else some retryAfter

/-- `_send_json_rate_limited` -/
def sendJsonRateLimited (retryAfter : ℤ) : Handler Unit :=
  sendJson 429 <| .obj
    [ ("jsonrpc", .str "2.0"),
      ("error", .obj
        [ ("code", .int (-32603)), ("message", .str "Rate limit exceeded"),
          ("data", .obj [("retryAfter", .int retryAfter)]) ]),
      ("id", .null) ]

/-- The request as far as its body: authorised, within its budget, of an acceptable
length, and JSON.  `unauthorized` and `badLength` are what the two callers send. -/
def readBody (site : Site) (req : HttpRequest) (unauthorized : Handler Unit)
    (badLength : ℤ → ℕ → Handler Unit) : Handler (Option Json) := do
  if (← compute (checkAuth site req)) = false then
    unauthorized
    return none
  else
    match ← compute (limiterAllow site req) with
    | some retryAfter =>
        sendJsonRateLimited retryAfter
        return none
    | none =>
        match req.contentLength with
        | none =>
            sendRpcError (-32600) "Invalid Content-Length" 400 .null
            return none
        | some length =>
            if length ≤ 0 ∨ length > 65536 then
              badLength length (if length > 65536 then 413 else 400)
              return none
            else
              match req.body with
              | none =>
                  sendRpcError (-32700) "Parse error" 400 .null
                  return none
              | some body => return some body

/-- The text about a length that is not accepted. -/
def lengthMessage (length : ℤ) : String := "Content-Length must be 1-65536, got " ++ toString length

/-- `_do_rest_post` -/
def doRestPost (site : Site) (req : HttpRequest) (handler : Json → Handler Unit) :
    Handler Unit := do
  match ← readBody site req (sendJson 401 (bareError (-32603) "Unauthorized"))
      fun length status => sendJson status (bareError (-32600) (lengthMessage length)) with
  | none => return ()
  | some body => handler body

/-! ### JSON-RPC -/

/-- `_RPC_METHODS` -/
inductive RpcMethod
  | sendMessage
  | getTask
  | cancelTask
  | subscribeToTask
  | listTasks
  deriving DecidableEq

/-- `_RPC_METHODS.get(method)` -/
def rpcMethod? : String → Option RpcMethod
  | "SendMessage" => some .sendMessage
  | "GetTask" => some .getTask
  | "CancelTask" => some .cancelTask
  | "SubscribeToTask" => some .subscribeToTask
  | "ListTasks" => some .listTasks
  | _ => none

/-- The handler of a method. -/
def RpcMethod.handler (site : Site) (req : HttpRequest) (params rpcId : Json) :
    RpcMethod → Handler RpcResult
  | sendMessage => rpcSendMessage site req params rpcId
  | getTask => rpcGetTask req params rpcId
  | cancelTask => rpcCancelTask req params rpcId
  | subscribeToTask => rpcSubscribeToTask site req params rpcId
  | listTasks => rpcListTasks site req params

/-- What a JSON-RPC body asks for. -/
inductive RpcRequest
  | invalid (code : ℤ) (message : String) (status : ℕ) (rpcId : Json)
  | method (m : RpcMethod) (params rpcId : Json)

/-- `_do_json_rpc_inner`, from the parsed body to the lookup of the method. -/
def readRpc (body : Json) : Except PyError RpcRequest := do
  let method ← body.get "method" (.str "")
  let params ← body.get "params" (.obj [])
  let rpcId ← body.get "id" .null
  let jsonrpc ← body.get "jsonrpc" .null
  if jsonrpc ≠ .str "2.0" then
    return .invalid (-32600) "Invalid Request: missing or invalid jsonrpc field" 400 rpcId
  else if method.truthy = false then
    return .invalid (-32600) "Invalid Request: missing method" 400 rpcId
  else if method.hashable = false then throw .typeError
  else
    let notFound := .invalid (-32601) ("Method not found: " ++ method.display) 404 rpcId
    match method with
    | .str name => return ((rpcMethod? name).map fun m => .method m params rpcId).getD notFound
    | _ => return notFound

/-- `_do_json_rpc_inner` -/
def doJsonRpcInner (site : Site) (req : HttpRequest) : Handler Unit := do
  match ← readBody site req (sendRpcError (-32603) "Unauthorized" 401 .null)
      fun length status => sendRpcError (-32600) (lengthMessage length) status .null with
  | none => return ()
  | some body =>
      match ← compute (readRpc body) with
      | .invalid code message status rpcId => sendRpcError code message status rpcId
      | .method m params rpcId =>
          match ← m.handler site req params rpcId with
          | .handled => return ()
          | .result j => call (.send (rpcResult j rpcId))

/-- Whatever is raised becomes an error response. -/
def guarded (handler : Handler Unit) (error : PyError → HttpResponse) : Handler Unit :=
  ExceptT.mk do
    match ← handler.run with
    | .ok () => return .ok ()
    | .error e => do
        server (.send (error e))
        return .ok ()

/-- `_do_json_rpc` -/
def doJsonRpc (site : Site) (req : HttpRequest) : Handler Unit :=
  guarded (doJsonRpcInner site req) fun e =>
    ⟨500, rpcErrorBody (-32603) ("Internal error: " ++ site.describe e) .null⟩

/-! ### Routes -/

/-- `self.path.split("?")[0]` -/
def HttpRequest.route (req : HttpRequest) : List Char := req.path.toList.takeWhile (· ≠ '?')

/-- `path.split("/")` -/
def HttpRequest.segments (req : HttpRequest) : List (List Char) := req.route.splitOn '/'

/-- What stands before the first occurrence of a text, or everything. -/
def beforeText (sep : List Char) : List Char → List Char
  | [] => []
  | c :: cs => if sep.isPrefixOf (c :: cs) then [] else c :: beforeText sep cs

/-- Does the path end in `/tasks/{id}/pushNotificationConfigs…`? -/
def isConfigPath (segments : List (List Char)) : Bool :=
  segments[1]? = some "tasks".toList ∧ segments[3]? = some "pushNotificationConfigs".toList

/-- The second segment, as a text. -/
def segmentText (segments : List (List Char)) (n : ℕ) : String :=
  String.ofList (segments.getD n [])

/-- What a GET leads to. -/
inductive GetRoute
  | subscribe (t : String)
  | getPushConfig (t id : String)
  | listPushConfigs (t : String)
  | getTask (t : String)
  | extendedAgentCard
  | listTasks
  | agentCard
  | health
  | notFound
  deriving DecidableEq

/-- The routes of `do_GET`, the first that matches. -/
def HttpRequest.getRoute (req : HttpRequest) : GetRoute :=
  let path := req.route
  let segments := req.segments
  let isTask := "/tasks/".toList.isPrefixOf path
  if isTask ∧ Json.isSubstring ":subscribe" (String.ofList path) then
    .subscribe (String.ofList (beforeText ":subscribe".toList (segments.getD 2 [])))
  else if segments.length = 5 ∧ isConfigPath segments then
    .getPushConfig (segmentText segments 2) (segmentText segments 4)
  else if segments.length = 4 ∧ isConfigPath segments then
    .listPushConfigs (segmentText segments 2)
  else if isTask ∧ segments.length = 3 then .getTask (segmentText segments 2)
  else if path = "/extendedAgentCard".toList then .extendedAgentCard
  else if path = "/tasks".toList then .listTasks
  else if path = "/.well-known/agent.json".toList then .agentCard
  else if path = "/health".toList then .health
  else .notFound

/-- The handler of a GET. -/
def GetRoute.handler (site : Site) (req : HttpRequest) : GetRoute → Handler Unit
  | subscribe t => streamTaskSse site req (.str t)
  | getPushConfig t id => restGetPushConfig site req t id
  | listPushConfigs t => restListPushConfigs t
  | getTask t => restGetTask req t
  | extendedAgentCard => sendJson 200 site.extendedAgentCard.json
  | listTasks => restListTasks site req
  | agentCard => sendJson 200 site.agentCard.json
  | health => sendJson 200 site.health.json
  | notFound => sendJson 404 (.obj [("error", .str "Not found")])

/-- Is the path one that `do_GET` guards? -/
def HttpRequest.isGuarded (req : HttpRequest) : Bool :=
  "/tasks".toList.isPrefixOf req.route || "/extendedAgentCard".toList.isPrefixOf req.route

/-- `do_GET`.  The three handlers outside the `try` raise nothing. -/
def doGet (site : Site) (req : HttpRequest) : Handler Unit := do
  let refused ←
    if req.isGuarded ∧ site.requireAuth then do
      let authorised ← compute (checkAuth site req)
      pure !authorised
    else pure false
  if refused then sendRpcError (-32603) "Unauthorized" 401 .null
  else
    guarded (req.getRoute.handler site req) fun _ =>
      ⟨500, rpcErrorBody (-32603) "Internal error" .null⟩

/-- `do_DELETE` -/
def doDelete (site : Site) (req : HttpRequest) : Handler Unit :=
  let segments := req.segments
  if segments.length = 5 ∧ isConfigPath segments then
    restDeletePushConfig site req (segmentText segments 2) (segmentText segments 4)
  else sendJson 404 (.obj [("error", .str "Not found")])

/-- What a POST leads to. -/
inductive PostRoute
  | send
  | stream
  | cancel (t : String)
  | createPushConfig (t : String)
  | jsonRpc
  deriving DecidableEq

/-- The routes of `do_POST`, the first that matches. -/
def HttpRequest.postRoute (req : HttpRequest) : PostRoute :=
  let path := req.route
  let segments := req.segments
  if path = "/message:send".toList then .send
  else if path = "/message:stream".toList then .stream
  else if "/tasks/".toList.isPrefixOf path ∧ Json.isSubstring ":cancel" (String.ofList path) then
    let rest := beforeText "/tasks/".toList (path.drop 7)
    .cancel (String.ofList (beforeText ":cancel".toList rest))
  else if segments.length = 4 ∧ isConfigPath segments then
    .createPushConfig (segmentText segments 2)
  else .jsonRpc

/-- The handler of a POST. -/
def PostRoute.handler (site : Site) (req : HttpRequest) : PostRoute → Handler Unit
  | send => doRestPost site req (restSendMessage site req)
  | stream => doRestPost site req (restSendMessageStream site req)
  | cancel t => doRestPost site req fun _ => restCancelTask req t
  | createPushConfig t => doRestPost site req (restCreatePushConfig site req t)
  | jsonRpc => doJsonRpc site req

/-- `do_POST` -/
def doPost (site : Site) (req : HttpRequest) : Handler Unit := req.postRoute.handler site req

/-! ### The system -/

/-- What a thread of the server can be started for. -/
inductive ServerCall
  | get (req : HttpRequest)
  | post (req : HttpRequest)
  | delete (req : HttpRequest)
  | preLlmCall
  | postLlmCall (taskId : Json) (response : String) (turn turn' : ℕ)
  | webhookFailure (t : TaskId)
  | watchdogPass
  | evictExpired
  | closeIdleStreams

/-- How a thread of the server ends. -/
inductive ServerOutcome
  /-- A request has been handled, or its handler has raised. -/
  | http (result : Except PyError Unit)
  /-- A hook or a background pass has ended. -/
  | internal (outcome : Outcome)

/-- A request handler as a thread. -/
def serveHttp (handler : Handler Unit) : ServerProc ServerOutcome := do
  let result ← handler.run
  return .http result

/-- A thread of the inbound path as one of the server. -/
def serveInternal (p : Proc Outcome) : ServerProc ServerOutcome := do
  let outcome ← lift p
  return .internal outcome

/-- The program of a call. -/
def ServerCall.prog (site : Site) : ServerCall → ServerProc ServerOutcome
  | get req => serveHttp (doGet site req)
  | post req => serveHttp (doPost site req)
  | delete req => serveHttp (doDelete site req)
  | preLlmCall => serveInternal HermesA2A.preLlmCall
  | postLlmCall taskId response turn turn' =>
      serveInternal (HermesA2A.postLlmCall taskId response turn turn')
  | webhookFailure t => serveInternal (HermesA2A.webhookFailure t)
  | watchdogPass => serveInternal (HermesA2A.watchdogPass site.platform)
  | evictExpired => serveInternal (Call.prog site.platform .evictExpired)
  | closeIdleStreams => do
      server .closeIdleStreams
      return .internal .done

/-- The HTTP server. -/
def httpServer (site : Site) :
    Machine ServerOp ServerOp.Res ServerState ServerEnv ServerCall ServerOutcome where
  exec := serve site
  env := ServerEnv.move
  prog := ServerCall.prog site

/-- A configuration of the server. -/
abbrev ServerConfig := Machine.Config ServerOp ServerOp.Res ServerState ServerCall ServerOutcome

/-- Every run. -/
abbrev anyServerStep : Machine.Guard ServerOp ServerOp.Res ServerState ServerCall ServerOutcome :=
  fun _ _ _ => True

/-! ### Fixed inputs -/

/-- An empty notice. -/
def Notice.sample : Notice := ⟨.obj [], by decide, rfl⟩

/-- A site for runs on fixed inputs: with a bearer token, without an HMAC key, and with
the source's defaults. -/
def Site.sample : Site where
  platform := .sample
  authToken := "token"
  requireAuth := false
  hmacKey := ""
  rateLimits := .default
  agentCard := .sample
  extendedAgentCard := .sample
  health := .sample
  sseTimeout := 300
  pollInterval := 1
  idleTimeout := 300
  subscriptionMaxAge := 3600
  utcNow _ := "2026-01-01T00:00:00Z"
  isoNow _ := "2026-01-01T00:00:00+00:00"
  describe _ := ""
  listQuery _ := (20, .null)
  decodeToken _ := 0
  encodeToken n := toString n

/-- A request with the token, from the address `10.0.0.1`. -/
def HttpRequest.sample (path : String) (body : Json) : HttpRequest where
  path := path
  header name := if name = "Authorization" then some "Bearer token" else none
  clientIp := "10.0.0.1"
  contentLength := some 100
  body := some body
  limiter := .new
  askedAt := .round 0
  uuid := "uuid-1"
  workerUuid := "uuid-2"
  configId := "config-1"
  eventId := "event-1"
  worker := .failed ""
  workerTime := 0
  stamps _ := Stamp.sample
  polls := 3

/-- The body of a JSON-RPC request. -/
def rpcBody (method : String) (params : List (String × Json)) : Json :=
  .obj [("jsonrpc", .str "2.0"), ("method", .str method), ("params", .obj params), ("id", .int 1)]

/-- A JSON-RPC message for the task `t`. -/
def HttpRequest.sampleMessage (t : String) : HttpRequest :=
  .sample "/" (rpcBody "SendMessage"
    [("id", .str t), ("message", .obj [("parts", .arr [.obj [("text", .str "hi")]])])])

/-- Scheduling decisions of the server. -/
abbrev ServerMove := Machine.Move ServerEnv ServerCall

/-- Start these calls and carry out a schedule. -/
def playServer (site : Site) (calls : List ServerCall) (moves : List ServerMove) :
    Option ServerConfig :=
  (httpServer site).play (fun _ _ _ => true) moves
    ((httpServer site).started (ServerState.init 0) calls)

/-- To show that some run gets somewhere, run a schedule. -/
theorem exists_of_playServer {site : Site} {calls : List ServerCall} {moves : List ServerMove}
    {p : ServerConfig → Bool} (h : (playServer site calls moves).any p = true) :
    ∃ c, (httpServer site).Reaches anyServerStep (ServerState.init 0) c ∧
      (∀ i x, calls[i]? = some x → c.Calls i x) ∧ p c = true :=
  Machine.exists_of_play_started (fun _ _ _ _ => trivial) h

end HermesA2A
