import HermesA2A.RateSettings
import HermesA2A.Server.Push
import HermesA2A.Server.Streams
import HermesA2A.System

/-!
# The server around the inbound path

`System` has the queue, the idempotency store and the clock.  The HTTP server around
it has more that its threads share: the SSE streams, the two stores of push
notifications, and the clients at the other end, who read what is sent and may hang
up.  `ServerOp` has the atomic steps on all of it; those of `System` are among them.

What a thread does to the outside is a step as well: a response that is sent, a
message on a stream, a delivery to a subscriber.  A trace says who was told what, and
when.

A program of `System` runs on the server as it is, except that
`_trigger_state_change_hook` is not one step any more but the code of `on_state_change`
(`onServer`).
-/

namespace HermesA2A

/-- An answer that is about the server and no task: it has none of the fields a Task is
found in, or is made of. -/
structure Notice where
  json : Json
  taskless : ∀ key ∈ ["result", "task", "artifacts"], json.field? key = none
  messageless : (json.field? "status").bind (·.field? "message") = none

/-- What the deployment of a server fixes. -/
structure Site where
  platform : Platform
  /-- `A2A_AUTH_TOKEN` -/
  authToken : String
  /-- `A2A_REQUIRE_AUTH` -/
  requireAuth : Bool
  /-- The server's HMAC key, or `A2A_HMAC_KEY`; `""` for none. -/
  hmacKey : String
  /-- `limiter.config` -/
  rateLimits : RateSettings
  agentCard : Notice
  extendedAgentCard : Notice
  health : Notice
  /-- `A2A_SSE_TIMEOUT` -/
  sseTimeout : Time
  pollInterval : Time
  idleTimeout : Time
  subscriptionMaxAge : Time
  /-- `datetime.now(timezone.utc)` as a text: `%Y-%m-%dT%H:%M:%SZ` -/
  utcNow : Time → String
  /-- The same: `isoformat()` -/
  isoNow : Time → String
  /-- `str(exc)` -/
  describe : PyError → String
  /-- `page_size` and `continuation_token` of the query in a path -/
  listQuery : String → ℤ × Json
  /-- `int(base64.b64decode(token).decode())`, or 0 where that fails -/
  decodeToken : Json → ℤ
  /-- `base64.b64encode(str(offset).encode()).decode()` -/
  encodeToken : ℕ → String

/-- The state all threads of the server share. -/
structure ServerState where
  world : World
  streams : SseStreamer
  configs : PushConfigStore
  subscriptions : SubscriptionStore
  /-- The streams whose client has hung up. -/
  gone : List StreamId

/-- The state at start-up. -/
def ServerState.init (clock : Time) : ServerState where
  world := .init clock
  streams := .empty
  configs := .empty
  subscriptions := .empty
  gone := []

/-- The atomic steps of the server. -/
inductive ServerOp
  | base (o : Op)
  /-- `TaskQueue.snapshot` -/
  | snapshot
  /-- `_utc_now_iso` -/
  | utcNow
  | openStream (t : TaskId)
  | pushEvent (id : StreamId) (event : SseEvent)
  | closeStream (id : StreamId)
  | getPending (id : StreamId)
  | isClosed (id : StreamId)
  | streamIdsForTask (t : TaskId)
  | closeIdleStreams
  | createPushConfig (config : PushConfig)
  | getPushConfig (t id : String)
  | listPushConfigs (t : String)
  | deletePushConfig (t id : String)
  | addSubscription (t : TaskId) (url hmacKey : Json)
  | removeSubscription (id : ℕ)
  | subscriptionsOf (t : TaskId)
  /-- A complete response. -/
  | send (response : HttpResponse)
  /-- The head of a response that is a stream. -/
  | startStream (id : StreamId)
  /-- One message on a stream; was it written? -/
  | sendLine (id : StreamId) (line : SseLine)
  /-- `deliver_with_retry`, of which the first attempt is always made. -/
  | deliver (url payload hmacKey : Json)
  /-- Wait until then. -/
  | sleepUntil (deadline : Time)
  /-- Not to be performed at all: where a program ends that could go on. -/
  | halt

/-- What an atomic step of the server answers. -/
abbrev ServerOp.Res : ServerOp → Type
  | base o => o.Res
  | snapshot => List (Time × PendingTask × Option TaskState)
  | utcNow => String
  | openStream _ => Except PyError StreamId
  | pushEvent .. => Pushed
  | closeStream _ => Unit
  | getPending _ => List SseLine
  | isClosed _ => Bool
  | streamIdsForTask _ => Except PyError (List StreamId)
  | closeIdleStreams => Unit
  | createPushConfig _ => Unit
  | getPushConfig .. => Option PushConfig
  | listPushConfigs _ => List PushConfig
  | deletePushConfig .. => Option String
  | addSubscription .. => ℕ
  | removeSubscription _ => Bool
  | subscriptionsOf _ => Except PyError (List Subscription)
  | send _ => Unit
  | startStream _ => Unit
  | sendLine .. => Bool
  | deliver .. => Unit
  | sleepUntil _ => Unit
  | halt => Unit

/-! ### Steps -/

/-- What a step does to the streams. -/
def ServerOp.onStreams (site : Site) (now : Time) : ServerOp → SseStreamer → SseStreamer
  | openStream t, s => (s.openStream now t).2
  | pushEvent id event, s => (s.pushEvent now (site.isoNow now) id event).2
  | closeStream id, s => s.closeStream id
  | getPending id, s => (s.getPending id).2
  | closeIdleStreams, s => s.closeIdleStreams now site.idleTimeout
  | _, s => s

/-- What a step does to the configurations. -/
def ServerOp.onConfigs : ServerOp → PushConfigStore → PushConfigStore
  | createPushConfig config, s => s.create config
  | deletePushConfig t id, s => (s.delete t id).2
  | _, s => s

/-- What a step does to the subscriptions. -/
def ServerOp.onSubscriptions (site : Site) (now : Time) :
    ServerOp → SubscriptionStore → SubscriptionStore
  | addSubscription t url hmacKey, s => (s.add now site.subscriptionMaxAge t url hmacKey).2
  | removeSubscription id, s => (s.remove id).2
  | _, s => s

/-- What a step does to the queue, the store and the clock. -/
def ServerOp.onWorld (P : Platform) : ServerOp → World → World
  | base o, w => o.after P w
  | _, w => w

/-- Does the step have to wait? -/
def ServerOp.blocked (w : World) : ServerOp → Bool
  | base o => o.blocked w
  | sleepUntil deadline => decide (w.clock < deadline)
  | halt => true
  | _ => false

/-- What a step answers, in a state where it is not blocked. -/
def ServerOp.answer (site : Site) (s : ServerState) : (o : ServerOp) → o.Res
  | base o => o.answer site.platform s.world
  | snapshot => s.world.queue.snapshot
  | utcNow => site.utcNow s.world.clock
  | openStream t => (s.streams.openStream s.world.clock t).1
  | pushEvent id event =>
      (s.streams.pushEvent s.world.clock (site.isoNow s.world.clock) id event).1
  | closeStream _ => ()
  | getPending id => (s.streams.getPending id).1
  | isClosed id => s.streams.isClosed id
  | streamIdsForTask t => s.streams.streamIdsForTask t
  | closeIdleStreams => ()
  | createPushConfig _ => ()
  | getPushConfig t id => s.configs.getConfig t id
  | listPushConfigs t => s.configs.list t
  | deletePushConfig t id => (s.configs.delete t id).1
  | addSubscription t url hmacKey =>
      (s.subscriptions.add s.world.clock site.subscriptionMaxAge t url hmacKey).1
  | removeSubscription id => (s.subscriptions.remove id).1
  | subscriptionsOf t => s.subscriptions.subscriptionsOf t
  | send _ => ()
  | startStream _ => ()
  | sendLine id _ => decide (id ∉ s.gone)
  | deliver .. => ()
  | sleepUntil _ => ()
  | halt => ()

/-- The state after a step. -/
def ServerOp.after (site : Site) (o : ServerOp) (s : ServerState) : ServerState where
  world := o.onWorld site.platform s.world
  streams := o.onStreams site s.world.clock s.streams
  configs := o.onConfigs s.configs
  subscriptions := o.onSubscriptions site s.world.clock s.subscriptions
  gone := s.gone

/-- One atomic step of the server. -/
def serve (site : Site) (o : ServerOp) (s : ServerState) : Option (o.Res × ServerState) :=
  if o.blocked s.world then none else some (o.answer site s, o.after site s)

theorem serve_eq_some_iff {site : Site} {o : ServerOp} {s s' : ServerState} {r : o.Res} :
    serve site o s = some (r, s') ↔
      o.blocked s.world = false ∧ r = o.answer site s ∧ s' = o.after site s := by
  unfold serve
  by_cases h : o.blocked s.world = true
  · simp [h]
  · simp [h, eq_comm]

/-- How the surroundings move. -/
inductive ServerEnv
  /-- Time passes. -/
  | tick (d : ℕ)
  /-- The client of a stream hangs up. -/
  | hangUp (id : StreamId)

/-- What that does. -/
def ServerEnv.move : ServerEnv → ServerState → ServerState
  | tick d, s => { s with world := HermesA2A.tick d s.world }
  | hangUp id, s => { s with gone := id :: s.gone }

/-! ### Programs -/

/-- A program of the server that raises no exception. -/
abbrev ServerProc (α : Type) := Prog ServerOp ServerOp.Res α

/-- A program of the server. -/
abbrev Handler (α : Type) := ExceptT PyError (Prog ServerOp ServerOp.Res) α

/-- Perform one atomic step. -/
abbrev server (o : ServerOp) : ServerProc o.Res := Prog.perform o

/-- Push one event to several streams.  It keeps the id it gets from the first. -/
def broadcast : List StreamId → SseEvent → ServerProc Unit
  | [], _ => return ()
  | id :: ids, event => do
      let pushed ← server (.pushEvent id event)
      broadcast ids pushed.event

/-- `_push_sse` -/
def pushSse (t : TaskId) (event : SseEvent) : ServerProc Unit := do
  match ← server (.streamIdsForTask t) with
  | .error _ => return ()
  | .ok ids => broadcast ids event

/-- Deliver one payload to several subscribers. -/
def deliverAll (payload : Json) : List Subscription → ServerProc Unit
  | [] => return ()
  | sub :: subs => do
      server (.deliver sub.url payload sub.hmacKey)
      deliverAll payload subs

/-- `_push_notifications` -/
def pushNotifications (t : TaskId) (newState : TaskState) (contextId : Json) : ServerProc Unit := do
  match ← server (.subscriptionsOf t) with
  | .error _ => return ()
  | .ok [] => return ()
  | .ok (sub :: subs) => do
      let timestamp ← server .utcNow
      deliverAll (buildStatusUpdatePayload t newState.name contextId timestamp) (sub :: subs)

/-- `TaskStateChangeHook.on_state_change`; `_trigger_state_change_hook` lets nothing
it raises out.  The first step says that it was called. -/
def onStateChange (t : TaskId) (oldState : String) (newState : TaskState) (contextId : Json) :
    ServerProc Unit := do
  server (.base (.stateHook t oldState newState contextId))
  let contextId := contextId.orElse t
  pushSse t ⟨t, newState.name, eventNameForState newState.name, none, contextId, .status⟩
  pushNotifications t newState contextId

/-- A step of the inbound path, on the server. -/
def onServer : (o : Op) → ServerProc o.Res
  | .stateHook t oldState newState contextId => onStateChange t oldState newState contextId
  | o => server (.base o)

/-- A program of the inbound path, on the server. -/
def lift {α : Type} (p : Proc α) : ServerProc α := p.expand onServer

end HermesA2A
