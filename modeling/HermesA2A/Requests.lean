import HermesA2A.Conduct

/-!
# Every request keeps to its rights

Handler by handler, and then for every thread of the server (`prog_keepsTo`): a GET
changes neither the queue nor a configuration, a DELETE has no stream, and every
response shows filtered texts only, but for the answer of a worker (`hworker`).
-/

namespace HermesA2A

section Server

variable {subscribed : Subscription → Prop} {rights : Rights}

/-! ### The handlers -/

section Handlers

variable (site : Site) (req : HttpRequest)
  (hclean : ∀ response, CleanResponse response → rights.responds response)

include hclean

theorem streamTaskSse_keepsTo (hstreams : rights.streams) (t : TaskId) :
    HandlerKeepsTo subscribed rights (streamTaskSse site req t) fun _ => True := by
  refine (getStatus_keepsTo t).bind fun status _ => ?_
  by_cases hstate : status.state = none
  · rw [if_pos hstate]
    exact keepsTo_silent hclean rfl
  · rw [if_neg hstate]
    refine (openSseStream_keepsTo hstreams t).bind fun id _ => ?_
    refine (sseEmit_keepsTo hstreams ..).bind fun written _ => ?_
    split_ifs
    · exact closeStream_keepsTo hstreams id
    · exact pollStream_keepsTo hstreams ..
    · exact closeStream_keepsTo hstreams id

theorem restGetTask_keepsTo (t : String) :
    HandlerKeepsTo subscribed rights (restGetTask req t) fun _ => True := by
  refine (getTaskCore_keepsTo hclean ..).bind ?_
  rintro (_ | task) h
  · exact keepsTo_pure trivial
  · exact keepsTo_sendJson hclean (cleanResponse_task (h task rfl).clean (h task rfl).ne_arr)

theorem restListTasks_keepsTo :
    HandlerKeepsTo subscribed rights (restListTasks site req) fun _ => True :=
  (buildPaginatedTaskList_keepsTo ..).bind fun _ h => keepsTo_sendJson hclean h.1

theorem restCancelTask_keepsTo (hqueue : rights.queue) (t : String) :
    HandlerKeepsTo subscribed rights (restCancelTask req t) fun _ => True := by
  refine (cancelTaskCore_keepsTo hclean hqueue ..).bind ?_
  rintro (_ | task) h
  · exact keepsTo_pure trivial
  · exact keepsTo_sendJson hclean (cleanResponse_task (h task rfl).clean (h task rfl).ne_arr)

omit hclean in
/-- A REST handler that answers by itself says that there was no message. -/
theorem cleanResponse_restAnswer {message : SendRequest} {exit : EarlyExit} {task : Json}
    (h : planRestSend site.platform.table message = .ok (.answer exit task)) :
    CleanResponse ⟨200, task⟩ := by
  cases planRestSend_plans h with
  | blank => exact cleanResponse_plainTask isFiltered_emptyMessage

theorem restSendMessage_keepsTo (hqueue : rights.queue) (body : Json) :
    HandlerKeepsTo subscribed rights (restSendMessage site req body) fun _ => True := by
  refine keepsTo_compute_bind fun plan hplan => ?_
  cases plan with
  | answer exit task => exact keepsTo_sendJson hclean (cleanResponse_restAnswer site hplan)
  | submit s =>
      refine HandlerKeepsTo.bind (keepsTo_attempt (keepsTo_lift
        (enqueueAndAwaitTask_relies hqueue ..))) ?_
      rintro (result | error | _) h
      · refine keepsTo_compute_bind fun text htext => ?_
        obtain rfl := Except.ok.inj (h.get_response.symm.trans htext)
        exact keepsTo_sendJson hclean (cleanResponse_plainTask isFiltered_empty)
      · exact keepsTo_send hclean h
      · exact keepsTo_sendJson hclean (cleanResponse_plainTask isFiltered_pollText)

omit hclean in
theorem streamCachedResult_keepsTo (hstreams : rights.streams) (cached fallbackContextId : Json) :
    HandlerKeepsTo subscribed rights (streamCachedResult req cached fallbackContextId)
      fun _ => True := by
  refine keepsTo_compute_bind fun _ _ => keepsTo_compute_bind fun _ _ => ?_
  refine keepsTo_compute_bind fun _ _ => keepsTo_compute_bind fun _ _ => ?_
  refine (openSseStream_keepsTo hstreams _).bind fun id _ => ?_
  refine (sseEmit_keepsTo hstreams ..).bind fun written _ => ?_
  split_ifs
  · exact (sseEmit_keepsTo hstreams ..).bind fun _ _ => closeStream_keepsTo hstreams id
  · exact closeStream_keepsTo hstreams id

theorem restSendMessageStream_keepsTo (hqueue : rights.queue) (hstreams : rights.streams)
    (body : Json) :
    HandlerKeepsTo subscribed rights (restSendMessageStream site req body) fun _ => True := by
  refine keepsTo_compute_bind fun plan hplan => ?_
  cases plan with
  | answer exit task => exact keepsTo_sendJson hclean (cleanResponse_restAnswer site hplan)
  | submit s =>
      refine HandlerKeepsTo.bind (keepsTo_attempt (keepsTo_lift
        (prepareAndEnqueue_relies hqueue _))) ?_
      rintro (task | ⟨code, status, message⟩ | result) h
      · refine (openSseStream_keepsTo hstreams _).bind fun id _ => ?_
        refine (sseEmit_keepsTo hstreams ..).bind fun written _ => ?_
        split_ifs
        · exact pollStream_keepsTo hstreams ..
        · exact closeStream_keepsTo hstreams id
      · exact keepsTo_silent hclean rfl
      · exact streamCachedResult_keepsTo req hstreams ..

theorem checkHmacPush_keepsTo :
    HandlerKeepsTo subscribed rights (checkHmacPush site req) fun _ => True := by
  unfold checkHmacPush
  split_ifs
  · exact keepsTo_pure trivial
  · exact keepsTo_pure trivial
  · exact (keepsTo_silent hclean rfl).bind fun _ _ => keepsTo_pure trivial

theorem restCreatePushConfig_keepsTo (hconfigs : rights.configs) (t : String) (body : Json) :
    HandlerKeepsTo subscribed rights (restCreatePushConfig site req t body) fun _ => True := by
  refine (checkHmacPush_keepsTo site req hclean).bind fun admitted _ => ?_
  split_ifs
  · refine (loadTaskOr404_keepsTo hclean ..).bind ?_
    rintro (_ | status) -
    · exact keepsTo_pure trivial
    refine keepsTo_compute_bind fun url _ => keepsTo_compute_bind fun hmacKey _ => ?_
    refine keepsTo_compute_bind fun other _ => ?_
    split_ifs
    · exact keepsTo_silent hclean rfl
    · exact keepsTo_silent hclean rfl
    · refine keepsTo_compute_bind fun _ _ => keepsTo_compute_bind fun _ _ => ?_
      exact keepsTo_call_bind hconfigs fun _ => keepsTo_silent hclean rfl
  · exact keepsTo_pure trivial

theorem restGetPushConfig_keepsTo (t id : String) :
    HandlerKeepsTo subscribed rights (restGetPushConfig site req t id) fun _ => True := by
  refine (checkHmacPush_keepsTo site req hclean).bind fun admitted _ => ?_
  split_ifs
  · refine (loadTaskOr404_keepsTo hclean ..).bind ?_
    rintro (_ | status) -
    · exact keepsTo_pure trivial
    refine keepsTo_call_bind trivial ?_
    rintro (_ | config)
    · exact keepsTo_silent hclean rfl
    · exact keepsTo_silent hclean rfl
  · exact keepsTo_pure trivial

theorem restListPushConfigs_keepsTo (t : String) :
    HandlerKeepsTo subscribed rights (restListPushConfigs t) fun _ => True := by
  refine (loadTaskOr404_keepsTo hclean ..).bind ?_
  rintro (_ | status) -
  · exact keepsTo_pure trivial
  · exact keepsTo_call_bind trivial fun configs => keepsTo_silent hclean rfl

theorem restDeletePushConfig_keepsTo (hconfigs : rights.configs) (t id : String) :
    HandlerKeepsTo subscribed rights (restDeletePushConfig site req t id) fun _ => True := by
  refine (checkHmacPush_keepsTo site req hclean).bind fun admitted _ => ?_
  split_ifs
  · refine (loadTaskOr404_keepsTo hclean ..).bind ?_
    rintro (_ | status) -
    · exact keepsTo_pure trivial
    refine keepsTo_call_bind hconfigs ?_
    rintro (_ | deleted)
    · exact keepsTo_silent hclean rfl
    · exact keepsTo_silent hclean rfl
  · exact keepsTo_pure trivial

/-! ### JSON-RPC -/

/-- What a method returns may be sent as a result. -/
def Rights.RespondsResult (rights : Rights) (rpcId : Json) : RpcResult → Prop
  | .handled => True
  | .result j => rights.responds (rpcResult j rpcId)

omit hclean in
theorem awaitWorker_keepsTo (message : SendRequest) :
    HandlerKeepsTo subscribed rights (awaitWorker site req message) fun _ => True := by
  unfold awaitWorker
  cases req.workerWait? site message with
  | none => exact keepsTo_pure trivial
  | some seconds =>
      refine keepsTo_call_bind ⟨nofun, trivial⟩ fun now => ?_
      exact HandlerKeepsTo.mono (keepsTo_call trivial) fun _ _ => trivial

theorem handleTaskSend_keepsTo (hqueue : rights.queue) {params rpcId : Json}
    (hworker : ∀ task, planTaskSend site.platform.table (req.message params rpcId) =
      .ok (.answer .worker task) → rights.responds (rpcResult (.obj [("task", task)]) rpcId)) :
    HandlerKeepsTo subscribed rights (handleTaskSend site req params rpcId) fun task =>
      rights.responds (rpcResult (.obj [("task", task)]) rpcId) := by
  refine (awaitWorker_keepsTo ..).bind fun _ _ => ?_
  refine keepsTo_compute_bind fun plan hplan => ?_
  have hbuilt : ∀ {task : Json}, Storable task →
      rights.responds (rpcResult (.obj [("task", task)]) rpcId) :=
    fun h => hclean _ (cleanResponse_rpcTask h.clean h.ne_arr)
  cases plan with
  | answer exit task =>
      refine keepsTo_pure ?_
      cases planTaskSend_plans hplan with
      | blank => exact hbuilt (storable_buildTaskObject ..)
      | worker => exact hworker _ hplan
      | returnImmediately => exact hbuilt (storable_buildTaskObject ..)
  | submit s =>
      refine HandlerKeepsTo.bind (keepsTo_attempt (keepsTo_lift
        (enqueueAndAwaitTask_relies hqueue ..))) ?_
      rintro (result | error | _) h
      · refine (keepsTo_exceptLift (streamArtifacts_keepsTo h.clean _ _)).bind fun _ _ => ?_
        refine (keepsTo_exceptLift (pushArtifacts_keepsTo h.clean _ _)).bind fun _ _ => ?_
        exact keepsTo_pure (hbuilt h)
      · refine (keepsTo_send hclean h).bind fun _ _ => keepsTo_pure ?_
        exact hclean _ (cleanResponse_of_eq_nil rfl)
      · exact keepsTo_pure (hbuilt (storable_buildTaskObject ..))

theorem rpcGetTask_keepsTo (params rpcId : Json) :
    HandlerKeepsTo subscribed rights (rpcGetTask req params rpcId)
      (rights.RespondsResult rpcId) := by
  refine keepsTo_compute_bind fun t _ => (getTaskCore_keepsTo hclean ..).bind ?_
  rintro (_ | task) h
  · exact keepsTo_pure trivial
  · have hstorable := h task rfl
    refine (keepsTo_exceptLift (emitGetTaskArtifacts_keepsTo hstorable.clean t)).bind fun _ _ => ?_
    exact keepsTo_pure (hclean _ (cleanResponse_rpcTask hstorable.clean hstorable.ne_arr))

theorem rpcCancelTask_keepsTo (hqueue : rights.queue) (params rpcId : Json) :
    HandlerKeepsTo subscribed rights (rpcCancelTask req params rpcId)
      (rights.RespondsResult rpcId) := by
  refine keepsTo_compute_bind fun t _ => (cancelTaskCore_keepsTo hclean hqueue ..).bind ?_
  rintro (_ | task) h
  · exact keepsTo_pure trivial
  · exact keepsTo_pure (hclean _ (cleanResponse_rpcTask (h task rfl).clean (h task rfl).ne_arr))

theorem handleSendSubscribe_keepsTo (hstreams : rights.streams) (params rpcId : Json) :
    HandlerKeepsTo subscribed rights (handleSendSubscribe site req params rpcId)
      fun _ => True := by
  refine keepsTo_compute_bind fun t _ => ?_
  by_cases htruthy : t.truthy = false
  · rw [if_pos htruthy]
    exact keepsTo_silent hclean rfl
  · rw [if_neg htruthy]
    refine (getStatus_keepsTo t).bind fun status _ => ?_
    split_ifs
    · exact keepsTo_silent hclean rfl
    · exact streamTaskSse_keepsTo site req hclean hstreams t

theorem rpcListTasks_keepsTo (params rpcId : Json) :
    HandlerKeepsTo subscribed rights (rpcListTasks site req params)
      (rights.RespondsResult rpcId) := by
  refine keepsTo_compute_bind fun _ _ => keepsTo_compute_bind fun _ _ => ?_
  refine keepsTo_compute_bind fun _ _ => (buildPaginatedTaskList_keepsTo ..).bind fun _ h => ?_
  exact keepsTo_pure (hclean _ (h.2 rpcId))

/-! ### Requests -/

theorem readBody_keepsTo {unauthorized : Handler Unit} {badLength : ℤ → ℕ → Handler Unit}
    (hunauthorized : HandlerKeepsTo subscribed rights unauthorized fun _ => True)
    (hbadLength : ∀ length status,
      HandlerKeepsTo subscribed rights (badLength length status) fun _ => True) :
    HandlerKeepsTo subscribed rights (readBody site req unauthorized badLength) fun _ => True := by
  refine keepsTo_compute_bind fun authorised _ => ?_
  split_ifs
  · exact hunauthorized.bind fun _ _ => keepsTo_pure trivial
  refine keepsTo_compute_bind fun limited _ => ?_
  cases limited with
  | some retryAfter => exact (keepsTo_silent hclean rfl).bind fun _ _ => keepsTo_pure trivial
  | none =>
      cases req.contentLength with
      | none => exact (keepsTo_silent hclean rfl).bind fun _ _ => keepsTo_pure trivial
      | some length =>
          dsimp only
          split_ifs
          · exact (hbadLength _ _).bind fun _ _ => keepsTo_pure trivial
          · exact (hbadLength _ _).bind fun _ _ => keepsTo_pure trivial
          · cases req.body with
            | none => exact (keepsTo_silent hclean rfl).bind fun _ _ => keepsTo_pure trivial
            | some body => exact keepsTo_pure trivial

theorem doRestPost_keepsTo {handler : Json → Handler Unit}
    (h : ∀ body, HandlerKeepsTo subscribed rights (handler body) fun _ => True) :
    HandlerKeepsTo subscribed rights (doRestPost site req handler) fun _ => True := by
  refine (readBody_keepsTo site req hclean ?_ fun _ _ => ?_).bind ?_
  · exact keepsTo_silent hclean rfl
  · exact keepsTo_silent hclean rfl
  · rintro (_ | body) -
    · exact keepsTo_pure trivial
    · exact h body

omit hclean in
theorem guarded_keepsTo {handler : Handler Unit} {error : PyError → HttpResponse}
    (h : HandlerKeepsTo subscribed rights handler fun _ => True)
    (herror : ∀ e, rights.responds (error e)) :
    HandlerKeepsTo subscribed rights (guarded handler error) fun _ => True := by
  exact Owes.guarded h herror

variable (hworker : ∀ params rpcId task,
  planTaskSend site.platform.table (req.message params rpcId) = .ok (.answer .worker task) →
    rights.responds (rpcResult (.obj [("task", task)]) rpcId))

include hworker

theorem rpcMethod_keepsTo (hqueue : rights.queue) (hstreams : rights.streams) (m : RpcMethod)
    (params rpcId : Json) :
    HandlerKeepsTo subscribed rights (m.handler site req params rpcId)
      (rights.RespondsResult rpcId) := by
  cases m with
  | sendMessage =>
      exact (handleTaskSend_keepsTo site req hclean hqueue (hworker params rpcId)).bind
        fun _ h => keepsTo_pure h
  | getTask => exact rpcGetTask_keepsTo req hclean params rpcId
  | cancelTask => exact rpcCancelTask_keepsTo req hclean hqueue params rpcId
  | subscribeToTask =>
      exact (handleSendSubscribe_keepsTo site req hclean hstreams params rpcId).bind
        fun _ _ => keepsTo_pure trivial
  | listTasks => exact rpcListTasks_keepsTo site req hclean params rpcId

theorem doJsonRpc_keepsTo (hqueue : rights.queue) (hstreams : rights.streams) :
    HandlerKeepsTo subscribed rights (doJsonRpc site req) fun _ => True := by
  refine guarded_keepsTo ?_ fun e => hclean _ (cleanResponse_of_eq_nil rfl)
  refine (readBody_keepsTo site req hclean ?_ fun _ _ => ?_).bind ?_
  · exact keepsTo_silent hclean rfl
  · exact keepsTo_silent hclean rfl
  rintro (_ | body) -
  · exact keepsTo_pure trivial
  refine keepsTo_compute_bind fun request _ => ?_
  cases request with
  | invalid => exact keepsTo_silent hclean rfl
  | method m params rpcId =>
      refine (rpcMethod_keepsTo site req hclean hworker hqueue hstreams m params rpcId).bind ?_
      rintro (_ | j) h
      · exact keepsTo_pure trivial
      · exact (keepsTo_call (o := .send (rpcResult j rpcId)) h).mono fun _ _ => trivial

/-- **A POST** needs every right, and to send what a worker has answered. -/
theorem doPost_keepsTo (hqueue : rights.queue) (hconfigs : rights.configs)
    (hstreams : rights.streams) :
    HandlerKeepsTo subscribed rights (doPost site req) fun _ => True := by
  unfold doPost
  cases req.postRoute with
  | send =>
      exact doRestPost_keepsTo site req hclean (restSendMessage_keepsTo site req hclean hqueue)
  | stream =>
      exact doRestPost_keepsTo site req hclean
        (restSendMessageStream_keepsTo site req hclean hqueue hstreams)
  | cancel t =>
      exact doRestPost_keepsTo site req hclean fun _ => restCancelTask_keepsTo req hclean hqueue t
  | createPushConfig t =>
      exact doRestPost_keepsTo site req hclean
        (restCreatePushConfig_keepsTo site req hclean hconfigs t)
  | jsonRpc => exact doJsonRpc_keepsTo site req hclean hworker hqueue hstreams

omit hworker in
/-- **A GET** needs streams only. -/
theorem doGet_keepsTo (hstreams : rights.streams) :
    HandlerKeepsTo subscribed rights (doGet site req) fun _ => True := by
  have hhandler : HandlerKeepsTo subscribed rights (req.getRoute.handler site req)
      fun _ => True := by
    cases req.getRoute with
    | subscribe t => exact streamTaskSse_keepsTo site req hclean hstreams _
    | getPushConfig t id => exact restGetPushConfig_keepsTo site req hclean t id
    | listPushConfigs t => exact restListPushConfigs_keepsTo hclean t
    | getTask t => exact restGetTask_keepsTo req hclean t
    | extendedAgentCard => exact keepsTo_sendJson hclean (cleanResponse_notice _ _)
    | listTasks => exact restListTasks_keepsTo site req hclean
    | agentCard => exact keepsTo_sendJson hclean (cleanResponse_notice _ _)
    | health => exact keepsTo_sendJson hclean (cleanResponse_notice _ _)
    | notFound => exact keepsTo_silent hclean rfl
  have hrest : ∀ refused : Bool, HandlerKeepsTo subscribed rights
      (if refused = true then sendRpcError (-32603) "Unauthorized" 401 .null
        else guarded (req.getRoute.handler site req) fun _ =>
          ⟨500, rpcErrorBody (-32603) "Internal error" .null⟩) fun _ => True := by
    intro refused
    split_ifs
    · exact keepsTo_silent hclean rfl
    · exact guarded_keepsTo hhandler fun _ => hclean _ (cleanResponse_of_eq_nil rfl)
  unfold doGet
  split_ifs
  · exact keepsTo_compute_bind fun authorised _ => hrest _
  · exact hrest false

omit hworker in
/-- **A DELETE** needs the configurations. -/
theorem doDelete_keepsTo (hconfigs : rights.configs) :
    HandlerKeepsTo subscribed rights (doDelete site req) fun _ => True := by
  unfold doDelete
  dsimp only
  split_ifs
  · exact restDeletePushConfig_keepsTo site req hclean hconfigs _ _
  · exact keepsTo_silent hclean rfl

end Handlers

theorem serveHttp_keepsTo {handler : Handler Unit}
    (h : HandlerKeepsTo subscribed rights handler fun _ => True) :
    KeepsTo subscribed rights (serveHttp handler) fun _ => True :=
  Prog.Relies.bind h fun _ _ => trivial

end Server

/-! ### Every thread -/

/-- The rights that a call needs for what it does. -/
def ServerCall.rights (responds : ServerCall → HttpResponse → Prop) (x : ServerCall) : Rights where
  queue :=
    match x with
    | get _ | delete _ => False
    | _ => True
  configs :=
    match x with
    | post _ | delete _ => True
    | _ => False
  streams :=
    match x with
    | delete _ => False
    | _ => True
  responds := responds x

/-- **Every thread keeps to the rights of its call**, where every call may send clean
responses, and a POST the answer of its worker. -/
theorem prog_keepsTo {subscribed : Subscription → Prop} (site : Site)
    {responds : ServerCall → HttpResponse → Prop}
    (hclean : ∀ x response, CleanResponse response → responds x response)
    (hworker : ∀ req params rpcId task,
      planTaskSend site.platform.table (req.message params rpcId) = .ok (.answer .worker task) →
        responds (.post req) (rpcResult (.obj [("task", task)]) rpcId)) (x : ServerCall) :
    KeepsTo subscribed (x.rights responds) (x.prog site) fun _ => True := by
  cases x with
  | get req => exact serveHttp_keepsTo (doGet_keepsTo site req (hclean _) trivial)
  | post req =>
      exact serveHttp_keepsTo
        (doPost_keepsTo site req (hclean _) (hworker req) trivial trivial trivial)
  | delete req => exact serveHttp_keepsTo (doDelete_keepsTo site req (hclean _) trivial)
  | preLlmCall =>
      exact serveInternal_keepsTo (internal_relies trivial site.platform (x := .preLlmCall) nofun)
  | postLlmCall taskId response turn turn' =>
      exact serveInternal_keepsTo (internal_relies trivial site.platform
        (x := .postLlmCall taskId response turn turn') nofun)
  | webhookFailure t =>
      exact serveInternal_keepsTo (internal_relies trivial site.platform
        (x := .webhookFailure t) nofun)
  | watchdogPass =>
      exact serveInternal_keepsTo (internal_relies trivial site.platform (x := .watchdogPass) nofun)
  | evictExpired =>
      exact serveInternal_keepsTo (internal_relies trivial site.platform (x := .evictExpired) nofun)
  | closeIdleStreams => exact ⟨trivial, fun _ _ => trivial⟩

end HermesA2A
