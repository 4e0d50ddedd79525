import HermesA2A.ContextConduct

/-!
# What the requests say about tasks

The handlers, and then every thread of the server (`prog_onRecord`): apart from what is on
record it names tasks by its own fallbacks only, those of `ServerCall.FallsBackTo`.
-/

namespace HermesA2A

/-! ### The context of a submission -/

/-- A context is empty only where the task id is. -/
theorem own_of_contextOf {body metadata : Json} {t : TaskId} {c : Json}
    (h : contextOf body metadata t = .ok c) : c.orElse t = c := by
  obtain ⟨given, -, h⟩ := exists_of_bind_ok h
  by_cases htruthy : given.truthy = true
  · rw [if_pos htruthy] at h
    obtain rfl := Except.ok.inj h
    exact if_pos htruthy
  · rw [if_neg htruthy] at h
    obtain ⟨noted, -, h⟩ := exists_of_bind_ok h
    obtain rfl := Except.ok.inj h
    exact Json.orElse_orElse_self ..

theorem own_of_planTaskSend {table : CharTable} {req : SendRequest} {s : Submission}
    (h : planTaskSend table req = .ok (.submit s)) :
    s.markOrigin.contextId.orElse s.markOrigin.taskId = s.markOrigin.contextId := by
  cases planTaskSend_plans h with
  | submit _ _ _ _ _ context_eq => exact own_of_contextOf context_eq

theorem own_of_planRestSend {table : CharTable} {req : SendRequest} {s : Submission}
    (h : planRestSend table req = .ok (.submit s)) :
    s.markOrigin.contextId.orElse s.markOrigin.taskId = s.markOrigin.contextId := by
  cases planRestSend_plans h with
  | submit _ _ _ _ _ context_eq => exact own_of_contextOf context_eq

namespace ContextRecord

variable {R : ContextRecord} {fallback : TaskId → Option Json → Prop} (site : Site)
  (req : HttpRequest)

/-! ### The handlers -/

section Reads

variable {t : TaskId} (hself : fallback t (some t))

include hself

/-- `_stream_task_sse` names a task with itself. -/
theorem streamTaskSse_onRecord : R.Speaks fallback (streamTaskSse site req t) fun _ => True := by
  have hmay : R.May fallback t (some (Json.null.orElse t)) := Or.inr hself
  refine (getStatus_onRecord t).bind fun status _ => ?_
  by_cases hstate : status.state = none
  · rw [if_pos hstate]
    exact speaks_silent rfl
  · rw [if_neg hstate]
    refine (openSseStream_onRecord t).bind fun id _ => ?_
    refine (sseEmit_onRecord hmay ..).bind fun written _ => ?_
    split_ifs
    · exact closeStream_onRecord id
    · exact pollStream_onRecord hmay ..
    · exact closeStream_onRecord id

end Reads

theorem restGetTask_onRecord {t : String} (hself : fallback (.str t) (some (.str t))) :
    R.Speaks fallback (restGetTask req t) fun _ => True := by
  refine (getTaskCore_onRecord hself ..).bind ?_
  rintro (_ | task) h
  · exact owes_pure trivial
  · exact speaks_send ((h task rfl).response rfl)

theorem restCancelTask_onRecord {t : String} (hself : fallback (.str t) (some (.str t))) :
    R.Speaks fallback (restCancelTask req t) fun _ => True := by
  refine (cancelTaskCore_onRecord hself ..).bind ?_
  rintro (_ | task) h
  · exact owes_pure trivial
  · exact speaks_send ((h task rfl).response rfl)

theorem restListTasks_onRecord : R.Speaks fallback (restListTasks site req) fun _ => True :=
  (buildPaginatedTaskList_onRecord ..).bind fun _ h => speaks_send h.1

/-! ### Messages over REST -/

section Rest

variable {body : Json}

theorem restSendMessage_onRecord (hnone : ∀ t, fallback t none) :
    R.Speaks fallback (restSendMessage site req body) fun _ => True := by
  refine owes_compute_bind fun plan hplan => ?_
  cases plan with
  | answer exit task =>
      cases planRestSend_plans hplan with
      | blank => exact speaks_send (says_plainTask (hnone _))
  | submit s =>
      have hown := own_of_planRestSend hplan
      refine (speaks_attempt (enqueueAndAwaitTask_onRecord site.platform hown _)).bind ?_
      rintro (result | error | _) h
      · exact owes_compute_bind fun text _ => speaks_send (says_plainTask (hnone _))
      · exact speaks_silent h
      · exact speaks_send (says_plainTask (hnone _))

/-- `_stream_cached_result` names the task that was stored, unless its id is falsy. -/
theorem streamCachedResult_onRecord {cached fallbackContextId : Json} (hfiled : R.Filed cached)
    (hreplayed : ∀ t c, cached.field? "id" = some t → t.truthy = false →
      cached.field? "context_id" = some c →
        fallback fallbackContextId (some (c.orElse fallbackContextId))) :
    R.Speaks fallback (streamCachedResult req cached fallbackContextId) fun _ => True := by
  obtain ⟨t, c, hknown, ht, hc⟩ := hfiled
  have hget : ∀ {key : String} {value default : Json}, cached.field? key = some value →
      cached.get key default = .ok value := by
    intro key value default hvalue
    cases cached with
    | obj fields => exact congrArg Except.ok (congrArg (·.getD default) hvalue)
    | _ => cases hvalue
  -- the context goes with the id, or with what stands for it
  have hmay : R.May fallback (t.orElse fallbackContextId)
      (some ((c.orElse fallbackContextId).orElse (t.orElse fallbackContextId))) := by
    cases htruthy : t.truthy with
    | true =>
        have hct : c.truthy = true := by
          rw [← R.own t c hknown]
          exact Json.truthy_orElse htruthy c
        rw [Json.orElse_of_truthy htruthy, Json.orElse_of_truthy hct]
        exact May.known hknown
    | false =>
        rw [Json.orElse_of_falsy htruthy, Json.orElse_orElse_self]
        exact Or.inr (hreplayed t c ht htruthy hc)
  unfold streamCachedResult
  rw [hget ht, hget hc]
  refine owes_compute_bind fun t' ht' => owes_compute_bind fun c' hc' => ?_
  obtain rfl := Except.ok.inj ht'
  obtain rfl := Except.ok.inj hc'
  refine owes_compute_bind fun _ _ => owes_compute_bind fun _ _ => ?_
  refine (openSseStream_onRecord _).bind fun id _ => ?_
  refine (sseEmit_onRecord hmay ..).bind fun written _ => ?_
  split_ifs
  · exact (sseEmit_onRecord hmay ..).bind fun _ _ => closeStream_onRecord id
  · exact closeStream_onRecord id

theorem restSendMessageStream_onRecord
    (hblank : ∀ exit task,
      planRestSend site.platform.table (req.message body .null) = .ok (.answer exit task) →
        fallback (.str req.uuid) none)
    (hreplayed : ∀ s cached t c,
      planRestSend site.platform.table (req.message body .null) = .ok (.submit s) →
        R.stored s.idemKey cached → cached.field? "id" = some t → t.truthy = false →
          cached.field? "context_id" = some c →
            fallback s.contextId (some (c.orElse s.contextId))) :
    R.Speaks fallback (restSendMessageStream site req body) fun _ => True := by
  refine owes_compute_bind fun plan hplan => ?_
  cases plan with
  | answer exit task =>
      have hnone := hblank exit task hplan
      cases planRestSend_plans hplan with
      | blank => exact speaks_send (says_plainTask hnone)
  | submit s =>
      have hown := own_of_planRestSend hplan
      refine (speaks_attempt (prepareAndEnqueue_onRecord hown)).bind ?_
      rintro (task | ⟨code, status, message⟩ | result) h
      · have hmay : R.May fallback s.taskId (some (s.contextId.orElse s.taskId)) := May.known h.2
        refine (openSseStream_onRecord _).bind fun id _ => ?_
        refine (sseEmit_onRecord hmay ..).bind fun written _ => ?_
        split_ifs
        · exact pollStream_onRecord hmay ..
        · exact closeStream_onRecord id
      · exact speaks_silent rfl
      · exact streamCachedResult_onRecord req h.1 fun t c => hreplayed s result t c hplan h.2

end Rest

/-! ### Push configurations -/

section Configs

theorem checkHmacPush_onRecord : R.Speaks fallback (checkHmacPush site req) fun _ => True := by
  unfold checkHmacPush
  split_ifs
  · exact owes_pure trivial
  · exact owes_pure trivial
  · exact (speaks_silent rfl).bind fun _ _ => owes_pure trivial

theorem restCreatePushConfig_onRecord (t : String) (body : Json) :
    R.Speaks fallback (restCreatePushConfig site req t body) fun _ => True := by
  refine (checkHmacPush_onRecord site req).bind fun admitted _ => ?_
  split_ifs
  · refine (loadTaskOr404_onRecord ..).bind ?_
    rintro (_ | status) -
    · exact owes_pure trivial
    refine owes_compute_bind fun url _ => owes_compute_bind fun hmacKey _ => ?_
    refine owes_compute_bind fun other _ => ?_
    split_ifs
    · exact speaks_silent rfl
    · exact speaks_silent rfl
    · refine owes_compute_bind fun _ _ => owes_compute_bind fun _ _ => ?_
      exact owes_call_bind (.silent rfl trivial) fun _ => speaks_silent rfl
  · exact owes_pure trivial

theorem restGetPushConfig_onRecord (t id : String) :
    R.Speaks fallback (restGetPushConfig site req t id) fun _ => True := by
  refine (checkHmacPush_onRecord site req).bind fun admitted _ => ?_
  split_ifs
  · refine (loadTaskOr404_onRecord ..).bind ?_
    rintro (_ | status) -
    · exact owes_pure trivial
    refine owes_call_bind (.silent rfl trivial) ?_
    rintro (_ | config)
    · exact speaks_silent rfl
    · exact speaks_silent rfl
  · exact owes_pure trivial

theorem restListPushConfigs_onRecord (t : String) :
    R.Speaks fallback (restListPushConfigs t) fun _ => True := by
  refine (loadTaskOr404_onRecord ..).bind ?_
  rintro (_ | status) -
  · exact owes_pure trivial
  · exact owes_call_bind (.silent rfl trivial) fun configs => speaks_silent rfl

theorem restDeletePushConfig_onRecord (t id : String) :
    R.Speaks fallback (restDeletePushConfig site req t id) fun _ => True := by
  refine (checkHmacPush_onRecord site req).bind fun admitted _ => ?_
  split_ifs
  · refine (loadTaskOr404_onRecord ..).bind ?_
    rintro (_ | status) -
    · exact owes_pure trivial
    refine owes_call_bind (.silent rfl trivial) ?_
    rintro (_ | deleted)
    · exact speaks_silent rfl
    · exact speaks_silent rfl
  · exact owes_pure trivial

end Configs

/-! ### JSON-RPC -/

section Rpc

variable {params rpcId : Json}

/-- What a method returns may be sent as a result. -/
def Returns (R : ContextRecord) (fallback : TaskId → Option Json → Prop) (rpcId : Json) :
    RpcResult → Prop
  | .handled => True
  | .result j => R.Says fallback (rpcResult j rpcId)

theorem awaitWorker_onRecord (message : SendRequest) :
    R.Speaks fallback (awaitWorker site req message) fun _ => True := by
  unfold awaitWorker
  cases req.workerWait? site message with
  | none => exact owes_pure trivial
  | some seconds =>
      exact owes_call_bind (.silent rfl trivial) fun _ =>
        (owes_call (.silent rfl trivial)).mono fun _ _ => trivial

theorem handleTaskSend_onRecord
    (hanswered : ∀ exit task p,
      planTaskSend site.platform.table (req.message params rpcId) = .ok (.answer exit task) →
        p ∈ namedByTask task → fallback p.1 p.2)
    (hsubmitted : ∀ s,
      planTaskSend site.platform.table (req.message params rpcId) = .ok (.submit s) →
        fallback s.taskId (some s.contextId)) :
    R.Speaks fallback (handleTaskSend site req params rpcId) fun task =>
      R.Says fallback (rpcResult (.obj [("task", task)]) rpcId) := by
  refine (awaitWorker_onRecord ..).bind fun _ _ => owes_compute_bind fun plan hplan => ?_
  cases plan with
  | answer exit task =>
      refine owes_pure (Shows.response ⟨fun p hp => Or.inr (hanswered exit task p hplan hp), ?_⟩ rfl)
      rintro tasks rfl
      have hsend : planSend site.platform.table .jsonRpc (req.message params rpcId) =
          .ok (.answer exit (.arr tasks)) := hplan
      obtain ⟨t, ht⟩ := taskId?_of_answer hsend
      cases ht
  | submit s =>
      have hown := own_of_planTaskSend hplan
      have hmay : R.May fallback s.taskId (some (s.contextId.orElse s.taskId)) := by
        rw [show s.contextId.orElse s.taskId = s.contextId from hown]
        exact Or.inr (hsubmitted s hplan)
      refine (speaks_attempt (enqueueAndAwaitTask_onRecord site.platform hown _)).bind ?_
      rintro (result | error | _) h
      · refine (owes_exceptLift (streamArtifacts_onRecord hmay (Json.orElse_orElse_self ..)
          result)).bind fun _ _ => ?_
        refine (owes_exceptLift (pushArtifacts_onRecord hmay result)).bind fun _ _ => ?_
        exact owes_pure (h.shows.response rfl)
      · refine (speaks_silent h).bind fun _ _ => owes_pure ?_
        exact fun task htask p hp => by
          obtain rfl := List.mem_singleton.mp htask
          cases hp
      · exact owes_pure ((shows_buildTaskObject (May.known h) ..).response rfl)

theorem rpcGetTask_onRecord (hself : ∀ t, fallback t (some t)) :
    R.Speaks fallback (rpcGetTask req params rpcId) (R.Returns fallback rpcId) := by
  refine owes_compute_bind fun t _ => (getTaskCore_onRecord (hself t) ..).bind ?_
  rintro (_ | task) h
  · exact owes_pure trivial
  · refine (owes_exceptLift (emitGetTaskArtifacts_onRecord (hself t) task)).bind fun _ _ => ?_
    exact owes_pure ((h task rfl).response rfl)

theorem rpcCancelTask_onRecord (hself : ∀ t, fallback t (some t)) :
    R.Speaks fallback (rpcCancelTask req params rpcId) (R.Returns fallback rpcId) := by
  refine owes_compute_bind fun t _ => (cancelTaskCore_onRecord (hself t) ..).bind ?_
  rintro (_ | task) h
  · exact owes_pure trivial
  · exact owes_pure ((h task rfl).response rfl)

theorem handleSendSubscribe_onRecord (hself : ∀ t, fallback t (some t)) :
    R.Speaks fallback (handleSendSubscribe site req params rpcId) fun _ => True := by
  refine owes_compute_bind fun t _ => ?_
  by_cases htruthy : t.truthy = false
  · rw [if_pos htruthy]
    exact speaks_silent rfl
  · rw [if_neg htruthy]
    refine (getStatus_onRecord t).bind fun status _ => ?_
    split_ifs
    · exact speaks_silent rfl
    · exact streamTaskSse_onRecord site req (hself t)

theorem rpcListTasks_onRecord :
    R.Speaks fallback (rpcListTasks site req params) (R.Returns fallback rpcId) := by
  refine owes_compute_bind fun _ _ => owes_compute_bind fun _ _ => ?_
  refine owes_compute_bind fun _ _ => (buildPaginatedTaskList_onRecord ..).bind fun _ h => ?_
  exact owes_pure (h.2 rpcId)

/-- A method falls back to what its call does. -/
theorem rpcMethod_onRecord {m : RpcMethod} {trace : ServerTrace}
    (asks : req.AsksFor m params rpcId) :
    R.Speaks ((ServerCall.post req).FallsBackTo site trace)
      (m.handler site req params rpcId)
      (R.Returns ((ServerCall.post req).FallsBackTo site trace) rpcId) := by
  cases m with
  | sendMessage =>
      refine (handleTaskSend_onRecord site req (fun exit task p hplan hp => ?_) fun s hplan =>
        .submitted asks hplan).bind fun _ h => owes_pure h
      exact .answered asks hplan hp
  | getTask => exact rpcGetTask_onRecord req fun t => .method asks (Or.inl rfl)
  | cancelTask => exact rpcCancelTask_onRecord req fun t => .method asks (Or.inr (Or.inl rfl))
  | subscribeToTask =>
      refine (handleSendSubscribe_onRecord site req fun t => ?_).bind fun _ _ => owes_pure trivial
      exact .method asks (Or.inr (Or.inr rfl))
  | listTasks => exact rpcListTasks_onRecord site req

end Rpc

/-! ### Requests -/

section Requests

theorem readBody_onRecord {unauthorized : Handler Unit} {badLength : ℤ → ℕ → Handler Unit}
    (hunauthorized : R.Speaks fallback unauthorized fun _ => True)
    (hbadLength : ∀ length status, R.Speaks fallback (badLength length status) fun _ => True) :
    R.Speaks fallback (readBody site req unauthorized badLength) fun found =>
      ∀ body, found = some body → req.body = some body := by
  have hnone : ∀ {p : Handler Unit} {sent : Option Json}, R.Speaks fallback p (fun _ => True) →
      R.Speaks fallback (do p; return none) fun found : Option Json =>
        ∀ body, found = some body → sent = some body :=
    fun hp => hp.bind fun _ _ => owes_pure fun _ h => nomatch h
  refine owes_compute_bind fun authorised _ => ?_
  split_ifs
  · exact hnone hunauthorized
  refine owes_compute_bind fun limited _ => ?_
  cases limited with
  | some retryAfter =>
      refine hnone ?_
      exact speaks_silent rfl
  | none =>
      cases req.contentLength with
      | none =>
          refine hnone ?_
          exact speaks_silent rfl
      | some length =>
          dsimp only
          split_ifs
          · exact hnone (hbadLength _ _)
          · exact hnone (hbadLength _ _)
          · cases req.body with
            | none =>
          refine hnone ?_
          exact speaks_silent rfl
            | some body => exact owes_pure fun _ h => h

theorem doRestPost_onRecord {handler : Json → Handler Unit}
    (h : ∀ body, req.body = some body → R.Speaks fallback (handler body) fun _ => True) :
    R.Speaks fallback (doRestPost site req handler) fun _ => True := by
  refine (readBody_onRecord site req ?_ fun _ _ => ?_).bind ?_
  · exact speaks_silent rfl
  · exact speaks_silent rfl
  · rintro (_ | body) hbody
    · exact owes_pure trivial
    · exact h body (hbody body rfl)

theorem speaks_guarded {handler : Handler Unit} {error : PyError → HttpResponse}
    (h : R.Speaks fallback handler fun _ => True)
    (herror : ∀ e, tasksSent (error e).body = []) :
    R.Speaks fallback (guarded handler error) fun _ => True := by
  refine Owes.guarded h fun e => .silent ?_ trivial
  change (tasksSent (error e).body).flatMap namedByTask = []
  rw [herror e]
  rfl

variable {trace : ServerTrace}

theorem doJsonRpc_onRecord (hroute : req.postRoute = .jsonRpc) :
    R.Speaks ((ServerCall.post req).FallsBackTo site trace) (doJsonRpc site req)
      fun _ => True := by
  refine speaks_guarded ?_ fun e => rfl
  refine (readBody_onRecord site req ?_ fun _ _ => ?_).bind ?_
  · exact speaks_silent rfl
  · exact speaks_silent rfl
  rintro (_ | body) hbody
  · exact owes_pure trivial
  refine owes_compute_bind fun request hread => ?_
  cases request with
  | invalid => exact speaks_silent rfl
  | method m params rpcId =>
      have hasks : req.AsksFor m params rpcId := ⟨hroute, body, hbody body rfl, hread⟩
      refine (rpcMethod_onRecord site req hasks).bind ?_
      rintro (_ | j) h
      · exact owes_pure trivial
      · exact speaks_send h

/-- **A POST** falls back to what its route does. -/
theorem doPost_onRecord (hstored : ∀ key task, R.stored key task → StoredUnder trace key task) :
    R.Speaks ((ServerCall.post req).FallsBackTo site trace) (doPost site req)
      fun _ => True := by
  unfold doPost
  cases hroute : req.postRoute with
  | send =>
      exact doRestPost_onRecord site req fun body _ =>
        restSendMessage_onRecord site req fun t => .restSend hroute
  | stream =>
      refine doRestPost_onRecord site req fun body hbody => ?_
      refine restSendMessageStream_onRecord site req (fun exit task hplan => ?_) ?_
      · exact .restStream hroute hbody hplan
      · exact fun s cached t c hplan hstore ht hfalsy hc =>
          .replayed hroute hbody hplan (hstored _ _ hstore) ht hfalsy hc
  | cancel t =>
      exact doRestPost_onRecord site req fun _ _ => restCancelTask_onRecord req (.cancelTask hroute)
  | createPushConfig t =>
      exact doRestPost_onRecord site req fun body _ => restCreatePushConfig_onRecord site req t body
  | jsonRpc => exact doJsonRpc_onRecord site req hroute

/-- **A GET** does too. -/
theorem doGet_onRecord :
    R.Speaks ((ServerCall.get req).FallsBackTo site trace) (doGet site req) fun _ => True := by
  have hhandler : R.Speaks ((ServerCall.get req).FallsBackTo site trace)
      (req.getRoute.handler site req) fun _ => True := by
    cases hroute : req.getRoute with
    | subscribe t => exact streamTaskSse_onRecord site req (.subscribe hroute)
    | getPushConfig t id => exact restGetPushConfig_onRecord site req t id
    | listPushConfigs t => exact restListPushConfigs_onRecord t
    | getTask t => exact restGetTask_onRecord req (.getTask hroute)
    | extendedAgentCard => exact speaks_silent (tasksSent_notice _)
    | listTasks => exact restListTasks_onRecord site req
    | agentCard => exact speaks_silent (tasksSent_notice _)
    | health => exact speaks_silent (tasksSent_notice _)
    | notFound => exact speaks_silent rfl
  have hrest : ∀ refused : Bool, R.Speaks ((ServerCall.get req).FallsBackTo site trace)
      (if refused = true then sendRpcError (-32603) "Unauthorized" 401 .null
        else guarded (req.getRoute.handler site req) fun _ =>
          ⟨500, rpcErrorBody (-32603) "Internal error" .null⟩) fun _ => True := by
    intro refused
    split_ifs
    · exact speaks_silent rfl
    · exact speaks_guarded hhandler fun _ => rfl
  unfold doGet
  split_ifs
  · exact owes_compute_bind fun authorised _ => hrest _
  · exact hrest false

theorem doDelete_onRecord : R.Speaks fallback (doDelete site req) fun _ => True := by
  unfold doDelete
  dsimp only
  split_ifs
  · exact restDeletePushConfig_onRecord site req _ _
  · exact speaks_silent rfl

theorem serveHttp_onRecord {handler : Handler Unit}
    (h : R.Speaks fallback handler fun _ => True) :
    (serveHttp handler).Relies R.Good (R.Keeps fallback) fun _ => True :=
  Prog.Relies.bind h fun _ _ => trivial

end Requests

/-! ### Every thread -/

/-- **Every thread names tasks with what is on record, or by its own fallbacks.** -/
theorem prog_onRecord (x : ServerCall) {trace : ServerTrace}
    (hstored : ∀ key task, R.stored key task → StoredUnder trace key task) :
    (x.prog site).Relies R.Good (R.Keeps (x.FallsBackTo site trace)) fun _ => True := by
  cases x with
  | get req => exact serveHttp_onRecord (doGet_onRecord site req)
  | post req => exact serveHttp_onRecord (doPost_onRecord site req hstored)
  | delete req => exact serveHttp_onRecord (doDelete_onRecord site req)
  | preLlmCall => exact serveInternal_onRecord preLlmCall_onRecord
  | postLlmCall taskId response turn turn' =>
      exact serveInternal_onRecord (postLlmCall_onRecord (fun _ => .completed) ..)
  | webhookFailure t =>
      exact serveInternal_onRecord (background_onRecord site.platform (x := .webhookFailure t)
        nofun nofun nofun)
  | watchdogPass =>
      exact serveInternal_onRecord (background_onRecord site.platform (x := .watchdogPass)
        nofun nofun nofun)
  | evictExpired =>
      exact serveInternal_onRecord (background_onRecord site.platform (x := .evictExpired)
        nofun nofun nofun)
  | closeIdleStreams => exact ⟨.silent rfl trivial, fun _ _ => trivial⟩

end ContextRecord

end HermesA2A
