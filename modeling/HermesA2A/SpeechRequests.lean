import HermesA2A.SpeechConduct

/-!
# Every task is told its own response

The handlers, and then every thread of the server (`prog_onRecord`): apart from what is on
record it has only the words of `ServerCall.SpeaksItself`.

So in every run, whatever the threads do to one another, a text that is told for a task was
said for that task (`texts_attributed`), with three exceptions: the three texts of the server,
the answer of a worker that the request itself has started, and a repetition, which is answered
with the Task that is stored under its key.
-/

namespace HermesA2A

/-- **The words of a call**: texts that it tells and that nobody has said for the task. -/
inductive ServerCall.SpeaksItself (site : Site) (trace : ServerTrace) :
    ServerCall → Option Json → Json → Prop
  /-- A text of the server. -/
  | ownWord {req : HttpRequest} {id : Option Json} {text : String} (own : text ∈ OWN_WORDS) :
      SpeaksItself site trace (.post req) id (.str text)
  /-- The answer of the worker that the request asks for. -/
  | worker {req : HttpRequest} {params rpcId task text : Json} {id : Option Json}
      (asks : req.AsksFor .sendMessage params rpcId)
      (plan : planTaskSend site.platform.table (req.message params rpcId) =
        .ok (.answer .worker task))
      (tells : (id, text) ∈ toldByTask task) : SpeaksItself site trace (.post req) id text
  /-- The artifacts of the Task that is stored under the request's key. -/
  | repeated {req : HttpRequest} {params rpcId result text : Json} {s : Submission}
      (asks : req.AsksFor .sendMessage params rpcId)
      (plan : planTaskSend site.platform.table (req.message params rpcId) = .ok (.submit s))
      (stored : StoredUnder trace s.idemKey result) (tells : text ∈ taskTexts result) :
      SpeaksItself site trace (.post req) (some s.taskId) text

namespace SpeechRecord

variable {R : SpeechRecord} {words : Option Json → Json → Prop} (site : Site) (req : HttpRequest)

/-- All words of the server. -/
abbrev HasOwnWords (words : Option Json → Json → Prop) : Prop :=
  ∀ id, ∀ text ∈ OWN_WORDS, words id (.str text)

/-! ### The handlers -/

section Reads

/-- A stream tells what is pushed, and states. -/
theorem streamTaskSse_onRecord (t : TaskId) :
    R.Speaks words (streamTaskSse site req t) fun _ => True := by
  refine (getStatus_onRecord t).bind fun status _ => ?_
  by_cases hstate : status.state = none
  · rw [if_pos hstate]
    exact speaks_silent rfl
  · rw [if_neg hstate]
    refine (openSseStream_onRecord t).bind fun id _ => ?_
    refine (sseEmit_onRecord ..).bind fun written _ => ?_
    split_ifs
    · exact closeStream_onRecord id
    · exact pollStream_onRecord ..
    · exact closeStream_onRecord id

theorem restGetTask_onRecord (t : String) :
    R.Speaks words (restGetTask req t) fun _ => True := by
  refine (getTaskCore_onRecord ..).bind ?_
  rintro (_ | task) h
  · exact owes_pure trivial
  · exact speaks_send ((h task rfl).1.response rfl)

theorem restCancelTask_onRecord (t : String) :
    R.Speaks words (restCancelTask req t) fun _ => True := by
  refine (cancelTaskCore_onRecord ..).bind ?_
  rintro (_ | task) h
  · exact owes_pure trivial
  · exact speaks_send ((h task rfl).response rfl)

theorem restListTasks_onRecord : R.Speaks words (restListTasks site req) fun _ => True :=
  (buildPaginatedTaskList_onRecord ..).bind fun _ h => speaks_send h.1

end Reads

/-! ### Messages over REST -/

section Rest

variable {body : Json} (hown : HasOwnWords words)

include hown

theorem restAnswer_onRecord {exit : EarlyExit} {task : Json}
    (h : planRestSend site.platform.table (req.message body .null) = .ok (.answer exit task)) :
    R.Says words ⟨200, task⟩ := by
  cases planRestSend_plans h with
  | blank => exact says_plainTask (hown _ _ (by simp [OWN_WORDS]))

theorem restSendMessage_onRecord :
    R.Speaks words (restSendMessage site req body) fun _ => True := by
  refine owes_compute_bind fun plan hplan => ?_
  cases plan with
  | answer exit task => exact speaks_send (restAnswer_onRecord site req hown hplan)
  | submit s =>
      refine (speaks_attempt (enqueueAndAwaitTask_onRecord site.platform _ _)).bind ?_
      rintro (result | error | _) h
      · refine owes_compute_bind fun text htext => ?_
        obtain rfl := Except.ok.inj (h.1.get_response.symm.trans htext)
        exact speaks_send (says_plainTask (hown _ _ (by simp [OWN_WORDS])))
      · exact speaks_silent h
      · exact speaks_send (says_plainTask (hown _ _ (by simp [OWN_WORDS])))

omit hown in
theorem streamCachedResult_onRecord (cached fallbackContextId : Json) :
    R.Speaks words (streamCachedResult req cached fallbackContextId) fun _ => True := by
  refine owes_compute_bind fun _ _ => owes_compute_bind fun _ _ => ?_
  refine owes_compute_bind fun _ _ => owes_compute_bind fun _ _ => ?_
  refine (openSseStream_onRecord _).bind fun id _ => ?_
  refine (sseEmit_onRecord ..).bind fun written _ => ?_
  split_ifs
  · exact (sseEmit_onRecord ..).bind fun _ _ => closeStream_onRecord id
  · exact closeStream_onRecord id

theorem restSendMessageStream_onRecord :
    R.Speaks words (restSendMessageStream site req body) fun _ => True := by
  refine owes_compute_bind fun plan hplan => ?_
  cases plan with
  | answer exit task => exact speaks_send (restAnswer_onRecord site req hown hplan)
  | submit s =>
      refine (speaks_attempt (prepareAndEnqueue_onRecord _)).bind ?_
      rintro (task | ⟨code, status, message⟩ | result) -
      · refine (openSseStream_onRecord _).bind fun id _ => ?_
        refine (sseEmit_onRecord ..).bind fun written _ => ?_
        split_ifs
        · exact pollStream_onRecord ..
        · exact closeStream_onRecord id
      · exact speaks_silent rfl
      · exact streamCachedResult_onRecord req ..

end Rest

/-! ### Push configurations -/

section Configs

theorem checkHmacPush_onRecord : R.Speaks words (checkHmacPush site req) fun _ => True := by
  unfold checkHmacPush
  split_ifs
  · exact owes_pure trivial
  · exact owes_pure trivial
  · exact (speaks_silent rfl).bind fun _ _ => owes_pure trivial

theorem restCreatePushConfig_onRecord (t : String) (body : Json) :
    R.Speaks words (restCreatePushConfig site req t body) fun _ => True := by
  refine (checkHmacPush_onRecord site req).bind fun admitted _ => ?_
  split_ifs
  · refine (loadTaskOr404_onRecord ..).bind ?_
    rintro (_ | status) -
    · exact owes_pure trivial
    refine owes_compute_bind fun url _ => owes_compute_bind fun hmacKey _ => ?_
    refine owes_compute_bind fun other _ => ?_
    split_ifs
    · exact speaks_silent rfl
    · exact speaks_silent rfl
    · refine owes_compute_bind fun _ _ => owes_compute_bind fun _ _ => ?_
      exact owes_call_bind (.silent rfl trivial) fun _ => speaks_silent rfl
  · exact owes_pure trivial

theorem restGetPushConfig_onRecord (t id : String) :
    R.Speaks words (restGetPushConfig site req t id) fun _ => True := by
  refine (checkHmacPush_onRecord site req).bind fun admitted _ => ?_
  split_ifs
  · refine (loadTaskOr404_onRecord ..).bind ?_
    rintro (_ | status) -
    · exact owes_pure trivial
    refine owes_call_bind (.silent rfl trivial) ?_
    rintro (_ | config)
    · exact speaks_silent rfl
    · exact speaks_silent rfl
  · exact owes_pure trivial

theorem restListPushConfigs_onRecord (t : String) :
    R.Speaks words (restListPushConfigs t) fun _ => True := by
  refine (loadTaskOr404_onRecord ..).bind ?_
  rintro (_ | status) -
  · exact owes_pure trivial
  · exact owes_call_bind (.silent rfl trivial) fun configs => speaks_silent rfl

theorem restDeletePushConfig_onRecord (t id : String) :
    R.Speaks words (restDeletePushConfig site req t id) fun _ => True := by
  refine (checkHmacPush_onRecord site req).bind fun admitted _ => ?_
  split_ifs
  · refine (loadTaskOr404_onRecord ..).bind ?_
    rintro (_ | status) -
    · exact owes_pure trivial
    refine owes_call_bind (.silent rfl trivial) ?_
    rintro (_ | deleted)
    · exact speaks_silent rfl
    · exact speaks_silent rfl
  · exact owes_pure trivial

end Configs

/-! ### JSON-RPC -/

section Rpc

variable {params rpcId : Json}

/-- What a method returns may be sent as a result. -/
def Returns (R : SpeechRecord) (words : Option Json → Json → Prop) (rpcId : Json) :
    RpcResult → Prop
  | .handled => True
  | .result j => R.Says words (rpcResult j rpcId)

theorem awaitWorker_onRecord (message : SendRequest) :
    R.Speaks words (awaitWorker site req message) fun _ => True := by
  unfold awaitWorker
  cases req.workerWait? site message with
  | none => exact owes_pure trivial
  | some seconds =>
      exact owes_call_bind (.silent rfl trivial) fun _ =>
        (owes_call (.silent rfl trivial)).mono fun _ _ => trivial

/-- **`_handle_task_send`** has the artifacts of a repetition from the Task that is stored. -/
theorem handleTaskSend_onRecord (hown : HasOwnWords words)
    (hworker : ∀ task p, planTaskSend site.platform.table (req.message params rpcId) =
      .ok (.answer .worker task) → p ∈ toldByTask task → words p.1 p.2)
    (hrepeated : ∀ s result text,
      planTaskSend site.platform.table (req.message params rpcId) = .ok (.submit s) →
        R.stored s.idemKey result → text ∈ taskTexts result → words (some s.taskId) text) :
    R.Speaks words (handleTaskSend site req params rpcId) fun task =>
      R.Says words (rpcResult (.obj [("task", task)]) rpcId) := by
  refine (awaitWorker_onRecord ..).bind fun _ _ => owes_compute_bind fun plan hplan => ?_
  cases plan with
  | answer exit task =>
      refine owes_pure (Shows.response ?_ rfl)
      have hsend : planSend site.platform.table .jsonRpc (req.message params rpcId) =
          .ok (.answer exit task) := hplan
      obtain ⟨t, ht⟩ := taskId?_of_answer hsend
      cases planTaskSend_plans hplan with
      | blank => exact shows_ownWord filterOutbound_emptyMessage (hown _ _ (by simp [OWN_WORDS]))
      | returnImmediately =>
          exact shows_ownWord filterOutbound_pollText (hown _ _ (by simp [OWN_WORDS]))
      | worker =>
          refine ⟨fun p hp => Or.inr (hworker task p hplan hp), ?_⟩
          rintro tasks rfl
          cases ht
  | submit s =>
      refine (speaks_attempt (enqueueAndAwaitTask_onRecord site.platform _ _)).bind ?_
      rintro (result | error | _) h
      · obtain ⟨hfiled, hwhose⟩ := h
        have hattach : R.MayAttach words s.taskId (artifactsOf result) := by
          rcases hwhose with hid | hstored
          · exact hfiled.shows.attach hid
          · intro artifact hartifact text htext
            refine Or.inr (hrepeated s result text hplan hstored ?_)
            exact List.mem_append_left _ (List.mem_flatMap.mpr ⟨artifact, hartifact, htext⟩)
        refine (owes_exceptLift (streamArtifacts_onRecord _ hattach)).bind fun _ _ => ?_
        refine (owes_exceptLift (pushArtifacts_onRecord _ hattach)).bind fun _ _ => ?_
        exact owes_pure (hfiled.shows.response rfl)
      · exact (speaks_silent h).bind fun _ _ => owes_pure (says_of_eq_nil rfl)
      · refine owes_pure (Shows.response ?_ rfl)
        exact shows_ownWord filterOutbound_pollText (hown _ _ (by simp [OWN_WORDS]))

theorem rpcGetTask_onRecord :
    R.Speaks words (rpcGetTask req params rpcId) (R.Returns words rpcId) := by
  refine owes_compute_bind fun t _ => (getTaskCore_onRecord t ..).bind ?_
  rintro (_ | task) h
  · exact owes_pure trivial
  · obtain ⟨hshows, ht⟩ := h task rfl
    refine (owes_exceptLift (emitGetTaskArtifacts_onRecord (hshows.attach ht))).bind fun _ _ => ?_
    exact owes_pure (hshows.response rfl)

theorem rpcCancelTask_onRecord :
    R.Speaks words (rpcCancelTask req params rpcId) (R.Returns words rpcId) := by
  refine owes_compute_bind fun t _ => (cancelTaskCore_onRecord t ..).bind ?_
  rintro (_ | task) h
  · exact owes_pure trivial
  · exact owes_pure ((h task rfl).response rfl)

theorem handleSendSubscribe_onRecord :
    R.Speaks words (handleSendSubscribe site req params rpcId) fun _ => True := by
  refine owes_compute_bind fun t _ => ?_
  by_cases htruthy : t.truthy = false
  · rw [if_pos htruthy]
    exact speaks_silent rfl
  · rw [if_neg htruthy]
    refine (getStatus_onRecord t).bind fun status _ => ?_
    split_ifs
    · exact speaks_silent rfl
    · exact streamTaskSse_onRecord site req t

theorem rpcListTasks_onRecord :
    R.Speaks words (rpcListTasks site req params) (R.Returns words rpcId) := by
  refine owes_compute_bind fun _ _ => owes_compute_bind fun _ _ => ?_
  refine owes_compute_bind fun _ _ => (buildPaginatedTaskList_onRecord ..).bind fun _ h => ?_
  exact owes_pure (h.2 rpcId)

/-- A method has no other words than its call. -/
theorem rpcMethod_onRecord {m : RpcMethod} {trace : ServerTrace}
    (hstored : ∀ key task, R.stored key task → StoredUnder trace key task)
    (asks : req.AsksFor m params rpcId) :
    R.Speaks ((ServerCall.post req).SpeaksItself site trace) (m.handler site req params rpcId)
      (R.Returns ((ServerCall.post req).SpeaksItself site trace) rpcId) := by
  cases m with
  | sendMessage =>
      refine (handleTaskSend_onRecord site req (fun _ _ => .ownWord) (fun task p hplan hp => ?_)
        fun s result text hplan hstore htext => ?_).bind fun _ h => owes_pure h
      · exact .worker asks hplan hp
      · exact .repeated asks hplan (hstored _ _ hstore) htext
  | getTask => exact rpcGetTask_onRecord req
  | cancelTask => exact rpcCancelTask_onRecord req
  | subscribeToTask =>
      exact (handleSendSubscribe_onRecord site req).bind fun _ _ => owes_pure trivial
  | listTasks => exact rpcListTasks_onRecord site req

end Rpc

/-! ### Requests -/

section Requests

theorem readBody_onRecord {unauthorized : Handler Unit} {badLength : ℤ → ℕ → Handler Unit}
    (hunauthorized : R.Speaks words unauthorized fun _ => True)
    (hbadLength : ∀ length status, R.Speaks words (badLength length status) fun _ => True) :
    R.Speaks words (readBody site req unauthorized badLength) fun found =>
      ∀ body, found = some body → req.body = some body := by
  have hnone : ∀ {p : Handler Unit} {sent : Option Json}, R.Speaks words p (fun _ => True) →
      R.Speaks words (do p; return none) fun found : Option Json =>
        ∀ body, found = some body → sent = some body :=
    fun hp => hp.bind fun _ _ => owes_pure fun _ h => nomatch h
  refine owes_compute_bind fun authorised _ => ?_
  split_ifs
  · exact hnone hunauthorized
  refine owes_compute_bind fun limited _ => ?_
  cases limited with
  | some retryAfter => exact hnone (speaks_silent rfl)
  | none =>
      cases req.contentLength with
      | none => exact hnone (speaks_silent rfl)
      | some length =>
          dsimp only
          split_ifs
          · exact hnone (hbadLength _ _)
          · exact hnone (hbadLength _ _)
          · cases req.body with
            | none => exact hnone (speaks_silent rfl)
            | some body => exact owes_pure fun _ h => h

theorem doRestPost_onRecord {handler : Json → Handler Unit}
    (h : ∀ body, R.Speaks words (handler body) fun _ => True) :
    R.Speaks words (doRestPost site req handler) fun _ => True := by
  refine (readBody_onRecord site req ?_ fun _ _ => ?_).bind ?_
  · exact speaks_silent rfl
  · exact speaks_silent rfl
  · rintro (_ | body) -
    · exact owes_pure trivial
    · exact h body

theorem speaks_guarded {handler : Handler Unit} {error : PyError → HttpResponse}
    (h : R.Speaks words handler fun _ => True) (herror : ∀ e, bodyTexts (error e).body = []) :
    R.Speaks words (guarded handler error) fun _ => True :=
  Owes.guarded h fun e => .silent (toldByBody_of_eq_nil (herror e)) trivial

variable {trace : ServerTrace}
  (hstored : ∀ key task, R.stored key task → StoredUnder trace key task)

include hstored in
theorem doJsonRpc_onRecord (hroute : req.postRoute = .jsonRpc) :
    R.Speaks ((ServerCall.post req).SpeaksItself site trace) (doJsonRpc site req)
      fun _ => True := by
  refine speaks_guarded ?_ fun e => rfl
  refine (readBody_onRecord site req ?_ fun _ _ => ?_).bind ?_
  · exact speaks_silent rfl
  · exact speaks_silent rfl
  rintro (_ | body) hbody
  · exact owes_pure trivial
  refine owes_compute_bind fun request hread => ?_
  cases request with
  | invalid => exact speaks_silent rfl
  | method m params rpcId =>
      have hasks : req.AsksFor m params rpcId := ⟨hroute, body, hbody body rfl, hread⟩
      refine (rpcMethod_onRecord site req hstored hasks).bind ?_
      rintro (_ | j) h
      · exact owes_pure trivial
      · exact speaks_send h

include hstored in
theorem doPost_onRecord :
    R.Speaks ((ServerCall.post req).SpeaksItself site trace) (doPost site req)
      fun _ => True := by
  have hown : HasOwnWords ((ServerCall.post req).SpeaksItself site trace) := fun _ _ => .ownWord
  unfold doPost
  cases hroute : req.postRoute with
  | send => exact doRestPost_onRecord site req fun body => restSendMessage_onRecord site req hown
  | stream =>
      exact doRestPost_onRecord site req fun body => restSendMessageStream_onRecord site req hown
  | cancel t => exact doRestPost_onRecord site req fun _ => restCancelTask_onRecord req t
  | createPushConfig t =>
      exact doRestPost_onRecord site req fun body => restCreatePushConfig_onRecord site req t body
  | jsonRpc => exact doJsonRpc_onRecord site req hstored hroute

theorem bodyTexts_notice (notice : Notice) : bodyTexts notice.json = [] := by
  unfold bodyTexts tasksIn taskTexts statusTexts artifactsOf
  simp only [notice.taskless _ (List.mem_cons_self ..), notice.taskless "task" (by simp),
    Option.getD_none, List.flatMap_cons, List.flatMap_nil, notice.taskless "artifacts" (by simp),
    notice.messageless, Option.elim_none, List.append_nil]

theorem doGet_onRecord : R.Speaks words (doGet site req) fun _ => True := by
  have hhandler : R.Speaks words (req.getRoute.handler site req) fun _ => True := by
    cases req.getRoute with
    | subscribe t => exact streamTaskSse_onRecord site req _
    | getPushConfig t id => exact restGetPushConfig_onRecord site req t id
    | listPushConfigs t => exact restListPushConfigs_onRecord t
    | getTask t => exact restGetTask_onRecord req t
    | extendedAgentCard => exact speaks_silent (bodyTexts_notice _)
    | listTasks => exact restListTasks_onRecord site req
    | agentCard => exact speaks_silent (bodyTexts_notice _)
    | health => exact speaks_silent (bodyTexts_notice _)
    | notFound => exact speaks_silent rfl
  have hrest : ∀ refused : Bool, R.Speaks words
      (if refused = true then sendRpcError (-32603) "Unauthorized" 401 .null
        else guarded (req.getRoute.handler site req) fun _ =>
          ⟨500, rpcErrorBody (-32603) "Internal error" .null⟩) fun _ => True := by
    intro refused
    split_ifs
    · exact speaks_silent rfl
    · exact speaks_guarded hhandler fun _ => rfl
  unfold doGet
  split_ifs
  · exact owes_compute_bind fun authorised _ => hrest _
  · exact hrest false

theorem doDelete_onRecord : R.Speaks words (doDelete site req) fun _ => True := by
  unfold doDelete
  dsimp only
  split_ifs
  · exact restDeletePushConfig_onRecord site req _ _
  · exact speaks_silent rfl

theorem serveHttp_onRecord {handler : Handler Unit} (h : R.Speaks words handler fun _ => True) :
    (serveHttp handler).Relies R.Good (R.Keeps words) fun _ => True :=
  Prog.Relies.bind h fun _ _ => trivial

end Requests

/-! ### Every thread -/

/-- **Every thread tells what is on record, or its own words.** -/
theorem prog_onRecord (x : ServerCall) {trace : ServerTrace}
    (hstored : ∀ key task, R.stored key task → StoredUnder trace key task) :
    (x.prog site).Relies R.Good (R.Keeps (x.SpeaksItself site trace)) fun _ => True := by
  cases x with
  | get req => exact serveHttp_onRecord (doGet_onRecord site req)
  | post req => exact serveHttp_onRecord (doPost_onRecord site req hstored)
  | delete req => exact serveHttp_onRecord (doDelete_onRecord site req)
  | preLlmCall => exact serveInternal_onRecord preLlmCall_onRecord
  | postLlmCall taskId response turn turn' => exact serveInternal_onRecord (postLlmCall_onRecord ..)
  | webhookFailure t => exact serveInternal_onRecord (webhookFailure_onRecord t)
  | watchdogPass => exact serveInternal_onRecord (watchdogPass_onRecord site.platform)
  | evictExpired => exact serveInternal_onRecord ⟨trivial, fun _ _ => trivial⟩
  | closeIdleStreams => exact ⟨.silent rfl trivial, fun _ _ => trivial⟩

end SpeechRecord

/-! ### Runs -/

section Runs

variable {site : Site} {clock : Time} {c b : ServerConfig}

/-- The tasks that have been accepted, in order. -/
def acceptedTasks (trace : ServerTrace) : List PendingTask :=
  trace.filterMap fun e => acceptedTask? e.2

theorem acceptedTasks_append (tr tr' : ServerTrace) :
    acceptedTasks (tr ++ tr') = acceptedTasks tr ++ acceptedTasks tr' :=
  List.filterMap_append

/-- **No two accepted tasks are one object.** -/
theorem nodup_acceptedTasks
    (hc : (httpServer site).Reaches anyServerStep (ServerState.init clock) c) :
    ((acceptedTasks c.trace).map PendingTask.ref).Nodup := by
  refine hc.invariant (I := fun tr _ => ((acceptedTasks tr).map PendingTask.ref).Nodup)
    List.nodup_nil (fun _ _ _ h => h) ?_
  intro b i x o k r s' hb hs _ _ hserve
  obtain ⟨-, rfl, rfl⟩ := serve_eq_some_iff.mp hserve
  rw [acceptedTasks_append, List.map_append]
  cases hlast : acceptedTask? ⟨o, o.answer site b.shared⟩ with
  | none => simpa [acceptedTasks, hlast] using hs
  | some task =>
      have hnew : ∀ task' ∈ acceptedTasks b.trace, task'.ref ≠ task.ref := by
        intro task' hmem
        obtain ⟨e, he, haccepted⟩ := List.mem_filterMap.mp hmem
        have hlt := lt_length_of_accepted hb e he task' haccepted
        cases o with
        | base o =>
            cases o with
            | enqueue t text metadata contextId createdAt =>
                have hacc : (Op.enqueue t text metadata contextId createdAt).Accepts
                    b.shared.world.queue task := ⟨_, _, _, _, _, rfl, hlast⟩
                exact (hacc.spec.2.1.symm ▸ hlt).ne
            | _ => cases hlast
        | _ => cases hlast
      have hone : acceptedTasks [(i, ⟨o, o.answer site b.shared⟩)] = [task] := by
        simp [acceptedTasks, hlast]
      rw [hone, List.map_singleton]
      refine List.nodup_append.mpr ⟨hs, List.nodup_singleton _, ?_⟩
      rintro ref href _ hsame rfl
      obtain ⟨task', htask', hold⟩ := List.mem_map.mp href
      exact hnew task' htask' (hold.trans (List.mem_singleton.mp hsame))

/-- What a run has on record. -/
def SpeechRecord.ofRun (site : Site) (clock : Time) (c : ServerConfig)
    (hc : (httpServer site).Reaches anyServerStep (ServerState.init clock) c) : SpeechRecord where
  accepted := AcceptedIn c.trace
  unique _ _ h h' href := List.inj_on_of_nodup_map (nodup_acceptedTasks hc) h h' href
  said := SaidFor c.trace
  stored := StoredUnder c.trace
  buffered id line := line.isPushed = true ∧ ∃ i e pushed,
    (i, (⟨.pushEvent id e, pushed⟩ : ServerEvent)) ∈ c.trace ∧
      toldByEvent line.payload = toldByEvent (e.payload "")
  pushed _ _ h := h.1

/-- A run is its own record. -/
theorem SpeechRecord.records_ofRun
    (hc : (httpServer site).Reaches anyServerStep (ServerState.init clock) c) {e : ℕ × ServerEvent}
    (he : e ∈ c.trace) : (SpeechRecord.ofRun site clock c hc).Records e.2 := by
  obtain ⟨i, o, r⟩ := e
  cases o with
  | base o =>
      cases o with
      | enqueue t text metadata contextId createdAt =>
          cases r with
          | none => exact trivial
          | some task => exact List.mem_filterMap.mpr ⟨_, he, rfl⟩
      | complete t response =>
          cases r with
          | none => exact trivial
          | some task => exact List.mem_filterMap.mpr ⟨_, he, rfl⟩
      | cancel t =>
          cases r with
          | none => exact trivial
          | some task => exact List.mem_filterMap.mpr ⟨_, he, rfl⟩
      | writeResponse task response => exact List.mem_filterMap.mpr ⟨_, he, rfl⟩
      | idemSet key t payload task => exact ⟨i, t, payload, he⟩
      | _ => exact trivial
  | pushEvent id event => exact fun line hpushed htells => ⟨hpushed, i, event, r, he, htells⟩
  | _ => exact trivial

/-- **The next step of a thread tells what is on record, or its own words.** -/
theorem SpeechRecord.keeps_next
    (hb : (httpServer site).Reaches anyServerStep (ServerState.init clock) b) {i : ℕ}
    {x : ServerCall} {o : ServerOp} {k : o.Res → ServerProc ServerOutcome}
    (hthread : b.threads[i]? = some (x, .step o k)) :
    (ofRun site clock b hb).Keeps (x.SpeaksItself site b.trace) o := by
  have hexec : ∀ (x : ServerCall) (o : ServerOp) (s : ServerState) (r : o.Res) (s' : ServerState),
      (ofRun site clock b hb).Holds s →
        (ofRun site clock b hb).Keeps (x.SpeaksItself site b.trace) o →
          (ofRun site clock b hb).Records ⟨o, r⟩ → serve site o s = some (r, s') →
            (ofRun site clock b hb).Holds s' ∧ (ofRun site clock b hb).Good o r := by
    intro x o s r s' hs hkeeps hrec hserve
    obtain ⟨-, rfl, rfl⟩ := serve_eq_some_iff.mp hserve
    exact ⟨hs.after hkeeps hrec, good_of_holds hs hrec⟩
  have hprog : ∀ x : ServerCall, (x.prog site).Relies (ofRun site clock b hb).Good
      ((ofRun site clock b hb).Keeps (x.SpeaksItself site b.trace)) fun _ => True :=
    fun x => prog_onRecord site x fun _ _ => id
  have hruns := hb.relies_recorded (ofRun site clock b hb).Records (holds_init clock)
    (fun e s hs => hs.move e) hexec hprog fun e he => records_ofRun hb he
  exact (hruns.2 hthread).1

/-- **Whose text is told** in a run: a text that is told for a task was said for that task, or
it is a word of the call that tells it; and what is relayed from a buffer was told before. -/
structure TextsAttributed (site : Site) (c : ServerConfig) : Prop where
  told : ∀ before i e after, c.trace = before ++ (i, e) :: after → ∀ id text,
    (id, text) ∈ e.op.utters →
      (∃ t response, id = some t ∧ SaidFor before t response ∧
          text = .str (filterOutbound response)) ∨
        ∃ x, c.Calls i x ∧ x.SpeaksItself site before id text
  relayed : ∀ before i id line written after,
    c.trace = before ++ (i, ⟨.sendLine id line, written⟩) :: after → line.isPushed = true →
      ∃ j e pushed, (j, (⟨.pushEvent id e, pushed⟩ : ServerEvent)) ∈ before ∧
        toldByEvent line.payload = (ServerOp.pushEvent id e).utters

/-- **Every task is told its own response**, in every run. -/
theorem texts_attributed
    (hc : (httpServer site).Reaches anyServerStep (ServerState.init clock) c) :
    TextsAttributed site c := by
  constructor
  · intro before i e after htrace id text hp
    obtain ⟨b, x, k, s', hb, rfl, hthread, -, -, hsteps⟩ := hc.event htrace
    rcases (SpeechRecord.keeps_next hb hthread).utters (id, text) hp with hrecord | hwords
    · exact Or.inl hrecord
    · exact Or.inr ⟨x, Machine.calls_of_steps hsteps ⟨_, hthread⟩, hwords⟩
  · intro before i id line written after htrace hpushed
    obtain ⟨b, x, k, s', hb, rfl, hthread, -, -, -⟩ := hc.event htrace
    exact ((SpeechRecord.keeps_next hb hthread).shared hpushed).2

end Runs

/-! ### Fixed inputs -/

/-- The last step tells `text` for the task `a`, twice, which was said for it. -/
def saidLast (text : String) (c : ServerConfig) : Bool :=
  match c.trace.getLast? with
  | some e => e.2.op.utters == List.replicate 2 (some (.str "a"), .str text) &&
      c.trace.any fun e => said? e.2 == some (.str "a", text)
  | none => false

/-- The agent answers the task `a`, and whoever has sent it is told so. -/
theorem answer_attributed :
    ∃ c, (httpServer .sample).Reaches anyServerStep (ServerState.init 0) c ∧
      TextsAttributed .sample c ∧ saidLast "done" c = true := by
  have hplay : (playServer .sample
      [.post (.sampleMessage "a"), .postLlmCall (.str "a") "done" 0 0]
      (List.replicate 3 (.act 0) ++ List.replicate 4 (.act 1) ++
        List.replicate 7 (.act 0))).any (saidLast "done") = true := by
    decide +kernel
  obtain ⟨c, hc, -, hlast⟩ := exists_of_playServer hplay
  exact ⟨c, hc, texts_attributed hc, hlast⟩

end HermesA2A
