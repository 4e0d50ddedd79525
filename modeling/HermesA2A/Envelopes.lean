import HermesA2A.Wire

/-!
# JSON-RPC envelopes

Whatever happens to a JSON-RPC request, a complete response to it is an envelope: a result with
the status 200, or an error with one from 400 on, for the id of the request or for none.  The one
exception is SubscribeToTask, whose errors have the status 200; where it succeeds there is no
complete response, but a stream of events, and that is no envelope.

* `Sends` — what a handler may send; one lemma for each part of a JSON-RPC request.
* `rpc_enveloped` — every complete response to a JSON-RPC request is an envelope, in every run.
* `rpc_exchange` — what a tool is told that has posted the request.
-/

namespace HermesA2A

/-! ### Envelopes -/

/-- An error in its envelope. -/
def rpcErrorWith (code : ℤ) (message : String) (data rpcId : Json) : Json :=
  .obj
    [ ("jsonrpc", .str "2.0"),
      ("error", .obj [("code", .int code), ("message", .str message), ("data", data)]),
      ("id", rpcId) ]

/-- The id of a request. -/
def rpcIdOf (body : Json) : Json := (body.field? "id").getD .null

/-- The error of SubscribeToTask. -/
def subscribeError (code : ℤ) (message : String) (rpcId : Json) : HttpResponse :=
  ⟨200, .obj [("jsonrpc", .str "2.0"), ("id", rpcId),
    ("error", buildErrorResponse code message rpcId)]⟩

/-- **An answer to a JSON-RPC request** with this body, if it has come to that. -/
inductive RpcAnswer : Option Json → HttpResponse → Prop
  | result (body j : Json) : RpcAnswer (some body) (rpcResult j (rpcIdOf body))
  | error {body : Option Json} {status : ℕ} (hstatus : 400 ≤ status) (code : ℤ) (message : String)
      (data : Json) {rpcId : Json} (hid : rpcId = .null ∨ body.map rpcIdOf = some rpcId) :
      RpcAnswer body ⟨status, rpcErrorWith code message data rpcId⟩
  | subscribe {body : Json} (hmethod : body.field? "method" = some (.str "SubscribeToTask"))
      (code : ℤ) (message : String) :
      RpcAnswer (some body) (subscribeError code message (rpcIdOf body))

/-! ### What a handler may send -/

/-- **All responses of a handler are of a kind**, and so is what it returns. -/
def Sends (kind : HttpResponse → Prop) {α : Type} (p : Handler α) (ends : α → Prop) : Prop :=
  p.run.Relies (fun _ _ => True) (fun o => ∀ r, o = .send r → kind r)
    fun result => ∀ a, result = .ok a → ends a

section Rules

variable {kind : HttpResponse → Prop} {α β : Type} {mid : α → Prop} {ends : β → Prop}

theorem Sends.bind {p : Handler α} {f : α → Handler β} (hp : Sends kind p mid)
    (hf : ∀ a, mid a → Sends kind (f a) ends) : Sends kind (p >>= f) ends :=
  Prog.Relies.bind_except hp (fun a h => hf a (h a rfl)) fun e _ a h => by cases h

theorem Sends.mono {p : Handler α} {mid' : α → Prop} (hp : Sends kind p mid)
    (h : ∀ a, mid a → mid' a) : Sends kind p mid' :=
  Prog.Relies.mono (fun _ hr a ha => h a (hr a ha)) hp

theorem sends_pure {a : α} (h : mid a) : Sends kind (pure a) mid := by
  rintro b hb
  obtain rfl := Except.ok.inj hb
  exact h

theorem sends_throw {e : PyError} : Sends kind (throw e : Handler α) mid := fun b hb => by cases hb

theorem sends_compute {x : Except PyError α} (h : ∀ a, x = .ok a → mid a) :
    Sends kind (compute x) mid := h

/-- A step that is no response. -/
theorem sends_call {o : ServerOp} (h : ∀ r, o ≠ .send r) : Sends kind (call o) fun _ => True :=
  ⟨fun r ho => absurd ho (h r), fun _ _ _ _ => trivial⟩

theorem sends_send {r : HttpResponse} (h : kind r) : Sends kind (call (.send r)) fun _ => True := by
  refine ⟨fun r' hr => ?_, fun _ _ _ _ => trivial⟩
  cases hr
  exact h

/-- A program that sends nothing, and may raise. -/
theorem sends_attempt {p : ServerProc (Except PyError α)} (h : Only ServerOp.isMute p) :
    Sends kind (attempt p) fun _ => True := by
  refine Prog.Relies.mono (fun _ _ _ _ => trivial) (Prog.Relies.allow (fun o ho r hr => ?_) h)
  rw [hr] at ho
  cases ho

/-- A step of the inbound path sends nothing. -/
theorem onServer_only (o : Op) : Only ServerOp.isMute (onServer o) := by
  cases o with
  | stateHook t oldState newState contextId =>
      refine ⟨rfl, fun _ _ => only_mute ?_⟩
      exact (pushSse_only ..).bind fun _ => pushNotifications_only ..
  | _ => exact ⟨rfl, fun _ _ => trivial⟩

/-- A program of the inbound path. -/
theorem sends_attempt_lift {p : Proc (Except PyError α)}
    (h : p.Relies (fun _ _ => True) (fun _ => True) fun result => ∀ a, result = .ok a → mid a) :
    Sends kind (attempt (lift p)) mid := by
  refine Prog.Relies.expand (fun o _ => Prog.Relies.allow (fun o ho r hr => ?_) (onServer_only o)) h
  rw [hr] at ho
  cases ho

/-- A program that sends nothing. -/
theorem sends_lift {p : ServerProc α} (h : Only ServerOp.isMute p) :
    Sends kind (ExceptT.lift p) fun _ => True := by
  refine Prog.Relies.bind (Prog.Relies.allow (fun o ho r hr => ?_) h) fun a _ => ?_
  · rw [hr] at ho
    cases ho
  · exact fun _ _ => trivial

end Rules

/-! ### The parts of a request -/

section Parts

variable {kind : HttpResponse → Prop} {site : Site} {req : HttpRequest}

/-- An error of this request may be sent. -/
def MayRefuse (kind : HttpResponse → Prop) (rpcId : Json) : Prop :=
  ∀ status code message data, 400 ≤ status → kind ⟨status, rpcErrorWith code message data rpcId⟩

theorem MayRefuse.sendRpcError {rpcId : Json} (h : MayRefuse kind rpcId) (code : ℤ) (message : String)
    {status : ℕ} (hstatus : 400 ≤ status) :
    Sends kind (sendRpcError code message status rpcId) fun _ => True :=
  sends_send (h status code message .null hstatus)

/-- **A request as far as its body.** -/
theorem readBody_sends (h : MayRefuse kind .null) {unauthorized : Handler Unit}
    {badLength : ℤ → ℕ → Handler Unit} (hunauthorized : Sends kind unauthorized fun _ => True)
    (hbadLength : ∀ length status, 400 ≤ status →
      Sends kind (badLength length status) fun _ => True) :
    Sends kind (readBody site req unauthorized badLength) fun body =>
      ∀ j, body = some j → req.admitted? site = some j := by
  have hnone : Sends kind (pure none : Handler (Option Json)) fun body =>
      ∀ j, body = some j → req.admitted? site = some j := sends_pure fun j h => by cases h
  refine Sends.bind (sends_compute fun authorised hauth => hauth) fun authorised hauth => ?_
  split_ifs with hauthorised
  · exact hunauthorized.bind fun _ _ => hnone
  rw [Bool.not_eq_false] at hauthorised
  refine Sends.bind (sends_compute fun limited hlimited => hlimited) fun limited hlimited => ?_
  cases limited with
  | some retryAfter =>
      exact Sends.bind (sends_send (h 429 _ _ _ (by decide))) fun _ _ => hnone
  | none =>
      cases hlength : req.contentLength with
      | none => exact Sends.bind (h.sendRpcError _ _ (by decide)) fun _ _ => hnone
      | some length =>
          dsimp only
          by_cases hbad : length ≤ 0 ∨ length > 65536
          · rw [if_pos hbad]
            refine Sends.bind (hbadLength _ _ ?_) fun _ _ => hnone
            split_ifs <;> decide
          · rw [if_neg hbad]
            cases hbody : req.body with
            | none => exact Sends.bind (h.sendRpcError _ _ (by decide)) fun _ _ => hnone
            | some body =>
                refine sends_pure fun j hj => ?_
                obtain rfl := Option.some.inj hj
                unfold HttpRequest.admitted?
                rw [hauth, hauthorised, hlimited, hlength]
                exact (if_neg hbad).trans hbody

/-! ### Tasks -/

theorem loadTaskOr404_sends {rpcId : Json} (h : MayRefuse kind rpcId) (t : TaskId) :
    Sends kind (loadTaskOr404 t rpcId) fun _ => True := by
  refine Sends.bind (sends_attempt ⟨rfl, fun _ _ => trivial⟩) fun status _ => ?_
  split_ifs
  · exact Sends.bind (sends_send (h 404 _ _ _ (by decide))) fun _ _ => sends_pure trivial
  · exact sends_pure trivial

theorem getTaskCore_sends {rpcId : Json} (h : MayRefuse kind rpcId) (t : TaskId) (stamp : Stamp) :
    Sends kind (getTaskCore t rpcId stamp) fun _ => True := by
  refine Sends.bind (loadTaskOr404_sends h t) ?_
  rintro (_ | status) -
  · exact sends_pure trivial
  · exact sends_pure trivial

theorem cancelTaskCore_sends {rpcId : Json} (h : MayRefuse kind rpcId) (t : TaskId)
    (stamp : Stamp) : Sends kind (cancelTaskCore t rpcId stamp) fun _ => True := by
  refine Sends.bind (loadTaskOr404_sends h t) ?_
  rintro (_ | status) -
  · exact sends_pure trivial
  · dsimp only
    split_ifs
    · exact Sends.bind (h.sendRpcError _ _ (by decide)) fun _ _ => sends_pure trivial
    · exact Sends.bind (sends_call fun _ => nofun) fun _ _ => sends_pure trivial

/-! ### Messages -/

/-- What a message is refused with. -/
theorem enqueueAndAwaitTask_refused (P : Platform) (s : Submission) (stamp : Stamp) :
    (enqueueAndAwaitTask P s stamp).Relies (fun _ _ => True) (fun _ => True) fun result =>
      ∀ awaited, result = .ok awaited → ∀ error, awaited = .refused error →
        ∃ status code message, 400 ≤ status ∧ error = ⟨status, rpcErrorBody code message s.rpcId⟩ := by
  have hprepare : (prepareAndEnqueue s).Relies (fun _ _ => True) (fun _ => True) fun result =>
      ∀ code status message, result = .ok (.refused code status message) → 400 ≤ status := by
    have hchecked : (enqueueChecked s (sanitizeInbound s.userText)).Relies (fun _ _ => True)
        (fun _ => True) fun result =>
          ∀ code status message, result = .ok (.refused code status message) → 400 ≤ status := by
      refine ⟨trivial, ?_⟩
      rintro (e | _ | task) -
      · exact fun _ _ _ h => by cases h
      · refine ⟨trivial, fun createdAt _ => ⟨trivial, ?_⟩⟩
        rintro (_ | task) -
        · rintro code status message h
          cases h
          decide
        · exact fun _ _ _ h => by cases h
      · rintro code status message h
        cases h
        decide
    unfold prepareAndEnqueue checkIdempotency
    split_ifs
    · refine ⟨trivial, ?_⟩
      rintro (e | _ | _) -
      · exact fun _ _ _ h => by cases h
      · refine ⟨trivial, ?_⟩
        rintro (e | _ | ⟨t, result⟩) -
        · exact fun _ _ _ h => by cases h
        · exact hchecked
        · exact fun _ _ _ h => by cases h
      · rintro code status message h
        cases h
        decide
    · exact hchecked
  refine hprepare.bind ?_
  rintro (e | task | ⟨code, status, message⟩ | stored) h
  · exact fun _ h => by cases h
  · -- whoever waits is not refused
    have hawait : (awaitTask P s stamp task).Relies (fun _ _ => True) (fun _ => True) fun result =>
        ∀ awaited, result = .ok awaited → ∀ error, awaited ≠ .refused error := by
      refine ⟨trivial, fun start _ => ⟨trivial, fun _ _ => ⟨trivial, ?_⟩⟩⟩
      rintro (_ | response) -
      · refine ⟨trivial, fun _ _ awaited h error => ?_⟩
        cases h
        exact nofun
      · refine ⟨trivial, ?_⟩
        rintro (_ | response) -
        · exact fun _ h => by cases h
        · dsimp only
          split_ifs
          · refine ⟨trivial, fun _ _ awaited h error => ?_⟩
            cases h
            exact nofun
          · rintro awaited h error
            cases h
            exact nofun
    exact Prog.Relies.mono (fun _ h awaited ha error he => absurd he (h awaited ha error)) hawait
  · rintro awaited ha error he
    cases ha
    cases he
    exact ⟨status, code, message, h code status message rfl, rfl⟩
  · rintro awaited ha error he
    cases ha
    cases he

theorem awaitWorker_sends (message : SendRequest) :
    Sends kind (awaitWorker site req message) fun _ => True := by
  unfold awaitWorker
  cases req.workerWait? site message with
  | none => exact sends_pure trivial
  | some seconds =>
      exact Sends.bind (sends_call fun _ => nofun) fun _ _ => sends_call fun _ => nofun

theorem handleTaskSend_sends {params rpcId : Json} (h : MayRefuse kind rpcId) :
    Sends kind (handleTaskSend site req params rpcId) fun _ => True := by
  refine Sends.bind (awaitWorker_sends ..) fun _ _ => ?_
  refine Sends.bind (sends_compute fun plan hplan => hplan) fun plan hplan => ?_
  cases plan with
  | answer exit task => exact sends_pure trivial
  | submit s =>
      have hid : s.rpcId = rpcId := by
        cases planTaskSend_plans hplan with
        | submit => rfl
      refine Sends.bind (sends_attempt_lift (enqueueAndAwaitTask_refused ..)) ?_
      rintro (result | error | _) hrefused
      · refine Sends.bind (sends_lift (only_mute (streamArtifacts_only ..))) fun _ _ => ?_
        exact Sends.bind (sends_lift (only_mute (pushArtifacts_only ..))) fun _ _ =>
          sends_pure trivial
      · obtain ⟨status, code, message, hstatus, rfl⟩ := hrefused error rfl
        have hkind : kind ⟨status, rpcErrorWith code message .null s.rpcId⟩ := by
          rw [hid]
          exact h _ _ _ _ hstatus
        exact Sends.bind (sends_send hkind) fun _ _ => sends_pure trivial
      · exact sends_pure trivial

/-! ### Streams -/

/-- A stream has no response, but for a task that is not there. -/
theorem streamTaskSse_sends (h : MayRefuse kind .null) (t : TaskId) :
    Sends kind (streamTaskSse site req t) fun _ => True := by
  have hemit : ∀ id eventId state contextId,
      Sends kind (sseEmit id eventId t state contextId) fun _ => True := fun _ _ _ _ =>
    Sends.bind (sends_call fun _ => nofun) fun _ _ => sends_call fun _ => nofun
  have hlines : ∀ id lines, Sends kind (sendLines id lines) fun _ => True := by
    intro id lines
    induction lines with
    | nil => exact sends_pure trivial
    | cons line lines ih =>
        refine Sends.bind (sends_call fun _ => nofun) fun written _ => ?_
        split_ifs
        · exact ih
        · exact sends_pure trivial
  have hpoll : ∀ id contextId deadline polls,
      Sends kind (ssePollUntilTerminal site id t contextId deadline polls) fun _ => True := by
    intro id contextId deadline polls
    induction polls with
    | zero => exact sends_call fun _ => nofun
    | succ polls ih =>
        refine Sends.bind (sends_call fun _ => nofun) fun now _ => ?_
        split_ifs
        · refine Sends.bind (sends_call fun _ => nofun) fun lines _ => ?_
          refine Sends.bind (hlines ..) fun written _ => ?_
          split_ifs
          · refine Sends.bind (sends_call fun _ => nofun) fun closed _ => ?_
            split_ifs
            · exact sends_pure trivial
            refine Sends.bind (sends_attempt ⟨rfl, fun _ _ => trivial⟩) fun status _ => ?_
            split_ifs
            · exact Sends.bind (hemit ..) fun _ _ => sends_call fun _ => nofun
            · refine Sends.bind (sends_call fun _ => nofun) fun now _ => ?_
              exact Sends.bind (sends_call fun _ => nofun) fun _ _ => ih
          · exact sends_call fun _ => nofun
        · exact Sends.bind (sends_call fun _ => nofun) fun _ _ => sends_call fun _ => nofun
  have hopen : Sends kind (openSseStream t) fun _ => True :=
    Sends.bind (sends_attempt ⟨rfl, fun _ _ => trivial⟩) fun id _ =>
      Sends.bind (sends_call fun _ => nofun) fun _ _ => sends_pure trivial
  refine Sends.bind (sends_attempt ⟨rfl, fun _ _ => trivial⟩) fun status _ => ?_
  by_cases hnone : status.state = none
  · rw [if_pos hnone]
    exact sends_send (h 404 _ _ _ (by decide))
  · rw [if_neg hnone]
    refine Sends.bind hopen fun id _ => Sends.bind (hemit ..) fun written _ => ?_
    split_ifs
    · exact sends_call fun _ => nofun
    · exact Sends.bind (sends_call fun _ => nofun) fun _ _ => hpoll ..
    · exact sends_call fun _ => nofun

theorem handleSendSubscribe_sends {params rpcId : Json} (h : MayRefuse kind .null)
    (herror : ∀ code message, kind (subscribeError code message rpcId)) :
    Sends kind (handleSendSubscribe site req params rpcId) fun _ => True := by
  refine Sends.bind (sends_compute fun _ _ => trivial) fun t _ => ?_
  dsimp only
  split_ifs
  · exact sends_send (herror _ _)
  refine Sends.bind (sends_attempt ⟨rfl, fun _ _ => trivial⟩) fun status _ => ?_
  split_ifs
  · exact sends_send (herror _ _)
  · exact streamTaskSse_sends h t

theorem rpcListTasks_sends (params : Json) :
    Sends kind (rpcListTasks site req params) fun _ => True := by
  have hitems : ∀ page stamps, Sends kind (listItems page stamps) fun _ => True := by
    intro page
    induction page with
    | nil => exact fun _ => sends_pure trivial
    | cons entry page ih =>
        obtain ⟨createdAt, task, state⟩ := entry
        intro stamps
        refine Sends.bind (sends_call fun _ => nofun) fun response _ => ?_
        have hrest : ∀ filtered : Option String, Sends kind (do
            let stateName := (state.map TaskState.name).getD "unknown"
            let item := buildTaskObject task.taskId stateName task.contextId filtered
              (some task.createdAt) (stamps 0)
            let items ← listItems page fun n => stamps (n + 1)
            return item :: items) fun _ => True :=
          fun filtered => Sends.bind (ih _) fun items _ => sends_pure trivial
        cases nonEmpty? response with
        | none => exact hrest none
        | some text =>
            refine Sends.bind (sends_call fun _ => nofun) ?_
            rintro (_ | response) -
            · exact sends_throw
            · exact hrest _
  have hpage : ∀ size token,
      Sends kind (buildPaginatedTaskList site size token req.stamps) fun _ => True :=
    fun size token => Sends.bind (sends_call fun _ => nofun) fun snapshot _ =>
      Sends.bind (hitems ..) fun items _ => sends_pure trivial
  refine Sends.bind (sends_compute fun _ _ => trivial) fun pageSize _ => ?_
  refine Sends.bind (sends_compute fun _ _ => trivial) fun pageSize _ => ?_
  refine Sends.bind (sends_compute fun _ _ => trivial) fun token _ => ?_
  exact Sends.bind (hpage ..) fun page _ => sends_pure trivial

/-! ### Requests -/

/-- **A method.** -/
theorem handler_sends {params rpcId : Json} (h : MayRefuse kind rpcId) (hnull : MayRefuse kind .null)
    {m : RpcMethod}
    (herror : m = .subscribeToTask → ∀ code message, kind (subscribeError code message rpcId)) :
    Sends kind (m.handler site req params rpcId) fun _ => True := by
  cases m with
  | sendMessage => exact Sends.bind (handleTaskSend_sends h) fun task _ => sends_pure trivial
  | getTask =>
      refine Sends.bind (sends_compute fun _ _ => trivial) fun t _ => ?_
      refine Sends.bind (getTaskCore_sends h t _) ?_
      rintro (_ | task) -
      · exact sends_pure trivial
      · exact Sends.bind (sends_lift (emitGetTaskArtifacts_only t task)) fun _ _ => sends_pure trivial
  | cancelTask =>
      refine Sends.bind (sends_compute fun _ _ => trivial) fun t _ => ?_
      refine Sends.bind (cancelTaskCore_sends h t _) ?_
      rintro (_ | task) -
      · exact sends_pure trivial
      · exact sends_pure trivial
  | subscribeToTask =>
      exact Sends.bind (handleSendSubscribe_sends hnull (herror rfl)) fun _ _ => sends_pure trivial
  | listTasks => exact rpcListTasks_sends params

/-- What a JSON-RPC body asks for. -/
def asksFor (body : Json) : RpcRequest → Prop
  | .invalid _ _ status rpcId => 400 ≤ status ∧ rpcId = rpcIdOf body
  | .method m _ rpcId => rpcId = rpcIdOf body ∧
      ∃ name, body.field? "method" = some (.str name) ∧ rpcMethod? name = some m

theorem asksFor_of_readRpc {body : Json} {request : RpcRequest} (h : readRpc body = .ok request) :
    asksFor body request := by
  cases body with
  | obj fields =>
      unfold readRpc at h
      obtain ⟨method, hget, h⟩ := exists_of_bind_ok h
      obtain ⟨params, -, h⟩ := exists_of_bind_ok h
      obtain ⟨rpcId, hrpcId, h⟩ := exists_of_bind_ok h
      obtain ⟨jsonrpc, -, h⟩ := exists_of_bind_ok h
      obtain rfl := Except.ok.inj hget
      obtain rfl := Except.ok.inj hrpcId
      dsimp only at h
      split_ifs at h with hversion htruthy hhashable
      · cases h
        exact ⟨by decide, rfl⟩
      · cases h
        exact ⟨by decide, rfl⟩
      · cases hmethod : fields.lookup "method" with
        | none =>
            rw [hmethod] at htruthy
            exact absurd rfl htruthy
        | some method =>
            rw [hmethod, Option.getD_some] at h
            cases method with
            | str name =>
                cases hm : rpcMethod? name with
                | none =>
                    dsimp only at h
                    rw [hm] at h
                    cases h
                    exact ⟨by decide, rfl⟩
                | some m =>
                    dsimp only at h
                    rw [hm] at h
                    cases h
                    exact ⟨rfl, name, hmethod, hm⟩
            | _ =>
                cases h
                exact ⟨by decide, rfl⟩
  | _ => cases h

theorem eq_of_rpcMethod?_subscribe {name : String} (h : rpcMethod? name = some .subscribeToTask) :
    name = "SubscribeToTask" := by
  unfold rpcMethod? at h
  split at h <;> cases h
  rfl

theorem mayRefuse_null {body : Option Json} : MayRefuse (RpcAnswer body) .null :=
  fun _ code message data hstatus => .error hstatus code message data (.inl rfl)

theorem mayRefuse_rpcIdOf {body : Json} : MayRefuse (RpcAnswer (some body)) (rpcIdOf body) :=
  fun _ code message data hstatus => .error hstatus code message data (.inr rfl)

theorem doJsonRpcInner_sends :
    Sends (RpcAnswer (req.admitted? site)) (doJsonRpcInner site req) fun _ => True := by
  refine Sends.bind (readBody_sends mayRefuse_null (mayRefuse_null.sendRpcError _ _ (by decide))
    fun _ _ hstatus => mayRefuse_null.sendRpcError _ _ hstatus) ?_
  rintro (_ | body) hadmitted
  · exact sends_pure trivial
  rw [hadmitted body rfl]
  refine Sends.bind (sends_compute fun request h => asksFor_of_readRpc h) ?_
  rintro (⟨code, message, status, rpcId⟩ | ⟨m, params, rpcId⟩) hasks
  · obtain ⟨hstatus, rfl⟩ := hasks
    exact mayRefuse_rpcIdOf.sendRpcError _ _ hstatus
  · obtain ⟨rfl, name, hmethod, hm⟩ := hasks
    refine Sends.bind (handler_sends mayRefuse_rpcIdOf mayRefuse_null ?_) ?_
    · rintro rfl code message
      obtain rfl := eq_of_rpcMethod?_subscribe hm
      exact .subscribe hmethod code message
    · rintro (_ | j) -
      · exact sends_pure trivial
      · exact sends_send (.result body j)

/-- What is raised on the way is an error for nobody. -/
theorem doJsonRpc_sends :
    Sends (RpcAnswer (req.admitted? site)) (doJsonRpc site req) fun _ => True := by
  refine Prog.Relies.bind doJsonRpcInner_sends ?_
  rintro (e | _) -
  · refine ⟨fun r hr => ?_, fun _ _ _ _ => trivial⟩
    cases hr
    exact .error (by decide) _ _ .null (.inl rfl)
  · exact fun _ _ => trivial

end Parts

/-! ### Runs -/

section Run

variable {site : Site} {clock : ℕ} {c : ServerConfig} {i : ℕ} {req : HttpRequest}
  {a : Act ServerOp ServerOp.Res} {r : HttpResponse}

theorem answer_of_run
    (hc : (httpServer site).Reaches anyServerStep (ServerState.init clock) c)
    (hcalls : c.Calls i (.post req)) (hroute : req.postRoute = .jsonRpc) (h : (i, a) ∈ c.trace)
    (ha : a.op = .send r) : RpcAnswer (req.admitted? site) r := by
  have hpost : doPost site req = doJsonRpc site req := by
    unfold doPost
    rw [hroute]
    rfl
  have hsends : ((ServerCall.post req).prog site).Relies (fun _ _ => True)
      (fun o => ∀ r, o = .send r → RpcAnswer (req.admitted? site) r) fun _ => True := by
    change (serveHttp (doPost site req)).Relies _ _ _
    rw [hpost]
    exact Prog.Relies.bind doJsonRpc_sends fun _ _ => trivial
  exact hc.allowed_of_calls hsends hcalls h r ha

/-- **Every complete response to a JSON-RPC request is an envelope**, in every run: for the id of
the request or for none, with a result and the status 200, or with an error and a status from 400
on.  Only SubscribeToTask has errors with the status 200; the stream it opens is no response
here. -/
theorem rpc_enveloped
    (hc : (httpServer site).Reaches anyServerStep (ServerState.init clock) c)
    (hcalls : c.Calls i (.post req)) (hroute : req.postRoute = .jsonRpc) (h : (i, a) ∈ c.trace)
    (ha : a.op = .send r) :
    r.body.field? "jsonrpc" = some (.str "2.0") ∧
      (r.body.field? "id" = some .null ∨
        ∃ body, req.admitted? site = some body ∧ r.body.field? "id" = some (rpcIdOf body)) ∧
      ((r.status = 200 ∧ r.body.field? "error" = none ∧
          ∃ body j, req.admitted? site = some body ∧ r.body.field? "result" = some j) ∨
        (r.body.field? "result" = none ∧ ∃ error, r.body.field? "error" = some error ∧
          (400 ≤ r.status ∨ ∃ body, req.admitted? site = some body ∧
            body.field? "method" = some (.str "SubscribeToTask")))) := by
  have hanswer := answer_of_run hc hcalls hroute h ha
  generalize req.admitted? site = admitted at hanswer
  cases hanswer with
  | result body j =>
      exact ⟨rfl, .inr ⟨body, rfl, rfl⟩, .inl ⟨rfl, rfl, body, j, rfl, rfl⟩⟩
  | error hstatus code message data hid =>
      refine ⟨rfl, ?_, .inr ⟨rfl, _, rfl, .inl hstatus⟩⟩
      rcases hid with rfl | hid
      · exact .inl rfl
      · obtain ⟨body, hbody, rfl⟩ := Option.map_eq_some_iff.mp hid
        exact .inr ⟨body, hbody, rfl⟩
  | @subscribe body hmethod code message =>
      exact ⟨rfl, .inr ⟨body, rfl, rfl⟩, .inr ⟨rfl, _, rfl, .inr ⟨body, rfl, hmethod⟩⟩⟩

/-! ### What the tool is told -/

variable {F : FloatReader} {decode : Json.WideDecoder} {payload : Json} {client : HttpClient}

/-- The tool is told the result, or that it is too large. -/
theorem rpcCall_result (locale : Locale) (targetUrl : String) (timeout : ℤ) {j rpcId : Json}
    (hformed : (rpcResult j rpcId).body.WellFormed client.floatReader) :
    rpcCall locale targetUrl timeout (httpRequest client (rpcResult j rpcId).outcome) =
      if (rpcResult j rpcId).body.dumpsUtf8.toUTF8.size ≤ client.maxResponseSize then
        .ok (j.orElse (.obj []), "")
      else
        .ok (.obj [], "Call failed: " ++
          ("Response exceeds " ++ toString client.maxResponseSize ++ " bytes")) := by
  split_ifs with hsize
  · have hok : (rpcResult j rpcId).status = 200 := rfl
    rw [(answered_iff client hformed).mpr ⟨by omega, by omega, by omega, hsize⟩]
    rfl
  · have hlarge : ((rpcResult j rpcId).data.extract 0 (client.maxResponseSize + 1)).size >
        client.maxResponseSize := by
      have hdata : (rpcResult j rpcId).data = (rpcResult j rpcId).body.dumpsUtf8.toUTF8 := rfl
      rw [hdata, ByteArray.size_extract]
      omega
    have houtcome : (rpcResult j rpcId).outcome = .response (rpcResult j rpcId).data := rfl
    rw [houtcome, httpRequest]
    rw [if_pos hlarge]
    rfl

/-- The tool is told the status of an error. -/
theorem rpcCall_httpError (locale : Locale) (targetUrl : String) (timeout : ℤ)
    (hstatus : 400 ≤ r.status) :
    ∃ detail, rpcCall locale targetUrl timeout (httpRequest client r.outcome) =
      .ok (.obj [], "Call failed: " ++ ("HTTP " ++ toString r.status ++ detail)) := by
  have houtcome : r.outcome = .httpError r.status r.data := if_neg fun h => by omega
  rw [houtcome]
  exact ⟨_, rfl⟩

/-- **A tool calls an agent.**  Of every response to what it has posted, in every run of the
agent, it is told the result, if it is not too large, or a failure with the status: it is never
told of an error in an envelope. -/
theorem rpc_exchange
    (hc : (httpServer site).Reaches anyServerStep (ServerState.init clock) c)
    (hcalls : c.Calls i (.post req)) (hroute : req.postRoute = .jsonRpc)
    (hpayload : payload.WellFormed F) (htruthy : payload.truthy = true)
    (hmethod : payload.field? "method" ≠ some (.str "SubscribeToTask"))
    (hposted : req.Receives F decode (requestData payload)) (h : (i, a) ∈ c.trace)
    (ha : a.op = .send r) (hformed : r.body.WellFormed client.floatReader) (locale : Locale)
    (targetUrl : String) (timeout : ℤ) :
    (∃ j, r = rpcResult j (rpcIdOf payload) ∧ payload.dumpsAscii.length ≤ 65536 ∧
        rpcCall locale targetUrl timeout (httpRequest client r.outcome) =
          if r.body.dumpsUtf8.toUTF8.size ≤ client.maxResponseSize then
            .ok (j.orElse (.obj []), "")
          else
            .ok (.obj [], "Call failed: " ++
              ("Response exceeds " ++ toString client.maxResponseSize ++ " bytes"))) ∨
      (400 ≤ r.status ∧ ∃ detail,
        rpcCall locale targetUrl timeout (httpRequest client r.outcome) =
          .ok (.obj [], "Call failed: " ++ ("HTTP " ++ toString r.status ++ detail))) := by
  have hanswer := answer_of_run hc hcalls hroute h ha
  have hadmitted : ∀ body, req.admitted? site = some body →
      body = payload ∧ payload.dumpsAscii.length ≤ 65536 := by
    intro body hbody
    rw [admitted_of_receives site hpayload htruthy hposted] at hbody
    split_ifs at hbody with hlet
    exact ⟨(Option.some.inj hbody).symm, hlet.2.2⟩
  generalize req.admitted? site = admitted at hanswer hadmitted
  cases hanswer with
  | result body j =>
      obtain ⟨rfl, hlength⟩ := hadmitted body rfl
      exact .inl ⟨j, rfl, hlength, rpcCall_result locale targetUrl timeout hformed⟩
  | error hstatus code message data hid =>
      exact .inr ⟨hstatus, rpcCall_httpError locale targetUrl timeout hstatus⟩
  | @subscribe body hsubscribe code message =>
      obtain ⟨rfl, -⟩ := hadmitted body rfl
      exact absurd hsubscribe hmethod

end Run

/-! ### A list of no tasks -/

/-- What is posted to list the tasks. -/
def listPayload : Json := rpcBody "ListTasks" []

/-- The request that the server has of it. -/
def listRequest : HttpRequest := { HttpRequest.sample "/" listPayload with contentLength := some 64 }

/-- A client that takes a megabyte. -/
def HttpClient.sample : HttpClient := ⟨String.ofList, 1000000, fun _ => "", fun _ => ""⟩

theorem length_listPayload : listPayload.dumpsAscii.length = 64 := by
  unfold Json.dumpsAscii
  rw [String.length_ofList]
  decide +kernel

theorem wellFormed_listPayload : listPayload.WellFormed String.ofList :=
  ⟨by decide, trivial, trivial, ⟨by decide, trivial⟩, trivial, trivial⟩

theorem receives_listRequest (decode : Json.WideDecoder) :
    listRequest.Receives String.ofList decode (requestData listPayload) := by
  have hsize := (size_dumpsAscii wellFormed_listPayload).trans length_listPayload
  have hdata : requestData listPayload = some listPayload.dumpsAscii.toUTF8 := rfl
  rw [hdata]
  constructor
  · change some 64 = some ((listPayload.dumpsAscii.toUTF8.size : ℕ) : ℤ)
    rw [hsize]
    rfl
  · change some listPayload = Json.loadsBytes _ decode (listPayload.dumpsAscii.toUTF8.extract 0
      listPayload.dumpsAscii.toUTF8.size)
    rw [extract_of_size_le (Nat.le_refl _),
      Json.loadsBytes_dumpsAscii wellFormed_listPayload decode]

/-- The list of no tasks. -/
def noTasks : Json :=
  .obj [("task", .arr []), ("pageSize", .int 20), ("totalSize", .int 0), ("nextPageToken", .str "")]

/-- The response a step sends. -/
def sent? : ServerOp → Option HttpResponse
  | .send r => some r
  | _ => none

/-- The run in which the agent is asked for its tasks. -/
theorem exists_list_run :
    ∃ c a, (httpServer .sample).Reaches anyServerStep (ServerState.init 0) c ∧
      c.Calls 0 (.post listRequest) ∧ (0, a) ∈ c.trace ∧
        a.op = .send (rpcResult noTasks (.int 1)) := by
  have hplay : (playServer .sample [.post listRequest] (List.replicate 2 (.act 0))).any
      (fun c => c.trace.any fun e => decide (e.1 = 0) &&
        decide (sent? e.2.op = some (rpcResult noTasks (.int 1)))) = true := by decide +kernel
  obtain ⟨c, hc, hcalls, hany⟩ := exists_of_playServer hplay
  obtain ⟨⟨j, a⟩, he, hp⟩ := List.any_eq_true.mp hany
  obtain ⟨hj, hsent⟩ := Bool.and_eq_true_iff.mp hp
  obtain rfl : j = 0 := of_decide_eq_true hj
  have hsent := of_decide_eq_true hsent
  refine ⟨c, a, hc, hcalls 0 _ rfl, he, ?_⟩
  cases hop : a.op with
  | send r =>
      rw [hop] at hsent
      exact congrArg ServerOp.send (Option.some.inj hsent)
  | _ =>
      rw [hop] at hsent
      cases hsent

/-- The list is an envelope. -/
theorem list_enveloped :
    ∃ c a r, (httpServer .sample).Reaches anyServerStep (ServerState.init 0) c ∧
      (0, a) ∈ c.trace ∧ a.op = .send r ∧ r.body.field? "jsonrpc" = some (.str "2.0") := by
  obtain ⟨c, a, hc, hcalls, h, ha⟩ := exists_list_run
  exact ⟨c, a, _, hc, h, ha, (rpc_enveloped hc hcalls (by decide +kernel) h ha).1⟩

/-- The tool is told the list. -/
theorem list_exchanged :
    ∃ c a r, (httpServer .sample).Reaches anyServerStep (ServerState.init 0) c ∧
      (0, a) ∈ c.trace ∧ a.op = .send r ∧
      ((∃ j, r = rpcResult j (.int 1) ∧
        rpcCall ⟨id, Json.dumps⟩ "" 30 (httpRequest .sample r.outcome) =
          if r.body.dumpsUtf8.toUTF8.size ≤ 1000000 then .ok (j.orElse (.obj []), "")
          else .ok (.obj [], "Call failed: " ++ ("Response exceeds " ++ "1000000" ++ " bytes"))) ∨
        400 ≤ r.status) := by
  obtain ⟨c, a, hc, hcalls, h, ha⟩ := exists_list_run
  refine ⟨c, a, _, hc, h, ha, ?_⟩
  have hformed : (rpcResult noTasks (.int 1)).body.WellFormed HttpClient.sample.floatReader :=
    ⟨by decide, trivial, ⟨by decide, trivial, trivial, trivial, trivial, trivial⟩, trivial, trivial⟩
  rcases rpc_exchange hc hcalls (by decide +kernel) wellFormed_listPayload rfl
      (by decide) (receives_listRequest fun _ _ => none) h ha hformed ⟨id, Json.dumps⟩ "" 30 with
    ⟨j, hr, -, hcall⟩ | ⟨hstatus, -⟩
  · exact .inl ⟨j, hr, hcall⟩
  · exact .inr hstatus

end HermesA2A
