import HermesA2A.Contracts
import HermesA2A.Server.Replies
import HermesA2A.Specification

/-!
# The parts of the handlers keep to their rights

What the handlers share, in the order of the source: the inbound path, the lookup of a
task, the delivery of artifacts, pages, streams.  Each lemma says which rights a part
needs and what it returns.

Most responses show filtered texts only, so one assumption has them all (`hclean`).
-/

namespace HermesA2A

/-- Everything a response shows is filtered. -/
def CleanResponse (response : HttpResponse) : Prop := AllFiltered (bodyTexts response.body)

theorem cleanResponse_of_eq_nil {response : HttpResponse} (h : bodyTexts response.body = []) :
    CleanResponse response := by
  unfold CleanResponse
  rw [h]
  exact allFiltered_nil

theorem Storable.ne_arr {result : Json} (h : Storable result) (tasks : List Json) :
    result ≠ .arr tasks := by
  rintro rfl
  cases h.get_response

/-- A Task that is built. -/
theorem storable_buildTaskObject (taskId contextId : Json) (state : String)
    (response : Option String) (createdAt : Option Time) (stamp : Stamp) :
    Storable (buildTaskObject taskId state contextId response createdAt stamp) where
  clean := clean_buildTaskObject _ _ _ _ _ _
  get_response := get_response_buildTaskObject ..

/-- What is stored for a task that is complete. -/
theorem cached_buildTaskObject (taskId contextId : Json) (response : Option String)
    (createdAt : Option Time) (stamp : Stamp) :
    Cached (buildTaskObject taskId "completed" contextId response createdAt stamp) where
  toStorable := storable_buildTaskObject ..
  completed := by
    cases createdAt <;> refine ⟨_, rfl, ?_⟩ <;>
      cases nonEmpty? ((nonEmpty? response).map filterOutbound) <;> rfl

/-- A response with one Task, over REST. -/
theorem cleanResponse_task {task : Json} {status : ℕ} (h : CleanTask task)
    (hnot : ∀ tasks, task ≠ .arr tasks) :
    CleanResponse ⟨status, .obj [("task", task)]⟩ := by
  have htexts : bodyTexts (.obj [("task", task)]) = taskTexts task := bodyTexts_task rfl hnot
  unfold CleanResponse
  rw [htexts]
  exact h

/-- The same over JSON-RPC. -/
theorem cleanResponse_rpcTask {task rpcId : Json} (h : CleanTask task)
    (hnot : ∀ tasks, task ≠ .arr tasks) :
    CleanResponse (rpcResult (.obj [("task", task)]) rpcId) := by
  have htexts : bodyTexts (rpcResult (.obj [("task", task)]) rpcId).body = taskTexts task :=
    bodyTexts_task rfl hnot
  unfold CleanResponse
  rw [htexts]
  exact h

/-- A Task that was put together by hand, with a filtered text. -/
theorem cleanResponse_plainTask {status : ℕ} {id : Json} {state : String} {text : Json}
    (h : IsFiltered text) : CleanResponse ⟨status, plainTask [("id", id)] state text⟩ := by
  change AllFiltered (taskTexts (plainTask [("id", id)] state text) ++ [])
  rw [List.append_nil, taskTexts_plainTask rfl rfl]
  exact allFiltered_singleton.mpr h

theorem cleanResponse_notice (notice : Notice) (status : ℕ) :
    CleanResponse ⟨status, notice.json⟩ := by
  refine cleanResponse_of_eq_nil ?_
  unfold bodyTexts tasksIn taskTexts statusTexts artifactsOf
  simp only [notice.taskless _ (List.mem_cons_self ..),
    notice.taskless "task" (by simp), Option.getD_none, List.flatMap_cons, List.flatMap_nil,
    notice.taskless "artifacts" (by simp), notice.messageless, Option.elim_none, List.append_nil]

theorem isFiltered_pollText : IsFiltered (.str pollText) :=
  ⟨pollText, by rw [filterOutbound_pollText]⟩

theorem isFiltered_emptyMessage : IsFiltered (.str "Empty message") :=
  ⟨"Empty message", by rw [filterOutbound_emptyMessage]⟩

theorem isFiltered_empty : IsFiltered (.str "") := ⟨"", by rw [filterOutbound_empty]⟩

/-! ### The inbound path -/

/-- What `_prepare_and_enqueue` may return. -/
def Prepared.IsClean : Prepared → Prop
  | replay result => Cached result
  | _ => True

/-- What `_enqueue_and_await_task` may return. -/
def Awaited.IsClean : Awaited → Prop
  | answered result => Storable result
  | refused error => CleanResponse error
  | timedOut => True

section Inbound

variable {rights : Rights} (hqueue : rights.queue)

include hqueue

/-- With the right to the queue, only what is stored matters. -/
theorem allowsBase_of_queue {o : Op} (h : o.StoresClean) : rights.AllowsBase o :=
  ⟨fun _ => hqueue, h⟩

theorem checkIdempotency_relies (s : Submission) :
    (checkIdempotency s).Relies Op.AnswersClean rights.AllowsBase fun r =>
      ∀ prepared, r = .ok (some prepared) → prepared.IsClean := by
  unfold checkIdempotency
  split_ifs
  · refine ⟨allowsBase_of_queue hqueue trivial, ?_⟩
    rintro (e | _ | _) -
    · exact fun _ h => nomatch h
    · refine ⟨allowsBase_of_queue hqueue trivial, ?_⟩
      rintro (e | _ | ⟨t, stored⟩) hclean
      · exact fun _ h => nomatch h
      · exact fun _ h => nomatch h
      · intro prepared h
        cases h
        exact hclean t _ rfl
    · intro prepared h
      cases h
      exact trivial
  · exact fun _ h => nomatch h

theorem enqueueChecked_relies (s : Submission) (userText : String) :
    (enqueueChecked s userText).Relies Op.AnswersClean rights.AllowsBase fun r =>
      ∀ prepared, r = .ok prepared → prepared.IsClean := by
  refine ⟨allowsBase_of_queue hqueue trivial, ?_⟩
  rintro (e | _ | task) -
  · exact fun _ h => nomatch h
  · refine ⟨allowsBase_of_queue hqueue trivial, fun _ _ => ⟨allowsBase_of_queue hqueue trivial, ?_⟩⟩
    rintro (_ | task) - prepared h
    · cases h
      exact trivial
    · cases h
      exact trivial
  · intro prepared h
    cases h
    exact trivial

/-- What is replayed was stored. -/
theorem prepareAndEnqueue_relies (s : Submission) :
    (prepareAndEnqueue s).Relies Op.AnswersClean rights.AllowsBase fun r =>
      ∀ prepared, r = .ok prepared → prepared.IsClean := by
  refine (checkIdempotency_relies hqueue s).bind ?_
  rintro (e | _ | prepared) h
  · exact fun _ h => nomatch h
  · exact enqueueChecked_relies hqueue s _
  · intro prepared' heq
    obtain rfl := Except.ok.inj heq
    exact h _ rfl

theorem awaitTask_relies (P : Platform) (s : Submission) (stamp : Stamp) (task : PendingTask) :
    (awaitTask P s stamp task).Relies Op.AnswersClean rights.AllowsBase fun r =>
      ∀ awaited, r = .ok awaited → awaited.IsClean := by
  have hallowed : ∀ {o : Op}, o.StoresClean → rights.AllowsBase o := allowsBase_of_queue hqueue
  refine ⟨hallowed trivial, fun start _ => ⟨hallowed trivial, fun _ _ => ⟨hallowed trivial, ?_⟩⟩⟩
  rintro (_ | first) -
  · refine ⟨hallowed trivial, fun _ _ awaited h => ?_⟩
    cases h
    exact trivial
  refine ⟨hallowed trivial, ?_⟩
  rintro (_ | response) -
  · exact fun _ h => nomatch h
  change (if s.idemKey.truthy = true then _ else _ : Proc _).Relies _ _ _
  split_ifs
  · refine ⟨hallowed (cached_buildTaskObject ..), fun _ _ awaited h => ?_⟩
    cases h
    exact storable_buildTaskObject ..
  · intro awaited h
    cases h
    exact storable_buildTaskObject ..

/-- **An answer was stored, or built.** -/
theorem enqueueAndAwaitTask_relies (P : Platform) (s : Submission) (stamp : Stamp) :
    (enqueueAndAwaitTask P s stamp).Relies Op.AnswersClean rights.AllowsBase fun r =>
      ∀ awaited, r = .ok awaited → awaited.IsClean := by
  refine (prepareAndEnqueue_relies hqueue s).bind ?_
  rintro (e | task | ⟨code, httpStatus, message⟩ | stored) h
  · exact fun _ h => nomatch h
  · exact awaitTask_relies hqueue P s stamp task
  · intro awaited heq
    cases heq
    exact cleanResponse_of_eq_nil rfl
  · intro awaited heq
    cases heq
    exact (h _ rfl).toStorable

/-- The threads that are no requests store nothing. -/
theorem internal_relies (P : Platform) {x : Call}
    (hx : ∀ transport req, x ≠ .sendMessage transport req) :
    (x.prog P).Relies Op.AnswersClean rights.AllowsBase fun _ => True := by
  refine (Call.meets P x).relies (fun h o hpre => allowsBase_of_queue hqueue ?_)
    fun _ _ _ => trivial
  cases o with
  | idemSet =>
      obtain ⟨transport, req, s, -, -, -, -, -, hsubmits, -⟩ := hpre
      exact absurd hsubmits.1 (hx transport req)
  | _ => exact trivial

end Inbound

/-! ### On the server -/

section Server

variable {subscribed : Subscription → Prop} {rights : Rights}

theorem broadcast_keepsTo {event : SseEvent} (h : CleanEvent event) (ids : List StreamId) :
    KeepsTo subscribed rights (broadcast ids event) fun _ => True := by
  induction ids generalizing event with
  | nil => exact trivial
  | cons id ids ih =>
      refine ⟨h, fun pushed hkind => ih ?_⟩
      unfold CleanEvent at h ⊢
      rwa [hkind]

theorem deliverAll_keepsTo {payload : Json} (h : AllFiltered (pushTexts payload)) :
    ∀ {subs : List Subscription}, (∀ sub ∈ subs, subscribed sub) →
      KeepsTo subscribed rights (deliverAll payload subs) fun _ => True := by
  intro subs
  induction subs with
  | nil => exact fun _ => trivial
  | cons sub subs ih =>
      intro hsubs
      refine ⟨⟨h, sub, hsubs sub (List.mem_cons_self ..), rfl⟩, fun _ _ => ?_⟩
      exact ih fun other hother => hsubs other (List.mem_cons_of_mem _ hother)

theorem pushSse_keepsTo {event : SseEvent} (h : CleanEvent event) (t : TaskId) :
    KeepsTo subscribed rights (pushSse t event) fun _ => True := by
  refine ⟨trivial, ?_⟩
  rintro (e | ids) -
  · exact trivial
  · exact broadcast_keepsTo h ids

theorem pushNotifications_keepsTo (t : TaskId) (newState : TaskState) (contextId : Json) :
    KeepsTo subscribed rights (pushNotifications t newState contextId) fun _ => True := by
  refine ⟨trivial, ?_⟩
  rintro (e | _ | ⟨sub, subs⟩) hsubs
  · exact trivial
  · exact trivial
  · refine ⟨trivial, fun timestamp _ => deliverAll_keepsTo ?_ (hsubs _ rfl)⟩
    exact allFiltered_nil

/-- A change of state is told to streams and subscribers without any text. -/
theorem onStateChange_keepsTo (t : TaskId) (oldState : String) (newState : TaskState)
    (contextId : Json) :
    KeepsTo subscribed rights (onStateChange t oldState newState contextId) fun _ => True := by
  refine Prog.Relies.bind (keepsTo_server ?_) fun _ _ => ?_
  · exact ⟨nofun, trivial⟩
  · refine Prog.Relies.bind (pushSse_keepsTo ?_ t) fun _ _ => pushNotifications_keepsTo ..
    exact trivial

/-- **What the inbound path may do alone it may do on the server.** -/
theorem keepsTo_lift {α : Type} {p : Proc α} {ends : α → Prop}
    (h : p.Relies Op.AnswersClean rights.AllowsBase ends) :
    KeepsTo subscribed rights (lift p) ends := by
  refine Prog.Relies.expand (fun o ho => ?_) h
  cases o with
  | stateHook t oldState newState contextId => exact onStateChange_keepsTo ..
  | _ => exact ⟨ho, fun _ hanswer => hanswer⟩

/-- A thread that is no request. -/
theorem serveInternal_keepsTo {p : Proc Outcome}
    (h : p.Relies Op.AnswersClean rights.AllowsBase fun _ => True) :
    KeepsTo subscribed rights (serveInternal p) fun _ => True :=
  (keepsTo_lift h).bind fun _ _ => trivial

/-! ### Tasks -/

section Tasks

variable (hclean : ∀ response, CleanResponse response → rights.responds response)

theorem getStatus_keepsTo (t : TaskId) :
    HandlerKeepsTo subscribed rights (getStatus t) fun _ => True := by
  refine keepsTo_attempt ⟨⟨nofun, trivial⟩, fun _ _ _ _ => trivial⟩

include hclean

theorem keepsTo_send {response : HttpResponse} (h : CleanResponse response) :
    HandlerKeepsTo subscribed rights (call (.send response)) fun _ => True :=
  (keepsTo_call (o := .send response) (hclean _ h)).mono fun _ _ => trivial

theorem keepsTo_sendJson {status : ℕ} {body : Json} (h : CleanResponse ⟨status, body⟩) :
    HandlerKeepsTo subscribed rights (sendJson status body) fun _ => True :=
  keepsTo_send hclean h

/-- A response without any text of a Task. -/
theorem keepsTo_silent {response : HttpResponse} (h : bodyTexts response.body = []) :
    HandlerKeepsTo subscribed rights (call (.send response)) fun _ => True :=
  keepsTo_send hclean (cleanResponse_of_eq_nil h)

theorem loadTaskOr404_keepsTo (t : TaskId) (rpcId : Json) :
    HandlerKeepsTo subscribed rights (loadTaskOr404 t rpcId) fun _ => True := by
  refine (getStatus_keepsTo t).bind fun status _ => ?_
  split_ifs
  · refine keepsTo_call_bind ?_ fun _ => keepsTo_pure trivial
    exact hclean _ (cleanResponse_of_eq_nil rfl)
  · exact keepsTo_pure trivial

theorem getTaskCore_keepsTo (t : TaskId) (rpcId : Json) (stamp : Stamp) :
    HandlerKeepsTo subscribed rights (getTaskCore t rpcId stamp) fun found =>
      ∀ task, found = some task → Storable task := by
  refine (loadTaskOr404_keepsTo hclean t rpcId).bind ?_
  rintro (_ | status) -
  · exact keepsTo_pure fun _ h => nomatch h
  · refine keepsTo_pure fun task h => ?_
    obtain rfl := Option.some.inj h
    exact storable_buildTaskObject ..

theorem cancelTaskCore_keepsTo (hqueue : rights.queue) (t : TaskId) (rpcId : Json)
    (stamp : Stamp) :
    HandlerKeepsTo subscribed rights (cancelTaskCore t rpcId stamp) fun found =>
      ∀ task, found = some task → Storable task := by
  refine (loadTaskOr404_keepsTo hclean t rpcId).bind ?_
  rintro (_ | status) -
  · exact keepsTo_pure fun _ h => nomatch h
  · dsimp only
    split_ifs
    · refine keepsTo_call_bind ?_ fun _ => keepsTo_pure fun _ h => nomatch h
      exact hclean _ (cleanResponse_of_eq_nil rfl)
    · refine keepsTo_call_bind (allowsBase_of_queue hqueue trivial) fun _ => ?_
      refine keepsTo_pure fun task h => ?_
      obtain rfl := Option.some.inj h
      exact storable_buildTaskObject ..

end Tasks

/-! ### Artifacts -/

/-- The artifacts of a clean Task. -/
theorem clean_artifactsOf {task : Json} (h : CleanTask task) :
    ∀ artifact ∈ artifactsOf task, AllFiltered (messageTexts artifact) :=
  allFiltered_flatMap.mp (allFiltered_append.mp h).1

section Artifacts

variable {artifacts : List Json} (h : ∀ artifact ∈ artifacts, AllFiltered (messageTexts artifact))

include h

theorem emitArtifacts_keepsTo (t : TaskId) (contextId : Json) (ids : List StreamId) :
    KeepsTo subscribed rights (emitArtifacts t contextId ids artifacts) fun _ => True := by
  induction artifacts with
  | nil => exact trivial
  | cons artifact artifacts ih =>
      obtain ⟨hhead, htail⟩ := List.forall_mem_cons.mp h
      refine Prog.Relies.bind (broadcast_keepsTo ?_ ids) fun _ _ => ih htail
      exact hhead

theorem deliverArtifacts_keepsTo (t : TaskId) (contextId : Json) {sub : Subscription}
    (hsub : subscribed sub) :
    KeepsTo subscribed rights (deliverArtifacts t contextId sub artifacts) fun _ => True := by
  induction artifacts with
  | nil => exact trivial
  | cons artifact artifacts ih =>
      obtain ⟨hhead, htail⟩ := List.forall_mem_cons.mp h
      refine ⟨⟨?_, sub, hsub, rfl⟩, fun _ _ => ih htail⟩
      exact allFiltered_append.mpr ⟨hhead, allFiltered_nil⟩

theorem deliverArtifactsAll_keepsTo (t : TaskId) (contextId : Json) {subs : List Subscription}
    (hsubs : ∀ sub ∈ subs, subscribed sub) :
    KeepsTo subscribed rights (deliverArtifactsAll t contextId artifacts subs) fun _ => True := by
  induction subs with
  | nil => exact trivial
  | cons sub subs ih =>
      obtain ⟨hhead, htail⟩ := List.forall_mem_cons.mp hsubs
      exact Prog.Relies.bind (deliverArtifacts_keepsTo h t contextId hhead) fun _ _ => ih htail

end Artifacts

section Answered

variable {task : Json} (h : CleanTask task) (t : TaskId)

include h

theorem streamArtifacts_keepsTo (contextId : Json) :
    KeepsTo subscribed rights (streamArtifacts t contextId task) fun _ => True := by
  refine ⟨trivial, ?_⟩
  rintro (e | ids) -
  · exact trivial
  · change KeepsTo subscribed rights (if ids.isEmpty = true then _ else _) _
    split_ifs
    · exact trivial
    · exact emitArtifacts_keepsTo (clean_artifactsOf h) ..

theorem pushArtifacts_keepsTo (contextId : Json) :
    KeepsTo subscribed rights (pushArtifacts t contextId task) fun _ => True := by
  refine ⟨trivial, ?_⟩
  rintro (e | subs) hsubs
  · exact trivial
  · exact deliverArtifactsAll_keepsTo (clean_artifactsOf h) t contextId (hsubs _ rfl)

theorem emitGetTaskArtifacts_keepsTo :
    KeepsTo subscribed rights (emitGetTaskArtifacts t task) fun _ => True := by
  refine ⟨trivial, ?_⟩
  rintro (e | _ | ⟨id, ids⟩) -
  · exact trivial
  · exact trivial
  · refine ⟨⟨nofun, trivial⟩, ?_⟩
    rintro (e | pending) -
    · exact trivial
    · exact emitArtifacts_keepsTo (clean_artifactsOf h) ..

end Answered

/-! ### Pages -/

theorem listItems_keepsTo (page : List (Time × PendingTask × Option TaskState))
    (stamps : ℕ → Stamp) :
    HandlerKeepsTo subscribed rights (listItems page stamps) fun items =>
      ∀ item ∈ items, CleanTask item := by
  induction page generalizing stamps with
  | nil => exact keepsTo_pure fun _ hmem => nomatch hmem
  | cons entry page ih =>
      obtain ⟨createdAt, task, state⟩ := entry
      have hrest : ∀ filtered : Option String, HandlerKeepsTo subscribed rights
          (do
            let items ← listItems page fun n => stamps (n + 1)
            pure (buildTaskObject task.taskId ((state.map TaskState.name).getD "unknown")
              task.contextId filtered (some task.createdAt) (stamps 0) :: items))
          fun items => ∀ item ∈ items, CleanTask item := by
        intro filtered
        refine (ih _).bind fun items hitems => keepsTo_pure ?_
        exact List.forall_mem_cons.mpr ⟨clean_buildTaskObject _ _ _ _ _ _, hitems⟩
      refine keepsTo_call_bind ⟨nofun, trivial⟩ fun first => ?_
      cases nonEmpty? first with
      | none => exact hrest none
      | some _ =>
          refine keepsTo_call_bind ⟨nofun, trivial⟩ fun response => ?_
          cases response with
          | none => exact keepsTo_compute (x := .error .typeError) fun _ h => nomatch h
          | some response => exact hrest _

theorem buildPaginatedTaskList_keepsTo (site : Site) (pageSize : ℤ) (token : Json)
    (stamps : ℕ → Stamp) :
    HandlerKeepsTo subscribed rights (buildPaginatedTaskList site pageSize token stamps) fun page =>
      CleanResponse ⟨200, page⟩ ∧ ∀ rpcId, CleanResponse (rpcResult page rpcId) := by
  refine keepsTo_call_bind trivial fun snapshot =>
    (listItems_keepsTo ..).bind fun items hitems => ?_
  have hclean := allFiltered_flatMap.mpr hitems
  exact keepsTo_pure ⟨hclean, fun _ => hclean⟩

/-! ### Streams -/

section Streams

variable (hstreams : rights.streams)

include hstreams

theorem openSseStream_keepsTo (t : TaskId) :
    HandlerKeepsTo subscribed rights (openSseStream t) fun _ => True := by
  refine HandlerKeepsTo.bind (keepsTo_attempt ⟨hstreams, fun _ _ _ _ => trivial⟩) fun id _ => ?_
  exact keepsTo_call_bind hstreams fun _ => keepsTo_pure trivial

theorem closeStream_keepsTo (id : StreamId) :
    HandlerKeepsTo subscribed rights (call (.closeStream id)) fun _ => True :=
  (keepsTo_call (o := .closeStream id) hstreams).mono fun _ _ => trivial

theorem sseEmit_keepsTo (id : StreamId) (eventId : Option String) (t : TaskId) (state : String)
    (contextId : Json) :
    HandlerKeepsTo subscribed rights (sseEmit id eventId t state contextId) fun _ => True := by
  refine keepsTo_call_bind trivial fun timestamp => HandlerKeepsTo.mono (keepsTo_call ?_) ?_
  · exact ⟨hstreams, allFiltered_nil⟩
  · exact fun _ _ => trivial

theorem sendLines_keepsTo (id : StreamId) {lines : List SseLine}
    (h : ∀ line ∈ lines, AllFiltered (eventTexts line.payload)) :
    HandlerKeepsTo subscribed rights (sendLines id lines) fun _ => True := by
  induction lines with
  | nil => exact keepsTo_pure trivial
  | cons line lines ih =>
      obtain ⟨hhead, htail⟩ := List.forall_mem_cons.mp h
      refine keepsTo_call_bind ⟨hstreams, hhead⟩ fun written => ?_
      cases written with
      | true => exact ih htail
      | false => exact keepsTo_pure trivial

theorem ssePollUntilTerminal_keepsTo (site : Site) (id : StreamId) (t : TaskId) (contextId : Json)
    (deadline : Time) (polls : ℕ) :
    HandlerKeepsTo subscribed rights (ssePollUntilTerminal site id t contextId deadline polls)
      fun _ => True := by
  induction polls with
  | zero => exact (keepsTo_call (o := .halt) trivial).mono fun _ _ => trivial
  | succ polls ih =>
      refine keepsTo_call_bind ⟨nofun, trivial⟩ fun now => ?_
      split_ifs
      · refine HandlerKeepsTo.bind (keepsTo_call hstreams) fun lines hlines => ?_
        refine (sendLines_keepsTo hstreams id hlines).bind fun written _ => ?_
        cases written with
        | false => exact closeStream_keepsTo hstreams id
        | true =>
            refine keepsTo_call_bind trivial fun closed => ?_
            cases closed with
            | true => exact keepsTo_pure trivial
            | false =>
                refine (getStatus_keepsTo t).bind fun status _ => ?_
                split_ifs
                · refine (sseEmit_keepsTo hstreams ..).bind fun _ _ => ?_
                  exact closeStream_keepsTo hstreams id
                · refine keepsTo_call_bind ⟨nofun, trivial⟩ fun now => ?_
                  exact keepsTo_call_bind trivial fun _ => ih
      · refine keepsTo_call_bind ⟨hstreams, allFiltered_nil⟩ fun _ => ?_
        exact closeStream_keepsTo hstreams id

theorem pollStream_keepsTo (site : Site) (req : HttpRequest) (id : StreamId) (t : TaskId)
    (contextId : Json) :
    HandlerKeepsTo subscribed rights (pollStream site req id t contextId) fun _ => True :=
  keepsTo_call_bind ⟨nofun, trivial⟩ fun _ => ssePollUntilTerminal_keepsTo hstreams ..

end Streams

end Server

end HermesA2A
