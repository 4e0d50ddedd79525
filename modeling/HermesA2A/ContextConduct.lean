import HermesA2A.Contexts

/-!
# What the programs say about tasks

The programs of the server once more, in the order of the source, and for each the contexts
that it names tasks with: those on record, and those that it falls back to.  A part that has
asked the queue needs no fallback; one that has not says which it needs.
-/

namespace HermesA2A

namespace ContextRecord

variable {R : ContextRecord} {fallback : TaskId → Option Json → Prop}

/-! ### The inbound path -/

section Inbound

/-- What `_prepare_and_enqueue` may return. -/
def Prepares (R : ContextRecord) (s : Submission) : Prepared → Prop
  | .accepted task => task.contextId = s.contextId ∧ R.enqueued s.taskId s.contextId
  | .replay result => R.Filed result ∧ R.stored s.idemKey result
  | .refused .. => True

/-- What `_enqueue_and_await_task` may return. -/
def Answers (R : ContextRecord) (s : Submission) : Awaited → Prop
  | .answered result => R.Filed result
  | .refused error => tasksSent error.body = []
  | .timedOut => R.enqueued s.taskId s.contextId

theorem checkIdempotency_onRecord (s : Submission) :
    (checkIdempotency s).Relies R.GoodOp (R.KeepsOp fallback) fun r =>
      ∀ prepared, r = .ok (some prepared) → R.Prepares s prepared := by
  unfold checkIdempotency
  split_ifs
  · refine ⟨trivial, ?_⟩
    rintro (e | _ | _) -
    · exact fun _ h => nomatch h
    · refine ⟨trivial, ?_⟩
      rintro (e | _ | ⟨t, stored⟩) hfiled
      · exact fun _ h => nomatch h
      · exact fun _ h => nomatch h
      · intro prepared h
        cases h
        exact hfiled t _ rfl
    · intro prepared h
      cases h
      exact trivial
  · exact fun _ h => nomatch h

section Submit

variable {s : Submission} (hown : s.contextId.orElse s.taskId = s.contextId)

include hown

theorem enqueueChecked_onRecord (userText : String) :
    (enqueueChecked s userText).Relies R.GoodOp (R.KeepsOp fallback) fun r =>
      ∀ prepared, r = .ok prepared → R.Prepares s prepared := by
  refine ⟨trivial, ?_⟩
  rintro (e | _ | task) -
  · exact fun _ h => nomatch h
  · refine ⟨trivial, fun _ _ => ⟨hown, ?_⟩⟩
    rintro (_ | task) haccepted prepared h
    · cases h
      exact trivial
    · cases h
      exact haccepted task rfl
  · intro prepared h
    cases h
    exact trivial

theorem prepareAndEnqueue_onRecord :
    (prepareAndEnqueue s).Relies R.GoodOp (R.KeepsOp fallback) fun r =>
      ∀ prepared, r = .ok prepared → R.Prepares s prepared := by
  refine (checkIdempotency_onRecord s).bind ?_
  rintro (e | _ | prepared) h
  · exact fun _ h => nomatch h
  · exact enqueueChecked_onRecord hown _
  · intro prepared' heq
    obtain rfl := Except.ok.inj heq
    exact h _ rfl

end Submit

/-- What a task on record is answered with is on record. -/
theorem filed_buildTaskObject {t c : Json} (h : R.enqueued t c) (state : String)
    (response : Option String) (createdAt : Option Time) (stamp : Stamp) :
    R.Filed (buildTaskObject t state c response createdAt stamp) :=
  ⟨t, c, h, rfl, congrArg some (R.own t c h)⟩

theorem awaitTask_onRecord (P : Platform) {s : Submission} (stamp : Stamp) {task : PendingTask}
    (hc : task.contextId = s.contextId) (hknown : R.enqueued s.taskId s.contextId) :
    (awaitTask P s stamp task).Relies R.GoodOp (R.KeepsOp fallback) fun r =>
      ∀ awaited, r = .ok awaited → R.Answers s awaited := by
  have hfiled : ∀ response : String, R.Filed (buildTaskObject s.taskId "completed"
      task.contextId (some (filterOutbound response)) none stamp) := by
    intro response
    rw [hc]
    exact filed_buildTaskObject hknown ..
  refine ⟨trivial, fun start _ => ⟨trivial, fun _ _ => ⟨trivial, ?_⟩⟩⟩
  rintro (_ | first) -
  · refine ⟨trivial, fun _ _ awaited h => ?_⟩
    cases h
    exact hknown
  refine ⟨trivial, ?_⟩
  rintro (_ | response) -
  · exact fun _ h => nomatch h
  change (if s.idemKey.truthy = true then _ else _ : Proc _).Relies _ _ _
  split_ifs
  · refine ⟨hfiled response, fun _ _ awaited h => ?_⟩
    cases h
    exact hfiled response
  · intro awaited h
    cases h
    exact hfiled response

/-- **An answer has the context its task was enqueued with.** -/
theorem enqueueAndAwaitTask_onRecord (P : Platform) {s : Submission}
    (hown : s.contextId.orElse s.taskId = s.contextId) (stamp : Stamp) :
    (enqueueAndAwaitTask P s stamp).Relies R.GoodOp (R.KeepsOp fallback) fun r =>
      ∀ awaited, r = .ok awaited → R.Answers s awaited := by
  refine (prepareAndEnqueue_onRecord hown).bind ?_
  rintro (e | task | ⟨code, httpStatus, message⟩ | stored) h
  · exact fun _ h => nomatch h
  · obtain ⟨hc, hknown⟩ := h _ rfl
    exact awaitTask_onRecord P stamp hc hknown
  · intro awaited heq
    cases heq
    exact rfl
  · intro awaited heq
    cases heq
    exact (h _ rfl).1

/-! ### The LLM hooks -/

/-- `pre_llm_call` passes on the context of the task that it has drained. -/
theorem preLlmCall_onRecord :
    preLlmCall.Relies R.GoodOp (R.KeepsOp fallback) fun _ => True := by
  refine ⟨trivial, ?_⟩
  rintro (_ | ⟨task, rest⟩) hknown
  · exact trivial
  obtain ⟨htask, hrest⟩ := List.forall_mem_cons.mp hknown
  dsimp only [Prog.bind]
  cases task.metadata.get "sender_name" (.str "unknown") with
  | error e => exact trivial
  | ok sender =>
      refine ⟨trivial, fun _ _ => ⟨trivial, fun _ _ => ⟨May.known htask, fun _ _ => ?_⟩⟩⟩
      cases rest with
      | nil => exact trivial
      | cons next rest => exact ⟨hrest, fun _ _ => trivial⟩

/-- `post_llm_call` passes on the id of the task. -/
theorem postLlmCall_onRecord (hself : ∀ t, fallback t (some t)) (taskId : Json)
    (response : String) (turn turn' : ℕ) :
    (postLlmCall taskId response turn turn').Relies R.GoodOp (R.KeepsOp fallback)
      fun _ => True := by
  have hhook : ∀ t, R.May fallback t (some (t.orElse t)) := by
    intro t
    rw [Json.orElse_self]
    exact Or.inr (hself t)
  have hcomplete : ∀ t, (completeTask t response).Relies R.GoodOp (R.KeepsOp fallback)
      fun _ => True := by
    refine fun t => ⟨trivial, ?_⟩
    rintro (e | status) -
    · exact trivial
    · exact ⟨trivial, fun _ _ => ⟨hhook t, fun _ _ => trivial⟩⟩
  have hafter : (postLlmCall.afterwards response turn').Relies R.GoodOp (R.KeepsOp fallback)
      fun _ => True := by
    refine ⟨trivial, ?_⟩
    rintro (_ | ⟨t, ts⟩) -
    · exact trivial
    · exact hcomplete t
  unfold postLlmCall
  split_ifs
  · exact trivial
  · exact hcomplete taskId
  · refine ⟨trivial, ?_⟩
    rintro (_ | ⟨t, ts⟩) -
    · exact hafter
    · change (if t.truthy = true then _ else _ : Proc _).Relies _ _ _
      split_ifs
      · exact hcomplete t
      · exact hafter

/-- The callbacks and the background passes name no task. -/
theorem background_onRecord (P : Platform) {x : Call}
    (hsend : ∀ transport req, x ≠ .sendMessage transport req) (hpre : x ≠ .preLlmCall)
    (hpost : ∀ taskId response turn turn', x ≠ .postLlmCall taskId response turn turn') :
    (x.prog P).Relies R.GoodOp (R.KeepsOp fallback) fun _ => True := by
  refine (Call.meets P x).relies (fun h o hmeets => ?_) fun _ _ _ => trivial
  cases o with
  | enqueue =>
      obtain ⟨transport, req, s, hsubmits, -⟩ := hmeets
      exact absurd hsubmits.1 (hsend transport req)
  | idemSet =>
      obtain ⟨transport, req, s, -, -, -, -, -, hsubmits, -⟩ := hmeets
      exact absurd hsubmits.1 (hsend transport req)
  | requeueTasks =>
      obtain ⟨task, hx, -⟩ := hmeets
      exact absurd hx hpre
  | stateHook =>
      rcases hmeets with hx | ⟨taskId, response, turn, turn', hx⟩
      · exact absurd hx hpre
      · exact absurd hx (hpost taskId response turn turn')
  | _ => exact trivial

end Inbound

/-! ### Events -/

section Events

theorem broadcast_onRecord {event : SseEvent}
    (h : R.May fallback event.taskId (some (event.contextId.orElse event.taskId)))
    (ids : List StreamId) :
    (broadcast ids event).Relies R.Good (R.Keeps fallback) fun _ => True := by
  have hnames : ∀ {e : SseEvent}, namedByEvent (e.payload "") = namedByEvent (event.payload "") →
      ∀ p ∈ namedByEvent (e.payload ""), R.May fallback p.1 p.2 := by
    intro e heq
    rw [heq, namedByEvent_payload]
    exact List.forall_mem_singleton.mpr h
  have hall : ∀ e : SseEvent, namedByEvent (e.payload "") = namedByEvent (event.payload "") →
      (broadcast ids e).Relies R.Good (R.Keeps fallback) fun _ => True := by
    induction ids with
    | nil => exact fun _ _ => trivial
    | cons id ids ih =>
        intro e heq
        exact ⟨⟨trivial, hnames heq⟩, fun pushed hpushed => ih pushed.event (hpushed.trans heq)⟩
  exact hall event rfl

theorem pushSse_onRecord {event : SseEvent}
    (h : R.May fallback event.taskId (some (event.contextId.orElse event.taskId))) (t : TaskId) :
    (pushSse t event).Relies R.Good (R.Keeps fallback) fun _ => True := by
  refine ⟨.silent rfl trivial, ?_⟩
  rintro (e | ids) -
  · exact trivial
  · exact broadcast_onRecord h ids

theorem deliverAll_onRecord {payload : Json}
    (h : ∀ p ∈ namedByEvent ((payload.field? "artifact_update").getD payload),
      R.May fallback p.1 p.2) (subs : List Subscription) :
    (deliverAll payload subs).Relies R.Good (R.Keeps fallback) fun _ => True := by
  induction subs with
  | nil => exact trivial
  | cons sub subs ih => exact ⟨⟨trivial, h⟩, fun _ _ => ih⟩

theorem pushNotifications_onRecord {t : TaskId} {contextId : Json} (newState : TaskState)
    (h : R.May fallback t (some (contextId.orElse t))) :
    (pushNotifications t newState contextId).Relies R.Good (R.Keeps fallback) fun _ => True := by
  refine ⟨.silent rfl trivial, ?_⟩
  rintro (e | _ | ⟨sub, subs⟩) -
  · exact trivial
  · exact trivial
  · refine ⟨.silent rfl trivial, fun timestamp _ => deliverAll_onRecord ?_ _⟩
    exact List.forall_mem_singleton.mpr h

/-- **A change of state is told with the context that the hook was given.** -/
theorem onStateChange_onRecord {t : TaskId} {contextId : Json} (oldState : String)
    (newState : TaskState) (h : R.May fallback t (some (contextId.orElse t))) :
    (onStateChange t oldState newState contextId).Relies R.Good (R.Keeps fallback)
      fun _ => True := by
  have h' : R.May fallback t (some ((contextId.orElse t).orElse t)) := by
    rwa [Json.orElse_orElse_self]
  have hhook : (server (.base (.stateHook t oldState newState contextId))).Relies R.Good
      (R.Keeps fallback) fun _ => True := ⟨.silent rfl h, fun _ _ => trivial⟩
  refine hhook.bind fun _ _ => (pushSse_onRecord h' t).bind fun _ _ => ?_
  exact pushNotifications_onRecord newState h'

/-- **What the inbound path keeps on record, it keeps on the server.** -/
theorem lift_onRecord {α : Type} {p : Proc α} {ends : α → Prop}
    (h : p.Relies R.GoodOp (R.KeepsOp fallback) ends) :
    (lift p).Relies R.Good (R.Keeps fallback) ends := by
  refine Prog.Relies.expand (fun o ho => ?_) h
  cases o with
  | stateHook t oldState newState contextId => exact onStateChange_onRecord oldState newState ho
  | _ => exact ⟨.silent rfl ho, fun _ hanswer => hanswer⟩

/-- A thread that is no request. -/
theorem serveInternal_onRecord {p : Proc Outcome}
    (h : p.Relies R.GoodOp (R.KeepsOp fallback) fun _ => True) :
    (serveInternal p).Relies R.Good (R.Keeps fallback) fun _ => True :=
  (lift_onRecord h).bind fun _ _ => trivial

end Events

/-! ### Responses -/

section Responses

/-- As long as answers are on record, the handler tells what it may. -/
abbrev Speaks (R : ContextRecord) (fallback : TaskId → Option Json → Prop) {α : Type}
    (p : Handler α) (ends : α → Prop) : Prop :=
  Owes R.Good (R.Keeps fallback) p ends

/-- A Task that may be shown. -/
structure Shows (R : ContextRecord) (fallback : TaskId → Option Json → Prop) (task : Json) :
    Prop where
  names : ∀ p ∈ namedByTask task, R.May fallback p.1 p.2
  ne_arr : ∀ tasks, task ≠ .arr tasks

/-- A response that may be sent. -/
def Says (R : ContextRecord) (fallback : TaskId → Option Json → Prop) (response : HttpResponse) :
    Prop :=
  ∀ task ∈ tasksSent response.body, ∀ p ∈ namedByTask task, R.May fallback p.1 p.2

theorem says_of_eq_nil {response : HttpResponse} (h : tasksSent response.body = []) :
    R.Says fallback response := by
  unfold Says
  rw [h]
  exact List.forall_mem_nil _

/-- A response with one Task. -/
theorem Shows.response {task : Json} (h : R.Shows fallback task) {response : HttpResponse}
    (hbody : ((response.body.field? "result").getD response.body).field? "task" = some task) :
    R.Says fallback response := by
  unfold Says
  rw [tasksSent_task hbody h.ne_arr]
  exact List.forall_mem_singleton.mpr h.names

/-- A Task put together by hand, with no context. -/
theorem says_plainTask {status : ℕ} {t : Json} {state : String} {text : Json}
    (h : fallback t none) : R.Says fallback ⟨status, plainTask [("id", t)] state text⟩ := by
  have hbody : tasksSent (plainTask [("id", t)] state text) = [plainTask [("id", t)] state text] :=
    rfl
  unfold Says
  rw [hbody]
  refine List.forall_mem_singleton.mpr ?_
  rw [namedByTask_plainTask]
  exact List.forall_mem_singleton.mpr (Or.inr h)

/-- A Task that was built. -/
theorem shows_buildTaskObject {t c : Json} (h : R.May fallback t (some (c.orElse t)))
    (state : String) (response : Option String) (createdAt : Option Time) (stamp : Stamp) :
    R.Shows fallback (buildTaskObject t state c response createdAt stamp) where
  names := List.forall_mem_singleton.mpr h
  ne_arr _ := nofun

/-- A Task that was stored. -/
theorem Filed.shows {task : Json} (h : R.Filed task) : R.Shows fallback task := by
  obtain ⟨t, c, hknown, ht, hc⟩ := h
  constructor
  · have hnamed : namedByTask task = [(t, some c)] := by
      unfold namedByTask named
      rw [ht, hc]
      rfl
    rw [hnamed]
    exact List.forall_mem_singleton.mpr (Or.inl ⟨c, hknown, rfl⟩)
  · rintro tasks rfl
    cases ht

theorem speaks_send {response : HttpResponse} (h : R.Says fallback response) :
    R.Speaks fallback (call (.send response)) fun _ => True := by
  refine (owes_call (o := .send response) ⟨trivial, fun p hp => ?_⟩).mono fun _ _ => trivial
  obtain ⟨task, htask, hp⟩ := List.mem_flatMap.mp hp
  exact h task htask p hp

/-- A part of the inbound path, in a handler. -/
theorem speaks_attempt {α : Type} {p : Proc (Except PyError α)} {ends : α → Prop}
    (h : p.Relies R.GoodOp (R.KeepsOp fallback) fun r => ∀ a, r = .ok a → ends a) :
    R.Speaks fallback (attempt (lift p)) ends :=
  lift_onRecord h

/-- A response that names no task. -/
theorem speaks_silent {response : HttpResponse} (h : tasksSent response.body = []) :
    R.Speaks fallback (call (.send response)) fun _ => True :=
  speaks_send (says_of_eq_nil h)

end Responses

/-! ### Tasks -/

section Tasks

theorem getStatus_onRecord (t : TaskId) : R.Speaks fallback (getStatus t) fun _ => True :=
  ⟨.silent rfl trivial, fun _ _ _ _ => trivial⟩

theorem loadTaskOr404_onRecord (t : TaskId) (rpcId : Json) :
    R.Speaks fallback (loadTaskOr404 t rpcId) fun _ => True := by
  refine (getStatus_onRecord t).bind fun status _ => ?_
  split_ifs
  · exact (speaks_silent rfl).bind fun _ _ => owes_pure trivial
  · exact owes_pure trivial

variable {t : TaskId} (hself : fallback t (some t))

include hself

/-- `_get_task_core` names a task with itself. -/
theorem getTaskCore_onRecord (rpcId : Json) (stamp : Stamp) :
    R.Speaks fallback (getTaskCore t rpcId stamp) fun found =>
      ∀ task, found = some task → R.Shows fallback task := by
  refine (loadTaskOr404_onRecord t rpcId).bind ?_
  rintro (_ | status) -
  · exact owes_pure fun _ h => nomatch h
  · refine owes_pure fun task h => ?_
    obtain rfl := Option.some.inj h
    exact shows_buildTaskObject (Or.inr hself) ..

/-- So does `_cancel_task_core`. -/
theorem cancelTaskCore_onRecord (rpcId : Json) (stamp : Stamp) :
    R.Speaks fallback (cancelTaskCore t rpcId stamp) fun found =>
      ∀ task, found = some task → R.Shows fallback task := by
  refine (loadTaskOr404_onRecord t rpcId).bind ?_
  rintro (_ | status) -
  · exact owes_pure fun _ h => nomatch h
  · dsimp only
    split_ifs
    · exact (speaks_silent rfl).bind fun _ _ => owes_pure fun _ h => nomatch h
    · refine owes_call_bind (.silent rfl trivial) fun _ => owes_pure fun task h => ?_
      obtain rfl := Option.some.inj h
      exact shows_buildTaskObject (Or.inr hself) ..

end Tasks

/-! ### Artifacts -/

section Artifacts

variable {t : TaskId} {contextId : Json} (hmay : R.May fallback t (some contextId))

section Emit

variable (hown : contextId.orElse t = contextId)

include hmay hown

theorem emitArtifacts_onRecord (ids : List StreamId) (artifacts : List Json) :
    (emitArtifacts t contextId ids artifacts).Relies R.Good (R.Keeps fallback) fun _ => True := by
  induction artifacts with
  | nil => exact trivial
  | cons artifact artifacts ih =>
      refine Prog.Relies.bind (broadcast_onRecord ?_ ids) fun _ _ => ih
      change R.May fallback t (some (contextId.orElse t))
      rwa [hown]

theorem streamArtifacts_onRecord (task : Json) :
    (streamArtifacts t contextId task).Relies R.Good (R.Keeps fallback) fun _ => True := by
  refine ⟨.silent rfl trivial, ?_⟩
  rintro (e | ids) -
  · exact trivial
  · change Prog.Relies _ _ _ (if ids.isEmpty = true then _ else _)
    split_ifs
    · exact trivial
    · exact emitArtifacts_onRecord hmay hown ..

end Emit

section Push

include hmay

theorem deliverArtifacts_onRecord (sub : Subscription) (artifacts : List Json) :
    (deliverArtifacts t contextId sub artifacts).Relies R.Good (R.Keeps fallback)
      fun _ => True := by
  induction artifacts with
  | nil => exact trivial
  | cons artifact artifacts ih =>
      exact ⟨⟨trivial, List.forall_mem_singleton.mpr hmay⟩, fun _ _ => ih⟩

theorem deliverArtifactsAll_onRecord (artifacts : List Json) (subs : List Subscription) :
    (deliverArtifactsAll t contextId artifacts subs).Relies R.Good (R.Keeps fallback)
      fun _ => True := by
  induction subs with
  | nil => exact trivial
  | cons sub subs ih =>
      exact Prog.Relies.bind (deliverArtifacts_onRecord hmay sub artifacts) fun _ _ => ih

theorem pushArtifacts_onRecord (task : Json) :
    (pushArtifacts t contextId task).Relies R.Good (R.Keeps fallback) fun _ => True := by
  refine ⟨.silent rfl trivial, ?_⟩
  rintro (e | subs) -
  · exact trivial
  · exact deliverArtifactsAll_onRecord hmay ..

end Push

/-- `_emit_get_task_artifacts` asks the queue, and falls back to the task id. -/
theorem emitGetTaskArtifacts_onRecord (hself : fallback t (some t)) (task : Json) :
    (emitGetTaskArtifacts t task).Relies R.Good (R.Keeps fallback) fun _ => True := by
  refine ⟨.silent rfl trivial, ?_⟩
  rintro (e | _ | ⟨id, ids⟩) -
  · exact trivial
  · exact trivial
  · refine ⟨.silent rfl trivial, ?_⟩
    rintro (e | _ | pending) hknown
    · exact trivial
    · exact emitArtifacts_onRecord (Or.inr hself) (Json.orElse_self _) ..
    · have h := hknown pending rfl
      exact emitArtifacts_onRecord (Or.inl ⟨_, h, rfl⟩) (R.own _ _ h) ..

end Artifacts

/-! ### Pages -/

section Pages

/-- The items of a page are those of the tasks on it. -/
theorem listItems_onRecord {page : List (Time × PendingTask × Option TaskState)}
    (hpage : ∀ e ∈ page, R.Knows e.2.1) (stamps : ℕ → Stamp) :
    R.Speaks fallback (listItems page stamps) fun items =>
      ∀ item ∈ items, ∀ p ∈ namedByTask item, R.May fallback p.1 p.2 := by
  induction page generalizing stamps with
  | nil => exact owes_pure fun _ hmem => nomatch hmem
  | cons entry page ih =>
      obtain ⟨createdAt, task, state⟩ := entry
      obtain ⟨hhead, htail⟩ := List.forall_mem_cons.mp hpage
      have hrest : ∀ filtered : Option String, R.Speaks fallback
          (do
            let items ← listItems page fun n => stamps (n + 1)
            pure (buildTaskObject task.taskId ((state.map TaskState.name).getD "unknown")
              task.contextId filtered (some task.createdAt) (stamps 0) :: items))
          fun items => ∀ item ∈ items, ∀ p ∈ namedByTask item, R.May fallback p.1 p.2 := by
        intro filtered
        refine (ih htail _).bind fun items hitems => owes_pure ?_
        exact List.forall_mem_cons.mpr ⟨(shows_buildTaskObject (May.known hhead) ..).names, hitems⟩
      refine owes_call_bind (.silent rfl trivial) fun first => ?_
      cases nonEmpty? first with
      | none => exact hrest none
      | some _ =>
          refine owes_call_bind (.silent rfl trivial) fun response => ?_
          cases response with
          | none => exact fun _ h => nomatch h
          | some response => exact hrest _

/-- **A page names each task with its own context.** -/
theorem buildPaginatedTaskList_onRecord (site : Site) (pageSize : ℤ) (token : Json)
    (stamps : ℕ → Stamp) :
    R.Speaks fallback (buildPaginatedTaskList site pageSize token stamps) fun page =>
      R.Says fallback ⟨200, page⟩ ∧ ∀ rpcId, R.Says fallback (rpcResult page rpcId) := by
  refine Owes.bind (owes_call (o := .snapshot) (.silent rfl trivial)) fun snapshot hknown => ?_
  refine Owes.bind (listItems_onRecord (fun e he => hknown e ?_) stamps) fun items hitems => ?_
  · have hdrop := List.mem_of_mem_drop (List.mem_of_mem_take he)
    exact (List.mergeSort_perm snapshot _).mem_iff.mp hdrop
  · exact owes_pure ⟨hitems, fun _ => hitems⟩

end Pages

/-! ### Streams -/

section Streams

theorem openSseStream_onRecord (t : TaskId) :
    R.Speaks fallback (openSseStream t) fun _ => True := by
  have hopen : R.Speaks fallback (attempt (server (.openStream t))) fun _ => True :=
    ⟨.silent rfl trivial, fun _ _ _ _ => trivial⟩
  refine hopen.bind fun id _ => ?_
  exact owes_call_bind (.silent rfl trivial) fun _ => owes_pure trivial

theorem closeStream_onRecord (id : StreamId) :
    R.Speaks fallback (call (.closeStream id)) fun _ => True :=
  (owes_call (o := .closeStream id) (.silent rfl trivial)).mono fun _ _ => trivial

/-- Messages that were taken out of a buffer are sent as they are. -/
theorem sendLines_onRecord (id : StreamId) {lines : List SseLine}
    (h : ∀ line ∈ lines, R.buffered id line) :
    R.Speaks fallback (sendLines id lines) fun _ => True := by
  induction lines with
  | nil => exact owes_pure trivial
  | cons line lines ih =>
      obtain ⟨hhead, htail⟩ := List.forall_mem_cons.mp h
      have htells : (ServerOp.sendLine id line).tells = [] := by
        cases line with
        | status => cases R.pushed id _ hhead
        | _ => rfl
      refine owes_call_bind (.silent htells fun _ => hhead) fun written => ?_
      cases written with
      | true => exact ih htail
      | false => exact owes_pure trivial

variable {t : TaskId} {contextId : Json} (hmay : R.May fallback t (some (contextId.orElse t)))

include hmay

theorem sseEmit_onRecord (id : StreamId) (eventId : Option String) (state : String) :
    R.Speaks fallback (sseEmit id eventId t state contextId) fun _ => True := by
  refine owes_call_bind (.silent rfl trivial) fun timestamp => Owes.mono (owes_call ?_) ?_
  · exact ⟨nofun, List.forall_mem_singleton.mpr hmay⟩
  · exact fun _ _ => trivial

theorem ssePollUntilTerminal_onRecord (site : Site) (id : StreamId) (deadline : Time)
    (polls : ℕ) :
    R.Speaks fallback (ssePollUntilTerminal site id t contextId deadline polls)
      fun _ => True := by
  induction polls with
  | zero => exact (owes_call (o := .halt) (.silent rfl trivial)).mono fun _ _ => trivial
  | succ polls ih =>
      refine owes_call_bind (.silent rfl trivial) fun now => ?_
      split_ifs
      · refine Owes.bind (owes_call (.silent rfl trivial)) fun lines hlines => ?_
        refine (sendLines_onRecord id hlines).bind fun written _ => ?_
        cases written with
        | false => exact closeStream_onRecord id
        | true =>
            refine owes_call_bind (.silent rfl trivial) fun closed => ?_
            cases closed with
            | true => exact owes_pure trivial
            | false =>
                refine (getStatus_onRecord t).bind fun status _ => ?_
                split_ifs
                · exact (sseEmit_onRecord hmay ..).bind fun _ _ => closeStream_onRecord id
                · refine owes_call_bind (.silent rfl trivial) fun now => ?_
                  exact owes_call_bind (.silent rfl trivial) fun _ => ih
      · exact owes_call_bind (.silent rfl nofun) fun _ => closeStream_onRecord id

theorem pollStream_onRecord (site : Site) (req : HttpRequest) (id : StreamId) :
    R.Speaks fallback (pollStream site req id t contextId) fun _ => True :=
  owes_call_bind (.silent rfl trivial) fun _ => ssePollUntilTerminal_onRecord hmay ..

end Streams

end ContextRecord

end HermesA2A
