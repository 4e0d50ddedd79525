import HermesA2A.Conduct
import HermesA2A.Speech

/-!
# What the programs tell of whom

The programs of the server, in the order of the source, and for each whose texts it tells: what
is on record for the task it names, and a few words of its own (`OWN_WORDS`).
-/

namespace HermesA2A

/-- What the server says by itself. -/
def OWN_WORDS : List String := ["", pollText, "Empty message"]

namespace SpeechRecord

variable {R : SpeechRecord} {words : Option Json → Json → Prop}

/-! ### The inbound path -/

section Inbound

/-- What `_prepare_and_enqueue` may return. -/
def Prepares (R : SpeechRecord) (s : Submission) : Prepared → Prop
  | .accepted task => task.taskId = s.taskId ∧ R.accepted task
  | .replay result => R.Filed result ∧ R.stored s.idemKey result
  | .refused .. => True

/-- What `_enqueue_and_await_task` may return: a Task of this submission, or one that was stored
under its key. -/
def Answers (R : SpeechRecord) (s : Submission) : Awaited → Prop
  | .answered result => R.Filed result ∧
      (result.field? "id" = some s.taskId ∨ R.stored s.idemKey result)
  | .refused error => bodyTexts error.body = []
  | .timedOut => True

theorem checkIdempotency_onRecord (s : Submission) :
    (checkIdempotency s).Relies R.GoodOp R.KeepsOp fun r =>
      ∀ prepared, r = .ok (some prepared) → R.Prepares s prepared := by
  unfold checkIdempotency
  split_ifs
  · refine ⟨trivial, ?_⟩
    rintro (e | _ | _) -
    · exact fun _ h => nomatch h
    · refine ⟨trivial, ?_⟩
      rintro (e | _ | ⟨t, stored⟩) hfiled
      · exact fun _ h => nomatch h
      · exact fun _ h => nomatch h
      · intro prepared h
        cases h
        exact hfiled t _ rfl
    · intro prepared h
      cases h
      exact trivial
  · exact fun _ h => nomatch h

theorem enqueueChecked_onRecord (s : Submission) (userText : String) :
    (enqueueChecked s userText).Relies R.GoodOp R.KeepsOp fun r =>
      ∀ prepared, r = .ok prepared → R.Prepares s prepared := by
  refine ⟨trivial, ?_⟩
  rintro (e | _ | task) -
  · exact fun _ h => nomatch h
  · refine ⟨trivial, fun _ _ => ⟨trivial, ?_⟩⟩
    rintro (_ | task) haccepted prepared h
    · cases h
      exact trivial
    · cases h
      exact haccepted task rfl
  · intro prepared h
    cases h
    exact trivial

theorem prepareAndEnqueue_onRecord (s : Submission) :
    (prepareAndEnqueue s).Relies R.GoodOp R.KeepsOp fun r =>
      ∀ prepared, r = .ok prepared → R.Prepares s prepared := by
  refine (checkIdempotency_onRecord s).bind ?_
  rintro (e | _ | prepared) h
  · exact fun _ h => nomatch h
  · exact enqueueChecked_onRecord s _
  · intro prepared' heq
    obtain rfl := Except.ok.inj heq
    exact h _ rfl

/-- **A Task with a response that was said for the task is on record.** -/
theorem filed_buildTaskObject {t : TaskId} {response : String} (h : R.said t response)
    (state : String) (c : Json) (createdAt : Option Time) (stamp : Stamp) :
    R.Filed (buildTaskObject t state c (some (filterOutbound response)) createdAt stamp) where
  tells p hp := by
    obtain ⟨ht, r, hr, htext⟩ := told_buildTaskObject hp
    obtain rfl := Option.some.inj hr
    rw [filterOutbound_filterOutbound] at htext
    exact ⟨t, response, ht, h, htext⟩
  get_response := get_response_buildTaskObject ..

theorem awaitTask_onRecord (P : Platform) {s : Submission} (stamp : Stamp) {task : PendingTask}
    (ht : task.taskId = s.taskId) (haccepted : R.accepted task) :
    (awaitTask P s stamp task).Relies R.GoodOp R.KeepsOp fun r =>
      ∀ awaited, r = .ok awaited → R.Answers s awaited := by
  refine ⟨trivial, fun start _ => ⟨trivial, fun _ _ => ⟨trivial, ?_⟩⟩⟩
  rintro (_ | first) -
  · refine ⟨trivial, fun _ _ awaited h => ?_⟩
    cases h
    exact trivial
  refine ⟨trivial, ?_⟩
  rintro (_ | response) hsaid
  · exact fun _ h => nomatch h
  have hfiled : R.Filed (buildTaskObject s.taskId "completed" task.contextId
      (some (filterOutbound response)) none stamp) :=
    filed_buildTaskObject (ht ▸ hsaid haccepted response rfl) ..
  change (if s.idemKey.truthy = true then _ else _ : Proc _).Relies _ _ _
  split_ifs
  · refine ⟨hfiled, fun _ _ awaited h => ?_⟩
    cases h
    exact ⟨hfiled, Or.inl rfl⟩
  · intro awaited h
    cases h
    exact ⟨hfiled, Or.inl rfl⟩

/-- **An answer has the response of its own task**, or it is a repetition. -/
theorem enqueueAndAwaitTask_onRecord (P : Platform) (s : Submission) (stamp : Stamp) :
    (enqueueAndAwaitTask P s stamp).Relies R.GoodOp R.KeepsOp fun r =>
      ∀ awaited, r = .ok awaited → R.Answers s awaited := by
  refine (prepareAndEnqueue_onRecord s).bind ?_
  rintro (e | task | ⟨code, httpStatus, message⟩ | stored) h
  · exact fun _ h => nomatch h
  · obtain ⟨ht, haccepted⟩ := h _ rfl
    exact awaitTask_onRecord P stamp ht haccepted
  · intro awaited heq
    cases heq
    exact rfl
  · intro awaited heq
    cases heq
    exact ⟨(h _ rfl).1, Or.inr (h _ rfl).2⟩

/-! ### The LLM hooks -/

/-- `pre_llm_call` puts back what it has drained. -/
theorem preLlmCall_onRecord : preLlmCall.Relies R.GoodOp R.KeepsOp fun _ => True := by
  refine ⟨trivial, ?_⟩
  rintro (_ | ⟨task, rest⟩) hknown
  · exact trivial
  obtain ⟨-, hrest⟩ := List.forall_mem_cons.mp hknown
  dsimp only [Prog.bind]
  cases task.metadata.get "sender_name" (.str "unknown") with
  | error e => exact trivial
  | ok sender =>
      refine ⟨trivial, fun _ _ => ⟨trivial, fun _ _ => ⟨trivial, fun _ _ => ?_⟩⟩⟩
      cases rest with
      | nil => exact trivial
      | cons next rest => exact ⟨hrest, fun _ _ => trivial⟩

theorem postLlmCall_onRecord (taskId : Json) (response : String) (turn turn' : ℕ) :
    (postLlmCall taskId response turn turn').Relies R.GoodOp R.KeepsOp fun _ => True := by
  have hcomplete : ∀ t, (completeTask t response).Relies R.GoodOp R.KeepsOp fun _ => True := by
    refine fun t => ⟨trivial, ?_⟩
    rintro (e | status) -
    · exact trivial
    · exact ⟨trivial, fun _ _ => ⟨trivial, fun _ _ => trivial⟩⟩
  have hafter : (postLlmCall.afterwards response turn').Relies R.GoodOp R.KeepsOp
      fun _ => True := by
    refine ⟨trivial, ?_⟩
    rintro (_ | ⟨t, ts⟩) -
    · exact trivial
    · exact hcomplete t
  unfold postLlmCall
  split_ifs
  · exact trivial
  · exact hcomplete taskId
  · refine ⟨trivial, ?_⟩
    rintro (_ | ⟨t, ts⟩) -
    · exact hafter
    · change (if t.truthy = true then _ else _ : Proc _).Relies _ _ _
      split_ifs
      · exact hcomplete t
      · exact hafter

/-! ### Those who give up -/

theorem answerUnanswered_onRecord {task : PendingTask} (h : R.accepted task) (text : String) :
    (answerUnanswered task text).Relies R.GoodOp R.KeepsOp fun _ => True := by
  refine ⟨trivial, ?_⟩
  rintro (_ | response) -
  · exact ⟨h, fun _ _ => ⟨trivial, fun _ _ => trivial⟩⟩
  · exact trivial

theorem webhookFailure_onRecord (t : TaskId) :
    (webhookFailure t).Relies R.GoodOp R.KeepsOp fun _ => True := by
  refine ⟨trivial, ?_⟩
  rintro (e | _ | task) haccepted
  · exact trivial
  · exact trivial
  · exact (answerUnanswered_onRecord (haccepted task rfl) _).bind fun _ _ => trivial

theorem markOrphans_onRecord (cutoff : Time) {tasks : List PendingTask}
    (h : ∀ task ∈ tasks, R.accepted task) :
    (markOrphans cutoff tasks).Relies R.GoodOp R.KeepsOp fun _ => True := by
  induction tasks with
  | nil => exact trivial
  | cons task tasks ih =>
      obtain ⟨htask, htasks⟩ := List.forall_mem_cons.mp h
      unfold markOrphans
      split_ifs
      · exact (answerUnanswered_onRecord htask _).bind fun _ _ => ih htasks
      · exact ih htasks

theorem watchdogPass_onRecord (P : Platform) :
    (watchdogPass P).Relies R.GoodOp R.KeepsOp fun _ => True := by
  have hscan : ∀ cutoff, (watchdogPass.scan cutoff).Relies R.GoodOp R.KeepsOp fun _ => True :=
    fun cutoff => ⟨trivial, fun tasks h => markOrphans_onRecord cutoff h⟩
  refine ⟨trivial, fun now _ => ⟨trivial, ?_⟩⟩
  rintro (_ | _) -
  · exact hscan _
  · refine ⟨trivial, ?_⟩
    rintro (_ | oldest) -
    · exact trivial
    · change (if _ then _ else _ : Proc _).Relies _ _ _
      split_ifs
      · exact trivial
      · exact hscan _

end Inbound

/-! ### Events -/

section Events

theorem broadcast_onRecord {event : SseEvent}
    (h : ∀ p ∈ toldByEvent (event.payload ""), R.May words p) (ids : List StreamId) :
    (broadcast ids event).Relies R.Good (R.Keeps words) fun _ => True := by
  have hall : ∀ e : SseEvent, toldByEvent (e.payload "") = toldByEvent (event.payload "") →
      (broadcast ids e).Relies R.Good (R.Keeps words) fun _ => True := by
    induction ids with
    | nil => exact fun _ _ => trivial
    | cons id ids ih =>
        intro e heq
        refine ⟨⟨trivial, ?_⟩, fun pushed hpushed => ih pushed.event (hpushed.trans heq)⟩
        change ∀ p ∈ toldByEvent (e.payload ""), R.May words p
        rw [heq]
        exact h
  exact hall event rfl

theorem pushSse_onRecord {event : SseEvent}
    (h : ∀ p ∈ toldByEvent (event.payload ""), R.May words p) (t : TaskId) :
    (pushSse t event).Relies R.Good (R.Keeps words) fun _ => True := by
  refine ⟨.silent rfl trivial, ?_⟩
  rintro (e | ids) -
  · exact trivial
  · exact broadcast_onRecord h ids

theorem deliverAll_onRecord {payload : Json}
    (h : ∀ p ∈ toldByEvent ((payload.field? "artifact_update").getD payload), R.May words p)
    (subs : List Subscription) :
    (deliverAll payload subs).Relies R.Good (R.Keeps words) fun _ => True := by
  induction subs with
  | nil => exact trivial
  | cons sub subs ih => exact ⟨⟨trivial, h⟩, fun _ _ => ih⟩

/-- **A change of state has no text.** -/
theorem onStateChange_onRecord (t : TaskId) (oldState : String) (newState : TaskState)
    (contextId : Json) :
    (onStateChange t oldState newState contextId).Relies R.Good (R.Keeps words)
      fun _ => True := by
  have hhook : (server (.base (.stateHook t oldState newState contextId))).Relies R.Good
      (R.Keeps words) fun _ => True := ⟨.silent rfl trivial, fun _ _ => trivial⟩
  have hnotify : (pushNotifications t newState (contextId.orElse t)).Relies R.Good (R.Keeps words)
      fun _ => True := by
    refine ⟨.silent rfl trivial, ?_⟩
    rintro (e | _ | ⟨sub, subs⟩) -
    · exact trivial
    · exact trivial
    · exact ⟨.silent rfl trivial, fun timestamp _ =>
        deliverAll_onRecord (List.forall_mem_nil _) _⟩
  refine hhook.bind fun _ _ => (pushSse_onRecord ?_ t).bind fun _ _ => hnotify
  rw [toldByEvent_payload]
  exact List.forall_mem_nil _

/-- **What the inbound path keeps on record, it keeps on the server.** -/
theorem lift_onRecord {α : Type} {p : Proc α} {ends : α → Prop}
    (h : p.Relies R.GoodOp R.KeepsOp ends) :
    (lift p).Relies R.Good (R.Keeps words) ends := by
  refine Prog.Relies.expand (fun o ho => ?_) h
  cases o with
  | stateHook t oldState newState contextId => exact onStateChange_onRecord ..
  | _ => exact ⟨.silent rfl ho, fun _ hanswer => hanswer⟩

/-- A thread that is no request. -/
theorem serveInternal_onRecord {p : Proc Outcome}
    (h : p.Relies R.GoodOp R.KeepsOp fun _ => True) :
    (serveInternal p).Relies R.Good (R.Keeps words) fun _ => True :=
  (lift_onRecord h).bind fun _ _ => trivial

end Events

/-! ### Responses -/

section Responses

/-- As long as answers are on record, the handler tells what it may. -/
abbrev Speaks (R : SpeechRecord) (words : Option Json → Json → Prop) {α : Type} (p : Handler α)
    (ends : α → Prop) : Prop :=
  Owes R.Good (R.Keeps words) p ends

/-- A response that may be sent. -/
def Says (R : SpeechRecord) (words : Option Json → Json → Prop) (response : HttpResponse) : Prop :=
  ∀ p ∈ toldByBody response.body, R.May words p

/-- A Task that may be shown. -/
structure Shows (R : SpeechRecord) (words : Option Json → Json → Prop) (task : Json) : Prop where
  tells : ∀ p ∈ toldByTask task, R.May words p
  ne_arr : ∀ tasks, task ≠ .arr tasks

theorem says_of_eq_nil {response : HttpResponse} (h : bodyTexts response.body = []) :
    R.Says words response := by
  unfold Says
  rw [toldByBody_of_eq_nil h]
  exact List.forall_mem_nil _

/-- A response with one Task. -/
theorem Shows.response {task : Json} (h : R.Shows words task) {response : HttpResponse}
    (hbody : ((response.body.field? "result").getD response.body).field? "task" = some task) :
    R.Says words response := by
  unfold Says
  rw [toldByBody_task hbody h.ne_arr]
  exact h.tells

/-- A Task put together by hand, with a word of the server. -/
theorem says_plainTask {status : ℕ} {t : Json} {state : String} {text : Json}
    (h : words (some t) text) : R.Says words ⟨status, plainTask [("id", t)] state text⟩ := by
  have htold : toldByBody (plainTask [("id", t)] state text) = [(some t, text)] := by
    change (toldByTask (plainTask [("id", t)] state text)) ++ [] = _
    rw [List.append_nil, toldByTask, toldOf, taskTexts_plainTask rfl rfl]
    rfl
  unfold Says
  rw [htold]
  exact List.forall_mem_singleton.mpr (Or.inr h)

/-- A Task that was built with a word of the server. -/
theorem shows_ownWord {t c : Json} {state text : String} {createdAt : Option Time} {stamp : Stamp}
    (hfiltered : filterOutbound text = text) (h : words (some t) (.str text)) :
    R.Shows words (buildTaskObject t state c (some text) createdAt stamp) where
  tells p hp := by
    obtain ⟨ht, r, hr, htext⟩ := told_buildTaskObject hp
    obtain rfl := Option.some.inj hr
    rw [hfiltered] at htext
    obtain ⟨q, text'⟩ := p
    obtain rfl : q = some t := ht
    obtain rfl : text' = .str text := htext
    exact Or.inr h
  ne_arr _ := nofun

/-- A Task without a text. -/
theorem shows_textless {t c : Json} {state : String} {createdAt : Option Time} {stamp : Stamp} :
    R.Shows words (buildTaskObject t state c none createdAt stamp) where
  tells p hp := by
    obtain ⟨-, r, hr, -⟩ := told_buildTaskObject hp
    cases hr
  ne_arr _ := nofun

/-- A Task that is on record. -/
theorem Filed.shows {task : Json} (h : R.Filed task) : R.Shows words task where
  tells p hp := Or.inl (h.tells p hp)
  ne_arr tasks := by
    rintro rfl
    cases h.get_response

theorem speaks_send {response : HttpResponse} (h : R.Says words response) :
    R.Speaks words (call (.send response)) fun _ => True :=
  (owes_call (o := .send response) ⟨trivial, h⟩).mono fun _ _ => trivial

/-- A part of the inbound path, in a handler. -/
theorem speaks_attempt {α : Type} {p : Proc (Except PyError α)} {ends : α → Prop}
    (h : p.Relies R.GoodOp R.KeepsOp fun r => ∀ a, r = .ok a → ends a) :
    R.Speaks words (attempt (lift p)) ends :=
  lift_onRecord h

/-- A response without texts. -/
theorem speaks_silent {response : HttpResponse} (h : bodyTexts response.body = []) :
    R.Speaks words (call (.send response)) fun _ => True :=
  speaks_send (says_of_eq_nil h)

end Responses

/-! ### Tasks -/

section Tasks

theorem getStatus_onRecord (t : TaskId) :
    R.Speaks words (getStatus t) fun status =>
      ∀ text, status.response = some text → R.Tells (some t, .str text) :=
  ⟨.silent rfl trivial, fun _ hgood status hstatus => hgood status hstatus⟩

theorem loadTaskOr404_onRecord (t : TaskId) (rpcId : Json) :
    R.Speaks words (loadTaskOr404 t rpcId) fun found =>
      ∀ status, found = some status →
        ∀ text, status.response = some text → R.Tells (some t, .str text) := by
  refine (getStatus_onRecord t).bind fun status hstatus => ?_
  split_ifs
  · exact (speaks_silent rfl).bind fun _ _ => owes_pure fun _ h => nomatch h
  · refine owes_pure fun status' h => ?_
    obtain rfl := Option.some.inj h
    exact hstatus

/-- `_get_task_core` shows the response of the task that it was asked for. -/
theorem getTaskCore_onRecord (t : TaskId) (rpcId : Json) (stamp : Stamp) :
    R.Speaks words (getTaskCore t rpcId stamp) fun found =>
      ∀ task, found = some task → R.Shows words task ∧ task.field? "id" = some t := by
  refine (loadTaskOr404_onRecord t rpcId).bind ?_
  rintro (_ | status) hstatus
  · exact owes_pure fun _ h => nomatch h
  · refine owes_pure fun task h => ?_
    obtain rfl := Option.some.inj h
    refine ⟨⟨fun p hp => Or.inl ?_, nofun⟩, rfl⟩
    obtain ⟨ht, r, hr, htext⟩ := told_buildTaskObject hp
    obtain ⟨t', response, ht', hsaid, heq⟩ := hstatus status rfl r hr
    obtain rfl := Json.str.inj heq
    rw [filterOutbound_filterOutbound] at htext
    exact ⟨t', response, ht.trans ht', hsaid, htext⟩

/-- `_cancel_task_core` shows none. -/
theorem cancelTaskCore_onRecord (t : TaskId) (rpcId : Json) (stamp : Stamp) :
    R.Speaks words (cancelTaskCore t rpcId stamp) fun found =>
      ∀ task, found = some task → R.Shows words task := by
  refine (loadTaskOr404_onRecord t rpcId).bind ?_
  rintro (_ | status) -
  · exact owes_pure fun _ h => nomatch h
  · dsimp only
    split_ifs
    · exact (speaks_silent rfl).bind fun _ _ => owes_pure fun _ h => nomatch h
    · refine owes_call_bind (.silent rfl trivial) fun _ => owes_pure fun task h => ?_
      obtain rfl := Option.some.inj h
      exact shows_textless

end Tasks

/-! ### Artifacts -/

section Artifacts

/-- The artifacts may be told for this task. -/
def MayAttach (R : SpeechRecord) (words : Option Json → Json → Prop) (t : TaskId)
    (artifacts : List Json) : Prop :=
  ∀ artifact ∈ artifacts, ∀ text ∈ messageTexts artifact, R.May words (some t, text)

/-- The artifacts of a Task, under its own id. -/
theorem Shows.attach {t : TaskId} {task : Json} (h : R.Shows words task)
    (ht : task.field? "id" = some t) : R.MayAttach words t (artifactsOf task) := by
  intro artifact hartifact text htext
  refine h.tells _ (List.mem_map.mpr ⟨text, ?_, by rw [ht]⟩)
  exact List.mem_append_left _ (List.mem_flatMap.mpr ⟨artifact, hartifact, htext⟩)

section Emit

variable {t : TaskId} (contextId : Json)

theorem emitArtifacts_onRecord (ids : List StreamId) {artifacts : List Json}
    (h : R.MayAttach words t artifacts) :
    (emitArtifacts t contextId ids artifacts).Relies R.Good (R.Keeps words) fun _ => True := by
  induction artifacts with
  | nil => exact trivial
  | cons artifact artifacts ih =>
      obtain ⟨hhead, htail⟩ := List.forall_mem_cons.mp h
      refine Prog.Relies.bind (broadcast_onRecord ?_ ids) fun _ _ => ih htail
      rw [toldByEvent_payload]
      exact List.forall_mem_map.mpr hhead

theorem streamArtifacts_onRecord {task : Json} (h : R.MayAttach words t (artifactsOf task)) :
    (streamArtifacts t contextId task).Relies R.Good (R.Keeps words) fun _ => True := by
  refine ⟨.silent rfl trivial, ?_⟩
  rintro (e | ids) -
  · exact trivial
  · change Prog.Relies _ _ _ (if ids.isEmpty = true then _ else _)
    split_ifs
    · exact trivial
    · exact emitArtifacts_onRecord contextId ids h

theorem deliverArtifacts_onRecord (sub : Subscription) {artifacts : List Json}
    (h : R.MayAttach words t artifacts) :
    (deliverArtifacts t contextId sub artifacts).Relies R.Good (R.Keeps words)
      fun _ => True := by
  induction artifacts with
  | nil => exact trivial
  | cons artifact artifacts ih =>
      obtain ⟨hhead, htail⟩ := List.forall_mem_cons.mp h
      refine ⟨⟨trivial, ?_⟩, fun _ _ => ih htail⟩
      change ∀ p ∈ (messageTexts artifact ++ []).map fun text => (some t, text), R.May words p
      rw [List.append_nil]
      exact List.forall_mem_map.mpr hhead

theorem deliverArtifactsAll_onRecord {artifacts : List Json} (h : R.MayAttach words t artifacts)
    (subs : List Subscription) :
    (deliverArtifactsAll t contextId artifacts subs).Relies R.Good (R.Keeps words)
      fun _ => True := by
  induction subs with
  | nil => exact trivial
  | cons sub subs ih =>
      exact Prog.Relies.bind (deliverArtifacts_onRecord contextId sub h) fun _ _ => ih

theorem pushArtifacts_onRecord {task : Json} (h : R.MayAttach words t (artifactsOf task)) :
    (pushArtifacts t contextId task).Relies R.Good (R.Keeps words) fun _ => True := by
  refine ⟨.silent rfl trivial, ?_⟩
  rintro (e | subs) -
  · exact trivial
  · exact deliverArtifactsAll_onRecord contextId h _

end Emit

theorem emitGetTaskArtifacts_onRecord {t : TaskId} {task : Json}
    (h : R.MayAttach words t (artifactsOf task)) :
    (emitGetTaskArtifacts t task).Relies R.Good (R.Keeps words) fun _ => True := by
  refine ⟨.silent rfl trivial, ?_⟩
  rintro (e | _ | ⟨id, ids⟩) -
  · exact trivial
  · exact trivial
  · refine ⟨.silent rfl trivial, ?_⟩
    rintro (e | pending) -
    · exact trivial
    · exact emitArtifacts_onRecord _ _ h

end Artifacts

/-! ### Pages -/

section Pages

/-- The items of a page have the responses of the tasks on it. -/
theorem listItems_onRecord {page : List (Time × PendingTask × Option TaskState)}
    (hpage : ∀ e ∈ page, R.accepted e.2.1) (stamps : ℕ → Stamp) :
    R.Speaks words (listItems page stamps) fun items =>
      ∀ item ∈ items, ∀ p ∈ toldByTask item, R.May words p := by
  induction page generalizing stamps with
  | nil => exact owes_pure fun _ hmem => nomatch hmem
  | cons entry page ih =>
      obtain ⟨createdAt, task, state⟩ := entry
      obtain ⟨hhead, htail⟩ := List.forall_mem_cons.mp hpage
      have hrest : ∀ filtered : Option String,
          (∀ text, filtered = some text →
            ∃ response, R.said task.taskId response ∧ text = filterOutbound response) →
          R.Speaks words
            (do
              let items ← listItems page fun n => stamps (n + 1)
              pure (buildTaskObject task.taskId ((state.map TaskState.name).getD "unknown")
                task.contextId filtered (some task.createdAt) (stamps 0) :: items))
            fun items => ∀ item ∈ items, ∀ p ∈ toldByTask item, R.May words p := by
        intro filtered hsaid
        refine (ih htail _).bind fun items hitems => owes_pure ?_
        refine List.forall_mem_cons.mpr ⟨fun p hp => ?_, hitems⟩
        obtain ⟨ht, text, htext, hp⟩ := told_buildTaskObject hp
        obtain ⟨response, hresponse, rfl⟩ := hsaid text htext
        rw [filterOutbound_filterOutbound] at hp
        exact Or.inl ⟨_, response, ht, hresponse, hp⟩
      refine owes_call_bind (.silent rfl trivial) fun first => ?_
      cases nonEmpty? first with
      | none => exact hrest none nofun
      | some _ =>
          refine Owes.bind (owes_call (o := .base (.readResponse task)) (.silent rfl trivial)) ?_
          rintro (_ | response) hsaid
          · exact fun _ h => nomatch h
          · refine hrest _ fun text htext => ?_
            obtain rfl := Option.some.inj htext
            exact ⟨response, hsaid hhead response rfl, rfl⟩

/-- **A page tells the response of each task on it.** -/
theorem buildPaginatedTaskList_onRecord (site : Site) (pageSize : ℤ) (token : Json)
    (stamps : ℕ → Stamp) :
    R.Speaks words (buildPaginatedTaskList site pageSize token stamps) fun page =>
      R.Says words ⟨200, page⟩ ∧ ∀ rpcId, R.Says words (rpcResult page rpcId) := by
  refine Owes.bind (owes_call (o := .snapshot) (.silent rfl trivial)) fun snapshot hknown => ?_
  refine Owes.bind (listItems_onRecord (fun e he => hknown e ?_) stamps) fun items hitems => ?_
  · have hdrop := List.mem_of_mem_drop (List.mem_of_mem_take he)
    exact (List.mergeSort_perm snapshot _).mem_iff.mp hdrop
  · have hall : ∀ p ∈ items.flatMap toldByTask, R.May words p := by
      intro p hp
      obtain ⟨item, hitem, hp⟩ := List.mem_flatMap.mp hp
      exact hitems item hitem p hp
    exact owes_pure ⟨hall, fun _ => hall⟩

end Pages

/-! ### Streams -/

section Streams

theorem openSseStream_onRecord (t : TaskId) :
    R.Speaks words (openSseStream t) fun _ => True := by
  have hopen : R.Speaks words (attempt (server (.openStream t))) fun _ => True :=
    ⟨.silent rfl trivial, fun _ _ _ _ => trivial⟩
  refine hopen.bind fun id _ => ?_
  exact owes_call_bind (.silent rfl trivial) fun _ => owes_pure trivial

theorem closeStream_onRecord (id : StreamId) :
    R.Speaks words (call (.closeStream id)) fun _ => True :=
  (owes_call (o := .closeStream id) (.silent rfl trivial)).mono fun _ _ => trivial

/-- Messages that were taken out of a buffer are sent as they are. -/
theorem sendLines_onRecord (id : StreamId) {lines : List SseLine}
    (h : ∀ line ∈ lines, R.buffered id line) :
    R.Speaks words (sendLines id lines) fun _ => True := by
  induction lines with
  | nil => exact owes_pure trivial
  | cons line lines ih =>
      obtain ⟨hhead, htail⟩ := List.forall_mem_cons.mp h
      have hutters : (ServerOp.sendLine id line).utters = [] := by
        cases line with
        | status => cases R.pushed id _ hhead
        | _ => rfl
      refine owes_call_bind (.silent hutters fun _ => hhead) fun written => ?_
      cases written with
      | true => exact ih htail
      | false => exact owes_pure trivial

theorem sseEmit_onRecord (id : StreamId) (eventId : Option String) (t : TaskId) (state : String)
    (contextId : Json) :
    R.Speaks words (sseEmit id eventId t state contextId) fun _ => True := by
  refine owes_call_bind (.silent rfl trivial) fun timestamp => Owes.mono (owes_call ?_) ?_
  · exact .silent rfl nofun
  · exact fun _ _ => trivial

theorem ssePollUntilTerminal_onRecord (site : Site) (id : StreamId) (t : TaskId)
    (contextId : Json) (deadline : Time) (polls : ℕ) :
    R.Speaks words (ssePollUntilTerminal site id t contextId deadline polls) fun _ => True := by
  induction polls with
  | zero => exact (owes_call (o := .halt) (.silent rfl trivial)).mono fun _ _ => trivial
  | succ polls ih =>
      refine owes_call_bind (.silent rfl trivial) fun now => ?_
      split_ifs
      · refine Owes.bind (owes_call (.silent rfl trivial)) fun lines hlines => ?_
        refine (sendLines_onRecord id hlines).bind fun written _ => ?_
        cases written with
        | false => exact closeStream_onRecord id
        | true =>
            refine owes_call_bind (.silent rfl trivial) fun closed => ?_
            cases closed with
            | true => exact owes_pure trivial
            | false =>
                refine (getStatus_onRecord t).bind fun status _ => ?_
                split_ifs
                · exact (sseEmit_onRecord ..).bind fun _ _ => closeStream_onRecord id
                · refine owes_call_bind (.silent rfl trivial) fun now => ?_
                  exact owes_call_bind (.silent rfl trivial) fun _ => ih
      · exact owes_call_bind (.silent rfl nofun) fun _ => closeStream_onRecord id

theorem pollStream_onRecord (site : Site) (req : HttpRequest) (id : StreamId) (t : TaskId)
    (contextId : Json) : R.Speaks words (pollStream site req id t contextId) fun _ => True :=
  owes_call_bind (.silent rfl trivial) fun _ => ssePollUntilTerminal_onRecord ..

end Streams

end SpeechRecord

end HermesA2A
