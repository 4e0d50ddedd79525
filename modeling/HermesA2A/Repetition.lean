import HermesA2A.ClientAddress

/-!
# The reply to a repeated request

What is stored under a key is the Task of the first request, and JSON-RPC sends it as it is.
The REST handler takes only the text out of it, and puts that under the id of the request at
hand.  A request without an id is given a new one each time, so its repetition is answered
with an id that no task has.

* `Reading` — what a client reads in a reply: task id, context id, state and text.
* `outcome_of_stored`, `retry_outcome` — the first reply, and the repeated one.
* `sameTaskId_iff` — when two REST requests with one body get one task id.
-/

namespace HermesA2A

open Machine

/-! ### Reading a reply -/

/-- The context id of a Task. -/
def contextId? (task : Json) : Option Json := task.field? "context_id"

/-- What a client reads. -/
structure Reading where
  taskId : Option Json
  contextId : Option Json
  state : Option Json
  text : Json
  deriving DecidableEq

/-- What a client reads in a Task. -/
def readingOf (task : Json) : Reading where
  taskId := taskId? task
  contextId := contextId? task
  state := taskState? task
  text := replyText task

/-- What a client reads in the responses that a handler has sent. -/
def Outcome.readings (transport : Transport) : Outcome → List Reading
  | .replied responses => (responses.filterMap (taskIn? transport)).map readingOf
  | _ => []

/-- The request has an id of its own. -/
def SendRequest.carriesId (req : SendRequest) : Bool :=
  match req.body.get "id" .null with
  | .ok taskId => taskId.truthy
  | .error _ => false

section Replies

variable {transport : Transport} {req req' : SendRequest} {s s' : Submission}

/-- Over REST the client reads the task id of the submission. -/
theorem readings_of_answered_rest {result : Json} {fields : List (String × Json)}
    (hobj : result = .obj fields) (hnone : fields.lookup "response" = none) :
    (outcomeOf .rest req s (.ok (.answered result))).readings .rest =
      [⟨some s.taskId, none, some (.str "completed"), .str ""⟩] := by
  subst hobj
  have hget : (Json.obj fields).get "response" (.str "") = .ok (.str "") := by
    rw [Json.get_obj, hnone]
    rfl
  have hreply : replyRestSend s (.answered (.obj fields)) =
      .ok [⟨200, plainTask [("id", s.taskId)] "completed" (.str "")⟩] := by
    show ((Json.obj fields).get "response" (.str "") >>= _) = _
    rw [hget]
    rfl
  show (Outcome.ofExcept (replyRestSend s (.answered (.obj fields)))).readings .rest = _
  rw [hreply]
  rfl

/-- In a refusal the client reads no state. -/
theorem readings_of_refused (status : ℕ) (code : ℤ) (message : String) (rpcId : Json) :
    ∀ reading ∈ (outcomeOf transport req s
      (.ok (.refused ⟨status, rpcErrorBody code message rpcId⟩))).readings transport,
      reading.state = none := by
  cases transport with
  | jsonRpc =>
      intro reading h
      obtain rfl := List.mem_singleton.mp h
      rfl
  | rest =>
      intro reading h
      obtain rfl := List.mem_singleton.mp h
      rfl

/-- A result has no field `response`. -/
theorem completedTask_fields (s : Submission) (stamp : Stamp) (task : PendingTask)
    (response : String) : ∃ fields, completedTask s stamp task response = .obj fields ∧
      fields.lookup "response" = none := by
  refine ⟨_, rfl, ?_⟩
  cases nonEmpty? ((nonEmpty? (some (filterOutbound response))).map filterOutbound) <;> rfl

/-- The reply with a result shows a completed task. -/
theorem exists_reading_completed (transport : Transport) (req : SendRequest) (s s' : Submission)
    (stamp : Stamp) (task : PendingTask) (response : String) :
    ∃ reading ∈ (outcomeOf transport req s
      (.ok (.answered (completedTask s' stamp task response)))).readings transport,
      reading.state = some (.str "completed") := by
  cases transport with
  | jsonRpc => exact ⟨readingOf _, List.mem_cons_self, rfl⟩
  | rest =>
      obtain ⟨fields, hobj, hnone⟩ := completedTask_fields s' stamp task response
      rw [readings_of_answered_rest hobj hnone]
      exact ⟨_, List.mem_cons_self, rfl⟩

/-- **Two REST requests with one body get one task id** exactly if the body has one, or the
ids drawn for them are the same. -/
theorem sameTaskId_iff {table : CharTable} (hbody : req'.body = req.body)
    (h : planSend table .rest req = .ok (.submit s))
    (h' : planSend table .rest req' = .ok (.submit s')) :
    s'.markOrigin.taskId = s.markOrigin.taskId ↔ req.carriesId = true ∨ req'.uuid = req.uuid := by
  have hplan := planRestSend_plans h
  have hplan' := planRestSend_plans h'
  cases hplan with
  | @submit taskId _ _ _ _ _ _ id_eq =>
      cases hplan' with
      | @submit taskId' _ _ _ _ _ _ id_eq' =>
          rw [hbody] at id_eq'
          obtain rfl : taskId' = taskId := Except.ok.inj (id_eq'.symm.trans id_eq)
          have hcarries : req.carriesId = taskId'.truthy := by
            unfold SendRequest.carriesId
            rw [id_eq]
          show taskId'.orElse (.str req'.uuid) = taskId'.orElse (.str req.uuid) ↔ _
          unfold Json.orElse
          rw [hcarries]
          cases taskId'.truthy <;> simp

end Replies

/-! ### The first reply and the second -/

/-- The result that a step stores. -/
def result? : Event → Option Json
  | ⟨.idemSet _ _ _ result, _⟩ => some result
  | _ => none

theorem filterMap_result?_clearedHistory (s : Submission) :
    (clearedHistory s).filterMap result? = [] := by
  unfold clearedHistory
  split_ifs <;> rfl

/-- **A result is stored at the end**, by a handler that answers with it. -/
theorem AwaitEnds.of_idemSet {P : Platform} {req : SendRequest} {s : Submission} {h : List Event}
    {ended : Except PyError Awaited} (hends : AwaitEnds P req s h ended) {key payload result : Json}
    {t : TaskId} (hin : (⟨.idemSet key t payload result, ()⟩ : Event) ∈ h) :
    ∃ task response, ended = .ok (.answered result) ∧
      result = completedTask s req.stamp task response := by
  have hstored : result ∈ h.filterMap result? := List.mem_filterMap.mpr ⟨_, hin, rfl⟩
  cases hends with
  | answered createdAt task start response₀ response =>
      have hread : (readHistory P s createdAt task start response₀ response).filterMap result? =
          [] := by
        simp only [readHistory, waitedHistory, enqueuedHistory, List.filterMap_append,
          filterMap_result?_clearedHistory]
        rfl
      unfold storedHistory at hstored
      rw [List.filterMap_append, hread, List.nil_append] at hstored
      split_ifs at hstored with hkey
      · obtain rfl := List.mem_singleton.mp hstored
        exact ⟨task, response, rfl, rfl⟩
      · cases hstored
  | checkRaised => cases hstored
  | conflict => cases hstored
  | getRaised => cases hstored
  | replay => cases hstored
  | _ =>
      -- every other history ends before something is stored
      simp only [waitedHistory, enqueuedHistory, List.filterMap_append,
        filterMap_result?_clearedHistory] at hstored
      cases hstored

section Runs

variable {P : Platform} {test : Test} {t₀ : Time} {c : Config} {i j : ℕ} {key : Json}
  {entry : IdempotencyEntry} {transport : Transport} {req : SendRequest} {outcome : Outcome}

/-- **Who has stored a result was answered with it.** -/
theorem outcome_of_stored (hc : (system P).Reaches (Allows test) (World.init t₀) c)
    (hends : c.Ends i (.sendMessage transport req) outcome)
    (hstored : StoredBy P c.trace i key entry) :
    ∃ s task response, planSend P.table transport req = .ok (.submit s) ∧
      entry.result = completedTask s.markOrigin req.stamp task response ∧
      outcome = outcomeOf transport req s.markOrigin (.ok (.answered entry.result)) := by
  obtain ⟨payload, hset, -⟩ := hstored
  have hin := mem_historyOf.mpr hset
  have hpost : sendPost P transport req (c.history i) outcome := post_of_ends hc hends
  change _ ∈ c.history i at hin
  unfold sendPost at hpost
  cases hplan : planSend P.table transport req with
  | error e =>
      rw [hplan] at hpost
      rw [hpost.1] at hin
      cases hin
  | ok plan =>
      rw [hplan] at hpost
      cases plan with
      | answer exit task =>
          rw [hpost.1] at hin
          cases hin
      | submit s =>
          obtain ⟨result, hawait, rfl⟩ := hpost
          obtain ⟨task, response, rfl, hresult⟩ := hawait.of_idemSet hin
          exact ⟨s, task, response, rfl, hresult, rfl⟩

/-- Who finds the entry is not accepted. -/
theorem not_accepted_of_findsEntry
    (hc : (system P).Reaches (Allows (findsEntry j key entry)) (World.init t₀) c)
    (htruthy : key.truthy = true) (hhashable : key.hashable = true) {payload : Json}
    (hcarries : Carries P c j key payload) (task : PendingTask) : ¬ AcceptsIn c.trace j task := by
  intro hacc
  obtain ⟨-, hget⟩ := free_of_accepted hc htruthy hcarries hacc
  cases get_of_findsEntry hc hhashable hget

end Runs

/-- **When a repetition is answered like the first request.**  In every run in which a request
is repeated and looks its key up while the first one's result is stored, nothing is enqueued
for it, and the client reads what it has read before, if and only if the two do not get
different names in metadata they sent, and over REST get the same task id.  Keys are JSON
values here (`TaskId`). -/
theorem repetition_same_iff {P : Platform} {t₀ : Time} {c : Config} {i j : ℕ} {key : Json}
    {entry : IdempotencyEntry} {transport : Transport} {reqA reqB : SendRequest}
    {outcomeA outcomeB : Outcome}
    (hc : (system P).Reaches (Allows (findsEntry j key entry)) (World.init t₀) c)
    (hfirst : c.Ends i (.sendMessage transport reqA) outcomeA)
    (hstored : StoredBy P c.trace i key entry)
    (hsecond : c.Ends j (.sendMessage transport reqB) outcomeB) (hbody : reqB.body = reqA.body)
    (hdigest : ∀ s s', planSend P.table transport reqA = .ok (.submit s) →
      planSend P.table transport reqB = .ok (.submit s') →
        payloadHash P.digest s'.markOrigin.payload = payloadHash P.digest s.markOrigin.payload →
          s'.markOrigin.payload.sortKeys = s.markOrigin.payload.sortKeys) :
    (outcomeB.readings transport = outcomeA.readings transport ∧
      ∀ task, ¬ AcceptsIn c.trace j task) ↔
    ¬ (namedByAddress reqA.body = true ∧
        addressName P.table reqA.clientIp ≠ addressName P.table reqB.clientIp) ∧
      (transport = .rest → reqA.carriesId = true ∨ reqB.uuid = reqA.uuid) := by
  obtain ⟨s, task, response, hplan, hresult, rfl⟩ := outcome_of_stored hc hfirst hstored
  obtain ⟨s', hplan', rfl, houtcome⟩ :=
    retry_outcome hc ⟨_, hfirst⟩ hstored hsecond hbody hdigest
  -- nothing is enqueued in any case
  obtain ⟨payload, hset, -⟩ := hstored
  obtain ⟨htruthy, hhashable⟩ := key_of_idemSet hc hset
  have hcarries : Carries P c j s'.markOrigin.idemKey s'.markOrigin.payload :=
    ⟨_, _, _, _, ⟨_, hsecond⟩, ⟨rfl, s', hplan', rfl⟩, rfl, rfl⟩
  have hnone := not_accepted_of_findsEntry hc htruthy hhashable hcarries
  rw [and_iff_left hnone]
  obtain ⟨fields, hobj, hfield⟩ :=
    completedTask_fields s.markOrigin reqA.stamp task response
  by_cases hdiffer : namedByAddress reqA.body = true ∧
      addressName P.table reqA.clientIp ≠ addressName P.table reqB.clientIp
  · rw [if_pos hdiffer] at houtcome
    obtain ⟨message, rfl⟩ := houtcome
    refine iff_of_false (fun hsame => ?_) fun h => h.1 hdiffer
    obtain ⟨reading, hreading, hstate⟩ := exists_reading_completed transport reqA s.markOrigin
      s.markOrigin reqA.stamp task response
    rw [← hresult, ← hsame] at hreading
    cases hstate.symm.trans (readings_of_refused _ _ _ _ reading hreading)
  · rw [if_neg hdiffer] at houtcome
    subst houtcome
    rw [and_iff_right hdiffer]
    cases transport with
    | jsonRpc => exact iff_of_true rfl fun h => nomatch h
    | rest =>
        rw [readings_of_answered_rest (hresult.trans hobj) hfield,
          readings_of_answered_rest (hresult.trans hobj) hfield,
          ← sameTaskId_iff hbody hplan hplan', forall_prop_of_true rfl, List.cons.injEq,
          Reading.mk.injEq, Option.some.injEq]
        simp

/-! ### One request without an id, twice -/

/-- A message under a key, without an id. -/
def repeatRequest (uuid : String) : SendRequest :=
  { SendRequest.sample [("idempotencyKey", .str "k")] "hi" with uuid := uuid }

/-- The message is sent, answered, and sent again. -/
def repeatCalls (transport : Transport) : List Call :=
  [ .sendMessage transport (repeatRequest "uuid-1"),
    .postLlmCall (.str "uuid-1") "done" 0 0,
    .sendMessage transport (repeatRequest "uuid-3") ]

/-- What the first sending stores. -/
def repeatEntry : IdempotencyEntry where
  taskId := .str "uuid-1"
  payloadHash := payloadHash Platform.sample.digest (repeatRequest "").body
  result :=
    buildTaskObject (.str "uuid-1") "completed" (.str "uuid-1") (some "done") none Stamp.sample
  expiresAt := IDEM_TTL_SECONDS

/-- The request and its repetition have ended with these responses, and the entry is stored. -/
def repliedTwice (first second : HttpResponse) (c : Config) : Bool :=
  decide (c.outcome? 0 = some (.replied [first]) ∧ c.outcome? 2 = some (.replied [second])) &&
    (c.history 0).any (storesEntry Platform.sample (.str "k") repeatEntry)

/-- The reply over JSON-RPC, both times. -/
def repeatReply : HttpResponse := rpcResult (.obj [("task", repeatEntry.result)]) (.int 1)

/-- Over JSON-RPC both replies are the same. -/
theorem repeated_over_jsonRpc :
    ∃ c : Config,
      (system Platform.sample).Reaches (Allows (findsEntry 2 (.str "k") repeatEntry))
          (World.init 0) c ∧
        c.Ends 0 (.sendMessage .jsonRpc (repeatRequest "uuid-1")) (.replied [repeatReply]) ∧
          c.Ends 2 (.sendMessage .jsonRpc (repeatRequest "uuid-3")) (.replied [repeatReply]) ∧
            ∀ task, ¬ AcceptsIn c.trace 2 task := by
  have hplay : (playSample (findsEntry 2 (.str "k") repeatEntry) (retrySchedule 2)
      (Config.calling (repeatCalls .jsonRpc))).any (repliedTwice repeatReply repeatReply) =
        true := by
    decide +kernel
  obtain ⟨c, hc, hcalls, hp⟩ := exists_of_playCalls hplay
  obtain ⟨houtcomes, hstores⟩ := Bool.and_eq_true_iff.mp hp
  obtain ⟨hfirst, hsecond⟩ := of_decide_eq_true houtcomes
  have hends : c.Ends 0 (.sendMessage .jsonRpc (repeatRequest "uuid-1"))
      (.replied [repeatReply]) := (hcalls 0 _ rfl).ends hfirst
  have hends' : c.Ends 2 (.sendMessage .jsonRpc (repeatRequest "uuid-3"))
      (.replied [repeatReply]) := (hcalls 2 _ rfl).ends hsecond
  have hbody : (repeatRequest "uuid-3").body = (repeatRequest "uuid-1").body := rfl
  have hnot : ¬ (namedByAddress (repeatRequest "uuid-1").body = true ∧
      addressName Platform.sample.table (repeatRequest "uuid-1").clientIp ≠
        addressName Platform.sample.table (repeatRequest "uuid-3").clientIp) := by decide +kernel
  have hsame := repetition_same_iff hc hends (storedBy_of_any hstores) hends' hbody
    fun s s' hplan hplan' _ => (sortKeys_payload_iff hbody hplan hplan').mpr hnot
  have hrpc : ¬ Transport.jsonRpc = .rest := by decide
  exact ⟨c, hc, hends, hends', (hsame.mpr ⟨hnot, fun h => absurd h hrpc⟩).2⟩

/-- Over REST the second reply has an id of its own. -/
theorem repeated_under_new_id :
    ∃ (c : Config) (first second : HttpResponse),
      (system Platform.sample).Reaches (Allows (findsEntry 2 (.str "k") repeatEntry))
          (World.init 0) c ∧
        c.Ends 0 (.sendMessage .rest (repeatRequest "uuid-1")) (.replied [first]) ∧
          StoredBy Platform.sample c.trace 0 (.str "k") repeatEntry ∧
            c.Ends 2 (.sendMessage .rest (repeatRequest "uuid-3")) (.replied [second]) ∧
              (repeatRequest "uuid-3").body = (repeatRequest "uuid-1").body ∧
                taskId? first.body = some (.str "uuid-1") ∧
                  taskId? second.body = some (.str "uuid-3") := by
  have hplay : (playSample (findsEntry 2 (.str "k") repeatEntry) (retrySchedule 2)
      (Config.calling (repeatCalls .rest))).any
        (repliedTwice ⟨200, plainTask [("id", .str "uuid-1")] "completed" (.str "")⟩
          ⟨200, plainTask [("id", .str "uuid-3")] "completed" (.str "")⟩) = true := by
    decide +kernel
  obtain ⟨c, hc, hcalls, hp⟩ := exists_of_playCalls hplay
  obtain ⟨houtcomes, hstores⟩ := Bool.and_eq_true_iff.mp hp
  obtain ⟨hfirst, hsecond⟩ := of_decide_eq_true houtcomes
  exact ⟨c, _, _, hc, (hcalls 0 _ rfl).ends hfirst, storedBy_of_any hstores,
    (hcalls 2 _ rfl).ends hsecond, rfl, rfl, rfl⟩

end HermesA2A
