import HermesA2A.A2ASpec.SendPayload
import HermesA2A.Backoff
import HermesA2A.Server.Readable
import HermesA2A.Signatures
import HermesA2A.WebhookHosts

/-!
# The trigger of a webhook

`webhook_delivery.trigger` posts a task to the local webhook, with retries, or directly to another
agent, once.  `trigger_async` does the same from a coroutine, with the blocking calls in threads;
it is a copy of the other, with some lines in another order.

* `trigger_eq_triggerAsync` — the two do the same, whatever they are called with.
* `trigger_protocol` — what is posted and slept: attempts up to the first success, and delays that
  double.
* `reportedOnce_iff` — a failure is reported once through `on_failure`, unless an exception goes
  out in its place.  That is so if the URL of a direct call is refused, if a text has no bytes, and
  if a sleep is refused.
-/

namespace HermesA2A

/-! ### Texts -/

/-- A code point of a Python text: a character, or half of a surrogate pair alone. -/
inductive CodePoint
  | char (c : Char)
  | half (n : Fin 2048)
  deriving DecidableEq

/-- The character, if it is one. -/
def CodePoint.char? : CodePoint → Option Char
  | char c => some c
  | half _ => none

/-- A Python text. -/
abbrev PyText := List CodePoint

namespace PyText

def ofString (s : String) : PyText := s.toList.map .char

/-- What `encode()` takes; it raises for half of a surrogate pair. -/
def encodable (t : PyText) : Except PyError String :=
  match t.mapM CodePoint.char? with
  | some chars => .ok (String.ofList chars)
  | none => .error .valueError

/-- The text as it is taken apart where no bytes of it are needed: half of a pair is one more
character that means nothing there. -/
def shown (t : PyText) : String :=
  String.ofList (t.map fun p => (CodePoint.char? p).getD '\uFFFD')

end PyText

/-! ### The two triggers -/

/-- What `trigger` and `trigger_async` are called with. -/
structure TriggerArgs where
  message : PyText
  taskId : PyText
  mode : Option PyText
  deliverOnly : Bool
  retries : Option ℤ
  baseDelay : Option PyNumber
  /-- Is there an `on_failure`? -/
  onFailure : Bool
  useDirectA2a : Bool
  targetUrl : PyText
  authToken : PyText

/-- What comes of a direct call: a JSON object, or anything else, an exception included, with the
text it is reported with. -/
inductive DirectAnswer
  | dict (fields : List (String × Json))
  | other (error : String)

/-- What a trigger finds: the environment, the generated identifiers, and the answers. -/
structure TriggerWorld where
  chars : CharData
  hash : KeyedHash
  getenv : String → Option PyText
  requestId : String
  messageId : String
  /-- The answer to a direct call. -/
  answer : DirectAnswer
  /-- Which of the posts to the webhook succeed. -/
  succeeds : ℕ → Bool

/-- A POST. -/
structure TriggerRequest where
  url : PyText
  body : ByteArray
  headers : List (String × PyText)
  timeout : ℕ

/-- What a trigger does. -/
inductive TriggerEvent
  | post (request : TriggerRequest) (succeeded : Bool)
  | sleep (seconds : PyNumber)
  | failure (taskId : PyText)

/-- A run of a trigger: what it does, and the exception it ends with, if it does. -/
structure TriggerRun where
  events : List TriggerEvent
  result : Except PyError Unit

/-- `if on_failure: on_failure(task_id)` -/
def TriggerArgs.fail (args : TriggerArgs) : List TriggerEvent :=
  if args.onFailure then [.failure args.taskId] else []

/-- A member of the body of a webhook. -/
inductive BodyValue
  | text (t : PyText)
  | flag (b : Bool)

/-- `body_dict` -/
def TriggerArgs.bodyDict (args : TriggerArgs) : List (String × BodyValue) :=
  [("event_type", .text (.ofString "a2a_inbound")),
    ("text", .text args.message),
    ("task_id", .text args.taskId)] ++
  (args.mode.map fun mode => ("mode", BodyValue.text mode)).toList ++
  (if args.deliverOnly then [("deliver_only", .flag true)] else [])

/-- A member as JSON, unless it has no bytes. -/
def BodyValue.encodable : BodyValue → Except PyError Json
  | text t => Json.str <$> t.encodable
  | flag b => .ok (.bool b)

/-- `json.dumps(body_dict, sort_keys=True, ensure_ascii=False).encode()` -/
def encodeBody (fields : List (String × BodyValue)) : Except PyError ByteArray := do
  let fields ← fields.mapM fun field => do
    let value ← field.2.encodable
    return (field.1, value)
  return (Json.obj fields).dumpsSorted.toUTF8

namespace TriggerWorld

variable (w : TriggerWorld) (args : TriggerArgs)

/-- `os.getenv` -/
def setting (name default : String) : PyText := (w.getenv name).getD (.ofString default)

/-- The bytes of the payload of a direct call. -/
def directBody (message taskId : PyText) : Except PyError ByteArray := do
  let sender ← (w.setting "A2A_AGENT_NAME" "hermes-agent").encodable
  let taskId ← taskId.encodable
  let message ← message.encodable
  let payload := buildTaskSendPayload {
    taskId := taskId
    message := message
    senderName := sender
    requestId := w.requestId
    messageId := w.messageId }
  return (String.ofList payload.write).toUTF8

/-- Has the dictionary that `call` returns an `error`?  It has, unless the answer is an object
with a `result`. -/
def answersError : Bool :=
  match w.answer with
  | .dict fields => (fields.lookup "result").isNone
  | .other _ => true

/-- `a2a_direct.call`: the request, and whether an error is returned. -/
def call (url message taskId authToken : PyText) : Except PyError (TriggerRequest × Bool) := do
  if (validateTargetUrl w.chars url.shown false).isOk = false then throw .valueError
  let body ← w.directBody message taskId
  let headers := [("Content-Type", .ofString "application/json")] ++
    (if authToken = [] then [] else [("Authorization", .ofString "Bearer " ++ authToken)])
  return (⟨url, body, headers, 10⟩, w.answersError)

/-- `a2a_direct.call_async`: `call`, in a thread. -/
def callAsync (url message taskId authToken : PyText) : Except PyError (TriggerRequest × Bool) :=
  w.call url message taskId authToken

/-- The number of attempts and the delay: the arguments, or the environment. -/
def retrySettings : Except PyError (ℤ × PyNumber) := do
  let retries ← match args.retries with
    | some retries => pure retries
    | none => intOfText (w.setting "A2A_WEBHOOK_RETRIES" "3").shown
  let baseDelay ← match args.baseDelay with
    | some baseDelay => pure baseDelay
    | none => PyNumber.float <$> floatOfText (w.setting "A2A_WEBHOOK_BACKOFF" "1.0").shown
  return (retries, baseDelay)

/-- `webhook_url` -/
def webhookUrl (host : PyText) (port : ℤ) : PyText :=
  .ofString "http://" ++ host ++ .ofString (":" ++ toString port ++ "/webhooks/a2a_trigger")

/-- The request with its signature. -/
def signedRequest (secret url : PyText) (body : ByteArray) : Except PyError TriggerRequest := do
  let secret ← secret.encodable
  let sig := "sha256=" ++ hexdigest (w.hash secret.toUTF8 body)
  return ⟨url, body, [("Content-Type", .ofString "application/json"),
    ("X-Hub-Signature-256", .ofString sig)], 5⟩

/-- The request of a webhook. -/
def webhookRequest : Except PyError TriggerRequest := do
  let webhookPort ← intOfText (w.setting "WEBHOOK_PORT" "8644").shown
  let url := webhookUrl (w.setting "A2A_WEBHOOK_HOST" "127.0.0.1") webhookPort
  let body ← encodeBody args.bodyDict
  w.signedRequest (w.setting "A2A_WEBHOOK_SECRET" "") url body

end TriggerWorld

/-- The events of the attempts. -/
def TriggerEvent.of (request : TriggerRequest) (succeeds : ℕ → Bool) :
    Retry.Event PyNumber → TriggerEvent
  | .attempt i => post request (succeeds i)
  | .pause seconds => sleep seconds

/-- The attempts, and `on_failure` after the last of them. -/
def TriggerRun.of (request : TriggerRequest) (succeeds : ℕ → Bool) (fail : List TriggerEvent)
    (run : Retry.Run PyNumber PyError) : TriggerRun :=
  let events := run.events.map (.of request succeeds)
  match run.ending with
  | .succeeded => ⟨events, .ok ()⟩
  | .exhausted => ⟨events ++ fail, .ok ()⟩
  | .stopped e => ⟨events, .error e⟩

/-- `trigger` -/
def trigger (w : TriggerWorld) (args : TriggerArgs) : TriggerRun :=
  if args.useDirectA2a ∧ args.targetUrl ≠ [] then
    match w.call args.targetUrl args.message args.taskId args.authToken with
    | .error e => ⟨[], .error e⟩
    | .ok (request, failed) =>
        if failed then ⟨.post request false :: args.fail, .ok ()⟩
        else ⟨[.post request true], .ok ()⟩
  else
    match w.retrySettings args with
    | .error e => ⟨[], .error e⟩
    | .ok (retries, baseDelay) =>
        let secret := w.setting "A2A_WEBHOOK_SECRET" ""
        if secret = [] then ⟨args.fail, .ok ()⟩
        else
          let bodyDict := args.bodyDict
          let webhookHost := w.setting "A2A_WEBHOOK_HOST" "127.0.0.1"
          if (validateHost w.chars webhookHost.shown).isOk = false then ⟨args.fail, .ok ()⟩
          else
            let prepared := do
              let webhookPort ← intOfText (w.setting "WEBHOOK_PORT" "8644").shown
              let url := TriggerWorld.webhookUrl webhookHost webhookPort
              let body ← encodeBody bodyDict
              w.signedRequest secret url body
            match prepared with
            | .error e => ⟨[], .error e⟩
            | .ok request =>
                .of request w.succeeds args.fail
                  (Retry.run w.succeeds (pauseAfter baseDelay) retries.toNat)

/-- `trigger_async`: the body is built after the host was checked. -/
def triggerAsync (w : TriggerWorld) (args : TriggerArgs) : TriggerRun :=
  if args.useDirectA2a ∧ args.targetUrl ≠ [] then
    match w.callAsync args.targetUrl args.message args.taskId args.authToken with
    | .error e => ⟨[], .error e⟩
    | .ok (request, failed) =>
        if failed then ⟨.post request false :: args.fail, .ok ()⟩
        else ⟨[.post request true], .ok ()⟩
  else
    match w.retrySettings args with
    | .error e => ⟨[], .error e⟩
    | .ok (retries, baseDelay) =>
        let secret := w.setting "A2A_WEBHOOK_SECRET" ""
        if secret = [] then ⟨args.fail, .ok ()⟩
        else
          let webhookHost := w.setting "A2A_WEBHOOK_HOST" "127.0.0.1"
          if (validateHost w.chars webhookHost.shown).isOk = false then ⟨args.fail, .ok ()⟩
          else
            let prepared := do
              let webhookPort ← intOfText (w.setting "WEBHOOK_PORT" "8644").shown
              let url := TriggerWorld.webhookUrl webhookHost webhookPort
              let bodyDict := args.bodyDict
              let body ← encodeBody bodyDict
              w.signedRequest secret url body
            match prepared with
            | .error e => ⟨[], .error e⟩
            | .ok request =>
                .of request w.succeeds args.fail
                  (Retry.run w.succeeds (pauseAfter baseDelay) retries.toNat)

/-- **The two triggers do the same.** -/
theorem trigger_eq_triggerAsync (w : TriggerWorld) (args : TriggerArgs) :
    trigger w args = triggerAsync w args := by
  unfold trigger triggerAsync TriggerWorld.callAsync
  rfl

/-! ### What has bytes -/

/-- All these texts have bytes. -/
def encodes (texts : List PyText) : Bool := texts.all fun t => t.encodable.isOk

section Bytes

variable (w : TriggerWorld) (args : TriggerArgs)

theorem encodeBody_isOk (fields : List (String × BodyValue)) :
    (encodeBody fields).isOk = fields.all fun field => field.2.encodable.isOk := by
  have hfields : (fields.mapM fun field => do
      let value ← field.2.encodable
      return (field.1, value) : Except PyError (List (String × Json))).isOk =
        fields.all fun field => field.2.encodable.isOk := by
    induction fields with
    | nil => rfl
    | cons field fields ih =>
        rw [List.mapM_cons, List.all_cons, ← ih]
        have hfield : (do
            let value ← field.2.encodable
            return (field.1, value) : Except PyError (String × Json)).isOk =
              field.2.encodable.isOk := isOk_map _ _
        rw [← hfield]
        exact isOk_bind fun _ _ => isOk_map _ _
  rw [← hfields]
  exact isOk_map _ _

/-- The body of a webhook has bytes exactly if its texts have. -/
theorem bodyDict_isOk :
    (encodeBody args.bodyDict).isOk =
      encodes (args.message :: args.taskId :: args.mode.toList) := by
  have htext : ∀ t : PyText, (BodyValue.text t).encodable.isOk = t.encodable.isOk :=
    fun t => isOk_map _ _
  have hevent : (PyText.ofString "a2a_inbound").encodable.isOk = true := rfl
  have hflag : (BodyValue.flag true).encodable.isOk = true := rfl
  rw [encodeBody_isOk]
  unfold TriggerArgs.bodyDict encodes
  cases args.mode <;> cases args.deliverOnly <;> simp [htext, hevent, hflag]

theorem TriggerWorld.signedRequest_isOk (secret url : PyText) (body : ByteArray) :
    (w.signedRequest secret url body).isOk = secret.encodable.isOk :=
  isOk_map _ _

/-- The payload of a direct call has bytes exactly if its texts have. -/
theorem TriggerWorld.directBody_isOk (message taskId : PyText) :
    (w.directBody message taskId).isOk =
      encodes [w.setting "A2A_AGENT_NAME" "hermes-agent", taskId, message] := by
  unfold encodes
  simp only [List.all_cons, List.all_nil, Bool.and_true]
  exact isOk_bind fun _ _ => isOk_bind fun _ _ => isOk_map _ _

end Bytes

/-! ### What goes out -/

/-- `on_failure` is called with this task id. -/
def TriggerEvent.failure? : TriggerEvent → Option PyText
  | failure taskId => some taskId
  | _ => none

/-- A post succeeds. -/
def TriggerRun.Succeeds (run : TriggerRun) : Prop := ∃ request, .post request true ∈ run.events

/-- **A failure is reported once**: no exception goes out, and either a post succeeds and
`on_failure` is not called, or none succeeds and it is called once, with the task id, if there is
an `on_failure`. -/
structure ReportedOnce (args : TriggerArgs) (run : TriggerRun) : Prop where
  returns : run.result = .ok ()
  reported : run.Succeeds ∧ run.events.filterMap TriggerEvent.failure? = [] ∨
    ¬ run.Succeeds ∧ run.events.filterMap TriggerEvent.failure? =
      if args.onFailure then [args.taskId] else []

/-- The environment has numbers where numbers are expected. -/
structure WellFormedSettings (w : TriggerWorld) : Prop where
  retries : (intOfText (w.setting "A2A_WEBHOOK_RETRIES" "3").shown).isOk = true
  backoff : (floatOfText (w.setting "A2A_WEBHOOK_BACKOFF" "1.0").shown).isOk = true
  port : (intOfText (w.setting "WEBHOOK_PORT" "8644").shown).isOk = true

/-- **An exception goes out.**  Of a direct call, if its URL is refused, or if the name of the
agent, the message or the task id has no bytes.  Of a webhook, if there is a secret and the host
passes, and a text that is sent has no bytes, or a sleep that is needed is refused. -/
def Escapes (w : TriggerWorld) (args : TriggerArgs) : Prop :=
  if args.useDirectA2a ∧ args.targetUrl ≠ [] then
    (validateTargetUrl w.chars args.targetUrl.shown false).isOk = false ∨
      encodes [w.setting "A2A_AGENT_NAME" "hermes-agent", args.taskId, args.message] = false
  else
    w.setting "A2A_WEBHOOK_SECRET" "" ≠ [] ∧
      (validateHost w.chars (w.setting "A2A_WEBHOOK_HOST" "127.0.0.1").shown).isOk = true ∧
      (encodes (w.setting "A2A_WEBHOOK_SECRET" "" :: args.message :: args.taskId ::
          args.mode.toList) = false ∨
        ∃ retries baseDelay, w.retrySettings args = .ok (retries, baseDelay) ∧
          Retry.Blocked w.succeeds (pauseAfter baseDelay) retries.toNat)

section Trigger

variable {w : TriggerWorld} {args : TriggerArgs}

theorem not_reportedOnce_of_error {events : List TriggerEvent} {e : PyError} :
    ¬ ReportedOnce args ⟨events, .error e⟩ := fun h => by cases h.returns

theorem failure_fail (args : TriggerArgs) :
    args.fail.filterMap TriggerEvent.failure? = if args.onFailure then [args.taskId] else [] := by
  unfold TriggerArgs.fail
  split_ifs <;> rfl

theorem not_succeeds_fail (args : TriggerArgs) {request : TriggerRequest} :
    .post request true ∉ args.fail := by
  unfold TriggerArgs.fail
  split_ifs <;> simp

/-- A trigger that gives up before it posts. -/
theorem reportedOnce_fail (args : TriggerArgs) : ReportedOnce args ⟨args.fail, .ok ()⟩ :=
  ⟨rfl, Or.inr ⟨fun ⟨_, hpost⟩ => not_succeeds_fail args hpost, failure_fail args⟩⟩

/-- A direct call. -/
theorem reportedOnce_direct (args : TriggerArgs) (request : TriggerRequest) (failed : Bool) :
    ReportedOnce args
      (if failed then ⟨.post request false :: args.fail, .ok ()⟩
        else ⟨[.post request true], .ok ()⟩) := by
  cases failed with
  | true =>
      refine ⟨rfl, Or.inr ⟨?_, failure_fail args⟩⟩
      rintro ⟨other, hpost⟩
      rcases List.mem_cons.mp hpost with heq | hfail
      · cases heq
      · exact not_succeeds_fail args hfail
  | false => exact ⟨rfl, Or.inl ⟨⟨request, List.mem_singleton_self _⟩, rfl⟩⟩

/-! ### The attempts -/

variable {request : TriggerRequest} {succeeds : ℕ → Bool} {run : Retry.Run PyNumber PyError}

theorem mem_made_iff {i : ℕ} : i ∈ run.made ↔ .attempt i ∈ run.events := by
  unfold Retry.Run.made
  rw [List.mem_filterMap]
  constructor
  · rintro ⟨event, hmem, hindex⟩
    cases event with
    | attempt j =>
        obtain rfl := Option.some.inj hindex
        exact hmem
    | pause d => cases hindex
  · exact fun hmem => ⟨_, hmem, rfl⟩

/-- A post that succeeds is an attempt that does. -/
theorem succeeds_map_iff (request : TriggerRequest) (succeeds : ℕ → Bool)
    (run : Retry.Run PyNumber PyError) :
    (∃ posted, .post posted true ∈ run.events.map (TriggerEvent.of request succeeds)) ↔
      ∃ i ∈ run.made, succeeds i = true := by
  constructor
  · rintro ⟨posted, hmem⟩
    obtain ⟨event, hevent, heq⟩ := List.mem_map.mp hmem
    cases event with
    | attempt i =>
        exact ⟨i, mem_made_iff.mpr hevent, (TriggerEvent.post.inj heq).2⟩
    | pause d => cases heq
  · rintro ⟨i, hmade, hi⟩
    refine ⟨request, List.mem_map.mpr ⟨.attempt i, mem_made_iff.mp hmade, ?_⟩⟩
    rw [TriggerEvent.of, hi]

theorem failure_map :
    (run.events.map (TriggerEvent.of request succeeds)).filterMap TriggerEvent.failure? = [] := by
  rw [List.filterMap_eq_nil_iff]
  intro event hevent
  obtain ⟨source, -, rfl⟩ := List.mem_map.mp hevent
  cases source <;> rfl

/-- **The attempts are reported** unless a sleep goes wrong. -/
theorem reportedOnce_of (pause : ℕ → Except PyError PyNumber) (n : ℕ) :
    ReportedOnce args (.of request succeeds args.fail (Retry.run succeeds pause n)) ↔
      ¬ Retry.Blocked succeeds pause n := by
  have hsucceeded := succeeds_map_iff request succeeds (Retry.run succeeds pause n)
  rw [← Retry.succeeded_iff] at hsucceeded
  rw [← Retry.stopped_iff]
  unfold TriggerRun.of
  cases hending : (Retry.run succeeds pause n).ending with
  | succeeded =>
      refine iff_of_true ⟨rfl, Or.inl ⟨hsucceeded.mpr hending, failure_map⟩⟩ ?_
      rintro ⟨e, he⟩
      cases he
  | exhausted =>
      refine iff_of_true ⟨rfl, Or.inr ⟨?_, ?_⟩⟩ ?_
      · rintro ⟨posted, hmem⟩
        rcases List.mem_append.mp hmem with hmade | hfail
        · cases hending.symm.trans (hsucceeded.mp ⟨posted, hmade⟩)
        · exact not_succeeds_fail args hfail
      · rw [List.filterMap_append, failure_map]
        exact failure_fail args
      · rintro ⟨e, he⟩
        cases he
  | stopped e => exact iff_of_false not_reportedOnce_of_error (not_not.mpr ⟨e, rfl⟩)

end Trigger

section Main

variable (w : TriggerWorld) (args : TriggerArgs)

theorem TriggerWorld.call_isOk (url message taskId authToken : PyText) :
    (w.call url message taskId authToken).isOk =
      ((validateTargetUrl w.chars url.shown false).isOk &&
        encodes [w.setting "A2A_AGENT_NAME" "hermes-agent", taskId, message]) := by
  rw [← TriggerWorld.directBody_isOk]
  unfold TriggerWorld.call
  cases (validateTargetUrl w.chars url.shown false).isOk with
  | false => rfl
  | true => exact isOk_map _ _

theorem TriggerWorld.retrySettings_isOk (h : WellFormedSettings w) :
    (w.retrySettings args).isOk = true := by
  obtain ⟨retries, hretries⟩ := exists_of_isOk h.retries
  obtain ⟨backoff, hbackoff⟩ := exists_of_isOk h.backoff
  unfold TriggerWorld.retrySettings
  cases args.retries <;> cases args.baseDelay <;> (simp only [hretries, hbackoff]; rfl)

/-- A request is prepared exactly if its texts have bytes. -/
theorem TriggerWorld.webhookRequest_isOk (h : WellFormedSettings w) :
    (w.webhookRequest args).isOk =
      encodes (w.setting "A2A_WEBHOOK_SECRET" "" :: args.message :: args.taskId ::
        args.mode.toList) := by
  obtain ⟨port, hport⟩ := exists_of_isOk h.port
  have hbody := bodyDict_isOk args
  unfold TriggerWorld.webhookRequest
  rw [hport, ok_bind]
  dsimp only
  unfold encodes at hbody ⊢
  rw [List.all_cons, ← hbody, Bool.and_comm]
  exact isOk_bind fun body _ => w.signedRequest_isOk _ _ body

/-- A webhook that gets as far as the attempts. -/
structure Posts (retries : ℤ) (baseDelay : PyNumber) (request : TriggerRequest) : Prop where
  webhook : ¬ (args.useDirectA2a = true ∧ args.targetUrl ≠ [])
  settings : w.retrySettings args = .ok (retries, baseDelay)
  secret : w.setting "A2A_WEBHOOK_SECRET" "" ≠ []
  host : (validateHost w.chars (w.setting "A2A_WEBHOOK_HOST" "127.0.0.1").shown).isOk = true
  request : w.webhookRequest args = .ok request

variable {w args}

/-- The attempts of such a trigger. -/
theorem Posts.trigger_eq {retries : ℤ} {baseDelay : PyNumber} {request : TriggerRequest}
    (h : Posts w args retries baseDelay request) :
    trigger w args = .of request w.succeeds args.fail
      (Retry.run w.succeeds (pauseAfter baseDelay) retries.toNat) := by
  have hrequest := h.request
  unfold TriggerWorld.webhookRequest at hrequest
  unfold trigger
  rw [if_neg h.webhook, h.settings]
  dsimp only
  rw [if_neg h.secret, if_neg (by rw [h.host]; decide), hrequest]

/-- A trigger posts, gives up, or ends with an exception before it posts. -/
theorem trigger_cases (hsettings : WellFormedSettings w)
    (hwebhook : ¬ (args.useDirectA2a = true ∧ args.targetUrl ≠ [])) :
    (∃ retries baseDelay request, Posts w args retries baseDelay request) ∨
    (trigger w args = ⟨args.fail, .ok ()⟩ ∧
      (w.setting "A2A_WEBHOOK_SECRET" "" = [] ∨
        (validateHost w.chars (w.setting "A2A_WEBHOOK_HOST" "127.0.0.1").shown).isOk = false)) ∨
    (∃ e, trigger w args = ⟨[], .error e⟩ ∧ w.setting "A2A_WEBHOOK_SECRET" "" ≠ [] ∧
      (validateHost w.chars (w.setting "A2A_WEBHOOK_HOST" "127.0.0.1").shown).isOk = true ∧
      w.webhookRequest args = .error e) := by
  obtain ⟨⟨retries, baseDelay⟩, hretry⟩ := exists_of_isOk (w.retrySettings_isOk args hsettings)
  by_cases hsecret : w.setting "A2A_WEBHOOK_SECRET" "" = []
  · refine Or.inr (Or.inl ⟨?_, Or.inl hsecret⟩)
    unfold trigger
    rw [if_neg hwebhook, hretry]
    dsimp only
    rw [if_pos hsecret]
  cases hhost : (validateHost w.chars (w.setting "A2A_WEBHOOK_HOST" "127.0.0.1").shown).isOk with
  | false =>
      refine Or.inr (Or.inl ⟨?_, Or.inr rfl⟩)
      unfold trigger
      rw [if_neg hwebhook, hretry]
      dsimp only
      rw [if_neg hsecret, if_pos hhost]
  | true =>
      cases hrequest : w.webhookRequest args with
      | ok request => exact Or.inl ⟨retries, baseDelay, request, hwebhook, hretry, hsecret, hhost,
          hrequest⟩
      | error e =>
          refine Or.inr (Or.inr ⟨e, ?_, hsecret, rfl, rfl⟩)
          unfold TriggerWorld.webhookRequest at hrequest
          unfold trigger
          rw [if_neg hwebhook, hretry]
          dsimp only
          rw [if_neg hsecret, if_neg (by rw [hhost]; decide), hrequest]

/-- **A failure is reported once, unless an exception goes out.** -/
theorem trigger_reportedOnce_iff (hsettings : WellFormedSettings w) :
    ReportedOnce args (trigger w args) ↔ ¬ Escapes w args := by
  unfold Escapes
  split_ifs with hdirect
  · -- a direct call
    have hisOk := w.call_isOk args.targetUrl args.message args.taskId args.authToken
    unfold trigger
    rw [if_pos hdirect]
    cases hcall : w.call args.targetUrl args.message args.taskId args.authToken with
    | error e =>
        rw [hcall] at hisOk
        refine iff_of_false not_reportedOnce_of_error (not_not.mpr ?_)
        rcases Bool.and_eq_false_iff.mp hisOk.symm with hurl | htexts
        · exact Or.inl hurl
        · exact Or.inr htexts
    | ok called =>
        rw [hcall] at hisOk
        obtain ⟨hurl, htexts⟩ := Bool.and_eq_true_iff.mp hisOk.symm
        refine iff_of_true (reportedOnce_direct args _ _) ?_
        rw [hurl, htexts]
        simp
  · -- a webhook
    have hisOk := w.webhookRequest_isOk args hsettings
    rcases trigger_cases hsettings hdirect with ⟨retries, baseDelay, request, hposts⟩ |
      ⟨hgives, hwhy⟩ | ⟨e, hraises, hsecret, hhost, hrequest⟩
    · rw [hposts.request] at hisOk
      rw [hposts.trigger_eq, reportedOnce_of]
      refine not_congr ⟨fun h => ⟨hposts.secret, hposts.host, Or.inr ⟨_, _, hposts.settings, h⟩⟩, ?_⟩
      rintro ⟨-, -, htexts | ⟨retries', baseDelay', hsame, hblocked⟩⟩
      · cases hisOk.trans htexts
      · obtain ⟨rfl, rfl⟩ := Prod.mk.inj (Except.ok.inj (hposts.settings.symm.trans hsame))
        exact hblocked
    · rw [hgives]
      refine iff_of_true (reportedOnce_fail args) ?_
      rintro ⟨hsecret, hhost, -⟩
      rcases hwhy with hnone | hrefused
      · exact hsecret hnone
      · cases hhost.symm.trans hrefused
    · rw [hrequest] at hisOk
      rw [hraises]
      exact iff_of_false not_reportedOnce_of_error
        (not_not.mpr ⟨hsecret, hhost, Or.inl hisOk.symm⟩)

end Main

/-- **Both triggers report a failure once, unless an exception goes out.** -/
theorem reportedOnce_iff (w : TriggerWorld) (args : TriggerArgs)
    (hsettings : WellFormedSettings w) :
    (ReportedOnce args (trigger w args) ↔ ¬ Escapes w args) ∧
      (ReportedOnce args (triggerAsync w args) ↔ ¬ Escapes w args) := by
  refine ⟨trigger_reportedOnce_iff hsettings, ?_⟩
  rw [← trigger_eq_triggerAsync]
  exact trigger_reportedOnce_iff hsettings

/-- The second of the posts succeeds, and the answer to a direct call is a result. -/
def demoTrigger : TriggerWorld where
  chars := .ascii
  hash _ _ := []
  getenv
    | "A2A_WEBHOOK_SECRET" => some (.ofString "key")
    | "A2A_WEBHOOK_HOST" => some (.ofString "hooks.example.org")
    | _ => none
  requestId := "r"
  messageId := "m"
  answer := .dict [("result", .null)]
  succeeds i := i = 1

/-- A task for the webhook, with this delay. -/
def demoTask (baseDelay : PyNumber) : TriggerArgs where
  message := .ofString "hello"
  taskId := .ofString "task-1"
  mode := none
  deliverOnly := true
  retries := some 3
  baseDelay := some baseDelay
  onFailure := true
  useDirectA2a := false
  targetUrl := []
  authToken := []

theorem demoTrigger_settings : WellFormedSettings demoTrigger :=
  ⟨by decide +kernel, by decide +kernel, by decide +kernel⟩

theorem reportedOnce_second :
    ReportedOnce (demoTask (.int 1)) (trigger demoTrigger (demoTask (.int 1))) ∧
      ReportedOnce (demoTask (.int 1)) (triggerAsync demoTrigger (demoTask (.int 1))) := by
  have hnot : ¬ Escapes demoTrigger (demoTask (.int 1)) := by
    unfold Escapes
    rw [if_neg (by decide)]
    rintro ⟨-, -, htexts | ⟨retries, baseDelay, hretry, i, hi, hfail, e, hpause⟩⟩
    · cases htexts
    · obtain ⟨rfl, rfl⟩ := Prod.mk.inj (Except.ok.inj hretry)
      have hzero : i = 0 := by
        by_contra hne
        have hone := hfail 1 (by omega)
        cases hone
      rw [hzero] at hpause
      cases hpause
  exact ⟨(reportedOnce_iff demoTrigger (demoTask (.int 1)) demoTrigger_settings).1.mpr hnot,
    (reportedOnce_iff demoTrigger (demoTask (.int 1)) demoTrigger_settings).2.mpr hnot⟩

/-- A direct call to the address in the docstring of `call`. -/
def loopbackCall : TriggerArgs :=
  { demoTask (.int 1) with
    useDirectA2a := true
    targetUrl := .ofString "http://127.0.0.1:41808/a2a" }

/-- The address is refused with an exception, and `on_failure` is not called. -/
theorem loopbackCall_not_reported : ¬ ∀ args : TriggerArgs,
    ReportedOnce args (trigger demoTrigger args) ∧
      ReportedOnce args (triggerAsync demoTrigger args) := by
  intro h
  have hrefused : (validateTargetUrl .ascii loopbackCall.targetUrl.shown false).isOk = false := by
    decide +kernel
  refine absurd (h loopbackCall).1
    (mt (trigger_reportedOnce_iff demoTrigger_settings).mp (not_not.mpr ?_))
  unfold Escapes
  rw [if_pos (by decide)]
  exact Or.inl hrefused

/-! ### The protocol -/

/-- Requests and sleeps. -/
def TriggerEvent.isTraffic : TriggerEvent → Bool
  | failure _ => false
  | _ => true

theorem traffic_fail (args : TriggerArgs) : args.fail.filter TriggerEvent.isTraffic = [] := by
  unfold TriggerArgs.fail
  split_ifs <;> rfl

theorem traffic_of (request : TriggerRequest) (succeeds : ℕ → Bool) (args : TriggerArgs)
    (run : Retry.Run PyNumber PyError) :
    (TriggerRun.of request succeeds args.fail run).events.filter TriggerEvent.isTraffic =
      run.events.map (.of request succeeds) := by
  have hall : (run.events.map (TriggerEvent.of request succeeds)).filter
      TriggerEvent.isTraffic = run.events.map (.of request succeeds) := by
    rw [List.filter_eq_self]
    intro event hevent
    obtain ⟨source, -, rfl⟩ := List.mem_map.mp hevent
    cases source <;> rfl
  unfold TriggerRun.of
  cases run.ending with
  | exhausted => rw [List.filter_append, hall, traffic_fail, List.append_nil]
  | _ => exact hall

/-- **One protocol**: both triggers do the same.  They make as many attempts as up to the first
that succeeds, or after which a sleep is refused, and no more than allowed, and between two
attempts they sleep for the delay, doubled for every attempt, exactly. -/
theorem trigger_protocol (w : TriggerWorld) (args : TriggerArgs) :
    trigger w args = triggerAsync w args ∧
    ∀ retries baseDelay request, Posts w args retries baseDelay request →
      (trigger w args).events.filter TriggerEvent.isTraffic =
        (Retry.script baseDelay.doubled
          (Retry.attempts (Retry.endsWith w.succeeds (pauseAfter baseDelay)) retries.toNat) 0).map
            (.of request w.succeeds) ∧
      (∀ i, i + 1 < Retry.attempts (Retry.endsWith w.succeeds (pauseAfter baseDelay))
          retries.toNat →
        ∃ d, baseDelay.value? = some d ∧ (baseDelay.doubled i).value? = some (d * 2 ^ i)) ∧
      (¬ Retry.Blocked w.succeeds (pauseAfter baseDelay) retries.toNat →
        Retry.attempts (Retry.endsWith w.succeeds (pauseAfter baseDelay)) retries.toNat =
          Retry.attempts w.succeeds retries.toNat) := by
  refine ⟨trigger_eq_triggerAsync w args, fun retries baseDelay request hposts => ?_⟩
  refine ⟨?_, fun i hi => ?_, Retry.attempts_of_not_blocked⟩
  · rw [hposts.trigger_eq, traffic_of, Retry.run_events fun i d => eq_doubled]
  · have hlast := (Retry.mem_range_attempts.mp hi).2 i (Nat.lt_succ_self i)
    obtain ⟨-, d, hpause⟩ := Retry.endsWith_eq_false.mp hlast
    rw [← eq_doubled hpause]
    exact value_doubled hpause

/-- A request is prepared for the demo task. -/
theorem exists_posts (succeeds : ℕ → Bool) (n : ℤ) :
    ∃ request, Posts { demoTrigger with succeeds := succeeds } (demoTask (.int n)) 3 (.int n)
      request := by
  have hsettings : WellFormedSettings { demoTrigger with succeeds := succeeds } :=
    ⟨demoTrigger_settings.retries, demoTrigger_settings.backoff, demoTrigger_settings.port⟩
  have hrequest := TriggerWorld.webhookRequest_isOk { demoTrigger with succeeds := succeeds }
    (demoTask (.int n)) hsettings
  obtain ⟨request, hok⟩ := exists_of_isOk (hrequest.trans rfl)
  have hhost : (validateHost .ascii (PyText.ofString "hooks.example.org").shown).isOk = true := by
    decide +kernel
  have hsecret : PyText.ofString "key" ≠ [] := by decide
  exact ⟨request, fun h => Bool.false_ne_true h.1, rfl, hsecret, hhost, hok⟩

theorem trigger_protocol_second : ∃ request,
    (trigger demoTrigger (demoTask (.int 1))).events.filter TriggerEvent.isTraffic =
      [.post request false, .sleep (.int 1), .post request true] := by
  obtain ⟨request, hposts⟩ := exists_posts demoTrigger.succeeds 1
  exact ⟨request, ((trigger_protocol demoTrigger (demoTask (.int 1))).2 3 (.int 1) request
    hposts).1⟩

/-- With a delay below zero the first sleep raises, and there is one attempt where three are
allowed and none succeeds. -/
theorem negative_delay_stops : ¬ ∀ (w : TriggerWorld) (args : TriggerArgs) (retries : ℤ)
    (baseDelay : PyNumber) (request : TriggerRequest), Posts w args retries baseDelay request →
      (trigger w args).events.filter TriggerEvent.isTraffic =
        (Retry.script baseDelay.doubled (Retry.attempts w.succeeds retries.toNat) 0).map
          (.of request w.succeeds) := by
  intro h
  obtain ⟨request, hposts⟩ := exists_posts (fun _ => false) (-1)
  have hevents := h _ _ _ _ _ hposts
  rw [hposts.trigger_eq, traffic_of] at hevents
  have hlength := congrArg List.length hevents
  rw [List.length_map, List.length_map] at hlength
  exact absurd hlength (by decide)

end HermesA2A
