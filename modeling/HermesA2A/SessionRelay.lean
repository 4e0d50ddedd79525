import HermesA2A.A2ASpec.SendPayload
import HermesA2A.Backoff
import HermesA2A.Identity
import HermesA2A.Lib.TextSearch

/-!
# The relay of a session message

`handle_send_session_message` posts a message to the gateway of another agent, as often as it is
configured to, until a post is answered with a JSON object.

* `handleSendSessionMessage` — the tool, with all that it refuses before it posts.
* `truthful_iff` — it tells the truth exactly if it is to post at all, the gateway's first
  acceptance, if there is one, comes with a JSON object, and no sleep that comes to be needed
  is refused.

An acceptance that cannot be read is a failure for the tool, and the message is sent again.  And
where the loop is not entered, nothing was posted, and the message is reported as delivered.
-/

namespace HermesA2A

/-! ### The target -/

/-- What the tool knows beside its arguments. -/
structure SessionDirectory where
  /-- `_resolve_agent_by_name`: is there such an agent? -/
  resolves : String → Bool
  /-- `get_raw_agent_identity` -/
  rawIdentity : String → Option Fields
  /-- `_is_local_fleet_agent` -/
  isLocalFleetAgent : String → Bool
  /-- `_validate_target_url`, or the text of its exception. -/
  validateTargetUrl : String → Bool → Except String String
  /-- `_validate_webhook_reachable`: the error, if there is one. -/
  unreachable : String → ℤ → Option String
  /-- `os.environ` -/
  getenv : String → Option String
  /-- `_format_metrics_for_telegram` of the metrics. -/
  metrics : String
  lower : String → String

/-- What the tool is called with, as texts.  An absent `ref` or task id is an empty text. -/
structure SessionMessage where
  message : String
  agent : String
  action : String
  reply : String
  ref : String
  taskId : String

/-- Where a message is posted to, and the key it is signed with. -/
structure SessionTarget where
  url : String
  secret : String

/-- How a tool ends: with what it returns, or with an exception. -/
inductive ToolEnd
  | returned (fields : Fields)
  | raised (e : PyError)
  | fault (e : PyError)

/-- A computation of the tool before it posts. -/
abbrev Preparing := Except ToolEnd

/-- An exception ends the tool. -/
def Preparing.of {α : Type} : Except PyError α → Preparing α
  | .ok a => .ok a
  | .error e => .error (.raised e)

/-- A conversion that fails ends the tool. -/
def Preparing.setting {α : Type} : Except PyError α → Preparing α
  | .ok a => .ok a
  | .error e => .error (.fault e)

/-- The tool returns an error. -/
def refuse {α : Type} (error : String) : Preparing α :=
  .error (.returned [("error", .str error)])

/-- `_transport_auth_value` -/
def transportAuthValue (transport : Fields) (key : String) : Json :=
  match (transport.lookup "auth").getD (.obj []) with
  | .obj auth => ((auth.lookup key).getD (.str "")).orElse (.str "")
  | _ => .str ""

/-- `_transport` of what may be no dictionary. -/
def rawTransport (rawInfo : Option Fields) (name : String) : Preparing Fields :=
  match rawInfo with
  | some info => .of (transportOf info name)
  | none => .ok []

/-- `_validate_agent_webhook_config`: the error, if there is one. -/
def validateAgentWebhookConfig (rawInfo : Option Fields) : Preparing (Option String) := do
  let webhook ← rawTransport rawInfo "hermes_webhook"
  if (textAt webhook "url").truthy = false then
    return some "Agent has no hermes_webhook.url configured"
  else if (transportAuthValue webhook "secret").truthy = false then
    return some "Agent has no hermes_webhook.secret configured - HMAC signature required"
  else return none

namespace SessionDirectory

variable (mesh : SessionDirectory)

/-- `os.getenv(name, "false").lower() == "true"` -/
def enabled (name : String) : Bool := mesh.lower ((mesh.getenv name).getD "false") = "true"

/-- `hermes_webhook.get("url", "") or raw_info.get("webhook_url", "")` -/
def webhookUrl (webhook : Fields) (rawInfo : Option Fields) : Json :=
  (textAt webhook "url").orElse (textAt (rawInfo.getD []) "webhook_url")

/-- The checked URL, or the error. -/
def checkUrl (agent : String) (url : Json) (allowLoopback : Bool) : Preparing String := do
  -- `.strip()` of what is no text
  let url ← Preparing.of (url.asText.mapError fun _ => .attributeError)
  match mesh.validateTargetUrl url allowLoopback with
  | .ok url => return url
  | .error e => refuse ("Agent '" ++ agent ++ "' webhook URL failed SSRF check: " ++ e)

/-- The optional check that the webhook can be reached. -/
def checkReachable (agent : String) (rawInfo : Option Fields) : Preparing Unit := do
  let webhook ← rawTransport rawInfo "hermes_webhook"
  let url := webhookUrl webhook rawInfo
  if url.truthy then
    let url ← mesh.checkUrl agent url (mesh.isLocalFleetAgent agent)
    let timeout ← Preparing.setting
      (intOfText ((mesh.getenv "A2A_WEBHOOK_REACHABILITY_TIMEOUT").getD "5"))
    match mesh.unreachable url timeout with
    | some e => refuse ("Agent '" ++ agent ++ "' webhook unreachable: " ++ e)
    | none => return

/-- An agent that is not known: a command for the metrics is answered all the same. -/
def unknownAgent (m : SessionMessage) : ToolEnd :=
  if mesh.enabled "A2A_METRICS_COMMAND_ENABLED" ∧
      "/a2a_metrics".toList.isPrefixOf m.message.strip.toList then
    .returned [("state", .str "completed"), ("response", .str mesh.metrics),
      ("delivery", .str "command_response")]
  else .returned [("error", .str ("Agent '" ++ m.agent ++ "' not found in vault registry"))]

/-- The target of a message, or what ends the tool. -/
def target (m : SessionMessage) : Preparing SessionTarget := do
  if m.message = "" then refuse "'message' is required"
  if m.agent = "" then refuse "'agent' is required"
  if mesh.resolves m.agent = false then throw (mesh.unknownAgent m)
  let rawInfo := mesh.rawIdentity m.agent
  if let some e ← validateAgentWebhookConfig rawInfo then
    refuse ("Agent '" ++ m.agent ++ "' webhook configuration invalid: " ++ e)
  if mesh.enabled "A2A_WEBHOOK_REACHABILITY_CHECK" then mesh.checkReachable m.agent rawInfo
  let webhook ← rawTransport rawInfo "hermes_webhook"
  let url := webhookUrl webhook rawInfo
  if url.truthy = false then refuse ("Agent '" ++ m.agent ++ "' has no webhook_url in vault")
  let allowLoopback := mesh.isLocalFleetAgent m.agent ||
    (((rawInfo.getD []).lookup "allow_loopback").getD (.bool false)).truthy
  let url ← mesh.checkUrl m.agent url allowLoopback
  let secret := (transportAuthValue webhook "secret").orElse
    (textAt (rawInfo.getD []) "webhook_secret")
  if secret.truthy = false then refuse "Webhook delivery failed"
  -- `.encode()` of what is no text
  let secret ← Preparing.of (secret.asText.mapError fun _ => .attributeError)
  return ⟨url, secret⟩

end SessionDirectory

/-! ### The posts -/

/-- What an accepted post is answered with: a JSON object, or anything else, which raises when
it is read. -/
inductive Acknowledgement
  | object (fields : Fields)
  | unreadable (exc : String)

/-- What comes of a post. -/
inductive PostOutcome
  | refused (exc : String)
  | timedOut (exc : String)
  | accepted (ack : Acknowledgement)

namespace PostOutcome

/-- The target has the message. -/
def isAccepted : PostOutcome → Bool
  | accepted _ => true
  | _ => false

/-- The answer, if the loop goes no further for it. -/
def acknowledgement? : PostOutcome → Option Fields
  | accepted (.object fields) => some fields
  | _ => none

/-- The exception that the loop catches. -/
def exc : PostOutcome → String
  | refused exc => exc
  | timedOut exc => exc
  | accepted (.unreadable exc) => exc
  | accepted (.object _) => ""

theorem isAccepted_of_acknowledgement {o : PostOutcome} (h : o.acknowledgement?.isSome = true) :
    o.isAccepted = true := by
  cases o with
  | accepted ack => rfl
  | _ => cases h

end PostOutcome

/-- The generated identifiers: of the task, of the request and of the message. -/
structure Uuids where
  task : String
  request : String
  message : String

/-- The posts that are made, by their number, and how the tool ends. -/
structure SessionRun where
  posts : List ℕ
  result : ToolEnd

/-- The text that is posted, and shown to the sender. -/
def paddedMessage (sender : String) (m : SessionMessage) : String :=
  "[a2a][from:" ++ sender ++ "][to:" ++ m.agent ++ "][id:" ++ m.taskId ++ "][action:" ++
    m.action ++ "][reply:" ++ m.reply ++ "]" ++
    (if m.ref = "" then "" else "[ref:" ++ m.ref ++ "]") ++ " " ++ m.message

/-- The loop over the attempts: an attempt that is answered with an object is the last one. -/
def relayRun (retries : ℤ) (delay : Double) (outcomes : ℕ → PostOutcome) :
    Retry.Run PyNumber PyError :=
  Retry.run (fun i => (outcomes i).acknowledgement?.isSome) (pauseAfter (.float delay))
    retries.toNat

/-- What is returned when the loop is left.  `telegram_float.send`, which comes before, returns
nothing and does not raise. -/
def deliveredReply (sender : String) (m : SessionMessage) (uuids : Uuids) (deliveryId : Json) :
    Fields :=
  let hermes := buildHermesMetadata "session" "gateway_session" "one_way" "none" ""
  [("task_id", .str m.taskId),
    ("state", .str "completed"),
    ("status", .str "delivered"),
    ("delivery", .str "delivered"),
    ("reply_expected", .bool (m.reply = "yes")),
    ("message_id", deliveryId),
    ("agent", .str m.agent),
    ("gateway_delivery", .bool true),
    ("hermes", .obj hermes),
    ("a2a_envelope", buildTaskSendPayload {
      taskId := m.taskId
      message := m.message
      senderName := sender
      intent := "notification"
      expectedAction := "acknowledge"
      hermes := hermes
      requestId := uuids.request
      messageId := uuids.message })]

/-- The `delivery_id` of the answer that ended the loop. -/
def deliveryIdOf (run : Retry.Run PyNumber PyError) (outcomes : ℕ → PostOutcome) : Json :=
  match run.made.getLast? with
  | none => .null
  | some i =>
      (((outcomes i).acknowledgement?.getD []).lookup "delivery_id").getD (.str "unknown")

/-- The posts to a target.  After the last failure the tool returns an error; it gets past the
loop with a success, or without having entered it. -/
def relay (sender : String) (m : SessionMessage) (uuids : Uuids) (retries : ℤ) (delay : Double)
    (outcomes : ℕ → PostOutcome) : SessionRun :=
  let run := relayRun retries delay outcomes
  { posts := run.made
    result :=
      match run.ending with
      | .stopped e => .fault e
      | .exhausted =>
          if retries.toNat = 0 then .returned (deliveredReply sender m uuids .null)
          else .returned [("error", .str ("Webhook to agent '" ++ m.agent ++ "' failed after " ++
            toString retries ++ " attempts: " ++ (outcomes (retries.toNat - 1)).exc))]
      | .succeeded => .returned (deliveredReply sender m uuids (deliveryIdOf run outcomes)) }

/-- The settings of the relay.  That of the timeout is read and converted as well. -/
def relaySettings (getenv : String → Option String) : Except PyError (ℤ × Double) := do
  let retries ← intOfText ((getenv "A2A_WEBHOOK_DELIVERY_RETRIES").getD "3")
  let backoff ← floatOfText ((getenv "A2A_WEBHOOK_DELIVERY_BACKOFF").getD "1.0")
  let _timeout ← intOfText ((getenv "A2A_WEBHOOK_DELIVERY_TIMEOUT").getD "10")
  return (retries, backoff)

/-- `handle_send_session_message` -/
def handleSendSessionMessage (mesh : SessionDirectory) (m : SessionMessage) (uuids : Uuids)
    (outcomes : ℕ → PostOutcome) : SessionRun :=
  match mesh.target m with
  | .error ended => ⟨[], ended⟩
  | .ok _ =>
      match relaySettings mesh.getenv with
      | .error e => ⟨[], .fault e⟩
      | .ok (retries, delay) =>
          relay ((mesh.getenv "A2A_AGENT_NAME").getD "hermes-agent")
            { m with taskId := if m.taskId = "" then uuids.task else m.taskId }
            uuids retries delay outcomes

/-! ### The truth -/

/-- The message is reported as delivered. -/
def ReportsDelivered (result : ToolEnd) : Prop :=
  ∃ fields, result = .returned fields ∧ fields.lookup "status" = some (.str "delivered")

/-- An error is reported. -/
def ReportsError (result : ToolEnd) : Prop :=
  ∃ fields error, result = .returned fields ∧ fields.lookup "error" = some (.str error)

/-- The posts that the target accepted. -/
def SessionRun.accepted (run : SessionRun) (outcomes : ℕ → PostOutcome) : List ℕ :=
  run.posts.filter fun i => (outcomes i).isAccepted

/-- **The tool tells the truth**: the message is reported as delivered if and only if the target
accepted a post, an error is reported otherwise, and the target accepts the message once at
most. -/
structure Truthful (run : SessionRun) (outcomes : ℕ → PostOutcome) : Prop where
  delivered_iff : ReportsDelivered run.result ↔ run.accepted outcomes ≠ []
  error_of_not_accepted : run.accepted outcomes = [] → ReportsError run.result
  at_most_once : (run.accepted outcomes).length ≤ 1

/-- **What it takes**: there is an attempt to make, the first acceptance within the attempts
comes with a JSON object, and no sleep that is needed is refused. -/
structure Relayable (retries : ℤ) (delay : Double) (outcomes : ℕ → PostOutcome) : Prop where
  attempts : 1 ≤ retries
  first_acceptance : ∀ i < retries.toNat, (outcomes i).isAccepted = true →
    (∀ j < i, (outcomes j).isAccepted = false) → (outcomes i).acknowledgement?.isSome = true
  sleeps : ¬ Retry.Blocked (fun i => (outcomes i).acknowledgement?.isSome)
    (pauseAfter (.float delay)) retries.toNat

section Relay

variable {retries : ℤ} {delay : Double} {outcomes : ℕ → PostOutcome} {i : ℕ}

/-- The attempts that are made. -/
theorem mem_relayRun :
    i ∈ (relayRun retries delay outcomes).made ↔
      i < retries.toNat ∧ ∀ j < i, (outcomes j).acknowledgement?.isSome = false ∧
        ∃ d, pauseAfter (.float delay) j = .ok d :=
  Retry.mem_made_run

/-- What was not accepted was not answered with an object. -/
theorem not_acknowledged_of_not_accepted {o : PostOutcome} (h : o.isAccepted = false) :
    o.acknowledgement?.isSome = false := by
  cases o with
  | accepted ack => cases h
  | _ => rfl

/-- The first acceptance comes with an object exactly if every acceptance that is seen does. -/
theorem first_acceptance_iff
    (hsleeps : ¬ Retry.Blocked (fun i => (outcomes i).acknowledgement?.isSome)
      (pauseAfter (.float delay)) retries.toNat) :
    (∀ i < retries.toNat, (outcomes i).isAccepted = true →
      (∀ j < i, (outcomes j).isAccepted = false) →
        (outcomes i).acknowledgement?.isSome = true) ↔
      ∀ i ∈ (relayRun retries delay outcomes).made, (outcomes i).isAccepted = true →
        (outcomes i).acknowledgement?.isSome = true := by
  constructor
  · intro hfirst i hmade haccepted
    obtain ⟨hi, hbefore⟩ := mem_relayRun.mp hmade
    classical
    have hsome : ∃ k, (outcomes k).isAccepted = true := ⟨i, haccepted⟩
    have hle : Nat.find hsome ≤ i := Nat.find_min' hsome haccepted
    have hack := hfirst _ (hle.trans_lt hi) (Nat.find_spec hsome) fun j hj =>
      Bool.eq_false_iff.mpr (Nat.find_min hsome hj)
    -- nothing before the attempt was answered with an object, so it is the first one itself
    rcases hle.eq_or_lt with heq | hlt
    · rwa [heq] at hack
    · rw [(hbefore _ hlt).1] at hack
      cases hack
  · intro hseen i hi haccepted hfirst
    have hnone : ∀ j < i, (outcomes j).acknowledgement?.isSome = false :=
      fun j hj => not_acknowledged_of_not_accepted (hfirst j hj)
    refine hseen i (mem_relayRun.mpr ⟨hi, fun j hj => ⟨hnone j hj, ?_⟩⟩) haccepted
    cases hpause : pauseAfter (.float delay) j with
    | ok d => exact ⟨d, rfl⟩
    | error e =>
        exact absurd ⟨j, by omega, fun k hk => hnone k (by omega), e, hpause⟩ hsleeps

theorem eq_of_length_le_one {α : Type} {l : List α} {a b : α} (h : l.length ≤ 1) (ha : a ∈ l)
    (hb : b ∈ l) : a = b := by
  obtain ⟨i, hi, rfl⟩ := List.getElem_of_mem ha
  obtain ⟨j, hj, rfl⟩ := List.getElem_of_mem hb
  congr 1
  omega

/-- **A success**: the message was accepted once exactly if every acceptance that was seen came
with an object. -/
theorem accepted_once_iff (hmade : i ∈ (relayRun retries delay outcomes).made)
    (hack : (outcomes i).acknowledgement?.isSome = true) :
    ((relayRun retries delay outcomes).made.filter fun i => (outcomes i).isAccepted).length ≤ 1 ↔
      ∀ k ∈ (relayRun retries delay outcomes).made, (outcomes k).isAccepted = true →
        (outcomes k).acknowledgement?.isSome = true := by
  have hmem : i ∈ (relayRun retries delay outcomes).made.filter
      fun i => (outcomes i).isAccepted :=
    List.mem_filter.mpr ⟨hmade, PostOutcome.isAccepted_of_acknowledgement hack⟩
  constructor
  · intro hlength k hk haccepted
    have heq : k = i :=
      eq_of_length_le_one hlength (List.mem_filter.mpr ⟨hk, haccepted⟩) hmem
    rwa [heq]
  · intro hseen
    have hnodup : (relayRun retries delay outcomes).made.Nodup := by
      unfold relayRun
      rw [Retry.made_run]
      exact List.nodup_range
    have hsub : (relayRun retries delay outcomes).made.filter
        (fun i => (outcomes i).isAccepted) ⊆ [i] := by
      intro k hk
      obtain ⟨hkmade, haccepted⟩ := List.mem_filter.mp hk
      have hkack := hseen k hkmade haccepted
      rcases lt_trichotomy k i with hlt | rfl | hgt
      · rw [((mem_relayRun.mp hmade).2 k hlt).1] at hkack
        cases hkack
      · exact List.mem_singleton_self k
      · rw [((mem_relayRun.mp hkmade).2 i hgt).1] at hack
        cases hack
    exact ((hnodup.filter _).subperm hsub).length_le

theorem reportsDelivered_deliveredReply {sender : String} {m : SessionMessage} {uuids : Uuids}
    {deliveryId : Json} :
    ReportsDelivered (.returned (deliveredReply sender m uuids deliveryId)) :=
  ⟨_, rfl, rfl⟩

theorem not_reportsDelivered_error {error : String} :
    ¬ ReportsDelivered (.returned [("error", .str error)]) := by
  rintro ⟨fields, hfields, hstatus⟩
  obtain rfl := ToolEnd.returned.inj hfields
  cases hstatus

/-- An exception is no report. -/
theorem not_truthful_of_fault {posts : List ℕ} {e : PyError} :
    ¬ Truthful ⟨posts, .fault e⟩ outcomes := by
  intro h
  by_cases haccepted : (SessionRun.mk posts (.fault e)).accepted outcomes = []
  · obtain ⟨_, _, hreturned, -⟩ := h.error_of_not_accepted haccepted
    cases hreturned
  · obtain ⟨_, hreturned, -⟩ := h.delivered_iff.mpr haccepted
    cases hreturned

/-- **The loop.** -/
theorem relay_truthful_iff (sender : String) (m : SessionMessage) (uuids : Uuids) :
    Truthful (relay sender m uuids retries delay outcomes) outcomes ↔
      Relayable retries delay outcomes := by
  unfold relay
  dsimp only
  cases hending : (relayRun retries delay outcomes).ending with
  | stopped e =>
      refine iff_of_false not_truthful_of_fault fun h => h.sleeps ?_
      exact Retry.stopped_iff.mp ⟨e, hending⟩
  | exhausted =>
      obtain ⟨hfail, hpauses⟩ := Retry.exhausted_iff.mp hending
      dsimp only
      by_cases hnone : retries.toNat = 0
      · -- no attempt is made, and the loop is left as if one had succeeded
        have hmade : (relayRun retries delay outcomes).made = [] := by
          rw [List.eq_nil_iff_forall_not_mem]
          intro i hi
          have hlt := (mem_relayRun.mp hi).1
          omega
        rw [if_pos hnone, hmade]
        refine iff_of_false (fun h => ?_) fun h => ?_
        · exact h.delivered_iff.mp reportsDelivered_deliveredReply rfl
        · have hattempts := h.attempts
          omega
      · rw [if_neg hnone]
        have hsleeps : ¬ Retry.Blocked (fun i => (outcomes i).acknowledgement?.isSome)
            (pauseAfter (.float delay)) retries.toNat := by
          rintro ⟨i, hi, -, e, he⟩
          obtain ⟨d, hd⟩ := hpauses i hi
          rw [he] at hd
          cases hd
        constructor
        · intro h
          have hnot : ∀ i ∈ (relayRun retries delay outcomes).made,
              (outcomes i).isAccepted = true → (outcomes i).acknowledgement?.isSome = true := by
            intro i hmade haccepted
            have hsome := h.delivered_iff.mpr
              (List.ne_nil_of_mem (List.mem_filter.mpr ⟨hmade, haccepted⟩))
            exact absurd hsome not_reportsDelivered_error
          exact ⟨by omega, (first_acceptance_iff hsleeps).mpr hnot, hsleeps⟩
        · intro h
          have hseen := (first_acceptance_iff hsleeps).mp h.first_acceptance
          have hnil : (relayRun retries delay outcomes).made.filter
              (fun i => (outcomes i).isAccepted) = [] := by
            rw [List.filter_eq_nil_iff]
            intro i hmade haccepted
            have hack := hseen i hmade haccepted
            rw [hfail i (mem_relayRun.mp hmade).1] at hack
            cases hack
          refine ⟨iff_of_false not_reportsDelivered_error (not_not.mpr hnil),
            fun _ => ⟨_, _, rfl, rfl⟩, ?_⟩
          exact (congrArg List.length hnil).le.trans (Nat.zero_le 1)
  | succeeded =>
      obtain ⟨i, hmade, hack⟩ := Retry.succeeded_iff.mp hending
      have hsleeps : ¬ Retry.Blocked (fun i => (outcomes i).acknowledgement?.isSome)
          (pauseAfter (.float delay)) retries.toNat := by
        rw [← Retry.stopped_iff]
        rintro ⟨e, he⟩
        cases hending.symm.trans he
      have hne : (relayRun retries delay outcomes).made.filter
          (fun i => (outcomes i).isAccepted) ≠ [] :=
        List.ne_nil_of_mem
          (List.mem_filter.mpr ⟨hmade, PostOutcome.isAccepted_of_acknowledgement hack⟩)
      dsimp only
      constructor
      · intro h
        have hlt := (mem_relayRun.mp hmade).1
        exact ⟨by omega, (first_acceptance_iff hsleeps).mpr
          ((accepted_once_iff hmade hack).mp h.at_most_once), hsleeps⟩
      · intro h
        exact ⟨iff_of_true reportsDelivered_deliveredReply hne, fun hnil => absurd hnil hne,
          (accepted_once_iff hmade hack).mpr
            ((first_acceptance_iff hsleeps).mp h.first_acceptance)⟩

end Relay

/-- **The relay tells the truth exactly if it can read what it is told.** -/
theorem truthful_iff (mesh : SessionDirectory) (m : SessionMessage) (uuids : Uuids)
    (outcomes : ℕ → PostOutcome) {target : SessionTarget} {retries : ℤ} {delay : Double}
    (htarget : mesh.target m = .ok target)
    (hsettings : relaySettings mesh.getenv = .ok (retries, delay)) :
    Truthful (handleSendSessionMessage mesh m uuids outcomes) outcomes ↔
      Relayable retries delay outcomes := by
  unfold handleSendSessionMessage
  rw [htarget, hsettings]
  exact relay_truthful_iff _ _ _

/-- One agent, and nothing in the environment. -/
def demoMesh : SessionDirectory where
  resolves _ := true
  rawIdentity _ := some [("transports", .obj [("hermes_webhook", .obj [
    ("url", .str "https://peer/hook"), ("auth", .obj [("secret", .str "key")])])])]
  isLocalFleetAgent _ := false
  validateTargetUrl url _ := .ok url
  unreachable _ _ := none
  getenv _ := none
  metrics := ""
  lower := id

def demoMessage : SessionMessage := ⟨"hello", "peer", "do", "yes", "", "task-1"⟩

theorem target_demoMesh : demoMesh.target demoMessage = .ok ⟨"https://peer/hook", "key"⟩ := rfl

theorem relaySettings_demoMesh : relaySettings demoMesh.getenv = .ok (3, .round 1) := by
  decide +kernel

theorem truthful_accepted :
    Truthful (handleSendSessionMessage demoMesh demoMessage ⟨"", "r", "m"⟩
      fun _ => .accepted (.object [])) fun _ => .accepted (.object []) :=
  (truthful_iff demoMesh demoMessage ⟨"", "r", "m"⟩ (fun _ => .accepted (.object []))
    target_demoMesh relaySettings_demoMesh).mpr
    ⟨by decide, fun _ _ _ _ => rfl, fun ⟨_, _, hnone, _⟩ => absurd (hnone 0 (Nat.zero_le _)) nofun⟩

/-- A gateway that accepts a message without a JSON object is told of as if it had not. -/
theorem unreadable_untruthful : ¬ ∀ outcomes : ℕ → PostOutcome,
    Truthful (handleSendSessionMessage demoMesh demoMessage ⟨"", "r", "m"⟩ outcomes) outcomes := by
  intro h
  have htruthful := h fun _ => .accepted (.unreadable "Expecting value")
  unfold handleSendSessionMessage at htruthful
  rw [target_demoMesh, relaySettings_demoMesh] at htruthful
  have hack := ((relay_truthful_iff _ _ _).mp htruthful).first_acceptance 0 (by decide) rfl
    (fun j hj => absurd hj (Nat.not_lt_zero j))
  cases hack

end HermesA2A
