import HermesA2A.Subscribers
import HermesA2A.Responses

/-!
# One response for every POST

`Responses` has what is counted and the rules; here are the handlers.  A REST handler
answers once unless it raises (`AnswersUnless`), and then nobody answers.  `_do_json_rpc`
answers whatever is raised, but a message that is turned away is answered twice
(`RpcAnswered`).

One way to raise is in the programs and in no run: the response of a task is read twice,
and the second time it might be gone.  It never is (`not_vanishes`).
-/

namespace HermesA2A

/-! ### The inbound path, on the server -/

theorem onServer_yields (o : Op) :
    (onServer o).Yields AnswersWell (fun _ _ => True)
      fun h r => o.AnswersWell r ∧ inbound h = [⟨o, r⟩] := by
  cases o with
  | stateHook t oldState newState contextId =>
      refine ⟨trivial, fun u _ => ?_⟩
      have honly : Only ServerOp.isOutward (pushSse t ⟨t, newState.name,
          eventNameForState newState.name, none, contextId.orElse t, .status⟩ >>= fun _ =>
            pushNotifications t newState (contextId.orElse t)) :=
        (pushSse_only ..).bind fun _ => pushNotifications_only ..
      refine honly.yields.mono (fun _ _ => id) fun h u' houtward => ⟨⟨trivial, trivial⟩, ?_⟩
      change _ :: inbound h = _
      rw [inbound_of_outward houtward]
  | _ => exact ⟨trivial, fun r hr => ⟨hr, rfl⟩⟩

theorem lift_yields {α : Type} {p : Proc α} {ends : List Event → α → Prop}
    (h : p.Yields Op.AnswersWell (fun _ _ => True) ends) :
    (lift p).Yields AnswersWell (fun _ _ => True)
      fun h a => ends (inbound h) a ∧ responses h = 0 := by
  have hexpand := Prog.Yields.expand inbound? onServer_yields h
  exact (hexpand.and (lift_only p).yields).mono (fun _ _ => id) fun h a hend =>
    ⟨hend.1, responses_of_mute hend.2⟩

/-- How `_enqueue_and_await_task` leaves the server. -/
structure AwaitLeaves (P : Platform) (message : SendRequest) (s : Submission)
    (h : List ServerEvent) (result : Except PyError Awaited) : Prop where
  silent : responses h = 0
  ends : AwaitEnds P message s (inbound h) result
  byKey : ∀ e ∈ inbound h, e.op.AnswersByKey e.res
  clean : ∀ awaited, result = .ok awaited → awaited.IsClean

theorem enqueueAndAwaitTask_leaves {P : Platform} {transport : Transport} {message : SendRequest}
    {s : Submission} (hplan : planSend P.table transport message = .ok (.submit s)) :
    Leaves (attempt (lift (enqueueAndAwaitTask P s.markOrigin message.stamp)))
      (AwaitLeaves P message s.markOrigin) := by
  have hsubmits : (Call.sendMessage transport message).Submits P transport message s.markOrigin :=
    ⟨rfl, s, hplan, rfl⟩
  have hends : (enqueueAndAwaitTask P s.markOrigin message.stamp).Yields Op.AnswersWell
      (fun _ _ => True) (AwaitEnds P message s.markOrigin) :=
    (enqueueAndAwaitTask_meets hsubmits).yields.mono (fun _ _ _ => trivial) fun _ _ => id
  have hrelies : (enqueueAndAwaitTask P s.markOrigin message.stamp).Relies Op.AnswersWell
      (Rights.AllowsBase ⟨True, True, True, fun _ => True⟩)
      fun result => ∀ awaited, result = .ok awaited → awaited.IsClean :=
    Prog.Relies.relax (fun o r h => h.1) (enqueueAndAwaitTask_relies trivial P _ _)
  refine (lift_yields (hends.and hrelies.yields)).mono (fun _ _ => id) fun h result hend => ?_
  obtain ⟨⟨hends, hevents, hclean⟩, hsilent⟩ := hend
  exact ⟨hsilent, hends, fun e he => (hevents e he).2.2, hclean⟩

theorem AwaitLeaves.any_unhashed {P : Platform} {message : SendRequest} {s : Submission}
    {h : List ServerEvent} {result : Except PyError Awaited}
    (hleaves : AwaitLeaves P message s h result) :
    (inbound h).any unhashed = (inbound h).any raises := by
  rw [Bool.eq_iff_iff, List.any_eq_true, List.any_eq_true]
  refine exists_congr fun e => and_congr_right fun he => ?_
  rw [raises_eq_unhashed (hleaves.byKey e he)]

/-! ### The parts of a REST request -/

/-- A REST handler answers once, unless it raises; it raises where `fault` says, or where
a response has vanished. -/
def AnswersUnless (fault : List Event → Prop) (h : List ServerEvent) : Except PyError Unit → Prop
  | .ok _ => responses h = 1 ∧ ¬ fault (inbound h)
  | .error _ => responses h = 0 ∧ (fault (inbound h) ∨ Vanishes (inbound h))

/-- The last step of a handler is its response. -/
theorem leaves_send {response : HttpResponse} {ends : List ServerEvent → Except PyError Unit → Prop}
    (h : ends [⟨.send response, ()⟩] (.ok ())) : Leaves (call (.send response)) ends :=
  leaves_call fun _ _ => h

/-- The body of a request that gets that far. -/
def HttpRequest.admitted? (site : Site) (req : HttpRequest) : Option Json :=
  match checkAuth site req, limiterAllow site req, req.contentLength with
  | .ok true, .ok none, some length => if length ≤ 0 ∨ length > 65536 then none else req.body
  | _, _, _ => none

section Handlers

variable (site : Site) (req : HttpRequest)

/-- What `readBody` leaves behind. -/
def ReadLeaves (h : List ServerEvent) (r : Except PyError (Option Json)) : Prop :=
  inbound h = [] ∧
    match r with
    | .error _ => responses h = 0 ∧ req.BreaksOff site
    | .ok body => body = req.admitted? site ∧ ¬ req.BreaksOff site ∧
        responses h = if body.isSome then 0 else 1

/-- The handler has sent one response and done nothing else. -/
def Declines (h : List ServerEvent) (r : Except PyError Unit) : Prop :=
  r = .ok () ∧ responses h = 1 ∧ inbound h = []

theorem declines_send (response : HttpResponse) : Leaves (call (.send response)) Declines :=
  leaves_send ⟨rfl, rfl, rfl⟩

/-- **Whatever is not admitted has been answered**, unless comparing the token or asking the
limiter has raised. -/
theorem readBody_leaves {unauthorized : Handler Unit} {badLength : ℤ → ℕ → Handler Unit}
    (hunauthorized : Leaves unauthorized Declines)
    (hbadLength : ∀ length status, Leaves (badLength length status) Declines) :
    Leaves (readBody site req unauthorized badLength) (ReadLeaves site req) := by
  have hdecline : ∀ {p : Handler Unit}, Leaves p Declines → ¬ req.BreaksOff site →
      req.admitted? site = none → Leaves (p >>= fun _ => pure none) (ReadLeaves site req) := by
    intro p hp hwhole hadmitted
    refine hp.bind (fun h u hdeclines => ?_) fun h e hdeclines => nomatch hdeclines.1
    obtain ⟨-, hone, hinbound⟩ := hdeclines
    refine leaves_pure ?_
    rw [List.append_nil]
    exact ⟨hinbound, hadmitted.symm, hwhole, hone⟩
  have hcompare := checkAuth_isOk site req
  refine leaves_compute_bind (fun authorised hauth => ?_) fun e hauth => ?_
  · rw [hauth, isOk_ok, eq_comm, Bool.not_eq_true'] at hcompare
    have hcomparable : ¬ req.incomparable site = true := by
      rw [hcompare]
      exact Bool.false_ne_true
    split_ifs with hauthorised
    · refine hdecline hunauthorized ?_ ?_
      · rintro (hincomparable | ⟨hlet, -⟩)
        · exact hcomparable hincomparable
        · rw [hauth, hauthorised] at hlet
          cases hlet
      · rw [HttpRequest.admitted?, hauth, hauthorised]
    rw [Bool.not_eq_false] at hauthorised
    subst hauthorised
    have hraises := limiterAllow_isOk_iff site req
    refine leaves_compute_bind (fun limited hlimited => ?_) fun e hlimited => ?_
    · rw [hlimited, isOk_ok, iff_true_left rfl] at hraises
      have hwhole : ¬ req.BreaksOff site := not_or.mpr ⟨hcomparable, fun h => hraises h.2⟩
      cases limited with
      | some retryAfter =>
          refine hdecline (declines_send _) hwhole ?_
          rw [HttpRequest.admitted?, hauth, hlimited]
      | none =>
          cases hlength : req.contentLength with
          | none =>
              refine hdecline (declines_send _) hwhole ?_
              rw [HttpRequest.admitted?, hauth, hlimited, hlength]
          | some length =>
              have hadmitted : req.admitted? site =
                  if length ≤ 0 ∨ length > 65536 then none else req.body := by
                rw [HttpRequest.admitted?, hauth, hlimited, hlength]
              dsimp only
              by_cases hbad : length ≤ 0 ∨ length > 65536
              · rw [if_pos hbad]
                exact hdecline (hbadLength _ _) hwhole (hadmitted.trans (if_pos hbad))
              · rw [if_neg hbad] at hadmitted ⊢
                cases hbody : req.body with
                | none => exact hdecline (declines_send _) hwhole (hadmitted.trans hbody)
                | some body => exact leaves_pure ⟨rfl, (hadmitted.trans hbody).symm, hwhole, rfl⟩
    · rw [hlimited, isOk_error, iff_comm, not_iff_comm] at hraises
      exact ⟨rfl, rfl, Or.inr ⟨hauth, hraises.mp Bool.false_ne_true⟩⟩
  · rw [hauth, isOk_error, eq_comm, Bool.not_eq_false'] at hcompare
    exact ⟨rfl, rfl, Or.inl hcompare⟩

/-- What makes a POST go wrong before its handler is reached or in it. -/
def RestFault (fault : Json → List Event → Prop) (h : List Event) : Prop :=
  req.BreaksOff site ∨ ∃ body, req.admitted? site = some body ∧ fault body h

theorem doRestPost_leaves {handler : Json → Handler Unit} {fault : Json → List Event → Prop}
    (hhandler : ∀ body, Leaves (handler body) (AnswersUnless (fault body))) :
    Leaves (doRestPost site req handler) (AnswersUnless (RestFault site req fault)) := by
  refine (readBody_leaves site req (declines_send _) fun _ _ => declines_send _).bind ?_ ?_
  · rintro h (_ | body) ⟨hinbound, hadmitted, hwhole, hcount⟩
    · refine leaves_pure ⟨by simpa using hcount, ?_⟩
      rintro (hbreaks | ⟨body, hbody, -⟩)
      · exact hwhole hbreaks
      · cases hadmitted.trans hbody
    · refine (hhandler body).mono fun h' r hend => ?_
      have hfault : RestFault site req fault (inbound (h ++ h')) ↔ fault body (inbound h') := by
        rw [inbound_append, hinbound, List.nil_append]
        constructor
        · rintro (hbreaks | ⟨body', hbody', hfault⟩)
          · exact absurd hbreaks hwhole
          · obtain rfl := Option.some.inj (hadmitted.trans hbody')
            exact hfault
        · exact fun hfault => Or.inr ⟨body, hadmitted.symm, hfault⟩
      have hnone : responses (h ++ h') = responses h' := by
        rw [responses_append, hcount]
        exact Nat.zero_add _
      cases r with
      | ok u =>
          obtain ⟨hone, hnot⟩ := hend
          exact ⟨hnone.trans hone, fun h => hnot (hfault.mp h)⟩
      | error e =>
          obtain ⟨hzero, hwrong⟩ := hend
          refine ⟨hnone.trans hzero, ?_⟩
          rw [hfault, inbound_append, hinbound, List.nil_append]
          exact hwrong
  · rintro h e ⟨-, hzero, hbreaks⟩
    exact ⟨hzero, Or.inl (Or.inl hbreaks)⟩

/-! ### Tasks -/

/-- The step has found the task. -/
def knows (t : TaskId) : Event → Bool
  | ⟨.getStatus t', .ok status⟩ => t' = t && status.state.isSome
  | _ => false

/-- What a handler leaves behind that looks for a task, and answers if there is none or
nothing to be done. -/
def LoadLeaves {α : Type} (t : TaskId) (h : List ServerEvent) : Except PyError (Option α) → Prop
  | .error _ => responses h = 0 ∧ t.hashable = false
  | .ok found => responses h = (if found.isSome then 0 else 1)

omit site req in
theorem loadTaskOr404_leaves (t : TaskId) (rpcId : Json) :
    Leaves (loadTaskOr404 t rpcId) fun h r => LoadLeaves t h r ∧
      ∀ found, r = .ok found → (inbound h).any (knows t) = found.isSome := by
  refine ⟨trivial, ?_⟩
  rintro (e | status) hanswer
  · exact ⟨⟨rfl, hanswer.2.symm⟩, nofun⟩
  change Leaves (if status.state = none then _ else _) _
  by_cases hstate : status.state = none
  · rw [if_pos hstate]
    refine leaves_call_bind fun _ _ => leaves_pure ⟨rfl, fun found hfound => ?_⟩
    obtain rfl := Except.ok.inj hfound
    simp [inbound, inbound?, knows, hstate]
  · rw [if_neg hstate]
    refine leaves_pure ⟨rfl, fun found hfound => ?_⟩
    obtain rfl := Except.ok.inj hfound
    simp [inbound, inbound?, knows, Option.isSome_iff_ne_none, hstate]

omit site req in
theorem getTaskCore_leaves (t : TaskId) (rpcId : Json) (stamp : Stamp) :
    Leaves (getTaskCore t rpcId stamp) (LoadLeaves t) := by
  refine (loadTaskOr404_leaves t rpcId).bind ?_ fun h e hend => hend.1
  rintro h (_ | status) ⟨hcount, -⟩
  · refine leaves_pure ?_
    rw [List.append_nil]
    exact hcount
  · refine leaves_pure ?_
    rw [List.append_nil]
    exact hcount

omit site req in
theorem cancelTaskCore_leaves (t : TaskId) (rpcId : Json) (stamp : Stamp) :
    Leaves (cancelTaskCore t rpcId stamp) (LoadLeaves t) := by
  refine (loadTaskOr404_leaves t rpcId).bind ?_ fun h e hend => hend.1
  rintro h (_ | status) ⟨hcount, -⟩
  · refine leaves_pure ?_
    rw [List.append_nil]
    exact hcount
  · dsimp only
    have hzero : responses h = 0 := hcount
    split_ifs
    · refine leaves_call_bind fun _ _ => leaves_pure ?_
      change responses (h ++ _) = 1
      rw [responses_append, hzero]
      rfl
    · refine leaves_call_bind fun _ _ => leaves_pure ?_
      change responses (h ++ _) = 0
      rw [responses_append, hzero]
      rfl

/-! ### The REST handlers -/

omit site in
theorem restCancelTask_leaves (t : String) :
    Leaves (restCancelTask req t) (AnswersUnless fun _ => False) := by
  refine (cancelTaskCore_leaves (.str t) .null (req.stamps 0)).bind ?_ ?_
  · rintro h (_ | task) hcount
    · refine leaves_pure ⟨?_, id⟩
      rw [List.append_nil]
      exact hcount
    · refine leaves_send ⟨?_, id⟩
      rw [responses_append, show responses h = 0 from hcount]
      rfl
  · rintro h e ⟨-, hunhashable⟩
    cases hunhashable

/-- A body that `_rest_create_push_config` gets to and cannot read. -/
def ConfigFault (t : String) (body : Json) (h : List Event) : Prop :=
  h.any (knows (.str t)) = true ∧ readableConfig body = false

theorem checkHmacPush_leaves :
    Leaves (checkHmacPush site req) fun h r => inbound h = [] ∧
      ∃ admitted, r = .ok admitted ∧ responses h = if admitted then 0 else 1 := by
  unfold checkHmacPush
  split_ifs
  · exact leaves_pure ⟨rfl, true, rfl, rfl⟩
  · exact leaves_pure ⟨rfl, true, rfl, rfl⟩
  · exact leaves_call_bind fun _ _ => leaves_pure ⟨rfl, false, rfl, rfl⟩

/-- `_rest_create_push_config`, once the task is found. -/
theorem createConfig_leaves (t : String) (body : Json) :
    Leaves
      (do
        let url ← compute (body.get "url" (.str ""))
        let hmacKey ← compute (body.get "hmacKey" (.str ""))
        let other ← compute (body.get "hmac_key" (.str ""))
        if url.truthy = false then sendJson 400 (bareError (-32600) "url is required")
        else if (hmacKey.orElse other).truthy = false then
          sendJson 400 (bareError (-32600) "hmacKey is required")
        else do
          let authentication ← compute (authenticationOf body)
          let metadata ← compute (body.get "metadata" .null)
          let config : PushConfig := ⟨req.configId, t, url, authentication, metadata⟩
          call (.createPushConfig config)
          sendJson 201 (configResponse config))
      fun h r => inbound h = [] ∧ r.isOk = readableConfig body ∧
        responses h = if r.isOk then 1 else 0 := by
  cases body with
  | obj fields =>
      change Leaves (if ((fields.lookup "url").getD (.str "")).truthy = false then _
        else if (configKey fields).truthy = false then _ else _) _
      split_ifs with hurl hkey
      · exact leaves_send ⟨rfl, by simp [readableConfig, hurl], rfl⟩
      · exact leaves_send ⟨rfl, by simp [readableConfig, hkey], rfl⟩
      · rw [Bool.not_eq_false] at hurl hkey
        rw [readableConfig_obj hurl hkey]
        refine leaves_compute_bind (fun authentication hauth => ?_) fun e hauth => ?_
        · rw [hauth]
          exact leaves_call_bind fun _ _ => leaves_send ⟨rfl, rfl, rfl⟩
        · rw [hauth]
          exact ⟨rfl, rfl, rfl⟩
  | _ => exact ⟨rfl, rfl, rfl⟩

theorem restCreatePushConfig_leaves (t : String) (body : Json) :
    Leaves (restCreatePushConfig site req t body) (AnswersUnless (ConfigFault t body)) := by
  refine (checkHmacPush_leaves site req).bind ?_ ?_
  swap
  · rintro h e ⟨-, admitted, hadmitted, -⟩
    cases hadmitted
  rintro h₁ admitted ⟨hinbound₁, admitted', hadmitted, hcount₁⟩
  obtain rfl := Except.ok.inj hadmitted
  cases admitted with
  | false =>
      refine leaves_pure ⟨by simpa using hcount₁, ?_⟩
      rintro ⟨hknows, -⟩
      rw [List.append_nil, hinbound₁] at hknows
      cases hknows
  | true =>
  have hcount₁ : responses h₁ = 0 := hcount₁
  refine (loadTaskOr404_leaves (.str t) .null).bind ?_ ?_
  swap
  · rintro h e ⟨⟨-, hunhashable⟩, -⟩
    cases hunhashable
  rintro h₂ (_ | status) ⟨hcount₂, hknows₂⟩
  · have hcount₂ : responses h₂ = 1 := hcount₂
    refine leaves_pure ⟨by simp [hcount₁, hcount₂], ?_⟩
    rintro ⟨hknows, -⟩
    rw [List.append_nil, inbound_append, hinbound₁, List.nil_append, hknows₂ _ rfl] at hknows
    cases hknows
  · have hcount₂ : responses h₂ = 0 := hcount₂
    refine (createConfig_leaves req t body).mono fun h r hend => ?_
    obtain ⟨hinbound, hok, hcount⟩ := hend
    have htotal : responses (h₁ ++ (h₂ ++ h)) = responses h := by
      simp [hcount₁, hcount₂]
    have hknows : (inbound (h₁ ++ (h₂ ++ h))).any (knows (.str t)) = true := by
      simpa [hinbound₁, hinbound] using hknows₂ _ rfl
    cases r with
    | ok u =>
        refine ⟨htotal.trans hcount, fun hfault => ?_⟩
        exact Bool.noConfusion (hok.trans hfault.2)
    | error e => exact ⟨htotal.trans hcount, Or.inl ⟨hknows, hok.symm⟩⟩

/-- A message that cannot be read, or an id or a key that cannot be looked up. -/
def SendFault (body : Json) (h : List Event) : Prop :=
  readableMessage body = false ∨ h.any unhashed = true

theorem restSendMessage_leaves (body : Json) :
    Leaves (restSendMessage site req body) (AnswersUnless (SendFault body)) := by
  have hreadable := planRestSend_isOk site.platform.table (req.message body .null)
  refine leaves_compute_bind (fun plan hplan => ?_) fun e hplan => ?_
  swap
  · rw [hplan, isOk_error, eq_comm] at hreadable
    exact ⟨rfl, Or.inl (Or.inl hreadable)⟩
  rw [hplan, isOk_ok, eq_comm] at hreadable
  have hnot : ∀ {h}, h.any unhashed = false → ¬ SendFault body h := by
    rintro h hany (hunreadable | hunhashed)
    · exact Bool.noConfusion (hreadable.symm.trans hunreadable)
    · exact Bool.noConfusion (hunhashed.symm.trans hany)
  cases plan with
  | answer exit task => exact leaves_send ⟨rfl, hnot rfl⟩
  | submit s =>
      refine (@enqueueAndAwaitTask_leaves _ .rest _ _ hplan).bind ?_ ?_
      · intro h awaited hleaves
        have hsend : ∀ response, Leaves (call (.send response)) fun h' r =>
            AnswersUnless (SendFault body) (h ++ h') r := by
          refine fun response => leaves_send ⟨?_, hnot ?_⟩
          · rw [responses_append, hleaves.silent]
            rfl
          · rw [inbound_append]
            change (inbound h ++ []).any unhashed = false
            rw [List.append_nil, hleaves.any_unhashed, hleaves.ends.not_raises]
        cases awaited with
        | refused error => exact hsend error
        | timedOut => exact hsend _
        | answered result =>
            have hstorable : Storable result := hleaves.clean _ rfl
            refine leaves_compute_bind (fun text _ => hsend _) fun e hget => ?_
            cases hstorable.get_response.symm.trans hget
      · intro h e hleaves
        refine ⟨hleaves.silent, ?_⟩
        rw [SendFault, hleaves.any_unhashed]
        rcases hleaves.ends.raises_of_error with hraises | hvanishes
        · exact Or.inl (Or.inr hraises)
        · exact Or.inr hvanishes

/-! ### The JSON-RPC methods -/

/-- How many responses a method sends beside its result. -/
def RpcMethod.superfluous (h : List Event) : RpcMethod → ℕ
  | sendMessage => (h.any refuses).toNat
  | _ => 0

/-- What a method leaves behind that does not stream. -/
def RpcLeaves (m : RpcMethod) (h : List ServerEvent) : Except PyError RpcResult → Prop
  | .ok .handled => responses h = 1 ∧ m.superfluous (inbound h) = 0
  | .ok (.result _) => responses h = m.superfluous (inbound h)
  | .error _ => responses h = 0 ∧ m.superfluous (inbound h) = 0

/-- Waiting for a worker is no part of the inbound path, but for the clock. -/
theorem awaitWorker_leaves (message : SendRequest) :
    Leaves (awaitWorker site req message) fun h r => r = .ok () ∧ responses h = 0 ∧
      (inbound h).any refuses = false := by
  unfold awaitWorker
  cases req.workerWait? site message with
  | none => exact leaves_pure ⟨rfl, rfl, rfl⟩
  | some seconds => exact leaves_call_bind fun _ _ => leaves_call fun _ _ => ⟨rfl, rfl, rfl⟩

omit site req in
/-- What is done before, and neither answers nor refuses, does not count. -/
theorem RpcLeaves.after {h₀ h : List ServerEvent} {r : Except PyError RpcResult}
    (hnone : responses h₀ = 0) (hrefuses : (inbound h₀).any refuses = false)
    (hleaves : RpcLeaves .sendMessage h r) : RpcLeaves .sendMessage (h₀ ++ h) r := by
  have hcount : responses (h₀ ++ h) = responses h := by
    rw [responses_append, hnone, Nat.zero_add]
  have hsuperfluous : RpcMethod.sendMessage.superfluous (inbound (h₀ ++ h)) =
      RpcMethod.sendMessage.superfluous (inbound h) := by
    rw [RpcMethod.superfluous, inbound_append, List.any_append, hrefuses, Bool.false_or]
    rfl
  rcases r with e | (_ | j)
  · exact ⟨hcount.trans hleaves.1, hsuperfluous.trans hleaves.2⟩
  · exact ⟨hcount.trans hleaves.1, hsuperfluous.trans hleaves.2⟩
  · exact hcount.trans (Eq.trans hleaves hsuperfluous.symm)

/-- **A refusal is sent, and then the result all the same.** -/
theorem handleTaskSend_leaves (params rpcId : Json) :
    Leaves (handleTaskSend site req params rpcId) fun h r =>
      RpcLeaves .sendMessage h (r.map RpcResult.result) := by
  refine (awaitWorker_leaves site req _).bind ?_ fun h e hend => nomatch hend.1
  rintro h₀ - ⟨-, hnone, hrefuses⟩
  refine Leaves.mono ?_ fun h r hend => RpcLeaves.after hnone hrefuses hend
  refine leaves_compute_bind (fun plan hplan => ?_) fun e hplan => ⟨rfl, rfl⟩
  cases plan with
  | answer exit task => exact leaves_pure rfl
  | submit s =>
      refine (@enqueueAndAwaitTask_leaves _ .jsonRpc _ _ hplan).bind ?_ ?_
      · intro h awaited hleaves
        have hrefuses := hleaves.ends.refuses_eq
        cases awaited with
        | refused error =>
            refine leaves_call_bind fun _ _ => leaves_pure ?_
            change responses (h ++ _) = ((inbound (h ++ _)).any refuses).toNat
            rw [responses_append, inbound_append, List.any_append, hrefuses, hleaves.silent]
            rfl
        | timedOut =>
            refine leaves_pure ?_
            change responses (h ++ []) = ((inbound (h ++ [])).any refuses).toNat
            rw [List.append_nil, hrefuses, hleaves.silent]
            rfl
        | answered result =>
            -- the deliveries reach streams and subscribers only
            refine (leaves_outward (streamArtifacts_only ..)).bind ?_ fun _ _ h => nomatch h.1
            rintro h₁ - ⟨-, hnone₁, hinbound₁⟩
            refine (leaves_outward (pushArtifacts_only ..)).bind ?_ fun _ _ h => nomatch h.1
            rintro h₂ - ⟨-, hnone₂, hinbound₂⟩
            refine leaves_pure ?_
            change responses (h ++ (h₁ ++ (h₂ ++ []))) =
              ((inbound (h ++ (h₁ ++ (h₂ ++ [])))).any refuses).toNat
            simp [hnone₁, hnone₂, hinbound₁, hinbound₂, hrefuses, hleaves.silent]
      · intro h e hleaves
        have hrefuses := hleaves.ends.refuses_eq
        exact ⟨hleaves.silent, by rw [RpcMethod.superfluous, hrefuses]; rfl⟩

theorem rpcSendMessage_leaves (params rpcId : Json) :
    Leaves (rpcSendMessage site req params rpcId) (RpcLeaves .sendMessage) := by
  refine (handleTaskSend_leaves site req params rpcId).bind ?_ fun h e hend => hend
  intro h task hcount
  refine leaves_pure ?_
  rw [List.append_nil]
  exact hcount

omit site in
theorem rpcGetTask_leaves (params rpcId : Json) :
    Leaves (rpcGetTask req params rpcId) (RpcLeaves .getTask) := by
  refine leaves_compute_bind (fun t _ => ?_) fun e _ => ⟨rfl, rfl⟩
  refine (getTaskCore_leaves t rpcId (req.stamps 0)).bind ?_ fun h e hend => ⟨hend.1, rfl⟩
  rintro h (_ | task) hcount
  · refine leaves_pure ⟨?_, rfl⟩
    rw [List.append_nil]
    exact hcount
  · refine (leaves_mute (emitGetTaskArtifacts_only t task)).bind ?_ fun _ _ h => nomatch h.1
    rintro h' - ⟨-, hnone⟩
    refine leaves_pure ?_
    change responses (h ++ (h' ++ [])) = 0
    simp [hnone, show responses h = 0 from hcount]

omit site in
theorem rpcCancelTask_leaves (params rpcId : Json) :
    Leaves (rpcCancelTask req params rpcId) (RpcLeaves .cancelTask) := by
  refine leaves_compute_bind (fun t _ => ?_) fun e _ => ⟨rfl, rfl⟩
  refine (cancelTaskCore_leaves t rpcId (req.stamps 0)).bind ?_ fun h e hend => ⟨hend.1, rfl⟩
  rintro h (_ | task) hcount
  · refine leaves_pure ⟨?_, rfl⟩
    rw [List.append_nil]
    exact hcount
  · refine leaves_pure ?_
    change responses (h ++ []) = 0
    rw [List.append_nil]
    exact hcount

/-- A handler that streams, or answers once unless it raises. -/
def StreamsOrAnswers (h : List ServerEvent) (r : Except PyError Unit) : Prop :=
  Streams h ∨ responses h = if r.isOk then 1 else 0

theorem streamTaskSse_leaves (t : TaskId) : Leaves (streamTaskSse site req t) StreamsOrAnswers := by
  refine ⟨trivial, ?_⟩
  rintro (e | status) -
  · exact Or.inr rfl
  change Leaves (if status.state = none then _ else _) _
  by_cases hstate : status.state = none
  · rw [if_pos hstate]
    exact leaves_send (Or.inr rfl)
  rw [if_neg hstate]
  -- only the opening of the stream can fail before the head is sent
  refine ⟨trivial, ?_⟩
  rintro (e | id) -
  · exact Or.inr rfl
  · refine ⟨trivial, fun u _ => ?_⟩
    exact (leaves_trivial _).mono fun h r _ => Or.inl (by simp [Streams, startsStream])

theorem rpcSubscribeToTask_leaves (params rpcId : Json) :
    Leaves (rpcSubscribeToTask site req params rpcId) fun h r =>
      Streams h ∨ RpcLeaves .subscribeToTask h r := by
  have hsubscribe : Leaves (handleSendSubscribe site req params rpcId) StreamsOrAnswers := by
    refine leaves_compute_bind (fun t _ => ?_) fun e _ => Or.inr rfl
    by_cases htruthy : t.truthy = false
    · rw [if_pos htruthy]
      exact leaves_send (Or.inr rfl)
    rw [if_neg htruthy]
    refine ⟨trivial, ?_⟩
    rintro (e | status) -
    · exact Or.inr rfl
    change Leaves (if status.state = none then _ else _) _
    split_ifs
    · exact leaves_send (Or.inr rfl)
    · refine (streamTaskSse_leaves site req t).mono fun h r hend => ?_
      exact hend.imp (fun hs => @Streams.append_right [_] h hs) id
  refine hsubscribe.bind (fun h u hend => leaves_pure ?_) fun h e hend => hend.imp id ?_
  · rw [List.append_nil]
    exact hend.imp id fun hone => ⟨hone, rfl⟩
  · exact fun hnone => ⟨hnone, rfl⟩

omit site req in
theorem listItems_leaves (page : List (Time × PendingTask × Option TaskState))
    (stamps : ℕ → Stamp) : Leaves (listItems page stamps) fun h _ => responses h = 0 := by
  induction page generalizing stamps with
  | nil => exact leaves_pure rfl
  | cons entry page ih =>
      obtain ⟨createdAt, task, state⟩ := entry
      have hrest : ∀ filtered : Option String, Leaves
          (do
            let items ← listItems page fun n => stamps (n + 1)
            pure (buildTaskObject task.taskId ((state.map TaskState.name).getD "unknown")
              task.contextId filtered (some task.createdAt) (stamps 0) :: items))
          fun h _ => responses h = 0 := by
        refine fun filtered =>
          (ih _).bind (fun h items hnone => leaves_pure ?_) fun h e hnone => hnone
        rwa [List.append_nil]
      refine leaves_call_bind fun first _ => ?_
      cases nonEmpty? first with
      | none => exact hrest none
      | some _ =>
          refine leaves_call_bind fun response _ => ?_
          cases response with
          | none => exact leaves_compute (x := .error .typeError) rfl
          | some response => exact hrest _

theorem rpcListTasks_leaves (params : Json) :
    Leaves (rpcListTasks site req params) (RpcLeaves .listTasks) := by
  refine leaves_compute_bind (fun size _ => ?_) fun e _ => ⟨rfl, rfl⟩
  refine leaves_compute_bind (fun size _ => ?_) fun e _ => ⟨rfl, rfl⟩
  refine leaves_compute_bind (fun token _ => ?_) fun e _ => ⟨rfl, rfl⟩
  have hpage : Leaves (buildPaginatedTaskList site (clampPageSize size) token req.stamps)
      fun h _ => responses h = 0 := by
    refine leaves_call_bind fun snapshot _ => (listItems_leaves _ _).bind ?_ fun h e hnone => hnone
    intro h items hnone
    refine leaves_pure ?_
    rwa [List.append_nil]
  refine hpage.bind (fun h page hnone => leaves_pure ?_) fun h e hnone => ⟨hnone, rfl⟩
  change responses (h ++ []) = 0
  rwa [List.append_nil]

/-! ### JSON-RPC -/

theorem rpcMethod_leaves (m : RpcMethod) (params rpcId : Json) :
    Leaves (m.handler site req params rpcId) fun h r => Streams h ∨ RpcLeaves m h r := by
  cases m with
  | sendMessage => exact (rpcSendMessage_leaves ..).mono fun _ _ => Or.inr
  | getTask => exact (rpcGetTask_leaves ..).mono fun _ _ => Or.inr
  | cancelTask => exact (rpcCancelTask_leaves ..).mono fun _ _ => Or.inr
  | subscribeToTask => exact rpcSubscribeToTask_leaves ..
  | listTasks => exact (rpcListTasks_leaves ..).mono fun _ _ => Or.inr

/-- The request is a message by JSON-RPC, and it was turned away. -/
def RpcFault (h : List Event) : Prop :=
  ∃ body params rpcId, req.admitted? site = some body ∧
    readRpc body = .ok (.method .sendMessage params rpcId) ∧ h.any refuses = true

/-- `_do_json_rpc` answers once, or once more if the message was turned away. -/
def RpcAnswered (h : List ServerEvent) : Prop :=
  Streams h ∨ (responses h = 1 ∧ ¬ RpcFault site req (inbound h)) ∨
    (responses h = 2 ∧ RpcFault site req (inbound h))

theorem doJsonRpcInner_leaves :
    Leaves (doJsonRpcInner site req) fun h r =>
      match r with
      | .ok _ => RpcAnswered site req h
      | .error _ => Streams h ∨ responses h = 0 ∧ ¬ RpcFault site req (inbound h) := by
  refine (readBody_leaves site req (declines_send _) fun _ _ => declines_send _).bind ?_ ?_
  swap
  · rintro h e ⟨hinbound, hnone, -⟩
    refine Or.inr ⟨hnone, ?_⟩
    rintro ⟨-, -, -, -, -, hrefuses⟩
    rw [hinbound] at hrefuses
    cases hrefuses
  rintro h₁ (_ | body) ⟨hinbound₁, hadmitted, -, hcount₁⟩
  · refine leaves_pure (Or.inr (Or.inl ⟨by simpa using hcount₁, ?_⟩))
    rintro ⟨body, params, rpcId, hbody, -⟩
    cases hadmitted.trans hbody
  have hcount₁ : responses h₁ = 0 := hcount₁
  -- what `RpcFault` is about, now that the body is known
  have hfault : ∀ {h}, RpcFault site req (inbound (h₁ ++ h)) ↔
      ∃ params rpcId, readRpc body = .ok (.method .sendMessage params rpcId) ∧
        (inbound h).any refuses = true := by
    intro h
    rw [inbound_append, hinbound₁, List.nil_append]
    constructor
    · rintro ⟨body', params, rpcId, hbody', hread, hrefuses⟩
      obtain rfl := Option.some.inj (hadmitted.trans hbody')
      exact ⟨params, rpcId, hread, hrefuses⟩
    · rintro ⟨params, rpcId, hread, hrefuses⟩
      exact ⟨body, params, rpcId, hadmitted.symm, hread, hrefuses⟩
  refine leaves_compute_bind (fun request hread => ?_) fun e hread => ?_
  swap
  · refine Or.inr ⟨by simpa using hcount₁, ?_⟩
    rw [hfault]
    rintro ⟨params, rpcId, hread', -⟩
    cases hread.symm.trans hread'
  cases request with
  | invalid code message status rpcId =>
      refine leaves_send (Or.inr (Or.inl ⟨?_, ?_⟩))
      · rw [responses_append, hcount₁]
        rfl
      · rw [hfault]
        rintro ⟨params, rpcId, hread', -⟩
        cases hread.symm.trans hread'
  | method m params rpcId =>
      have hextra : ∀ {h}, m.superfluous (inbound h) = 0 ∧ ¬ RpcFault site req (inbound (h₁ ++ h)) ∨
          m.superfluous (inbound h) = 1 ∧ RpcFault site req (inbound (h₁ ++ h)) := by
        intro h
        rw [hfault]
        cases m with
        | sendMessage =>
            cases hrefuses : (inbound h).any refuses with
            | true =>
                exact Or.inr ⟨by rw [RpcMethod.superfluous, hrefuses]; rfl, params, rpcId, hread, rfl⟩
            | false =>
                exact Or.inl ⟨by rw [RpcMethod.superfluous, hrefuses]; rfl,
                  fun h => nomatch h.choose_spec.choose_spec.2⟩
        | _ =>
            refine Or.inl ⟨rfl, ?_⟩
            rintro ⟨params', rpcId', hread', -⟩
            cases hread.symm.trans hread'
      refine (rpcMethod_leaves site req m params rpcId).bind ?_ ?_
      · rintro h (_ | j) (hstreams | hleaves)
        · exact leaves_pure (Or.inl (hstreams.append_left.append_right))
        · refine leaves_pure (Or.inr ?_)
          rw [List.append_nil]
          rcases hextra (h := h) with ⟨-, hnot⟩ | ⟨hone, -⟩
          · exact Or.inl ⟨by simp [hcount₁, hleaves.1], hnot⟩
          · cases hleaves.2.symm.trans hone
        · exact leaves_send (Or.inl (hstreams.append_left.append_right))
        · have hleaves : responses h = m.superfluous (inbound h) := hleaves
          refine leaves_send (Or.inr ?_)
          have hlast : inbound (h₁ ++ (h ++ [⟨.send (rpcResult j rpcId), ()⟩])) =
              inbound (h₁ ++ h) := by
            simp [inbound, inbound?]
          have hcount : responses (h₁ ++ (h ++ [⟨.send (rpcResult j rpcId), ()⟩])) =
              m.superfluous (inbound h) + 1 := by
            rw [responses_append, responses_append, hcount₁, hleaves]
            exact Nat.zero_add _
          rw [hlast, hcount]
          rcases hextra (h := h) with ⟨hzero, hnot⟩ | ⟨hone, hfault⟩
          · exact Or.inl ⟨by rw [hzero], hnot⟩
          · exact Or.inr ⟨by rw [hone], hfault⟩
      · rintro h e (hstreams | hleaves)
        · exact Or.inl hstreams.append_right
        · refine Or.inr ⟨by rw [responses_append, hcount₁, hleaves.1], ?_⟩
          rcases hextra (h := h) with ⟨-, hnot⟩ | ⟨hone, -⟩
          · exact hnot
          · cases hleaves.2.symm.trans hone

/-- Whatever the methods raise is answered as well. -/
theorem doJsonRpc_leaves :
    Leaves (doJsonRpc site req) fun h r => r.isOk = true ∧ RpcAnswered site req h := by
  refine Prog.Yields.bind (doJsonRpcInner_leaves site req) ?_
  rintro h (e | u) hend
  · refine ⟨trivial, fun v _ => ⟨rfl, ?_⟩⟩
    rcases hend with hstreams | ⟨hnone, hnot⟩
    · exact Or.inl hstreams.append_left
    · refine Or.inr (Or.inl ⟨?_, ?_⟩)
      · rw [responses_append, hnone]
        rfl
      · rw [inbound_append]
        change ¬ RpcFault site req (inbound h ++ [])
        rwa [List.append_nil]
  · change true = true ∧ RpcAnswered site req (h ++ [])
    rw [List.append_nil]
    exact ⟨rfl, hend⟩

/-! ### Every POST -/

/-- What makes a POST go without a response, or get two. -/
def HttpRequest.Fails (h : List Event) : Prop :=
  match req.postRoute with
  | .send => RestFault site req SendFault h
  | .cancel _ => RestFault site req (fun _ _ => False) h
  | .createPushConfig t => RestFault site req (ConfigFault t) h
  | .jsonRpc => RpcFault site req h
  | .stream => False

theorem doPost_leaves (hroute : req.postRoute ≠ .stream) :
    Leaves (doPost site req) fun h _ => Streams h ∨ Vanishes (inbound h) ∨
      (responses h = 1 ↔ ¬ req.Fails site (inbound h)) := by
  have hrest : ∀ {fault : Json → List Event → Prop} {handler : Json → Handler Unit},
      (∀ body, Leaves (handler body) (AnswersUnless (fault body))) →
        Leaves (doRestPost site req handler) fun h _ => Streams h ∨ Vanishes (inbound h) ∨
          (responses h = 1 ↔ ¬ RestFault site req fault (inbound h)) := by
    intro fault handler hhandler
    refine (doRestPost_leaves site req hhandler).mono fun h r hend => ?_
    cases r with
    | ok u => exact Or.inr (Or.inr (iff_of_true hend.1 hend.2))
    | error e =>
        obtain ⟨hnone, hfault | hvanishes⟩ := hend
        · refine Or.inr (Or.inr (iff_of_false ?_ (not_not_intro hfault)))
          rw [hnone]
          exact Nat.zero_ne_one
        · exact Or.inr (Or.inl hvanishes)
  unfold doPost HttpRequest.Fails
  cases hpost : req.postRoute with
  | send => exact hrest (restSendMessage_leaves site req)
  | stream => exact absurd hpost hroute
  | cancel t => exact hrest fun _ => restCancelTask_leaves req t
  | createPushConfig t => exact hrest (restCreatePushConfig_leaves site req t)
  | jsonRpc =>
      refine (doJsonRpc_leaves site req).mono fun h r hend => ?_
      rcases hend.2 with hstreams | ⟨hone, hnot⟩ | ⟨htwo, hfault⟩
      · exact Or.inl hstreams
      · exact Or.inr (Or.inr (iff_of_true hone hnot))
      · refine Or.inr (Or.inr (iff_of_false ?_ (not_not_intro hfault)))
        rw [htwo]
        exact Nat.succ_ne_self 1

end Handlers

/-! ### Runs -/

section Run

variable {site : Site} {clock : Time} {c : ServerConfig}

theorem recorded_of_reaches
    (hc : (httpServer site).Reaches anyServerStep (ServerState.init clock) c) :
    c.shared.world.queue.Recorded := by
  refine hc.invariant (I := fun _ s => s.world.queue.Recorded) ?_ ?_ ?_
  · intro t task h
    cases (OrderedDict.get?_empty t).symm.trans h
  · intro tr s e hs
    cases e with
    | tick d => exact hs
    | hangUp id => exact hs
  · intro b i x o k r s' _ hs _ _ hserve
    obtain ⟨-, -, rfl⟩ := serve_eq_some_iff.mp hserve
    cases o with
    | base o => exact hs.onQueue o
    | _ => exact hs

/-- **Every answer in every run is good.** -/
theorem answersWell_of_reaches
    (hc : (httpServer site).Reaches anyServerStep (ServerState.init clock) c) {i : ℕ}
    {e : ServerEvent} (h : (i, e) ∈ c.trace) : AnswersWell e.op e.res := by
  have hprog : ∀ x : ServerCall, KeepsTo (fun _ => False) (x.rights fun _ _ => True)
      (x.prog site) fun _ => True :=
    prog_keepsTo site (fun _ _ _ => trivial) fun _ _ _ _ _ => trivial
  obtain ⟨x, -, -, hgood⟩ := hc.relies_event (sound_init_empty clock)
    (fun e s hs => hs.move e) (sound_of_serve _) hprog h
  obtain ⟨tr₁, tr₂, htrace⟩ := List.append_of_mem h
  obtain ⟨b, y, k, s', hb, -, -, -, hserve, -⟩ := hc.event htrace
  obtain ⟨op, res⟩ := e
  cases op with
  | base o =>
      obtain ⟨-, hres, -⟩ := serve_eq_some_iff.mp hserve
      obtain rfl : res = o.answer site.platform b.shared.world := hres
      exact ⟨hgood, answersByKey_of_recorded (recorded_of_reaches hb) o⟩
  | _ => exact trivial

/-- The task that a step has accepted. -/
def acceptedTask? : ServerEvent → Option PendingTask
  | ⟨.base (.enqueue ..), answer⟩ => answer
  | _ => none

/-- An accepted task is among the objects. -/
theorem lt_length_of_accepted
    (hc : (httpServer site).Reaches anyServerStep (ServerState.init clock) c) :
    ∀ e ∈ c.trace, ∀ task, acceptedTask? e.2 = some task →
      task.ref < c.shared.world.queue.objects.length := by
  refine hc.invariant (I := fun tr s => ∀ e ∈ tr, ∀ task, acceptedTask? e.2 = some task →
    task.ref < s.world.queue.objects.length) (fun _ he => absurd he List.not_mem_nil) ?_ ?_
  · intro tr s e hs
    cases e with
    | tick d => exact hs
    | hangUp id => exact hs
  · intro b i x o k r s' _ hs _ _ hserve e he task haccepted
    obtain ⟨-, rfl, rfl⟩ := serve_eq_some_iff.mp hserve
    rcases List.mem_append.mp he with he | he
    · have hlt := hs e he task haccepted
      cases o with
      | base o => exact TaskQueue.lt_length_onQueue hlt o
      | _ => exact hlt
    · obtain rfl := List.mem_singleton.mp he
      cases o with
      | base o =>
          cases o with
          | enqueue t text metadata contextId createdAt =>
              have hacc : (Op.enqueue t text metadata contextId createdAt).Accepts
                  b.shared.world.queue task := ⟨_, _, _, _, _, rfl, haccepted⟩
              obtain ⟨-, href, hqueue⟩ := hacc.spec
              change task.ref < ((Op.enqueue t text metadata contextId createdAt).onQueue
                b.shared.world.queue).objects.length
              rw [hqueue, href]
              simp [TaskQueue.addPending]
          | _ => cases haccepted
      | _ => cases haccepted

/-- Where a step of the inbound path stands in the history, it stands in the trace. -/
theorem split_of_inbound {i : ℕ} {e : Event} {l₁ l₂ : List Event}
    (h : inbound (c.history i) = l₁ ++ e :: l₂) :
    ∃ tr₁ tr₂, c.trace = tr₁ ++ (i, ⟨.base e.op, e.res⟩) :: tr₂ ∧
      inbound (Machine.historyOf i tr₁) = l₁ := by
  obtain ⟨h₁, rest, hhistory, hh₁, hrest⟩ := List.filterMap_eq_append_iff.mp h
  obtain ⟨between, a, h₂, rfl, hbetween, ha, -⟩ := List.filterMap_eq_cons_iff.mp hrest
  obtain ⟨op, res⟩ := a
  cases op with
  | base o =>
      obtain rfl := Option.some.inj ha
      rw [← List.append_assoc] at hhistory
      obtain ⟨tr₁, tr₂, htrace, hhist⟩ := Machine.split_of_historyOf hhistory
      have hfirst : inbound h₁ = l₁ := hh₁
      have hskipped : inbound between = [] := List.filterMap_eq_nil_iff.mpr hbetween
      refine ⟨tr₁, tr₂, htrace, ?_⟩
      rw [hhist, inbound_append, hfirst, hskipped, List.append_nil]
  | _ => cases ha

/-- What a step of the inbound path has answered is what the state was then. -/
theorem event_of_inbound
    (hc : (httpServer site).Reaches anyServerStep (ServerState.init clock) c) {i : ℕ} {o : Op}
    {r : o.Res} {l₁ l₂ : List Event} (h : inbound (c.history i) = l₁ ++ ⟨o, r⟩ :: l₂) :
    ∃ b : ServerConfig, (httpServer site).Reaches anyServerStep (ServerState.init clock) b ∧
      inbound (b.history i) = l₁ ∧ r = o.answer site.platform b.shared.world ∧
        Relation.ReflTransGen ((httpServer site).Step anyServerStep) b c := by
  obtain ⟨tr₁, tr₂, htrace, hinbound⟩ := split_of_inbound h
  obtain ⟨b, x, k, s', hb, rfl, -, -, hserve, hsteps⟩ := hc.event htrace
  obtain ⟨-, hr, -⟩ := serve_eq_some_iff.mp hserve
  exact ⟨b, hb, hinbound, hr, hsteps⟩

theorem holds_of_steps {b : ServerConfig} {ref : ℕ}
    (hsteps : Relation.ReflTransGen ((httpServer site).Step anyServerStep) b c)
    (h : b.shared.world.queue.Holds ref) : c.shared.world.queue.Holds ref := by
  refine Machine.kept_of_steps (I := fun s => s.world.queue.Holds ref) ?_ ?_ hsteps h
  · intro e s hs
    cases e with
    | tick d => exact hs
    | hangUp id => exact hs
  · intro o s r s' hs hserve
    obtain ⟨-, -, rfl⟩ := serve_eq_some_iff.mp hserve
    cases o with
    | base o => exact hs.onQueue o
    | _ => exact hs

/-- **A response that was read is still there when it is read again.** -/
theorem not_vanishes (hc : (httpServer site).Reaches anyServerStep (ServerState.init clock) c)
    (i : ℕ) : ¬ Vanishes (inbound (c.history i)) := by
  rintro ⟨before, t, text, metadata, contextId, createdAt, between, task, response, hinbound⟩
  have hsplit := hinbound.trans (List.append_cons ..)
  obtain ⟨last, hlast, hinbound, hgone, -⟩ := event_of_inbound hc hsplit
  obtain ⟨first, hfirst, hinbound, hread, hsteps⟩ := event_of_inbound hlast hinbound
  obtain ⟨tr₁, tr₂, htrace, -⟩ := split_of_inbound hinbound
  have hlt : task.ref < first.shared.world.queue.objects.length :=
    lt_length_of_accepted hfirst _ (htrace ▸ List.mem_append_right _ (List.mem_cons_self ..))
      task rfl
  have hread : (first.shared.world.queue.cells task.ref).response = some response := hread.symm
  have hgone : (last.shared.world.queue.cells task.ref).response = none := hgone.symm
  have hholds : first.shared.world.queue.Holds task.ref := ⟨hlt, by rw [hread]; rfl⟩
  have hstill := (holds_of_steps hsteps hholds).2
  rw [hgone] at hstill
  cases hstill

end Run

/-! ### Requests that are not answered once -/

/-- Two messages for one task. -/
def twiceForA : List ServerCall := [.post (.sampleMessage "a"), .post (.sampleMessage "a")]

/-- A message that is a list. -/
def unreadableCalls : List ServerCall := [.post (.sample "/message:send" (.arr []))]

/-- The handler of a POST has come to its end, on an endpoint that does not stream, with
this many responses. -/
def HasSent (c : ServerConfig) (i : ℕ) (req : HttpRequest) (n : ℕ) : Prop :=
  (∃ outcome, c.Ends i (.post req) outcome) ∧ req.postRoute ≠ .stream ∧
    ¬ Streams (c.history i) ∧ responses (c.history i) = n

theorem exists_hasSent {calls : List ServerCall} {moves : List ServerMove} {i n : ℕ}
    {req : HttpRequest} (hcall : calls[i]? = some (.post req)) (hroute : req.postRoute ≠ .stream)
    (hplay : (playServer .sample calls moves).any (fun c => (c.outcome? i).isSome &&
      (!(c.history i).any startsStream && responses (c.history i) == n)) = true) :
    ∃ c, (httpServer .sample).Reaches anyServerStep (ServerState.init 0) c ∧ HasSent c i req n := by
  obtain ⟨c, hc, hcalls, hp⟩ := exists_of_playServer hplay
  obtain ⟨hended, hp⟩ := Bool.and_eq_true_iff.mp hp
  obtain ⟨hstreams, hcount⟩ := Bool.and_eq_true_iff.mp hp
  obtain ⟨outcome, houtcome⟩ := Option.isSome_iff_exists.mp hended
  refine ⟨c, hc, ⟨outcome, (hcalls i _ hcall).ends houtcome⟩, hroute, ?_, eq_of_beq hcount⟩
  rwa [Streams, Bool.not_eq_true, ← Bool.not_eq_true']

end HermesA2A
