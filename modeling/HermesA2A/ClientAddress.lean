import HermesA2A.IdempotentKeys
import HermesA2A.Server.Senders

/-!
# A retry from another address

A client that repeats its request under the same key gets the stored result back,
provided the request hashes as it did the first time.  What is hashed is what the
client sent, with one exception: a name made from the client's address, if the
client sent metadata without a name (`sortKeys_payload_iff`).
-/

namespace HermesA2A

open Machine

/-- Thread `i` has stored the entry. -/
def StoredBy (P : Platform) (tr : Trace) (i : ℕ) (key : Json) (entry : IdempotencyEntry) : Prop :=
  ∃ payload, (i, (⟨.idemSet key entry.taskId payload entry.result, ()⟩ : Event)) ∈ tr ∧
    entry.payloadHash = payloadHash P.digest payload

/-- Thread `j` looks the key up only while the entry is stored under it, and has not
expired. -/
def findsEntry (j : ℕ) (key : Json) (entry : IdempotencyEntry) : Test
  | c, k, .checkConflict l _ =>
      decide (k = j → l = key →
        IdempotencyStore.live? c.shared.clock key c.shared.idem = some entry)
  | c, k, .idemGet l =>
      decide (k = j → l = key →
        IdempotencyStore.live? c.shared.clock key c.shared.idem = some entry)
  | _, _, _ => true

/-- The client is sent an error with this code. -/
def Outcome.sendsError (outcome : Outcome) (code : ℤ) : Prop :=
  ∃ responses response, outcome = .replied responses ∧ response ∈ responses ∧
    errorCode? response = some (.int code)

section Replies

variable {transport : Transport} {req : SendRequest} {s : Submission}

/-- A refusal sends its code. -/
theorem sendsError_of_refused (status : ℕ) (code : ℤ) (message : String) (rpcId : Json) :
    (outcomeOf transport req s (.ok (.refused ⟨status, rpcErrorBody code message rpcId⟩))).sendsError
      code := by
  cases transport with
  | jsonRpc => exact ⟨_, _, rfl, List.mem_cons_self, rfl⟩
  | rest => exact ⟨_, _, rfl, List.mem_cons_self, rfl⟩

/-- A result is sent without an error. -/
theorem not_sendsError_of_answered (result : Json) (code : ℤ) :
    ¬ (outcomeOf transport req s (.ok (.answered result))).sendsError code := by
  rintro ⟨responses, response, houtcome, hmem, hcode⟩
  obtain ⟨awaited, hawaited, hreply⟩ := reply_of_outcomeOf houtcome
  obtain rfl := Except.ok.inj hawaited
  cases transport with
  | jsonRpc =>
      obtain rfl := Except.ok.inj hreply
      obtain rfl := List.mem_singleton.mp hmem
      cases hcode
  | rest =>
      obtain ⟨text, -, hreply⟩ := exists_of_bind_ok hreply
      obtain rfl := Except.ok.inj hreply
      obtain rfl := List.mem_singleton.mp hmem
      cases hcode

end Replies

section Runs

variable {P : Platform} {test : Test} {t₀ : Time} {c : Config} {i j : ℕ} {key payload : Json}
  {entry : IdempotencyEntry}

/-- A key under which something was stored is truthy and hashable. -/
theorem key_of_idemSet (hc : (system P).Reaches (Allows test) (World.init t₀) c) {t : TaskId}
    {result : Json} (h : (i, (⟨.idemSet key t payload result, ()⟩ : Event)) ∈ c.trace) :
    key.truthy = true ∧ key.hashable = true := by
  obtain ⟨hcarries, task, hacc⟩ := accepted_of_idemSet hc h
  have hkey : key.truthy = true := by
    obtain ⟨tr₁, tr₂, htr⟩ := List.append_of_mem h
    obtain ⟨x, -, _, _, _, _, _, _, _, _, -, hkey, rfl, -⟩ := hc.event_pre (Call.meets P) htr
    exact hkey
  exact ⟨hkey, hashable_of_lookUp hc (free_of_accepted hc hkey hcarries hacc).1⟩

/-- The check compares with the entry. -/
theorem check_of_findsEntry
    (hc : (system P).Reaches (Allows (findsEntry j key entry)) (World.init t₀) c)
    (hkey : key.hashable = true) {r : Except PyError Bool}
    (h : (j, (⟨.checkConflict key payload, r⟩ : Event)) ∈ c.trace) :
    r = .ok (payloadHash P.digest payload != entry.payloadHash) := by
  obtain ⟨tr₁, tr₂, htr⟩ := List.append_of_mem h
  obtain ⟨b, x, k, s', -, -, -, hok, hexec, -⟩ := hc.event htr
  obtain ⟨-, hanswer, -⟩ :=
    (exec_eq_some_iff (P := P) (o := .checkConflict key payload)).mp hexec
  have hfinds : findsEntry j key entry b j (.checkConflict key payload) = true := hok
  have hlive := of_decide_eq_true hfinds rfl rfl
  exact hanswer.trans (IdempotencyStore.checkConflict_of_live P.digest payload hkey hlive)

/-- The lookup answers with the entry. -/
theorem get_of_findsEntry
    (hc : (system P).Reaches (Allows (findsEntry j key entry)) (World.init t₀) c)
    (hkey : key.hashable = true) {r : Except PyError (Option (TaskId × Json))}
    (h : (j, (⟨.idemGet key, r⟩ : Event)) ∈ c.trace) :
    r = .ok (some (entry.taskId, entry.result)) := by
  obtain ⟨tr₁, tr₂, htr⟩ := List.append_of_mem h
  obtain ⟨b, x, k, s', -, -, -, hok, hexec, -⟩ := hc.event htr
  obtain ⟨-, hanswer, -⟩ := (exec_eq_some_iff (P := P) (o := .idemGet key)).mp hexec
  have hfinds : findsEntry j key entry b j (.idemGet key) = true := hok
  have hlive := of_decide_eq_true hfinds rfl rfl
  exact hanswer.trans (IdempotencyStore.get_of_live hkey hlive)

/-- **Where the entry is found, the hashes decide.** -/
theorem awaitEnds_of_findsEntry {req : SendRequest} {s : Submission}
    {result : Except PyError Awaited}
    (hc : (system P).Reaches (Allows (findsEntry j s.idemKey entry)) (World.init t₀) c)
    (htruthy : s.idemKey.truthy = true) (hhashable : s.idemKey.hashable = true)
    (hends : AwaitEnds P req s (c.history j) result) :
    if payloadHash P.digest s.payload = entry.payloadHash then result = .ok (.answered entry.result)
    else ∃ message, result =
      .ok (.refused ⟨409, rpcErrorBody A2A_ERR_NON_IDEMPOTENT message s.rpcId⟩) := by
  have hcheck : ∀ r, (⟨.checkConflict s.idemKey s.payload, r⟩ : Event) ∈ c.history j →
      r = .ok (payloadHash P.digest s.payload != entry.payloadHash) :=
    fun r h => check_of_findsEntry hc hhashable (mem_historyOf.mp h)
  have hget : ∀ r, (⟨.idemGet s.idemKey, r⟩ : Event) ∈ c.history j →
      r = .ok (some (entry.taskId, entry.result)) :=
    fun r h => get_of_findsEntry hc hhashable (mem_historyOf.mp h)
  have hcleared : clearedHistory s = [⟨.checkConflict s.idemKey s.payload, .ok false⟩,
      ⟨.idemGet s.idemKey, .ok none⟩] := by
    rw [clearedHistory, if_pos htruthy]
  generalize c.history j = h at hends hcheck hget
  cases hends with
  | checkRaised e => cases hcheck _ List.mem_cons_self
  | conflict _ message =>
      have hne := Except.ok.inj (hcheck _ List.mem_cons_self)
      rw [if_neg (bne_iff_ne.mp hne.symm)]
      exact ⟨message, rfl⟩
  | getRaised e => cases hget _ (List.mem_cons_of_mem _ List.mem_cons_self)
  | replay _ t result =>
      have heq := Except.ok.inj (hcheck _ List.mem_cons_self)
      have hfound := hget _ (List.mem_cons_of_mem _ List.mem_cons_self)
      rw [if_pos (by simpa using heq.symm)]
      obtain ⟨-, rfl⟩ := Prod.mk.inj (Option.some.inj (Except.ok.inj hfound))
      rfl
  | _ =>
      -- in all other histories the key was found free
      cases hget (.ok none)
        (by simp [storedHistory, readHistory, waitedHistory, enqueuedHistory, hcleared])

end Runs

/-- **What comes of a retry**: a conflict if the two get different names in metadata they
sent, and the stored result otherwise. -/
theorem retry_outcome {P : Platform} {t₀ : Time} {c : Config} {i j : ℕ} {key : Json}
    {entry : IdempotencyEntry} {transport : Transport} {reqA reqB : SendRequest}
    {outcome : Outcome}
    (hc : (system P).Reaches (Allows (findsEntry j key entry)) (World.init t₀) c)
    (hcall : c.Calls i (.sendMessage transport reqA)) (hstored : StoredBy P c.trace i key entry)
    (hends : c.Ends j (.sendMessage transport reqB) outcome) (hbody : reqB.body = reqA.body)
    (hdigest : ∀ s s', planSend P.table transport reqA = .ok (.submit s) →
      planSend P.table transport reqB = .ok (.submit s') →
        payloadHash P.digest s'.markOrigin.payload = payloadHash P.digest s.markOrigin.payload →
          s'.markOrigin.payload.sortKeys = s.markOrigin.payload.sortKeys) :
    ∃ s, planSend P.table transport reqB = .ok (.submit s) ∧ s.markOrigin.idemKey = key ∧
      if namedByAddress reqA.body = true ∧
          addressName P.table reqA.clientIp ≠ addressName P.table reqB.clientIp then
        ∃ message, outcome = outcomeOf transport reqB s.markOrigin
          (.ok (.refused ⟨409, rpcErrorBody A2A_ERR_NON_IDEMPOTENT message s.markOrigin.rpcId⟩))
      else outcome = outcomeOf transport reqB s.markOrigin (.ok (.answered entry.result)) := by
  obtain ⟨payload, hset, hhash⟩ := hstored
  obtain ⟨htruthy, hhashable⟩ := key_of_idemSet hc hset
  obtain ⟨⟨x, _, _, _, ⟨p, hp⟩, ⟨rfl, s, hplan, rfl⟩, hkey, rfl⟩, -⟩ := accepted_of_idemSet hc hset
  obtain ⟨q, hq⟩ := hcall
  cases (Prod.mk.inj (Option.some.inj (hp.symm.trans hq))).1
  obtain ⟨s', hplan'⟩ := exists_submission hbody hplan
  have hpost : sendPost P transport reqB (c.history j) outcome := post_of_ends hc hends
  unfold sendPost at hpost
  rw [hplan'] at hpost
  obtain ⟨result, hawait, rfl⟩ := hpost
  -- both requests carry the key
  have hkey' : s'.markOrigin.idemKey = key := by
    obtain ⟨_, _, _, _, _, _, key_eq, -⟩ := submission_payload hplan
    obtain ⟨_, _, _, _, _, _, key_eq', -⟩ := submission_payload hplan'
    rw [hbody] at key_eq'
    exact (Except.ok.inj (key_eq'.symm.trans key_eq)).trans hkey
  rw [← hkey'] at hc htruthy hhashable
  -- the hashes tell the names apart, and nothing else
  have hsame : payloadHash P.digest s'.markOrigin.payload = entry.payloadHash ↔
      ¬ (namedByAddress reqA.body = true ∧
        addressName P.table reqA.clientIp ≠ addressName P.table reqB.clientIp) := by
    rw [hhash, ← sortKeys_payload_iff hbody hplan hplan']
    refine ⟨hdigest s s' hplan hplan', fun hsort => ?_⟩
    unfold payloadHash
    rw [hsort]
  have hdecided := awaitEnds_of_findsEntry hc htruthy hhashable hawait
  refine ⟨s', hplan', hkey', ?_⟩
  by_cases hequal : payloadHash P.digest s'.markOrigin.payload = entry.payloadHash
  · rw [if_pos hequal] at hdecided
    rw [if_neg (hsame.mp hequal), hdecided]
  · rw [if_neg hequal] at hdecided
    obtain ⟨message, rfl⟩ := hdecided
    rw [if_pos (not_not.mp fun hnot => hequal (hsame.mpr hnot))]
    exact ⟨message, rfl⟩

/-- **A retry is answered with the stored result, unless the name was made from
another address.**  In every run in which a second client sends the request of the
first and looks its key up while the first's result is stored, the second gets this
result if and only if the two do not get different names in metadata they sent; and
a conflict otherwise.  Keys are JSON values here (`TaskId`). -/
theorem retry_replayed_iff {P : Platform} {t₀ : Time} {c : Config} {i j : ℕ} {key : Json}
    {entry : IdempotencyEntry} {transport : Transport} {reqA reqB : SendRequest}
    {outcome : Outcome}
    (hc : (system P).Reaches (Allows (findsEntry j key entry)) (World.init t₀) c)
    (hcall : c.Calls i (.sendMessage transport reqA)) (hstored : StoredBy P c.trace i key entry)
    (hends : c.Ends j (.sendMessage transport reqB) outcome) (hbody : reqB.body = reqA.body)
    (hdigest : ∀ s s', planSend P.table transport reqA = .ok (.submit s) →
      planSend P.table transport reqB = .ok (.submit s') →
        payloadHash P.digest s'.markOrigin.payload = payloadHash P.digest s.markOrigin.payload →
          s'.markOrigin.payload.sortKeys = s.markOrigin.payload.sortKeys) :
    ∃ s, planSend P.table transport reqB = .ok (.submit s) ∧
      (outcome = outcomeOf transport reqB s.markOrigin (.ok (.answered entry.result)) ↔
        ¬ (namedByAddress reqA.body = true ∧
          addressName P.table reqA.clientIp ≠ addressName P.table reqB.clientIp)) ∧
      (outcome.sendsError A2A_ERR_NON_IDEMPOTENT ↔
        namedByAddress reqA.body = true ∧
          addressName P.table reqA.clientIp ≠ addressName P.table reqB.clientIp) := by
  obtain ⟨s, hplan, -, houtcome⟩ := retry_outcome hc hcall hstored hends hbody hdigest
  refine ⟨s, hplan, ?_⟩
  by_cases hdiffer : namedByAddress reqA.body = true ∧
      addressName P.table reqA.clientIp ≠ addressName P.table reqB.clientIp
  · rw [if_pos hdiffer] at houtcome
    obtain ⟨message, rfl⟩ := houtcome
    have hsends : (outcomeOf transport reqB s.markOrigin (.ok (.refused
        ⟨409, rpcErrorBody A2A_ERR_NON_IDEMPOTENT message s.markOrigin.rpcId⟩))).sendsError
          A2A_ERR_NON_IDEMPOTENT := sendsError_of_refused ..
    refine ⟨⟨fun hanswered => ?_, fun hnot => absurd hdiffer hnot⟩, fun _ => hdiffer,
      fun _ => hsends⟩
    rw [hanswered] at hsends
    exact absurd hsends (not_sendsError_of_answered _ _)
  · rw [if_neg hdiffer] at houtcome
    subst houtcome
    exact ⟨⟨fun _ => hdiffer, fun _ => rfl⟩,
      fun hsends => absurd hsends (not_sendsError_of_answered _ _), fun h => absurd h hdiffer⟩

/-! ### One request from two addresses -/

/-- A message under a key, with this metadata, from this address. -/
def retryRequest (metadata : Json) (clientIp : String) : SendRequest :=
  { SendRequest.sample [] "" with
    body := .obj
      [ ("idempotencyKey", .str "k"),
        ("message", .obj [("parts", .arr [.obj [("text", .str "hi")]]), ("metadata", metadata)]) ]
    clientIp := clientIp }

/-- Metadata with a `sender_name`. -/
def namedMetadata : Json := .obj [("sender_name", .str "bob")]

/-- The message is sent, answered, and sent again from elsewhere. -/
def retryCalls (metadata : Json) : List Call :=
  [ .sendMessage .jsonRpc (retryRequest metadata "10.0.0.1"),
    .postLlmCall (.str "uuid-1") "done" 0 0,
    .sendMessage .jsonRpc (retryRequest metadata "10.0.0.2") ]

/-- What the first sending stores, with the name it got. -/
def retryEntry (metadata : Json) (name : String) : IdempotencyEntry where
  taskId := .str "uuid-1"
  payloadHash := payloadHash Platform.sample.digest
    (withMetadata (retryRequest metadata "").body (peerMetadata name []))
  result :=
    buildTaskObject (.str "uuid-1") "completed" (.str "uuid-1") (some "done") none Stamp.sample
  expiresAt := IDEM_TTL_SECONDS

/-- The step stores the entry. -/
def storesEntry (P : Platform) (key : Json) (entry : IdempotencyEntry) : Event → Bool
  | ⟨.idemSet k t payload result, _⟩ =>
      decide (k = key ∧ t = entry.taskId ∧ result = entry.result ∧
        entry.payloadHash = payloadHash P.digest payload)
  | _ => false

theorem storedBy_of_any {P : Platform} {c : Config} {i : ℕ} {key : Json} {entry : IdempotencyEntry}
    (h : (c.history i).any (storesEntry P key entry) = true) : StoredBy P c.trace i key entry := by
  obtain ⟨e, he, hstores⟩ := List.any_eq_true.mp h
  unfold storesEntry at hstores
  split at hstores
  · obtain ⟨rfl, rfl, rfl, hhash⟩ := of_decide_eq_true hstores
    exact ⟨_, mem_historyOf.mp he, hhash⟩
  · cases hstores

/-- The first sending is answered; then the second takes `n` steps. -/
def retrySchedule (n : ℕ) : List Move :=
  List.replicate 6 (.act 0) ++ List.replicate 3 (.act 1) ++ List.replicate 4 (.act 0) ++
    List.replicate n (.act 2)

/-- With a `sender_name` of the client's own, the retry is answered. -/
theorem named_retry_replayed :
    ∃ (c : Config) (outcome : Outcome),
      (system Platform.sample).Reaches
          (Allows (findsEntry 2 (.str "k") (retryEntry namedMetadata "bob"))) (World.init 0) c ∧
        c.Ends 2 (.sendMessage .jsonRpc (retryRequest namedMetadata "10.0.0.2")) outcome ∧
          ∃ s, outcome = outcomeOf .jsonRpc (retryRequest namedMetadata "10.0.0.2") s
            (.ok (.answered (retryEntry namedMetadata "bob").result)) := by
  have hplay : (playSample (findsEntry 2 (.str "k") (retryEntry namedMetadata "bob"))
      (retrySchedule 2) (Config.calling (retryCalls namedMetadata))).any (fun c =>
        (c.outcome? 2).isSome &&
          (c.history 0).any (storesEntry Platform.sample (.str "k")
            (retryEntry namedMetadata "bob"))) = true := by
    decide +kernel
  obtain ⟨c, hc, hcalls, hp⟩ := exists_of_playCalls hplay
  obtain ⟨houtcome, hstores⟩ := Bool.and_eq_true_iff.mp hp
  obtain ⟨outcome, houtcome⟩ := Option.isSome_iff_exists.mp houtcome
  have hcallA : c.Calls 0 (.sendMessage .jsonRpc (retryRequest namedMetadata "10.0.0.1")) :=
    hcalls 0 _ rfl
  have hends : c.Ends 2 (.sendMessage .jsonRpc (retryRequest namedMetadata "10.0.0.2")) outcome :=
    (hcalls 2 _ rfl).ends houtcome
  have hbody : (retryRequest namedMetadata "10.0.0.2").body =
      (retryRequest namedMetadata "10.0.0.1").body := rfl
  have hnot : namedByAddress (retryRequest namedMetadata "10.0.0.1").body = false := by decide
  -- both payloads are the same, so they cannot collide
  obtain ⟨s, -, hanswered, -⟩ := retry_replayed_iff hc hcallA (storedBy_of_any hstores) hends hbody
    fun s s' hplan hplan' _ => (sortKeys_payload_iff hbody hplan hplan').mpr fun hdiffer =>
      Bool.false_ne_true (hnot.symm.trans hdiffer.1)
  exact ⟨c, outcome, hc, hends, s.markOrigin, hanswered.mpr fun hdiffer =>
    Bool.false_ne_true (hnot.symm.trans hdiffer.1)⟩

/-- The answer to a retry under the key of another request. -/
def conflictReplies : List HttpResponse :=
  [ ⟨409, rpcErrorBody A2A_ERR_NON_IDEMPOTENT
      "Non-idempotent task: idempotency key 'k' already used with a different payload" (.int 1)⟩,
    rpcResult (.obj [("task", .null)]) (.int 1) ]

/-- With metadata that has none, the retry is refused. -/
theorem unnamed_retry_refused :
    ∃ c : Config,
      (system Platform.sample).Reaches
          (Allows (findsEntry 2 (.str "k") (retryEntry (.obj []) "agent-10.0.0.1"))) (World.init 0)
          c ∧
        c.Calls 0 (.sendMessage .jsonRpc (retryRequest (.obj []) "10.0.0.1")) ∧
          StoredBy Platform.sample c.trace 0 (.str "k") (retryEntry (.obj []) "agent-10.0.0.1") ∧
            c.Ends 2 (.sendMessage .jsonRpc (retryRequest (.obj []) "10.0.0.2"))
              (.replied conflictReplies) ∧
            (Outcome.replied conflictReplies).sendsError A2A_ERR_NON_IDEMPOTENT := by
  have hplay : (playSample (findsEntry 2 (.str "k") (retryEntry (.obj []) "agent-10.0.0.1"))
      (retrySchedule 1) (Config.calling (retryCalls (.obj [])))).any (fun c =>
        decide (c.outcome? 2 = some (.replied conflictReplies)) &&
          (c.history 0).any (storesEntry Platform.sample (.str "k")
            (retryEntry (.obj []) "agent-10.0.0.1"))) = true := by
    decide +kernel
  obtain ⟨c, hc, hcalls, hp⟩ := exists_of_playCalls hplay
  obtain ⟨houtcome, hstores⟩ := Bool.and_eq_true_iff.mp hp
  exact ⟨c, hc, hcalls 0 _ rfl, storedBy_of_any hstores,
    (hcalls 2 _ rfl).ends (of_decide_eq_true houtcome), _, _, rfl, List.mem_cons_self, rfl⟩

end HermesA2A
