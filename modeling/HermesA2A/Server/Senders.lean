import HermesA2A.Server.Plans

/-!
# The sender's name and the hashed request

`_resolve_sender_name` writes a `sender_name` into the metadata of the message.  It is
the client's own where the client gave one, and made from the client's address
otherwise (`claimedSender`, `addressName`).  If the client sent the metadata, the
dictionary written to lies inside the request that is hashed: `submission_payload`
says what the hashed request is then, and `sortKeys_payload_iff` when two clients
with the same request hash the same.
-/

namespace HermesA2A

/-! ### The name -/

/-- The name the client gives for the sender; falsy if it gives none. -/
def claimedSender (metadata source : Json) : Except PyError Json := do
  let fromField ← source.get "from" .null
  let fromField ←
    if fromField.truthy then pure fromField
    else do
      let sender ← source.get "sender" (.obj [])
      sender.get "name" .null
  if fromField.truthy then return fromField
  metadata.get "agent_name" .null

/-- The name made from an address. -/
def addressName (table : CharTable) (clientIp : String) : Except PyError String :=
  sanitizeName table (.str ("agent-" ++ clientIp))

/-- What is made into the name: the client's `sender_name`, or a label. -/
def rawName (fields : List (String × Json)) (source : Json) (clientIp : String) :
    Except PyError Json :=
  match fields.lookup "sender_name" with
  | some name => .ok name
  | none => senderLabel (.obj fields) source clientIp

/-- The name a message gets. -/
def senderName (table : CharTable) (fields : List (String × Json)) (source : Json)
    (clientIp : String) : Except PyError String := do
  let raw ← rawName fields source clientIp
  sanitizeName table (raw.orElse (.str ""))

/-- The client gives no name at all. -/
def unnamed (fields : List (String × Json)) (source : Json) : Bool :=
  (fields.lookup "sender_name").isNone &&
    match claimedSender (.obj fields) source with
    | .ok claimed => !claimed.truthy
    | .error _ => false

section Name

variable {table : CharTable} {metadata source named : Json} {fields : List (String × Json)}
  {clientIp clientIp' : String}

/-- The label is the claimed name, or else made from the address. -/
theorem senderLabel_eq :
    senderLabel metadata source clientIp =
      (claimedSender metadata source).map (·.orElse (.str ("agent-" ++ clientIp))) := by
  unfold senderLabel claimedSender
  cases hfrom : source.get "from" .null with
  | error e => rfl
  | ok fromField =>
      have hlabel : ∀ value : Json,
          (if value.truthy then return value
            else do
              let agentName ← metadata.get "agent_name" .null
              return agentName.orElse (.str ("agent-" ++ clientIp)) : Except PyError Json) =
          (if value.truthy then return value
            else metadata.get "agent_name" .null : Except PyError Json).map
              (·.orElse (.str ("agent-" ++ clientIp))) := by
        intro value
        split_ifs with hvalue
        · show _ = Except.ok (value.orElse _)
          rw [Json.orElse_of_truthy hvalue]
          rfl
        · cases metadata.get "agent_name" .null <;> rfl
      show (if fromField.truthy = true then _ else _) =
        Except.map _ (if fromField.truthy = true then _ else _)
      by_cases htruthy : fromField.truthy = true
      · rw [if_pos htruthy, if_pos htruthy]
        exact hlabel fromField
      rw [if_neg htruthy, if_neg htruthy]
      cases source.get "sender" (.obj []) with
      | error e => rfl
      | ok sender =>
          show (sender.get "name" .null >>= _) = Except.map _ (sender.get "name" .null >>= _)
          cases sender.get "name" .null with
          | error e => rfl
          | ok name => exact hlabel name

/-- The pieces of a text are its characters. -/
theorem mapM_asPiece_singletons (l : List Char) :
    (l.map fun c => Json.str (String.singleton c)).mapM asPiece = .ok (l.map String.singleton) := by
  induction l with
  | nil => rfl
  | cons c l ih =>
      rw [List.map_cons, List.mapM_cons, ih]
      rfl

/-- A text can always be made into a name. -/
theorem exists_sanitizeName (table : CharTable) (s : String) :
    ∃ name, sanitizeName table (.str s) = .ok name := by
  unfold sanitizeName
  rw [show Json.iterate (.str s) = .ok _ from rfl]
  show ∃ name, ((s.toList.map fun c => Json.str (String.singleton c)).mapM asPiece >>= _) = .ok name
  rw [mapM_asPiece_singletons]
  exact ⟨_, rfl⟩

theorem exists_addressName (table : CharTable) (clientIp : String) :
    ∃ name, addressName table clientIp = .ok name :=
  exists_sanitizeName table _

/-- **`_resolve_sender_name` sets one field**, and only in a dictionary. -/
theorem resolveSenderName_obj :
    resolveSenderName table (.obj fields) source clientIp =
      (senderName table fields source clientIp).map fun name =>
        .obj (Json.setField "sender_name" (.str name) fields) := by
  unfold resolveSenderName senderName rawName
  have hset : ∀ raw : Json, ∀ fields' : List (String × Json),
      (∀ name : Json, Json.setField "sender_name" name fields' =
        Json.setField "sender_name" name fields) →
      fields'.lookup "sender_name" = some raw →
      (do
        let rawName ← (Json.obj fields').get "sender_name" (.str "")
        let name ← sanitizeName table (rawName.orElse (.str ""))
        (Json.obj fields').set "sender_name" (.str name)) =
      (sanitizeName table (raw.orElse (.str ""))).map fun name =>
        .obj (Json.setField "sender_name" (.str name) fields) := by
    intro raw fields' hfields hraw
    rw [Json.get_obj, hraw]
    show (sanitizeName table (raw.orElse (.str "")) >>= _) = _
    cases sanitizeName table (raw.orElse (.str "")) with
    | error e => rfl
    | ok name =>
        show Except.ok (Json.obj (Json.setField _ _ fields')) = _
        rw [hfields]
        rfl
  cases hlookup : fields.lookup "sender_name" with
  | some raw =>
      show (if (fields.lookup "sender_name").isSome = true then _ else _) = _
      rw [hlookup]
      exact hset raw fields (fun _ => rfl) hlookup
  | none =>
      show (if (fields.lookup "sender_name").isSome = true then _ else _) = _
      rw [hlookup]
      show (senderLabel (.obj fields) source clientIp >>= _) =
        Except.map _ (senderLabel (.obj fields) source clientIp >>= _)
      cases senderLabel (.obj fields) source clientIp with
      | error e => rfl
      | ok label =>
          exact hset label (Json.setField "sender_name" label fields)
            (fun name => Json.setField_setField ..) (Json.lookup_setField_self ..)

theorem fields_of_resolveSenderName
    (h : resolveSenderName table metadata source clientIp = .ok named) :
    ∃ fields, metadata = .obj fields := by
  cases metadata with
  | obj fields => exact ⟨fields, rfl⟩
  | _ =>
      -- no other value has a `get`, or takes an assignment
      exfalso
      obtain ⟨found, -, h⟩ := exists_of_bind_ok h
      by_cases hfound : found = true
      · rw [if_pos hfound] at h
        cases h
      · rw [if_neg hfound] at h
        obtain ⟨label, -, h⟩ := exists_of_bind_ok h
        cases h

/-- Without a name from the client, the address decides. -/
theorem senderName_of_unnamed (h : unnamed fields source = true) :
    senderName table fields source clientIp = addressName table clientIp := by
  unfold unnamed at h
  obtain ⟨hnone, hclaimed⟩ := Bool.and_eq_true_iff.mp h
  cases hsender : claimedSender (.obj fields) source with
  | error e =>
      rw [hsender] at hclaimed
      cases hclaimed
  | ok claimed =>
      rw [hsender] at hclaimed
      unfold senderName rawName
      rw [Option.isNone_iff_eq_none.mp hnone]
      show senderLabel (.obj fields) source clientIp >>= _ = _
      have hfalsy : claimed.truthy = false := by simpa using hclaimed
      have htext : (Json.str ("agent-" ++ clientIp)).truthy = true := by simp [Json.truthy]
      rw [senderLabel_eq, hsender]
      show sanitizeName table ((claimed.orElse _).orElse _) = _
      rw [Json.orElse_of_falsy hfalsy, Json.orElse_of_truthy htext]
      rfl

/-- With one, it does not. -/
theorem senderName_of_named (h : unnamed fields source = false) :
    senderName table fields source clientIp = senderName table fields source clientIp' := by
  have hraw : rawName fields source clientIp = rawName fields source clientIp' := by
    unfold rawName
    cases hlookup : fields.lookup "sender_name" with
    | some name => rfl
    | none =>
        show senderLabel _ _ _ = senderLabel _ _ _
        unfold unnamed at h
        rw [hlookup] at h
        rw [senderLabel_eq, senderLabel_eq]
        cases hclaimed : claimedSender (.obj fields) source with
        | error e => rfl
        | ok claimed =>
            have htruthy : claimed.truthy = true := by simpa [hclaimed] using h
            simp [Except.map, Json.orElse_of_truthy htruthy]
  unfold senderName
  rw [hraw]

end Name

/-! ### The request -/

/-- The metadata a message has when it is enqueued. -/
def peerMetadata (name : String) (fields : List (String × Json)) : Json :=
  .obj (Json.setField "_a2a_origin" (.str "peer") (Json.setField "sender_name" (.str name) fields))

/-- The client sent a dictionary of metadata with its message, and no name. -/
def namedByAddress (body : Json) : Bool :=
  match body.get "message" (.obj []) with
  | .ok message =>
      match message.field? "metadata" with
      | some (.obj fields) => unnamed fields body
      | _ => false
  | .error _ => false

section Request

variable {table : CharTable} {transport : Transport} {req req' : SendRequest} {s s' : Submission}

/-- The metadata a submission starts with is a dictionary that got one field. -/
theorem fields_of_named {metadata source named : Json} {clientIp : String}
    (h : resolveSenderName table metadata source clientIp = .ok named) :
    ∃ fields name, metadata = .obj fields ∧ senderName table fields source clientIp = .ok name ∧
      setInside "_a2a_origin" (.str "peer") named = peerMetadata name fields := by
  obtain ⟨fields, rfl⟩ := fields_of_resolveSenderName h
  rw [resolveSenderName_obj] at h
  cases hname : senderName table fields source clientIp with
  | error e =>
      rw [hname] at h
      cases h
  | ok name =>
      rw [hname] at h
      obtain rfl := Except.ok.inj h
      exact ⟨fields, name, rfl, hname, rfl⟩

/-- **What is hashed**: the request as it came, or with the metadata written to. -/
theorem submission_payload (h : planSend table transport req = .ok (.submit s)) :
    ∃ message fields name, req.body.get "message" (.obj []) = .ok message ∧
      message.get "metadata" (.obj []) = .ok (.obj fields) ∧
      senderName table fields req.body req.clientIp = .ok name ∧
      req.body.get "idempotencyKey" .null = .ok s.idemKey ∧
      s.markOrigin.payload =
        if (message.field? "metadata").isSome then withMetadata req.body (peerMetadata name fields)
        else req.body := by
  cases transport with
  | jsonRpc =>
      cases planTaskSend_plans h with
      | submit _ message_eq _ _ metadata_eq _ _ _ _ named_eq key_eq =>
          obtain ⟨fields, name, rfl, name_eq, hmark⟩ := fields_of_named named_eq
          refine ⟨_, fields, name, message_eq, metadata_eq, name_eq, key_eq, ?_⟩
          rw [← hmark]
          rfl
  | rest =>
      cases planRestSend_plans h with
      | submit _ message_eq _ _ metadata_eq _ named_eq key_eq =>
          obtain ⟨fields, name, rfl, name_eq, hmark⟩ := fields_of_named named_eq
          refine ⟨_, fields, name, message_eq, metadata_eq, name_eq, key_eq, ?_⟩
          rw [← hmark]
          rfl

/-- Whether there is a context does not depend on the task id. -/
theorem exists_contextOf {body metadata contextId : Json} {taskId : TaskId}
    (h : contextOf body metadata taskId = .ok contextId) (taskId' : TaskId) :
    ∃ contextId', contextOf body metadata taskId' = .ok contextId' := by
  obtain ⟨field, hfield, h⟩ := exists_of_bind_ok h
  unfold contextOf
  rw [hfield]
  show ∃ contextId', (if field.truthy = true then _ else _) = Except.ok contextId'
  by_cases htruthy : field.truthy = true
  · rw [if_pos htruthy]
    exact ⟨_, rfl⟩
  · rw [if_neg htruthy] at h ⊢
    obtain ⟨inner, hinner, -⟩ := exists_of_bind_ok h
    rw [hinner]
    exact ⟨_, rfl⟩

/-- Whether there is a name does not depend on the address. -/
theorem exists_resolveSenderName {metadata source named : Json} {clientIp : String}
    (h : resolveSenderName table metadata source clientIp = .ok named) (clientIp' : String) :
    ∃ named', resolveSenderName table metadata source clientIp' = .ok named' := by
  obtain ⟨fields, name, rfl, name_eq, -⟩ := fields_of_named h
  have hname : ∃ name', senderName table fields source clientIp' = .ok name' := by
    cases hunnamed : unnamed fields source with
    | true =>
        rw [senderName_of_unnamed hunnamed]
        exact exists_addressName table clientIp'
    | false => exact ⟨name, (senderName_of_named hunnamed).trans name_eq⟩
  obtain ⟨name', hname⟩ := hname
  rw [resolveSenderName_obj, hname]
  exact ⟨_, rfl⟩

/-- A dictionary answers every `get`. -/
theorem exists_get {j value : Json} {key : String} {default : Json}
    (h : j.get key default = .ok value) (default' : Json) :
    ∃ value', j.get key default' = .ok value' := by
  cases j with
  | obj fields => exact ⟨_, rfl⟩
  | _ => cases h
/-- The same request from elsewhere is submitted too. -/
theorem exists_submission (hbody : req'.body = req.body)
    (h : planSend table transport req = .ok (.submit s)) :
    ∃ s', planSend table transport req' = .ok (.submit s') := by
  cases transport with
  | jsonRpc =>
      cases planTaskSend_plans h with
      | submit id_eq message_eq text_eq text_ne metadata_eq context_eq value_eq asked worker_eq
          named_eq key_eq =>
          obtain ⟨configuration, configuration_eq, value_eq⟩ := exists_of_bind_ok value_eq
          obtain ⟨taskId', id_eq'⟩ := exists_get id_eq (.str req'.uuid)
          obtain ⟨contextId', context_eq'⟩ := exists_contextOf context_eq taskId'
          obtain ⟨named', named_eq'⟩ := exists_resolveSenderName named_eq req'.clientIp
          show ∃ s', planTaskSend table req' = _
          unfold planTaskSend
          simp only [hbody, id_eq', message_eq, configuration_eq, value_eq, text_eq, text_ne,
            metadata_eq, context_eq', worker_eq, asked, named_eq', key_eq, bind, Except.bind, pure,
            Except.pure, if_false, Bool.false_eq_true]
          exact ⟨_, rfl⟩
  | rest =>
      cases planRestSend_plans h with
      | @submit taskId _ _ _ _ _ _ id_eq message_eq text_eq text_ne metadata_eq context_eq named_eq
          key_eq =>
          obtain ⟨contextId', context_eq'⟩ :=
            exists_contextOf context_eq (taskId.orElse (.str req'.uuid))
          obtain ⟨named', named_eq'⟩ := exists_resolveSenderName named_eq req'.clientIp
          show ∃ s', planRestSend table req' = _
          unfold planRestSend
          simp only [hbody, id_eq, message_eq, text_eq, text_ne, metadata_eq, context_eq', named_eq',
            key_eq, bind, Except.bind, pure, Except.pure, if_false]
          exact ⟨_, rfl⟩

/-- Equal requests have equal metadata, whatever the order of the keys. -/
theorem sortKeys_of_withMetadata {body message metadata metadata' : Json}
    (hmessage : body.get "message" (.obj []) = .ok message)
    (hshared : (message.field? "metadata").isSome = true)
    (h : (withMetadata body metadata).sortKeys = (withMetadata body metadata').sortKeys) :
    metadata.sortKeys = metadata'.sortKeys := by
  have hread : ∀ md : Json, ((withMetadata body md).sortKeys.field? "message").bind
      (·.field? "metadata") = some md.sortKeys := by
    intro md
    cases body with
    | obj fields =>
        rw [Json.get_obj] at hmessage
        cases hlookup : fields.lookup "message" with
        | none =>
            rw [hlookup] at hmessage
            obtain rfl := Except.ok.inj hmessage
            cases hshared
        | some value =>
            rw [hlookup] at hmessage
            obtain rfl := Except.ok.inj hmessage
            cases value with
            | obj message =>
                simp [withMetadata, hlookup, Json.field?_sortKeys]
            | _ => cases hshared
    | _ => cases hmessage
  have := hread metadata
  rw [h, hread] at this
  exact (Option.some.inj this).symm


/-- The metadata shows the name. -/
theorem name_of_peerMetadata {fields : List (String × Json)} {name name' : String}
    (h : (peerMetadata name fields).sortKeys = (peerMetadata name' fields).sortKeys) :
    name = name' := by
  have hread : ∀ n : String,
      (peerMetadata n fields).sortKeys.field? "sender_name" = some (.str n) := by
    intro n
    rw [Json.field?_sortKeys]
    simp [peerMetadata, Json.lookup_setField, Json.sortKeys]
  have := hread name
  rw [h, hread] at this
  exact (Json.str.inj (Option.some.inj this)).symm

/-- Two addresses give a message different names only if the client gave none. -/
theorem senderName_eq_iff {fields : List (String × Json)} {source : Json}
    {clientIp clientIp' name name' : String}
    (h : senderName table fields source clientIp = .ok name)
    (h' : senderName table fields source clientIp' = .ok name') :
    name' = name ↔ ¬ (unnamed fields source = true ∧
      addressName table clientIp ≠ addressName table clientIp') := by
  cases hunnamed : unnamed fields source with
  | true =>
      rw [senderName_of_unnamed hunnamed] at h h'
      rw [h, h']
      simp [eq_comm]
  | false =>
      rw [senderName_of_named hunnamed, h'] at h
      simp [Except.ok.inj h]

/-- **Two clients with one request** hash the same, unless they get different names
in metadata they sent. -/
theorem sortKeys_payload_iff (hbody : req'.body = req.body)
    (h : planSend table transport req = .ok (.submit s))
    (h' : planSend table transport req' = .ok (.submit s')) :
    s'.markOrigin.payload.sortKeys = s.markOrigin.payload.sortKeys ↔
      ¬ (namedByAddress req.body = true ∧
        addressName table req.clientIp ≠ addressName table req'.clientIp) := by
  obtain ⟨message, fields, name, message_eq, metadata_eq, name_eq, -, hpayload⟩ :=
    submission_payload h
  obtain ⟨message', fields', name', message_eq', metadata_eq', name_eq', -, hpayload'⟩ :=
    submission_payload h'
  rw [hbody] at message_eq' name_eq' hpayload'
  obtain rfl := Except.ok.inj (message_eq.symm.trans message_eq')
  obtain rfl := Json.obj.inj (Except.ok.inj (metadata_eq.symm.trans metadata_eq'))
  rw [hpayload, hpayload']
  cases hfield : message.field? "metadata" with
  | none =>
      -- the name is written to a dictionary of its own
      have hnot : namedByAddress req.body = false := by
        unfold namedByAddress
        rw [message_eq]
        show (match message.field? "metadata" with | some (.obj fields) => _ | _ => _) = _
        rw [hfield]
      simp [hnot]
  | some metadata =>
      have hmetadata : metadata = .obj fields := by
        cases message with
        | obj members =>
            rw [Json.get_obj, show members.lookup "metadata" = some metadata from hfield]
              at metadata_eq
            exact Except.ok.inj metadata_eq
        | _ => cases metadata_eq
      have hnamed : namedByAddress req.body = unnamed fields req.body := by
        unfold namedByAddress
        rw [message_eq]
        show (match message.field? "metadata" with | some (.obj fields) => _ | _ => _) = _
        rw [hfield, hmetadata]
      rw [hnamed, ← senderName_eq_iff name_eq name_eq', Option.isSome_some, if_pos rfl, if_pos rfl]
      refine ⟨fun hsame => ?_, fun hsame => by rw [hsame]⟩
      exact name_of_peerMetadata
        (sortKeys_of_withMetadata message_eq (Option.isSome_iff_exists.mpr ⟨_, hfield⟩) hsame)

end Request

end HermesA2A
