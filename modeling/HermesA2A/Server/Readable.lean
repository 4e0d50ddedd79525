import HermesA2A.Server.Http
import HermesA2A.Server.Senders

/-!
# What the REST handlers can read

A REST handler takes the fields of a request apart without looking at their types, and
nothing catches what it raises.  Here the requests for which nothing is raised are
described by their shape: the bearer token that can be compared (`checkAuth_isOk`), the
settings the limiter can compute with (`limiterAllow_isOk_iff`), the message that can be
read (`planRestSend_isOk`) and the push configuration that can be read (`configOf_isOk`).
-/

namespace HermesA2A

section IsOk

variable {ε α β : Type}

@[simp] theorem isOk_ok (a : α) : (Except.ok a : Except ε α).isOk = true := rfl

@[simp] theorem isOk_error (e : ε) : (Except.error e : Except ε α).isOk = false := rfl

@[simp] theorem ok_bind (a : α) (f : α → Except ε β) : (Except.ok a >>= f) = f a := rfl

@[simp] theorem error_bind (e : ε) (f : α → Except ε β) :
    (Except.error e >>= f) = Except.error e := rfl

@[simp] theorem isOk_map (x : Except ε α) (f : α → β) : (f <$> x).isOk = x.isOk := by
  cases x <;> rfl

/-- What follows a computation may raise as well. -/
theorem isOk_bind {x : Except ε α} {f : α → Except ε β} {b : Bool}
    (h : ∀ a, x = .ok a → (f a).isOk = b) : (x >>= f).isOk = (x.isOk && b) := by
  cases x with
  | error e => rfl
  | ok a => exact (h a rfl).trans (Bool.true_and b).symm

theorem exists_of_isOk {x : Except ε α} (h : x.isOk = true) : ∃ a, x = .ok a := by
  cases x with
  | error e => cases h
  | ok a => exact ⟨a, rfl⟩

end IsOk

/-! ### The token -/

/-- Can two texts be compared by `hmac.compare_digest`? -/
def comparable (a b : String) : Bool := a.toList.all (·.toNat < 128) && b.toList.all (·.toNat < 128)

/-- A token has to be compared that cannot be. -/
def HttpRequest.incomparable (site : Site) (req : HttpRequest) : Bool :=
  !req.isLocal && site.authToken != "" && req.bearer?.any fun given => !comparable given site.authToken

theorem checkAuth_isOk (site : Site) (req : HttpRequest) :
    (checkAuth site req).isOk = !req.incomparable site := by
  unfold checkAuth HttpRequest.incomparable
  split_ifs with hlocal htoken
  · simp [hlocal, Except.isOk, Except.toBool]
  · simp [htoken, Except.isOk, Except.toBool]
  · cases req.bearer? with
    | none => simp [Except.isOk, Except.toBool]
    | some given =>
        have hcompare : (compareDigest given site.authToken).isOk =
            comparable given site.authToken := by
          unfold compareDigest comparable
          split_ifs with h
          · simpa [Except.isOk, Except.toBool] using h
          · simpa [Except.isOk, Except.toBool] using h
        simp [hlocal, htoken, hcompare]

/-! ### The limiter -/

/-- The limiter is on, with settings that it cannot compute with. -/
def Site.LimiterRaises (site : Site) : Prop :=
  site.rateLimits.enabled = true ∧ ¬ site.rateLimits.Workable

theorem limiterAllow_isOk_iff (site : Site) (req : HttpRequest) :
    (limiterAllow site req).isOk = true ↔ ¬ site.LimiterRaises := by
  have hreturns : (limiterAllow site req).isOk = true ↔
      ∃ answer, req.limiter.allow site.rateLimits (rateLimitClientId site req) (.round 1)
        req.askedAt = .ok answer := by
    unfold limiterAllow
    cases req.limiter.allow site.rateLimits (rateLimitClientId site req) (.round 1)
      req.askedAt with
    | error e => exact iff_of_false Bool.noConfusion fun ⟨_, h⟩ => nomatch h
    | ok answer => exact iff_of_true rfl ⟨answer, rfl⟩
  rw [hreturns, Site.LimiterRaises]
  cases henabled : site.rateLimits.enabled with
  | false =>
      refine iff_of_true ⟨_, if_pos ?_⟩ fun h => nomatch h.1
      rw [henabled]
      exact Bool.false_ne_true
  | true =>
      rw [FloatLimiter.allow_returns_iff henabled, not_and, not_not]
      exact (imp_iff_right rfl).symm

/-! ### What is raised before the body is read -/

/-- The token cannot be compared, or the limiter cannot compute. -/
def HttpRequest.BreaksOff (site : Site) (req : HttpRequest) : Prop :=
  req.incomparable site = true ∨ checkAuth site req = .ok true ∧ site.LimiterRaises

/-! ### The text of a message -/

/-- Is the value a text? -/
def Json.isText : Json → Bool
  | str _ => true
  | _ => false

theorem Json.asText_isOk (j : Json) : j.asText.isOk = j.isText := by cases j <;> rfl

/-- A part without a text, or with one that is a text. -/
def readablePart : Json → Bool
  | .obj fields => (fields.lookup "text").all Json.isText
  | .arr items => !items.contains (.str "text")
  | .str s => !Json.isSubstring "text" s
  | _ => false

theorem mapM_asText_cons (text : Json) (texts : List Json) :
    ((text :: texts).mapM Json.asText).isOk = (text.isText && (texts.mapM Json.asText).isOk) := by
  rw [List.mapM_cons]
  refine (isOk_bind fun first _ => ?_).trans (by rw [Json.asText_isOk])
  exact isOk_map (texts.mapM Json.asText) (first :: ·)

/-- The texts of the parts that follow are read in any case. -/
theorem textsOf_cons (part : Json) (parts : List Json) :
    textsOf (part :: parts) =
      part.contains "text" >>= fun has =>
        if has then (part.get "text" (.str "") >>= fun text => (text :: ·) <$> textsOf parts)
        else textsOf parts := by
  rw [textsOf]
  rfl

theorem textsOf_isOk (parts : List Json) :
    (textsOf parts >>= fun texts => texts.mapM Json.asText).isOk = parts.all readablePart := by
  induction parts with
  | nil => rfl
  | cons part parts ih =>
      rw [List.all_cons, ← ih, textsOf_cons]
      cases part with
      | obj fields =>
          cases htext : fields.lookup "text" with
          | none => simp [Json.contains, readablePart, htext]
          | some text =>
              cases textsOf parts with
              | error e => simp [Json.contains, htext]
              | ok texts =>
                  have hrest := mapM_asText_cons text texts
                  simpa [Json.contains, readablePart, htext] using hrest
      | arr items =>
          by_cases htext : Json.str "text" ∈ items
          · simp [Json.contains, Json.get, readablePart, htext]
          · simp [Json.contains, readablePart, htext]
      | str s =>
          cases htext : Json.isSubstring "text" s with
          | true => simp [Json.contains, Json.get, readablePart, htext]
          | false => simp [Json.contains, readablePart, htext]
      | _ => rfl

/-- Parts that can be gone through, each of them readable. -/
def readableParts : Json → Bool
  | .arr parts => parts.all readablePart
  | .obj fields => fields.all fun e => !Json.isSubstring "text" e.1
  | .str _ => true
  | _ => false

/-- A single character does not have a text in it. -/
theorem not_isSubstring_singleton (c : Char) :
    Json.isSubstring "text" (String.singleton c) = false := by
  rw [Json.isSubstring, String.toList_singleton]
  change (('t' == c && false) || (false || false)) = false
  simp

/-- The parts of a message that is a dictionary. -/
def partsOf (message : List (String × Json)) : Json := (message.lookup "parts").getD (.arr [])

theorem extractTextParts_isOk (message : List (String × Json)) :
    (extractTextParts (.obj message)).isOk = readableParts (partsOf message) := by
  have hread : ∀ items, (textsOf items >>= fun texts => texts.mapM Json.asText >>= fun texts =>
      pure (String.intercalate "\n" texts)).isOk = items.all readablePart := by
    intro items
    rw [← textsOf_isOk, ← isOk_map _ (String.intercalate "\n"), map_bind]
    rfl
  change ((partsOf message).iterate >>= _).isOk = _
  cases partsOf message with
  | arr parts => exact hread parts
  | obj fields =>
      refine (hread _).trans ?_
      simp [readableParts, readablePart, Function.comp_def]
  | str s =>
      refine (hread _).trans ?_
      simp [readableParts, readablePart, not_isSubstring_singleton]
  | _ => rfl

/-! ### The sender of a message -/

/-- A value that can be made into a name. -/
def readableName : Json → Bool
  | .str _ | .obj _ => true
  | .arr pieces => pieces.all Json.isText
  | j => !j.truthy

theorem mapM_asPiece_isOk (items : List Json) :
    (items.mapM asPiece).isOk = items.all Json.isText := by
  induction items with
  | nil => rfl
  | cons item items ih =>
      have hitem : (asPiece item).isOk = item.isText := by cases item <;> rfl
      rw [List.mapM_cons, List.all_cons, ← ih, ← hitem]
      exact isOk_bind fun first _ => isOk_map (items.mapM asPiece) (first :: ·)

theorem sanitizeName_isOk (table : CharTable) (raw : Json) :
    (sanitizeName table (raw.orElse (.str ""))).isOk = readableName raw := by
  have hitems : ∀ items : List Json,
      (items.mapM asPiece >>= fun pieces => pure (String.ofList
        (((pieces.filter (keepsPiece table)).flatMap String.toList).take 64))).isOk =
        items.all Json.isText := by
    intro items
    rw [← mapM_asPiece_isOk, bind_pure_comp, isOk_map]
  rw [Json.orElse]
  by_cases htruthy : raw.truthy = true
  · rw [if_pos htruthy]
    change (raw.iterate >>= _).isOk = _
    cases raw with
    | arr items => exact hitems items
    | obj fields => exact (hitems _).trans (by simp [readableName, Json.isText])
    | str s => exact (hitems _).trans (by simp [readableName, Json.isText])
    | _ => simp [readableName, Json.iterate, htruthy]
  · obtain ⟨name, hname⟩ := exists_sanitizeName table ""
    rw [if_neg htruthy, hname, isOk_ok]
    cases raw with
    | arr items => simp_all [readableName, Json.truthy]
    | _ => simp_all [readableName]

/-- A sender that can be found and named: by the metadata, by the request, or by its
address. -/
def readableSender (metadata source : List (String × Json)) : Bool :=
  match metadata.lookup "sender_name" with
  | some name => readableName name
  | none =>
      let fromField := (source.lookup "from").getD .null
      let agentName := (metadata.lookup "agent_name").getD .null
      if fromField.truthy then readableName fromField
      else
        match (source.lookup "sender").getD (.obj []) with
        | .obj sender => readableName (((sender.lookup "name").getD .null).orElse agentName)
        | _ => false

/-- The default is a text. -/
theorem readableName_orElse_str (j : Json) (s : String) :
    readableName (j.orElse (.str s)) = readableName j := by
  rw [Json.orElse]
  by_cases htruthy : j.truthy = true
  · rw [if_pos htruthy]
  · rw [if_neg htruthy]
    cases j with
    | arr items => simp_all [readableName, Json.truthy]
    | _ => simp_all [readableName]

theorem senderLabel_obj (metadata source : List (String × Json)) (clientIp : String) :
    senderLabel (.obj metadata) (.obj source) clientIp =
      if ((source.lookup "from").getD .null).truthy then .ok ((source.lookup "from").getD .null)
      else
        match (source.lookup "sender").getD (.obj []) with
        | .obj sender =>
            .ok ((((sender.lookup "name").getD .null).orElse
              ((metadata.lookup "agent_name").getD .null)).orElse (.str ("agent-" ++ clientIp)))
        | _ => .error .attributeError := by
  unfold senderLabel
  rw [Json.get_obj, ok_bind]
  by_cases hfrom : ((source.lookup "from").getD .null).truthy = true
  · simp only [if_pos hfrom, pure_bind]
    rfl
  simp only [if_neg hfrom, Json.get_obj, ok_bind]
  cases (source.lookup "sender").getD (.obj []) with
  | obj sender =>
      by_cases hname : ((sender.lookup "name").getD .null).truthy = true
      · simp only [Json.get_obj, ok_bind, Json.orElse, if_pos hname]
        rfl
      · simp only [Json.get_obj, ok_bind, Json.orElse, if_neg hname]
        rfl
  | _ => rfl

theorem senderName_isOk (table : CharTable) (metadata source : List (String × Json))
    (clientIp : String) :
    (senderName table metadata (.obj source) clientIp).isOk = readableSender metadata source := by
  unfold senderName rawName readableSender
  cases metadata.lookup "sender_name" with
  | some name => exact sanitizeName_isOk table name
  | none =>
      dsimp only
      rw [senderLabel_obj]
      split_ifs
      · exact sanitizeName_isOk table _
      · cases (source.lookup "sender").getD (.obj []) with
        | obj sender => exact (sanitizeName_isOk table _).trans (readableName_orElse_str ..)
        | _ => rfl

/-! ### The message -/

/-- Metadata that a sender can be entered in. -/
def readableMetadata (metadata : Json) (source : List (String × Json)) : Bool :=
  match metadata with
  | .obj fields => readableSender fields source
  | _ => false

/-- A message without any text in it. -/
def blankMessage (message : Json) : Bool :=
  match extractTextParts message with
  | .ok text => text.strip = ""
  | .error _ => false

/-- A message whose parts can be read, and if they have a text, its sender. -/
def readableMessage (body : Json) : Bool :=
  match body with
  | .obj fields =>
      match (fields.lookup "message").getD (.obj []) with
      | .obj message =>
          readableParts (partsOf message) &&
            (blankMessage (.obj message) ||
              readableMetadata ((message.lookup "metadata").getD (.obj [])) fields)
      | _ => false
  | _ => false

theorem resolveSenderName_isOk (table : CharTable) (metadata : Json)
    (source : List (String × Json)) (clientIp : String) :
    (resolveSenderName table metadata (.obj source) clientIp).isOk =
      readableMetadata metadata source := by
  cases metadata with
  | obj fields =>
      rw [resolveSenderName_obj]
      exact (isOk_map (senderName table fields (.obj source) clientIp) _).trans
        (senderName_isOk ..)
  | _ =>
      refine Bool.eq_false_iff.mpr fun hok => ?_
      obtain ⟨named, hnamed⟩ := exists_of_isOk hok
      obtain ⟨fields, hfields⟩ := fields_of_resolveSenderName hnamed
      cases hfields

/-- The context is no further condition. -/
theorem readableMetadata_of_context (metadata : Json) (fields : List (String × Json))
    (t : TaskId) :
    ((contextOf (.obj fields) metadata t).isOk && readableMetadata metadata fields) =
      readableMetadata metadata fields := by
  cases metadata with
  | obj metadata =>
      have hcontext : (contextOf (.obj fields) (.obj metadata) t).isOk = true := by
        unfold contextOf
        rw [Json.get_obj, ok_bind]
        split_ifs
        · rfl
        · rfl
      rw [hcontext, Bool.true_and]
  | _ => exact Bool.and_false _

/-- **`_rest_send_message` raises before the queue is asked exactly where the message
cannot be read.** -/
theorem planRestSend_isOk (table : CharTable) (req : SendRequest) :
    (planRestSend table req).isOk = readableMessage req.body := by
  unfold planRestSend readableMessage
  cases req.body with
  | obj fields =>
      simp only [Json.get_obj, ok_bind]
      cases (fields.lookup "message").getD (.obj []) with
      | obj message =>
          dsimp only
          rw [← extractTextParts_isOk, blankMessage]
          cases htext : extractTextParts (.obj message) with
          | error e => rfl
          | ok text =>
              simp only [ok_bind, isOk_ok, Bool.true_and]
              by_cases hblank : text.strip = ""
              · rw [if_pos hblank, decide_eq_true hblank, Bool.true_or]
                rfl
              rw [if_neg hblank, decide_eq_false hblank, Bool.false_or]
              simp only [Json.get_obj, ok_bind]
              refine (isOk_bind fun contextId _ => ?_).trans (readableMetadata_of_context _ fields _)
              refine (isOk_bind (b := true) fun named _ => rfl).trans ?_
              rw [Bool.and_true, resolveSenderName_isOk]
      | _ => rfl
  | _ => rfl

/-! ### The push configuration -/

/-- An authentication that can be taken apart, or none. -/
def readableAuthentication (fields : List (String × Json)) : Bool :=
  let auth := ((fields.lookup "authentication").getD .null).orElse
    ((fields.lookup "auth").getD (.obj []))
  !auth.truthy || auth.isDict

/-- The key a configuration is made with. -/
def configKey (fields : List (String × Json)) : Json :=
  ((fields.lookup "hmacKey").getD (.str "")).orElse ((fields.lookup "hmac_key").getD (.str ""))

/-- A configuration that can be read, as far as it is. -/
def readableConfig (body : Json) : Bool :=
  match body with
  | .obj fields =>
      !((fields.lookup "url").getD (.str "")).truthy || !(configKey fields).truthy ||
        readableAuthentication fields
  | _ => false

theorem firstOf_obj (fields : List (String × Json)) (keys : List String) :
    (firstOf (.obj fields) keys).isOk = true := by
  induction keys with
  | nil => rfl
  | cons key keys ih =>
      cases keys with
      | nil => rfl
      | cons next keys =>
          rw [firstOf, Json.get_obj, ok_bind]
          split_ifs
          · rfl
          · exact ih
          · simp

theorem authenticationOf_isOk (fields : List (String × Json)) :
    (authenticationOf (.obj fields)).isOk = readableAuthentication fields := by
  have htake : ∀ auth : Json, (if auth.truthy = true then
      (firstOf auth ["scheme", "authType", "auth_type"] >>= fun scheme =>
        firstOf auth ["credentials", "authCode", "auth_code"] >>= fun credentials =>
          pure (some ⟨scheme, credentials⟩))
      else pure none : Except PyError (Option AuthenticationInfo)).isOk =
        (!auth.truthy || auth.isDict) := by
    intro auth
    by_cases htruthy : auth.truthy = true
    · rw [if_pos htruthy, htruthy, Bool.not_true, Bool.false_or]
      cases auth with
      | obj fields =>
          refine (isOk_bind (b := true) fun scheme _ => ?_).trans ?_
          · exact (isOk_bind (b := true) fun credentials _ => rfl).trans (by rw [firstOf_obj]; rfl)
          · rw [firstOf_obj]
            rfl
      | _ => rfl
    · rw [if_neg htruthy, Bool.eq_false_of_not_eq_true htruthy]
      rfl
  unfold authenticationOf readableAuthentication
  rw [Json.get_obj, ok_bind, Json.orElse]
  split_ifs with hauth
  · exact htake _
  · exact htake _

/-- What `_rest_create_push_config` does with a body whose fields are there. -/
theorem readableConfig_obj {fields : List (String × Json)}
    (hurl : ((fields.lookup "url").getD (.str "")).truthy = true)
    (hkey : (configKey fields).truthy = true) :
    readableConfig (.obj fields) = (authenticationOf (.obj fields)).isOk := by
  rw [authenticationOf_isOk]
  simp [readableConfig, hurl, hkey]

end HermesA2A
