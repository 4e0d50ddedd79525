import HermesA2A.Json
import HermesA2A.Lib.Text

/-!
# Calling an agent by name

An agent is called by its name: `_resolve_rpc_target` looks it up in the registry and
gives the URL, the credentials and the loopback flag for the call.  The registry has
them all, under `transports.a2a_rpc` of the agent's `identity.yaml`, and
`_load_yaml_file` takes care of them, filling in defaults and secrets from the
environment.  `resolve_agent` then hands on four fields of the identity, and
`transports` is not among them.

`usesRegistration_iff` says what is left: the URL arrives, a credential never does.

A YAML document is a `Json` here, a tree: the agent card's `auth`, which the source
shares with that of `a2a_rpc`, is a copy.  The `id` that `_normalize_identity` fills
in is left out, since nothing here reads it.
-/

namespace HermesA2A

/-- The members of a dictionary. -/
abbrev Fields := List (String × Json)

/-- `x if isinstance(x, dict) else {}` -/
def dictOr : Option Json → Fields
  | some (.obj fields) => fields
  | _ => []

@[simp] theorem dictOr_obj (fields : Fields) : dictOr (some (.obj fields)) = fields := rfl

/-- `bool(fields.get(key))` -/
def truthyAt (fields : Fields) (key : String) : Bool := ((fields.lookup key).getD .null).truthy

/-- A file of the registry, and what the YAML parser makes of it. -/
inductive YamlFile
  | missing
  | malformed
  | parsed (document : Json)

/-- What a lookup depends on: the files of the registry by agent key, the
environment, and `str.lower`, a Unicode function known on ASCII. -/
structure Fleet where
  /-- `<fleet root>/a2a/agents/<key>/identity.yaml` -/
  identity : String → YamlFile
  /-- `<hermes root>/profiles/<key>/a2a/vault.yaml` -/
  vault : String → YamlFile
  environ : String → Option String
  lower : String → String
  lower_ascii : ∀ s : String, (∀ c ∈ s.toList, c.toNat < 128) →
    lower s = String.ofList (s.toList.map Char.toLower)

theorem Fleet.lower_of_ascii (fleet : Fleet) {s : String}
    (h : s.toList.all (·.toNat < 128) = true) :
    fleet.lower s = String.ofList (s.toList.map Char.toLower) :=
  fleet.lower_ascii s fun c hc => of_decide_eq_true (List.all_eq_true.mp h c hc)

/-! ### Reading an identity -/

/-- `^\$\{([^}]+)\}$` -/
def interpolated? (text : String) : Option String :=
  match text.toList with
  | '$' :: '\x7b' :: rest =>
      match rest.span (· ≠ '\x7d') with
      | (c :: key, ['\x7d']) => some (String.ofList (c :: key))
      | _ => none
  | _ => none

/-- `_resolve_env` -/
def resolveEnv (environ : String → Option String) : Json → Json
  | .str value =>
      match interpolated? value.strip with
      | some key => .str ((environ key).getD value)
      | none => .str value
  | value => value

/-- A falsy member is filled in from a truthy one of the identity. -/
def inheritField (key source : String) (data part : Fields) : Fields :=
  if truthyAt part key = false ∧ truthyAt data source = true then
    Json.setField key ((data.lookup source).getD .null) part
  else part

/-- A falsy member is filled in. -/
def defaultField (key : String) (value : Json) (part : Fields) : Fields :=
  if truthyAt part key then part else Json.setField key value part

/-- The legacy Telegram fields. -/
def withTelegram (data : Fields) : Fields :=
  let platforms := dictOr (data.lookup "platforms")
  let telegram := dictOr (platforms.lookup "telegram")
  let telegram := inheritField "bot_token" "telegram_bot_token" data telegram
  let telegram := inheritField "default_chat_id" "telegram_chat_id" data telegram
  if telegram.isEmpty then data
  else Json.setField "platforms" (.obj (Json.setField "telegram" (.obj telegram) platforms)) data

/-- A transport that `_normalize_identity` fills in: where it stands, and the legacy
fields it is filled in from. -/
structure TransportKind where
  name : String
  urlKey : String
  protocol : String
  credentialKey : String
  authType : String
  secretKey : String

/-- `a2a_rpc` -/
def a2aRpc : TransportKind where
  name := "a2a_rpc"
  urlKey := "a2a_url"
  protocol := "google-a2a"
  credentialKey := "auth_token"
  authType := "bearer"
  secretKey := "token"

/-- `hermes_webhook` -/
def hermesWebhook : TransportKind where
  name := "hermes_webhook"
  urlKey := "webhook_url"
  protocol := "hermes-webhook"
  credentialKey := "webhook_secret"
  authType := "hmac-sha256"
  secretKey := "secret"

/-- The auth section of a transport that has none. -/
def TransportKind.defaultAuth (kind : TransportKind) (data : Fields) : Json :=
  if truthyAt data kind.credentialKey then
    .obj [("type", .str kind.authType),
      (kind.secretKey, (data.lookup kind.credentialKey).getD .null)]
  else .obj [("type", .str "none")]

/-- The transport with its URL, protocol and auth filled in. -/
def TransportKind.fill (kind : TransportKind) (data transport : Fields) : Fields :=
  defaultField "auth" (kind.defaultAuth data) <|
    defaultField "protocol" (.str kind.protocol) <|
      inheritField "url" kind.urlKey data transport

/-- A transport goes back among the others: one with a URL in any case, and one that
was a dictionary because it was changed in place. -/
def TransportKind.putBack (kind : TransportKind) (transport transports : Fields) : Fields :=
  if truthyAt transport "url" ∨ ((transports.lookup kind.name).getD .null).isDict then
    Json.setField kind.name (.obj transport) transports
  else transports

/-- The legacy fields follow a transport that has a URL. -/
def TransportKind.publish (kind : TransportKind) (transport data : Fields) :
    Except PyError Fields :=
  if truthyAt transport "url" then do
    let data := Json.setField kind.urlKey ((transport.lookup "url").getD (.str "")) data
    if truthyAt data kind.credentialKey then return data
    let auth := ((transport.lookup "auth").getD .null).orElse (.obj [])
    let secret ← auth.get kind.secretKey (.str "")
    return Json.setField kind.credentialKey secret data
  else return data

/-- The agent card's auth is that of `a2a_rpc`, unless it has its own. -/
def withAgentCard (rpc transports : Fields) : Fields :=
  let card := dictOr (transports.lookup "agent_card")
  if truthyAt card "url" then
    let auth := ((rpc.lookup "auth").getD .null).orElse (.obj [("type", .str "none")])
    Json.setField "agent_card" (.obj (defaultField "auth" auth card)) transports
  else transports

/-- `data["defaults"]` -/
def withDefaults (data : Fields) : Fields :=
  if (data.lookup "defaults").isSome then data
  else
    Json.setField "defaults" (.obj [("platform", .str "telegram"), ("chat_type", .str "dm")]) data

/-- `_normalize_identity` -/
def normalizeIdentity : Json → Except PyError Fields
  | .obj raw => do
      let data := withTelegram raw
      let transports := dictOr (data.lookup "transports")
      let rpc := a2aRpc.fill data (dictOr (transports.lookup a2aRpc.name))
      let transports := a2aRpc.putBack rpc transports
      let data ← a2aRpc.publish rpc data
      let webhook := hermesWebhook.fill data (dictOr (transports.lookup hermesWebhook.name))
      let transports := hermesWebhook.putBack webhook transports
      let data ← hermesWebhook.publish webhook data
      let transports := withAgentCard rpc transports
      let data :=
        if transports.isEmpty then data else Json.setField "transports" (.obj transports) data
      return withDefaults data
  | _ => return []

section Environment

variable (environ : String → Option String)

/-- `if key in auth: auth[key] = _resolve_env(auth[key])` -/
def interpolate (key : String) (auth : Fields) : Fields :=
  match auth.lookup key with
  | some value => Json.setField key (resolveEnv environ value) auth
  | none => auth

/-- `if auth.get(env_key) and not auth.get(key): auth[key] = os.environ.get(…, "")` -/
def fromEnviron (envKey key : String) (auth : Fields) : Except PyError Fields :=
  if truthyAt auth envKey = true ∧ truthyAt auth key = false then
    match auth.lookup envKey with
    | some (.str var) => return Json.setField key (.str ((environ var).getD "")) auth
    | _ => throw .typeError
  else return auth

/-- The secrets of an auth section. -/
def resolveAuth (auth : Fields) : Except PyError Fields := do
  let auth := interpolate environ "token" auth
  let auth := interpolate environ "secret" auth
  let auth := interpolate environ "value" auth
  let auth ← fromEnviron environ "token_env" "token" auth
  let auth ← fromEnviron environ "secret_env" "secret" auth
  fromEnviron environ "value_env" "value" auth

/-- The secrets of a transport. -/
def resolveTransport (transport : Json) : Except PyError Json := do
  match ← transport.get "auth" .null with
  | .obj auth => do
      let auth ← resolveAuth environ auth
      transport.set "auth" (.obj auth)
  | _ => return transport

/-- `if key in cfg: cfg[key] = _resolve_env(cfg[key])` -/
def resolveItem (key : String) (cfg : Json) : Except PyError Json := do
  if ← cfg.contains key then
    match cfg with
    | .obj fields => return .obj (interpolate environ key fields)
    | _ => throw .typeError
  else return cfg

/-- The secrets of a platform. -/
def resolvePlatform (cfg : Json) : Except PyError Json := do
  let cfg ← resolveItem environ "bot_token" cfg
  resolveItem environ "default_chat_id" cfg

/-- Change the values of a dictionary, in order. -/
def mapValues (f : Json → Except PyError Json) (fields : Fields) : Except PyError Fields :=
  fields.mapM fun e => do
    let value ← f e.2
    return (e.1, value)

/-- `for … in data.get(key, {}).values(): …` -/
def mapMember (key : String) (f : Json → Except PyError Json) (data : Fields) :
    Except PyError Fields :=
  match data.lookup key with
  | none => return data
  | some (.obj fields) => do
      let fields ← mapValues f fields
      return Json.setField key (.obj fields) data
  | some _ => throw .attributeError

/-- `_load_yaml_file`, for a document that is there. -/
def loadDocument (raw : Json) : Except PyError Fields := do
  let data ← normalizeIdentity raw
  let data ← mapMember "transports" (resolveTransport environ) data
  let data ← normalizeIdentity (.obj data)
  mapMember "platforms" (resolvePlatform environ) data

/-- Why a file could not be loaded. -/
inductive LoadError
  /-- `RuntimeError`: the YAML is malformed. -/
  | malformed
  /-- Any other exception. -/
  | raised (e : PyError)

/-- `_load_yaml_file` -/
def loadYamlFile : YamlFile → Except LoadError (Option Fields)
  | .missing => return none
  | .malformed => throw .malformed
  | .parsed raw =>
      if raw.truthy then
        match loadDocument environ raw with
        | .ok data => return some data
        | .error e => throw (.raised e)
      else return none

end Environment

/-! ### Looking an agent up -/

/-- `fields.get(key, "")` -/
def textAt (fields : Fields) (key : String) : Json := (fields.lookup key).getD (.str "")

/-- What `resolve_agent` hands on of an identity. -/
def publicIdentity (identity : Fields) : Fields :=
  [ ("name", textAt identity "name"), ("a2a_url", textAt identity "a2a_url"),
    ("description", textAt identity "description"), ("role", textAt identity "role") ]

/-- `agents.get(agent_key) or agents.get(name)` -/
def agentEntry (agents : Json) (key name : String) : Except PyError Json := do
  let entry ← agents.get key .null
  if entry.truthy then return entry
  agents.get name .null

namespace Fleet

variable (fleet : Fleet)

/-- The entry for an agent in its profile's vault. -/
def vaultAgent (key name : String) : Except PyError (Option Fields) :=
  match loadYamlFile fleet.environ (fleet.vault key) with
  | .error _ => return none
  | .ok raw => do
      let agents := ((raw.getD []).lookup "agents").getD (.obj [])
      let entry ← agentEntry agents key name
      if entry.truthy then
        let url ← entry.get "a2a_url" (.str "")
        let description ← entry.get "description" (.str "")
        let role ← entry.get "role" (.str "")
        return some [("a2a_url", url), ("description", description), ("role", role)]
      else return none

/-- The agent's entry in the vault, as an answer of `resolve_agent`. -/
def fallback (key name : String) : Except LoadError (Option Fields) :=
  (fleet.vaultAgent key name).mapError .raised

/-- `resolve_agent` -/
def resolveAgent (name : String) : Except LoadError (Option Fields) :=
  if name = "" then return none
  else
    let key := fleet.lower name
    match loadYamlFile fleet.environ (fleet.identity key) with
    | .error .malformed => throw .malformed
    | .ok (some identity) =>
        if identity.isEmpty then fleet.fallback key name else return some (publicIdentity identity)
    | _ => fleet.fallback key name

end Fleet

/-- `_transport` -/
def transportOf (agentInfo : Fields) (name : String) : Except PyError Fields := do
  let transports := (agentInfo.lookup "transports").getD (.obj [])
  let transport ← transports.get name (.obj [])
  return dictOr (some transport)

/-- What a call by name goes to. -/
inductive RpcTarget
  | found (url auth : Json) (allowLoopback : Bool)
  | unknown (error : String)

/-- The target in an agent's entry. -/
def targetOf (name : String) (agentInfo : Fields) : Except PyError RpcTarget := do
  let rpc ← transportOf agentInfo "a2a_rpc"
  let url := (textAt rpc "url").orElse (textAt agentInfo "a2a_url")
  let auth := ((rpc.lookup "auth").getD .null).orElse
    (.obj [("type", .str "bearer"), ("token", textAt agentInfo "auth_token")])
  let allowLoopback := truthyAt rpc "allow_loopback" || truthyAt agentInfo "allow_loopback"
  if url.truthy then return .found url auth allowLoopback
  else return .unknown ("Agent '" ++ name ++ "' has no a2a_url in vault")

/-- `_resolve_rpc_target` -/
def Fleet.resolveRpcTarget (fleet : Fleet) (name : String) : Except LoadError RpcTarget :=
  match fleet.resolveAgent name with
  | .error e => throw e
  | .ok none => return .unknown ("Agent '" ++ name ++ "' not found in vault registry")
  | .ok (some agentInfo) => (targetOf name agentInfo).mapError .raised

/-- `str(auth.get("type") or "none").lower()` -/
def authType (lower : String → String) (auth : Fields) : String :=
  lower (((auth.lookup "type").getD .null).orElse (.str "none")).display

/-- `auth.get(key) or auth.get(other) or ""` -/
def eitherAt (auth : Fields) (key other : String) : Json :=
  (((auth.lookup key).getD .null).orElse ((auth.lookup other).getD .null)).orElse (.str "")

/-- `_auth_headers`: a header and its value. -/
def authHeaders (lower : String → String) : Json → Option (Json × Json)
  | .obj auth =>
      let type := authType lower auth
      if type = "bearer" then
        let token := eitherAt auth "token" "value"
        if token.truthy then some (.str "Authorization", .str ("Bearer " ++ token.display)) else none
      else if type = "api_key" ∨ type = "custom_header" then
        let header := eitherAt auth "header" "name"
        let value := eitherAt auth "value" "token"
        if header.truthy ∧ value.truthy then some (header, value) else none
      else none
  | _ => none

/-! ### What was registered -/

/-- The value of the environment variable a member names. -/
def variableOf (environ : String → Option String) (auth : Fields) (envKey : String) : Json :=
  match auth.lookup envKey with
  | some (.str var) => if var = "" then .null else .str ((environ var).getD "")
  | _ => .null

/-- The secret an auth section names, by itself or by an environment variable; falsy
where it is not available. -/
def secretOf (environ : String → Option String) (auth : Fields) (key envKey : String) : Json :=
  (resolveEnv environ ((auth.lookup key).getD .null)).orElse (variableOf environ auth envKey)

/-- The header an auth section asks for, where its secret is available. -/
def configuredHeader (fleet : Fleet) (auth : Fields) : Option (Json × Json) :=
  let type := authType fleet.lower auth
  if type = "bearer" then
    let token := secretOf fleet.environ auth "token" "token_env"
    if token.truthy then some (.str "Authorization", .str ("Bearer " ++ token.display)) else none
  else if type = "api_key" ∨ type = "custom_header" then
    let header := eitherAt auth "header" "name"
    let value := secretOf fleet.environ auth "value" "value_env"
    if header.truthy ∧ value.truthy then some (header, value) else none
  else none

/-- **A call by name uses what was registered**: the URL, the loopback flag, and a
header whenever there is one to be used. -/
def UsesRegistration (fleet : Fleet) (name : String) (rpc : Fields) : Prop :=
  ∃ resolved, fleet.resolveRpcTarget name =
      .ok (.found (textAt rpc "url") resolved (truthyAt rpc "allow_loopback")) ∧
    ∀ auth header, rpc.lookup "auth" = some (.obj auth) →
      configuredHeader fleet auth = some header → authHeaders fleet.lower resolved = some header

/-! ### Registering an agent -/

/-- The credentials `a2a_discover` was called with; `""` is what was left out. -/
structure DiscoverAuth where
  authToken : String
  authType : String
  authHeader : String
  authValue : String
  authTokenEnv : String
  authValueEnv : String

/-- `a or b` -/
def orText (a b : String) : String := if a = "" then b else a

/-- `_direct_auth` -/
def directAuth (a : DiscoverAuth) : Fields :=
  if a.authType ≠ "" ∨ a.authHeader ≠ "" ∨ a.authValue ≠ "" then
    [ ("type", .str (orText a.authType (if a.authHeader ≠ "" then "custom_header" else "bearer"))),
      ("header", .str a.authHeader), ("value", .str (orText a.authValue a.authToken)),
      ("token", .str (orText a.authToken a.authValue)) ]
  else if a.authToken ≠ "" then [("type", .str "bearer"), ("token", .str a.authToken)]
  else [("type", .str "none")]

/-- `auth.get(key)`, in a section of texts; `""` where there is none -/
def sectionText (auth : Fields) (key : String) : String :=
  match auth.lookup key with
  | some (.str text) => text
  | _ => ""

/-- `_public_auth_config`, of a section of texts -/
def publicAuthConfig (lower : String → String) (a : DiscoverAuth) (auth : Fields) : Fields :=
  let type := lower (orText a.authType (orText (sectionText auth "type") "none"))
  if type = "bearer" then
    if a.authTokenEnv ≠ "" then [("type", .str "bearer"), ("token_env", .str a.authTokenEnv)]
    else [("type", .str "none")]
  else if type = "api_key" ∨ type = "custom_header" then
    let header := orText a.authHeader (orText (sectionText auth "header") (sectionText auth "name"))
    if header ≠ "" ∧ a.authValueEnv ≠ "" then
      [("type", .str type), ("header", .str header), ("value_env", .str a.authValueEnv)]
    else [("type", .str "none")]
  else [("type", .str "none")]

/-- An agent as it is registered: its key, the validated URLs, and what its card says
of it. -/
structure Registration where
  agentKey : String
  registerAs : String
  rpcUrl : String
  agentCardUrl : String
  safePath : String
  publicAuth : Fields
  description : Json
  metadata : Fields

/-- The transports of a registered agent. -/
def Registration.transports (r : Registration) : Fields :=
  [ ("a2a_rpc", .obj [("protocol", .str "google-a2a"), ("url", .str r.rpcUrl),
      ("auth", .obj r.publicAuth)]),
    ("agent_card", .obj [("protocol", .str "google-a2a-agent-card"), ("url", .str r.agentCardUrl),
      ("path", .str r.safePath), ("auth", .obj r.publicAuth)]) ]

/-- The file that `_register_external_agent_identity` writes. -/
def Registration.identity (r : Registration) : Fields :=
  [ ("id", .str r.agentKey), ("name", .str r.registerAs), ("description", r.description),
    ("role", .str "external-a2a-agent"), ("external", .bool true),
    ("transports", .obj r.transports), ("metadata", .obj r.metadata) ]

/-! ### The URL arrives -/

/-- The identity has an `a2a_rpc` transport with this member. -/
def ListsRpc (identity : Fields) (key : String) (value : Json) : Prop :=
  ∃ transports rpc, identity.lookup "transports" = some (.obj transports) ∧
    transports.lookup "a2a_rpc" = some (.obj rpc) ∧ rpc.lookup key = some value

section Load

variable {environ : String → Option String} {data data' raw part : Fields} {url value : Json}
  {key k : String}

theorem lookup_setField_of_ne (h : k ≠ key) :
    (Json.setField key value data).lookup k = data.lookup k := by
  rw [Json.lookup_setField, if_neg h]

theorem lookup_defaultField_of_ne (h : k ≠ key) :
    (defaultField key value part).lookup k = part.lookup k := by
  unfold defaultField
  split_ifs
  · rfl
  · exact lookup_setField_of_ne h

theorem lookup_withTelegram_of_ne (h : k ≠ "platforms") :
    (withTelegram data).lookup k = data.lookup k := by
  unfold withTelegram
  dsimp only
  split_ifs
  · rfl
  · exact lookup_setField_of_ne h

theorem lookup_withDefaults_of_ne (h : k ≠ "defaults") :
    (withDefaults data).lookup k = data.lookup k := by
  unfold withDefaults
  split_ifs
  · rfl
  · exact lookup_setField_of_ne h

theorem truthyAt_of_lookup (h : data.lookup key = some value) :
    truthyAt data key = value.truthy := by
  unfold truthyAt
  rw [h]
  rfl

/-- What a transport has is not filled in. -/
theorem TransportKind.lookup_fill (kind : TransportKind) (h : part.lookup k = some value)
    (hset : value.truthy = true) : (kind.fill data part).lookup k = some value := by
  have hdefault : ∀ {key default part}, List.lookup k part = some value →
      (defaultField key default part).lookup k = some value := by
    intro key default part h
    by_cases hk : k = key
    · subst hk
      unfold defaultField
      rw [truthyAt_of_lookup h, hset, if_pos rfl, h]
    · rw [lookup_defaultField_of_ne hk, h]
  refine hdefault (hdefault ?_)
  unfold inheritField
  by_cases hk : k = "url"
  · subst hk
    rw [truthyAt_of_lookup h, hset, if_neg (by simp), h]
  · split_ifs
    · rw [lookup_setField_of_ne hk, h]
    · exact h

theorem TransportKind.lookup_putBack_of_ne (kind : TransportKind) (h : k ≠ kind.name) :
    (kind.putBack part data).lookup k = data.lookup k := by
  unfold putBack
  split_ifs
  · exact lookup_setField_of_ne h
  · rfl

/-- A transport's legacy fields are its URL and its credential. -/
theorem TransportKind.lookup_publish_of_ne (kind : TransportKind)
    (h : kind.publish part data = .ok data') (hurl : k ≠ kind.urlKey)
    (hcredential : k ≠ kind.credentialKey) : data'.lookup k = data.lookup k := by
  unfold publish at h
  split_ifs at h
  · dsimp only at h
    split_ifs at h
    · rw [← Except.ok.inj h, lookup_setField_of_ne hurl]
    · obtain ⟨secret, -, h⟩ := exists_of_bind_ok h
      rw [← Except.ok.inj h, lookup_setField_of_ne hcredential, lookup_setField_of_ne hurl]
  · rw [← Except.ok.inj h]

theorem TransportKind.lookup_publish_url (kind : TransportKind)
    (h : kind.publish part data = .ok data') (hne : kind.urlKey ≠ kind.credentialKey)
    (hurl : part.lookup "url" = some url) (hset : url.truthy = true) :
    data'.lookup kind.urlKey = some url := by
  unfold publish at h
  rw [if_pos (by rw [truthyAt_of_lookup hurl, hset]), hurl] at h
  dsimp only at h
  split_ifs at h
  · rw [← Except.ok.inj h, Json.lookup_setField_self]
    rfl
  · obtain ⟨secret, -, h⟩ := exists_of_bind_ok h
    rw [← Except.ok.inj h, lookup_setField_of_ne hne, Json.lookup_setField_self]
    rfl

theorem lookup_withAgentCard_of_ne {rpc : Fields} (h : k ≠ "agent_card") :
    (withAgentCard rpc data).lookup k = data.lookup k := by
  unfold withAgentCard
  dsimp only
  split_ifs
  · exact lookup_setField_of_ne h
  · rfl

/-- **Normalising keeps what the transport has**, and publishes its URL. -/
theorem ListsRpc.normalized (hlists : ListsRpc raw k value) (hset : value.truthy = true)
    (h : normalizeIdentity (.obj raw) = .ok data) :
    ListsRpc data k value ∧ (k = "url" → data.lookup "a2a_url" = some value) := by
  obtain ⟨transports, rpc, htransports, hrpc, hmember⟩ := hlists
  have hname : a2aRpc.name = "a2a_rpc" := rfl
  unfold normalizeIdentity at h
  dsimp only at h
  rw [lookup_withTelegram_of_ne (by decide), htransports] at h
  simp only [dictOr_obj, hname, hrpc] at h
  have hfilled : (a2aRpc.fill (withTelegram raw) rpc).lookup k = some value :=
    a2aRpc.lookup_fill hmember hset
  obtain ⟨data₁, hpublish, h⟩ := exists_of_bind_ok h
  obtain ⟨data₂, hwebhook, h⟩ := exists_of_bind_ok h
  obtain rfl := Except.ok.inj h
  -- the transports that go back into the identity
  generalize hcards : withAgentCard _ _ = cards
  have hcard : cards.lookup "a2a_rpc" = some (.obj (a2aRpc.fill (withTelegram raw) rpc)) := by
    rw [← hcards, lookup_withAgentCard_of_ne (by decide),
      hermesWebhook.lookup_putBack_of_ne (by decide)]
    unfold TransportKind.putBack
    have hdict : ((some (Json.obj rpc)).getD .null).isDict = true := rfl
    rw [hname, hrpc, if_pos (Or.inr hdict)]
    exact Json.lookup_setField_self ..
  have hsome : cards.isEmpty = false := by
    cases cards with
    | nil => cases hcard
    | cons => rfl
  rw [hsome]
  refine ⟨⟨cards, _, ?_, hcard, hfilled⟩, ?_⟩
  · rw [lookup_withDefaults_of_ne (by decide)]
    exact Json.lookup_setField_self ..
  · rintro rfl
    have hpublished : data₁.lookup "a2a_url" = some value :=
      a2aRpc.lookup_publish_url hpublish (by decide) hfilled hset
    rw [lookup_withDefaults_of_ne (by decide)]
    refine (lookup_setField_of_ne (by decide)).trans ?_
    rw [hermesWebhook.lookup_publish_of_ne hwebhook (by decide) (by decide), hpublished]

theorem lookup_mapValues {f : Json → Except PyError Json} {fields fields' : Fields}
    (h : mapValues f fields = .ok fields') (hk : fields.lookup k = some value) :
    ∃ value', f value = .ok value' ∧ fields'.lookup k = some value' := by
  induction fields generalizing fields' with
  | nil => cases hk
  | cons e fields ih =>
      unfold mapValues at h
      rw [List.mapM_cons] at h
      obtain ⟨e', he, h⟩ := exists_of_bind_ok h
      obtain ⟨rest, hrest, h⟩ := exists_of_bind_ok h
      obtain ⟨v, hv, he⟩ := exists_of_bind_ok he
      obtain rfl := Except.ok.inj he
      obtain rfl := Except.ok.inj h
      rw [Json.lookup_cons_eq] at hk ⊢
      split_ifs at hk ⊢ with heq
      · obtain rfl := Option.some.inj hk
        exact ⟨v, hv, rfl⟩
      · exact ih hrest hk

theorem lookup_mapMember_of_ne {f : Json → Except PyError Json}
    (h : mapMember key f data = .ok data')
    (hne : k ≠ key) : data'.lookup k = data.lookup k := by
  unfold mapMember at h
  split at h
  · rw [← Except.ok.inj h]
  · obtain ⟨fields, -, h⟩ := exists_of_bind_ok h
    rw [← Except.ok.inj h, lookup_setField_of_ne hne]
  · cases h

/-- Resolving secrets changes a transport's auth section only. -/
theorem resolveTransport_obj {transport' : Json}
    (h : resolveTransport environ (.obj part) = .ok transport') :
    ∃ part', transport' = .obj part' ∧ (∀ k, k ≠ "auth" → part'.lookup k = part.lookup k) ∧
      ∀ auth, part.lookup "auth" = some (.obj auth) →
        ∃ resolved, resolveAuth environ auth = .ok resolved ∧
          part'.lookup "auth" = some (.obj resolved) := by
  obtain ⟨section', hsection, h⟩ := exists_of_bind_ok h
  obtain rfl := Except.ok.inj hsection
  split at h
  · rename_i auth hauth
    obtain ⟨resolved, hresolved, h⟩ := exists_of_bind_ok h
    refine ⟨_, (Except.ok.inj h).symm, fun k hk => lookup_setField_of_ne hk, fun auth' hauth' => ?_⟩
    rw [hauth', Option.getD_some] at hauth
    obtain rfl := Json.obj.inj hauth
    exact ⟨resolved, hresolved, Json.lookup_setField_self ..⟩
  · rename_i hnot
    refine ⟨part, (Except.ok.inj h).symm, fun _ _ => rfl, fun auth' hauth' => ?_⟩
    rw [hauth'] at hnot
    exact absurd rfl (hnot auth')

/-- The transports, with their secrets. -/
theorem resolved_a2aRpc {transports rpc : Fields}
    (htransports : data.lookup "transports" = some (.obj transports))
    (hrpc : transports.lookup "a2a_rpc" = some (.obj rpc))
    (h : mapMember "transports" (resolveTransport environ) data = .ok data') :
    ∃ transports' rpc', data'.lookup "transports" = some (.obj transports') ∧
      transports'.lookup "a2a_rpc" = some (.obj rpc') ∧
        resolveTransport environ (.obj rpc) = .ok (.obj rpc') := by
  unfold mapMember at h
  rw [htransports] at h
  obtain ⟨transports', hmap, h⟩ := exists_of_bind_ok h
  obtain ⟨value, hvalue, hrpc'⟩ := lookup_mapValues hmap hrpc
  obtain ⟨rpc', rfl, -⟩ := resolveTransport_obj hvalue
  refine ⟨transports', rpc', ?_, hrpc', hvalue⟩
  rw [← Except.ok.inj h]
  exact Json.lookup_setField_self ..

theorem ListsRpc.resolved (hlists : ListsRpc data k value) (hk : k ≠ "auth")
    (h : mapMember "transports" (resolveTransport environ) data = .ok data') :
    ListsRpc data' k value := by
  obtain ⟨transports, rpc, htransports, hrpc, hmember⟩ := hlists
  obtain ⟨transports', rpc', htransports', hrpc', hvalue⟩ := resolved_a2aRpc htransports hrpc h
  obtain ⟨part', heq, hkept, -⟩ := resolveTransport_obj hvalue
  obtain rfl := Json.obj.inj heq
  exact ⟨transports', rpc', htransports', hrpc', (hkept k hk).trans hmember⟩

/-- **A loaded identity has its transport's URL as `a2a_url`.** -/
theorem ListsRpc.loaded (hlists : ListsRpc raw "url" url) (hset : url.truthy = true)
    (h : loadDocument environ (.obj raw) = .ok data) : data.lookup "a2a_url" = some url := by
  obtain ⟨data₁, hnormalized, h⟩ := exists_of_bind_ok h
  obtain ⟨data₂, hresolved, h⟩ := exists_of_bind_ok h
  obtain ⟨data₃, hagain, h⟩ := exists_of_bind_ok h
  have hlists₂ := (hlists.normalized hset hnormalized).1.resolved (by decide) hresolved
  rw [lookup_mapMember_of_ne h (by decide), (hlists₂.normalized hset hagain).2 rfl]

end Load

/-! ### The credential is loaded -/

section Credential

variable {environ : String → Option String} {auth auth' : Fields} {key envKey k : String}

theorem lookup_interpolate (environ : String → Option String) (key : String) (auth : Fields)
    (k : String) : (interpolate environ key auth).lookup k =
      if k = key then (auth.lookup key).map (resolveEnv environ) else auth.lookup k := by
  unfold interpolate
  split
  · rename_i value hvalue
    rw [Json.lookup_setField, hvalue]
    rfl
  · rename_i hnone
    split_ifs with hk
    · rw [hk, hnone]
      rfl
    · rfl

theorem lookup_fromEnviron_of_ne (h : fromEnviron environ envKey key auth = .ok auth')
    (hk : k ≠ key) : auth'.lookup k = auth.lookup k := by
  unfold fromEnviron at h
  split_ifs at h
  · split at h
    · rw [← Except.ok.inj h, lookup_setField_of_ne hk]
    · cases h
  · rw [← Except.ok.inj h]

/-- An available secret is there afterwards, if it was not before. -/
theorem lookup_fromEnviron (h : fromEnviron environ envKey key auth = .ok auth')
    (hset : (((auth.lookup key).getD .null).orElse (variableOf environ auth envKey)).truthy = true) :
    (auth'.lookup key).getD .null =
      ((auth.lookup key).getD .null).orElse (variableOf environ auth envKey) := by
  unfold fromEnviron at h
  unfold Json.orElse at hset ⊢
  by_cases hkey : truthyAt auth key = true
  · have hkey' : ((auth.lookup key).getD .null).truthy = true := hkey
    rw [if_neg (by simp [hkey])] at h
    rw [if_pos hkey', ← Except.ok.inj h]
  · have hkey' : ¬ ((auth.lookup key).getD .null).truthy = true := hkey
    rw [if_neg hkey'] at hset ⊢
    unfold variableOf at hset ⊢
    cases hvar : auth.lookup envKey with
    | none =>
        rw [hvar] at hset
        cases hset
    | some value =>
        rw [hvar] at hset
        cases value with
        | str var =>
            dsimp only at hset ⊢
            by_cases hempty : var = ""
            · rw [if_pos hempty] at hset
              cases hset
            · have hnamed : truthyAt auth envKey = true := by
                rw [truthyAt_of_lookup hvar]
                exact bne_iff_ne.mpr hempty
              rw [if_pos ⟨hnamed, Bool.eq_false_iff.mpr hkey⟩, hvar] at h
              rw [if_neg hempty, ← Except.ok.inj h, Json.lookup_setField_self]
              rfl
        | _ => cases hset

/-- The members that hold a secret. -/
def secretKeys : List String := ["token", "secret", "value"]

section Resolve

variable {resolved : Fields}

/-- The secrets are looked up in the section as it was, each by itself. -/
theorem resolveAuth_steps (h : resolveAuth environ auth = .ok resolved) :
    ∃ auth₁ auth₂ auth₃, (∀ k, auth₁.lookup k =
        if k ∈ secretKeys then (auth.lookup k).map (resolveEnv environ) else auth.lookup k) ∧
      fromEnviron environ "token_env" "token" auth₁ = .ok auth₂ ∧
      fromEnviron environ "secret_env" "secret" auth₂ = .ok auth₃ ∧
      fromEnviron environ "value_env" "value" auth₃ = .ok resolved := by
  obtain ⟨auth₂, htoken, h⟩ := exists_of_bind_ok h
  obtain ⟨auth₃, hsecret, hvalue⟩ := exists_of_bind_ok h
  refine ⟨_, auth₂, auth₃, fun k => ?_, htoken, hsecret, hvalue⟩
  simp only [lookup_interpolate]
  by_cases htoken : k = "token"
  · subst htoken
    rfl
  · by_cases hsecret : k = "secret"
    · subst hsecret
      rfl
    · by_cases hvalue : k = "value"
      · subst hvalue
        rfl
      · rw [if_neg hvalue, if_neg hsecret, if_neg htoken, if_neg]
        unfold secretKeys
        simp only [List.mem_cons, List.not_mem_nil, or_false, not_or]
        exact ⟨htoken, hsecret, hvalue⟩

theorem lookup_resolveAuth_of_notMem (h : resolveAuth environ auth = .ok resolved)
    (hk : k ∉ secretKeys) : resolved.lookup k = auth.lookup k := by
  obtain ⟨auth₁, auth₂, auth₃, hlookup, htoken, hsecret, hvalue⟩ := resolveAuth_steps h
  unfold secretKeys at hk
  simp only [List.mem_cons, List.not_mem_nil, or_false, not_or] at hk
  rw [lookup_fromEnviron_of_ne hvalue hk.2.2, lookup_fromEnviron_of_ne hsecret hk.2.1,
    lookup_fromEnviron_of_ne htoken hk.1, hlookup, if_neg]
  unfold secretKeys
  simp only [List.mem_cons, List.not_mem_nil, or_false, not_or]
  exact hk

/-- What `fromEnviron` reads of a section in which the secrets are interpolated. -/
theorem secretOf_of_lookup (hkey : auth'.lookup key = (auth.lookup key).map (resolveEnv environ))
    (henv : auth'.lookup envKey = auth.lookup envKey) :
    ((auth'.lookup key).getD .null).orElse (variableOf environ auth' envKey) =
      secretOf environ auth key envKey := by
  unfold secretOf variableOf
  rw [hkey, henv]
  cases auth.lookup key <;> rfl

theorem lookup_token_resolveAuth (h : resolveAuth environ auth = .ok resolved)
    (hset : (secretOf environ auth "token" "token_env").truthy = true) :
    (resolved.lookup "token").getD .null = secretOf environ auth "token" "token_env" := by
  obtain ⟨auth₁, auth₂, auth₃, hlookup, htoken, hsecret, hvalue⟩ := resolveAuth_steps h
  have hread := secretOf_of_lookup (hlookup "token") (hlookup "token_env")
  rw [lookup_fromEnviron_of_ne hvalue (by decide), lookup_fromEnviron_of_ne hsecret (by decide),
    ← hread]
  rw [← hread] at hset
  exact lookup_fromEnviron htoken hset

theorem lookup_value_resolveAuth (h : resolveAuth environ auth = .ok resolved)
    (hset : (secretOf environ auth "value" "value_env").truthy = true) :
    (resolved.lookup "value").getD .null = secretOf environ auth "value" "value_env" := by
  obtain ⟨auth₁, auth₂, auth₃, hlookup, htoken, hsecret, hvalue⟩ := resolveAuth_steps h
  have hkept : ∀ k, k ≠ "token" → k ≠ "secret" → auth₃.lookup k = auth₁.lookup k :=
    fun k h₁ h₂ => (lookup_fromEnviron_of_ne hsecret h₂).trans (lookup_fromEnviron_of_ne htoken h₁)
  have hread := secretOf_of_lookup
    ((hkept "value" (by decide) (by decide)).trans (hlookup "value"))
    ((hkept "value_env" (by decide) (by decide)).trans (hlookup "value_env"))
  rw [← hread]
  rw [← hread] at hset
  exact lookup_fromEnviron hvalue hset

end Resolve

/-- A truthy member comes before the other one. -/
theorem eitherAt_of_truthy {other : String} {value : Json}
    (h : (auth.lookup key).getD .null = value) (hset : value.truthy = true) :
    eitherAt auth key other = value := by
  unfold eitherAt
  rw [h, Json.orElse_of_truthy hset, Json.orElse_of_truthy hset]

/-- **Where a secret is available, the resolved auth section has it.** -/
theorem authHeaders_resolveAuth (fleet : Fleet) {resolved : Fields} {header : Json × Json}
    (h : resolveAuth fleet.environ auth = .ok resolved)
    (hconfigured : configuredHeader fleet auth = some header) :
    authHeaders fleet.lower (.obj resolved) = some header := by
  have htype : authType fleet.lower resolved = authType fleet.lower auth := by
    unfold authType
    rw [lookup_resolveAuth_of_notMem h (by decide)]
  have hname : eitherAt resolved "header" "name" = eitherAt auth "header" "name" := by
    unfold eitherAt
    rw [lookup_resolveAuth_of_notMem h (by decide), lookup_resolveAuth_of_notMem h (by decide)]
  unfold configuredHeader at hconfigured
  unfold authHeaders
  dsimp only at hconfigured ⊢
  rw [htype, hname]
  by_cases hbearer : authType fleet.lower auth = "bearer"
  · rw [if_pos hbearer] at hconfigured ⊢
    by_cases hset : (secretOf fleet.environ auth "token" "token_env").truthy = true
    · rw [eitherAt_of_truthy (lookup_token_resolveAuth h hset) hset]
      exact hconfigured
    · rw [if_neg hset] at hconfigured
      cases hconfigured
  · rw [if_neg hbearer] at hconfigured ⊢
    by_cases hset : (secretOf fleet.environ auth "value" "value_env").truthy = true
    · rw [eitherAt_of_truthy (lookup_value_resolveAuth h hset) hset]
      exact hconfigured
    · split_ifs at hconfigured with hcustom hboth
      exact absurd hboth.2 hset

theorem authType_nil (fleet : Fleet) : authType fleet.lower [] = "none" := by
  change fleet.lower "none" = "none"
  rw [fleet.lower_of_ascii (by decide)]
  decide

/-- A section that asks for a header is not empty. -/
theorem truthy_of_configuredHeader {fleet : Fleet} {header : Json × Json}
    (h : configuredHeader fleet auth = some header) : (Json.obj auth).truthy = true := by
  cases auth with
  | nil =>
      unfold configuredHeader at h
      rw [authType_nil] at h
      cases h
  | cons => rfl

/-- A section that gives a header is not empty. -/
theorem truthy_of_authHeaders {fleet : Fleet} {header : Json × Json}
    (h : authHeaders fleet.lower (.obj auth) = some header) : (Json.obj auth).truthy = true := by
  cases auth with
  | nil =>
      unfold authHeaders at h
      dsimp only at h
      rw [authType_nil] at h
      cases h
  | cons => rfl

/-- **The loaded identity has the credential**: its `a2a_rpc` section gives the header
that was asked for. -/
theorem credential_loaded {fleet : Fleet} {raw data : Fields} {header : Json × Json}
    (hlists : ListsRpc raw "auth" (.obj auth))
    (hconfigured : configuredHeader fleet auth = some header)
    (h : loadDocument fleet.environ (.obj raw) = .ok data) :
    ∃ resolved, ListsRpc data "auth" (.obj resolved) ∧
      authHeaders fleet.lower (.obj resolved) = some header := by
  obtain ⟨data₁, hnormalized, h⟩ := exists_of_bind_ok h
  obtain ⟨data₂, hresolved, h⟩ := exists_of_bind_ok h
  obtain ⟨data₃, hagain, h⟩ := exists_of_bind_ok h
  obtain ⟨transports, rpc, htransports, hrpc, hauth⟩ :=
    (hlists.normalized (truthy_of_configuredHeader hconfigured) hnormalized).1
  obtain ⟨transports', rpc', htransports', hrpc', hvalue⟩ :=
    resolved_a2aRpc htransports hrpc hresolved
  obtain ⟨part, hpart, -, hsecrets⟩ := resolveTransport_obj hvalue
  obtain rfl := Json.obj.inj hpart
  obtain ⟨resolved, hresolve, hauth'⟩ := hsecrets auth hauth
  have hheader := authHeaders_resolveAuth fleet hresolve hconfigured
  have hlists' : ListsRpc data₂ "auth" (.obj resolved) :=
    ⟨transports', rpc', htransports', hrpc', hauth'⟩
  obtain ⟨transports₃, rpc₃, htransports₃, hrpc₃, hauth₃⟩ :=
    (hlists'.normalized (truthy_of_authHeaders hheader) hagain).1
  exact ⟨resolved, ⟨transports₃, rpc₃,
    (lookup_mapMember_of_ne h (by decide)).trans htransports₃, hrpc₃, hauth₃⟩, hheader⟩

end Credential

/-! ### A credential does not -/

/-- What `_resolve_rpc_target` takes for the credentials of an agent it was told
none of. -/
def noAuth : Json := .obj [("type", .str "bearer"), ("token", .str "")]

/-- The URL in the agent's vault entry. -/
def Fleet.vaultUrl? (fleet : Fleet) (name : String) : Option Json :=
  match fleet.vaultAgent (fleet.lower name) name with
  | .ok (some entry) => entry.lookup "a2a_url"
  | _ => none

section Target

variable {fleet : Fleet} {name : String} {raw transports rpc auth entry data : Fields} {url : Json}

/-- An answer of `resolve_agent` has no transports, no token and no loopback flag. -/
structure Stripped (entry : Fields) (url : Json) : Prop where
  url : entry.lookup "a2a_url" = some url
  transports : entry.lookup "transports" = none
  token : entry.lookup "auth_token" = none
  loopback : entry.lookup "allow_loopback" = none

theorem stripped_publicIdentity (h : data.lookup "a2a_url" = some url) :
    Stripped (publicIdentity data) url where
  url := by
    change some (textAt data "a2a_url") = some url
    unfold textAt
    rw [h]
    rfl
  transports := rfl
  token := rfl
  loopback := rfl

theorem Fleet.stripped_vaultAgent {key : String} (h : fleet.vaultAgent key name = .ok (some entry)) :
    ∃ url, Stripped entry url := by
  unfold vaultAgent at h
  split at h
  · cases h
  · dsimp only at h
    obtain ⟨agent, -, h⟩ := exists_of_bind_ok h
    split_ifs at h
    · obtain ⟨url, -, h⟩ := exists_of_bind_ok h
      obtain ⟨description, -, h⟩ := exists_of_bind_ok h
      obtain ⟨role, -, h⟩ := exists_of_bind_ok h
      obtain rfl := Option.some.inj (Except.ok.inj h)
      exact ⟨url, rfl, rfl, rfl, rfl⟩
    · cases Except.ok.inj h

/-- **A call by name has nothing but the URL.** -/
theorem Stripped.targetOf (h : Stripped entry url) :
    targetOf name entry =
      .ok (if url.truthy then .found url noAuth false
        else .unknown ("Agent '" ++ name ++ "' has no a2a_url in vault")) := by
  have hrpc : transportOf entry "a2a_rpc" = .ok [] := by
    unfold transportOf
    rw [h.transports]
    rfl
  unfold HermesA2A.targetOf
  rw [hrpc]
  unfold textAt truthyAt
  rw [h.url, h.token, h.loopback]
  change (if url.truthy = true then _ else _ : Except PyError RpcTarget) = _
  split_ifs <;> rfl

/-- No header comes of it. -/
theorem authHeaders_noAuth (fleet : Fleet) : authHeaders fleet.lower noAuth = none := by
  have htype : authType fleet.lower [("type", .str "bearer"), ("token", .str "")] = "bearer" := by
    change fleet.lower "bearer" = "bearer"
    rw [fleet.lower_of_ascii (by decide)]
    decide
  unfold authHeaders noAuth
  dsimp only
  rw [htype]
  rfl

theorem ListsRpc.truthy (hlists : ListsRpc raw "url" url) : (Json.obj raw).truthy = true := by
  obtain ⟨_, _, htransports, -⟩ := hlists
  cases raw with
  | nil => cases htransports
  | cons => rfl

/-- `resolve_agent` for an identity that loads. -/
theorem ListsRpc.resolveAgent_of_ok (hlists : ListsRpc raw "url" url) (hset : url.truthy = true)
    (hname : name ≠ "") (hfile : fleet.identity (fleet.lower name) = .parsed (.obj raw))
    (hload : loadDocument fleet.environ (.obj raw) = .ok data) :
    fleet.resolveAgent name = .ok (some (publicIdentity data)) := by
  have hsome : data.isEmpty = false := by
    have hurl := hlists.loaded hset hload
    cases data with
    | nil => cases hurl
    | cons => rfl
  have hidentity : loadYamlFile fleet.environ (.parsed (.obj raw)) = .ok (some data) := by
    unfold loadYamlFile
    dsimp only
    rw [if_pos hlists.truthy, hload]
    rfl
  unfold Fleet.resolveAgent
  rw [if_neg hname]
  dsimp only
  rw [hfile, hidentity]
  dsimp only
  rw [hsome]
  rfl

/-- `resolve_agent` for an identity that does not load. -/
theorem ListsRpc.resolveAgent_of_error (hlists : ListsRpc raw "url" url) (hname : name ≠ "")
    (hfile : fleet.identity (fleet.lower name) = .parsed (.obj raw)) {e : PyError}
    (hload : loadDocument fleet.environ (.obj raw) = .error e) :
    fleet.resolveAgent name = fleet.fallback (fleet.lower name) name := by
  have hidentity : loadYamlFile fleet.environ (.parsed (.obj raw)) = .error (.raised e) := by
    unfold loadYamlFile
    dsimp only
    rw [if_pos hlists.truthy, hload]
    rfl
  unfold Fleet.resolveAgent
  rw [if_neg hname]
  dsimp only
  rw [hfile, hidentity]

/-- The target in an entry without credentials. -/
theorem Stripped.target_iff {url' : Json} (h : Stripped entry url') (hset : url.truthy = true)
    (resolved : Json) (allowLoopback : Bool) :
    (HermesA2A.targetOf name entry).mapError LoadError.raised =
        .ok (.found url resolved allowLoopback) ↔
      url' = url ∧ resolved = noAuth ∧ allowLoopback = false := by
  rw [h.targetOf]
  constructor
  · intro heq
    split_ifs at heq
    · obtain ⟨rfl, rfl, rfl⟩ := RpcTarget.found.inj (Except.ok.inj heq)
      exact ⟨rfl, rfl, rfl⟩
    · cases Except.ok.inj heq
  · rintro ⟨rfl, rfl, rfl⟩
    rw [if_pos hset]
    rfl

/-- What a call by name finds for an agent whose identity file lists the URL. -/
theorem resolveRpcTarget_iff (hname : name ≠ "")
    (hfile : fleet.identity (fleet.lower name) = .parsed (.obj raw)) (hlists : ListsRpc raw "url" url)
    (hset : url.truthy = true) (resolved : Json) (allowLoopback : Bool) :
    fleet.resolveRpcTarget name = .ok (.found url resolved allowLoopback) ↔
      ((∃ data, loadDocument fleet.environ (.obj raw) = .ok data) ∨
          fleet.vaultUrl? name = some url) ∧ resolved = noAuth ∧ allowLoopback = false := by
  unfold Fleet.resolveRpcTarget
  cases hload : loadDocument fleet.environ (.obj raw) with
  | ok data =>
      have hstripped := stripped_publicIdentity (hlists.loaded hset hload)
      rw [hlists.resolveAgent_of_ok hset hname hfile hload]
      exact (hstripped.target_iff hset resolved allowLoopback).trans
        (and_congr_left fun _ => iff_of_true rfl (Or.inl ⟨data, rfl⟩))
  | error e =>
      rw [hlists.resolveAgent_of_error hname hfile hload]
      unfold Fleet.fallback Fleet.vaultUrl?
      have hnot : ¬ ∃ data, (Except.error e : Except PyError Fields) = .ok data := nofun
      rw [or_iff_right hnot]
      cases hvault : fleet.vaultAgent (fleet.lower name) name with
      | error e' => exact iff_of_false nofun fun h => nomatch h.1
      | ok answer =>
          cases answer with
          | none => exact iff_of_false nofun fun h => nomatch h.1
          | some entry =>
              obtain ⟨url', hstripped⟩ := Fleet.stripped_vaultAgent hvault
              refine (hstripped.target_iff hset resolved allowLoopback).trans
                (and_congr_left fun _ => ?_)
              change url' = url ↔ entry.lookup "a2a_url" = some url
              rw [hstripped.url, Option.some.injEq]

end Target

/-- **A registered agent is called without a credential**, whatever it was registered
with. -/
theorem Registration.called_without_credential {fleet : Fleet} {name : String} {auth : Json}
    {allowLoopback : Bool} (r : Registration) (hname : name ≠ "") (hurl : r.rpcUrl ≠ "")
    (hfile : fleet.identity (fleet.lower name) = .parsed (.obj r.identity))
    (htarget : fleet.resolveRpcTarget name = .ok (.found (.str r.rpcUrl) auth allowLoopback)) :
    authHeaders fleet.lower auth = none := by
  have hset : (Json.str r.rpcUrl).truthy = true := bne_iff_ne.mpr hurl
  have hlists : ListsRpc r.identity "url" (.str r.rpcUrl) := ⟨r.transports, _, rfl, rfl, rfl⟩
  obtain ⟨-, rfl, -⟩ := (resolveRpcTarget_iff hname hfile hlists hset auth allowLoopback).mp htarget
  exact authHeaders_noAuth fleet

/-- An agent registered with an API key that the environment holds. -/
def demoRegistration : Registration where
  agentKey := "external-demo"
  registerAs := "External Demo"
  rpcUrl := "https://external.example/rpc"
  agentCardUrl := "https://external.example"
  safePath := "/agent-card.json"
  publicAuth := publicAuthConfig id
    ⟨"", "api_key", "X-API-Key", "runtime-secret", "", "EXTERNAL_DEMO_KEY"⟩
    (directAuth ⟨"", "api_key", "X-API-Key", "runtime-secret", "", "EXTERNAL_DEMO_KEY"⟩)
  description := .str "demo"
  metadata := [("source", .str "a2a_discover")]

/-- A registry with that agent, and the environment. -/
def demoFleet (environ : String → Option String) : Fleet where
  identity key := if key = "external-demo" then .parsed (.obj demoRegistration.identity) else .missing
  vault _ := .missing
  environ := environ
  lower s := String.ofList (s.toList.map Char.toLower)
  lower_ascii _ _ := rfl

/-- **A call by name uses what was registered exactly where nothing but the URL was.** -/
theorem usesRegistration_iff {fleet : Fleet} {name : String} {raw transports rpc auth : Fields}
    {url : Json} (hname : name ≠ "")
    (hfile : fleet.identity (fleet.lower name) = .parsed (.obj raw))
    (htransports : raw.lookup "transports" = some (.obj transports))
    (hrpc : transports.lookup "a2a_rpc" = some (.obj rpc)) (hurl : rpc.lookup "url" = some url)
    (hset : url.truthy = true) (hauth : rpc.lookup "auth" = some (.obj auth)) :
    UsesRegistration fleet name rpc ↔
      configuredHeader fleet auth = none ∧ truthyAt rpc "allow_loopback" = false ∧
        ((∃ data, loadDocument fleet.environ (.obj raw) = .ok data) ∨
          fleet.vaultUrl? name = some url) := by
  have htext : textAt rpc "url" = url := by
    unfold textAt
    rw [hurl]
    rfl
  unfold UsesRegistration
  rw [htext]
  simp only [resolveRpcTarget_iff hname hfile ⟨transports, rpc, htransports, hrpc, hurl⟩ hset]
  constructor
  · rintro ⟨resolved, ⟨hfound, rfl, hloopback⟩, hheader⟩
    refine ⟨?_, hloopback, hfound⟩
    rw [Option.eq_none_iff_forall_ne_some]
    intro header hconfigured
    have hnone := hheader auth header hauth hconfigured
    rw [authHeaders_noAuth] at hnone
    cases hnone
  · rintro ⟨hnone, hloopback, hfound⟩
    refine ⟨noAuth, ⟨hfound, rfl, hloopback⟩, fun auth' header hauth' hconfigured => ?_⟩
    obtain rfl := Json.obj.inj (Option.some.inj (hauth.symm.trans hauth'))
    rw [hnone] at hconfigured
    cases hconfigured

/-- The `a2a_rpc` transport of the registered agent. -/
def demoRpc : Fields :=
  [("protocol", .str "google-a2a"), ("url", .str "https://external.example/rpc"),
    ("auth", .obj [("type", .str "api_key"), ("header", .str "X-API-Key"),
      ("value_env", .str "EXTERNAL_DEMO_KEY")])]

/-- Where the environment has no key, a call without one is what was asked for. -/
theorem demo_without_secret : UsesRegistration (demoFleet fun _ => none) "external-demo" demoRpc :=
  (@usesRegistration_iff _ _ demoRegistration.identity _ _ _ _ (by decide) (by rfl) rfl rfl rfl rfl
    rfl).mpr ⟨by rfl, rfl, Or.inl ⟨_, rfl⟩⟩

/-- Where it has one, the call goes out without it. -/
theorem demo_loses_secret : ¬ ∀ (fleet : Fleet) (name : String) (raw transports rpc auth : Fields)
    (url : Json), name ≠ "" → fleet.identity (fleet.lower name) = .parsed (.obj raw) →
      raw.lookup "transports" = some (.obj transports) →
      transports.lookup "a2a_rpc" = some (.obj rpc) → rpc.lookup "url" = some url →
      url.truthy = true → rpc.lookup "auth" = some (.obj auth) →
      UsesRegistration fleet name rpc := by
  intro hall
  obtain ⟨resolved, hfound, hheader⟩ := hall (demoFleet fun _ => some "runtime-secret")
    "external-demo" demoRegistration.identity _ demoRpc _ _ (by decide) (by rfl) rfl rfl rfl rfl rfl
  have hnone := demoRegistration.called_without_credential (by decide) (by decide) (by rfl) hfound
  have hsome := hheader _ (.str "X-API-Key", .str "runtime-secret") rfl (by rfl)
  rw [hnone] at hsome
  cases hsome

end HermesA2A
