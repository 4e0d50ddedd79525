import HermesA2A.Identity
import HermesA2A.TargetUrls
import HermesA2A.Lib.Paths
import HermesA2A.Lib.Regex

/-!
# Registering an external agent

`a2a_discover` can write what it found as the identity of an agent.  The name it is given is
any text; the key made of it names the directory of the file, and is what the agent is called
by from then on.

* `AgentKey` — a key that names a directory of its own.
* `Registered` — what a registration leaves behind: the file is inside the directory of the
  agents, nothing else is changed, and the agent is found under the key with its URL.
* `loads_of_external` — an identity of this kind can be loaded.
* `register_spec` — for every name, the registration writes nothing or is as it should be.
-/

namespace HermesA2A

open Paths

/-! ### The key -/

/-- `[a-z0-9_.-]` -/
def keyChar (c : Char) : Bool := c.isLower || c.isDigit || ['_', '.', '-'].contains c

/-- `[^a-z0-9_.-]+` -/
def KEY_BREAK : Pattern := { regex := Regex.plus fun c => !keyChar c }

/-- The characters that are stripped off a key. -/
def trimmed (c : Char) : Bool := ['-', '.', '_'].contains c

/-- `_safe_agent_key` -/
def safeAgentKey (lower : String → String) (name : String) : String :=
  let key := KEY_BREAK.sub ['-'] (lower name.strip).toList
  String.ofList (((key.dropWhile trimmed).rdropWhile trimmed).take 80)

/-- **A key**: `[a-z0-9][a-z0-9_.-]*`, of at most 80 characters. -/
def AgentKey (key : String) : Prop :=
  ∃ first rest, key.toList = first :: rest ∧ (first.isLower || first.isDigit) = true ∧
    (∀ c ∈ rest, keyChar c = true) ∧ key.length ≤ 80

section Key

variable {lower : String → String} {name : String} {c : Char}

/-- Nothing else is left by the substitution. -/
theorem keyChar_of_mem_sub {text : List Char} (h : c ∈ KEY_BREAK.sub ['-'] text) :
    keyChar c = true := by
  have hfree : KEY_BREAK.regex.Free (KEY_BREAK.sub ['-'] text) := by
    refine Pattern.free_sub_self (D := fun _ => True) rfl (Regex.Cut.of_avoids rfl)
      (fun _ _ _ _ => trivial) ?_ text
    intro s hne hs
    obtain rfl : s = ['-'] := by
      rcases List.suffix_cons_iff.mp hs with rfl | hnil
      · rfl
      · exact absurd (List.suffix_nil.mp hnil) hne
    rfl
  by_contra hnot
  obtain ⟨before, after, heq⟩ := List.append_of_mem h
  refine hfree [c] ⟨before, after, by rw [heq, List.append_assoc]; rfl⟩ ?_
  exact ⟨[c], [], rfl, ⟨c, by simpa using hnot, rfl⟩, fun _ hmem => absurd hmem List.not_mem_nil⟩

/-- What is not stripped off is a letter or a digit. -/
theorem alnum_of_not_trimmed (hkey : keyChar c = true) (h : trimmed c = false) :
    (c.isLower || c.isDigit) = true := by
  unfold keyChar at hkey
  rw [Bool.or_eq_true] at hkey
  refine hkey.resolve_right fun hmem => ?_
  have hrest : c ∈ ['_', '.', '-'] := List.contains_iff_mem.mp hmem
  have htrim : trimmed c = true := by
    refine List.contains_iff_mem.mpr ?_
    simp only [List.mem_cons, List.not_mem_nil, or_false] at hrest ⊢
    rcases hrest with rfl | rfl | rfl
    · exact Or.inr (Or.inr rfl)
    · exact Or.inr (Or.inl rfl)
    · exact Or.inl rfl
  rw [h] at htrim
  cases htrim

/-- **A key that is not empty is one.** -/
theorem agentKey_safeAgentKey (h : safeAgentKey lower name ≠ "") :
    AgentKey (safeAgentKey lower name) := by
  unfold safeAgentKey at h ⊢
  dsimp only at h ⊢
  generalize hsub : KEY_BREAK.sub ['-'] (lower name.strip).toList = dashed at h ⊢
  have hchars : ∀ c ∈ dashed, keyChar c = true := fun c hc => keyChar_of_mem_sub (hsub ▸ hc)
  have hpre : (dashed.dropWhile trimmed).rdropWhile trimmed <+: dashed.dropWhile trimmed :=
    List.rdropWhile_prefix _ _
  cases hkey : ((dashed.dropWhile trimmed).rdropWhile trimmed).take 80 with
  | nil =>
      rw [hkey] at h
      exact absurd rfl h
  | cons first rest =>
      have htake : first :: rest <+: dashed.dropWhile trimmed := by
        rw [← hkey]
        exact (List.take_prefix _ _).trans hpre
      have hall : ∀ c ∈ first :: rest, keyChar c = true := fun c hc =>
        hchars c ((List.dropWhile_suffix trimmed).subset (htake.subset hc))
      refine ⟨first, rest, by rw [String.toList_ofList], ?_, ?_, ?_⟩
      · refine alnum_of_not_trimmed (hall first List.mem_cons_self) ?_
        -- the head of what is left after `dropWhile`
        obtain ⟨after, hafter⟩ := htake
        have hhead := List.head?_dropWhile_not trimmed dashed
        rw [← hafter] at hhead
        exact hhead
      · exact fun c hc => hall c (List.mem_cons_of_mem first hc)
      · rw [String.length_ofList, ← hkey]
        exact List.length_take_le _ _

end Key

/-! ### The registration -/

/-- Is there a file? -/
def YamlFile.present : YamlFile → Bool
  | .missing => false
  | _ => true

/-- The identity file of an agent: `_fleet_agents_root() / agent_key / "identity.yaml"`. -/
def identityFile (agentsRoot : List Component) (key : String) : List Component :=
  join (join agentsRoot key.toList) "identity.yaml".toList

/-- What `_register_external_agent_identity` is called with. -/
structure RegisterArgs where
  registerAs : String
  card : Fields
  agentCardUrl : String
  agentCardPath : String
  rpcUrl : String
  auth : Fields
  credentials : DiscoverAuth
  overwrite : Bool

/-- `j.lower()` -/
def lowered (lower : String → String) : Json → Except PyError String
  | .str text => return lower text
  | _ => throw .attributeError

/-- `_public_auth_config`, whatever the section holds. -/
def publicAuthSection (lower : String → String) (a : DiscoverAuth) (auth : Fields) :
    Except PyError Fields := do
  let named := (Json.str a.authType).orElse ((auth.lookup "type").getD .null)
  let type ← lowered lower (named.orElse (.str "none"))
  if type = "bearer" then
    if a.authTokenEnv ≠ "" then return [("type", .str "bearer"), ("token_env", .str a.authTokenEnv)]
    else return [("type", .str "none")]
  else if type = "api_key" ∨ type = "custom_header" then
    let header := (Json.str a.authHeader).orElse (eitherAt auth "header" "name")
    if header.truthy ∧ a.authValueEnv ≠ "" then
      return [("type", .str type), ("header", header), ("value_env", .str a.authValueEnv)]
    else return [("type", .str "none")]
  else return [("type", .str "none")]

/-- The skills of a card: those that are dictionaries. -/
def listedSkills (card : Fields) : Except PyError (List Json) := do
  let skills ← ((card.lookup "skills").getD (.arr [])).iterate
  return skills.filterMap fun skill =>
    match skill with
    | .obj skill => some (.obj [("name", textAt skill "name"),
        ("description", textAt skill "description")])
    | _ => none

/-- What a registration is made of. -/
def RegisterArgs.registration (args : RegisterArgs) (key : String) (rpcUrl cardUrl : List Char)
    (publicAuth : Fields) (skills : List Json) : Registration where
  agentKey := key
  registerAs := args.registerAs
  rpcUrl := String.ofList rpcUrl
  agentCardUrl := String.ofList cardUrl
  safePath :=
    if args.agentCardPath.toList.head? = some '/' then args.agentCardPath
    else "/" ++ args.agentCardPath
  publicAuth := publicAuth
  description := textAt args.card "description"
  metadata :=
    [ ("source", .str "a2a_discover"), ("agent_card_name", textAt args.card "name"),
      ("version", textAt args.card "version"), ("skills", .arr skills),
      ("capabilities", (args.card.lookup "capabilities").getD (.obj [])) ]

/-- The fleet with an identity file that holds a document. -/
def Fleet.write (fleet : Fleet) (key : String) (document : Json) : Fleet :=
  { fleet with identity := Function.update fleet.identity key (.parsed document) }

/-- What `_register_external_agent_identity` answers. -/
inductive RegisterAnswer
  | error (message : String)
  /-- `{"error": str(e)}`, for what `_validate_target_url` raised -/
  | badUrl (refusal : UrlRefusal)
  | registered (name : String) (path : List Component)

/-- `_register_external_agent_identity`; reading a file that was written gives what was
written. -/
def registerExternalAgentIdentity (D : CharData) (agentsRoot : List Component) (fleet : Fleet)
    (args : RegisterArgs) : Except PyError (RegisterAnswer × Fleet) :=
  let key := safeAgentKey fleet.lower args.registerAs
  if key = "" then
    return (.error ("register_as must contain at least one alphanumeric, '.', '_' or '-' " ++
      "character"), fleet)
  else
    match validateTargetUrl D args.rpcUrl false, validateTargetUrl D args.agentCardUrl false with
    | .error refusal, _ => return (.badUrl refusal, fleet)
    | .ok _, .error refusal => return (.badUrl refusal, fleet)
    | .ok rpcUrl, .ok cardUrl =>
        if (fleet.identity key).present = true ∧ args.overwrite = false then
          return (.error ("Identity already exists for '" ++ key ++
            "'; pass register_overwrite=true to replace it"), fleet)
        else if Json.isSubstring ".." args.agentCardPath then
          return (.error ("agent_card_path contains '..' which is not allowed for security " ++
            "reasons"), fleet)
        else do
          let publicAuth ← publicAuthSection fleet.lower args.credentials args.auth
          let skills ← listedSkills args.card
          let registration := args.registration key rpcUrl cardUrl publicAuth skills
          return (.registered key (identityFile agentsRoot key),
            fleet.write key (.obj registration.identity))

/-! ### What was written can be loaded -/

/-- The members of an auth section that name variables. -/
def VARIABLE_KEYS : List String := ["token_env", "secret_env", "value_env"]

/-- The variables of an auth section are named by texts. -/
def NamesVariables (auth : Fields) : Prop :=
  ∀ key ∈ VARIABLE_KEYS, ∀ value, auth.lookup key = some value → ∃ var, value = .str var

/-- A transport with an auth section that can be resolved. -/
def Loadable (transport : Json) : Prop :=
  ∃ part auth, transport = .obj part ∧ part.lookup "auth" = some (.obj auth) ∧ NamesVariables auth

/-- **An external agent**: it has transports that can be resolved, and nothing of a platform. -/
structure External (data : Fields) : Prop where
  transports : ∃ transports, data.lookup "transports" = some (.obj transports) ∧
    ∀ e ∈ transports, Loadable e.2
  platforms : data.lookup "platforms" = none
  botToken : truthyAt data "telegram_bot_token" = false
  chatId : truthyAt data "telegram_chat_id" = false

section Load

variable {environ : String → Option String} {auth data data' part raw : Fields}
  {key envKey k : String} {value : Json}

theorem of_mem_setField {fields : Fields} {e : String × Json}
    (h : e ∈ Json.setField key value fields) : e = (key, value) ∨ e ∈ fields := by
  induction fields with
  | nil => exact Or.inl (List.mem_singleton.mp h)
  | cons e' fields ih =>
      rw [Json.setField] at h
      split_ifs at h
      · exact (List.mem_cons.mp h).imp_right (List.mem_cons_of_mem e')
      · rcases List.mem_cons.mp h with rfl | h
        · exact Or.inr List.mem_cons_self
        · exact (ih h).imp_right (List.mem_cons_of_mem e')

/-- What stays loadable when a transport is put among others. -/
theorem loadable_setField {transports : Fields} (hall : ∀ e ∈ transports, Loadable e.2)
    (hnew : Loadable value) : ∀ e ∈ Json.setField key value transports, Loadable e.2 := by
  intro e he
  rcases of_mem_setField he with rfl | he
  · exact hnew
  · exact hall e he

/-! #### The secrets -/

theorem fromEnviron_ok (h : ∀ value, auth.lookup envKey = some value → ∃ var, value = .str var) :
    ∃ auth', fromEnviron environ envKey key auth = .ok auth' := by
  unfold fromEnviron
  split_ifs with hset
  · cases hvar : auth.lookup envKey with
    | none =>
        have hfalse : truthyAt auth envKey = false := by
          unfold truthyAt
          rw [hvar]
          rfl
        rw [hfalse] at hset
        exact absurd hset.1 (by decide)
    | some value =>
        obtain ⟨var, rfl⟩ := h value hvar
        exact ⟨_, rfl⟩
  · exact ⟨auth, rfl⟩

/-- The names of the variables are not among the secrets. -/
theorem NamesVariables.of_lookup {auth' : Fields} (h : NamesVariables auth)
    (heq : ∀ key ∈ VARIABLE_KEYS, auth'.lookup key = auth.lookup key) : NamesVariables auth' :=
  fun key hkey value hvalue => h key hkey value ((heq key hkey).symm.trans hvalue)

theorem ne_of_variableKey (h : key ∈ VARIABLE_KEYS) : key ∉ secretKeys := by
  unfold VARIABLE_KEYS at h
  simp only [List.mem_cons, List.not_mem_nil, or_false] at h
  rcases h with rfl | rfl | rfl <;> decide

theorem resolveAuth_ok (h : NamesVariables auth) :
    ∃ resolved, resolveAuth environ auth = .ok resolved := by
  have hkept : ∀ (secret : String) (section' : Fields), secret ∈ secretKeys →
      NamesVariables section' → NamesVariables (interpolate environ secret section') := by
    intro secret section' hsecret hsection
    refine hsection.of_lookup fun key hkey => ?_
    rw [lookup_interpolate, if_neg]
    rintro rfl
    exact ne_of_variableKey hkey hsecret
  have hvariables := hkept "value" _ (by decide) (hkept "secret" _ (by decide)
    (hkept "token" _ (by decide) h))
  have hnext : ∀ {envKey key auth auth'}, key ∈ secretKeys → NamesVariables auth →
      fromEnviron environ envKey key auth = .ok auth' → NamesVariables auth' := by
    intro envKey key auth auth' hkey hauth hok
    refine hauth.of_lookup fun k hk => lookup_fromEnviron_of_ne hok ?_
    rintro rfl
    exact ne_of_variableKey hk hkey
  have hread : ∀ {envKey auth} (key : String), envKey ∈ VARIABLE_KEYS → NamesVariables auth →
      ∃ auth', fromEnviron environ envKey key auth = .ok auth' := fun _ henv hauth =>
    fromEnviron_ok (hauth _ henv)
  obtain ⟨auth₁, htoken⟩ := hread "token" (by decide : "token_env" ∈ VARIABLE_KEYS) hvariables
  have hvariables₁ := hnext (by decide) hvariables htoken
  obtain ⟨auth₂, hsecret⟩ := hread "secret" (by decide : "secret_env" ∈ VARIABLE_KEYS) hvariables₁
  have hvariables₂ := hnext (by decide) hvariables₁ hsecret
  obtain ⟨auth₃, hvalue⟩ := hread "value" (by decide : "value_env" ∈ VARIABLE_KEYS) hvariables₂
  refine ⟨auth₃, ?_⟩
  unfold resolveAuth
  dsimp only
  rw [bind_of_ok htoken, bind_of_ok hsecret]
  exact hvalue

theorem resolveTransport_ok {transport : Json} (h : Loadable transport) :
    ∃ transport', resolveTransport environ transport = .ok transport' ∧ Loadable transport' := by
  obtain ⟨part, auth, rfl, hauth, hvariables⟩ := h
  obtain ⟨resolved, hresolved⟩ : ∃ resolved, resolveAuth environ auth = .ok resolved :=
    resolveAuth_ok hvariables
  have hok : resolveTransport environ (.obj part) =
      .ok (.obj (Json.setField "auth" (.obj resolved) part)) := by
    unfold resolveTransport
    rw [Json.get_obj, hauth]
    exact bind_of_ok hresolved
  refine ⟨_, hok, _, resolved, rfl, Json.lookup_setField_self .., ?_⟩
  refine hvariables.of_lookup fun key hkey => ?_
  exact lookup_resolveAuth_of_notMem hresolved (ne_of_variableKey hkey)

theorem mapValues_ok {P : Json → Prop} {f : Json → Except PyError Json}
    (hf : ∀ value, P value → ∃ value', f value = .ok value' ∧ P value') {fields : Fields}
    (h : ∀ e ∈ fields, P e.2) :
    ∃ fields', mapValues f fields = .ok fields' ∧ ∀ e ∈ fields', P e.2 := by
  induction fields with
  | nil => exact ⟨[], rfl, fun e he => absurd he List.not_mem_nil⟩
  | cons e fields ih =>
      obtain ⟨value, hvalue, hnew⟩ := hf e.2 (h e List.mem_cons_self)
      obtain ⟨rest, hrest, hall⟩ := ih fun e' he' => h e' (List.mem_cons_of_mem e he')
      refine ⟨(e.1, value) :: rest, ?_, ?_⟩
      · unfold mapValues at hrest ⊢
        rw [List.mapM_cons, hvalue, hrest]
        rfl
      · intro e' he'
        rcases List.mem_cons.mp he' with rfl | he'
        · exact hnew
        · exact hall e' he'

/-- **Resolving the secrets of an external agent** does not fail. -/
theorem External.resolved (h : External data) :
    ∃ data', mapMember "transports" (resolveTransport environ) data = .ok data' ∧
      External data' := by
  obtain ⟨transports, htransports, hall⟩ := h.transports
  obtain ⟨transports', hmap, hall'⟩ := mapValues_ok (fun _ => resolveTransport_ok) hall
  have hok : mapMember "transports" (resolveTransport environ) data =
      .ok (Json.setField "transports" (.obj transports') data) := by
    unfold mapMember
    rw [htransports]
    exact bind_of_ok hmap
  have hkept : ∀ k, k ≠ "transports" →
      (Json.setField "transports" (.obj transports') data).lookup k = data.lookup k :=
    fun k hk => lookup_setField_of_ne hk
  refine ⟨_, hok, ⟨transports', Json.lookup_setField_self .., hall'⟩, ?_, ?_, ?_⟩
  · rw [hkept _ (by decide), h.platforms]
  · unfold truthyAt
    rw [hkept _ (by decide)]
    exact h.botToken
  · unfold truthyAt
    rw [hkept _ (by decide)]
    exact h.chatId

/-! #### The defaults -/

/-- The transport that is filled in, whatever there was. -/
theorem loadable_dictOr {transports : Fields} (h : ∀ e ∈ transports, Loadable e.2) (name : String)
    (hauth : (dictOr (transports.lookup name)).lookup "auth" = some value) :
    ∃ auth, value = .obj auth ∧ NamesVariables auth := by
  cases hpart : transports.lookup name with
  | none =>
      rw [hpart] at hauth
      cases hauth
  | some transport =>
      obtain ⟨part, auth, rfl, hlookup, hvariables⟩ := h _ (Json.mem_of_lookup hpart)
      rw [hpart, dictOr_obj, hlookup] at hauth
      exact ⟨auth, (Option.some.inj hauth).symm, hvariables⟩

/-- A section that names no variables. -/
theorem namesVariables_of_none (h : ∀ key ∈ VARIABLE_KEYS, auth.lookup key = none) :
    NamesVariables auth := by
  intro key hkey value hvalue
  rw [h key hkey] at hvalue
  cases hvalue

theorem TransportKind.namesVariables_defaultAuth (kind : TransportKind)
    (hkind : kind = a2aRpc ∨ kind = hermesWebhook) (data : Fields) :
    ∃ auth, kind.defaultAuth data = .obj auth ∧ NamesVariables auth := by
  unfold defaultAuth
  split_ifs
  · refine ⟨_, rfl, namesVariables_of_none fun key hkey => ?_⟩
    unfold VARIABLE_KEYS at hkey
    simp only [List.mem_cons, List.not_mem_nil, or_false] at hkey
    rcases hkind with rfl | rfl <;> rcases hkey with rfl | rfl | rfl <;> rfl
  · refine ⟨_, rfl, namesVariables_of_none fun key hkey => ?_⟩
    unfold VARIABLE_KEYS at hkey
    simp only [List.mem_cons, List.not_mem_nil, or_false] at hkey
    rcases hkey with rfl | rfl | rfl <;> rfl

/-- An auth section is filled in from another one. -/
theorem loadable_defaultField (hpart : ∀ value, part.lookup "auth" = some value →
      ∃ auth, value = .obj auth ∧ NamesVariables auth)
    (hdefault : ∃ auth, value = .obj auth ∧ NamesVariables auth) :
    Loadable (.obj (defaultField "auth" value part)) := by
  unfold defaultField
  split_ifs with hset
  · cases hauth : part.lookup "auth" with
    | none =>
        unfold truthyAt at hset
        rw [hauth] at hset
        cases hset
    | some value' =>
        obtain ⟨auth, rfl, hvariables⟩ := hpart value' hauth
        exact ⟨part, auth, rfl, hauth, hvariables⟩
  · obtain ⟨auth, rfl, hvariables⟩ := hdefault
    exact ⟨_, auth, rfl, Json.lookup_setField_self .., hvariables⟩

theorem TransportKind.loadable_fill (kind : TransportKind)
    (hkind : kind = a2aRpc ∨ kind = hermesWebhook)
    (hpart : ∀ value, part.lookup "auth" = some value →
      ∃ auth, value = .obj auth ∧ NamesVariables auth) :
    Loadable (.obj (kind.fill data part)) := by
  refine loadable_defaultField (fun value hvalue => ?_) (kind.namesVariables_defaultAuth hkind data)
  rw [lookup_defaultField_of_ne (by decide)] at hvalue
  unfold inheritField at hvalue
  split_ifs at hvalue
  · rw [lookup_setField_of_ne (by decide)] at hvalue
    exact hpart value hvalue
  · exact hpart value hvalue

theorem TransportKind.publish_ok (kind : TransportKind) (h : Loadable (.obj part)) :
    ∃ data', kind.publish part data = .ok data' := by
  obtain ⟨part', auth, heq, hauth, -⟩ := h
  obtain rfl := Json.obj.inj heq
  have hdict : ((part.lookup "auth").getD .null).orElse (.obj []) = .obj auth := by
    rw [hauth, Option.getD_some]
    unfold Json.orElse
    split_ifs with hset
    · rfl
    · -- an empty dictionary is replaced by one
      cases auth with
      | nil => rfl
      | cons => exact absurd rfl hset
  unfold publish
  split_ifs
  · dsimp only
    split_ifs
    · exact ⟨_, rfl⟩
    · rw [hdict]
      exact ⟨_, rfl⟩
  · exact ⟨_, rfl⟩

theorem TransportKind.loadable_putBack (kind : TransportKind) {transports : Fields}
    (hall : ∀ e ∈ transports, Loadable e.2) (hpart : Loadable (.obj part)) :
    ∀ e ∈ kind.putBack part transports, Loadable e.2 := by
  unfold putBack
  split_ifs
  · exact loadable_setField hall hpart
  · exact hall

theorem loadable_withAgentCard {rpc transports : Fields} (hall : ∀ e ∈ transports, Loadable e.2)
    (hrpc : Loadable (.obj rpc)) : ∀ e ∈ withAgentCard rpc transports, Loadable e.2 := by
  unfold withAgentCard
  dsimp only
  split_ifs
  · refine loadable_setField hall (loadable_defaultField ?_ ?_)
    · exact fun value hvalue => loadable_dictOr hall "agent_card" hvalue
    · obtain ⟨part, auth, heq, hauth, hvariables⟩ := hrpc
      obtain rfl := Json.obj.inj heq
      rw [hauth, Option.getD_some]
      unfold Json.orElse
      split_ifs
      · exact ⟨auth, rfl, hvariables⟩
      · refine ⟨_, rfl, namesVariables_of_none fun key hkey => ?_⟩
        unfold VARIABLE_KEYS at hkey
        simp only [List.mem_cons, List.not_mem_nil, or_false] at hkey
        rcases hkey with rfl | rfl | rfl <;> rfl
  · exact hall

theorem External.withTelegram_eq (h : External data) : withTelegram data = data := by
  unfold withTelegram
  rw [h.platforms]
  unfold inheritField
  rw [h.botToken, h.chatId]
  rfl

/-- **Normalising an external agent** does not fail, and leaves it one. -/
theorem External.normalized (h : External data) :
    ∃ data', normalizeIdentity (.obj data) = .ok data' ∧ External data' := by
  obtain ⟨transports, htransports, hall⟩ := h.transports
  have hrpc : Loadable (.obj (a2aRpc.fill data (dictOr (transports.lookup a2aRpc.name)))) :=
    a2aRpc.loadable_fill (Or.inl rfl) fun value hvalue => loadable_dictOr hall a2aRpc.name hvalue
  have hall₁ := a2aRpc.loadable_putBack hall hrpc
  obtain ⟨data₁, hpublish⟩ : ∃ data₁, a2aRpc.publish _ data = .ok data₁ := a2aRpc.publish_ok hrpc
  generalize htransports₁ : a2aRpc.putBack _ transports = transports₁ at hall₁
  have hwebhook : Loadable (.obj (hermesWebhook.fill data₁
      (dictOr (transports₁.lookup hermesWebhook.name)))) :=
    hermesWebhook.loadable_fill (Or.inr rfl) fun value hvalue =>
      loadable_dictOr hall₁ hermesWebhook.name hvalue
  have hall₂ := hermesWebhook.loadable_putBack hall₁ hwebhook
  obtain ⟨data₂, hpublish'⟩ : ∃ data₂, hermesWebhook.publish _ data₁ = .ok data₂ :=
    hermesWebhook.publish_ok hwebhook
  have hall₃ := loadable_withAgentCard hall₂ hrpc
  generalize hcards : withAgentCard _ _ = cards at hall₃
  have hok : normalizeIdentity (.obj data) = .ok (withDefaults
      (if cards.isEmpty then data₂ else Json.setField "transports" (.obj cards) data₂)) := by
    unfold normalizeIdentity
    dsimp only
    rw [h.withTelegram_eq, htransports, dictOr_obj, bind_of_ok hpublish, htransports₁,
      bind_of_ok hpublish', hcards]
    rfl
  refine ⟨_, hok, ?_⟩
  have hkept : ∀ k ∉ ["transports", "defaults", "a2a_url", "auth_token", "webhook_url",
      "webhook_secret"], (withDefaults (if cards.isEmpty then data₂
        else Json.setField "transports" (.obj cards) data₂)).lookup k = data.lookup k := by
    intro k hk
    simp only [List.mem_cons, List.not_mem_nil, or_false, not_or] at hk
    obtain ⟨htransports, hdefaults, hurl, htoken, hwebhookUrl, hsecret⟩ := hk
    rw [lookup_withDefaults_of_ne hdefaults, ← a2aRpc.lookup_publish_of_ne hpublish hurl htoken,
      ← hermesWebhook.lookup_publish_of_ne hpublish' hwebhookUrl hsecret]
    split_ifs
    · rfl
    · exact lookup_setField_of_ne htransports
  refine ⟨?_, ?_, ?_, ?_⟩
  · rw [lookup_withDefaults_of_ne (by decide)]
    split_ifs
    · refine ⟨transports, ?_, hall⟩
      rw [hermesWebhook.lookup_publish_of_ne hpublish' (by decide) (by decide),
        a2aRpc.lookup_publish_of_ne hpublish (by decide) (by decide), htransports]
    · exact ⟨cards, Json.lookup_setField_self .., hall₃⟩
  · rw [hkept _ (by decide), h.platforms]
  · unfold truthyAt
    rw [hkept _ (by decide)]
    exact h.botToken
  · unfold truthyAt
    rw [hkept _ (by decide)]
    exact h.chatId

/-- **An external agent can be loaded.** -/
theorem loads_of_external (h : External raw) :
    ∃ data, loadDocument environ (.obj raw) = .ok data := by
  obtain ⟨data₁, hnormalized, h₁⟩ := h.normalized
  obtain ⟨data₂, hresolved, h₂⟩ := @External.resolved environ data₁ h₁
  obtain ⟨data₃, hagain, h₃⟩ := h₂.normalized
  refine ⟨data₃, ?_⟩
  unfold loadDocument
  rw [bind_of_ok hnormalized, bind_of_ok hresolved, bind_of_ok hagain]
  unfold mapMember
  rw [h₃.platforms]
  rfl

end Load

/-! ### What is written -/

section Written

variable {lower : String → String} {a : DiscoverAuth} {auth publicAuth : Fields} {key : String}

/-- **What is written of the credentials** names its variables. -/
theorem namesVariables_publicAuthSection (h : publicAuthSection lower a auth = .ok publicAuth) :
    NamesVariables publicAuth := by
  obtain ⟨type, -, h⟩ := exists_of_bind_ok h
  have hnone : NamesVariables [("type", .str "none")] := namesVariables_of_none fun key hkey => by
    unfold VARIABLE_KEYS at hkey
    simp only [List.mem_cons, List.not_mem_nil, or_false] at hkey
    rcases hkey with rfl | rfl | rfl <;> rfl
  dsimp only at h
  split_ifs at h
  all_goals rw [← Except.ok.inj h]
  · intro key hkey value hvalue
    unfold VARIABLE_KEYS at hkey
    simp only [List.mem_cons, List.not_mem_nil, or_false] at hkey
    rcases hkey with rfl | rfl | rfl
    · exact ⟨_, (Option.some.inj hvalue).symm⟩
    · cases hvalue
    · cases hvalue
  · exact hnone
  · intro key hkey value hvalue
    unfold VARIABLE_KEYS at hkey
    simp only [List.mem_cons, List.not_mem_nil, or_false] at hkey
    rcases hkey with rfl | rfl | rfl
    · cases hvalue
    · cases hvalue
    · exact ⟨_, (Option.some.inj hvalue).symm⟩
  · exact hnone
  · exact hnone

theorem Registration.external (r : Registration) (h : NamesVariables r.publicAuth) :
    External r.identity where
  transports := by
    refine ⟨r.transports, rfl, fun e he => ?_⟩
    unfold Registration.transports at he
    simp only [List.mem_cons, List.not_mem_nil, or_false] at he
    rcases he with rfl | rfl
    · exact ⟨_, r.publicAuth, rfl, rfl, h⟩
    · exact ⟨_, r.publicAuth, rfl, rfl, h⟩
  platforms := rfl
  botToken := rfl
  chatId := rfl

/-- The characters of a key. -/
theorem AgentKey.keyChars (h : AgentKey key) : ∀ c ∈ key.toList, keyChar c = true := by
  obtain ⟨first, rest, heq, hfirst, hrest, -⟩ := h
  rw [heq]
  intro c hc
  rcases List.mem_cons.mp hc with rfl | hc
  · unfold keyChar
    rw [hfirst]
    rfl
  · exact hrest c hc

theorem toNat_of_keyChar {c : Char} (h : keyChar c = true) : c.toNat < 128 := by
  unfold keyChar at h
  rw [Bool.or_eq_true, Bool.or_eq_true] at h
  rcases h with (hlower | hdigit) | hmem
  · have hle : c.toNat ≤ 122 := of_decide_eq_true (Bool.and_eq_true_iff.mp hlower).2
    omega
  · exact (small_of_isDigit hdigit).1
  · have hc : c ∈ ['_', '.', '-'] := List.contains_iff_mem.mp hmem
    simp only [List.mem_cons, List.not_mem_nil, or_false] at hc
    rcases hc with rfl | rfl | rfl <;> decide

/-- A key is in small letters. -/
theorem AgentKey.lower_eq (h : AgentKey key) (fleet : Fleet) : fleet.lower key = key := by
  have hsmall : ∀ n : Fin 128, keyChar (Char.ofNat n) = true →
      (Char.ofNat n).toLower = Char.ofNat n := by decide +kernel
  have hself : ∀ c ∈ key.toList, c.toLower = c := by
    intro c hc
    have hn := hsmall ⟨c.toNat, toNat_of_keyChar (h.keyChars c hc)⟩
    rw [Char.ofNat_toNat] at hn
    exact hn (h.keyChars c hc)
  rw [fleet.lower_ascii key fun c hc => toNat_of_keyChar (h.keyChars c hc),
    List.map_congr_left hself, List.map_id', String.ofList_toList]

/-- **The file of a key** is in a directory of its own. -/
theorem AgentKey.inside (h : AgentKey key) (agentsRoot : List Component) :
    Inside agentsRoot (identityFile agentsRoot key) := by
  have hfile : Proper "identity.yaml".toList :=
    ⟨by decide, by decide, by decide, by decide⟩
  have hslash : '/' ∉ key.toList := fun hmem => absurd (h.keyChars '/' hmem) (by decide)
  refine (inside_join_iff hfile hslash).mpr fun hdots => ?_
  obtain ⟨first, rest, heq, hfirst, -⟩ := h
  rw [heq] at hdots
  simp only [List.mem_cons, List.not_mem_nil, or_false, List.cons.injEq, reduceCtorEq,
    false_or] at hdots
  rcases hdots with ⟨rfl, -⟩ | ⟨rfl, -⟩ <;> exact absurd hfirst (by decide)

/-- A URL that is accepted is not empty. -/
theorem ne_nil_of_accepts {D : CharData} {url : String} {accepted : List Char}
    (h : validateTargetUrl D url false = .ok accepted) : accepted ≠ [] := by
  obtain ⟨rfl, parsed, hsplit, -, hnetloc, -⟩ := accepts_iff.mp h
  intro hnil
  rw [hnil] at hsplit
  have hempty : urlsplit D [] = .ok ⟨[], []⟩ := rfl
  rw [hempty] at hsplit
  exact hnetloc (Except.ok.inj hsplit ▸ rfl)

end Written

/-! ### Every registration -/

/-- **Contained and findable**: the key is a name, its file is inside the directory of the
agents and replaces another one only if that was asked for, and whoever looks the agent up
by the key is given the URL that was registered. -/
structure Registered (D : CharData) (agentsRoot : List Component) (fleet : Fleet)
    (args : RegisterArgs) (name : String) (path : List Component) (fleet' : Fleet) : Prop where
  isKey : AgentKey name
  file : path = identityFile agentsRoot name
  inside : Inside agentsRoot path
  fresh : args.overwrite = false → fleet.identity name = .missing
  others : ∀ other, other ≠ name → fleet'.identity other = fleet.identity other
  found : ∃ accepted, validateTargetUrl D args.rpcUrl false = .ok accepted ∧
    ∀ later : Fleet, later.identity name = fleet'.identity name →
      ∃ answer, later.resolveAgent name = .ok (some answer) ∧
        answer.lookup "a2a_url" = some (.str (String.ofList accepted))

section Register

variable {D : CharData} {agentsRoot : List Component} {fleet fleet' : Fleet} {args : RegisterArgs}
  {answer : RegisterAnswer}

/-- What the registration does: nothing, or write one file. -/
theorem registering_cases
    (h : registerExternalAgentIdentity D agentsRoot fleet args = .ok (answer, fleet')) :
    (fleet' = fleet ∧ ∀ name path, answer ≠ .registered name path) ∨
      ∃ rpcUrl cardUrl publicAuth skills, safeAgentKey fleet.lower args.registerAs ≠ "" ∧
        validateTargetUrl D args.rpcUrl false = .ok rpcUrl ∧
        ¬ ((fleet.identity (safeAgentKey fleet.lower args.registerAs)).present = true ∧
          args.overwrite = false) ∧
        publicAuthSection fleet.lower args.credentials args.auth = .ok publicAuth ∧
        answer = .registered (safeAgentKey fleet.lower args.registerAs)
          (identityFile agentsRoot (safeAgentKey fleet.lower args.registerAs)) ∧
        fleet' = fleet.write (safeAgentKey fleet.lower args.registerAs)
          (.obj (args.registration (safeAgentKey fleet.lower args.registerAs) rpcUrl cardUrl
            publicAuth skills).identity) := by
  unfold registerExternalAgentIdentity at h
  dsimp only at h
  have hnothing : ∀ {refusal : RegisterAnswer}, (∀ name path, refusal ≠ .registered name path) →
      Except.ok (refusal, fleet) = (Except.ok (answer, fleet') : Except PyError _) →
      fleet' = fleet ∧ ∀ name path, answer ≠ .registered name path := by
    intro refusal hrefusal heq
    obtain ⟨rfl, rfl⟩ := Prod.mk.inj (Except.ok.inj heq)
    exact ⟨rfl, hrefusal⟩
  by_cases hkey : safeAgentKey fleet.lower args.registerAs = ""
  · rw [if_pos hkey] at h
    exact Or.inl (hnothing (fun _ _ heq => by cases heq) h)
  · rw [if_neg hkey] at h
    split at h
    · exact Or.inl (hnothing (fun _ _ heq => by cases heq) h)
    · exact Or.inl (hnothing (fun _ _ heq => by cases heq) h)
    · rename_i rpcUrl cardUrl hrpc hcard
      by_cases hthere : (fleet.identity (safeAgentKey fleet.lower args.registerAs)).present = true ∧
          args.overwrite = false
      · rw [if_pos hthere] at h
        exact Or.inl (hnothing (fun _ _ heq => by cases heq) h)
      · rw [if_neg hthere] at h
        by_cases hdots : Json.isSubstring ".." args.agentCardPath = true
        · rw [if_pos hdots] at h
          exact Or.inl (hnothing (fun _ _ heq => by cases heq) h)
        · rw [if_neg hdots] at h
          obtain ⟨publicAuth, hauth, h⟩ := exists_of_bind_ok h
          obtain ⟨skills, -, h⟩ := exists_of_bind_ok h
          obtain ⟨rfl, rfl⟩ := Prod.mk.inj (Except.ok.inj h)
          exact Or.inr ⟨rpcUrl, cardUrl, publicAuth, skills, hkey, hrpc, hthere, hauth, rfl, rfl⟩

/-- The registered agent is found. -/
theorem Registration.found {r : Registration} {name : String} (hkey : AgentKey name)
    (hurl : r.rpcUrl ≠ "") (hauth : NamesVariables r.publicAuth)
    (hfile : fleet.identity name = .parsed (.obj r.identity)) :
    ∃ entry, fleet.resolveAgent name = .ok (some entry) ∧
      entry.lookup "a2a_url" = some (.str r.rpcUrl) := by
  have hlists : ListsRpc r.identity "url" (.str r.rpcUrl) := ⟨r.transports, _, rfl, rfl, rfl⟩
  have hset : (Json.str r.rpcUrl).truthy = true := bne_iff_ne.mpr hurl
  obtain ⟨data, hload⟩ := @loads_of_external fleet.environ _ (r.external hauth)
  have hne : name ≠ "" := by
    obtain ⟨first, rest, heq, -⟩ := hkey
    rintro rfl
    cases heq
  have hfile' : fleet.identity (fleet.lower name) = .parsed (.obj r.identity) := by
    rw [hkey.lower_eq, hfile]
  refine ⟨publicIdentity data, hlists.resolveAgent_of_ok hset hne hfile' hload, ?_⟩
  change some (textAt data "a2a_url") = _
  unfold textAt
  rw [hlists.loaded hset hload]
  rfl

/-- **Every registration** writes nothing, or is contained and findable. -/
theorem register_spec
    (h : registerExternalAgentIdentity D agentsRoot fleet args = .ok (answer, fleet')) :
    (fleet' = fleet ∧ ∀ name path, answer ≠ .registered name path) ∨
      ∃ name path, answer = .registered name path ∧
        Registered D agentsRoot fleet args name path fleet' := by
  rcases registering_cases h with hnothing | hwritten
  · exact Or.inl hnothing
  · obtain ⟨rpcUrl, cardUrl, publicAuth, skills, hne, hrpc, hthere, hauth, rfl, rfl⟩ := hwritten
    have hkey := agentKey_safeAgentKey hne
    generalize safeAgentKey fleet.lower args.registerAs = key at hkey hthere
    refine Or.inr ⟨key, _, rfl, hkey, rfl, hkey.inside agentsRoot, ?_, ?_, rpcUrl, hrpc, ?_⟩
    · intro hoverwrite
      cases hfile : fleet.identity key with
      | missing => rfl
      | malformed => exact absurd ⟨by rw [hfile]; rfl, hoverwrite⟩ hthere
      | parsed => exact absurd ⟨by rw [hfile]; rfl, hoverwrite⟩ hthere
    · exact fun other hother => Function.update_of_ne hother _ _
    · intro later hlater
      have hurl : String.ofList rpcUrl ≠ "" := fun hempty => ne_nil_of_accepts hrpc (by
        rw [← String.toList_ofList (l := rpcUrl), hempty]
        rfl)
      have hfile := hlater.trans (Function.update_self key _ fleet.identity)
      exact Registration.found hkey hurl (namesVariables_publicAuthSection hauth) hfile

end Register

/-- The agent of `demoRegistration`, as `a2a_discover` registers it. -/
def demoArgs : RegisterArgs where
  registerAs := "External Demo"
  card := [("name", .str "External Demo"), ("description", .str "demo"), ("version", .str "1"),
    ("skills", .arr [.obj [("name", .str "chat"), ("description", .str "Chat")]]),
    ("capabilities", .obj [("streaming", .bool false)])]
  agentCardUrl := "https://external.example"
  agentCardPath := "/agent-card.json"
  rpcUrl := "https://external.example/rpc"
  auth := directAuth ⟨"", "api_key", "X-API-Key", "runtime-secret", "", "EXTERNAL_DEMO_KEY"⟩
  credentials := ⟨"", "api_key", "X-API-Key", "runtime-secret", "", "EXTERNAL_DEMO_KEY"⟩
  overwrite := false

/-- A fleet without agents. -/
def emptyFleet : Fleet := { demoFleet fun _ => none with identity := fun _ => .missing }

/-- The directory of its agents. -/
def demoAgents : List Component := ["srv".toList, "a2a".toList, "agents".toList]

/-- What is written for the agent. -/
def demoWritten : Registration :=
  demoArgs.registration "external-demo" "https://external.example/rpc".toList
    "https://external.example".toList
    [("type", .str "api_key"), ("header", .str "X-API-Key"), ("value_env", .str "EXTERNAL_DEMO_KEY")]
    [.obj [("name", .str "chat"), ("description", .str "Chat")]]

/-- The agent is registered as `external-demo`. -/
theorem demo_registered :
    Registered CharData.ascii demoAgents emptyFleet demoArgs "external-demo"
      (demoAgents ++ ["external-demo".toList, "identity.yaml".toList])
      (emptyFleet.write "external-demo" (.obj demoWritten.identity)) := by
  have h : registerExternalAgentIdentity CharData.ascii demoAgents emptyFleet demoArgs =
      .ok (.registered "external-demo"
          (demoAgents ++ ["external-demo".toList, "identity.yaml".toList]),
        emptyFleet.write "external-demo" (.obj demoWritten.identity)) := by rfl
  rcases register_spec h with ⟨-, hnot⟩ | ⟨name, path, heq, hregistered⟩
  · exact absurd rfl (hnot _ _)
  · obtain ⟨rfl, rfl⟩ := RegisterAnswer.registered.inj heq
    exact hregistered

end HermesA2A
