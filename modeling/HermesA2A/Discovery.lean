import HermesA2A.Registering
import HermesA2A.RemoteCalls
import HermesA2A.Lib.Sequential

/-!
# Discovering agents

`a2a_discover` asks an agent for its card and, if it is told to, registers the agent.  A run here
is a list of discoveries, each with what the network has answered.

* `handleDiscover` — the tool.
* `discover_step` — a discovery writes one identity, or nothing.
* `onlyRegistrations_discoverAll`, `present_of_told` — what is on file after any discoveries, and
  that whoever was said to be registered stays on file.
* `discoverAll_secrets` — no credential that a discovery was given gets into the registry, nor
  into an answer, if a header can carry it; `on_of_unsendable` — one that no header can carry
  is told in the answer, and nothing is registered.
-/

namespace HermesA2A

open Paths

/-! ### The tool -/

/-- What `a2a_discover` is called with.  An absent argument is an empty text. -/
structure DiscoverArgs where
  name : String
  url : String
  credentials : DiscoverAuth
  agentCardPath : String
  register : Bool
  registerAs : String
  rpcUrl : String
  registerOverwrite : Bool

/-- What a discovery has from outside. -/
structure DiscoverSite where
  chars : CharData
  agentsRoot : List Component
  /-- `str(path)` -/
  pathText : List Component → String
  /-- The texts of exceptions. -/
  urlErrorText : UrlError → String
  errorText : PyError → String
  /-- `_DEFAULT_TIMEOUT` -/
  timeout : ℤ

/-- `str(e)` of what `_validate_target_url` raises. -/
def DiscoverSite.refusalText (site : DiscoverSite) : UrlRefusal → String
  | .unparsable e => site.urlErrorText e
  | .refused message => message

/-- `{"error": message}` -/
def errorAnswer (message : String) : Json := .obj [("error", .str message)]

/-- Where a card is fetched from. -/
structure CardSource where
  targetUrl : Json
  auth : Json
  cardPath : Json
  allowLoopback : Bool

/-- The source that is given by a name: what the agent's entry says. -/
def sourceOfEntry (cardPath : String) (agentInfo : Fields) : Except PyError CardSource := do
  let rpc ← transportOf agentInfo "a2a_rpc"
  let card ← transportOf agentInfo "agent_card"
  return {
    targetUrl := ((textAt card "url").orElse (textAt rpc "url")).orElse (textAt agentInfo "a2a_url")
    auth := (((card.lookup "auth").getD .null).orElse ((rpc.lookup "auth").getD .null)).orElse
      (.obj [("type", .str "bearer"), ("token", textAt agentInfo "auth_token")])
    cardPath := (card.lookup "path").getD (.str cardPath)
    allowLoopback := truthyAt card "allow_loopback" || truthyAt rpc "allow_loopback" ||
      truthyAt agentInfo "allow_loopback" }

/-- The source of a discovery, or what is answered instead. -/
def cardSource (fleet : Fleet) (args : DiscoverArgs) : Except LoadError (Json ⊕ CardSource) :=
  if args.name = "" ∧ args.url = "" then return .inl (errorAnswer "Provide either 'name' or 'url'")
  else if args.name ≠ "" then
    match fleet.resolveAgent args.name with
    | .error e => throw e
    | .ok none =>
        return .inl (errorAnswer ("Agent '" ++ args.name ++ "' not found in vault registry"))
    | .ok (some agentInfo) => do
        let source ← (sourceOfEntry args.agentCardPath agentInfo).mapError LoadError.raised
        if source.targetUrl.truthy then return .inr source
        return .inl (errorAnswer ("Agent '" ++ args.name ++ "' has no a2a_url in vault"))
  else return .inr ⟨.str args.url, .obj (directAuth args.credentials), .str args.agentCardPath, false⟩

/-- `agent_card_path or "/.well-known/agent.json"`, from the root. -/
def cardPathOf (path : Json) : Except PyError String :=
  match path.orElse (.str "/.well-known/agent.json") with
  | .str path => return if path.toList.head? = some '/' then path else "/" ++ path
  | _ => throw .attributeError

/-- The target of a discovery once it is validated, and the path of the card; or what is
answered instead. -/
def cardTarget (site : DiscoverSite) (source : CardSource) :
    Except LoadError (Json ⊕ List Char × String) :=
  match source.targetUrl with
  | .str url =>
      match validateTargetUrl site.chars url source.allowLoopback with
      | .error refusal => return .inl (errorAnswer (site.refusalText refusal))
      | .ok target =>
          match cardPathOf source.cardPath with
          | .error e => return .inl (errorAnswer ("Discovery failed: " ++ site.errorText e))
          | .ok path =>
              if Json.isSubstring ".." path then
                return .inl (errorAnswer
                  "card_path contains '..' which is not allowed for security reasons")
              else return .inr (target, path)
  | _ => throw (.raised .attributeError)

/-- What is read of a card. -/
def cardResult (target : List Char) (card : Json) : Except PyError Fields := do
  let name ← card.get "name" (.str "unknown")
  let description ← card.get "description" (.str "")
  let version ← card.get "version" (.str "")
  let skills ← (← card.get "skills" (.arr [])).iterate
  let skills ← skills.mapM fun skill => do
    return Json.obj [("name", ← skill.get "name" (.str "")),
      ("description", ← skill.get "description" (.str ""))]
  let capabilities ← card.get "capabilities" (.obj [])
  return [("agent_name", name), ("description", description),
    ("url", .str (String.ofList target)), ("version", version), ("skills", .arr skills),
    ("capabilities", capabilities), ("raw_card", card)]

/-- The name that the agent is registered as. -/
def registeredName (site : DiscoverSite) (args : DiscoverArgs) (target : List Char) (card : Fields) :
    Except PyError String :=
  let netloc :=
    match urlsplit site.chars target with
    | .ok parsed => parsed.netloc
    | .error _ => []
  match (Json.str args.registerAs).orElse
      (((card.lookup "name").getD .null).orElse (.str (String.ofList netloc))) with
  | .str name => return name
  | _ => throw .attributeError

/-- What the registration is called with.  The credentials of a source are a dictionary, as
`resolve_agent` hands on no transports. -/
def registerArgs (args : DiscoverArgs) (name : String) (source : CardSource) (target : List Char)
    (path : String) (card : Fields) : RegisterArgs where
  registerAs := name
  card := card
  agentCardUrl := String.ofList target
  agentCardPath := path
  rpcUrl := orText args.rpcUrl (String.ofList target)
  auth := dictOr (some source.auth)
  credentials := args.credentials
  overwrite := args.registerOverwrite

/-- What is told of a registration. -/
def registrationAnswer (site : DiscoverSite) : RegisterAnswer → Json
  | .error message => .obj [("registered", .bool false), ("error", .str message)]
  | .badUrl refusal => .obj [("registered", .bool false), ("error", .str (site.refusalText refusal))]
  | .registered name path =>
      .obj [("registered", .bool true), ("name", .str name), ("path", .str (site.pathText path))]

/-- What is done with the body that was fetched. -/
def discovered (site : DiscoverSite) (fleet : Fleet) (args : DiscoverArgs) (source : CardSource)
    (target : List Char) (path : String) (body : Json) : Except PyError (Json × Fleet) := do
  let result ← cardResult target body
  if args.register = false then return (.obj result, fleet)
  if args.name ≠ "" ∧ args.registerAs = "" then
    return (.obj (Json.setField "registration"
      (.obj [("registered", .bool false), ("reason", .str "already_resolved_by_name")]) result), fleet)
  let name ← registeredName site args target (dictOr (some body))
  let (answer, fleet) ← registerExternalAgentIdentity site.chars site.agentsRoot fleet
    (registerArgs args name source target path (dictOr (some body)))
  return (.obj (Json.setField "registration" (registrationAnswer site answer) result), fleet)

/-! ### The request for a card -/

/-- `n` in hexadecimal, with leading zeros. -/
def hexText (width n : ℕ) : List Char :=
  let digits := Nat.toDigits 16 n
  List.replicate (width - digits.length) '0' ++ digits

/-- A byte, in the `repr` of bytes. -/
def reprByte (quote c : Char) : List Char :=
  if c = '\\' ∨ c = quote then ['\\', c]
  else if c = '\t' then ['\\', 't']
  else if c = '\n' then ['\\', 'n']
  else if c = '\r' then ['\\', 'r']
  else if c.toNat < 0x20 ∨ 0x7F ≤ c.toNat then '\\' :: 'x' :: hexText 2 c.toNat
  else [c]

/-- `repr` of the bytes of a text in Latin-1. -/
def reprBytes (text : List Char) : String :=
  let quote := if '\x27' ∈ text ∧ '"' ∉ text then '"' else '\x27'
  String.ofList ('b' :: quote :: (text.flatMap (reprByte quote) ++ [quote]))

/-- A character, in the text of a `UnicodeEncodeError`. -/
def escapeChar (c : Char) : String :=
  String.ofList ('\\' ::
    if c.toNat < 0x10000 then 'u' :: hexText 4 c.toNat else 'U' :: hexText 8 c.toNat)

/-- What `text.encode("latin-1")` raises: the first characters that are too large. -/
def encodeRefusal? (text : List Char) : Option String :=
  let start := (text.takeWhile (·.toNat < 256)).length
  match (text.drop start).takeWhile (256 ≤ ·.toNat) with
  | [] => none
  | [c] => some ("'latin-1' codec can't encode character '" ++ escapeChar c ++ "' in position " ++
      toString start ++ ": ordinal not in range(256)")
  | run => some ("'latin-1' codec can't encode characters in position " ++ toString start ++ "-" ++
      toString (start + run.length - 1) ++ ": ordinal not in range(256)")

/-- `_is_illegal_header_value`: a line break, unless the header goes on after it. -/
def illegalHeaderValue : List Char → Bool
  | [] => false
  | c :: rest =>
      (c = '\n' && !rest.head?.any (· ∈ [' ', '\t'])) ||
        (c = '\r' && !rest.head?.any (· ∈ [' ', '\t', '\n'])) || illegalHeaderValue rest

/-- What `http.client` raises about a header, before anything is sent. -/
def headerRefusal? : Json × Json → Option String
  | (_, .str value) =>
      (encodeRefusal? value.toList).or <|
        if illegalHeaderValue value.toList then
          some ("Invalid header value " ++ reprBytes value.toList)
        else none
  | _ => none

/-- The same about some credentials. -/
def authRefusal? (lower : String → String) (auth : Json) : Option String :=
  (authHeaders lower auth).bind headerRefusal?

/-- What comes of `_http_request`: `refused` is what is raised before the credentials are looked
at, about the URL or the name of a header, and `fetched` is what the network answers. -/
def requestCard (lower : String → String) (auth : Json) (refused : Option String)
    (fetched : HttpOutcome) : HttpOutcome :=
  match refused.or (authRefusal? lower auth) with
  | some exc => .failed exc
  | none => fetched

/-- `handle_discover`, with what comes of the request (`requestCard`). -/
def handleDiscover (site : DiscoverSite) (fleet : Fleet) (args : DiscoverArgs)
    (refused : Option String) (fetched : HttpOutcome) : Except LoadError (Json × Fleet) := do
  match ← cardSource fleet args with
  | .inl answer => return (answer, fleet)
  | .inr source =>
      match ← cardTarget site source with
      | .inl answer => return (answer, fleet)
      | .inr (target, path) =>
          match requestCard fleet.lower source.auth refused fetched with
          | .connectionError =>
              return (errorAnswer ("Cannot connect to " ++ String.ofList target), fleet)
          | .timeoutError =>
              return (errorAnswer ("Discovery failed: Timed out after " ++
                toString site.timeout ++ "s"), fleet)
          | .failed exc => return (errorAnswer ("Discovery failed: " ++ exc), fleet)
          | .body body => (discovered site fleet args source target path body).mapError .raised

/-! ### One discovery -/

/-- **A registration that is found again**: under a key of its own, with a URL, and with
credentials that are named only. -/
structure Registration.Valid (lower : String → String) (r : Registration) : Prop where
  key : r.agentKey = safeAgentKey lower r.registerAs
  isKey : AgentKey r.agentKey
  url : r.rpcUrl ≠ ""
  auth : NamesVariables r.publicAuth

/-- A discovery: what it is called with, and what comes of the request. -/
structure Discovery where
  args : DiscoverArgs
  /-- What is raised about the request, apart from its credentials. -/
  refused : Option String
  /-- What the network answers. -/
  fetched : HttpOutcome

/-- What the discovery registers: the agent whose card was fetched. -/
structure Discovery.Registers (call : Discovery) (r : Registration) : Prop where
  wanted : call.args.register = true
  card : ∃ card, call.fetched = .body (.obj card) ∧ r.description = textAt card "description"
  name : call.args.registerAs ≠ "" → r.registerAs = call.args.registerAs

/-- The discovery says that an agent is registered under the key. -/
def Discovery.TellsRegistered (site : DiscoverSite) (call : Discovery) (fleet : Fleet)
    (key : String) : Prop :=
  ∃ answer fleet' path, handleDiscover site fleet call.args call.refused call.fetched = .ok (answer, fleet') ∧
    answer.field? "registration" = some (registrationAnswer site (.registered key path))

/-- What a discovery leaves of the registry. -/
def Discovery.on (site : DiscoverSite) (call : Discovery) (fleet : Fleet) : Fleet :=
  match handleDiscover site fleet call.args call.refused call.fetched with
  | .ok (_, fleet') => fleet'
  | .error _ => fleet

section Step

variable {site : DiscoverSite} {fleet fleet' : Fleet} {call : Discovery} {args : DiscoverArgs}
  {refused : Option String} {fetched : HttpOutcome} {answer : Json} {key : String}

/-- The fields of what is read of a card. -/
theorem cardResult_fields {target : List Char} {card : Json} {result : Fields}
    (h : cardResult target card = .ok result) :
    (∃ fields, card = .obj fields) ∧ result.lookup "registration" = none := by
  unfold cardResult at h
  obtain ⟨name, hname, h⟩ := exists_of_bind_ok h
  obtain ⟨description, -, h⟩ := exists_of_bind_ok h
  obtain ⟨version, -, h⟩ := exists_of_bind_ok h
  obtain ⟨listed, -, h⟩ := exists_of_bind_ok h
  obtain ⟨items, -, h⟩ := exists_of_bind_ok h
  obtain ⟨skills, -, h⟩ := exists_of_bind_ok h
  obtain ⟨capabilities, -, h⟩ := exists_of_bind_ok h
  obtain rfl := Except.ok.inj h
  refine ⟨?_, rfl⟩
  cases card with
  | obj fields => exact ⟨fields, rfl⟩
  | _ => cases hname

theorem cardSource_answer (h : cardSource fleet args = .ok (.inl answer)) :
    ∃ message, answer = errorAnswer message := by
  unfold cardSource at h
  split_ifs at h
  · cases h
    exact ⟨_, rfl⟩
  · split at h
    · cases h
    · cases h
      exact ⟨_, rfl⟩
    · obtain ⟨source, -, h⟩ := exists_of_bind_ok h
      split_ifs at h
      · cases h
      · cases h
        exact ⟨_, rfl⟩
  · cases h

theorem cardTarget_answer {source : CardSource} (h : cardTarget site source = .ok (.inl answer)) :
    ∃ message, answer = errorAnswer message := by
  unfold cardTarget at h
  split at h
  · split at h
    · cases h
      exact ⟨_, rfl⟩
    · split at h
      · cases h
        exact ⟨_, rfl⟩
      · split_ifs at h
        · cases h
          exact ⟨_, rfl⟩
        · cases h
  · cases h

/-- A card comes from the network. -/
theorem requestCard_body {lower : String → String} {auth body : Json}
    (h : requestCard lower auth refused fetched = .body body) : fetched = .body body := by
  unfold requestCard at h
  split at h
  · cases h
  · exact h

/-- A discovery comes to its end with a card, or without. -/
theorem handleDiscover_cases
    (h : handleDiscover site fleet args refused fetched = .ok (answer, fleet')) :
    (fleet' = fleet ∧ ∃ message, answer = errorAnswer message) ∨
      ∃ source target path body, fetched = .body body ∧
        discovered site fleet args source target path body = .ok (answer, fleet') := by
  unfold handleDiscover at h
  obtain ⟨source, hsource, h⟩ := exists_of_bind_ok h
  rcases source with early | source
  · obtain ⟨rfl, rfl⟩ := Prod.mk.inj (Except.ok.inj h)
    exact Or.inl ⟨rfl, cardSource_answer hsource⟩
  · obtain ⟨target, htarget, h⟩ := exists_of_bind_ok h
    rcases target with early | ⟨target, path⟩
    · obtain ⟨rfl, rfl⟩ := Prod.mk.inj (Except.ok.inj h)
      exact Or.inl ⟨rfl, cardTarget_answer htarget⟩
    · dsimp only at h
      cases hrequest : requestCard fleet.lower source.auth refused fetched with
      | body body =>
          refine Or.inr ⟨source, target, path, body, requestCard_body hrequest, ?_⟩
          rw [hrequest] at h
          cases hdiscovered : discovered site fleet args source target path body with
          | error e =>
              dsimp only at h
              rw [hdiscovered] at h
              cases h
          | ok result =>
              dsimp only at h
              rw [hdiscovered] at h
              exact congrArg Except.ok (Except.ok.inj h)
      | _ =>
          rw [hrequest] at h
          obtain ⟨rfl, rfl⟩ := Prod.mk.inj (Except.ok.inj h)
          exact Or.inl ⟨rfl, _, rfl⟩

/-- The name that is registered is the one that was asked for, if there is one. -/
theorem registeredName_eq {target : List Char} {card : Fields} {name : String}
    (h : registeredName site args target card = .ok name) (hnamed : args.registerAs ≠ "") :
    name = args.registerAs := by
  have hset : (Json.str args.registerAs).truthy = true := bne_iff_ne.mpr hnamed
  unfold registeredName at h
  dsimp only at h
  rw [Json.orElse_of_truthy hset] at h
  exact (Except.ok.inj h).symm

/-- **A discovery writes one identity, or nothing**, and says which. -/
theorem discover_step (h : handleDiscover site fleet call.args call.refused call.fetched = .ok (answer, fleet')) :
    (fleet' = fleet ∧ ∀ key path,
        answer.field? "registration" ≠ some (registrationAnswer site (.registered key path))) ∨
      ∃ r path, Registration.Valid fleet.lower r ∧ call.Registers r ∧
        fleet' = fleet.write r.agentKey (.obj r.identity) ∧
          answer.field? "registration" =
            some (registrationAnswer site (.registered r.agentKey path)) := by
  rcases handleDiscover_cases h with ⟨rfl, message, rfl⟩ | ⟨source, target, path, body, hbody, h⟩
  · exact Or.inl ⟨rfl, fun _ _ => nofun⟩
  · unfold discovered at h
    obtain ⟨result, hresult, h⟩ := exists_of_bind_ok h
    obtain ⟨⟨card, rfl⟩, hnone⟩ := cardResult_fields hresult
    split_ifs at h with hregister hresolved
    · obtain ⟨rfl, rfl⟩ := Prod.mk.inj (Except.ok.inj h)
      refine Or.inl ⟨rfl, fun key path heq => ?_⟩
      cases hnone.symm.trans heq
    · obtain ⟨rfl, rfl⟩ := Prod.mk.inj (Except.ok.inj h)
      refine Or.inl ⟨rfl, fun key path heq => ?_⟩
      cases (Json.lookup_setField_self ..).symm.trans heq
    · obtain ⟨name, hname, h⟩ := exists_of_bind_ok h
      obtain ⟨⟨told, fleet₁⟩, hregistering, h⟩ := exists_of_bind_ok h
      obtain ⟨rfl, rfl⟩ := Prod.mk.inj (Except.ok.inj h)
      rcases registering_cases hregistering with ⟨rfl, hnot⟩ |
        ⟨rpcUrl, cardUrl, publicAuth, skills, hne, hrpc, -, hauth, rfl, rfl⟩
      · refine Or.inl ⟨rfl, fun key path heq => ?_⟩
        have hanswer := Option.some.inj ((Json.lookup_setField_self ..).symm.trans heq)
        cases told with
        | registered name path => exact hnot name path rfl
        | error message => simp [registrationAnswer] at hanswer
        | badUrl refusal => simp [registrationAnswer] at hanswer
      · refine Or.inr ⟨(registerArgs call.args name source target path card).registration _ rpcUrl
          cardUrl publicAuth skills, _, ⟨rfl, agentKey_safeAgentKey hne, ?_, ?_⟩, ⟨?_, ?_, ?_⟩, rfl,
          Json.lookup_setField_self ..⟩
        · exact fun hempty => ne_nil_of_accepts hrpc (by
            rw [← String.toList_ofList (l := rpcUrl)]
            exact congrArg String.toList hempty)
        · exact namesVariables_publicAuthSection hauth
        · exact Bool.eq_true_of_not_eq_false hregister
        · exact ⟨card, hbody, rfl⟩
        · exact fun hnamed => registeredName_eq hname hnamed

@[simp] theorem Fleet.identity_write_self (fleet : Fleet) (key : String) (document : Json) :
    (fleet.write key document).identity key = .parsed document := Function.update_self ..

theorem Fleet.identity_write_of_ne {other : String} (fleet : Fleet) (document : Json)
    (h : other ≠ key) : (fleet.write key document).identity other = fleet.identity other :=
  Function.update_of_ne h ..

/-- What a discovery does to the registry. -/
theorem Discovery.on_cases (site : DiscoverSite) (call : Discovery) (fleet : Fleet) :
    (call.on site fleet = fleet ∧ ∀ key, ¬ call.TellsRegistered site fleet key) ∨
      ∃ r, Registration.Valid fleet.lower r ∧ call.Registers r ∧
        call.on site fleet = fleet.write r.agentKey (.obj r.identity) ∧
          ∀ key, call.TellsRegistered site fleet key → key = r.agentKey := by
  unfold Discovery.on
  cases hdiscover : handleDiscover site fleet call.args call.refused call.fetched with
  | error e =>
      refine Or.inl ⟨rfl, ?_⟩
      rintro key ⟨answer, fleet', path, heq, -⟩
      cases hdiscover.symm.trans heq
  | ok result =>
      obtain ⟨answer, fleet'⟩ := result
      have hanswer : ∀ key, call.TellsRegistered site fleet key → ∃ path,
          answer.field? "registration" = some (registrationAnswer site (.registered key path)) := by
        rintro key ⟨answer', fleet'', path, heq, htold⟩
        obtain ⟨rfl, rfl⟩ := Prod.mk.inj (Except.ok.inj (hdiscover.symm.trans heq))
        exact ⟨path, htold⟩
      rcases discover_step hdiscover with ⟨rfl, hnot⟩ | ⟨r, path, hvalid, hregisters, rfl, htold⟩
      · refine Or.inl ⟨rfl, fun key hkey => ?_⟩
        obtain ⟨path, hpath⟩ := hanswer key hkey
        exact hnot key path hpath
      · refine Or.inr ⟨r, hvalid, hregisters, rfl, fun key hkey => ?_⟩
        obtain ⟨path', hpath'⟩ := hanswer key hkey
        have heq := Option.some.inj (htold.symm.trans hpath')
        simp only [registrationAnswer, Json.obj.injEq, List.cons.injEq, Prod.mk.injEq,
          Json.str.injEq, true_and] at heq
        exact heq.1.symm

end Step

/-! ### Any discoveries -/

/-- What some discoveries leave of the registry. -/
def discoverAll (site : DiscoverSite) (calls : List Discovery) (fleet : Fleet) : Fleet :=
  Sequential.run (Discovery.on site) calls fleet

/-- **A registration that is on file**, of an agent that one of the discoveries has found. -/
structure OnFile (calls : List Discovery) (fleet : Fleet) (r : Registration) : Prop where
  valid : r.Valid fleet.lower
  file : fleet.identity r.agentKey = .parsed (.obj r.identity)
  found : ∃ call ∈ calls, call.Registers r

/-- The registry has nothing but registrations. -/
def OnlyRegistrations (calls : List Discovery) (fleet : Fleet) : Prop :=
  ∀ key, fleet.identity key = .missing ∨ ∃ r, r.agentKey = key ∧ OnFile calls fleet r

section Runs

variable {site : DiscoverSite} {fleet : Fleet} {calls : List Discovery} {call : Discovery}

theorem OnlyRegistrations.on (h : OnlyRegistrations calls fleet) (hcall : call ∈ calls) :
    OnlyRegistrations calls (call.on site fleet) := by
  rcases call.on_cases site fleet with ⟨heq, -⟩ | ⟨r, hvalid, hregisters, heq, -⟩
  · rwa [heq]
  · rw [heq]
    intro key
    by_cases hkey : key = r.agentKey
    · exact Or.inr ⟨r, hkey.symm, hvalid, fleet.identity_write_self .., call, hcall, hregisters⟩
    · have hold := fleet.identity_write_of_ne (.obj r.identity) hkey
      rw [hold]
      refine (h key).imp_right ?_
      rintro ⟨r', rfl, hfile⟩
      exact ⟨r', rfl, hfile.valid, hold.trans hfile.file, hfile.found⟩

/-- **A registry that was empty has nothing but registrations.** -/
theorem onlyRegistrations_discoverAll (hempty : ∀ key, fleet.identity key = .missing) :
    OnlyRegistrations calls (discoverAll site calls fleet) :=
  Sequential.run_invariant_of_mem (fun _ _ hcall h => h.on hcall) (fun _ h => h)
    fun key => Or.inl (hempty key)

/-- An identity that is there stays there, changed at most. -/
theorem present_on {key : String} (h : (fleet.identity key).present = true) :
    ((call.on site fleet).identity key).present = true := by
  rcases call.on_cases site fleet with ⟨heq, -⟩ | ⟨r, -, -, heq, -⟩
  · rwa [heq]
  · rw [heq]
    by_cases hkey : key = r.agentKey
    · rw [hkey, Fleet.identity_write_self]
      rfl
    · rwa [fleet.identity_write_of_ne _ hkey]

/-- **Whoever is said to be registered stays on file.** -/
theorem present_of_told {before after : List Discovery} {key : String}
    (htold : call.TellsRegistered site (discoverAll site before fleet) key) :
    ((discoverAll site (before ++ call :: after) fleet).identity key).present = true := by
  unfold discoverAll at htold ⊢
  rw [Sequential.run_append, Sequential.run_cons]
  refine Sequential.run_invariant (I := fun fleet : Fleet => (fleet.identity key).present = true)
    (fun _ _ h => present_on h) after ?_
  rcases call.on_cases site (Sequential.run (Discovery.on site) before fleet) with
    ⟨-, hnot⟩ | ⟨r, -, -, heq, hkey⟩
  · exact absurd htold (hnot key)
  · rw [heq, hkey key htold, Fleet.identity_write_self]
    rfl

end Runs

/-- The agent of `demoArgs` is discovered by its URL. -/
def demoDiscovery : Discovery where
  args :=
    { name := "", url := "https://external.example", credentials := demoArgs.credentials
      agentCardPath := "/agent-card.json", register := true, registerAs := ""
      rpcUrl := "https://external.example/rpc", registerOverwrite := false }
  refused := none
  fetched := .body (.obj demoArgs.card)

/-- A site that says nothing of its errors. -/
def DiscoverSite.sample : DiscoverSite where
  chars := CharData.ascii
  agentsRoot := demoAgents
  pathText _ := ""
  urlErrorText _ := ""
  errorText _ := ""
  timeout := 30

/-! ### Credentials stay out of the registry -/

/-- The same credentials, but for what their secrets are. -/
structure SameButSecrets (a b : DiscoverAuth) : Prop where
  authType : b.authType = a.authType
  authHeader : b.authHeader = a.authHeader
  authTokenEnv : b.authTokenEnv = a.authTokenEnv
  authValueEnv : b.authValueEnv = a.authValueEnv
  authToken : b.authToken = "" ↔ a.authToken = ""
  authValue : b.authValue = "" ↔ a.authValue = ""

section Secrets

variable {site : DiscoverSite} {a b : DiscoverAuth} {auth auth' : Fields}

/-- Two sections that are the same but for their secrets. -/
def SectionsAgree (auth auth' : Fields) : Prop :=
  ∀ key, key ≠ "value" → key ≠ "token" → auth'.lookup key = auth.lookup key

theorem sectionsAgree_directAuth (h : SameButSecrets a b) :
    SectionsAgree (directAuth a) (directAuth b) := by
  intro key hvalue htoken
  have hset : b.authValue ≠ "" ↔ a.authValue ≠ "" := not_congr h.authValue
  unfold directAuth
  rw [h.authType, h.authHeader]
  by_cases hgiven : a.authType ≠ "" ∨ a.authHeader ≠ "" ∨ a.authValue ≠ ""
  · rw [if_pos hgiven, if_pos (hgiven.imp_right (Or.imp_right hset.mpr))]
    simp [Json.lookup_cons_eq, hvalue, htoken]
  · rw [if_neg hgiven, if_neg fun hb => hgiven (hb.imp_right (Or.imp_right hset.mp))]
    by_cases hnone : a.authToken = ""
    · rw [if_neg (not_not_intro (h.authToken.mpr hnone)), if_neg (not_not_intro hnone)]
    · rw [if_pos (h.authToken.not.mpr hnone), if_pos hnone]
      simp [Json.lookup_cons_eq, htoken]

/-- What is written of some credentials does not depend on their secrets. -/
theorem publicAuthSection_secrets (lower : String → String) (h : SameButSecrets a b)
    (hauth : SectionsAgree auth auth') :
    publicAuthSection lower b auth' = publicAuthSection lower a auth := by
  unfold publicAuthSection eitherAt
  rw [hauth _ (by decide) (by decide), hauth _ (by decide) (by decide),
    hauth _ (by decide) (by decide), h.authType, h.authHeader, h.authTokenEnv, h.authValueEnv]

theorem registerExternal_secrets (D : CharData) (agentsRoot : List Component) (fleet : Fleet)
    (args : RegisterArgs) (h : SameButSecrets args.credentials b)
    (hauth : SectionsAgree args.auth auth') :
    registerExternalAgentIdentity D agentsRoot fleet { args with credentials := b, auth := auth' } =
      registerExternalAgentIdentity D agentsRoot fleet args := by
  have hwritten : ∀ key rpcUrl cardUrl publicAuth skills,
      RegisterArgs.registration { args with credentials := b, auth := auth' } key rpcUrl cardUrl
        publicAuth skills = args.registration key rpcUrl cardUrl publicAuth skills :=
    fun _ _ _ _ _ => rfl
  unfold registerExternalAgentIdentity
  simp only [hwritten, publicAuthSection_secrets fleet.lower h hauth]

/-- The same with what comes of a card. -/
theorem discovered_secrets (fleet : Fleet) (args : DiscoverArgs) (source : CardSource)
    (h : SameButSecrets args.credentials b) {auth' : Json}
    (hauth : SectionsAgree (dictOr (some source.auth)) (dictOr (some auth'))) (target : List Char)
    (path : String) (body : Json) :
    discovered site fleet { args with credentials := b } { source with auth := auth' } target path
        body = discovered site fleet args source target path body := by
  have hregister : ∀ name card, registerExternalAgentIdentity site.chars site.agentsRoot fleet
        (registerArgs { args with credentials := b } name { source with auth := auth' } target path
          card) =
      registerExternalAgentIdentity site.chars site.agentsRoot fleet
        (registerArgs args name source target path card) :=
    fun name card => registerExternal_secrets site.chars site.agentsRoot fleet
      (registerArgs args name source target path card) h hauth
  have hname : ∀ card, registeredName site { args with credentials := b } target card =
      registeredName site args target card := fun _ => rfl
  unfold discovered
  simp only [hregister, hname]

/-- The source of a discovery, but for its secrets. -/
theorem cardSource_secrets (fleet : Fleet) (args : DiscoverArgs) (b : DiscoverAuth) :
    cardSource fleet { args with credentials := b } = cardSource fleet args ∨
      ∃ source, args.name = "" ∧ source.auth = .obj (directAuth args.credentials) ∧
        cardSource fleet args = .ok (.inr source) ∧
          cardSource fleet { args with credentials := b } =
            .ok (.inr { source with auth := .obj (directAuth b) }) := by
  by_cases hnone : args.name = "" ∧ args.url = ""
  · refine Or.inl ?_
    unfold cardSource
    rw [if_pos hnone, if_pos hnone]
  · by_cases hname : args.name ≠ ""
    · refine Or.inl ?_
      unfold cardSource
      rw [if_neg hnone, if_neg hnone, if_pos hname, if_pos hname]
    · refine Or.inr ⟨⟨.str args.url, .obj (directAuth args.credentials), .str args.agentCardPath,
        false⟩, not_not.mp hname, rfl, ?_, ?_⟩
      · unfold cardSource
        rw [if_neg hnone, if_neg hname]
        rfl
      · unfold cardSource
        rw [if_neg hnone, if_neg hname]
        rfl

/-- **A header can carry the credentials.** -/
def DiscoverAuth.Sendable (lower : String → String) (a : DiscoverAuth) : Prop :=
  authRefusal? lower (.obj (directAuth a)) = none

/-- The same discovery with other secrets.  A header can carry both, if one has to: under a name
no credentials are sent. -/
structure Discovery.SameButSecrets (lower : String → String) (call call' : Discovery) : Prop where
  credentials : HermesA2A.SameButSecrets call.args.credentials call'.args.credentials
  args : call'.args = { call.args with credentials := call'.args.credentials }
  refused : call'.refused = call.refused
  fetched : call'.fetched = call.fetched
  sendable : call.args.name = "" →
    call.args.credentials.Sendable lower ∧ call'.args.credentials.Sendable lower

/-- **A discovery does not tell its secrets**: neither its answer nor what it leaves on file
depends on them. -/
theorem handleDiscover_secrets (site : DiscoverSite) (fleet : Fleet) {call call' : Discovery}
    (h : call.SameButSecrets fleet.lower call') :
    handleDiscover site fleet call'.args call'.refused call'.fetched =
      handleDiscover site fleet call.args call.refused call.fetched := by
  have hself : ∀ auth, SectionsAgree auth auth := fun _ _ _ _ => rfl
  have hdiscovered : ∀ source target path body,
      discovered site fleet { call.args with credentials := call'.args.credentials } source target
        path body = discovered site fleet call.args source target path body :=
    fun source => discovered_secrets fleet call.args source h.credentials (hself _)
  rw [h.args, h.refused, h.fetched]
  unfold handleDiscover
  rcases cardSource_secrets fleet call.args call'.args.credentials with
    heq | ⟨source, hname, hauth, hs, hs'⟩
  · simp only [heq, hdiscovered]
  · have htarget : cardTarget site { source with auth := .obj (directAuth call'.args.credentials) } =
        cardTarget site source := by
      unfold cardTarget
      dsimp only
    have hagree : SectionsAgree (dictOr (some source.auth))
        (dictOr (some (.obj (directAuth call'.args.credentials)))) := by
      rw [hauth]
      exact sectionsAgree_directAuth h.credentials
    -- neither header is refused
    obtain ⟨hsend, hsend'⟩ := h.sendable hname
    have hrequest : requestCard fleet.lower (.obj (directAuth call'.args.credentials)) call.refused
        call.fetched = requestCard fleet.lower source.auth call.refused call.fetched := by
      unfold requestCard
      rw [hauth, hsend, hsend']
    rw [bind_of_ok hs, bind_of_ok hs']
    simp only [htarget, hrequest, discovered_secrets fleet call.args source h.credentials hagree]

/-- The answers to some discoveries, one after the other. -/
def discoverAnswers (site : DiscoverSite) : List Discovery → Fleet → List (Except LoadError Json)
  | [], _ => []
  | call :: calls, fleet =>
      (handleDiscover site fleet call.args call.refused call.fetched).map Prod.fst ::
        discoverAnswers site calls (call.on site fleet)

@[simp] theorem Discovery.lower_on (site : DiscoverSite) (call : Discovery) (fleet : Fleet) :
    (call.on site fleet).lower = fleet.lower := by
  rcases call.on_cases site fleet with ⟨heq, -⟩ | ⟨r, -, -, heq, -⟩
  · rw [heq]
  · rw [heq]
    rfl

/-- **No credential gets into the registry**, nor into an answer: after any discoveries, both are
the same whatever the secrets were, as long as a header can carry them. -/
theorem discoverAll_secrets (site : DiscoverSite) {lower : String → String}
    {calls calls' : List Discovery} (h : List.Forall₂ (Discovery.SameButSecrets lower) calls calls')
    (fleet : Fleet) (hlower : fleet.lower = lower) :
    discoverAll site calls' fleet = discoverAll site calls fleet ∧
      discoverAnswers site calls' fleet = discoverAnswers site calls fleet := by
  induction h generalizing fleet with
  | nil => exact ⟨rfl, rfl⟩
  | @cons call call' calls calls' hcall _ ih =>
      have hstep := handleDiscover_secrets site fleet (hlower ▸ hcall)
      have hon : call'.on site fleet = call.on site fleet := by
        unfold Discovery.on
        rw [hstep]
      obtain ⟨hrun, hanswers⟩ := ih (call.on site fleet) ((call.lower_on site fleet).trans hlower)
      unfold discoverAll at hrun ⊢
      rw [Sequential.run_cons, Sequential.run_cons, hon]
      refine ⟨hrun, ?_⟩
      rw [discoverAnswers, discoverAnswers, hstep, hon, hanswers]

/-- **What no header can carry is told**: nothing is registered, and the answer has the text of the
exception, which shows the value of the header. -/
theorem on_of_unsendable {fleet : Fleet} {call : Discovery} {source : CardSource}
    {target : List Char} {path exc : String} (hsource : cardSource fleet call.args = .ok (.inr source))
    (htarget : cardTarget site source = .ok (.inr (target, path))) (hrefused : call.refused = none)
    (hunsendable : authRefusal? fleet.lower source.auth = some exc) :
    handleDiscover site fleet call.args call.refused call.fetched =
        .ok (errorAnswer ("Discovery failed: " ++ exc), fleet) ∧
      call.on site fleet = fleet := by
  have hanswer : handleDiscover site fleet call.args call.refused call.fetched =
      .ok (errorAnswer ("Discovery failed: " ++ exc), fleet) := by
    unfold handleDiscover
    rw [bind_of_ok hsource]
    dsimp only
    rw [bind_of_ok htarget]
    dsimp only
    rw [requestCard, hrefused, hunsendable]
    rfl
  refine ⟨hanswer, ?_⟩
  rw [Discovery.on, hanswer]

example : headerRefusal? (.str "Authorization", .str "Bearer hunter2\n") =
    some "Invalid header value b'Bearer hunter2\\n'" := by decide +kernel

end Secrets

/-- The demo discovery, with another secret. -/
def demoDiscoveryWith (secret : String) : Discovery :=
  { demoDiscovery with
    args := { demoDiscovery.args with
      credentials := { demoArgs.credentials with authValue := secret } } }

theorem demo_secret_unwritten :
    discoverAll .sample [demoDiscoveryWith "another"] emptyFleet =
        discoverAll .sample [demoDiscovery] emptyFleet ∧
      discoverAnswers .sample [demoDiscoveryWith "another"] emptyFleet =
        discoverAnswers .sample [demoDiscovery] emptyFleet := by
  have hsame : demoDiscovery.SameButSecrets emptyFleet.lower (demoDiscoveryWith "another") :=
    ⟨⟨rfl, rfl, rfl, rfl, Iff.rfl, by decide⟩, rfl, rfl, rfl,
      fun _ => ⟨rfl, rfl⟩⟩
  exact discoverAll_secrets .sample (.cons hsame .nil) emptyFleet rfl

end HermesA2A
