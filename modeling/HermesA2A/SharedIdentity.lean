import HermesA2A.Identity
import HermesA2A.Lib.DictHeap

/-!
# Normalising an identity in place

`_normalize_identity` copies the top level of an identity and changes the rest in place.  A
YAML document can hold one dictionary in two places, by an alias, and then a rule sees what
another one has filled in elsewhere.  Here an identity is a heap of dictionaries, and a pass
changes the heap.

* `normalizeObjects`, `resolveObjects` — the two functions over the heap.
* `Settled` — the identities that a pass finds nothing to fill in.
* `normalize_settled` — a pass over a settled identity changes no dictionary, and no field
  but a credential that was empty.
-/

namespace HermesA2A

open DictHeap

/-! ### Objects -/

/-- A value that is no dictionary. -/
structure Leaf where
  value : Json
  noDict : value.isDict = false

/-- A value of a document: a leaf, or the address of a dictionary. -/
abbrev Node := Value Leaf

/-- The dictionaries of a document. -/
abbrev Objects := Heap String Leaf

/-- `None` -/
def noneNode : Node := .leaf ⟨.null, rfl⟩

/-- A text. -/
def textNode (s : String) : Node := .leaf ⟨.str s, rfl⟩

/-- `bool(leaf)` -/
def Leaf.truthy (leaf : Leaf) : Bool := leaf.value.truthy

/-- `bool(d.get(key))` -/
def isSet (h : Objects) (a : ℕ) (key : String) : Bool := h.truthy Leaf.truthy (h.get a key)

/-- `d.get(key)` -/
def valueAt (h : Objects) (a : ℕ) (key : String) : Node := (h.get a key).getD noneNode

/-- A falsy member is filled in from a truthy one of another dictionary. -/
def inheritAt (part : ℕ) (key : String) (data : ℕ) (source : String) (h : Objects) : Objects :=
  if isSet h part key = false ∧ isSet h data source = true then
    h.set part key (valueAt h data source)
  else h

/-- A falsy member is filled in. -/
def defaultAt (part : ℕ) (key : String) (v : Node) (h : Objects) : Objects :=
  if isSet h part key then h else h.set part key v

/-- The dictionary under a key, or else a new one. -/
def dictOrNew (h : Objects) (a : ℕ) (key : String) (fresh : ℕ) : ℕ := (h.dictAt a key).getD fresh

/-- `{key: value, …}` -/
def dictOf : List (String × Node) → OrderedDict String Node :=
  List.foldl (fun d e => d.set e.1 e.2) .empty

/-! ### A pass -/

/-- `str(name).lower()` -/
abbrev IdText := Objects → Node → String

/-- The `id` of an identity without one. -/
def fillId (idText : IdText) (data : ℕ) (h : Objects) : Objects :=
  if h.get data "id" = Option.none ∧ isSet h data "name" = true then
    h.set data "id" (textNode (idText h (valueAt h data "name")))
  else h

/-- The legacy Telegram fields. -/
def fillTelegram (data platforms telegram : ℕ) (h : Objects) : Objects :=
  let h := inheritAt telegram "bot_token" data "telegram_bot_token" h
  let h := inheritAt telegram "default_chat_id" data "telegram_chat_id" h
  if h.isEmpty telegram then h
  else (h.set platforms "telegram" (.dict telegram)).set data "platforms" (.dict platforms)

namespace TransportKind

variable (kind : TransportKind)

/-- The auth section of a transport that has none. -/
def defaultSection (data : ℕ) (h : Objects) : OrderedDict String Node :=
  if isSet h data kind.credentialKey then
    dictOf [("type", textNode kind.authType), (kind.secretKey, valueAt h data kind.credentialKey)]
  else dictOf [("type", textNode "none")]

/-- The transport with its URL, protocol and auth filled in. -/
def fillObject (data part fresh : ℕ) (h : Objects) : Objects :=
  let h := inheritAt part "url" data kind.urlKey h
  let h := defaultAt part "protocol" (textNode kind.protocol) h
  if isSet h part "auth" then h
  else (h.put fresh (kind.defaultSection data h)).set part "auth" (.dict fresh)

/-- `(part.get("auth") or {}).get(key, "")` -/
def secretIn (part : ℕ) (h : Objects) : Except PyError Node :=
  if isSet h part "auth" then
    match h.get part "auth" with
    | some (.dict auth) => return (h.get auth kind.secretKey).getD (textNode "")
    | _ => throw .attributeError
  else return textNode ""

/-- A transport that has a URL goes back among the others, and the legacy fields follow. -/
def publishObject (data transports part : ℕ) (h : Objects) : Except PyError Objects :=
  if isSet h part "url" then do
    let h := h.set transports kind.name (.dict part)
    let h := h.set data kind.urlKey ((h.get part "url").getD (textNode ""))
    if isSet h data kind.credentialKey then return h
    let secret ← kind.secretIn part h
    return h.set data kind.credentialKey secret
  else return h

end TransportKind

/-- The agent card's auth is that of `a2a_rpc`, unless it has its own. -/
def fillCard (rpc transports card fresh : ℕ) (h : Objects) : Objects :=
  if isSet h card "url" then
    let h :=
      if isSet h card "auth" then h
      else if isSet h rpc "auth" then h.set card "auth" (valueAt h rpc "auth")
      else (h.put fresh (dictOf [("type", textNode "none")])).set card "auth" (.dict fresh)
    h.set transports "agent_card" (.dict card)
  else h

/-- `data["transports"]` and `data["defaults"]` -/
def fillRest (data transports fresh : ℕ) (h : Objects) : Objects :=
  let h := if h.isEmpty transports then h else h.set data "transports" (.dict transports)
  match h.get data "defaults" with
  | some _ => h
  | Option.none =>
      (h.put fresh (dictOf [("platform", textNode "telegram"), ("chat_type", textNode "dm")])).set data
        "defaults" (.dict fresh)

/-- `dict(raw)`, and free addresses for the dictionaries that a pass may make. -/
def copyOf (raw : ℕ) (h : Objects) : Objects :=
  { h.put h.next (h.cells raw) with next := h.next + 11 }

/-- `_normalize_identity`: the address of the result, and the dictionaries as they are
afterwards. -/
def normalizeObjects (idText : IdText) (raw : ℕ) (h : Objects) : Except PyError (ℕ × Objects) := do
  let data := h.next
  let h := fillId idText data (copyOf raw h)
  let platforms := dictOrNew h data "platforms" (data + 1)
  let telegram := dictOrNew h platforms "telegram" (data + 2)
  let h := fillTelegram data platforms telegram h
  let transports := dictOrNew h data "transports" (data + 9)
  let rpc := dictOrNew h transports a2aRpc.name (data + 3)
  let webhook := dictOrNew h transports hermesWebhook.name (data + 5)
  let card := dictOrNew h transports "agent_card" (data + 7)
  let h := a2aRpc.fillObject data rpc (data + 4) h
  let h ← a2aRpc.publishObject data transports rpc h
  let h := hermesWebhook.fillObject data webhook (data + 6) h
  let h ← hermesWebhook.publishObject data transports webhook h
  let h := fillCard rpc transports card (data + 8) h
  return (data, fillRest data transports (data + 10) h)

/-! ### The secrets -/

section Environment

variable (environ : String → Option String)

theorem isDict_resolveEnv (value : Json) (h : value.isDict = false) :
    (resolveEnv environ value).isDict = false := by
  unfold resolveEnv
  split
  · split <;> rfl
  · exact h

/-- `_resolve_env` -/
def resolveNode : Node → Node
  | .leaf leaf => .leaf ⟨resolveEnv environ leaf.value, isDict_resolveEnv environ _ leaf.noDict⟩
  | .dict a => .dict a

/-- `if key in auth: auth[key] = _resolve_env(auth[key])` -/
def interpolateAt (auth : ℕ) (key : String) (h : Objects) : Objects :=
  match h.get auth key with
  | some value => h.set auth key (resolveNode environ value)
  | Option.none => h

/-- `if auth.get(env_key) and not auth.get(key): auth[key] = os.environ.get(…, "")` -/
def fromEnvironAt (auth : ℕ) (envKey key : String) (h : Objects) : Except PyError Objects :=
  if isSet h auth envKey = true ∧ isSet h auth key = false then
    match h.get auth envKey with
    | some (.leaf ⟨.str var, _⟩) => return h.set auth key (textNode ((environ var).getD ""))
    | _ => throw .typeError
  else return h

/-- The secrets of an auth section. -/
def resolveSection (auth : ℕ) (h : Objects) : Except PyError Objects := do
  let h := interpolateAt environ auth "token" h
  let h := interpolateAt environ auth "secret" h
  let h := interpolateAt environ auth "value" h
  let h ← fromEnvironAt environ auth "token_env" "token" h
  let h ← fromEnvironAt environ auth "secret_env" "secret" h
  fromEnvironAt environ auth "value_env" "value" h

/-- The secrets of the transports, one after the other. -/
def resolveEach : List Node → Objects → Except PyError Objects
  | [], h => return h
  | .leaf _ :: _, _ => throw .attributeError
  | .dict transport :: rest, h =>
      match h.dictAt transport "auth" with
      | some auth => do
          let h ← resolveSection environ auth h
          resolveEach rest h
      | Option.none => resolveEach rest h

/-- `for transport in data.get("transports", {}).values(): …` -/
def resolveObjects (data : ℕ) (h : Objects) : Except PyError Objects :=
  match h.get data "transports" with
  | Option.none => return h
  | some (.dict transports) => resolveEach environ (h.cells transports).values h
  | some (.leaf _) => throw .attributeError

end Environment

/-! ### Documents -/

/-- A document: its dictionaries, and the mapping it is. -/
structure Document where
  objects : Objects
  root : ℕ
  closed : objects.Closed
  root_lt : root < objects.next

/-! ### A pass that finds nothing to do -/

/-- The transports with a legacy form. -/
def KINDS : List TransportKind := [a2aRpc, hermesWebhook]

/-- The fields that a later pass may still fill in. -/
def CREDENTIAL_KEYS : List String := ["auth_token", "webhook_secret"]

/-- The legacy Telegram fields, and what is filled in from them. -/
def TELEGRAM_FIELDS : List (String × String) :=
  [("bot_token", "telegram_bot_token"), ("default_chat_id", "telegram_chat_id")]

/-- A transport of an identity. -/
def transportAt (h : Objects) (data : ℕ) (name : String) : Option ℕ :=
  (h.dictAt data "transports").bind fun transports => h.dictAt transports name

/-- A transport that is filled in, and the legacy fields that follow it. -/
structure PartSettled (h : Objects) (data : ℕ) (kind : TransportKind) (part : ℕ) : Prop where
  protocol : isSet h part "protocol" = true
  auth : isSet h part "auth" = true
  unpublished : isSet h part "url" = false → isSet h data kind.urlKey = false
  published : isSet h part "url" = true → h.get data kind.urlKey = h.get part "url" ∧
    (isSet h data kind.credentialKey = true ∨ ∃ auth, h.get part "auth" = some (.dict auth))

/-- **A settled identity** has nothing that a pass would fill in. -/
structure Settled (h : Objects) (data : ℕ) : Prop where
  id : h.get data "id" ≠ none ∨ isSet h data "name" = false
  telegram : ∀ e ∈ TELEGRAM_FIELDS, isSet h data e.2 = false ∨
    ∃ platforms telegram, h.dictAt data "platforms" = some platforms ∧
      h.dictAt platforms "telegram" = some telegram ∧ isSet h telegram e.1 = true
  absent : ∀ kind ∈ KINDS, transportAt h data kind.name = none → isSet h data kind.urlKey = false
  present : ∀ kind ∈ KINDS, ∀ part, transportAt h data kind.name = some part →
    PartSettled h data kind part
  card : ∀ card, transportAt h data "agent_card" = some card → isSet h card "url" = true →
    isSet h card "auth" = true
  defaults : h.get data "defaults" ≠ none

/-- What a pass leaves of a credential: an empty one is read off the transport again. -/
def Credential (h : Objects) (data : ℕ) (kind : TransportKind) (v : Option Node) : Prop :=
  v = h.get data kind.credentialKey ∨ isSet h data kind.credentialKey = false ∧
    ∃ part auth, transportAt h data kind.name = some part ∧ isSet h part "url" = true ∧
      h.get part "auth" = some (.dict auth) ∧
        v = some ((h.get auth kind.secretKey).getD (textNode ""))

/-- **The heap in the middle of a pass that finds nothing to do**: the dictionaries are as
they were, the copy is like the original but for the credentials, and all but the first
free addresses are free. -/
structure Mirrors (h : Objects) (data m : ℕ) (g : Objects) : Prop where
  old : ∀ a < h.next, ∀ k, g.get a k = h.get a k
  root : ∀ k ∉ CREDENTIAL_KEYS, g.get h.next k = h.get data k
  credential : ∀ kind ∈ KINDS, Credential h data kind (g.get h.next kind.credentialKey)
  free : ∀ a, h.next + m ≤ a → ∀ k, g.get a k = none

section SecondPass

variable {h g : Objects} {data m a : ℕ} {k : String} {v : Option Node} {kind : TransportKind}

theorem Mirrors.mono {m' : ℕ} (hg : Mirrors h data m g) (hm : m ≤ m') : Mirrors h data m' g :=
  { hg with free := fun a ha => hg.free a (by omega) }

/-- A value of an old dictionary is as true as it was. -/
theorem Mirrors.truthy (hg : Mirrors h data m g) (hv : ∀ a, v = some (.dict a) → a < h.next) :
    g.truthy Leaf.truthy v = h.truthy Leaf.truthy v :=
  Heap.truthy_congr fun a ha => Heap.isEmpty_congr (hg.old a (hv a ha))

theorem Mirrors.isSet_old (hg : Mirrors h data m g) (hclosed : h.Closed) (ha : a < h.next) :
    isSet g a k = isSet h a k := by
  unfold isSet
  rw [hg.old a ha]
  exact hg.truthy fun b hb => hclosed.refs hb

theorem Mirrors.isSet_root (hg : Mirrors h data m g) (hclosed : h.Closed)
    (hk : k ∉ CREDENTIAL_KEYS) : isSet g h.next k = isSet h data k := by
  unfold isSet
  rw [hg.root k hk]
  exact hg.truthy fun b hb => hclosed.refs hb

theorem Mirrors.dictAt_old (hg : Mirrors h data m g) (ha : a < h.next) :
    g.dictAt a k = h.dictAt a k := Heap.dictAt_congr (hg.old a ha k)

theorem Mirrors.dictAt_root (hg : Mirrors h data m g) (hk : k ∉ CREDENTIAL_KEYS) :
    g.dictAt h.next k = h.dictAt data k := Heap.dictAt_congr (hg.root k hk)

theorem Mirrors.dictAt_free (hg : Mirrors h data m g) (ha : h.next + m ≤ a) :
    g.dictAt a k = none := by
  unfold Heap.dictAt
  rw [hg.free a ha]
  rfl

theorem Mirrors.isSet_free (hg : Mirrors h data m g) (ha : h.next + m ≤ a) :
    isSet g a k = false := by
  unfold isSet
  rw [hg.free a ha]
  rfl

/-- Assigning what an old dictionary has. -/
theorem Mirrors.set_old {v : Node} (hg : Mirrors h data m g) (ha : a < h.next)
    (hv : h.get a k = some v) : Mirrors h data m (g.set a k v) where
  old b hb l := by
    rw [Heap.get_set]
    split_ifs with heq
    · rw [heq.1, heq.2, hv]
    · exact hg.old b hb l
  root l hl := by
    rw [Heap.get_set_of_ne (by omega)]
    exact hg.root l hl
  credential kind hkind := by
    rw [Heap.get_set_of_ne (by omega)]
    exact hg.credential kind hkind
  free b hb l := by
    rw [Heap.get_set_of_ne (by omega)]
    exact hg.free b hb l

/-- Assigning what the copy has. -/
theorem Mirrors.set_root {v : Node} (hg : Mirrors h data m g) (hm : 0 < m)
    (hk : k ∉ CREDENTIAL_KEYS) (hv : h.get data k = some v) :
    Mirrors h data m (g.set h.next k v) where
  old b hb l := by
    rw [Heap.get_set_of_ne (by omega)]
    exact hg.old b hb l
  root l hl := by
    rw [Heap.get_set]
    split_ifs with heq
    · rw [heq.2, hv]
    · exact hg.root l hl
  credential kind hkind := by
    have hne : kind.credentialKey ≠ k := by
      rintro rfl
      unfold KINDS at hkind
      simp only [List.mem_cons, List.not_mem_nil, or_false] at hkind
      rcases hkind with rfl | rfl <;> exact hk (by decide)
    rw [Heap.get_set_of_ne fun heq => hne heq.2]
    exact hg.credential kind hkind
  free b hb l := by
    rw [Heap.get_set_of_ne (by omega)]
    exact hg.free b hb l

/-- Writing to what was free. -/
theorem Mirrors.of_agree {m' : ℕ} {g' : Objects} (hg : Mirrors h data m g) (hm : 0 < m)
    (hm' : m ≤ m')
    (heq : ∀ a, a < h.next + m ∨ h.next + m' ≤ a → ∀ k, g'.get a k = g.get a k) :
    Mirrors h data m' g' where
  old b hb l := (heq b (Or.inl (by omega)) l).trans (hg.old b hb l)
  root l hl := (heq h.next (Or.inl (by omega)) l).trans (hg.root l hl)
  credential kind hkind := by
    rw [heq h.next (Or.inl (by omega))]
    exact hg.credential kind hkind
  free b hb l := (heq b (Or.inr hb) l).trans (hg.free b (by omega) l)

theorem get_copyOf (raw : ℕ) (h : Objects) (a : ℕ) (k : String) :
    (copyOf raw h).get a k = if a = h.next then h.get raw k else h.get a k := Heap.get_put

theorem mirrors_copyOf (hclosed : h.Closed) : Mirrors h data 1 (copyOf data h) where
  old a ha k := by rw [get_copyOf, if_neg (by omega)]
  root k _ := by rw [get_copyOf, if_pos rfl]
  credential kind _ := Or.inl (by rw [get_copyOf, if_pos rfl])
  free a ha k := by
    rw [get_copyOf, if_neg (by omega)]
    exact hclosed.unused (by omega) k

/-- Nothing is filled in where the member is there, or there is nothing to fill in. -/
theorem inheritAt_eq_self {part source : ℕ} {l : String}
    (hset : isSet g part k = true ∨ isSet g source l = false) :
    inheritAt part k source l g = g := by
  unfold inheritAt
  rw [if_neg]
  rintro ⟨hpart, hsource⟩
  rcases hset with hset | hset
  · rw [hpart] at hset
    cases hset
  · rw [hsource] at hset
    cases hset

section Steps

variable (hclosed : h.Closed) (hdata : data < h.next) (hs : Settled h data)
include hclosed hs

theorem Mirrors.fillId (hg : Mirrors h data m g) (idText : IdText) :
    fillId idText h.next g = g := by
  unfold HermesA2A.fillId
  rw [if_neg]
  rintro ⟨hid, hname⟩
  rw [hg.root _ (by decide)] at hid
  rw [hg.isSet_root hclosed (by decide)] at hname
  rcases hs.id with hthere | hempty
  · exact hthere hid
  · rw [hempty] at hname
    cases hname

omit hclosed hs in
/-- A dictionary of the copy, or else a new one. -/
theorem Mirrors.dictOrNew_root (hg : Mirrors h data m g) (hk : k ∉ CREDENTIAL_KEYS) (fresh : ℕ) :
    dictOrNew g h.next k fresh = (h.dictAt data k).getD fresh := by
  unfold dictOrNew
  rw [hg.dictAt_root hk]

omit hs in
/-- A dictionary two levels down, or else a new one. -/
theorem Mirrors.dictOrNew_below {l : String} (hg : Mirrors h data m g) {fresh : ℕ}
    (hfresh : h.next + m ≤ fresh) (fresh' : ℕ) :
    dictOrNew g ((h.dictAt data k).getD fresh) l fresh' =
      ((h.dictAt data k).bind fun a => h.dictAt a l).getD fresh' := by
  unfold dictOrNew
  cases ha : h.dictAt data k with
  | none =>
      rw [Option.getD_none, hg.dictAt_free hfresh]
      rfl
  | some a =>
      rw [Option.getD_some, hg.dictAt_old (hclosed.refs.dictAt ha)]
      rfl

theorem Mirrors.fillTelegram (hg : Mirrors h data 1 g) :
    Mirrors h data 3 (fillTelegram h.next ((h.dictAt data "platforms").getD (h.next + 1))
      (((h.dictAt data "platforms").bind fun a => h.dictAt a "telegram").getD (h.next + 2)) g) := by
  have hsource : ∀ e ∈ TELEGRAM_FIELDS, isSet g h.next e.2 = isSet h data e.2 := by
    intro e he
    unfold TELEGRAM_FIELDS at he
    simp only [List.mem_cons, List.not_mem_nil, or_false] at he
    rcases he with rfl | rfl <;> exact hg.isSet_root hclosed (by decide)
  have hfilled : ∀ telegram, (∀ e ∈ TELEGRAM_FIELDS,
      isSet g telegram e.1 = true ∨ isSet g h.next e.2 = false) →
      inheritAt telegram "default_chat_id" h.next "telegram_chat_id"
        (inheritAt telegram "bot_token" h.next "telegram_bot_token" g) = g := by
    intro telegram hall
    rw [inheritAt_eq_self (hall ("bot_token", "telegram_bot_token") (by decide)),
      inheritAt_eq_self (hall ("default_chat_id", "telegram_chat_id") (by decide))]
  unfold HermesA2A.fillTelegram
  dsimp only
  cases ht : (h.dictAt data "platforms").bind fun a => h.dictAt a "telegram" with
  | none =>
      -- the new dictionary stays empty
      have hnone : ∀ e ∈ TELEGRAM_FIELDS, isSet g h.next e.2 = false := by
        intro e he
        rw [hsource e he]
        refine (hs.telegram e he).resolve_right fun ⟨platforms, telegram, hp, ht', _⟩ => ?_
        rw [hp, Option.bind_some, ht'] at ht
        cases ht
      rw [Option.getD_none, hfilled _ fun e he => Or.inr (hnone e he),
        if_pos (Heap.isEmpty_iff.mpr (hg.free _ (by omega)))]
      exact hg.mono (by omega)
  | some telegram =>
      obtain ⟨platforms, hp, ht'⟩ := Option.bind_eq_some_iff.mp ht
      have hkept : ∀ e ∈ TELEGRAM_FIELDS, isSet g telegram e.1 = true ∨
          isSet g h.next e.2 = false := by
        intro e he
        rcases hs.telegram e he with hempty | ⟨platforms', telegram', hp', ht'', hset⟩
        · exact Or.inr ((hsource e he).trans hempty)
        · obtain rfl := Option.some.inj (hp.symm.trans hp')
          obtain rfl := Option.some.inj (ht'.symm.trans ht'')
          exact Or.inl ((hg.isSet_old hclosed (hclosed.refs.dictAt ht')).trans hset)
      rw [hp, Option.getD_some, Option.getD_some, hfilled telegram hkept]
      split_ifs
      · exact hg.mono (by omega)
      · have hset := hg.set_old (hclosed.refs.dictAt hp) (Heap.dictAt_eq_some.mp ht')
        exact (hset.set_root (by omega) (by decide) (Heap.dictAt_eq_some.mp hp)).mono (by omega)

omit hclosed hs in
theorem Mirrors.set_credential {v : Node} (hg : Mirrors h data m g) (hm : 0 < m)
    (hkind : kind ∈ KINDS) (hv : Credential h data kind (some v)) :
    Mirrors h data m (g.set h.next kind.credentialKey v) where
  old b hb l := by
    rw [Heap.get_set_of_ne (by omega)]
    exact hg.old b hb l
  root l hl := by
    rw [Heap.get_set_of_ne]
    · exact hg.root l hl
    · rintro ⟨-, rfl⟩
      unfold KINDS at hkind
      simp only [List.mem_cons, List.not_mem_nil, or_false] at hkind
      rcases hkind with rfl | rfl <;> exact hl (by decide)
  credential kind' hkind' := by
    rw [Heap.get_set]
    split_ifs with heq
    · -- the credentials have different names
      have hsame : kind' = kind := by
        unfold KINDS at hkind hkind'
        simp only [List.mem_cons, List.not_mem_nil, or_false] at hkind hkind'
        rcases hkind with rfl | rfl <;> rcases hkind' with rfl | rfl
        · rfl
        · exact absurd heq.2 (by decide)
        · exact absurd heq.2 (by decide)
        · rfl
      rw [hsame]
      exact hv
    · exact hg.credential kind' hkind'
  free b hb l := by
    rw [Heap.get_set_of_ne (by omega)]
    exact hg.free b hb l

omit hclosed hs in
theorem urlKey_notMem (hkind : kind ∈ KINDS) : kind.urlKey ∉ CREDENTIAL_KEYS := by
  unfold KINDS at hkind
  simp only [List.mem_cons, List.not_mem_nil, or_false] at hkind
  rcases hkind with rfl | rfl <;> decide

/-- A transport that is there. -/
theorem Mirrors.kind_present {transports part : ℕ} (hg : Mirrors h data m g) (hm : 0 < m)
    (hkind : kind ∈ KINDS) (htransports : h.dictAt data "transports" = some transports)
    (hpart : h.dictAt transports kind.name = some part) (fresh : ℕ) :
    ∃ g', kind.publishObject h.next transports part (kind.fillObject h.next part fresh g) =
      .ok g' ∧ Mirrors h data m g' := by
  have hat : transportAt h data kind.name = some part := by
    unfold transportAt
    rw [htransports]
    exact hpart
  have hsettled := hs.present kind hkind part hat
  have hlt := hclosed.refs.dictAt hpart
  have hfill : kind.fillObject h.next part fresh g = g := by
    have hurl : isSet g part "url" = true ∨ isSet g h.next kind.urlKey = false := by
      rw [hg.isSet_old hclosed hlt, hg.isSet_root hclosed (urlKey_notMem hkind)]
      cases hset : isSet h part "url" with
      | true => exact Or.inl rfl
      | false => exact Or.inr (hsettled.unpublished hset)
    have hprotocol : isSet g part "protocol" = true :=
      (hg.isSet_old hclosed hlt).trans hsettled.protocol
    have hauth : isSet g part "auth" = true := (hg.isSet_old hclosed hlt).trans hsettled.auth
    unfold TransportKind.fillObject defaultAt
    dsimp only
    rw [inheritAt_eq_self hurl, if_pos hprotocol, if_pos hauth]
  rw [hfill]
  unfold TransportKind.publishObject
  rw [hg.isSet_old hclosed hlt]
  by_cases hset : isSet h part "url" = true
  · obtain ⟨heq, hcredential⟩ := hsettled.published hset
    cases hurl : h.get part "url" with
    | none =>
        unfold isSet at hset
        rw [hurl] at hset
        cases hset
    | some url =>
        rw [hurl] at heq
        have hg₁ := hg.set_old (hclosed.refs.dictAt htransports) (Heap.dictAt_eq_some.mp hpart)
        generalize g.set transports kind.name (.dict part) = g₁ at hg₁
        have hurl₁ : (g₁.get part "url").getD (textNode "") = url := by
          rw [hg₁.old part hlt, hurl]
          rfl
        have hg₂ := hg₁.set_root hm (urlKey_notMem hkind) heq
        generalize hset₂ : g₁.set h.next kind.urlKey url = g₂ at hg₂
        rw [if_pos hset]
        dsimp only
        rw [hurl₁, hset₂]
        by_cases hkept : isSet g₂ h.next kind.credentialKey = true
        · rw [if_pos hkept]
          exact ⟨g₂, rfl, hg₂⟩
        · -- the credential was empty
          have hempty : isSet h data kind.credentialKey = false := by
            rcases hg₂.credential kind hkind with hsame | hread
            · rw [← Bool.not_eq_true]
              intro htrue
              refine hkept ?_
              unfold isSet at htrue ⊢
              rw [hsame, hg₂.truthy fun b hb => hclosed.refs hb]
              exact htrue
            · exact hread.1
          obtain ⟨auth, hauth⟩ := hcredential.resolve_left (Bool.eq_false_iff.mp hempty)
          have hsecret : kind.secretIn part g₂ =
              .ok ((h.get auth kind.secretKey).getD (textNode "")) := by
            unfold TransportKind.secretIn
            rw [if_pos ((hg₂.isSet_old hclosed hlt).trans hsettled.auth), hg₂.old part hlt, hauth]
            dsimp only
            rw [hg₂.old auth (hclosed.refs hauth)]
            rfl
          rw [if_neg hkept, hsecret]
          exact ⟨_, rfl, hg₂.set_credential hm hkind
            (Or.inr ⟨hempty, part, auth, hat, hset, hauth, rfl⟩)⟩
  · rw [if_neg hset]
    exact ⟨g, rfl, hg⟩

/-- A transport that is not there. -/
theorem Mirrors.kind_absent (hg : Mirrors h data m g) (hm : 0 < m) (hkind : kind ∈ KINDS)
    (hnone : transportAt h data kind.name = none) (transports : ℕ) :
    ∃ g', kind.publishObject h.next transports (h.next + m)
      (kind.fillObject h.next (h.next + m) (h.next + (m + 1)) g) = .ok g' ∧
        Mirrors h data (m + 2) g' := by
  have hurl : isSet g h.next kind.urlKey = false := by
    rw [hg.isSet_root hclosed (urlKey_notMem hkind)]
    exact hs.absent kind hkind hnone
  have hprotocol : isSet g (h.next + m) "protocol" = false := hg.isSet_free (by omega)
  have hauth : isSet (g.set (h.next + m) "protocol" (textNode kind.protocol)) (h.next + m) "auth" =
      false := by
    unfold isSet
    rw [Heap.get_set_of_ne fun heq => absurd heq.2 (by decide), hg.free _ le_rfl]
    rfl
  have hfill : kind.fillObject h.next (h.next + m) (h.next + (m + 1)) g =
      (((g.set (h.next + m) "protocol" (textNode kind.protocol)).put (h.next + (m + 1))
        (kind.defaultSection h.next (g.set (h.next + m) "protocol" (textNode kind.protocol)))).set
          (h.next + m) "auth" (.dict (h.next + (m + 1)))) := by
    unfold TransportKind.fillObject defaultAt
    dsimp only
    rw [inheritAt_eq_self (Or.inr hurl), if_neg (Bool.eq_false_iff.mp hprotocol),
      if_neg (Bool.eq_false_iff.mp hauth)]
  rw [hfill]
  generalize hg' : Heap.set _ (h.next + m) "auth" _ = g'
  have hempty : isSet g' (h.next + m) "url" = false := by
    unfold isSet
    rw [← hg', Heap.get_set_of_ne fun heq => absurd heq.2 (by decide), Heap.get_put,
      if_neg (by omega), Heap.get_set_of_ne fun heq => absurd heq.2 (by decide), hg.free _ le_rfl]
    rfl
  refine ⟨g', ?_, hg.of_agree hm (by omega) fun a ha k => ?_⟩
  · unfold TransportKind.publishObject
    rw [if_neg (Bool.eq_false_iff.mp hempty)]
    rfl
  · rw [← hg', Heap.get_set_of_ne (by omega), Heap.get_put, if_neg (by omega),
      Heap.get_set_of_ne (by omega)]

/-- **A transport**, whether it is there or not. -/
theorem Mirrors.anyKind (hg : Mirrors h data m g) (hm : 0 < m) (hkind : kind ∈ KINDS) (fresh : ℕ) :
    ∃ g', kind.publishObject h.next ((h.dictAt data "transports").getD fresh)
        ((transportAt h data kind.name).getD (h.next + m))
        (kind.fillObject h.next ((transportAt h data kind.name).getD (h.next + m))
          (h.next + (m + 1)) g) = .ok g' ∧ Mirrors h data (m + 2) g' := by
  cases hat : transportAt h data kind.name with
  | none => exact hg.kind_absent hclosed hs hm hkind hat _
  | some part =>
      obtain ⟨transports, htransports, hpart⟩ := Option.bind_eq_some_iff.mp hat
      obtain ⟨g', hok, hg'⟩ :=
        hg.kind_present hclosed hs hm hkind htransports hpart (h.next + (m + 1))
      rw [htransports]
      exact ⟨g', hok, hg'.mono (by omega)⟩

theorem Mirrors.fillCard (hg : Mirrors h data m g) (rpc fresh fresh' : ℕ) :
    Mirrors h data m (fillCard rpc ((h.dictAt data "transports").getD fresh)
      ((transportAt h data "agent_card").getD (h.next + m)) fresh' g) := by
  unfold HermesA2A.fillCard
  cases hat : transportAt h data "agent_card" with
  | none =>
      rw [Option.getD_none, if_neg (Bool.eq_false_iff.mp (hg.isSet_free le_rfl))]
      exact hg
  | some card =>
      obtain ⟨transports, htransports, hcard⟩ := Option.bind_eq_some_iff.mp hat
      have hlt := hclosed.refs.dictAt hcard
      rw [Option.getD_some, hg.isSet_old hclosed hlt]
      by_cases hurl : isSet h card "url" = true
      · rw [if_pos hurl]
        dsimp only
        rw [if_pos ((hg.isSet_old hclosed hlt).trans (hs.card card hat hurl)), htransports]
        exact hg.set_old (hclosed.refs.dictAt htransports) (Heap.dictAt_eq_some.mp hcard)
      · rw [if_neg hurl]
        exact hg

omit hclosed in
theorem Mirrors.fillRest (hg : Mirrors h data m g) (hm : 0 < m) (fresh : ℕ) :
    Mirrors h data m (fillRest h.next ((h.dictAt data "transports").getD (h.next + m)) fresh g) := by
  unfold HermesA2A.fillRest
  have hrest : Mirrors h data m
      (if g.isEmpty ((h.dictAt data "transports").getD (h.next + m)) then g
        else g.set h.next "transports" (.dict ((h.dictAt data "transports").getD (h.next + m)))) := by
    split_ifs with hempty
    · exact hg
    · cases ht : h.dictAt data "transports" with
      | none =>
          rw [ht] at hempty
          exact absurd (Heap.isEmpty_iff.mpr (hg.free _ le_rfl)) hempty
      | some transports =>
          exact hg.set_root hm (by decide) (Heap.dictAt_eq_some.mp ht)
  dsimp only
  generalize (if g.isEmpty ((h.dictAt data "transports").getD (h.next + m)) then g
    else g.set h.next "transports" _) = g' at hrest ⊢
  split
  · exact hrest
  · rename_i hnone
    rw [hrest.root _ (by decide)] at hnone
    exact absurd hnone hs.defaults

/-- **A pass over a settled identity** changes no dictionary, and makes a copy that differs
in the empty credentials only. -/
theorem normalize_settled (idText : IdText) :
    ∃ h', normalizeObjects idText data h = .ok (h.next, h') ∧ Mirrors h data 9 h' := by
  have hcopy : Mirrors h data 1 (copyOf data h) := mirrors_copyOf hclosed
  have hid := hcopy.fillId hclosed hs idText
  have htelegram := hcopy.fillTelegram hclosed hs
  unfold normalizeObjects
  dsimp only
  rw [hid, hcopy.dictOrNew_root (by decide), hcopy.dictOrNew_below hclosed le_rfl]
  generalize HermesA2A.fillTelegram h.next _ _ (copyOf data h) = g at htelegram ⊢
  rw [htelegram.dictOrNew_root (by decide), htelegram.dictOrNew_below hclosed (by omega),
    htelegram.dictOrNew_below hclosed (by omega), htelegram.dictOrNew_below hclosed (by omega)]
  obtain ⟨g₁, hok₁, hg₁⟩ := htelegram.anyKind hclosed hs (by omega)
    (List.mem_cons_self : a2aRpc ∈ KINDS) (h.next + 9)
  obtain ⟨g₂, hok₂, hg₂⟩ := hg₁.anyKind hclosed hs (by omega)
    (List.mem_cons_of_mem _ List.mem_cons_self : hermesWebhook ∈ KINDS) (h.next + 9)
  have hg₃ := (hg₂.fillCard hclosed hs ((transportAt h data a2aRpc.name).getD (h.next + 3))
    (h.next + 9) (h.next + 8)).mono (by omega : 7 ≤ 9)
  refine ⟨_, ?_, hg₃.fillRest hs (by omega) (h.next + 10)⟩
  exact (bind_of_ok hok₁).trans ((bind_of_ok hok₂).trans rfl)

end Steps

end SecondPass

end HermesA2A
