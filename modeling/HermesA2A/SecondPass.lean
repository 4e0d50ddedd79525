import HermesA2A.IdentityPasses
import Mathlib.Data.List.GetD

/-!
# The second pass

`_load_yaml_file` normalises an identity, resolves the secrets of its transports, and
normalises it once more.  Resolving the secrets leaves a settled identity settled: it
assigns to `token`, `secret` and `value`, which no rule looks at, and it never puts anything
into an empty dictionary.

* `resolveObjects_resolved` — what resolving the secrets changes.
* `normalize_idempotent` — for a document without the aliases that matter, a second pass
  changes nothing, and after the secrets were resolved it fills in empty credentials only.
-/

namespace HermesA2A

open DictHeap

/-! ### The secrets -/

/-- The keys of an auth section that hold a secret. -/
def SECRET_KEYS : List String := ["token", "secret", "value"]

/-- **Secrets were resolved**: only they were assigned to, and no dictionary that was empty
has got a member. -/
structure Resolved (h h' : Objects) : Prop where
  edits : Heap.Edits (· < h.next) (fun _ k => k ∈ SECRET_KEYS) h h'
  isEmpty : ∀ a, h'.isEmpty a = h.isEmpty a

section Secrets

variable {h h' h'' : Objects} {a data auth : ℕ} {k envKey : String} {environ : String → Option String}

theorem Resolved.refl (h : Objects) : Resolved h h := ⟨Heap.Edits.refl _ _ _, fun _ => rfl⟩

theorem Resolved.trans (hr : Resolved h h') (hr' : Resolved h' h'') : Resolved h h'' where
  edits := by
    have hnext := hr'.edits
    rw [hr.edits.next] at hnext
    exact hr.edits.trans hnext
  isEmpty a := (hr'.isEmpty a).trans (hr.isEmpty a)

/-- A secret is assigned to, in a dictionary that is not empty. -/
theorem resolved_set {v : Node} (hne : h.isEmpty a = false) (hk : k ∈ SECRET_KEYS)
    (hv : h.Refers (· < h.next) → ∀ b, v = .dict b → b < h.next) : Resolved h (h.set a k v) where
  edits := Heap.edits_set hk hv
  isEmpty b := by
    by_cases hb : b = a
    · rw [hb, hne, Heap.isEmpty_eq_false_of_get Heap.get_set_self]
    · exact Heap.isEmpty_congr fun l => Heap.get_set_of_ne fun hboth => hb hboth.1

theorem interpolateAt_resolved (hk : k ∈ SECRET_KEYS) :
    Resolved h (interpolateAt environ auth k h) := by
  unfold interpolateAt
  cases hget : h.get auth k with
  | none => exact Resolved.refl h
  | some value =>
      refine resolved_set (Heap.isEmpty_eq_false_of_get hget) hk fun hrefs b hb => ?_
      cases value with
      | leaf => cases hb
      | dict c =>
          obtain rfl := Value.dict.inj hb
          exact hrefs hget

theorem fromEnvironAt_resolved (hk : k ∈ SECRET_KEYS)
    (hok : fromEnvironAt environ auth envKey k h = .ok h') : Resolved h h' := by
  unfold fromEnvironAt at hok
  split_ifs at hok with hset
  · -- the section names a variable, so it is not empty
    split at hok
    · rename_i hget
      obtain rfl := Except.ok.inj hok
      exact resolved_set (Heap.isEmpty_eq_false_of_get hget) hk fun _ b hb => by cases hb
    · cases hok
  · obtain rfl := Except.ok.inj hok
    exact Resolved.refl h

theorem resolveSection_resolved (hok : resolveSection environ auth h = .ok h') :
    Resolved h h' := by
  obtain ⟨h₁, hok₁, hok⟩ := exists_of_bind_ok hok
  obtain ⟨h₂, hok₂, hok₃⟩ := exists_of_bind_ok hok
  have hat : ∀ k ∈ SECRET_KEYS, ∀ g, Resolved g (interpolateAt environ auth k g) :=
    fun _ hk _ => interpolateAt_resolved hk
  have htoken := hat "token" (by decide) h
  have hsecret := htoken.trans (hat "secret" (by decide) _)
  have hvalue := hsecret.trans (hat "value" (by decide) _)
  exact ((hvalue.trans (fromEnvironAt_resolved (by decide) hok₁)).trans
    (fromEnvironAt_resolved (by decide) hok₂)).trans (fromEnvironAt_resolved (by decide) hok₃)

theorem resolveEach_resolved {nodes : List Node} (hok : resolveEach environ nodes h = .ok h') :
    Resolved h h' := by
  induction nodes generalizing h with
  | nil =>
      obtain rfl := Except.ok.inj hok
      exact Resolved.refl h
  | cons node rest ih =>
      cases node with
      | leaf => cases hok
      | dict transport =>
          unfold resolveEach at hok
          split at hok
          · obtain ⟨h₁, hok₁, hok₂⟩ := exists_of_bind_ok hok
            exact (resolveSection_resolved hok₁).trans (ih hok₂)
          · exact ih hok

/-- **Resolving the secrets** assigns to secrets only. -/
theorem resolveObjects_resolved (hok : resolveObjects environ data h = .ok h') :
    Resolved h h' := by
  unfold resolveObjects at hok
  split at hok
  · obtain rfl := Except.ok.inj hok
    exact Resolved.refl h
  · exact resolveEach_resolved hok
  · cases hok

namespace Resolved

variable (hr : Resolved h h')
include hr

theorem closed (hclosed : h.Closed) : h'.Closed where
  refs := by
    rw [hr.edits.next]
    exact hr.edits.refs hclosed.refs
  unused {a} ha := by
    rw [hr.edits.next] at ha
    exact Heap.isEmpty_iff.mp ((hr.isEmpty a).trans (Heap.isEmpty_iff.mpr (hclosed.unused ha)))

theorem get (hk : k ∉ SECRET_KEYS) (a : ℕ) : h'.get a k = h.get a k := hr.edits.kept hk

theorem isSet (hk : k ∉ SECRET_KEYS) (a : ℕ) : isSet h' a k = isSet h a k := by
  unfold HermesA2A.isSet
  rw [hr.get hk]
  exact Heap.truthy_congr fun b _ => hr.isEmpty b

theorem dictAt (hk : k ∉ SECRET_KEYS) (a : ℕ) : h'.dictAt a k = h.dictAt a k :=
  Heap.dictAt_congr (hr.get hk a)

theorem transportAt (hk : k ∉ SECRET_KEYS) (data : ℕ) :
    transportAt h' data k = transportAt h data k := by
  unfold HermesA2A.transportAt
  rw [hr.dictAt (by decide)]
  exact Option.bind_congr fun a _ => hr.dictAt hk a

end Resolved

/-- The names of a transport are not those of secrets. -/
theorem kind_notMem {kind : TransportKind} (hkind : kind ∈ KINDS) :
    kind.name ∉ SECRET_KEYS ∧ kind.urlKey ∉ SECRET_KEYS ∧ kind.credentialKey ∉ SECRET_KEYS := by
  unfold KINDS at hkind
  simp only [List.mem_cons, List.not_mem_nil, or_false] at hkind
  rcases hkind with rfl | rfl <;> decide

/-- A settled identity is settled after the secrets were resolved. -/
theorem Resolved.settled (hr : Resolved h h') (hs : Settled h data) : Settled h' data where
  id := by
    rw [hr.get (by decide), hr.isSet (by decide)]
    exact hs.id
  telegram e he := by
    have hkeys : e.1 ∉ SECRET_KEYS ∧ e.2 ∉ SECRET_KEYS := by
      unfold TELEGRAM_FIELDS at he
      simp only [List.mem_cons, List.not_mem_nil, or_false] at he
      rcases he with rfl | rfl <;> decide
    rw [hr.isSet hkeys.2]
    refine (hs.telegram e he).imp_right ?_
    rintro ⟨platforms, telegram, hplatforms, htelegram, hset⟩
    refine ⟨platforms, telegram, ?_, ?_, ?_⟩
    · rw [hr.dictAt (by decide), hplatforms]
    · rw [hr.dictAt (by decide), htelegram]
    · rw [hr.isSet hkeys.1, hset]
  absent kind hkind hnone := by
    obtain ⟨hname, hurl, -⟩ := kind_notMem hkind
    rw [hr.transportAt hname] at hnone
    rw [hr.isSet hurl]
    exact hs.absent kind hkind hnone
  present kind hkind part hat := by
    obtain ⟨hname, hurl, hcredential⟩ := kind_notMem hkind
    rw [hr.transportAt hname] at hat
    have hpart := hs.present kind hkind part hat
    constructor
    · rw [hr.isSet (by decide)]
      exact hpart.protocol
    · rw [hr.isSet (by decide)]
      exact hpart.auth
    · rw [hr.isSet (by decide), hr.isSet hurl]
      exact hpart.unpublished
    · rw [hr.isSet (by decide), hr.isSet hcredential, hr.get hurl, hr.get (by decide),
        hr.get (by decide)]
      exact hpart.published
  card card hcard := by
    rw [hr.transportAt (by decide)] at hcard
    rw [hr.isSet (by decide), hr.isSet (by decide)]
    exact hs.card card hcard
  defaults := by
    rw [hr.get (by decide)]
    exact hs.defaults

end Secrets

/-! ### Twice -/

/-- Two identities that are equal: what the first one reaches is what it was, and the second
one holds the same. -/
structure SameIdentity (h : Objects) (a : ℕ) (h' : Objects) (a' : ℕ) : Prop where
  reached : ∀ b < h.next, ∀ k, h'.get b k = h.get b k
  same : ∀ k, h'.get a' k = h.get a k

/-- `_normalize_identity(_normalize_identity(raw)) == _normalize_identity(raw)` -/
def Document.Idempotent (idText : IdText) (doc : Document) : Prop :=
  ∀ data first, normalizeObjects idText doc.root doc.objects = .ok (data, first) →
    ∃ data' second, normalizeObjects idText data first = .ok (data', second) ∧
      SameIdentity first data second data'

/-- The second pass of `_load_yaml_file` fills in empty credentials, and nothing else. -/
def Document.SecondPass (idText : IdText) (environ : String → Option String) (doc : Document) :
    Prop :=
  ∀ data first resolved, normalizeObjects idText doc.root doc.objects = .ok (data, first) →
    resolveObjects environ data first = .ok resolved →
    ∃ data' second, normalizeObjects idText data resolved = .ok (data', second) ∧
      (∀ b < resolved.next, ∀ k, second.get b k = resolved.get b k) ∧
      ∀ k, second.get data' k ≠ resolved.get data k →
        (k = "auth_token" ∨ k = "webhook_secret") ∧ isSet resolved data k = false

/-- The document has no alias that matters. -/
def Document.Apart (doc : Document) : Prop := HermesA2A.Apart doc.objects doc.root

/-- A credential is one of a transport. -/
theorem exists_kind {k : String} (hk : k ∈ CREDENTIAL_KEYS) :
    ∃ kind ∈ KINDS, kind.credentialKey = k := by
  unfold CREDENTIAL_KEYS at hk
  simp only [List.mem_cons, List.not_mem_nil, or_false] at hk
  rcases hk with rfl | rfl
  · exact ⟨a2aRpc, by simp [KINDS], rfl⟩
  · exact ⟨hermesWebhook, by simp [KINDS], rfl⟩

section Twice

variable {idText : IdText} {raw : ℕ} {h : Objects}

/-- A pass over what a pass has left. -/
theorem Pass.same_again (r : Pass idText raw h) (hclosed : h.Closed) (hapart : Apart h raw)
    {g : Objects} {m : ℕ} (hg : Mirrors r.result h.next m g) :
    SameIdentity r.result h.next g r.result.next where
  reached := hg.old
  same k := by
    by_cases hk : k ∈ CREDENTIAL_KEYS
    · obtain ⟨kind, hkind, rfl⟩ := exists_kind hk
      rcases hg.credential kind hkind with hsame | ⟨hempty, part, auth, hat, hurl, hauth, hread⟩
      · exact hsame
      · -- it was empty, and what is read off the transport is what it was
        have hcurrent := (r.settled_present hclosed hapart hkind hat).2 hurl hempty auth hauth
        rw [hread, hcurrent]
    · exact hg.root k hk

end Twice

/-- **Normalising an identity is idempotent**, where no alias matters, and the second pass
that is made when an identity is loaded changes no more than the empty credentials. -/
theorem normalize_idempotent (idText : IdText) (environ : String → Option String) (doc : Document)
    (hapart : doc.Apart) : doc.Idempotent idText ∧ doc.SecondPass idText environ := by
  constructor
  · intro data first hfirst
    obtain ⟨rfl, r, rfl⟩ := exists_pass hfirst
    obtain ⟨second, hsecond, hmirrors⟩ := normalize_settled (r.result_closed doc.closed hapart)
      (r.settled doc.closed hapart) idText
    exact ⟨_, second, hsecond, r.same_again doc.closed hapart hmirrors⟩
  · intro data first resolved hfirst hresolve
    obtain ⟨rfl, r, rfl⟩ := exists_pass hfirst
    have hr := resolveObjects_resolved hresolve
    obtain ⟨second, hsecond, hmirrors⟩ := normalize_settled
      (hr.closed (r.result_closed doc.closed hapart)) (hr.settled (r.settled doc.closed hapart))
      idText
    refine ⟨_, second, hsecond, hmirrors.old, fun k hne => ?_⟩
    have hk : k ∈ CREDENTIAL_KEYS := by
      by_contra hk
      exact hne (hmirrors.root k hk)
    obtain ⟨kind, hkind, rfl⟩ := exists_kind hk
    have hempty := ((hmirrors.credential kind hkind).resolve_left hne).1
    refine ⟨?_, hempty⟩
    unfold CREDENTIAL_KEYS at hk
    simp only [List.mem_cons, List.not_mem_nil, or_false] at hk
    exact hk

/-! ### Two documents -/

section Documents

/-- The dictionaries of a list, each at its index. -/
def objectsOf (cells : List (OrderedDict String Node)) : Objects :=
  ⟨fun a => cells.getD a .empty, cells.length⟩

/-- No dictionary of the list refers beyond it. -/
def refersWithin (cells : List (OrderedDict String Node)) : Bool :=
  cells.all fun d => d.entries.all fun e => e.2.address?.all (· < cells.length)

theorem closed_objectsOf {cells : List (OrderedDict String Node)} (hcells : refersWithin cells = true) :
    (objectsOf cells).Closed where
  refs := by
    intro a k b hget
    have hmem : (k, Value.dict b) ∈ (cells.getD a .empty).entries :=
      OrderedDict.get?_eq_some_iff.mp hget
    by_cases ha : a < cells.length
    · rw [List.getD_eq_getElem cells _ ha] at hmem
      have hrefs := List.all_eq_true.mp (List.all_eq_true.mp hcells _ (List.getElem_mem ha)) _ hmem
      exact of_decide_eq_true hrefs
    · rw [List.getD_eq_default _ _ (Nat.not_lt.mp ha)] at hmem
      cases hmem
  unused {a} ha k := by
    change (cells.getD a .empty).get? k = none
    rw [List.getD_eq_default _ _ ha]
    rfl

/-- One dictionary is both transports.
```yaml
webhook_url: http://h/w
transports: {a2a_rpc: &both {}, hermes_webhook: *both}
```
-/
def aliasedTransports : Document where
  objects := objectsOf
    [ dictOf [("webhook_url", textNode "http://h/w"), ("transports", .dict 1)],
      dictOf [("a2a_rpc", .dict 2), ("hermes_webhook", .dict 2)], .empty ]
  root := 0
  closed := closed_objectsOf (by decide +kernel)
  root_lt := by decide

/-- Two transports with one auth section.
```yaml
name: Analyst
auth_token: secret
transports:
  a2a_rpc: {url: http://h/rpc, auth: &auth {type: bearer, token_env: TOKEN}}
  agent_card: {url: http://h/card, auth: *auth}
```
-/
def aliasedAuth : Document where
  objects := objectsOf
    [ dictOf [("name", textNode "Analyst"), ("auth_token", textNode "secret"),
        ("transports", .dict 1)],
      dictOf [("a2a_rpc", .dict 2), ("agent_card", .dict 3)],
      dictOf [("url", textNode "http://h/rpc"), ("auth", .dict 4)],
      dictOf [("url", textNode "http://h/card"), ("auth", .dict 4)],
      dictOf [("type", textNode "bearer"), ("token_env", textNode "TOKEN")] ]
  root := 0
  closed := closed_objectsOf (by decide +kernel)
  root_lt := by decide

/-- `str(name).lower()` for a name that is a text. -/
def textLower : IdText := fun _ v =>
  match v with
  | .leaf ⟨.str s, _⟩ => s.toLower
  | _ => ""

/-- One dictionary as `a2a_rpc` and `hermes_webhook`: the URL that the second one got is the
first one's in the next pass only. -/
theorem aliasedTransports_not_idempotent : ¬ aliasedTransports.Idempotent textLower := by
  intro hidem
  have hrun : (match normalizeObjects textLower aliasedTransports.root aliasedTransports.objects with
      | .ok (data, first) =>
          (first.get data "a2a_url").isNone && match normalizeObjects textLower data first with
            | .ok (data', second) => (second.get data' "a2a_url").isSome
            | .error _ => false
      | .error _ => false) = true := by decide +kernel
  split at hrun
  · rename_i data first hfirst
    obtain ⟨data', second, hsecond, hsame⟩ := hidem data first hfirst
    rw [hsecond] at hrun
    dsimp only at hrun
    rw [hsame.same, Bool.and_eq_true, Option.isNone_iff_eq_none] at hrun
    rw [hrun.1] at hrun
    exact absurd hrun.2 (by decide)
  · cases hrun

theorem aliasedAuth_idempotent : aliasedAuth.Apart ∧ aliasedAuth.Idempotent textLower ∧
    aliasedAuth.SecondPass textLower fun name => if name = "TOKEN" then some "t" else none := by
  have hapart : aliasedAuth.Apart := by
    refine ⟨fun part _ hwebhook => ?_, fun v hv a ha => ?_⟩
    · have hnone : transportAt aliasedAuth.objects aliasedAuth.root hermesWebhook.name = none := by
        decide +kernel
      rw [hnone] at hwebhook
      cases hwebhook
    · -- none of them is a dictionary
      have htexts : (testedFields aliasedAuth.objects aliasedAuth.root).all
          (fun v => (v.bind Value.address?).isNone) = true := by decide +kernel
      have hleaf := List.all_eq_true.mp htexts v hv
      rw [ha] at hleaf
      cases hleaf
  exact ⟨hapart, normalize_idempotent textLower _ aliasedAuth hapart⟩

end Documents

end HermesA2A
