import HermesA2A.IdentitySteps
import Mathlib.Data.List.ReduceOption

/-!
# What a pass leaves

A pass fills in six dictionaries of a document, and decides by the truth of seven fields.
With aliases, one of these fields can itself be a dictionary that is filled in, and a rule
that did not apply does apply the next time.  Where this does not happen, what was false
when it was tested is false at the end, and the identity is settled.

* `Apart` — the aliases that matter are absent.
* `Pass` — the heaps in the course of a pass, each the result of one step.
* `Pass.settled` — the identity at the end has nothing that a later pass would fill in.
* `Pass.settled_present` — an empty credential is the one of its transport.
-/

namespace HermesA2A

open DictHeap

/-! ### Documents -/

/-- The dictionaries that a pass fills in. -/
def filledAddresses (h : Objects) (raw : ℕ) : List ℕ :=
  [ h.dictAt raw "platforms", (h.dictAt raw "platforms").bind fun a => h.dictAt a "telegram",
    h.dictAt raw "transports", transportAt h raw a2aRpc.name,
    transportAt h raw hermesWebhook.name, transportAt h raw "agent_card" ].reduceOption

/-- The fields whose truth decides what is filled in. -/
def testedFields (h : Objects) (raw : ℕ) : List (Option Node) :=
  [ h.get raw "name", h.get raw "telegram_bot_token", h.get raw "telegram_chat_id",
    h.get raw "a2a_url", h.get raw "webhook_url",
    (transportAt h raw a2aRpc.name).bind fun a => h.get a "url",
    (transportAt h raw hermesWebhook.name).bind fun a => h.get a "url" ]

/-- **No alias that matters**: the two transports with a legacy form are not the same
dictionary, and no field that is tested is a dictionary that is filled in. -/
structure Apart (h : Objects) (raw : ℕ) : Prop where
  kinds : ∀ part, transportAt h raw a2aRpc.name = some part →
    transportAt h raw hermesWebhook.name ≠ some part
  fields : ∀ v ∈ testedFields h raw, ∀ a, v = some (.dict a) → a ∉ filledAddresses h raw

/-! ### The course of a pass -/

/-- The heaps in the course of a pass, and the dictionaries that it works on. -/
structure Pass (idText : IdText) (raw : ℕ) (h : Objects) where
  named : Objects
  platforms : ℕ
  telegram : ℕ
  reached : Objects
  transports : ℕ
  rpc : ℕ
  webhook : ℕ
  card : ℕ
  rpcDone : Objects
  webhookDone : Objects
  carded : Objects
  named_eq : named = fillId idText h.next (copyOf raw h)
  platforms_eq : platforms = dictOrNew named h.next "platforms" (h.next + 1)
  telegram_eq : telegram = dictOrNew named platforms "telegram" (h.next + 2)
  reached_eq : reached = fillTelegram h.next platforms telegram named
  transports_eq : transports = dictOrNew reached h.next "transports" (h.next + 9)
  rpc_eq : rpc = dictOrNew reached transports a2aRpc.name (h.next + 3)
  webhook_eq : webhook = dictOrNew reached transports hermesWebhook.name (h.next + 5)
  card_eq : card = dictOrNew reached transports "agent_card" (h.next + 7)
  rpc_ok : a2aRpc.publishObject h.next transports rpc
    (a2aRpc.fillObject h.next rpc (h.next + 4) reached) = .ok rpcDone
  webhook_ok : hermesWebhook.publishObject h.next transports webhook
    (hermesWebhook.fillObject h.next webhook (h.next + 6) rpcDone) = .ok webhookDone
  carded_eq : carded = fillCard rpc transports card (h.next + 8) webhookDone

section Course

variable {idText : IdText} {raw data : ℕ} {h h' : Objects}

/-- The heap at the end. -/
def Pass.result (r : Pass idText raw h) : Objects :=
  fillRest h.next r.transports (h.next + 10) r.carded

theorem exists_pass (hok : normalizeObjects idText raw h = .ok (data, h')) :
    data = h.next ∧ ∃ r : Pass idText raw h, h' = r.result := by
  obtain ⟨rpcDone, hrpc, hok⟩ := exists_of_bind_ok hok
  obtain ⟨webhookDone, hwebhook, hok⟩ := exists_of_bind_ok hok
  obtain ⟨rfl, rfl⟩ := Prod.mk.inj (Except.ok.inj hok)
  exact ⟨rfl, ⟨_, _, _, _, _, _, _, _, rpcDone, webhookDone, _, rfl, rfl, rfl, rfl, rfl, rfl, rfl, rfl,
    hrpc, hwebhook, rfl⟩, rfl⟩

/-- The addresses that a pass makes use of before its last step. -/
def InUse (h : Objects) (b : ℕ) : Prop := b ≠ h.next ∧ b < h.next + 10

theorem dictOrNew_below {g : Objects} {a fresh : ℕ} {k l : String} (hclosed : h.Closed)
    (hroot : dictOrNew g h.next k fresh = (h.dictAt raw k).getD fresh)
    (hold : ∀ b < h.next, g.get b l = h.get b l) (hfree : g.get fresh l = none) :
    dictOrNew g (dictOrNew g h.next k fresh) l a =
      ((h.dictAt raw k).bind fun b => h.dictAt b l).getD a := by
  rw [hroot]
  unfold dictOrNew
  cases hk : h.dictAt raw k with
  | none =>
      unfold Heap.dictAt
      rw [Option.getD_none, hfree]
      rfl
  | some b =>
      rw [Option.getD_some, Heap.dictAt_congr (hold b (hclosed.refs.dictAt hk))]
      rfl

theorem getD_bounds {x : Option ℕ} {m : ℕ} (hx : ∀ a, x = some a → a < h.next) :
    x.getD (h.next + m) < h.next ∨ x.getD (h.next + m) = h.next + m := by
  cases x with
  | none => exact Or.inr rfl
  | some a => exact Or.inl (hx a rfl)

/-- A dictionary that a pass may write to: one that it fills in, or a new one. -/
def Touched (h : Objects) (raw a : ℕ) : Prop :=
  a ∈ filledAddresses h raw ∨ h.next ≤ a ∧ a < h.next + 11

theorem touched_getD {x : Option ℕ} {m : ℕ}
    (hx : x ∈ [ h.dictAt raw "platforms",
      (h.dictAt raw "platforms").bind fun a => h.dictAt a "telegram", h.dictAt raw "transports",
      transportAt h raw a2aRpc.name, transportAt h raw hermesWebhook.name,
      transportAt h raw "agent_card" ]) (hm : m < 11) : Touched h raw (x.getD (h.next + m)) := by
  cases x with
  | none => exact Or.inr ⟨by rw [Option.getD_none]; omega, by rw [Option.getD_none]; omega⟩
  | some a => exact Or.inl (List.reduceOption_mem_iff.mpr hx)

theorem filledAddresses_lt (hclosed : h.Closed) {a : ℕ} (ha : a ∈ filledAddresses h raw) :
    a < h.next := by
  have hmem := List.reduceOption_mem_iff.mp ha
  simp only [List.mem_cons, List.not_mem_nil, or_false] at hmem
  have hbelow : ∀ {k l}, some a = (h.dictAt raw k).bind (fun b => h.dictAt b l) → a < h.next := by
    intro k l heq
    obtain ⟨b, -, hb⟩ := Option.bind_eq_some_iff.mp heq.symm
    exact hclosed.refs.dictAt hb
  rcases hmem with heq | heq | heq | heq | heq | heq
  · exact hclosed.refs.dictAt heq.symm
  · exact hbelow heq
  · exact hclosed.refs.dictAt heq.symm
  · exact hbelow heq
  · exact hbelow heq
  · exact hbelow heq

/-- A field of the document. -/
theorem testedFields_lt (hclosed : h.Closed) {v : Option Node} (hv : v ∈ testedFields h raw) {a : ℕ}
    (ha : v = some (.dict a)) : a < h.next := by
  unfold testedFields at hv
  simp only [List.mem_cons, List.not_mem_nil, or_false] at hv
  rcases hv with rfl | rfl | rfl | rfl | rfl | rfl | rfl
  · exact hclosed.refs ha
  · exact hclosed.refs ha
  · exact hclosed.refs ha
  · exact hclosed.refs ha
  · exact hclosed.refs ha
  · obtain ⟨b, -, hb⟩ := Option.bind_eq_some_iff.mp ha
    exact hclosed.refs hb
  · obtain ⟨b, -, hb⟩ := Option.bind_eq_some_iff.mp ha
    exact hclosed.refs hb

/-- **A tested field that is false stays false.** -/
theorem truthy_tested {g g' : Objects} (hclosed : h.Closed) (hapart : Apart h raw)
    (he : Heap.Edits (fun _ => True) (fun a _ => Touched h raw a) g g') {v : Option Node}
    (hv : v ∈ testedFields h raw) : g'.truthy Leaf.truthy v = g.truthy Leaf.truthy v := by
  refine he.truthy_eq fun a ha _ htouched => ?_
  rcases htouched with hfilled | ⟨hnew, -⟩
  · exact hapart.fields v hv a ha hfilled
  · exact absurd (testedFields_lt hclosed hv ha) (by omega)

namespace Pass

variable (r : Pass idText raw h) (hclosed : h.Closed)

theorem edits_named {p : ℕ → Prop} :
    Heap.Edits p (fun a k => a = h.next ∧ k = "id") (copyOf raw h) r.named := by
  rw [r.named_eq]
  exact edits_fillId idText ⟨rfl, rfl⟩

/-- The copy, but for the `id`. -/
theorem get_named (a : ℕ) {k : String} (hk : k ≠ "id") :
    r.named.get a k = if a = h.next then h.get raw k else h.get a k := by
  rw [r.edits_named (p := fun _ => True).kept fun heq => hk heq.2, get_copyOf]

theorem platforms_eq_getD : r.platforms = (h.dictAt raw "platforms").getD (h.next + 1) := by
  have hget : r.named.get h.next "platforms" = h.get raw "platforms" := by
    rw [r.get_named _ (by decide), if_pos rfl]
  rw [r.platforms_eq]
  unfold dictOrNew
  rw [Heap.dictAt_congr hget]

include hclosed

theorem telegram_eq_getD : r.telegram =
    ((h.dictAt raw "platforms").bind fun a => h.dictAt a "telegram").getD (h.next + 2) := by
  rw [r.telegram_eq, r.platforms_eq]
  refine dictOrNew_below hclosed ?_ (fun b hb => ?_) ?_
  · rw [← r.platforms_eq, r.platforms_eq_getD]
  · rw [r.get_named _ (by decide), if_neg (by omega)]
  · rw [r.get_named _ (by decide), if_neg (by omega)]
    exact hclosed.unused (by omega) _

theorem platforms_bounds : r.platforms < h.next ∨ r.platforms = h.next + 1 := by
  rw [r.platforms_eq_getD]
  exact getD_bounds fun a ha => hclosed.refs.dictAt ha

theorem telegram_bounds : r.telegram < h.next ∨ r.telegram = h.next + 2 := by
  rw [r.telegram_eq_getD hclosed]
  refine getD_bounds fun a ha => ?_
  obtain ⟨b, -, hb⟩ := Option.bind_eq_some_iff.mp ha
  exact hclosed.refs.dictAt hb

theorem edits_reached : Heap.Edits (InUse h) (TelegramPlaces h.next r.platforms r.telegram)
    r.named r.reached := by
  have hplatforms := r.platforms_bounds hclosed
  have htelegram := r.telegram_bounds hclosed
  rw [r.reached_eq]
  exact edits_fillTelegram ⟨by omega, by omega⟩ ⟨by omega, by omega⟩

/-- The names under which nothing is written before the transports. -/
theorem get_reached (a : ℕ) {k : String}
    (hk : k ∉ ["id", "bot_token", "default_chat_id", "telegram", "platforms"]) :
    r.reached.get a k = if a = h.next then h.get raw k else h.get a k := by
  simp only [List.mem_cons, List.not_mem_nil, or_false, not_or] at hk
  obtain ⟨hid, hbot, hchat, htelegram, hplatforms⟩ := hk
  rw [(r.edits_reached hclosed).kept, r.get_named a hid]
  rintro (⟨-, h | h⟩ | ⟨-, h⟩ | ⟨-, h⟩)
  · exact hbot h
  · exact hchat h
  · exact htelegram h
  · exact hplatforms h

theorem transports_eq_getD :
    r.transports = (h.dictAt raw "transports").getD (h.next + 9) := by
  have hget : r.reached.get h.next "transports" = h.get raw "transports" := by
    rw [r.get_reached hclosed _ (by decide), if_pos rfl]
  rw [r.transports_eq]
  unfold dictOrNew
  rw [Heap.dictAt_congr hget]

/-- A transport, or a new one. -/
theorem below_eq_getD {name : String}
    (hname : name ∉ ["id", "bot_token", "default_chat_id", "telegram", "platforms"]) (fresh : ℕ) :
    dictOrNew r.reached r.transports name fresh = (transportAt h raw name).getD fresh := by
  rw [r.transports_eq]
  refine dictOrNew_below hclosed ?_ (fun b hb => ?_) ?_
  · rw [← r.transports_eq, r.transports_eq_getD hclosed]
  · rw [r.get_reached hclosed _ hname, if_neg (by omega)]
  · rw [r.get_reached hclosed _ hname, if_neg (by omega)]
    exact hclosed.unused (by omega) _

theorem rpc_eq_getD : r.rpc = (transportAt h raw a2aRpc.name).getD (h.next + 3) := by
  rw [r.rpc_eq, r.below_eq_getD hclosed (by decide)]

theorem webhook_eq_getD :
    r.webhook = (transportAt h raw hermesWebhook.name).getD (h.next + 5) := by
  rw [r.webhook_eq, r.below_eq_getD hclosed (by decide)]

theorem card_eq_getD : r.card = (transportAt h raw "agent_card").getD (h.next + 7) := by
  rw [r.card_eq, r.below_eq_getD hclosed (by decide)]

theorem transports_bounds : r.transports < h.next ∨ r.transports = h.next + 9 := by
  rw [r.transports_eq_getD hclosed]
  exact getD_bounds fun a ha => hclosed.refs.dictAt ha

omit r in
theorem transportAt_lt {name : String} {a : ℕ} (ha : transportAt h raw name = some a) :
    a < h.next := by
  obtain ⟨b, -, hb⟩ := Option.bind_eq_some_iff.mp ha
  exact hclosed.refs.dictAt hb

theorem rpc_bounds : r.rpc < h.next ∨ r.rpc = h.next + 3 := by
  rw [r.rpc_eq_getD hclosed]
  exact getD_bounds fun a ha => transportAt_lt hclosed ha

theorem webhook_bounds : r.webhook < h.next ∨ r.webhook = h.next + 5 := by
  rw [r.webhook_eq_getD hclosed]
  exact getD_bounds fun a ha => transportAt_lt hclosed ha

theorem card_bounds : r.card < h.next ∨ r.card = h.next + 7 := by
  rw [r.card_eq_getD hclosed]
  exact getD_bounds fun a ha => transportAt_lt hclosed ha

/-- The free addresses before the transports are filled in. -/
theorem free_reached {a : ℕ} (ha : h.next + 3 ≤ a) (k : String) : r.reached.get a k = none := by
  have hplatforms := r.platforms_bounds hclosed
  have htelegram := r.telegram_bounds hclosed
  rw [(r.edits_reached hclosed).kept, r.edits_named (p := fun _ => True).kept, get_copyOf,
    if_neg (by omega)]
  · exact hclosed.unused (by omega) k
  · rintro ⟨h, -⟩
    omega
  · rintro (⟨h, -⟩ | ⟨h, -⟩ | ⟨h, -⟩) <;> omega

/-- **The transport `a2a_rpc`.** -/
theorem rpc_spec :
    Heap.Edits (InUse h) (KindPlaces a2aRpc h.next r.transports r.rpc (h.next + 4))
        r.reached r.rpcDone ∧
      KindDone a2aRpc h.next r.transports r.rpc r.reached r.rpcDone := by
  have hrpc := r.rpc_bounds hclosed
  exact kind_done List.mem_cons_self (r.free_reached hclosed (by omega)) (by omega)
    ⟨by omega, by omega⟩ ⟨by omega, by omega⟩ r.rpc_ok

theorem free_rpcDone {a : ℕ} (ha : h.next + 5 ≤ a) (hne : a ≠ r.transports) (k : String) :
    r.rpcDone.get a k = none := by
  have hrpc := r.rpc_bounds hclosed
  rw [(r.rpc_spec hclosed).1.kept, r.free_reached hclosed (by omega)]
  rintro ((⟨h, -⟩ | ⟨h, -⟩) | ⟨h, -⟩ | ⟨h, -⟩) <;> omega

/-- **The transport `hermes_webhook`.** -/
theorem webhook_spec :
    Heap.Edits (InUse h) (KindPlaces hermesWebhook h.next r.transports r.webhook (h.next + 6))
        r.rpcDone r.webhookDone ∧
      KindDone hermesWebhook h.next r.transports r.webhook r.rpcDone r.webhookDone := by
  have hwebhook := r.webhook_bounds hclosed
  have htransports := r.transports_bounds hclosed
  exact kind_done (List.mem_cons_of_mem _ List.mem_cons_self)
    (r.free_rpcDone hclosed (by omega) (by omega)) (by omega) ⟨by omega, by omega⟩
    ⟨by omega, by omega⟩ r.webhook_ok

theorem rpc_ne_webhook (hapart : Apart h raw) : r.rpc ≠ r.webhook := by
  have hrpc := r.rpc_eq_getD hclosed
  have hwebhook := r.webhook_eq_getD hclosed
  intro heq
  rw [hrpc, hwebhook] at heq
  cases ha : transportAt h raw a2aRpc.name with
  | none =>
      cases hb : transportAt h raw hermesWebhook.name with
      | none =>
          rw [ha, hb, Option.getD_none, Option.getD_none] at heq
          omega
      | some b =>
          have hlt := transportAt_lt hclosed hb
          rw [ha, hb, Option.getD_none, Option.getD_some] at heq
          omega
  | some a =>
      have hlt := transportAt_lt hclosed ha
      cases hb : transportAt h raw hermesWebhook.name with
      | none =>
          rw [ha, hb, Option.getD_some, Option.getD_none] at heq
          omega
      | some b =>
          rw [ha, hb, Option.getD_some, Option.getD_some] at heq
          exact hapart.kinds a ha (heq ▸ hb)

section Later

variable (hapart : Apart h raw)
include hapart

theorem isSet_auth_rpc : isSet r.webhookDone r.rpc "auth" = true := by
  have hrpc := r.rpc_bounds hclosed
  have hne := r.rpc_ne_webhook hclosed hapart
  refine isSet_of_edits (r.webhook_spec hclosed).1 ?_ (r.rpc_spec hclosed).2.auth
  rintro ((⟨h, -⟩ | ⟨h, -⟩) | ⟨-, h⟩ | ⟨-, h | h⟩)
  · exact hne h
  · omega
  · exact absurd h (by decide)
  · exact absurd h (by decide)
  · exact absurd h (by decide)

/-- **The agent card.** -/
theorem card_spec :
    Heap.Edits (InUse h) (CardPlaces r.webhookDone r.transports r.card) r.webhookDone r.carded ∧
      ((isSet r.webhookDone r.card "url" = false ∧ r.carded = r.webhookDone) ∨
        isSet r.carded r.card "auth" = true ∧
          r.carded.get r.transports "agent_card" = some (.dict r.card)) := by
  have hcard := r.card_bounds hclosed
  rw [r.carded_eq]
  exact fillCard_spec (r.isSet_auth_rpc hclosed hapart) ⟨by omega, by omega⟩

theorem free_carded {a : ℕ} (ha : h.next + 10 ≤ a) (k : String) : r.carded.get a k = none := by
  have hcard := r.card_bounds hclosed
  have hwebhook := r.webhook_bounds hclosed
  have htransports := r.transports_bounds hclosed
  rw [(r.card_spec hclosed hapart).1.kept, (r.webhook_spec hclosed).1.kept,
    r.free_rpcDone hclosed (by omega) (by omega)]
  · rintro ((⟨h, -⟩ | ⟨h, -⟩) | ⟨h, -⟩ | ⟨h, -⟩) <;> omega
  · rintro (⟨h, -⟩ | ⟨h, -⟩) <;> omega

/-- **The transports and the defaults.** -/
theorem rest_spec :
    Heap.Edits (· < h.next + 11) (RestPlaces h.next (h.next + 10)) r.carded r.result ∧
      r.result.get h.next "defaults" ≠ none ∧
      r.result.get h.next "transports" =
        if r.carded.isEmpty r.transports then r.carded.get h.next "transports"
        else some (.dict r.transports) := by
  have htransports := r.transports_bounds hclosed
  exact fillRest_spec (r.free_carded hclosed hapart le_rfl) (by omega) (by omega) (by omega)

/-! #### What was tested stays false -/

omit hclosed hapart in
theorem touched_platforms : Touched h raw r.platforms := by
  rw [r.platforms_eq_getD]
  exact touched_getD List.mem_cons_self (by omega)

omit hapart in
theorem touched_telegram : Touched h raw r.telegram := by
  rw [r.telegram_eq_getD hclosed]
  exact touched_getD (List.mem_cons_of_mem _ List.mem_cons_self) (by omega)

omit hapart in
theorem touched_transports : Touched h raw r.transports := by
  rw [r.transports_eq_getD hclosed]
  exact touched_getD (by simp) (by omega)

omit hapart in
theorem touched_rpc : Touched h raw r.rpc := by
  rw [r.rpc_eq_getD hclosed]
  exact touched_getD (by simp) (by omega)

omit hapart in
theorem touched_webhook : Touched h raw r.webhook := by
  rw [r.webhook_eq_getD hclosed]
  exact touched_getD (by simp) (by omega)

omit hapart in
theorem touched_card : Touched h raw r.card := by
  rw [r.card_eq_getD hclosed]
  exact touched_getD (by simp) (by omega)

/-- What is written after `a2a_rpc`, `hermes_webhook`, … -/
theorem edits_after_webhook : Heap.Edits (fun _ => True) (fun a k =>
    CardPlaces r.webhookDone r.transports r.card a k ∨ RestPlaces h.next (h.next + 10) a k)
      r.webhookDone r.result :=
  ((r.card_spec hclosed hapart).1.places.mono fun _ _ => Or.inl).trans
    ((r.rest_spec hclosed hapart).1.places.mono fun _ _ => Or.inr)

theorem edits_after_rpc : Heap.Edits (fun _ => True) (fun a k =>
    KindPlaces hermesWebhook h.next r.transports r.webhook (h.next + 6) a k ∨
      CardPlaces r.webhookDone r.transports r.card a k ∨ RestPlaces h.next (h.next + 10) a k)
      r.rpcDone r.result :=
  ((r.webhook_spec hclosed).1.places.mono fun _ _ => Or.inl).trans
    ((r.edits_after_webhook hclosed hapart).mono fun _ _ => Or.inr)

theorem touches_after_webhook :
    Heap.Edits (fun _ => True) (fun a _ => Touched h raw a) r.webhookDone r.result := by
  refine (r.edits_after_webhook hclosed hapart).mono ?_
  rintro a k ((⟨rfl, -⟩ | ⟨rfl, -⟩) | ⟨rfl, -⟩ | ⟨rfl, -⟩)
  · exact r.touched_card hclosed
  · exact r.touched_transports hclosed
  · exact Or.inr ⟨le_rfl, by omega⟩
  · exact Or.inr ⟨by omega, by omega⟩

theorem touches_after_rpc :
    Heap.Edits (fun _ => True) (fun a _ => Touched h raw a) r.rpcDone r.result := by
  refine ((r.webhook_spec hclosed).1.places.mono ?_).trans (r.touches_after_webhook hclosed hapart)
  rintro a k ((⟨rfl, -⟩ | ⟨rfl, -⟩) | ⟨rfl, -⟩ | ⟨rfl, -⟩)
  · exact r.touched_webhook hclosed
  · exact Or.inr ⟨by omega, by omega⟩
  · exact r.touched_transports hclosed
  · exact Or.inr ⟨le_rfl, by omega⟩

theorem touches_after_reached :
    Heap.Edits (fun _ => True) (fun a _ => Touched h raw a) r.reached r.result := by
  refine ((r.rpc_spec hclosed).1.places.mono ?_).trans (r.touches_after_rpc hclosed hapart)
  rintro a k ((⟨rfl, -⟩ | ⟨rfl, -⟩) | ⟨rfl, -⟩ | ⟨rfl, -⟩)
  · exact r.touched_rpc hclosed
  · exact Or.inr ⟨by omega, by omega⟩
  · exact r.touched_transports hclosed
  · exact Or.inr ⟨le_rfl, by omega⟩

theorem touches_after_named :
    Heap.Edits (fun _ => True) (fun a _ => Touched h raw a) r.named r.result := by
  refine ((r.edits_reached hclosed).places.mono ?_).trans (r.touches_after_reached hclosed hapart)
  rintro a k (⟨rfl, -⟩ | ⟨rfl, -⟩ | ⟨rfl, -⟩)
  · exact r.touched_telegram hclosed
  · exact r.touched_platforms
  · exact Or.inr ⟨le_rfl, by omega⟩

theorem touches : Heap.Edits (fun _ => True) (fun a _ => Touched h raw a) (copyOf raw h) r.result := by
  refine (r.edits_named.mono ?_).trans (r.touches_after_named hclosed hapart)
  rintro a k ⟨rfl, -⟩
  exact Or.inr ⟨le_rfl, by omega⟩

/-! #### What is left -/

/-- A key under which nothing is written after `hermes_webhook`. -/
theorem kept_after_webhook (a : ℕ) {k : String}
    (hk : k ∉ ["auth", "agent_card", "transports", "defaults", "platform", "chat_type"]) :
    r.result.get a k = r.webhookDone.get a k := by
  simp only [List.mem_cons, List.not_mem_nil, or_false, not_or] at hk
  obtain ⟨hauth, hcard, htransports, hdefaults, hplatform, hchat⟩ := hk
  refine (r.edits_after_webhook hclosed hapart).kept ?_
  rintro ((⟨-, h, -⟩ | ⟨-, h⟩) | ⟨-, h | h⟩ | ⟨-, h | h⟩)
  · exact hauth h
  · exact hcard h
  · exact htransports h
  · exact hdefaults h
  · exact hplatform h
  · exact hchat h

/-- The URL of a transport is that of the document, or a new one's. -/
theorem webhook_url_tested {v : Option Node} (hv : r.rpcDone.get r.webhook "url" = v) :
    v ∈ testedFields h raw ∨ v = none := by
  have hwebhook := r.webhook_bounds hclosed
  have hne := r.rpc_ne_webhook hclosed hapart
  have hget : r.rpcDone.get r.webhook "url" = r.reached.get r.webhook "url" := by
    refine (r.rpc_spec hclosed).1.kept ?_
    rintro ((⟨h, -⟩ | ⟨h, -⟩) | ⟨-, h⟩ | ⟨-, h | h⟩)
    · exact hne h.symm
    · omega
    · exact absurd h (by decide)
    · exact absurd h (by decide)
    · exact absurd h (by decide)
  rw [hget, r.get_reached hclosed _ (by decide), if_neg (by omega)] at hv
  subst hv
  rw [r.webhook_eq_getD hclosed]
  cases hat : transportAt h raw hermesWebhook.name with
  | none => exact Or.inr (hclosed.unused (by rw [Option.getD_none]; omega) _)
  | some part =>
      refine Or.inl ?_
      unfold testedFields
      rw [hat, Option.getD_some, Option.bind_some]
      simp

omit hapart in
theorem rpc_url_tested {v : Option Node} (hv : r.reached.get r.rpc "url" = v) :
    v ∈ testedFields h raw ∨ v = none := by
  have hrpc := r.rpc_bounds hclosed
  rw [r.get_reached hclosed _ (by decide), if_neg (by omega)] at hv
  subst hv
  rw [r.rpc_eq_getD hclosed]
  cases hat : transportAt h raw a2aRpc.name with
  | none => exact Or.inr (hclosed.unused (by rw [Option.getD_none]; omega) _)
  | some part =>
      refine Or.inl ?_
      unfold testedFields
      rw [hat, Option.getD_some, Option.bind_some]
      simp

/-- A member that is kept, and was tested, is as false as it was. -/
theorem isSet_false {g : Objects} (he : Heap.Edits (fun _ => True) (fun a _ => Touched h raw a) g
    r.result) {a : ℕ} {k : String} (hkept : r.result.get a k = g.get a k)
    (htested : g.get a k ∈ testedFields h raw ∨ g.get a k = none) (hfalse : isSet g a k = false) :
    isSet r.result a k = false := by
  unfold isSet at hfalse ⊢
  rw [hkept]
  rcases htested with htested | hnone
  · rw [truthy_tested hclosed hapart he htested]
    exact hfalse
  · rw [hnone]
    rfl

theorem webhook_left :
    KindLeft hermesWebhook h.next r.transports r.webhook r.rpcDone r.result := by
  have hwebhook := r.webhook_bounds hclosed
  have hset := (r.webhook_spec hclosed).2.auth
  refine (r.webhook_spec hclosed).2.left (r.edits_after_webhook hclosed hapart) ?_ ?_ ?_ ?_ ?_ ?_
  · intro k hk
    simp only [List.mem_cons, List.not_mem_nil, or_false] at hk
    rintro ((⟨h, -, hfalse⟩ | ⟨-, h⟩) | ⟨h, -⟩ | ⟨h, -⟩)
    · rw [h, hfalse] at hset
      cases hset
    · rcases hk with rfl | rfl | rfl <;> exact absurd h (by decide)
    · omega
    · omega
  · rintro ((⟨-, h, -⟩ | ⟨-, h⟩) | ⟨-, h | h⟩ | ⟨-, h | h⟩) <;> exact absurd h (by decide)
  · intro k hk
    simp only [List.mem_cons, List.not_mem_nil, or_false] at hk
    rcases hk with rfl | rfl
    · rintro ((⟨-, h, -⟩ | ⟨-, h⟩) | ⟨-, h | h⟩ | ⟨-, h | h⟩) <;> exact absurd h (by decide)
    · rintro ((⟨-, h, -⟩ | ⟨-, h⟩) | ⟨-, h | h⟩ | ⟨-, h | h⟩) <;> exact absurd h (by decide)
  · rintro a ((⟨-, h, -⟩ | ⟨-, h⟩) | ⟨-, h | h⟩ | ⟨-, h | h⟩) <;> exact absurd h (by decide)
  · intro hfalse hkept
    have hget : r.rpcDone.get h.next hermesWebhook.urlKey = h.get raw "webhook_url" := by
      have hreached := r.get_reached hclosed h.next (k := "webhook_url") (by decide)
      rw [if_pos rfl] at hreached
      rw [← hreached]
      refine (r.rpc_spec hclosed).1.kept ?_
      rintro ((⟨-, h⟩ | ⟨-, h⟩) | ⟨-, h⟩ | ⟨-, h | h⟩) <;> exact absurd h (by decide)
    refine r.isSet_false hclosed hapart (r.touches_after_rpc hclosed hapart)
      ((r.kept_after_webhook hclosed hapart _ (by decide)).trans hkept) (Or.inl ?_) hfalse
    rw [hget]
    unfold testedFields
    simp
  · intro hfalse hkept
    refine r.isSet_false hclosed hapart (r.touches_after_webhook hclosed hapart)
      (r.kept_after_webhook hclosed hapart _ (by decide)) ?_ hfalse
    exact r.webhook_url_tested hclosed hapart hkept.symm

omit hclosed hapart in
/-- The names under which something is written after `a2a_rpc`. -/
theorem not_after_rpc {a : ℕ} {k : String}
    (hk : k ∉ ["url", "protocol", "auth", "type", "secret", "hermes_webhook", "webhook_url",
      "webhook_secret", "agent_card", "transports", "defaults", "platform", "chat_type"]) :
    ¬ (KindPlaces hermesWebhook h.next r.transports r.webhook (h.next + 6) a k ∨
      CardPlaces r.webhookDone r.transports r.card a k ∨ RestPlaces h.next (h.next + 10) a k) := by
  rintro (((⟨-, rfl | rfl | rfl⟩ | ⟨-, rfl | rfl⟩) | ⟨-, rfl⟩ | ⟨-, rfl | rfl⟩) |
    (⟨-, rfl, -⟩ | ⟨-, rfl⟩) | ⟨-, rfl | rfl⟩ | ⟨-, rfl | rfl⟩) <;> exact hk (by decide)

/-- The transport `a2a_rpc` is another one than `hermes_webhook`, and has an auth section. -/
theorem not_after_rpc_part {k : String} (hk : k ∈ ["url", "protocol", "auth"]) :
    ¬ (KindPlaces hermesWebhook h.next r.transports r.webhook (h.next + 6) r.rpc k ∨
      CardPlaces r.webhookDone r.transports r.card r.rpc k ∨
        RestPlaces h.next (h.next + 10) r.rpc k) := by
  have hrpc := r.rpc_bounds hclosed
  have hne := r.rpc_ne_webhook hclosed hapart
  have hset := r.isSet_auth_rpc hclosed hapart
  simp only [List.mem_cons, List.not_mem_nil, or_false] at hk
  rintro (((⟨h, -⟩ | ⟨h, -⟩) | ⟨-, h⟩ | ⟨h, -⟩) | (⟨h, -, hfalse⟩ | ⟨-, h⟩) | ⟨h, -⟩ | ⟨h, -⟩)
  · exact hne h
  · omega
  · rcases hk with rfl | rfl | rfl <;> exact absurd h (by decide)
  · omega
  · rw [h, hfalse] at hset
    cases hset
  · rcases hk with rfl | rfl | rfl <;> exact absurd h (by decide)
  · omega
  · omega

theorem rpc_left : KindLeft a2aRpc h.next r.transports r.rpc r.reached r.result := by
  have hafter := r.edits_after_rpc hclosed hapart
  refine (r.rpc_spec hclosed).2.left hafter ?_ ?_ ?_ ?_ ?_ ?_
  · exact fun k hk => r.not_after_rpc_part hclosed hapart hk
  · exact r.not_after_rpc (by decide)
  · intro k hk
    simp only [List.mem_cons, List.not_mem_nil, or_false] at hk
    rcases hk with rfl | rfl
    · exact r.not_after_rpc (by decide)
    · exact r.not_after_rpc (by decide)
  · exact fun a => r.not_after_rpc (by decide)
  · intro hfalse hkept
    refine r.isSet_false hclosed hapart (r.touches_after_reached hclosed hapart)
      ((hafter.kept (r.not_after_rpc (by decide))).trans hkept) (Or.inl ?_) hfalse
    have hget := r.get_reached hclosed h.next (k := "a2a_url") (by decide)
    rw [if_pos rfl] at hget
    change r.reached.get h.next "a2a_url" ∈ _
    rw [hget]
    unfold testedFields
    simp
  · intro hfalse hkept
    refine r.isSet_false hclosed hapart (r.touches_after_rpc hclosed hapart)
      (hafter.kept (r.not_after_rpc_part hclosed hapart (by decide))) ?_ hfalse
    exact r.rpc_url_tested hclosed hkept.symm

/-! #### The identity at the end -/

/-- The names under which nothing is written after the Telegram fields. -/
theorem kept_after_reached (a : ℕ) {k : String}
    (hk : k ∉ ["url", "protocol", "auth", "type", "token", "a2a_rpc", "a2a_url", "auth_token",
      "secret", "hermes_webhook", "webhook_url", "webhook_secret", "agent_card", "transports",
      "defaults", "platform", "chat_type"]) : r.result.get a k = r.reached.get a k := by
  have hlater : k ∉ ["url", "protocol", "auth", "type", "secret", "hermes_webhook", "webhook_url",
      "webhook_secret", "agent_card", "transports", "defaults", "platform", "chat_type"] := by
    intro hmem
    refine hk ?_
    simp only [List.mem_cons, List.not_mem_nil, or_false] at hmem ⊢
    tauto
  rw [(r.edits_after_rpc hclosed hapart).kept (r.not_after_rpc hlater)]
  refine (r.rpc_spec hclosed).1.kept ?_
  rintro ((⟨-, rfl | rfl | rfl⟩ | ⟨-, rfl | rfl⟩) | ⟨-, rfl⟩ | ⟨-, rfl | rfl⟩) <;>
    exact hk (by decide)

/-- The transports of the result are those that the pass works on. -/
theorem transportAt_result (name : String) :
    transportAt r.result h.next name = r.result.dictAt r.transports name := by
  have htransports := r.transports_bounds hclosed
  obtain ⟨hrest, -, hget⟩ := r.rest_spec hclosed hapart
  unfold transportAt
  by_cases hempty : r.carded.isEmpty r.transports = true
  · -- there are none
    have hnone : ∀ k, r.result.get r.transports k = none := by
      intro k
      rw [hrest.kept, Heap.isEmpty_iff.mp hempty]
      rintro (⟨h, -⟩ | ⟨h, -⟩) <;> omega
    have hright : r.result.dictAt r.transports name = none := by
      unfold Heap.dictAt
      rw [hnone]
      rfl
    rw [hright, Option.bind_eq_none_iff]
    intro a ha
    have hsame : r.result.dictAt h.next "transports" = h.dictAt raw "transports" := by
      refine Heap.dictAt_congr ?_
      rw [hget, if_pos hempty, (r.card_spec hclosed hapart).1.kept, (r.webhook_spec hclosed).1.kept,
        (r.rpc_spec hclosed).1.kept, r.get_reached hclosed _ (by decide), if_pos rfl]
      · rintro ((⟨-, h⟩ | ⟨-, h⟩) | ⟨-, h⟩ | ⟨-, h | h⟩) <;> exact absurd h (by decide)
      · rintro ((⟨-, h⟩ | ⟨-, h⟩) | ⟨-, h⟩ | ⟨-, h | h⟩) <;> exact absurd h (by decide)
      · rintro (⟨-, h, -⟩ | ⟨-, h⟩) <;> exact absurd h (by decide)
    rw [hsame] at ha
    have heq : r.transports = a := by
      rw [r.transports_eq_getD hclosed, ha]
      rfl
    rw [← heq]
    exact hright
  · rw [if_neg hempty] at hget
    rw [Heap.dictAt_eq_some.mpr hget]
    rfl

theorem refers_carded : r.carded.Refers (InUse h) := by
  have hcopy : (copyOf raw h).Refers (InUse h) := by
    intro a k b hget
    rw [get_copyOf] at hget
    have hlt : b < h.next := by
      split_ifs at hget
      · exact hclosed.refs hget
      · exact hclosed.refs hget
    exact ⟨by omega, by omega⟩
  exact (r.card_spec hclosed hapart).1.refs <| (r.webhook_spec hclosed).1.refs <|
    (r.rpc_spec hclosed).1.refs <| (r.edits_reached hclosed).refs <| r.edits_named.refs hcopy

theorem next_result : r.result.next = h.next + 11 := (r.touches hclosed hapart).next

/-- Every address of the result is allocated. -/
theorem result_closed : r.result.Closed where
  refs := by
    rw [r.next_result hclosed hapart]
    refine (r.rest_spec hclosed hapart).1.refs fun a k b hget => ?_
    have hb := (r.refers_carded hclosed hapart hget).2
    omega
  unused {a} ha k := by
    rw [r.next_result hclosed hapart] at ha
    rw [(r.touches hclosed hapart).kept, get_copyOf, if_neg (by omega)]
    · exact hclosed.unused (by omega) k
    · rintro (hfilled | hnew)
      · have hlt := filledAddresses_lt hclosed hfilled
        omega
      · omega

/-- **The agent card** has an auth section, if it has a URL. -/
theorem result_card {card : ℕ} (hcard : r.result.dictAt r.transports "agent_card" = some card)
    (hurl : isSet r.result card "url" = true) : isSet r.result card "auth" = true := by
  obtain ⟨hrest, -⟩ := r.rest_spec hclosed hapart
  have hkept : ∀ (a : ℕ), ∀ k ∈ ["agent_card", "url", "auth"],
      r.result.get a k = r.carded.get a k := by
    intro a k hk
    refine hrest.kept ?_
    simp only [List.mem_cons, List.not_mem_nil, or_false] at hk
    rintro (⟨-, h | h⟩ | ⟨-, h | h⟩) <;> rcases hk with rfl | rfl | rfl <;>
      exact absurd h (by decide)
  have hget := Heap.dictAt_eq_some.mp hcard
  rw [hkept _ _ (by decide)] at hget
  rcases (r.card_spec hclosed hapart).2 with ⟨hempty, hsame⟩ | ⟨hauth, hlisted⟩
  · -- without a URL nothing was filled in
    exfalso
    have hfound : r.card = card := by
      have hreached : r.reached.get r.transports "agent_card" = some (.dict card) := by
        rw [← hget, hsame, (r.webhook_spec hclosed).1.kept, (r.rpc_spec hclosed).1.kept]
        · rintro ((⟨-, h | h | h⟩ | ⟨-, h | h⟩) | ⟨-, h⟩ | ⟨-, h | h⟩) <;> exact absurd h (by decide)
        · rintro ((⟨-, h | h | h⟩ | ⟨-, h | h⟩) | ⟨-, h⟩ | ⟨-, h | h⟩) <;> exact absurd h (by decide)
      rw [r.card_eq]
      unfold dictOrNew
      rw [Heap.dictAt_eq_some.mpr hreached]
      rfl
    rw [hfound, ← hsame] at hempty
    unfold isSet at hempty hurl
    rw [hkept _ _ (by decide), hrest.truthy_eq, hempty] at hurl
    · cases hurl
    · intro b hb k
      have huse := r.refers_carded hclosed hapart hb
      have hne := huse.1
      have hlt := huse.2
      rintro (⟨h, -⟩ | ⟨h, -⟩) <;> omega
  · obtain rfl := Value.dict.inj (Option.some.inj (hlisted.symm.trans hget))
    exact isSet_iff_of_get (hkept _ _ (by decide)) hauth hrest

/-- What is left of each transport. -/
theorem kind_left {kind : TransportKind} (hkind : kind ∈ KINDS) :
    ∃ part g, KindLeft kind h.next r.transports part g r.result ∧
      ∀ part', g.dictAt r.transports kind.name = some part' → part = part' := by
  unfold KINDS at hkind
  simp only [List.mem_cons, List.not_mem_nil, or_false] at hkind
  rcases hkind with rfl | rfl
  · refine ⟨r.rpc, r.reached, r.rpc_left hclosed hapart, fun part' hpart => ?_⟩
    rw [r.rpc_eq]
    unfold dictOrNew
    rw [hpart]
    rfl
  · refine ⟨r.webhook, r.rpcDone, r.webhook_left hclosed hapart, fun part' hpart => ?_⟩
    have hsame : r.rpcDone.get r.transports hermesWebhook.name =
        r.reached.get r.transports hermesWebhook.name := by
      refine (r.rpc_spec hclosed).1.kept ?_
      rintro ((⟨-, h | h | h⟩ | ⟨-, h | h⟩) | ⟨-, h⟩ | ⟨-, h | h⟩) <;> exact absurd h (by decide)
    rw [Heap.dictAt_congr hsame] at hpart
    rw [r.webhook_eq]
    unfold dictOrNew
    rw [hpart]
    rfl

/-- A transport of the result is one that the pass has done. -/
theorem settled_present {kind : TransportKind} {part : ℕ} (hkind : kind ∈ KINDS)
    (hat : transportAt r.result h.next kind.name = some part) :
    PartSettled r.result h.next kind part ∧ (isSet r.result part "url" = true →
      isSet r.result h.next kind.credentialKey = false →
      ∀ auth, r.result.get part "auth" = some (.dict auth) →
        r.result.get h.next kind.credentialKey =
          some ((r.result.get auth kind.secretKey).getD (textNode ""))) := by
  obtain ⟨part', g, hleft, hfound⟩ := r.kind_left hclosed hapart hkind
  rw [r.transportAt_result hclosed hapart] at hat
  have hsame : part' = part := by
    rcases hleft.listed with hlisted | ⟨-, hlisted⟩
    · exact Value.dict.inj
        (Option.some.inj (hlisted.symm.trans (Heap.dictAt_eq_some.mp hat)))
    · rw [Heap.dictAt_congr hlisted] at hat
      exact hfound part hat
  subst hsame
  exact ⟨hleft.settled, hleft.current⟩

theorem settled_telegram {e : String × String} (he : e ∈ TELEGRAM_FIELDS) :
    isSet r.result h.next e.2 = false ∨
      ∃ platforms telegram, r.result.dictAt h.next "platforms" = some platforms ∧
        r.result.dictAt platforms "telegram" = some telegram ∧
          isSet r.result telegram e.1 = true := by
  have hspec := @fillTelegram_spec r.named h.next r.platforms r.telegram e he
  rw [← r.reached_eq] at hspec
  have hkeys : e.1 ∈ ["bot_token", "default_chat_id"] ∧
      e.2 ∈ ["telegram_bot_token", "telegram_chat_id"] := by
    unfold TELEGRAM_FIELDS at he
    simp only [List.mem_cons, List.not_mem_nil, or_false] at he
    rcases he with rfl | rfl <;> exact ⟨by decide, by decide⟩
  obtain ⟨htarget, hsource⟩ := hkeys
  simp only [List.mem_cons, List.not_mem_nil, or_false] at htarget hsource
  rcases hspec with hfalse | ⟨hplatforms, htelegram, hset⟩
  · refine Or.inl ?_
    have hkept : r.result.get h.next e.2 = r.named.get h.next e.2 := by
      rw [r.get_named _ (by rcases hsource with heq | heq <;> rw [heq] <;> decide), if_pos rfl]
      rw [r.kept_after_reached hclosed hapart _
          (by rcases hsource with heq | heq <;> rw [heq] <;> decide),
        r.get_reached hclosed _ (by rcases hsource with heq | heq <;> rw [heq] <;> decide),
        if_pos rfl]
    refine r.isSet_false hclosed hapart (r.touches_after_named hclosed hapart) hkept
      (Or.inl ?_) hfalse
    rw [r.get_named _ (by rcases hsource with heq | heq <;> rw [heq] <;> decide), if_pos rfl]
    unfold testedFields
    rcases hsource with heq | heq <;> rw [heq] <;> simp
  · refine Or.inr ⟨r.platforms, r.telegram, ?_, ?_, ?_⟩
    · rw [Heap.dictAt_congr (r.kept_after_reached hclosed hapart _ (by decide)), hplatforms]
    · rw [Heap.dictAt_congr (r.kept_after_reached hclosed hapart _ (by decide)), htelegram]
    · refine isSet_iff_of_get ?_ hset (r.touches_after_reached hclosed hapart)
      exact r.kept_after_reached hclosed hapart _
        (by rcases htarget with heq | heq <;> rw [heq] <;> decide)

/-- **A pass leaves a settled identity.** -/
theorem settled : Settled r.result h.next where
  id := by
    have hspec := @fillId_spec (copyOf raw h) h.next idText
    rw [← r.named_eq] at hspec
    rcases hspec with hthere | hfalse
    · obtain ⟨v, hv⟩ := Option.ne_none_iff_exists'.mp hthere
      obtain ⟨v', hv'⟩ := (r.touches_after_named hclosed hapart).grows hv
      exact Or.inl (by rw [hv']; exact Option.some_ne_none v')
    · refine Or.inr ?_
      have hcopy : (copyOf raw h).get h.next "name" = h.get raw "name" := by
        rw [get_copyOf, if_pos rfl]
      refine r.isSet_false hclosed hapart (r.touches hclosed hapart) ?_ (Or.inl ?_) hfalse
      · rw [hcopy, r.kept_after_reached hclosed hapart _ (by decide),
          r.get_reached hclosed _ (by decide), if_pos rfl]
      · rw [hcopy]
        exact List.mem_cons_self
  telegram e he := r.settled_telegram hclosed hapart he
  absent kind hkind hnone := by
    obtain ⟨part, g, hleft, -⟩ := r.kind_left hclosed hapart hkind
    rw [r.transportAt_result hclosed hapart] at hnone
    rcases hleft.listed with hlisted | ⟨hfalse, -⟩
    · rw [Heap.dictAt_eq_some.mpr hlisted] at hnone
      cases hnone
    · exact hfalse
  present kind hkind part hat := (r.settled_present hclosed hapart hkind hat).1
  card card hcard hurl := by
    rw [r.transportAt_result hclosed hapart] at hcard
    exact r.result_card hclosed hapart hcard hurl
  defaults := (r.rest_spec hclosed hapart).2.1

end Later

end Pass

end Course

end HermesA2A
