import HermesA2A.SharedIdentity

/-!
# The steps of a pass

What each step of `_normalize_identity` writes to, as a set of places, and what is there
afterwards.  The names that the steps write under are all different, but for the members of
the transports; so what a step leaves is what the pass leaves.

* `fillTelegram_spec` — a legacy Telegram field is empty, or was filled in.
* `kind_done` — a transport is filled in, and is published if it has a URL.
* `fillCard_spec`, `fillRest_spec` — the agent card has an auth section, and the transports
  are in the identity unless there are none.
-/

namespace HermesA2A

open DictHeap

section Steps

variable {p : ℕ → Prop} {F : ℕ → String → Prop} {g g' : Objects} {a part data fresh : ℕ}
  {key source k : String} {kind : TransportKind}

theorem isSet_iff_of_get (heq : g'.get a k = g.get a k) (htrue : isSet g a k = true)
    (he : Heap.Edits p F g g') : isSet g' a k = true := by
  unfold isSet at htrue ⊢
  rw [heq]
  exact he.truthy htrue

/-- A member that is there stays true, unless it is written to. -/
theorem isSet_of_edits (he : Heap.Edits p F g g') (hF : ¬ F a k) (htrue : isSet g a k = true) :
    isSet g' a k = true :=
  isSet_iff_of_get (he.kept hF) htrue he

theorem get_of_isSet (h : isSet g a k = true) : ∃ v, g.get a k = some v := by
  unfold isSet at h
  cases hv : g.get a k with
  | none =>
      rw [hv] at h
      cases h
  | some v => exact ⟨v, rfl⟩

/-- A value that was read off a dictionary. -/
theorem refers_valueAt (hp : g.Refers p) {b : ℕ} (hv : valueAt g a k = .dict b) : p b := by
  unfold valueAt at hv
  cases hget : g.get a k with
  | none =>
      rw [hget] at hv
      cases hv
  | some v =>
      rw [hget] at hv
      obtain rfl : v = .dict b := hv
      exact hp hget

theorem edits_inheritAt (hF : F part key) : Heap.Edits p F g (inheritAt part key data source g) := by
  unfold inheritAt
  split_ifs
  · exact Heap.edits_set hF fun hp b hv => refers_valueAt hp hv
  · exact Heap.Edits.refl p F g

/-- What was filled in is true. -/
theorem isSet_inheritAt (h : isSet g part key = true ∨ isSet g data source = true) :
    isSet (inheritAt part key data source g) part key = true := by
  by_cases hset : isSet g part key = true
  · rw [inheritAt_eq_self (Or.inl hset)]
    exact hset
  · have hsource := h.resolve_left hset
    obtain ⟨v, hv⟩ := get_of_isSet hsource
    have he : Heap.Edits (fun _ => True) (fun _ _ => True) g (g.set part key v) :=
      Heap.edits_set trivial fun _ _ _ => trivial
    unfold inheritAt valueAt
    rw [if_pos ⟨Bool.eq_false_iff.mpr hset, hsource⟩, hv, Option.getD_some]
    unfold isSet at hsource ⊢
    rw [Heap.get_set_self, ← hv]
    exact he.truthy hsource

theorem edits_defaultAt {s : String} (hF : F part key) :
    Heap.Edits p F g (defaultAt part key (textNode s) g) := by
  unfold defaultAt
  split_ifs
  · exact Heap.Edits.refl p F g
  · exact Heap.edits_set hF fun _ b hv => by cases hv

theorem isSet_defaultAt {s : String} (hs : s ≠ "") :
    isSet (defaultAt part key (textNode s) g) part key = true := by
  unfold defaultAt
  split_ifs with hset
  · exact hset
  · unfold isSet
    rw [Heap.get_set_self]
    exact bne_iff_ne.mpr hs

/-- The `id`. -/
theorem edits_fillId (idText : IdText) (hF : F data "id") :
    Heap.Edits p F g (fillId idText data g) := by
  unfold fillId
  split_ifs
  · exact Heap.edits_set hF fun _ b hv => by cases hv
  · exact Heap.Edits.refl p F g

theorem fillId_spec (idText : IdText) :
    (fillId idText data g).get data "id" ≠ none ∨ isSet g data "name" = false := by
  unfold fillId
  split_ifs with h
  · refine Or.inl ?_
    rw [Heap.get_set_self]
    exact Option.some_ne_none _
  · by_cases hid : g.get data "id" = none
    · exact Or.inr (Bool.eq_false_iff.mpr fun hname => h ⟨hid, hname⟩)
    · exact Or.inl hid

/-! #### The Telegram fields -/

/-- The places that `fillTelegram` writes to. -/
def TelegramPlaces (data platforms telegram a : ℕ) (k : String) : Prop :=
  a = telegram ∧ (k = "bot_token" ∨ k = "default_chat_id") ∨ a = platforms ∧ k = "telegram" ∨
    a = data ∧ k = "platforms"

theorem edits_fillTelegram {platforms telegram : ℕ} (hplatforms : p platforms)
    (htelegram : p telegram) : Heap.Edits p (TelegramPlaces data platforms telegram) g
      (fillTelegram data platforms telegram g) := by
  have he : Heap.Edits p (TelegramPlaces data platforms telegram) g
      (inheritAt telegram "default_chat_id" data "telegram_chat_id"
        (inheritAt telegram "bot_token" data "telegram_bot_token" g)) :=
    (edits_inheritAt (Or.inl ⟨rfl, Or.inl rfl⟩)).trans
      (edits_inheritAt (Or.inl ⟨rfl, Or.inr rfl⟩))
  unfold fillTelegram
  dsimp only
  split_ifs
  · exact he
  · exact he.trans ((Heap.edits_set_dict (Or.inr (Or.inl ⟨rfl, rfl⟩)) htelegram).trans
      (Heap.edits_set_dict (Or.inr (Or.inr ⟨rfl, rfl⟩)) hplatforms))

/-- A legacy field is empty, or was filled in. -/
theorem fillTelegram_spec {platforms telegram : ℕ} {e : String × String} (he : e ∈ TELEGRAM_FIELDS) :
    isSet g data e.2 = false ∨
      (fillTelegram data platforms telegram g).dictAt data "platforms" = some platforms ∧
      (fillTelegram data platforms telegram g).dictAt platforms "telegram" = some telegram ∧
        isSet (fillTelegram data platforms telegram g) telegram e.1 = true := by
  cases hsource : isSet g data e.2 with
  | false => exact Or.inl rfl
  | true =>
      refine Or.inr ?_
      have hbot : Heap.Edits (fun _ => True) (fun _ k => k = "bot_token") g
          (inheritAt telegram "bot_token" data "telegram_bot_token" g) := edits_inheritAt rfl
      have hchat : Heap.Edits (fun _ => True) (fun _ k => k = "default_chat_id")
          (inheritAt telegram "bot_token" data "telegram_bot_token" g)
          (inheritAt telegram "default_chat_id" data "telegram_chat_id"
            (inheritAt telegram "bot_token" data "telegram_bot_token" g)) := edits_inheritAt rfl
      have hfilled : isSet (inheritAt telegram "default_chat_id" data "telegram_chat_id"
          (inheritAt telegram "bot_token" data "telegram_bot_token" g)) telegram e.1 = true := by
        unfold TELEGRAM_FIELDS at he
        simp only [List.mem_cons, List.not_mem_nil, or_false] at he
        rcases he with rfl | rfl
        · exact isSet_of_edits hchat (by decide) (isSet_inheritAt (Or.inr hsource))
        · exact isSet_inheritAt (Or.inr (isSet_of_edits hbot (by decide) hsource))
      unfold fillTelegram
      dsimp only
      generalize inheritAt telegram "default_chat_id" data "telegram_chat_id" _ = g₁ at hfilled ⊢
      obtain ⟨v, hv⟩ := get_of_isSet hfilled
      rw [if_neg (Bool.eq_false_iff.mp (Heap.isEmpty_eq_false_of_get hv))]
      have hset : Heap.Edits (fun _ => True) (fun _ k => k = "telegram" ∨ k = "platforms") g₁
          ((g₁.set platforms "telegram" (.dict telegram)).set data "platforms" (.dict platforms)) :=
        (Heap.edits_set_dict (Or.inl rfl) trivial).trans
          (Heap.edits_set_dict (Or.inr rfl) trivial)
      refine ⟨?_, ?_, ?_⟩
      · exact Heap.dictAt_eq_some.mpr Heap.get_set_self
      · refine Heap.dictAt_eq_some.mpr ?_
        rw [Heap.get_set_of_ne fun heq => absurd heq.2 (by decide), Heap.get_set_self]
      · refine isSet_of_edits hset ?_ hfilled
        unfold TELEGRAM_FIELDS at he
        simp only [List.mem_cons, List.not_mem_nil, or_false] at he
        rcases he with rfl | rfl <;> decide

/-! #### A transport -/

/-- The places that `fillObject` writes to. -/
def FillPlaces (kind : TransportKind) (part fresh a : ℕ) (k : String) : Prop :=
  a = part ∧ (k = "url" ∨ k = "protocol" ∨ k = "auth") ∨
    a = fresh ∧ (k = "type" ∨ k = kind.secretKey)

/-- The places that `publishObject` writes to. -/
def PublishPlaces (kind : TransportKind) (data transports a : ℕ) (k : String) : Prop :=
  a = transports ∧ k = kind.name ∨ a = data ∧ (k = kind.urlKey ∨ k = kind.credentialKey)

theorem get?_members {l : List (String × Node)} {k : String} {v : Node}
    (h : (dictOf l).get? k = some v) : ∃ e ∈ l, e.1 = k ∧ e.2 = v := by
  have hfold : ∀ (l : List (String × Node)) (d : OrderedDict String Node),
      (l.foldl (fun d e => d.set e.1 e.2) d).get? k = some v →
        d.get? k = some v ∨ ∃ e ∈ l, e.1 = k ∧ e.2 = v := by
    intro l
    induction l with
    | nil => exact fun d hd => Or.inl hd
    | cons e l ih =>
        intro d hd
        rcases ih _ hd with hset | ⟨e', he', heq⟩
        · rw [OrderedDict.get?_set] at hset
          split_ifs at hset with hk
          · exact Or.inr ⟨e, List.mem_cons_self, hk.symm, Option.some.inj hset⟩
          · exact Or.inl hset
        · exact Or.inr ⟨e', List.mem_cons_of_mem e he', heq⟩
  exact (hfold l _ h).resolve_left fun hempty => by cases hempty

/-- The auth section of a transport that has none. -/
theorem edits_defaultSection (hempty : ∀ k, g.get fresh k = none) (hfresh : p fresh) :
    Heap.Edits p (fun a k => a = part ∧ k = "auth" ∨
        a = fresh ∧ (k = "type" ∨ k = kind.secretKey)) g
      ((g.put fresh (kind.defaultSection data g)).set part "auth" (.dict fresh)) := by
  refine (Heap.edits_put hempty ?_ ?_).trans (Heap.edits_set_dict (Or.inl ⟨rfl, rfl⟩) hfresh)
  · intro k v hv
    refine Or.inr ⟨rfl, ?_⟩
    unfold TransportKind.defaultSection at hv
    split_ifs at hv
    · obtain ⟨e, hmem, hk, -⟩ := get?_members hv
      simp only [List.mem_cons, List.not_mem_nil, or_false] at hmem
      rcases hmem with rfl | rfl
      · exact Or.inl hk.symm
      · exact Or.inr hk.symm
    · obtain ⟨e, hmem, hk, -⟩ := get?_members hv
      obtain rfl := List.mem_singleton.mp hmem
      exact Or.inl hk.symm
  · intro hp k b hv
    unfold TransportKind.defaultSection at hv
    split_ifs at hv
    · obtain ⟨e, hmem, -, heq⟩ := get?_members hv
      simp only [List.mem_cons, List.not_mem_nil, or_false] at hmem
      rcases hmem with rfl | rfl
      · cases heq
      · exact refers_valueAt hp heq
    · obtain ⟨e, hmem, -, heq⟩ := get?_members hv
      obtain rfl := List.mem_singleton.mp hmem
      cases heq

theorem exists_type_defaultSection (kind : TransportKind) (data : ℕ) (g : Objects) :
    ∃ v, (kind.defaultSection data g).get? "type" = some v := by
  unfold TransportKind.defaultSection
  split_ifs
  · change ∃ v, ((OrderedDict.empty.set "type" _).set kind.secretKey _).get? "type" = some v
    rw [OrderedDict.get?_set, OrderedDict.get?_set_self]
    split_ifs
    · exact ⟨_, rfl⟩
    · exact ⟨_, rfl⟩
  · exact ⟨textNode "none", OrderedDict.get?_set_self OrderedDict.empty "type" _⟩

/-- **A transport is filled in**, and its URL is what it was, unless it is inherited. -/
theorem fillObject_spec (hkind : kind ∈ KINDS) (hempty : ∀ k, g.get fresh k = none)
    (hne : fresh ≠ part) (hfresh : p fresh) :
    Heap.Edits p (FillPlaces kind part fresh) g (kind.fillObject data part fresh g) ∧
      isSet (kind.fillObject data part fresh g) part "protocol" = true ∧
      isSet (kind.fillObject data part fresh g) part "auth" = true ∧
      ((isSet g part "url" = false ∧ isSet g data kind.urlKey = false ∧
          (kind.fillObject data part fresh g).get part "url" = g.get part "url") ∨
        isSet (kind.fillObject data part fresh g) part "url" = true) := by
  have hinherit : Heap.Edits p (fun a k => a = part ∧ k = "url") g
      (inheritAt part "url" data kind.urlKey g) := edits_inheritAt ⟨rfl, rfl⟩
  have hdefault : Heap.Edits p (fun a k => a = part ∧ k = "protocol")
      (inheritAt part "url" data kind.urlKey g)
      (defaultAt part "protocol" (textNode kind.protocol)
        (inheritAt part "url" data kind.urlKey g)) := edits_defaultAt ⟨rfl, rfl⟩
  have hfree : ∀ k, (defaultAt part "protocol" (textNode kind.protocol)
      (inheritAt part "url" data kind.urlKey g)).get fresh k = none := fun k =>
    (hdefault.kept fun heq => hne heq.1).trans
      ((hinherit.kept fun heq => hne heq.1).trans (hempty k))
  have hprotocol : isSet (defaultAt part "protocol" (textNode kind.protocol)
      (inheritAt part "url" data kind.urlKey g)) part "protocol" = true := by
    refine isSet_defaultAt ?_
    unfold KINDS at hkind
    simp only [List.mem_cons, List.not_mem_nil, or_false] at hkind
    rcases hkind with rfl | rfl <;> decide
  have hlast : ∃ g', kind.fillObject data part fresh g = g' ∧
      Heap.Edits p (fun a k => a = part ∧ k = "auth" ∨
        a = fresh ∧ (k = "type" ∨ k = kind.secretKey))
        (defaultAt part "protocol" (textNode kind.protocol)
          (inheritAt part "url" data kind.urlKey g)) g' ∧ isSet g' part "auth" = true := by
    unfold TransportKind.fillObject
    dsimp only
    generalize defaultAt part "protocol" _ _ = g₁ at hfree ⊢
    split_ifs with hauth
    · exact ⟨g₁, rfl, Heap.Edits.refl p _ g₁, hauth⟩
    · obtain ⟨v, hv⟩ := exists_type_defaultSection kind data g₁
      refine ⟨_, rfl, edits_defaultSection hfree hfresh, ?_⟩
      unfold isSet
      rw [Heap.get_set_self]
      refine Heap.truthy_of_get (k := "type") (v := v) ?_
      rw [Heap.get_set_of_ne fun heq => hne heq.1, Heap.get_put, if_pos rfl, hv]
  obtain ⟨g', heq, hauth, hset⟩ := hlast
  rw [heq]
  have hurl : ∀ {k}, k = "url" → ¬ (part = part ∧ k = "auth" ∨
      part = fresh ∧ (k = "type" ∨ k = kind.secretKey)) := by
    rintro k rfl (⟨-, h⟩ | ⟨h, -⟩)
    · exact absurd h (by decide)
    · exact hne h.symm
  refine ⟨?_, ?_, hset, ?_⟩
  · refine ((hinherit.mono fun a k h => Or.inl ⟨h.1, Or.inl h.2⟩).trans
      (hdefault.mono fun a k h => Or.inl ⟨h.1, Or.inr (Or.inl h.2)⟩)).trans
      (hauth.mono fun a k h => ?_)
    exact h.imp_left fun h => ⟨h.1, Or.inr (Or.inr h.2)⟩
  · refine isSet_of_edits hauth ?_ hprotocol
    rintro (⟨-, h⟩ | ⟨h, -⟩)
    · exact absurd h (by decide)
    · exact hne h.symm
  · by_cases hsource : isSet g part "url" = true ∨ isSet g data kind.urlKey = true
    · exact Or.inr (isSet_of_edits hauth (hurl rfl)
        (isSet_of_edits hdefault (fun h => absurd h.2 (by decide)) (isSet_inheritAt hsource)))
    · obtain ⟨hpart, hdata⟩ := not_or.mp hsource
      refine Or.inl ⟨Bool.eq_false_iff.mpr hpart, Bool.eq_false_iff.mpr hdata, ?_⟩
      rw [hauth.kept (hurl rfl), hdefault.kept fun h => absurd h.2 (by decide),
        inheritAt_eq_self (Or.inr (Bool.eq_false_iff.mpr hdata))]

/-- What `publishObject` does: nothing, or it follows a URL. -/
theorem publishObject_cases {transports : ℕ}
    (h : kind.publishObject data transports part g = .ok g') :
    (isSet g part "url" = false ∧ g' = g) ∨ isSet g part "url" = true ∧ ∃ g₂,
      g₂ = (g.set transports kind.name (.dict part)).set data kind.urlKey
        (((g.set transports kind.name (.dict part)).get part "url").getD (textNode "")) ∧
      ((isSet g₂ data kind.credentialKey = true ∧ g' = g₂) ∨
        ∃ secret, kind.secretIn part g₂ = .ok secret ∧
          g' = g₂.set data kind.credentialKey secret) := by
  unfold TransportKind.publishObject at h
  by_cases hurl : isSet g part "url" = true
  · rw [if_pos hurl] at h
    refine Or.inr ⟨hurl, _, rfl, ?_⟩
    dsimp only at h
    split_ifs at h with hset
    · exact Or.inl ⟨hset, (Except.ok.inj h).symm⟩
    · obtain ⟨secret, hsecret, h⟩ := exists_of_bind_ok h
      exact Or.inr ⟨secret, hsecret, (Except.ok.inj h).symm⟩
  · rw [if_neg hurl] at h
    exact Or.inl ⟨Bool.eq_false_iff.mpr hurl, (Except.ok.inj h).symm⟩

/-- A secret is read off the auth section. -/
theorem secretIn_eq {secret : Node} (h : kind.secretIn part g = .ok secret)
    (hauth : isSet g part "auth" = true) :
    ∃ auth, g.get part "auth" = some (.dict auth) ∧
      secret = (g.get auth kind.secretKey).getD (textNode "") := by
  unfold TransportKind.secretIn at h
  rw [if_pos hauth] at h
  split at h
  · rename_i auth hget
    exact ⟨auth, hget, (Except.ok.inj h).symm⟩
  · cases h

theorem refers_getD {s : String} {b : ℕ} (hp : g.Refers p)
    (hv : (g.get a k).getD (textNode s) = .dict b) : p b := by
  cases hget : g.get a k with
  | none =>
      rw [hget] at hv
      cases hv
  | some v =>
      rw [hget] at hv
      obtain rfl : v = .dict b := hv
      exact hp hget

theorem edits_publishObject (hpart : p part) {transports : ℕ}
    (h : kind.publishObject data transports part g = .ok g') :
    Heap.Edits p (PublishPlaces kind data transports) g g' := by
  rcases publishObject_cases h with ⟨-, rfl⟩ | ⟨-, g₂, hg₂, hcredential⟩
  · exact Heap.Edits.refl p _ g'
  · have he : Heap.Edits p (PublishPlaces kind data transports) g g₂ := by
      rw [hg₂]
      exact (Heap.edits_set_dict (Or.inl ⟨rfl, rfl⟩) hpart).trans
        (Heap.edits_set (Or.inr ⟨rfl, Or.inl rfl⟩) fun hp b hv => refers_getD hp hv)
    rcases hcredential with ⟨-, rfl⟩ | ⟨secret, hsecret, rfl⟩
    · exact he
    · refine he.trans (Heap.edits_set (Or.inr ⟨rfl, Or.inr rfl⟩) fun hp b hv => ?_)
      subst hv
      unfold TransportKind.secretIn at hsecret
      split_ifs at hsecret
      · split at hsecret
        · exact refers_getD hp (Except.ok.inj hsecret)
        · cases hsecret
      · cases Except.ok.inj hsecret

/-- The names of a transport's legacy fields are no names of its members. -/
theorem not_publishPlaces {transports : ℕ} (hkind : kind ∈ KINDS)
    (hk : k ∈ ["url", "protocol", "auth", "token", "secret"]) :
    ¬ PublishPlaces kind data transports a k := by
  unfold KINDS at hkind
  simp only [List.mem_cons, List.not_mem_nil, or_false] at hkind hk
  rintro (⟨-, h⟩ | ⟨-, h⟩)
  · rcases hkind with rfl | rfl <;> rcases hk with rfl | rfl | rfl | rfl | rfl <;>
      exact absurd h (by decide)
  · rcases hkind with rfl | rfl <;> rcases hk with rfl | rfl | rfl | rfl | rfl <;>
      exact absurd h (by decide)

/-- **What a pass has done with a transport**: it is filled in; if it has a URL, it is among
the transports and the legacy fields follow it, and otherwise there is none anywhere. -/
structure KindDone (kind : TransportKind) (data transports part : ℕ) (g g' : Objects) : Prop where
  protocol : isSet g' part "protocol" = true
  auth : isSet g' part "auth" = true
  url : (isSet g data kind.urlKey = false ∧ isSet g' part "url" = false ∧
      g'.get part "url" = g.get part "url" ∧ g'.get data kind.urlKey = g.get data kind.urlKey ∧
      g'.get transports kind.name = g.get transports kind.name) ∨
    (isSet g' part "url" = true ∧ g'.get transports kind.name = some (.dict part) ∧
      g'.get data kind.urlKey = g'.get part "url" ∧
      (isSet g' data kind.credentialKey = true ∨ ∃ auth, g'.get part "auth" = some (.dict auth) ∧
        g'.get data kind.credentialKey =
          some ((g'.get auth kind.secretKey).getD (textNode ""))))

theorem publish_spec {transports : ℕ} (hkind : kind ∈ KINDS) (hauth : isSet g part "auth" = true)
    (hurl : isSet g part "url" = true) (h : kind.publishObject data transports part g = .ok g') :
    g'.get transports kind.name = some (.dict part) ∧
      g'.get data kind.urlKey = g'.get part "url" ∧
      (isSet g' data kind.credentialKey = true ∨ ∃ auth, g'.get part "auth" = some (.dict auth) ∧
        g'.get data kind.credentialKey =
          some ((g'.get auth kind.secretKey).getD (textNode ""))) := by
  obtain ⟨v, hv⟩ := get_of_isSet hurl
  have hsecret : kind.secretKey ∈ ["url", "protocol", "auth", "token", "secret"] := by
    unfold KINDS at hkind
    simp only [List.mem_cons, List.not_mem_nil, or_false] at hkind
    rcases hkind with rfl | rfl <;> decide
  have hnames : kind.name ≠ kind.urlKey ∧ kind.name ≠ kind.credentialKey ∧
      kind.urlKey ≠ kind.credentialKey ∧ "url" ≠ kind.name ∧ "url" ≠ kind.urlKey ∧
        "url" ≠ kind.credentialKey := by
    unfold KINDS at hkind
    simp only [List.mem_cons, List.not_mem_nil, or_false] at hkind
    rcases hkind with rfl | rfl <;> decide
  obtain ⟨hnameUrl, hnameCred, hurlCred, hurlName, hurlUrl, hurlCredential⟩ := hnames
  rcases publishObject_cases h with ⟨hnone, -⟩ | ⟨-, g₂, hg₂, hcredential⟩
  · rw [hurl] at hnone
    cases hnone
  · have hname : g₂.get transports kind.name = some (.dict part) := by
      rw [hg₂, Heap.get_set_of_ne fun heq => hnameUrl heq.2, Heap.get_set_self]
    have hlegacy : g₂.get data kind.urlKey = some v := by
      rw [hg₂, Heap.get_set_self, Heap.get_set_of_ne fun heq => hurlName heq.2, hv]
      rfl
    have hpart : g₂.get part "url" = some v := by
      rw [hg₂, Heap.get_set_of_ne fun heq => hurlUrl heq.2,
        Heap.get_set_of_ne fun heq => hurlName heq.2, hv]
    rcases hcredential with ⟨hset, rfl⟩ | ⟨secret, hread, rfl⟩
    · exact ⟨hname, hlegacy.trans hpart.symm, Or.inl hset⟩
    · have he : Heap.Edits (fun _ => True) (PublishPlaces kind data transports) g g₂ := by
        rw [hg₂]
        exact (Heap.edits_set_dict (Or.inl ⟨rfl, rfl⟩) trivial).trans
          (Heap.edits_set (Or.inr ⟨rfl, Or.inl rfl⟩) fun _ _ _ => trivial)
      have hauth₂ : isSet g₂ part "auth" = true :=
        isSet_of_edits he (not_publishPlaces hkind (by decide)) hauth
      obtain ⟨auth, hget, rfl⟩ := secretIn_eq hread hauth₂
      have hkept : ∀ b l, l ≠ kind.credentialKey →
          (g₂.set data kind.credentialKey ((g₂.get auth kind.secretKey).getD (textNode ""))).get b l =
            g₂.get b l := fun b l hl => Heap.get_set_of_ne fun heq => hl heq.2
      have hne : ∀ l ∈ ["url", "protocol", "auth", "token", "secret"], l ≠ kind.credentialKey := by
        rintro l hl rfl
        have hnot : ¬ PublishPlaces kind data transports data kind.credentialKey :=
          not_publishPlaces hkind hl
        exact hnot (Or.inr ⟨rfl, Or.inr rfl⟩)
      refine ⟨?_, ?_, Or.inr ⟨auth, ?_, ?_⟩⟩
      · rw [hkept _ _ hnameCred, hname]
      · rw [hkept _ _ hurlCred, hkept _ _ hurlCredential, hlegacy, hpart]
      · rw [hkept _ _ (hne _ (by decide)), hget]
      · rw [Heap.get_set_self, hkept _ _ (hne _ hsecret)]

/-- The places that a pass writes to for a transport. -/
def KindPlaces (kind : TransportKind) (data transports part fresh a : ℕ) (k : String) : Prop :=
  FillPlaces kind part fresh a k ∨ PublishPlaces kind data transports a k

/-- **A transport is done.** -/
theorem kind_done {transports : ℕ} (hkind : kind ∈ KINDS) (hempty : ∀ k, g.get fresh k = none)
    (hne : fresh ≠ part) (hfresh : p fresh) (hpart : p part)
    (h : kind.publishObject data transports part (kind.fillObject data part fresh g) = .ok g') :
    Heap.Edits p (KindPlaces kind data transports part fresh) g g' ∧
      KindDone kind data transports part g g' := by
  obtain ⟨hfill, hprotocol, hauth, hurl⟩ :=
    @fillObject_spec p g part data fresh kind hkind hempty hne hfresh
  have hpublish := edits_publishObject hpart h
  have hname : ∀ b, ∀ l ∈ [kind.name, kind.urlKey], ¬ FillPlaces kind part fresh b l := by
    unfold KINDS at hkind
    simp only [List.mem_cons, List.not_mem_nil, or_false] at hkind ⊢
    rintro b l hl (⟨-, h⟩ | ⟨-, h⟩)
    · rcases hkind with rfl | rfl <;> rcases hl with rfl | rfl <;> exact absurd h (by decide)
    · rcases hkind with rfl | rfl <;> rcases hl with rfl | rfl <;> exact absurd h (by decide)
  refine ⟨(hfill.mono fun a k => Or.inl).trans (hpublish.mono fun a k => Or.inr), ?_, ?_, ?_⟩
  · exact isSet_of_edits hpublish (not_publishPlaces hkind (by decide)) hprotocol
  · exact isSet_of_edits hpublish (not_publishPlaces hkind (by decide)) hauth
  · by_cases hset : isSet (kind.fillObject data part fresh g) part "url" = true
    · exact Or.inr ⟨isSet_of_edits hpublish (not_publishPlaces hkind (by decide)) hset,
        publish_spec hkind hauth hset h⟩
    · obtain ⟨-, hdataUrl, hkept⟩ := hurl.resolve_right hset
      rcases publishObject_cases h with ⟨hnone, rfl⟩ | ⟨hsome, -⟩
      · exact Or.inl ⟨hdataUrl, hnone, hkept,
          hfill.kept (hname _ _ (List.mem_cons_of_mem _ List.mem_cons_self)),
          hfill.kept (hname _ _ List.mem_cons_self)⟩
      · exact absurd hsome hset

/-- **What is left of a transport** when the rest of the pass is over. -/
structure KindLeft (kind : TransportKind) (data transports part : ℕ) (g g' : Objects) : Prop where
  settled : PartSettled g' data kind part
  current : isSet g' part "url" = true → isSet g' data kind.credentialKey = false →
    ∀ auth, g'.get part "auth" = some (.dict auth) →
      g'.get data kind.credentialKey = some ((g'.get auth kind.secretKey).getD (textNode ""))
  listed : g'.get transports kind.name = some (.dict part) ∨
    isSet g' data kind.urlKey = false ∧ g'.get transports kind.name = g.get transports kind.name

/-- Nothing else is written to the transport, its legacy fields, or a secret. -/
theorem KindDone.left {transports : ℕ} {g'' : Objects}
    (hdone : KindDone kind data transports part g g') (he : Heap.Edits p F g' g'')
    (hpart : ∀ k ∈ ["url", "protocol", "auth"], ¬ F part k) (hname : ¬ F transports kind.name)
    (hdata : ∀ k ∈ [kind.urlKey, kind.credentialKey], ¬ F data k)
    (hsecret : ∀ a, ¬ F a kind.secretKey)
    (hlegacy : isSet g data kind.urlKey = false →
      g'.get data kind.urlKey = g.get data kind.urlKey → isSet g'' data kind.urlKey = false)
    (hurl : isSet g' part "url" = false → g'.get part "url" = g.get part "url" →
      isSet g'' part "url" = false) : KindLeft kind data transports part g g'' := by
  have hprotocol := isSet_of_edits he (hpart _ (by decide)) hdone.protocol
  have hauth := isSet_of_edits he (hpart _ (by decide)) hdone.auth
  have hkept : ∀ k ∈ ["url", "protocol", "auth"], g''.get part k = g'.get part k := fun k hk =>
    he.kept (hpart k hk)
  have hdata' : ∀ k ∈ [kind.urlKey, kind.credentialKey], g''.get data k = g'.get data k :=
    fun k hk => he.kept (hdata k hk)
  have hcredential := hdata' kind.credentialKey (List.mem_cons_of_mem _ List.mem_cons_self)
  rcases hdone.url with ⟨hnone, hempty, hsame, hlink, hlisted⟩ | ⟨hset, hlisted, hlink, hsecretOf⟩
  · have hnone' := hurl hempty hsame
    have hlegacy' := hlegacy hnone hlink
    refine ⟨⟨hprotocol, hauth, fun _ => hlegacy', fun hset => ?_⟩, fun hset => ?_,
      Or.inr ⟨hlegacy', (he.kept hname).trans hlisted⟩⟩
    · rw [hnone'] at hset
      cases hset
    · rw [hnone'] at hset
      cases hset
  · have hset' := isSet_of_edits he (hpart _ (by decide)) hset
    refine ⟨⟨hprotocol, hauth, fun hempty => ?_, fun _ => ⟨?_, ?_⟩⟩, fun _ hempty auth hget => ?_,
      Or.inl ((he.kept hname).trans hlisted)⟩
    · rw [hset'] at hempty
      cases hempty
    · rw [hdata' _ List.mem_cons_self, hkept _ (by decide), hlink]
    · rcases hsecretOf with htrue | ⟨auth, hget, -⟩
      · exact Or.inl (isSet_iff_of_get hcredential htrue he)
      · exact Or.inr ⟨auth, (hkept _ (by decide)).trans hget⟩
    · rcases hsecretOf with htrue | ⟨auth', hget', hread⟩
      · rw [isSet_iff_of_get hcredential htrue he] at hempty
        cases hempty
      · rw [hkept _ (by decide), hget'] at hget
        obtain rfl := Value.dict.inj (Option.some.inj hget)
        rw [hcredential, hread, he.kept (hsecret auth')]

/-! #### The rest -/

/-- The places that `fillCard` writes to, where `a2a_rpc` has an auth section. -/
def CardPlaces (g : Objects) (transports card a : ℕ) (k : String) : Prop :=
  (a = card ∧ k = "auth" ∧ isSet g card "auth" = false) ∨ a = transports ∧ k = "agent_card"

theorem fillCard_spec {rpc transports card : ℕ} (hrpc : isSet g rpc "auth" = true)
    (hcard : p card) :
    Heap.Edits p (CardPlaces g transports card) g (fillCard rpc transports card fresh g) ∧
      ((isSet g card "url" = false ∧ fillCard rpc transports card fresh g = g) ∨
        isSet (fillCard rpc transports card fresh g) card "auth" = true ∧
          (fillCard rpc transports card fresh g).get transports "agent_card" =
            some (.dict card)) := by
  unfold fillCard
  by_cases hurl : isSet g card "url" = true
  · rw [if_pos hurl]
    dsimp only
    by_cases hauth : isSet g card "auth" = true
    · rw [if_pos hauth]
      have he : Heap.Edits p (fun a k => a = transports ∧ k = "agent_card") g
          (g.set transports "agent_card" (.dict card)) := Heap.edits_set_dict ⟨rfl, rfl⟩ hcard
      exact ⟨he.mono fun a k => Or.inr, Or.inr ⟨isSet_of_edits he (fun h => absurd h.2 (by decide))
        hauth, Heap.get_set_self⟩⟩
    · rw [if_neg hauth, if_pos hrpc]
      obtain ⟨v, hv⟩ := get_of_isSet hrpc
      have hvalue : valueAt g rpc "auth" = v := by
        unfold valueAt
        rw [hv]
        rfl
      have hset : Heap.Edits p (fun a k => a = card ∧ k = "auth") g (g.set card "auth" v) :=
        Heap.edits_set ⟨rfl, rfl⟩ fun hp b hb => hp (hv.trans (congrArg some hb))
      have he : Heap.Edits p (fun a k => a = transports ∧ k = "agent_card") (g.set card "auth" v)
          ((g.set card "auth" v).set transports "agent_card" (.dict card)) :=
        Heap.edits_set_dict ⟨rfl, rfl⟩ hcard
      rw [hvalue]
      refine ⟨?_, Or.inr ⟨?_, Heap.get_set_self⟩⟩
      · exact (hset.mono fun a k h => Or.inl ⟨h.1, h.2, Bool.eq_false_iff.mpr hauth⟩).trans
          (he.mono fun a k => Or.inr)
      · refine isSet_of_edits he (fun h => absurd h.2 (by decide)) ?_
        unfold isSet at hrpc ⊢
        rw [Heap.get_set_self, ← hv]
        exact hset.truthy hrpc
  · rw [if_neg hurl]
    exact ⟨Heap.Edits.refl p _ g, Or.inl ⟨Bool.eq_false_iff.mpr hurl, rfl⟩⟩

/-- The places that `fillRest` writes to. -/
def RestPlaces (data fresh a : ℕ) (k : String) : Prop :=
  a = data ∧ (k = "transports" ∨ k = "defaults") ∨ a = fresh ∧ (k = "platform" ∨ k = "chat_type")

theorem fillRest_spec {transports : ℕ} (hempty : ∀ k, g.get fresh k = none) (hne : fresh ≠ data)
    (hfresh : p fresh) (htransports : p transports) :
    Heap.Edits p (RestPlaces data fresh) g (fillRest data transports fresh g) ∧
      (fillRest data transports fresh g).get data "defaults" ≠ none ∧
      (fillRest data transports fresh g).get data "transports" =
        if g.isEmpty transports then g.get data "transports" else some (.dict transports) := by
  have hset : ∃ g₁, (if g.isEmpty transports then g
        else g.set data "transports" (.dict transports)) = g₁ ∧
      Heap.Edits p (fun a k => a = data ∧ k = "transports") g g₁ ∧
      g₁.get data "transports" =
        if g.isEmpty transports then g.get data "transports" else some (.dict transports) := by
    split_ifs
    · exact ⟨g, rfl, Heap.Edits.refl p _ g, rfl⟩
    · exact ⟨_, rfl, Heap.edits_set_dict ⟨rfl, rfl⟩ htransports, Heap.get_set_self⟩
  obtain ⟨g₁, heq, he, hget⟩ := hset
  unfold fillRest
  dsimp only
  rw [heq]
  have he' := he.mono fun a k h => (Or.inl ⟨h.1, Or.inl h.2⟩ : RestPlaces data fresh a k)
  split
  · rename_i v hdefaults
    exact ⟨he', by rw [hdefaults]; exact Option.some_ne_none v, hget⟩
  · have hput : Heap.Edits p (RestPlaces data fresh) g₁ ((g₁.put fresh (dictOf
        [("platform", textNode "telegram"), ("chat_type", textNode "dm")])).set data "defaults"
          (.dict fresh)) := by
      refine (Heap.edits_put (fun k => (he.kept fun h => hne h.1).trans (hempty k)) ?_ ?_).trans
        (Heap.edits_set_dict (Or.inl ⟨rfl, Or.inr rfl⟩) hfresh)
      · intro k v hv
        obtain ⟨e, hmem, hk, -⟩ := get?_members hv
        simp only [List.mem_cons, List.not_mem_nil, or_false] at hmem
        rcases hmem with rfl | rfl
        · exact Or.inr ⟨rfl, Or.inl hk.symm⟩
        · exact Or.inr ⟨rfl, Or.inr hk.symm⟩
      · intro hp k b hv
        obtain ⟨e, hmem, -, hb⟩ := get?_members hv
        simp only [List.mem_cons, List.not_mem_nil, or_false] at hmem
        rcases hmem with rfl | rfl <;> cases hb
    refine ⟨he'.trans hput, ?_, ?_⟩
    · rw [Heap.get_set_self]
      exact Option.some_ne_none _
    · rw [Heap.get_set_of_ne fun h => absurd h.2 (by decide), Heap.get_put,
        if_neg (Ne.symm hne), hget]

end Steps

end HermesA2A
