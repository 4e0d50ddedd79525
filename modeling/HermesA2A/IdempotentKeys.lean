import HermesA2A.Replay
import HermesA2A.Verdict

/-!
# Idempotency keys

A request looks its key up before it is accepted and stores its result after it has
been answered.  Nothing is stored in between, and nothing at all after a time-out:
whoever looks the key up in the meantime finds it free.

`oneAtATime k` describes the runs without such a meantime: when the key is looked
up, every request that has looked it up before is over, and if it was accepted, its
result is stored and has not expired.  In these runs the key does what it is for.
-/

namespace HermesA2A

open Machine

/-- The request of thread `i` carries the key, with this payload. -/
def Carries (P : Platform) (c : Config) (i : ℕ) (key payload : Json) : Prop :=
  ∃ x transport req s, c.Calls i x ∧ x.Submits P transport req s ∧ s.idemKey = key ∧
    s.payload = payload

/-- The key a step looks up, with the payload. -/
def lookedUp? : Event → Option (Json × Json)
  | ⟨.checkConflict key payload, _⟩ => some (key, payload)
  | _ => none

theorem lookedUp?_eq_some {e : Event} {key payload : Json}
    (h : lookedUp? e = some (key, payload)) : ∃ r, e = ⟨.checkConflict key payload, r⟩ := by
  unfold lookedUp? at h
  split at h
  · obtain ⟨rfl, rfl⟩ := Prod.mk.inj (Option.some.inj h)
    exact ⟨_, rfl⟩
  · cases h

/-- The step looks the key up. -/
def looksUp (key : Json) (e : Event) : Bool := (lookedUp? e).any (·.1 = key)

/-- The step stores a result under the key. -/
def storesUnder (key : Json) : Event → Bool
  | ⟨.idemSet k _ _ _, _⟩ => decide (k = key)
  | _ => false

/-- Thread `i` is over, and if its message was accepted, its result was stored under
the key. -/
def settledUnder (c : Config) (key : Json) (i : ℕ) : Bool :=
  (c.outcome? i).isSome &&
    (!(c.history i).any (fun e => (accepted? e).isSome) || (c.history i).any (storesUnder key))

/-- What is stored under the key has not expired. -/
def unexpired (c : Config) (key : Json) : Bool :=
  (OrderedDict.get? c.shared.idem key).all fun entry => decide (c.shared.clock ≤ entry.expiresAt)

/-- A request looks the key up only when all earlier ones with it are settled; and
its entry does not expire. -/
def oneAtATime (key : Json) : Test
  | c, _, .checkConflict k _ =>
      decide (k ≠ key) ||
        (unexpired c key && c.trace.all fun e => !looksUp key e.2 || settledUnder c key e.1)
  | c, _, .idemGet k => decide (k ≠ key) || unexpired c key
  | c, _, .evictExpired => unexpired c key
  | _, _, _ => true

theorem live?_of_unexpired {c : Config} {key : Json} {entry : IdempotencyEntry}
    (h : unexpired c key = true) (hentry : OrderedDict.get? c.shared.idem key = some entry) :
    IdempotencyStore.live? c.shared.clock key c.shared.idem = some entry := by
  unfold unexpired at h
  rw [hentry, Option.all_some, decide_eq_true_eq] at h
  exact IdempotencyStore.live?_eq_some_iff.mpr ⟨hentry, h⟩

/-- Of two different members of a list, one stands before the other. -/
theorem mem_before_or_after {α : Type*} {l : List α} {a b : α} (ha : a ∈ l) (hb : b ∈ l)
    (hne : a ≠ b) :
    (∃ l₁ l₂, l = l₁ ++ b :: l₂ ∧ a ∈ l₁) ∨ ∃ l₁ l₂, l = l₁ ++ a :: l₂ ∧ b ∈ l₁ := by
  obtain ⟨l₁, l₂, rfl⟩ := List.append_of_mem ha
  rcases List.mem_append.mp hb with hb | hb
  · exact Or.inr ⟨l₁, l₂, rfl, hb⟩
  · rcases List.mem_cons.mp hb with rfl | hb
    · exact absurd rfl hne
    · obtain ⟨l₃, l₄, rfl⟩ := List.append_of_mem hb
      refine Or.inl ⟨l₁ ++ a :: l₃, l₄, by simp, ?_⟩
      exact List.mem_append_right _ List.mem_cons_self

section Runs

variable {P : Platform} {test : Test} {t₀ : Time} {c : Config} {i j : ℕ} {key payload : Json}
  {task : PendingTask}

/-- An accepted request with a key has found the key free. -/
theorem free_of_accepted (hc : (system P).Reaches (Allows test) (World.init t₀) c)
    (hkey : key.truthy = true) (hcarries : Carries P c i key payload)
    (hacc : AcceptsIn c.trace i task) :
    (i, (⟨.checkConflict key payload, .ok false⟩ : Event)) ∈ c.trace ∧
      (i, (⟨.idemGet key, .ok none⟩ : Event)) ∈ c.trace := by
  obtain ⟨x, transport, req, s, ⟨p, hp⟩, hsub, rfl, rfl⟩ := hcarries
  obtain ⟨t, text, metadata, contextId, createdAt, hev⟩ := hacc
  obtain ⟨tr₁, tr₂, htr⟩ := List.append_of_mem hev
  obtain ⟨y, ⟨p', hp'⟩, transport', req', s', hsub', -, -, -, -, hhist⟩ :=
    hc.event_pre (Call.meets P) htr
  obtain rfl := (Prod.mk.inj (Option.some.inj (hp.symm.trans hp'))).1
  obtain ⟨-, -, rfl⟩ := hsub.unique hsub'
  have hbefore : ∀ e ∈ clearedHistory s, (i, e) ∈ c.trace := by
    intro e he
    have : e ∈ historyOf i tr₁ := by
      rw [hhist]
      exact List.mem_append_left _ he
    rw [htr]
    exact List.mem_append_left _ (mem_historyOf.mp this)
  unfold clearedHistory at hbefore
  rw [if_pos hkey] at hbefore
  exact ⟨hbefore _ List.mem_cons_self,
    hbefore _ (List.mem_cons_of_mem _ (List.mem_singleton.mpr rfl))⟩

/-- An accepted request carries something. -/
theorem carries_of_accepted (hc : (system P).Reaches (Allows test) (World.init t₀) c)
    (hacc : AcceptsIn c.trace i task) : ∃ key payload, Carries P c i key payload := by
  obtain ⟨t, text, metadata, contextId, createdAt, hev⟩ := hacc
  obtain ⟨tr₁, tr₂, htr⟩ := List.append_of_mem hev
  obtain ⟨x, hx, transport, req, s, hsub, -⟩ := hc.event_pre (Call.meets P) htr
  exact ⟨_, _, x, transport, req, s, hx, hsub, rfl, rfl⟩

/-- Who looks a key up has done nothing before, and carries it. -/
theorem carries_of_checkConflict (hc : (system P).Reaches (Allows test) (World.init t₀) c)
    {r : Except PyError Bool} {tr₁ tr₂ : Trace}
    (htr : c.trace = tr₁ ++ (i, ⟨.checkConflict key payload, r⟩) :: tr₂) :
    historyOf i tr₁ = [] ∧ Carries P c i key payload := by
  obtain ⟨x, hx, transport, req, s, hsub, -, rfl, rfl, hhist⟩ := hc.event_pre (Call.meets P) htr
  exact ⟨hhist, x, transport, req, s, hx, hsub, rfl, rfl⟩

/-- Who stores a result carries the key, and was accepted. -/
theorem accepted_of_idemSet (hc : (system P).Reaches (Allows test) (World.init t₀) c) {t : TaskId}
    {result : Json} (h : (i, (⟨.idemSet key t payload result, ()⟩ : Event)) ∈ c.trace) :
    Carries P c i key payload ∧ ∃ task, AcceptsIn c.trace i task := by
  obtain ⟨transport, req, s, createdAt, task, start, response₀, response, ⟨x, hx, hsub⟩, rfl, -, rfl,
    -, hevents⟩ := spec_of_idemSet hc h
  refine ⟨⟨x, transport, req, s, hx, hsub, rfl, rfl⟩, task, ?_⟩
  have henqueue := hevents ⟨.enqueue s.taskId (sanitizeInbound s.userText) s.metadata s.contextId
    createdAt, some task⟩ (by simp [readHistory, waitedHistory, enqueuedHistory])
  exact ⟨_, _, _, _, _, henqueue⟩

/-- Whose request carries what is settled once and for all. -/
theorem Carries.unique (h : Carries P c i key payload) {key' payload' : Json}
    (h' : Carries P c i key' payload') : key = key' ∧ payload = payload' := by
  obtain ⟨x, _, _, s, ⟨p, hp⟩, hsub, rfl, rfl⟩ := h
  obtain ⟨y, _, _, s', ⟨p', hp'⟩, hsub', rfl, rfl⟩ := h'
  obtain rfl := (Prod.mk.inj (Option.some.inj (hp.symm.trans hp'))).1
  obtain ⟨-, -, rfl⟩ := hsub.unique hsub'
  exact ⟨rfl, rfl⟩

theorem Carries.of_steps {b : Config} {ok : Machine.Guard Op Op.Res World Call Outcome}
    (h : Carries P b i key payload)
    (hsteps : Relation.ReflTransGen ((system P).Step ok) b c) : Carries P c i key payload := by
  obtain ⟨x, transport, req, s, hx, hsub⟩ := h
  exact ⟨x, transport, req, s, Machine.calls_of_steps hsteps hx, hsub⟩

/-! ### One request at a time -/

/-- One step leaves something under the key. -/
theorem exists_onStore_of_oneAtATime {o : Op} (hok : oneAtATime key c i o = true)
    {entry : IdempotencyEntry} (hentry : OrderedDict.get? c.shared.idem key = some entry) :
    ∃ entry', OrderedDict.get? (o.onStore P c.shared.clock c.shared.idem) key = some entry' := by
  have hdrop : ∀ k, (k ≠ key ∨ unexpired c key = true) →
      OrderedDict.get? (IdempotencyStore.dropExpired c.shared.clock k c.shared.idem) key =
        some entry := by
    rintro k (hne | hlive)
    · exact (IdempotencyStore.get?_dropExpired_of_ne hne.symm).trans hentry
    · have hlive := IdempotencyStore.live?_eq_some_iff.mp (live?_of_unexpired hlive hentry)
      exact IdempotencyStore.get?_dropExpired_of_le hentry hlive.2
  cases o with
  | checkConflict k payload =>
      refine ⟨entry, ?_⟩
      show OrderedDict.get? (IdempotencyStore.checkConflict _ _ k payload _).2 key = _
      unfold IdempotencyStore.checkConflict
      split
      · simp only [oneAtATime, Bool.or_eq_true, decide_eq_true_eq, Bool.and_eq_true] at hok
        exact hdrop k (hok.imp_right And.left)
      · exact hentry
  | idemGet k =>
      refine ⟨entry, ?_⟩
      show OrderedDict.get? (IdempotencyStore.get _ k _).2 key = _
      unfold IdempotencyStore.get
      split
      · simp only [oneAtATime, Bool.or_eq_true, decide_eq_true_eq] at hok
        exact hdrop k hok
      · exact hentry
  | idemSet k t payload result =>
      by_cases hk : key = k
      · subst hk
        exact ⟨_, OrderedDict.get?_set_self ..⟩
      · exact ⟨entry, (OrderedDict.get?_set_of_ne _ _ hk).trans hentry⟩
  | evictExpired =>
      exact ⟨entry, IdempotencyStore.get?_evictExpired.trans (live?_of_unexpired hok hentry)⟩
  | _ => exact ⟨entry, hentry⟩

/-- **What was stored under the key stays.** -/
theorem get?_of_stored (hc : (system P).Reaches (Allows (oneAtATime key)) (World.init t₀) c)
    (h : (c.history i).any (storesUnder key) = true) :
    ∃ entry, OrderedDict.get? c.shared.idem key = some entry := by
  have hinv : (∃ e ∈ c.trace, storesUnder key e.2 = true) →
      ∃ entry, OrderedDict.get? c.shared.idem key = some entry := by
    refine run_invariant (I := fun tr w => (∃ e ∈ tr, storesUnder key e.2 = true) →
      ∃ entry, OrderedDict.get? w.idem key = some entry) ?_ ?_ ?_ hc
    · rintro ⟨e, he, -⟩
      cases he
    · exact fun _ _ _ h => h
    · rintro c i x o - ih hok - - ⟨e, he, hstores⟩
      show ∃ entry, OrderedDict.get? (o.onStore P c.shared.clock c.shared.idem) key = some entry
      rcases mem_snoc.mp he with he | rfl
      · obtain ⟨entry, hentry⟩ := ih ⟨e, he, hstores⟩
        exact exists_onStore_of_oneAtATime hok hentry
      · -- the step itself stores
        unfold storesUnder at hstores
        split at hstores
        · rename_i k t payload result _ heq
          obtain rfl : k = key := of_decide_eq_true hstores
          obtain rfl : o = .idemSet k t payload result := congrArg Act.op heq
          exact ⟨_, OrderedDict.get?_set_self ..⟩
        · cases hstores
  obtain ⟨e, he, hstores⟩ := List.any_eq_true.mp h
  exact hinv ⟨(i, e), mem_historyOf.mp he, hstores⟩

/-- When the key is looked up, who looked it up before is settled. -/
theorem settled_of_lookUp {o : Op} {b : Config} {r : Except PyError Bool}
    (hok : oneAtATime key b j o = true) (ho : o = .checkConflict key payload) {p : Json}
    (hev : (i, (⟨.checkConflict key p, r⟩ : Event)) ∈ b.trace) :
    unexpired b key = true ∧ settledUnder b key i = true := by
  subst ho
  simp only [oneAtATime, ne_eq, not_true_eq_false, decide_false, Bool.false_or,
    Bool.and_eq_true, List.all_eq_true] at hok
  have := hok.2 _ hev
  simpa [looksUp, lookedUp?] using And.intro hok.1 this

theorem ended_of_settled (h : settledUnder c key i = true) : c.Ended i := by
  unfold settledUnder at h
  obtain ⟨outcome, houtcome⟩ := Option.isSome_iff_exists.mp (Bool.and_eq_true_iff.mp h).1
  exact Machine.Config.ended_of_outcome? houtcome

/-- An accepted request that is settled has stored its result. -/
theorem stored_of_settled (h : settledUnder c key i = true) (hacc : AcceptsIn c.trace i task) :
    (c.history i).any (storesUnder key) = true := by
  obtain ⟨e, he, haccepted⟩ := acceptsIn_iff.mp hacc
  have hany : (c.history i).any (fun e => (accepted? e).isSome) = true :=
    List.any_eq_true.mpr ⟨e, he, by rw [haccepted]; rfl⟩
  unfold settledUnder at h
  rw [hany, Bool.not_true, Bool.false_or, Bool.and_eq_true] at h
  exact h.2

/-- Where a lookup answered, the key is hashable. -/
theorem hashable_of_lookUp (hc : (system P).Reaches (Allows test) (World.init t₀) c) {b : Bool}
    (h : (i, (⟨.checkConflict key payload, .ok b⟩ : Event)) ∈ c.trace) : key.hashable = true := by
  obtain ⟨tr₁, tr₂, htr⟩ := List.append_of_mem h
  obtain ⟨d, x, k, s', -, -, -, -, hexec, -⟩ := hc.event htr
  obtain ⟨-, hanswer, -⟩ :=
    (exec_eq_some_iff (P := P) (o := .checkConflict key payload)).mp hexec
  exact IdempotencyStore.hashable_of_checkConflict hanswer.symm

/-- **Whoever looks the key up after an accepted request is not accepted.** -/
theorem not_accepted_after (hc : (system P).Reaches (Allows (oneAtATime key)) (World.init t₀) c)
    (hkey : key.truthy = true) {p p' : Json} {r r' : Except PyError Bool} {task' : PendingTask}
    {tr₁ tr₂ : Trace} (hacc : AcceptsIn c.trace i task) (hj : Carries P c j key p')
    (htr : c.trace = tr₁ ++ (j, ⟨.checkConflict key p', r'⟩) :: tr₂)
    (hbefore : (i, (⟨.checkConflict key p, r⟩ : Event)) ∈ tr₁) :
    ¬ AcceptsIn c.trace j task' := by
  intro hacc'
  obtain ⟨hidle, -⟩ := carries_of_checkConflict hc htr
  obtain ⟨b, -, -, -, hb, rfl, -, hok, -, hsteps⟩ := hc.event htr
  -- the accepted request was over by then, and its result stored
  obtain ⟨-, hsettled⟩ := settled_of_lookUp hok rfl hbefore
  obtain ⟨x, outcome, hends⟩ := ended_of_settled hsettled
  have haccb : AcceptsIn b.trace i task := by
    rw [acceptsIn_iff] at hacc ⊢
    have hhist : historyOf i c.trace = historyOf i b.trace := (Machine.ends_of_steps hsteps hends).2
    rwa [hhist] at hacc
  obtain ⟨e, he, hstores⟩ := List.any_eq_true.mp (stored_of_settled hsettled haccb)
  -- the later request's `get` comes after its lookup
  obtain ⟨hfree, hget⟩ := free_of_accepted hc hkey hj hacc'
  obtain ⟨tr₃, tr₄, htr'⟩ := List.append_of_mem hget
  obtain ⟨d, y, k, s', hd, rfl, hthread, hok', hexec, -⟩ := hc.event htr'
  have hle : b.trace <+: d.trace := by
    have hbc : b.trace <+: c.trace := htr ▸ List.prefix_append _ _
    have hdc : d.trace <+: c.trace := htr' ▸ List.prefix_append _ _
    rcases List.prefix_or_prefix_of_prefix hbc hdc with hle | hle
    · exact hle
    · obtain ⟨_, _, s₁, -, -, -, hhist⟩ := pre_of_thread hd hthread
      have hin : (⟨.checkConflict s₁.idemKey s₁.payload, .ok false⟩ : Event) ∈ d.history j := by
        rw [hhist]
        exact List.mem_singleton.mpr rfl
      have hin' := mem_historyOf.mpr (hle.subset (mem_historyOf.mp hin))
      rw [hidle] at hin'
      cases hin'
  have hstored : (d.history i).any (storesUnder key) = true :=
    List.any_eq_true.mpr ⟨e, mem_historyOf.mpr (hle.subset (mem_historyOf.mp he)), hstores⟩
  obtain ⟨entry, hentry⟩ := get?_of_stored hd hstored
  have hlive : unexpired d key = true := by
    have hget : oneAtATime key d j (.idemGet key) = true := hok'
    simpa [oneAtATime] using hget
  obtain ⟨-, hanswer, -⟩ := (exec_eq_some_iff (P := P) (o := .idemGet key)).mp hexec
  have hfound := IdempotencyStore.get_of_live (hashable_of_lookUp hc hfree)
    (live?_of_unexpired hlive hentry)
  cases hanswer.trans hfound

/-- **At most one request with the key is accepted.** -/
theorem accepted_once (hc : (system P).Reaches (Allows (oneAtATime key)) (World.init t₀) c)
    (hkey : key.truthy = true) {p p' : Json} {task' : PendingTask} (hi : Carries P c i key p)
    (hj : Carries P c j key p') (hacc : AcceptsIn c.trace i task)
    (hacc' : AcceptsIn c.trace j task') : i = j := by
  by_contra hne
  obtain ⟨hfree, -⟩ := free_of_accepted hc hkey hi hacc
  obtain ⟨hfree', -⟩ := free_of_accepted hc hkey hj hacc'
  rcases mem_before_or_after hfree hfree' fun h => hne (Prod.mk.inj h).1 with
    ⟨tr₁, tr₂, htr, hbefore⟩ | ⟨tr₁, tr₂, htr, hbefore⟩
  · exact not_accepted_after hc hkey hacc hj htr hbefore hacc'
  · exact not_accepted_after hc hkey hacc' hi htr hbefore hacc

/-- **A lookup with another payload finds the conflict**, once a request with the key
has been accepted. -/
theorem conflict_of_accepted (hc : (system P).Reaches (Allows (oneAtATime key)) (World.init t₀) c)
    (hkey : key.truthy = true) {p p' : Json} {r : Except PyError Bool} {tr₁ tr₂ : Trace}
    (hi : Carries P c i key p) (htr : c.trace = tr₁ ++ (j, ⟨.checkConflict key p', r⟩) :: tr₂)
    (hacc : AcceptsIn tr₁ i task) (hne : payloadHash P.digest p' ≠ payloadHash P.digest p) :
    r = .ok true := by
  obtain ⟨b, x, k, s', hb, rfl, -, hok, hexec, hsteps⟩ := hc.event htr
  have hib : Carries P b i key p := by
    obtain ⟨key', p'', hib⟩ := carries_of_accepted hb hacc
    obtain ⟨rfl, rfl⟩ := hi.unique (hib.of_steps hsteps)
    exact hib
  obtain ⟨hfree, -⟩ := free_of_accepted hb hkey hib hacc
  obtain ⟨hlive, hsettled⟩ := settled_of_lookUp hok rfl hfree
  obtain ⟨entry, hentry⟩ := get?_of_stored hb (stored_of_settled hsettled hacc)
  -- the entry is that of the accepted request
  obtain ⟨m, payload, hset, hhash⟩ := reaches_stored hb hentry
  obtain ⟨hm, taskm, haccm⟩ := accepted_of_idemSet hb hset
  obtain rfl := accepted_once hb hkey hm hib haccm hacc
  obtain ⟨-, rfl⟩ := hm.unique hib
  obtain ⟨-, hanswer, -⟩ := (exec_eq_some_iff (P := P) (o := .checkConflict key p')).mp hexec
  have hconflict := IdempotencyStore.checkConflict_of_live P.digest p' (hashable_of_lookUp hb hfree)
    (live?_of_unexpired hlive hentry)
  refine (hanswer.trans hconflict).trans ?_
  rw [hhash, bne_iff_ne.mpr hne]

/-- A request that has found a conflict is refused with -38004. -/
theorem refused_of_conflict (hc : (system P).Reaches (Allows test) (World.init t₀) c)
    (h : (i, (⟨.checkConflict key payload, .ok true⟩ : Event)) ∈ c.trace) {transport : Transport}
    {req : SendRequest} {outcome : Outcome}
    (hends : c.Ends i (.sendMessage transport req) outcome) :
    ∃ responses response, outcome = .replied responses ∧ response ∈ responses ∧
      errorCode? response = some (.int A2A_ERR_NON_IDEMPOTENT) := by
  have hin : (⟨.checkConflict key payload, .ok true⟩ : Event) ∈ c.history i := mem_historyOf.mpr h
  have hpost : sendPost P transport req (c.history i) outcome := post_of_ends hc hends
  unfold sendPost at hpost
  cases hplan : planSend P.table transport req with
  | error e =>
      rw [hplan] at hpost
      rw [hpost.1] at hin
      cases hin
  | ok plan =>
      rw [hplan] at hpost
      cases plan with
      | answer exit task =>
          rw [hpost.1] at hin
          cases hin
      | submit s =>
          obtain ⟨result, hawait, rfl⟩ := hpost
          obtain ⟨message, rfl⟩ := hawait.of_conflict hin
          cases transport with
          | jsonRpc => exact ⟨_, _, rfl, List.mem_cons_self, rfl⟩
          | rest => exact ⟨_, _, rfl, List.mem_cons_self, rfl⟩

/-- **A key admits one request.**  In a run in which the key is looked up only when
the earlier requests with it are settled, at most one request with it is accepted,
and from then on a request with another payload is refused with -38004.  Keys are JSON
values here (`TaskId`). -/
theorem key_admits_one (hc : (system P).Reaches (Allows (oneAtATime key)) (World.init t₀) c)
    (hkey : key.truthy = true) :
    (∀ i j p p' task task', Carries P c i key p → Carries P c j key p' →
      AcceptsIn c.trace i task → AcceptsIn c.trace j task' → i = j) ∧
    ∀ i j p p' r task tr₁ tr₂, Carries P c i key p → AcceptsIn tr₁ i task →
      c.trace = tr₁ ++ (j, ⟨.checkConflict key p', r⟩) :: tr₂ →
        payloadHash P.digest p' ≠ payloadHash P.digest p →
      r = .ok true ∧ ∀ transport req outcome, c.Ends j (.sendMessage transport req) outcome →
        ∃ responses response, outcome = .replied responses ∧ response ∈ responses ∧
          errorCode? response = some (.int A2A_ERR_NON_IDEMPOTENT) := by
  refine ⟨fun i j p p' task task' => accepted_once hc hkey, ?_⟩
  intro i j p p' r task tr₁ tr₂ hi hacc htr hne
  obtain rfl := conflict_of_accepted hc hkey hi htr hacc hne
  refine ⟨rfl, fun transport req outcome hends => ?_⟩
  have hev : (j, (⟨.checkConflict key p', .ok true⟩ : Event)) ∈ c.trace := by
    rw [htr]
    exact List.mem_append_right _ List.mem_cons_self
  exact refused_of_conflict hc hev hends

/-- Whose history looks a key up carries it. -/
theorem carries_of_lookedUp (hc : (system P).Reaches (Allows test) (World.init t₀) c)
    (h : (key, payload) ∈ (c.history i).filterMap lookedUp?) : Carries P c i key payload := by
  obtain ⟨e, he, hlooked⟩ := List.mem_filterMap.mp h
  obtain ⟨r, rfl⟩ := lookedUp?_eq_some hlooked
  obtain ⟨tr₁, tr₂, htr⟩ := List.append_of_mem (mem_historyOf.mp he)
  exact (carries_of_checkConflict hc htr).2

end Runs

/-! ### One request, and two -/

/-- Two messages under one key, the second with its own text and task id. -/
def keyedCalls : List Call :=
  [ .sendMessage .jsonRpc (.sample [("idempotencyKey", .str "k")] "hi"),
    .sendMessage .jsonRpc
      { SendRequest.sample [("idempotencyKey", .str "k")] "ho" with uuid := "uuid-3" },
    .postLlmCall (.str "uuid-1") "done" 0 0 ]

theorem acceptsIn_of_mem {c : Config} {i : ℕ} {task : PendingTask}
    (h : task ∈ (c.history i).filterMap accepted?) : AcceptsIn c.trace i task :=
  acceptsIn_iff.mpr (List.mem_filterMap.mp h)

/-- Thread `i` has looked a key up and had a message accepted. -/
def keyedRun (c : Config) (i : ℕ) : Option ((Json × Json) × PendingTask) := do
  let request ← ((c.history i).filterMap lookedUp?).head?
  let task ← ((c.history i).filterMap accepted?).head?
  return (request, task)

theorem keyedRun_eq_some {c : Config} {i : ℕ} {key payload : Json} {task : PendingTask}
    {test : Test} (hc : (system Platform.sample).Reaches (Allows test) (World.init 0) c)
    (h : keyedRun c i = some ((key, payload), task)) :
    Carries Platform.sample c i key payload ∧ AcceptsIn c.trace i task := by
  obtain ⟨request, hrequest, h⟩ := Option.bind_eq_some_iff.mp h
  obtain ⟨accepted, haccepted, h⟩ := Option.bind_eq_some_iff.mp h
  obtain ⟨rfl, rfl⟩ := Prod.mk.inj (Option.some.inj h)
  exact ⟨carries_of_lookedUp hc (List.mem_of_head? hrequest),
    acceptsIn_of_mem (List.mem_of_head? haccepted)⟩

/-- The first message is answered before the second comes: the second is not
accepted. -/
theorem second_request_refused :
    ∃ (c : Config) (task : PendingTask) (p : Json),
      (system Platform.sample).Reaches (Allows (oneAtATime (.str "k"))) (World.init 0) c ∧
        AcceptsIn c.trace 0 task ∧ Carries Platform.sample c 0 (.str "k") p ∧ c.Ended 1 ∧
          ∀ p' task', Carries Platform.sample c 1 (.str "k") p' → ¬ AcceptsIn c.trace 1 task' := by
  have hplay : (playSample (oneAtATime (.str "k"))
      (List.replicate 6 (.act 0) ++ List.replicate 3 (.act 2) ++ List.replicate 4 (.act 0) ++
        [.act 1])
      (Config.calling keyedCalls)).any (fun c =>
        decide ((keyedRun c 0).map (·.1.1) = some (.str "k")) && (c.outcome? 1).isSome) = true := by
    decide +kernel
  obtain ⟨c, hc, -, hp⟩ := exists_of_playCalls hplay
  obtain ⟨hrun, houtcome⟩ := Bool.and_eq_true_iff.mp hp
  obtain ⟨⟨⟨key, p⟩, task⟩, hrun, rfl⟩ := Option.map_eq_some_iff.mp (of_decide_eq_true hrun)
  obtain ⟨outcome, houtcome⟩ := Option.isSome_iff_exists.mp houtcome
  obtain ⟨hcarries, hacc⟩ := keyedRun_eq_some hc hrun
  refine ⟨c, task, p, hc, hacc, hcarries, Machine.Config.ended_of_outcome? houtcome, ?_⟩
  intro p' task' hcarries' hacc'
  have := (key_admits_one hc rfl).1 0 1 p p' task task' hcarries hcarries' hacc hacc'
  cases this

/-- The second message comes while the first is still running: both are accepted. -/
theorem second_request_accepted :
    ∃ (c : Config) (task task' : PendingTask) (p p' : Json),
      (system Platform.sample).Reaches (Allows anyStep) (World.init 0) c ∧
        Carries Platform.sample c 0 (.str "k") p ∧ Carries Platform.sample c 1 (.str "k") p' ∧
          payloadHash Platform.sample.digest p ≠ payloadHash Platform.sample.digest p' ∧
            AcceptsIn c.trace 0 task ∧ AcceptsIn c.trace 1 task' := by
  have hplay : (playSample anyStep (List.replicate 6 (.act 0) ++ List.replicate 6 (.act 1))
      (Config.calling keyedCalls)).any (fun c =>
        (keyedRun c 0).any fun r => (keyedRun c 1).any fun r' =>
          decide (r.1.1 = .str "k" ∧ r'.1.1 = .str "k" ∧
            payloadHash Platform.sample.digest r.1.2 ≠
              payloadHash Platform.sample.digest r'.1.2)) = true := by
    decide +kernel
  obtain ⟨c, hc, -, hp⟩ := exists_of_playCalls hplay
  obtain ⟨⟨⟨key, p⟩, task⟩, hrun, hp⟩ := (Option.any_eq_true _ _).mp hp
  obtain ⟨⟨⟨key', p'⟩, task'⟩, hrun', hp⟩ := (Option.any_eq_true _ _).mp hp
  obtain ⟨rfl, rfl, hne⟩ := of_decide_eq_true hp
  obtain ⟨hcarries, hacc⟩ := keyedRun_eq_some hc hrun
  obtain ⟨hcarries', hacc'⟩ := keyedRun_eq_some hc hrun'
  exact ⟨c, task, task', p, p', hc, hcarries, hcarries', hne, hacc, hacc'⟩

end HermesA2A
