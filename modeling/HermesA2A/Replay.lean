import HermesA2A.Runs

/-!
# Where a stored result comes from

The idempotency store is written by one step, the `set` at the end of a
SendMessage that was answered.  So whatever is in the store, and whatever `get`
has answered, was put there by such a thread: `reaches_stored`,
`idemSet_of_replay`, and `spec_of_idemSet` for what that thread had done.
-/

namespace HermesA2A

open Machine

/-- Some thread stored `entry` under `key`. -/
def StoredIn (P : Platform) (tr : Trace) (key : Json) (entry : IdempotencyEntry) : Prop :=
  ∃ i payload, (i, (⟨.idemSet key entry.taskId payload entry.result, ()⟩ : Event)) ∈ tr ∧
    entry.payloadHash = payloadHash P.digest payload

theorem StoredIn.snoc {P : Platform} {tr : Trace} {key : Json} {entry : IdempotencyEntry}
    {e : ℕ × Event} (h : StoredIn P tr key entry) : StoredIn P (tr ++ [e]) key entry := by
  obtain ⟨i, payload, h, hhash⟩ := h
  exact ⟨i, payload, List.mem_append_left _ h, hhash⟩

/-- **The one way into the store.** -/
theorem get?_onStore {P : Platform} {clock : Time} {o : Op} {store : IdempotencyStore} {key : Json}
    {entry : IdempotencyEntry}
    (h : OrderedDict.get? (o.onStore P clock store) key = some entry) :
    OrderedDict.get? store key = some entry ∨
      ∃ t payload result, o = .idemSet key t payload result ∧
        entry = ⟨t, payloadHash P.digest payload, result, clock + IDEM_TTL_SECONDS⟩ := by
  cases o with
  | checkConflict k payload =>
      refine Or.inl ?_
      change OrderedDict.get? (store.checkConflict P.digest clock k payload).2 key = _ at h
      unfold IdempotencyStore.checkConflict at h
      split at h
      · exact IdempotencyStore.get?_of_dropExpired h
      · exact h
  | idemGet k =>
      refine Or.inl ?_
      change OrderedDict.get? (store.get clock k).2 key = _ at h
      unfold IdempotencyStore.get at h
      split at h
      · exact IdempotencyStore.get?_of_dropExpired h
      · exact h
  | idemSet k t payload result =>
      change OrderedDict.get? (OrderedDict.set store k _) key = _ at h
      rw [OrderedDict.get?_set] at h
      split_ifs at h with hk
      · subst hk
        exact Or.inr ⟨t, payload, result, rfl, (Option.some.inj h).symm⟩
      · exact Or.inl h
  | evictExpired =>
      refine Or.inl ?_
      change OrderedDict.get? (store.evictExpired clock) key = _ at h
      rw [IdempotencyStore.get?_evictExpired] at h
      exact (IdempotencyStore.live?_eq_some_iff.mp h).1
  | _ => exact Or.inl h

/-- What `get` answers was stored. -/
theorem get?_of_get {clock : Time} {store : IdempotencyStore} {key result : Json} {t : TaskId}
    (h : (store.get clock key).1 = .ok (some (t, result))) :
    ∃ entry, OrderedDict.get? store key = some entry ∧ entry.taskId = t ∧
      entry.result = result := by
  unfold IdempotencyStore.get at h
  split at h
  · obtain ⟨entry, hlive, heq⟩ := Option.map_eq_some_iff.mp (Except.ok.inj h)
    obtain ⟨rfl, rfl⟩ := Prod.mk.inj heq
    exact ⟨entry, (IdempotencyStore.live?_eq_some_iff.mp hlive).1, rfl, rfl⟩
  · cases h

section Runs

variable {P : Platform} {test : Test} {t₀ : Time} {c : Config}

/-- **Everything in the store was stored by a thread.** -/
theorem reaches_stored (hc : (system P).Reaches (Allows test) (World.init t₀) c) {key : Json}
    {entry : IdempotencyEntry} (h : OrderedDict.get? c.shared.idem key = some entry) :
    StoredIn P c.trace key entry := by
  have hinv : ∀ key entry, OrderedDict.get? c.shared.idem key = some entry →
      StoredIn P c.trace key entry := by
    refine run_invariant (I := fun tr w => ∀ key entry,
      OrderedDict.get? w.idem key = some entry → StoredIn P tr key entry) ?_ ?_ ?_ hc
    · intro key entry h
      cases h
    · exact fun _ _ _ h => h
    · intro c i x o _ ih _ _ _ key entry h
      rcases get?_onStore h with h | ⟨t, payload, result, rfl, rfl⟩
      · exact (ih key entry h).snoc
      · exact ⟨i, payload, mem_snoc.mpr (Or.inr rfl), rfl⟩
  exact hinv key entry h

/-- **A replayed result was stored by a thread.** -/
theorem idemSet_of_replay (hc : (system P).Reaches (Allows test) (World.init t₀) c) {i : ℕ}
    {key result : Json} {t : TaskId}
    (h : (i, (⟨.idemGet key, .ok (some (t, result))⟩ : Event)) ∈ c.trace) :
    ∃ j payload, (j, (⟨.idemSet key t payload result, ()⟩ : Event)) ∈ c.trace := by
  induction hc with
  | refl => cases h
  | tail hreach hstep ih =>
      cases hstep with
      | call => exact ih h
      | env => exact ih h
      | act thread guard exec =>
          obtain ⟨-, rfl, rfl⟩ := exec_eq_some_iff.mp exec
          rcases mem_snoc.mp h with h | h
          · obtain ⟨j, payload, h⟩ := ih h
            exact ⟨j, payload, List.mem_append_left _ h⟩
          · obtain ⟨-, h⟩ := Prod.mk.inj h
            generalize hr : Op.answer P _ _ = r at h
            cases h
            obtain ⟨entry, hentry, rfl, rfl⟩ := get?_of_get hr
            obtain ⟨j, payload, h, -⟩ := reaches_stored hreach hentry
            exact ⟨j, payload, List.mem_append_left _ h⟩

/-- What a thread had done when it stored a result. -/
theorem spec_of_idemSet (hc : (system P).Reaches (Allows test) (World.init t₀) c) {j : ℕ}
    {key payload result : Json} {t : TaskId}
    (h : (j, (⟨.idemSet key t payload result, ()⟩ : Event)) ∈ c.trace) :
    ∃ transport req s createdAt task start response₀ response,
      (∃ x, c.Calls j x ∧ x.Submits P transport req s) ∧ key = s.idemKey ∧ t = s.taskId ∧
        payload = s.payload ∧ result = completedTask s req.stamp task response ∧
          ∀ a ∈ readHistory P s createdAt task start response₀ response, (j, a) ∈ c.trace := by
  obtain ⟨tr₁, tr₂, htr⟩ := List.append_of_mem h
  obtain ⟨x, hx, transport, req, s, createdAt, task, start, response₀, response, hsub, -, hkey, ht,
    hpayload, hresult, hhist⟩ := hc.event_pre (Call.meets P) htr
  refine ⟨transport, req, s, createdAt, task, start, response₀, response, ⟨x, hx, hsub⟩, hkey, ht,
    hpayload, hresult, fun a ha => ?_⟩
  rw [← hhist, mem_historyOf] at ha
  rw [htr]
  exact List.mem_append_left _ ha

end Runs

end HermesA2A
