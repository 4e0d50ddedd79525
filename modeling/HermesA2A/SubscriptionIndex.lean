import HermesA2A.Lib.Sequential
import HermesA2A.Server.Push
import HermesA2A.StreamIndex

/-!
# The subscriptions and their index

`SubscriptionStore` keeps the subscriptions in one dictionary and the ids of each task in
another.  `add` begins with a cleanup where more than ten are stored, whatever their age.

What the store is for is said by `LiveSubscriptions`: a list of what was added and neither
removed nor cleaned up.

* `removed_discard`, `removed_cleanupExpired` — the removals take from the index what they
  take from the store.
* `Mirrors` — the store has what is live, under its own ids and in its index;
  `Mirrors.on` is the step lemma.
* `subscriptions_exact` — so it is in every run, and `get` and a cleanup answer accordingly.
-/

namespace HermesA2A

open GroupIndex

/-- Older than `max_age`? -/
def Subscription.expired (now maxAge : Time) (sub : Subscription) : Bool :=
  decide (now - sub.createdAt > maxAge)

/-- What `_cleanup_expired_locked` answers. -/
def SubscriptionStore.cleanupCount (s : SubscriptionStore) (now maxAge : Time) : ℕ :=
  if s.store.length = 0 then 0
  else (s.store.values.filter fun sub => now - sub.createdAt > maxAge).length

/-- The operations of the store. -/
inductive SubscriptionCall
  | add (now createdAt : Time) (t : TaskKey) (url hmacKey : Json)
  | remove (id : ℕ)
  | cleanup (now : Time)

/-- What an operation does to the store. -/
def SubscriptionCall.on (maxAge : Time) : SubscriptionCall → SubscriptionStore → SubscriptionStore
  | add now createdAt t url hmacKey, s => (s.addAt now createdAt maxAge t.1 url hmacKey).2
  | remove id, s => (s.remove id).2
  | cleanup now, s => s.cleanupExpired now maxAge

/-- **What the store is to hold**: the subscriptions that were added and neither removed nor
cleaned up, and the next id. -/
structure LiveSubscriptions where
  subs : List Subscription
  next : ℕ

/-- What an operation does to what is live. -/
def SubscriptionCall.onLive (maxAge : Time) :
    SubscriptionCall → LiveSubscriptions → LiveSubscriptions
  | add now createdAt t url hmacKey, ⟨subs, next⟩ =>
      ⟨(if subs.length > 10 then subs.filter (fun sub => !sub.expired now maxAge) else subs) ++
        [⟨next, t.1, url, hmacKey, createdAt⟩], next + 1⟩
  | remove id, ⟨subs, next⟩ => ⟨subs.filter fun sub => sub.subscriptionId ≠ id, next⟩
  | cleanup now, ⟨subs, next⟩ => ⟨subs.filter fun sub => !sub.expired now maxAge, next⟩

/-! ### The removals -/

namespace SubscriptionStore

/-- The index lists the subscriptions of each task. -/
abbrev Coherent (s : SubscriptionStore) : Prop :=
  GroupIndex.Coherent Subscription.taskId s.store s.byTask

/-- One store has the subscriptions of another that `keep` says, and its index so. -/
abbrev RemovedTo (keep : ℕ → Bool) (s s' : SubscriptionStore) : Prop :=
  Removed keep s.store s'.store s.byTask s'.byTask

/-- Each subscription is stored under its own id. -/
def Filed (s : SubscriptionStore) : Prop :=
  ∀ id sub, s.store.get? id = some sub → sub.subscriptionId = id

variable {s s' : SubscriptionStore} {sub : Subscription} {now maxAge : Time}

theorem get?_byTask_discard (t : TaskId) :
    (s.discard sub).byTask.get? t =
      if t = sub.taskId then (s.byTask.get? t).map (·.erase sub.subscriptionId)
      else s.byTask.get? t := by
  unfold discard
  cases hget : s.byTask.get? sub.taskId with
  | none =>
      by_cases ht : t = sub.taskId
      · simp [ht, hget]
      · simp [ht]
  | some ids =>
      by_cases ht : t = sub.taskId
      · simp [ht, hget]
      · simp [ht, OrderedDict.get?_set]

theorem removed_discard (h : s.Coherent) (hget : s.store.get? sub.subscriptionId = some sub) :
    RemovedTo (fun id => id ≠ sub.subscriptionId) s (s.discard sub) := by
  refine removed_erase h hget fun t => ?_
  exact get?_byTask_discard t

theorem Filed.get? (h : s.Filed) (hmem : sub ∈ s.store.values) :
    s.store.get? sub.subscriptionId = some sub := by
  obtain ⟨id, hget⟩ := OrderedDict.mem_values_iff_get?.mp hmem
  rw [h id sub hget]
  exact hget

theorem Filed.map_subscriptionId (h : s.Filed) :
    s.store.values.map Subscription.subscriptionId = s.store.keys := by
  rw [OrderedDict.values, OrderedDict.keys, List.map_map]
  refine List.map_congr_left fun e he => ?_
  exact h e.1 e.2 (OrderedDict.get?_eq_some_iff.mpr he)

/-- What stays was there. -/
theorem Filed.removed {keep : ℕ → Bool} (h : s.Filed) (hr : RemovedTo keep s s') : s'.Filed := by
  intro id sub hget
  rw [hr.get?, Option.filter_eq_some_iff] at hget
  exact h id sub hget.1

/-- The ids that a cleanup removes. -/
def expiredIds (s : SubscriptionStore) (now maxAge : Time) : List ℕ :=
  (s.store.values.filter (·.expired now maxAge)).map Subscription.subscriptionId

/-- `_cleanup_expired_locked` -/
theorem removed_cleanupExpired (h : s.Coherent) (hfiled : s.Filed) :
    RemovedTo (fun id => id ∉ s.expiredIds now maxAge) s (s.cleanupExpired now maxAge) := by
  refine removed_foldl store byTask Subscription.subscriptionId id
    (fun s sub hs hget => removed_discard hs hget) _ ?_ s h fun sub hsub => ?_
  · have hnodup : (s.store.values.map Subscription.subscriptionId).Nodup := by
      rw [hfiled.map_subscriptionId]
      exact s.store.nodup_keys
    exact hnodup.sublist (List.filter_sublist.map _)
  · exact hfiled.get? (List.mem_filter.mp hsub).1

/-- An id is cleaned up exactly if its subscription is too old. -/
theorem mem_expiredIds_iff (hfiled : s.Filed) {id : ℕ} (hget : s.store.get? id = some sub) :
    id ∈ s.expiredIds now maxAge ↔ sub.expired now maxAge = true := by
  constructor
  · intro h
    obtain ⟨sub', hsub', rfl⟩ := List.mem_map.mp h
    obtain ⟨hmem, hold⟩ := List.mem_filter.mp hsub'
    rw [hfiled.get? hmem] at hget
    exact Option.some.inj hget ▸ hold
  · intro hold
    rw [← hfiled id sub hget]
    refine List.mem_map_of_mem (List.mem_filter.mpr ⟨?_, hold⟩)
    exact OrderedDict.mem_values_iff_get?.mpr ⟨id, hget⟩

/-- The subscriptions that stay, in their order. -/
theorem values_of_removed {keep : ℕ → Bool} {p : Subscription → Bool} (hr : RemovedTo keep s s')
    (hp : ∀ id sub, s.store.get? id = some sub → keep id = p sub) :
    s'.store.values = s.store.values.filter p := by
  rw [OrderedDict.values, hr.entries, OrderedDict.values, List.filter_map]
  congr 1
  refine List.filter_congr fun e he => ?_
  exact hp e.1 e.2 (OrderedDict.get?_eq_some_iff.mpr he)

/-- **A cleanup removes the subscriptions that are too old, and no other.** -/
theorem values_cleanupExpired (h : s.Coherent) (hfiled : s.Filed) :
    (s.cleanupExpired now maxAge).store.values =
      s.store.values.filter fun sub => !sub.expired now maxAge := by
  refine values_of_removed (removed_cleanupExpired h hfiled) fun id sub hget => ?_
  rw [Bool.eq_iff_iff, decide_eq_true_iff, mem_expiredIds_iff hfiled hget]
  simp

/-- **It answers with their number.** -/
theorem cleanupCount_eq (s : SubscriptionStore) (now maxAge : Time) :
    s.cleanupCount now maxAge = (s.store.values.filter (·.expired now maxAge)).length := by
  unfold cleanupCount
  split_ifs with hempty
  · have hnil : s.store.values = [] :=
      List.length_eq_zero_iff.mp ((List.length_map _).trans hempty)
    rw [hnil]
    rfl
  · rfl

theorem next_cleanupExpired (s : SubscriptionStore) (now maxAge : Time) :
    (s.cleanupExpired now maxAge).next = s.next := by
  unfold cleanupExpired
  generalize s.store.values.filter (fun sub => now - sub.createdAt > maxAge) = subs
  induction subs generalizing s with
  | nil => rfl
  | cons sub subs ih => exact ih (s.discard sub)

/-! ### What is live -/

/-- **The store has what is live**, under its own ids and in its index. -/
structure Mirrors (live : LiveSubscriptions) (s : SubscriptionStore) : Prop where
  values : s.store.values = live.subs
  next : s.next = live.next
  index : s.Coherent
  filed : s.Filed
  fresh : ∀ id ∈ s.store, id < s.next

variable {live : LiveSubscriptions}

theorem mirrors_empty : Mirrors ⟨[], 0⟩ empty where
  values := rfl
  next := rfl
  index := coherent_empty _
  filed _ _ h := by cases h
  fresh _ h := absurd h (OrderedDict.notMem_empty _)

theorem Mirrors.removed {keep : ℕ → Bool} {p : Subscription → Bool} (h : Mirrors live s)
    (hr : RemovedTo keep s s') (hnext : s'.next = s.next)
    (hp : ∀ id sub, s.store.get? id = some sub → keep id = p sub) :
    Mirrors ⟨live.subs.filter p, live.next⟩ s' where
  values := by rw [values_of_removed hr hp, h.values]
  next := hnext.trans h.next
  index := hr.coherent h.index
  filed := h.filed.removed hr
  fresh id hmem := by
    obtain ⟨sub, hget⟩ := OrderedDict.mem_iff_exists.mp hmem
    rw [hr.get?, Option.filter_eq_some_iff] at hget
    rw [hnext]
    exact h.fresh id (OrderedDict.mem_of_get? hget.1)

theorem Mirrors.cleanup (h : Mirrors live s) (now maxAge : Time) :
    Mirrors ⟨live.subs.filter fun sub => !sub.expired now maxAge, live.next⟩
      (s.cleanupExpired now maxAge) := by
  refine h.removed (removed_cleanupExpired h.index h.filed) (next_cleanupExpired ..) ?_
  intro id sub hget
  rw [Bool.eq_iff_iff, decide_eq_true_iff, mem_expiredIds_iff h.filed hget]
  simp

theorem Mirrors.remove (h : Mirrors live s) (id : ℕ) :
    Mirrors ⟨live.subs.filter fun sub => sub.subscriptionId ≠ id, live.next⟩ (s.remove id).2 := by
  unfold SubscriptionStore.remove
  cases hget : s.store.get? id with
  | none =>
      -- there is nothing to filter out
      have hall : live.subs.filter (fun sub => sub.subscriptionId ≠ id) = live.subs := by
        refine List.filter_eq_self.mpr fun sub hsub => decide_eq_true fun heq => ?_
        have hsome := h.filed.get? (h.values ▸ hsub)
        rw [heq, hget] at hsome
        cases hsome
      rw [hall]
      exact h
  | some sub =>
      have hid := h.filed id sub hget
      subst hid
      refine h.removed (removed_discard h.index hget) rfl fun id' sub' hget' => ?_
      rw [h.filed id' sub' hget']

/-- A new subscription. -/
theorem Mirrors.store (h : Mirrors live s) (t : TaskId) (url hmacKey : Json) (createdAt : Time) :
    Mirrors ⟨live.subs ++ [⟨live.next, t, url, hmacKey, createdAt⟩], live.next + 1⟩
      { store := s.store.set s.next ⟨s.next, t, url, hmacKey, createdAt⟩
        byTask := file s.byTask t s.next
        next := s.next + 1 } := by
  have hnew : s.next ∉ s.store := fun hmem => (h.fresh _ hmem).false
  refine ⟨?_, congrArg (· + 1) h.next, h.index.file ⟨s.next, t, url, hmacKey, createdAt⟩ hnew,
    fun id sub hget => ?_, fun id hmem => ?_⟩
  · have hentries := OrderedDict.entries_set_of_notMem
      (⟨s.next, t, url, hmacKey, createdAt⟩ : Subscription) hnew
    show List.map Prod.snd (OrderedDict.set ..).entries = _
    rw [hentries, List.map_append, ← h.values, ← h.next]
    rfl
  · rw [OrderedDict.get?_set] at hget
    split_ifs at hget with hid
    · rw [← Option.some.inj hget, hid]
    · exact h.filed id sub hget
  · rcases OrderedDict.mem_set_iff.mp hmem with rfl | hmem
    · exact Nat.lt_succ_self _
    · exact (h.fresh id hmem).trans (Nat.lt_succ_self _)

/-- **Every operation keeps them in step.** -/
theorem Mirrors.on (h : Mirrors live s) (maxAge : Time) (o : SubscriptionCall) :
    Mirrors (o.onLive maxAge live) (o.on maxAge s) := by
  cases o with
  | add now createdAt t url hmacKey =>
      have hlen : s.store.length = live.subs.length := by
        rw [← h.values]
        exact (List.length_map _).symm
      show Mirrors ⟨(if live.subs.length > 10 then _ else _) ++ _, _⟩ _
      rw [← hlen]
      show Mirrors _ (s.addAt ..).2
      unfold addAt
      by_cases hmany : s.store.length > 10
      · rw [if_pos hmany, if_pos hmany]
        exact (h.cleanup now maxAge).store t.1 url hmacKey createdAt
      · rw [if_neg hmany, if_neg hmany]
        exact h.store t.1 url hmacKey createdAt
  | remove id => exact h.remove id
  | cleanup now => exact h.cleanup now maxAge

/-- `get` answers with what is live for the task. -/
theorem Mirrors.subscriptionsOf (h : Mirrors live s) (t : TaskKey) :
    s.subscriptionsOf t.1 = .ok (live.subs.filter fun sub => sub.taskId = t.1) := by
  have hlisted : listed s.byTask t.1 = members Subscription.taskId s.store t.1 := h.index t.1
  unfold SubscriptionStore.subscriptionsOf
  rw [if_pos t.2]
  show Except.ok ((listed s.byTask t.1).filterMap s.store.get?) = _
  rw [hlisted, members, OrderedDict.filterMap_get?_map_fst fun e he => (List.mem_filter.mp he).1,
    ← h.values, OrderedDict.values, List.filter_map]
  rfl

end SubscriptionStore

/-! ### Runs -/

/-- The store after a sequence of operations. -/
abbrev subscriptionsAfter (maxAge : Time) (calls : List SubscriptionCall) : SubscriptionStore :=
  Sequential.run (SubscriptionCall.on maxAge) calls .empty

/-- What is live after a sequence of operations. -/
abbrev liveAfter (maxAge : Time) (calls : List SubscriptionCall) : LiveSubscriptions :=
  Sequential.run (SubscriptionCall.onLive maxAge) calls ⟨[], 0⟩

theorem mirrors_after (maxAge : Time) (calls : List SubscriptionCall) :
    SubscriptionStore.Mirrors (liveAfter maxAge calls) (subscriptionsAfter maxAge calls) :=
  Sequential.run_simulation (R := fun s live => SubscriptionStore.Mirrors live s)
    (fun o _ _ h => h.on maxAge o) calls SubscriptionStore.mirrors_empty

/-- **The store and its index are right in every run**: the index has the ids of the stored
subscriptions of each task; `get` answers with what is live for the task, each subscription
once; and a cleanup removes what is too old, and answers with how much that was. -/
theorem subscriptions_exact (maxAge : Time) (calls : List SubscriptionCall) :
    (∀ t id, id ∈ listed (subscriptionsAfter maxAge calls).byTask t ↔
      ∃ sub, (subscriptionsAfter maxAge calls).store.get? id = some sub ∧ sub.taskId = t) ∧
    (∀ t : TaskKey, ∃ subs, (subscriptionsAfter maxAge calls).subscriptionsOf t.1 = .ok subs ∧
      subs.Perm ((liveAfter maxAge calls).subs.filter fun sub => sub.taskId = t.1) ∧
      (subs.map Subscription.subscriptionId).Nodup) ∧
    ∀ now, ((subscriptionsAfter maxAge calls).cleanupExpired now maxAge).store.values =
        (subscriptionsAfter maxAge calls).store.values.filter
          (fun sub => !sub.expired now maxAge) ∧
      (subscriptionsAfter maxAge calls).cleanupCount now maxAge =
        ((subscriptionsAfter maxAge calls).store.values.filter
          (fun sub => sub.expired now maxAge)).length := by
  have h := mirrors_after maxAge calls
  refine ⟨fun t id => h.index.mem_listed_iff, fun t => ⟨_, h.subscriptionsOf t, .refl _, ?_⟩,
    fun now => ⟨SubscriptionStore.values_cleanupExpired h.index h.filed,
      SubscriptionStore.cleanupCount_eq ..⟩⟩
  have hnodup : ((liveAfter maxAge calls).subs.map Subscription.subscriptionId).Nodup := by
    rw [← h.values, h.filed.map_subscriptionId]
    exact (subscriptionsAfter maxAge calls).store.nodup_keys
  exact hnodup.sublist (List.filter_sublist.map _)

end HermesA2A
