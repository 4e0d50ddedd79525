import HermesA2A.SubscriptionIndex

/-!
# Empty entries of the indexes

Both indexes are emptied id by id: `close_stream`, the idle sweep, `remove` and the cleanup
take an id from under its task, and none of them looks whether it was the last one.  The
task then stays in the index with nothing under it, for good, and a server that gets a new
task with each request has an index that only grows.

* `StreamerCall.SparesLast`, `SubscriptionCall.SparesLast` — the operation leaves each task
  an id that had one.
* `tidy_on_iff`, for both — a tidy index stays tidy exactly under such operations.
* `leakproof_iff` — and so over runs: the indexes do not leak exactly as long as no last id
  is taken.
-/

namespace HermesA2A

open GroupIndex

/-- The operation takes no last stream of a task. -/
def StreamerCall.SparesLast (timeout : Time) : StreamerCall → SseStreamer → Prop
  | closeStream id, s => ∀ stream, s.streams.get? id = some stream →
      ∃ id' stream', s.streams.get? id' = some stream' ∧ stream'.taskId = stream.taskId ∧
        id' ≠ id
  | closeIdleStreams now, s => ∀ id stream, s.streams.get? id = some stream →
      ∃ id' stream', s.streams.get? id' = some stream' ∧ stream'.taskId = stream.taskId ∧
        SseStreamer.idle now timeout stream' = false
  | _, _ => True

/-- The operation takes no last subscription of a task; the one that `add` adds to its own
task counts. -/
def SubscriptionCall.SparesLast (maxAge : Time) : SubscriptionCall → SubscriptionStore → Prop
  | add now _ t _ _, s => s.store.length > 10 →
      ∀ id sub, s.store.get? id = some sub → sub.taskId ≠ t.1 →
        ∃ id' sub', s.store.get? id' = some sub' ∧ sub'.taskId = sub.taskId ∧
          sub'.expired now maxAge = false
  | remove id, s => ∀ sub, s.store.get? id = some sub →
      ∃ id' sub', s.store.get? id' = some sub' ∧ sub'.taskId = sub.taskId ∧ id' ≠ id
  | cleanup now, s => ∀ id sub, s.store.get? id = some sub →
      ∃ id' sub', s.store.get? id' = some sub' ∧ sub'.taskId = sub.taskId ∧
        sub'.expired now maxAge = false

/-! ### The streams -/

namespace SseStreamer

variable {s : SseStreamer} {timeout : Time}

/-- The index of the streams does not leak. -/
abbrev NoLeak (s : SseStreamer) : Prop := Leakproof SseStream.taskId s.streams s.byTask

/-- **One step.** -/
theorem tidy_on_iff (h : s.Coherent) (htidy : Tidy s.byTask) (o : StreamerCall) :
    Tidy (o.on timeout s).byTask ↔ o.SparesLast timeout s := by
  have hsame : ∀ {byTask : OrderedDict TaskId (List StreamId)}, byTask = s.byTask →
      (Tidy byTask ↔ True) := fun heq => iff_of_true (heq ▸ htidy) trivial
  cases o with
  | openStream now t =>
      show Tidy (s.openStream now t.1).2.byTask ↔ True
      rw [byTask_openStream, tidy_file_iff]
      exact iff_of_true (fun t' _ hmem => htidy t' hmem) trivial
  | pushEvent now timestamp id event => exact hsame (byTask_pushEvent ..)
  | getPending id => exact hsame (byTask_getPending ..)
  | closeStream id =>
      cases hget : s.streams.get? id with
      | none =>
          have hno : s.closeStream id = s := by
            unfold closeStream
            rw [hget]
          show Tidy (s.closeStream id).byTask ↔ _
          rw [hno]
          exact iff_of_true htidy fun stream hstream => by rw [hget] at hstream; cases hstream
      | some stream =>
          refine ((removed_closeStream h hget).tidy_erase_iff h htidy hget).trans ?_
          constructor
          · intro hlast stream' hget'
            rw [hget] at hget'
            exact Option.some.inj hget' ▸ hlast
          · exact fun hlast => hlast stream hget
  | closeIdleStreams now =>
      refine ((removed_closeIdleStreams h).tidy_iff h htidy).trans ?_
      refine forall₃_congr fun id stream _ => exists₂_congr fun id' stream' => ?_
      refine and_congr_right fun hget' => and_congr_right fun _ => ?_
      rw [decide_eq_true_iff, mem_idleIds_iff hget', Bool.not_eq_true]

end SseStreamer

/-! ### The subscriptions -/

namespace SubscriptionStore

variable {live : LiveSubscriptions} {s : SubscriptionStore} {maxAge : Time}

/-- The index of the subscriptions does not leak. -/
abbrev NoLeak (s : SubscriptionStore) : Prop := Leakproof Subscription.taskId s.store s.byTask

/-- An id stays in a cleanup exactly if its subscription is young enough. -/
theorem notMem_expiredIds_iff (hfiled : s.Filed) {id : ℕ} {sub : Subscription} {now : Time}
    (hget : s.store.get? id = some sub) :
    decide (id ∉ s.expiredIds now maxAge) = true ↔ sub.expired now maxAge = false := by
  rw [decide_eq_true_iff, mem_expiredIds_iff hfiled hget, Bool.not_eq_true]

/-- **One step.** -/
theorem tidy_on_iff (h : Mirrors live s) (htidy : Tidy s.byTask) (o : SubscriptionCall) :
    Tidy (o.on maxAge s).byTask ↔ o.SparesLast maxAge s := by
  cases o with
  | add now createdAt t url hmacKey =>
      show Tidy (s.addAt now createdAt maxAge t.1 url hmacKey).2.byTask ↔ (_ → _)
      unfold addAt
      by_cases hmany : s.store.length > 10
      · rw [if_pos hmany]
        -- the task of the new subscription has one, whatever the cleanup took
        refine tidy_file_iff.trans ?_
        have hr : RemovedTo (fun id => id ∉ s.expiredIds now maxAge) s
            (s.cleanupExpired now maxAge) := removed_cleanupExpired h.index h.filed
        constructor
        · intro hall _ id sub hget hne
          obtain ⟨id', hid', hkeep⟩ :=
            (hr.tidy_at_iff h.index htidy).mp (hall sub.taskId hne)
              ⟨id, mem_members_iff.mpr ⟨sub, hget, rfl⟩⟩
          obtain ⟨sub', hget', htask⟩ := mem_members_iff.mp hid'
          exact ⟨id', sub', hget', htask, (notMem_expiredIds_iff h.filed hget').mp hkeep⟩
        · intro hlast t' hne
          refine (hr.tidy_at_iff h.index htidy).mpr ?_
          rintro ⟨id, hid⟩
          obtain ⟨sub, hget, rfl⟩ := mem_members_iff.mp hid
          obtain ⟨id', sub', hget', htask, hyoung⟩ := hlast hmany id sub hget hne
          exact ⟨id', mem_members_iff.mpr ⟨sub', hget', htask⟩,
            (notMem_expiredIds_iff h.filed hget').mpr hyoung⟩
      · rw [if_neg hmany]
        refine iff_of_true ?_ fun hmany' => absurd hmany' hmany
        exact tidy_file_iff.mpr fun t' _ hmem => htidy t' hmem
  | remove id =>
      show Tidy (s.remove id).2.byTask ↔ ∀ sub, _
      unfold SubscriptionStore.remove
      cases hget : s.store.get? id with
      | none => exact iff_of_true htidy fun sub hsub => by cases hsub
      | some sub =>
          have hid := h.filed id sub hget
          subst hid
          refine ((removed_discard h.index hget).tidy_erase_iff h.index htidy hget).trans ?_
          constructor
          · exact fun hlast sub' hsub' => Option.some.inj hsub' ▸ hlast
          · exact fun hlast => hlast sub rfl
  | cleanup now =>
      refine ((removed_cleanupExpired h.index h.filed).tidy_iff h.index htidy).trans ?_
      refine forall₃_congr fun id sub _ => exists₂_congr fun id' sub' => ?_
      refine and_congr_right fun hget' => and_congr_right fun _ => ?_
      exact notMem_expiredIds_iff h.filed hget'

end SubscriptionStore

/-! ### Runs -/

/-- **The indexes do not leak exactly as long as no last id is taken**: in every state of a
run of the streamer, and of the subscription store, there are no more task keys than streams
or subscriptions, and each task that is in the index has one, if and only if all operations of
the run spare the last. -/
theorem leakproof_iff (timeout maxAge : Time) :
    (∀ calls, Sequential.Always (StreamerCall.on timeout) SseStreamer.NoLeak calls .empty ↔
      Sequential.Each (StreamerCall.on timeout) (StreamerCall.SparesLast timeout) calls .empty) ∧
    ∀ calls, Sequential.Always (SubscriptionCall.on maxAge) SubscriptionStore.NoLeak calls .empty ↔
      Sequential.Each (SubscriptionCall.on maxAge) (SubscriptionCall.SparesLast maxAge) calls
        .empty := by
  have htidy : ∀ {γ κ : Type} [DecidableEq γ], Tidy (.empty : OrderedDict γ (List κ)) :=
    fun g hg => absurd hg (OrderedDict.notMem_empty g)
  constructor
  · intro calls
    refine Sequential.always_iff_each (J := SseStreamer.Coherent)
      (fun o s h => SseStreamer.coherent_on o h) (fun o s h hleak => ?_) (coherent_empty _)
      ((coherent_empty _).leakproof_iff_tidy.mpr htidy)
    refine (SseStreamer.coherent_on o h).leakproof_iff_tidy.trans ?_
    exact SseStreamer.tidy_on_iff h (h.leakproof_iff_tidy.mp hleak) o
  · intro calls
    refine Sequential.always_iff_each (J := fun s => ∃ live, SubscriptionStore.Mirrors live s)
      (fun o s ⟨live, h⟩ => ⟨_, h.on maxAge o⟩) (fun o s ⟨live, h⟩ hleak => ?_)
      ⟨_, SubscriptionStore.mirrors_empty⟩ ((coherent_empty _).leakproof_iff_tidy.mpr htidy)
    refine (h.on maxAge o).index.leakproof_iff_tidy.trans ?_
    exact SubscriptionStore.tidy_on_iff h (h.index.leakproof_iff_tidy.mp hleak) o

/-- **Both indexes leak**: one stream that is opened and closed, or one subscription that is
added and removed, leaves its task behind. -/
theorem indexes_leak :
    (¬ ∀ calls, Sequential.Always (StreamerCall.on 300) SseStreamer.NoLeak calls .empty) ∧
      ¬ ∀ calls, Sequential.Always (SubscriptionCall.on 3600) SubscriptionStore.NoLeak calls
        .empty := by
  constructor
  · intro h
    have hleak := (h [.openStream 0 ⟨.str "a", rfl⟩, .closeStream 0]).2.2.length_le
    revert hleak
    decide +kernel
  · intro h
    have hleak := (h [.add 0 0 ⟨.str "a", rfl⟩ (.str "https://peer.example") (.str "key"),
      .remove 0]).2.2.length_le
    revert hleak
    decide +kernel

end HermesA2A
