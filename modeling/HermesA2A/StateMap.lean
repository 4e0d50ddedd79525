import HermesA2A.QueueRuns
import Mathlib.Data.List.Perm.Subperm

/-!
# What the state map tracks

`_states` is meant to hold the state of the tasks the queue knows: the pending ones,
those in the completed cache, and those placed by `set_auth_required` or
`set_authenticated`.  Six operations write it and none removes a key, so a key
outlives its task when the cache is trimmed and when an `enqueue` evicts; and
`transition` takes an id it has never seen for one that is `submitted`.

The ids placed are no field of the queue: a `Placed` state records them beside it.

* `TaskQueue.TracksOnly` — every key is the id of a task the queue knows; with what
  follows for `get_status` and for the size of the map.
* `QueueCall.Tidy` — the operation leaves no key behind.
* `tracksOnly_iff` — the map tracks real tasks throughout a run exactly when every
  operation is tidy.
-/

namespace HermesA2A

open TaskQueue

/-- The queue, and the ids that `set_auth_required` and `set_authenticated` placed. -/
abbrev Placed := TaskQueue × List TaskId

/-- An operation, with the ids placed. -/
def QueueCall.onPlaced (caps : Caps) (o : QueueCall) (s : Placed) : Placed :=
  (o.on caps s.1,
    match o with
    | setAuthRequired t => s.2.insert t
    | setAuthenticated t => s.2.insert t
    | _ => s.2)

/-- The queue knows the id: its task is pending or completed, or it was placed. -/
def Knows (s : Placed) (t : TaskId) : Prop := t ∈ s.1.pending ∨ t ∈ s.1.completed ∨ t ∈ s.2

instance (s : Placed) (t : TaskId) : Decidable (Knows s t) :=
  inferInstanceAs (Decidable (_ ∨ _ ∨ _))

/-- **The state map tracks only real tasks.** -/
structure TracksOnly (s : Placed) : Prop where
  keys : ∀ t ∈ s.1.states, Knows s t
  unknown : ∀ t, t.hashable = true → ¬ Knows s t → s.1.getStatus t = .ok ⟨none, none⟩
  bounded : s.1.states.length ≤ s.1.pending.length + s.1.completed.length + s.2.length

/-- The rest follows from what the keys are. -/
theorem tracksOnly_of_keys {s : Placed} (h : ∀ t ∈ s.1.states, Knows s t) : TracksOnly s where
  keys := h
  unknown := by
    intro t hhash hno
    have hpending : t ∉ s.1.pending := fun hmem => hno (Or.inl hmem)
    have hcompleted : s.1.completed.get? t = none :=
      OrderedDict.get?_eq_none_iff.mpr fun hmem => hno (Or.inr (Or.inl hmem))
    have hstates : s.1.states.get? t = none :=
      OrderedDict.get?_eq_none_iff.mpr fun hmem => hno (h t hmem)
    unfold TaskQueue.getStatus
    rw [if_pos hhash, if_neg hpending, hcompleted, hstates]
  bounded := by
    have hsubset : s.1.states.keys ⊆ s.1.pending.keys ++ s.1.completed.keys ++ s.2 := by
      intro t ht
      rcases h t ht with hp | hc | hs
      · exact List.mem_append_left _ (List.mem_append_left _ hp)
      · exact List.mem_append_left _ (List.mem_append_right _ hc)
      · exact List.mem_append_right _ hs
    have hnodup : s.1.states.keys.Nodup := s.1.states.nodup_keys
    have hlen := (hnodup.subperm hsubset).length_le
    simpa [OrderedDict.keys, OrderedDict.length, Nat.add_assoc] using hlen

/-- The ids whose tasks the cache drops when `t` is completed. -/
def TaskQueue.trimmed (caps : Caps) (t : TaskId) (q : TaskQueue) : List TaskId :=
  let keys := if t ∈ q.completed then q.completed.keys else q.completed.keys ++ [t]
  keys.take (keys.length - caps.taskCacheMax)

/-- The operation leaves no key behind: an id that `enqueue` evicts or the cache drops
is still known otherwise, and `transition` moves an id the queue knows. -/
def QueueCall.Tidy (caps : Caps) : QueueCall → Placed → Prop
  | enqueue t _ _ _ _, s =>
      t ∉ s.1.pending → s.1.pending.length < caps.maxPending →
        ∀ k ∈ s.1.evictees caps t, k = t ∨ k ∈ s.1.states → k ∈ s.1.completed ∨ k ∈ s.2
  | transition t toState, s =>
      toState ∈ ((s.1.states.get? t).getD .submitted).transitions → Knows s t
  | complete t _, s =>
      t ∈ s.1.pending → ∀ k ∈ s.1.trimmed caps t, (k ≠ t ∧ k ∈ s.1.pending) ∨ k ∈ s.2
  | _, _ => True

instance (caps : Caps) (o : QueueCall) (s : Placed) : Decidable (o.Tidy caps s) :=
  match o with
  | .enqueue t .. => inferInstanceAs (Decidable (_ → _ → ∀ k ∈ s.1.evictees caps t, _))
  | .transition t _ => inferInstanceAs (Decidable (_ → Knows s t))
  | .complete t _ => inferInstanceAs (Decidable (_ → ∀ k ∈ s.1.trimmed caps t, _))
  | .requeueTasks _ | .markProcessing _ | .cancel _ | .setAuthRequired _ | .setAuthenticated _ =>
      isTrue trivial

/-! ### The operations, seen by the keys -/

section Keys

variable {caps : Caps} {q q' : TaskQueue} {t k : TaskId} {task : PendingTask}

theorem TaskQueue.Enqueued.mem_pending (h : Enqueued caps t task q q') :
    k ∈ q'.pending ↔ (k ∈ q.pending ∨ k = t) ∧ k ∉ q.evictees caps t := by
  simp only [OrderedDict.mem_iff_exists, h.get?]
  constructor
  · rintro ⟨v, hv | ⟨rfl, -⟩, hno⟩
    · exact ⟨Or.inl ⟨v, hv⟩, hno⟩
    · exact ⟨Or.inr rfl, hno⟩
  · rintro ⟨⟨v, hv⟩ | rfl, hno⟩
    · exact ⟨v, Or.inl hv, hno⟩
    · exact ⟨task, Or.inr ⟨rfl, rfl⟩, hno⟩

/-- What the cache drops and what it keeps when `t` is completed, as one list. -/
theorem trimmed_append_kept (caps : Caps) (q : TaskQueue) (t : TaskId) (task : PendingTask) :
    q.trimmed caps t ++ (trimCompleted caps.taskCacheMax (q.completed.set t task)).keys =
      (q.completed.set t task).keys := by
  have hkeys : (q.completed.set t task).keys =
      if t ∈ q.completed then q.completed.keys else q.completed.keys ++ [t] := by
    split_ifs with h
    · exact OrderedDict.keys_set_of_mem task h
    · exact OrderedDict.keys_set_of_notMem task h
  have hlen : (q.completed.set t task).length = (q.completed.set t task).keys.length :=
    (List.length_map _).symm
  unfold trimCompleted trimmed
  rw [OrderedDict.keys_iterate_popFirst, hlen, ← hkeys, List.take_append_drop]

/-- What is filed when `t` is completed is dropped at once, or stays. -/
theorem mem_trimmed_or_kept (caps : Caps) (hk : k = t ∨ k ∈ q.completed) (task : PendingTask) :
    k ∈ q.trimmed caps t ∨ k ∈ trimCompleted caps.taskCacheMax (q.completed.set t task) := by
  have hmem : k ∈ (q.completed.set t task).keys := OrderedDict.mem_set_iff.mpr hk
  rw [← trimmed_append_kept caps] at hmem
  exact List.mem_append.mp hmem

theorem mem_of_kept (hk : k ∈ trimCompleted caps.taskCacheMax (q.completed.set t task)) :
    k = t ∨ k ∈ q.completed := by
  have hmem : k ∈ (q.completed.set t task).keys := by
    rw [← trimmed_append_kept caps]
    exact List.mem_append_right _ hk
  exact OrderedDict.mem_set_iff.mp hmem

theorem mem_of_trimmed (hk : k ∈ q.trimmed caps t) (task : PendingTask) :
    k = t ∨ k ∈ q.completed := by
  have hmem : k ∈ (q.completed.set t task).keys := by
    rw [← trimmed_append_kept caps]
    exact List.mem_append_left _ hk
  exact OrderedDict.mem_set_iff.mp hmem

theorem not_kept_of_trimmed (hk : k ∈ q.trimmed caps t) (task : PendingTask) :
    k ∉ trimCompleted caps.taskCacheMax (q.completed.set t task) := by
  have hnodup : (q.completed.set t task).keys.Nodup := (q.completed.set t task).nodup_keys
  rw [← trimmed_append_kept caps] at hnodup
  exact fun hkept => (List.disjoint_of_nodup_append hnodup) hk hkept

end Keys

/-! ### Steps and runs -/

/-- A completed task has a recorded state, always. -/
def CompletedRecorded (s : Placed) : Prop := ∀ t ∈ s.1.completed, t ∈ s.1.states

section Steps

variable {caps : Caps} {s : Placed} {t : TaskId} {task : PendingTask}

/-- What `complete` of a pending task leaves, seen by the keys. -/
theorem complete_keys (caps : Caps) (response : String) (hget : s.1.pending.get? t = some task)
    (k : TaskId) :
    (k ∈ (s.1.completeWithin caps t response).2.pending ↔ k ≠ t ∧ k ∈ s.1.pending) ∧
      (k ∈ (s.1.completeWithin caps t response).2.completed ↔
        k ∈ trimCompleted caps.taskCacheMax (s.1.completed.set t task)) ∧
      (k ∈ (s.1.completeWithin caps t response).2.states ↔ k = t ∨ k ∈ s.1.states) := by
  refine ⟨?_, ?_, ?_⟩
  · rw [completeWithin_pending]
    exact OrderedDict.mem_erase_iff
  · rw [completeWithin_of_pending caps response hget]
  · rw [completeWithin_of_pending caps response hget]
    show k ∈ (takeOut ..).2.states ↔ _
    rw [takeOut_states_eq _ _ hget]
    exact OrderedDict.mem_set_iff

/-- What `cancel` of a pending task leaves, seen by the keys. -/
theorem cancel_keys (hget : s.1.pending.get? t = some task) (k : TaskId) :
    (k ∈ (s.1.cancel t).2.pending ↔ k ≠ t ∧ k ∈ s.1.pending) ∧
      (k ∈ (s.1.cancel t).2.completed ↔ k = t ∨ k ∈ s.1.completed) ∧
      (k ∈ (s.1.cancel t).2.states ↔ k = t ∨ k ∈ s.1.states) := by
  refine ⟨?_, ?_, ?_⟩
  · rw [cancel_pending_eq]
    exact OrderedDict.mem_erase_iff
  · rw [cancel_completed_eq hget]
    exact OrderedDict.mem_set_iff
  · rw [cancel_of_pending hget]
    show k ∈ (takeOut ..).2.states ↔ _
    rw [takeOut_states_eq _ _ hget]
    exact OrderedDict.mem_set_iff

theorem CompletedRecorded.onPlaced (hs : CompletedRecorded s) (o : QueueCall) :
    CompletedRecorded (o.onPlaced caps s) := by
  intro k hk
  cases o with
  | enqueue t text metadata contextId createdAt =>
      change k ∈ (s.1.enqueueWithin caps t text metadata contextId createdAt).2.completed at hk
      show k ∈ (s.1.enqueueWithin caps t text metadata contextId createdAt).2.states
      rcases s.1.enqueued_of_enqueueWithin caps t text metadata contextId createdAt with
        ⟨hno, -⟩ | ⟨-, -, q', hyes, h⟩
      · rw [hno] at hk ⊢
        exact hs k hk
      · rw [hyes] at hk ⊢
        show k ∈ q'.states
        change k ∈ q'.completed at hk
        rw [h.completed] at hk
        rw [h.states]
        exact OrderedDict.mem_set_iff.mpr (Or.inr (hs k hk))
  | requeueTasks tasks =>
      change k ∈ (s.1.requeueTasks tasks).completed at hk
      show k ∈ (s.1.requeueTasks tasks).states
      rw [requeueTasks_completed] at hk
      rw [requeueTasks_states]
      exact hs k hk
  | markProcessing t =>
      change k ∈ (s.1.markProcessing t).completed at hk
      show k ∈ (s.1.markProcessing t).states
      rw [markProcessing_completed] at hk
      rw [markProcessing_states]
      exact hs k hk
  | transition t toState =>
      change k ∈ (s.1.transition t toState).2.completed at hk
      rw [transition_completed] at hk
      exact mem_states_onQueue (.transition t toState) (hs k hk)
  | complete t response =>
      change k ∈ (s.1.completeWithin caps t response).2.completed at hk
      show k ∈ (s.1.completeWithin caps t response).2.states
      cases hget : s.1.pending.get? t with
      | none =>
          rw [completeWithin_of_notMem caps response (OrderedDict.get?_eq_none_iff.mp hget)] at hk ⊢
          exact hs k hk
      | some task =>
          obtain ⟨-, hcompleted, hstates⟩ := complete_keys caps response hget k
          exact hstates.mpr ((mem_of_kept (hcompleted.mp hk)).imp_right (hs k))
  | cancel t =>
      change k ∈ (s.1.cancel t).2.completed at hk
      show k ∈ (s.1.cancel t).2.states
      cases hget : s.1.pending.get? t with
      | none =>
          rw [cancel_of_notMem (OrderedDict.get?_eq_none_iff.mp hget)] at hk ⊢
          exact hs k hk
      | some task =>
          obtain ⟨-, hcompleted, hstates⟩ := cancel_keys hget k
          exact hstates.mpr ((hcompleted.mp hk).imp_right (hs k))
  | setAuthRequired t => exact OrderedDict.mem_set_iff.mpr (Or.inr (hs k hk))
  | setAuthenticated t => exact OrderedDict.mem_set_iff.mpr (Or.inr (hs k hk))

/-- An operation that keeps the keys and loses no id keeps the property. -/
theorem tracks_of_keeps {s' : Placed} (hs : ∀ t ∈ s.1.states, Knows s t)
    (hstates : ∀ t ∈ s'.1.states, t ∈ s.1.states) (hknows : ∀ t, Knows s t → Knows s' t) :
    ∀ t ∈ s'.1.states, Knows s' t := fun t ht => hknows t (hs t (hstates t ht))

/-- An accepting `enqueue`. -/
theorem tracks_enqueue_iff {q' : TaskQueue} (hs : ∀ t ∈ s.1.states, Knows s t)
    (h : Enqueued caps t task s.1 q') :
    (∀ k ∈ q'.states, Knows (q', s.2) k) ↔
      ∀ k ∈ s.1.evictees caps t, k = t ∨ k ∈ s.1.states → k ∈ s.1.completed ∨ k ∈ s.2 := by
  have hstates : ∀ k, k ∈ q'.states ↔ k = t ∨ k ∈ s.1.states := fun k => by
    rw [h.states]
    exact OrderedDict.mem_set_iff
  constructor
  · intro htracks k hout hk
    rcases htracks k ((hstates k).mpr hk) with hp | hc | hs
    · exact absurd hout (h.mem_pending.mp hp).2
    · exact Or.inl (h.completed ▸ hc)
    · exact Or.inr hs
  · intro hout k hk
    by_cases hev : k ∈ s.1.evictees caps t
    · rcases hout k hev ((hstates k).mp hk) with hc | hs
      · exact Or.inr (Or.inl (h.completed.symm ▸ hc))
      · exact Or.inr (Or.inr hs)
    · rcases (hstates k).mp hk with rfl | hk
      · exact Or.inl (h.mem_pending.mpr ⟨Or.inr rfl, hev⟩)
      · rcases hs k hk with hp | hc | hs
        · exact Or.inl (h.mem_pending.mpr ⟨Or.inl hp, hev⟩)
        · exact Or.inr (Or.inl (h.completed.symm ▸ hc))
        · exact Or.inr (Or.inr hs)

/-- A `transition`, refused or not. -/
theorem tracks_transition_iff (hs : ∀ t ∈ s.1.states, Knows s t) (t : TaskId)
    (toState : TaskState) :
    (∀ k ∈ (s.1.transition t toState).2.states, Knows ((s.1.transition t toState).2, s.2) k) ↔
      (toState ∈ ((s.1.states.get? t).getD .submitted).transitions → Knows s t) := by
  simp only [TaskQueue.transition]
  split_ifs with hallowed
  · constructor
    · exact fun h _ => h t (OrderedDict.mem_set_iff.mpr (Or.inl rfl))
    · intro h k hk
      rcases OrderedDict.mem_set_iff.mp hk with rfl | hk
      · exact h hallowed
      · exact hs k hk
  · exact iff_of_true hs fun h => absurd h hallowed

/-- A `complete` of a pending task. -/
theorem tracks_complete_iff (hs : ∀ t ∈ s.1.states, Knows s t) (hrec : CompletedRecorded s)
    (caps : Caps) (response : String) (hget : s.1.pending.get? t = some task) :
    (∀ k ∈ (s.1.completeWithin caps t response).2.states,
        Knows ((s.1.completeWithin caps t response).2, s.2) k) ↔
      ∀ k ∈ s.1.trimmed caps t, (k ≠ t ∧ k ∈ s.1.pending) ∨ k ∈ s.2 := by
  constructor
  · intro htracks k hk
    obtain ⟨hpending, hcompleted, hstates⟩ := complete_keys caps response hget k
    have hin := hstates.mpr ((mem_of_trimmed hk task).imp_right (hrec k))
    rcases htracks k hin with hp | hc | hs
    · exact Or.inl (hpending.mp hp)
    · exact absurd (hcompleted.mp hc) (not_kept_of_trimmed hk task)
    · exact Or.inr hs
  · intro htrimmed k hk
    obtain ⟨hpending, hcompleted, hstates⟩ := complete_keys caps response hget k
    -- what is filed is kept or dropped, and what is dropped is known otherwise
    have hfiled : k = t ∨ k ∈ s.1.completed →
        Knows ((s.1.completeWithin caps t response).2, s.2) k := fun hk => by
      rcases mem_trimmed_or_kept caps hk task with hdropped | hkept
      · exact (htrimmed k hdropped).imp hpending.mpr Or.inr
      · exact Or.inr (Or.inl (hcompleted.mpr hkept))
    by_cases ht : k = t
    · exact hfiled (Or.inl ht)
    · rcases hs k ((hstates.mp hk).resolve_left ht) with hp | hc | hs
      · exact Or.inl (hpending.mpr ⟨ht, hp⟩)
      · exact hfiled (Or.inr hc)
      · exact Or.inr (Or.inr hs)

/-- A `cancel` of a pending task: it is filed, and nothing is dropped. -/
theorem tracks_cancel (hs : ∀ t ∈ s.1.states, Knows s t) (hget : s.1.pending.get? t = some task) :
    ∀ k ∈ (s.1.cancel t).2.states, Knows ((s.1.cancel t).2, s.2) k := by
  intro k hk
  obtain ⟨hpending, hcompleted, hstates⟩ := cancel_keys hget k
  by_cases ht : k = t
  · exact Or.inr (Or.inl (hcompleted.mpr (Or.inl ht)))
  · rcases hs k ((hstates.mp hk).resolve_left ht) with hp | hc | hs
    · exact Or.inl (hpending.mpr ⟨ht, hp⟩)
    · exact Or.inr (Or.inl (hcompleted.mpr (Or.inr hc)))
    · exact Or.inr (Or.inr hs)

/-- Placing an id: it is a key, and known. -/
theorem tracks_place (hs : ∀ t ∈ s.1.states, Knows s t) (t : TaskId) (state : TaskState) :
    ∀ k ∈ s.1.states.set t state, k ∈ s.1.pending ∨ k ∈ s.1.completed ∨ k ∈ s.2.insert t := by
  intro k hk
  rcases OrderedDict.mem_set_iff.mp hk with rfl | hk
  · exact Or.inr (Or.inr (List.mem_insert_iff.mpr (Or.inl rfl)))
  · exact (hs k hk).imp_right (Or.imp_right fun h => List.mem_insert_iff.mpr (Or.inr h))

/-- **One step**: it keeps the map to real tasks exactly when it is tidy. -/
theorem tracks_onPlaced_iff (o : QueueCall) (hrec : CompletedRecorded s)
    (hs : ∀ t ∈ s.1.states, Knows s t) :
    (∀ t ∈ (o.onPlaced caps s).1.states, Knows (o.onPlaced caps s) t) ↔ o.Tidy caps s := by
  cases o with
  | enqueue t text metadata contextId createdAt =>
      show (∀ k ∈ (s.1.enqueueWithin caps t text metadata contextId createdAt).2.states,
        Knows ((s.1.enqueueWithin caps t text metadata contextId createdAt).2, s.2) k) ↔
        (t ∉ s.1.pending → s.1.pending.length < caps.maxPending → _)
      rcases s.1.enqueued_of_enqueueWithin caps t text metadata contextId createdAt with
        ⟨hno, hfull | hmem⟩ | ⟨hmem, hlt, q', hyes, h⟩
      · rw [hno]
        exact iff_of_true hs fun _ hlt => absurd hlt (Nat.not_lt.mpr hfull)
      · rw [hno]
        exact iff_of_true hs fun hnot => absurd hmem hnot
      · rw [hyes]
        exact (tracks_enqueue_iff hs h).trans ⟨fun h _ _ => h, fun h => h hmem hlt⟩
  | requeueTasks tasks =>
      refine iff_of_true (tracks_of_keeps hs (fun t ht => ?_) fun t ht => ?_) trivial
      · change t ∈ (s.1.requeueTasks tasks).states at ht
        rwa [requeueTasks_states] at ht
      · rcases ht with hp | hc | hs
        · obtain ⟨task, hget⟩ := OrderedDict.mem_iff_exists.mp hp
          exact Or.inl (OrderedDict.mem_of_get? (requeueTasks_of_pending hget))
        · refine Or.inr (Or.inl ?_)
          show t ∈ (s.1.requeueTasks tasks).completed
          rwa [requeueTasks_completed]
        · exact Or.inr (Or.inr hs)
  | markProcessing t =>
      refine iff_of_true (tracks_of_keeps hs (fun k hk => ?_) fun k hk => ?_) trivial
      · change k ∈ (s.1.markProcessing t).states at hk
        rwa [markProcessing_states] at hk
      · show k ∈ (s.1.markProcessing t).pending ∨ k ∈ (s.1.markProcessing t).completed ∨ k ∈ s.2
        rwa [markProcessing_pending, markProcessing_completed]
  | transition t toState => exact tracks_transition_iff hs t toState
  | complete t response =>
      show (∀ k ∈ (s.1.completeWithin caps t response).2.states,
        Knows ((s.1.completeWithin caps t response).2, s.2) k) ↔ (t ∈ s.1.pending → _)
      cases hget : s.1.pending.get? t with
      | none =>
          have hno := OrderedDict.get?_eq_none_iff.mp hget
          rw [completeWithin_of_notMem caps response hno]
          exact iff_of_true hs fun h => absurd h hno
      | some task =>
          exact (tracks_complete_iff hs hrec caps response hget).trans
            ⟨fun h _ => h, fun h => h (OrderedDict.mem_of_get? hget)⟩
  | cancel t =>
      refine iff_of_true ?_ trivial
      show ∀ k ∈ (s.1.cancel t).2.states, Knows ((s.1.cancel t).2, s.2) k
      cases hget : s.1.pending.get? t with
      | none =>
          rw [cancel_of_notMem (OrderedDict.get?_eq_none_iff.mp hget)]
          exact hs
      | some task => exact tracks_cancel hs hget
  | setAuthRequired t => exact iff_of_true (tracks_place hs t .authRequired) trivial
  | setAuthenticated t => exact iff_of_true (tracks_place hs t .authenticated) trivial

end Steps

/-- **The state map tracks only real tasks throughout a run exactly when all its
operations are tidy.** -/
theorem tracksOnly_iff (caps : Caps) (ops : List QueueCall) :
    Sequential.Always (QueueCall.onPlaced caps) TracksOnly ops (.empty, []) ↔
      Sequential.Each (QueueCall.onPlaced caps) (QueueCall.Tidy caps) ops (.empty, []) := by
  have hiff : ∀ s, TracksOnly s ↔ ∀ t ∈ s.1.states, Knows s t :=
    fun s => ⟨TracksOnly.keys, tracksOnly_of_keys⟩
  refine Sequential.always_iff_each (J := CompletedRecorded) (fun o s hs => hs.onPlaced o) ?_ ?_ ?_
  · intro o s hrec hs
    rw [hiff] at hs ⊢
    exact tracks_onPlaced_iff o hrec hs
  · exact fun t ht => absurd ht (OrderedDict.notMem_empty t)
  · exact (hiff _).mpr fun t ht => absurd ht (OrderedDict.notMem_empty t)

/-- **A transition of an id nobody has seen is tracked for ever.** -/
theorem ghost_tracked :
    ¬ Sequential.Always (QueueCall.onPlaced .source) TracksOnly
      [.transition (.str "ghost") .working] (.empty, []) := by
  intro h
  rw [Sequential.always_iff] at h
  have htracks := (h _ [] (List.append_nil _).symm).keys
  exact absurd (htracks (.str "ghost") (by decide)) (by decide)

end HermesA2A
