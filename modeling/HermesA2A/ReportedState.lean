import HermesA2A.StateMap

/-!
# The state that is reported

There are two readers of a task's state.  `snapshot` takes it from the state map.  `get_status`
does too, but for a task that is in the completed cache and not pending it looks at the response
first: the text `(canceled)`, which `cancel` writes, is read as the state.

* `agrees_iff` — the readers agree exactly if each task that shows this text is canceled.
* `reportsDone_iff` — what `complete` has to leave for both readers to report `completed`.
* `reportsTruly_iff` — in a run, every completion is reported and the readers never differ exactly
  if every step is `Unambiguous`.

A run is made of the operations of the queue and of what other threads write to the objects.
-/

namespace HermesA2A

open TaskQueue

/-- An operation of the queue, or a write to the mutable fields of an object. -/
inductive QueueEvent
  | call (o : QueueCall)
  | write (ref : ℕ) (f : Cell → Cell)

/-- The id an operation looks up. -/
def QueueCall.key? : QueueCall → Option TaskId
  | enqueue t .. => some t
  | requeueTasks _ => none
  | markProcessing t => some t
  | transition t _ => some t
  | complete t _ => some t
  | cancel t => some t
  | setAuthRequired t => some t
  | setAuthenticated t => some t

/-- What happens.  An operation raises on an id that is no dictionary key, before anything is
changed. -/
def QueueEvent.on : QueueEvent → TaskQueue → TaskQueue
  | call o, q => if ∀ t ∈ o.key?, t.hashable = true then o.on .source q else q
  | write ref f, q => q.modifyCell ref f

/-- `requeue_tasks` gets tasks that were drained: objects of this queue. -/
def QueueEvent.Requeues : QueueEvent → TaskQueue → Prop
  | call (.requeueTasks tasks), q => ∀ task ∈ tasks, task ∈ q.objects
  | _, _ => True

instance (e : QueueEvent) (q : TaskQueue) : Decidable (e.Requeues q) := by
  unfold QueueEvent.Requeues
  split <;> infer_instance

/-! ### What the readers say -/

/-- **The readers agree** on every task that is held. -/
def Agree (q : TaskQueue) : Prop :=
  ∀ entry ∈ q.snapshot, q.getStatus entry.2.1.taskId = .ok ⟨entry.2.2, none⟩

/-- Both readers report this state. -/
structure Reports (q : TaskQueue) (t : TaskId) (state : TaskState) : Prop where
  status : q.getStatus t = .ok ⟨some state, none⟩
  held : ∃ entry ∈ q.snapshot, entry.2.1.taskId = t
  listed : ∀ entry ∈ q.snapshot, entry.2.1.taskId = t → entry.2.2 = some state

/-- If this completes a pending task, both readers report it as completed. -/
def QueueEvent.ReportsDone (e : QueueEvent) (q : TaskQueue) : Prop :=
  ∀ t response, e = .call (.complete t response) → t ∈ q.pending → Reports (e.on q) t .completed

/-- The object shows the text that `cancel` writes. -/
def ShowsCanceled (q : TaskQueue) (task : PendingTask) : Prop :=
  (q.cells task.ref).response = some "(canceled)"

instance (q : TaskQueue) (task : PendingTask) : Decidable (ShowsCanceled q task) :=
  inferInstanceAs (Decidable (_ = _))

/-- The response that `complete` leaves is another text: the new one, or the one it finds if the
caller has been sent away. -/
def LeavesOther (c : Cell) (response : String) : Prop :=
  (c.returned = false → response ≠ "(canceled)") ∧
    (c.returned = true → c.response ≠ some "(canceled)")

instance (c : Cell) (response : String) : Decidable (LeavesOther c response) :=
  inferInstanceAs (Decidable (_ ∧ _))

/-- **The step leaves no task that is read in two ways.** -/
def QueueEvent.Unambiguous : QueueEvent → TaskQueue → Prop
  | call (.complete t response), q =>
      ∀ task ∈ q.pending.get? t,
        LeavesOther (q.cells task.ref) response ∧ t ∉ q.trimmed .source t
  | call (.setAuthRequired t), q =>
      t ∉ q.pending → ∀ task ∈ q.completed.get? t, ¬ ShowsCanceled q task
  | call (.setAuthenticated t), q =>
      t ∉ q.pending → ∀ task ∈ q.completed.get? t, ¬ ShowsCanceled q task
  | write ref f, q =>
      (f (q.cells ref)).response = some "(canceled)" →
        ∀ entry ∈ q.completed.entries, entry.1 ∉ q.pending → entry.2.ref = ref →
          q.states.get? entry.1 = some .canceled
  | _, _ => True

instance (e : QueueEvent) (q : TaskQueue) : Decidable (e.Unambiguous q) := by
  unfold QueueEvent.Unambiguous
  split <;> infer_instance

/-! ### The invariant -/

/-- The queue's invariant; every object has an id that is a dictionary key. -/
structure Keyed (q : TaskQueue) : Prop where
  wf : q.WF
  hashable : ∀ task ∈ q.objects, task.taskId.hashable = true

theorem Keyed.empty : Keyed .empty := ⟨.empty, fun _ h => absurd h List.not_mem_nil⟩

section Invariant

variable {q : TaskQueue} {t : TaskId} {task : PendingTask}

/-- The steps of the server that keep it. -/
theorem Keyed.onQueue (hq : Keyed q) {o : Op}
    (hrequeue : ∀ tasks, o = .requeueTasks tasks → ∀ task ∈ tasks, task ∈ q.objects)
    (haccept : ∀ task, o.Accepts q task → task.taskId.hashable = true) : Keyed (o.onQueue q) := by
  refine ⟨hq.wf.onQueue hrequeue, fun task hmem => ?_⟩
  rcases objects_onQueue o q with hsame | ⟨new, hacc, hadds⟩
  · rw [hsame] at hmem
    exact hq.hashable task hmem
  · rw [hadds] at hmem
    rcases List.mem_append.mp hmem with hold | hnew
    · exact hq.hashable task hold
    · obtain rfl := List.mem_singleton.mp hnew
      exact haccept _ hacc

theorem Keyed.withStates (hq : Keyed q) {states : OrderedDict TaskId TaskState}
    (h : ∀ t ∈ q.states, t ∈ states) : Keyed { q with states := states } :=
  ⟨⟨hq.wf.ref_lt, hq.wf.ref_inj, hq.wf.pending, hq.wf.completed, hq.wf.processing,
    fun task hmem => h _ (hq.wf.recorded task hmem)⟩, hq.hashable⟩

/-- **Every step keeps the invariant.** -/
theorem Keyed.on (hq : Keyed q) {e : QueueEvent} (hown : e.Requeues q) : Keyed (e.on q) := by
  cases e with
  | write ref f =>
      exact ⟨⟨hq.wf.ref_lt, hq.wf.ref_inj, hq.wf.pending, hq.wf.completed, hq.wf.processing,
        hq.wf.recorded⟩, hq.hashable⟩
  | call o =>
      show Keyed (if ∀ t ∈ o.key?, t.hashable = true then o.on .source q else q)
      split_ifs with hkey
      · cases o with
        | enqueue t text metadata contextId createdAt =>
            refine hq.onQueue (o := .enqueue t text metadata contextId createdAt)
              (fun _ h => by cases h) fun task hacc => ?_
            obtain ⟨_, _, _, _, _, heq, hnew⟩ := hacc
            cases heq
            rw [taskId_of_enqueue hnew]
            exact hkey _ rfl
        | requeueTasks tasks =>
            refine hq.onQueue (o := .requeueTasks tasks) (fun tasks' heq => ?_) ?_
            · cases heq
              exact hown
            · rintro task ⟨_, _, _, _, _, heq, -⟩
              cases heq
        | markProcessing t =>
            refine hq.onQueue (o := .markProcessing t) (fun _ h => by cases h) ?_
            rintro task ⟨_, _, _, _, _, heq, -⟩
            cases heq
        | transition t state =>
            refine hq.onQueue (o := .transition t state) (fun _ h => by cases h) ?_
            rintro task ⟨_, _, _, _, _, heq, -⟩
            cases heq
        | complete t response =>
            refine hq.onQueue (o := .complete t response) (fun _ h => by cases h) ?_
            rintro task ⟨_, _, _, _, _, heq, -⟩
            cases heq
        | cancel t =>
            refine hq.onQueue (o := .cancel t) (fun _ h => by cases h) ?_
            rintro task ⟨_, _, _, _, _, heq, -⟩
            cases heq
        | setAuthRequired t =>
            exact hq.withStates fun _ h => OrderedDict.mem_set_iff.mpr (Or.inr h)
        | setAuthenticated t =>
            exact hq.withStates fun _ h => OrderedDict.mem_set_iff.mpr (Or.inr h)
      · exact hq

/-- Tasks that are filed under two ids are two objects. -/
theorem Keyed.ref_ne (hq : Keyed q) {t' : TaskId} {task' : PendingTask}
    (h : q.pending.get? t = some task) (h' : q.completed.get? t' = some task') (hne : t' ≠ t) :
    task'.ref ≠ task.ref := by
  intro href
  obtain ⟨hid, hmem⟩ := hq.wf.pending h
  obtain ⟨hid', hmem'⟩ := hq.wf.completed h'
  obtain rfl := hq.wf.ref_inj _ hmem' _ hmem href
  exact hne (hid'.symm.trans hid)

/-- A task that is held has a recorded state. -/
theorem Keyed.recorded (hq : Keyed q) (h : task ∈ q.objects) :
    ∃ state, q.states.get? task.taskId = some state :=
  OrderedDict.mem_iff_exists.mp (hq.wf.recorded task h)

end Invariant

/-! ### When the readers agree -/

/-- Every completed task that shows the text of `cancel` is canceled, or pending again. -/
def CanceledTruly (q : TaskQueue) : Prop :=
  ∀ t task, q.completed.get? t = some task → t ∉ q.pending → ShowsCanceled q task →
    q.states.get? t = some .canceled

section Agreement

variable {q q' : TaskQueue} {t : TaskId} {task : PendingTask} {response : String}

theorem mem_snapshot {entry : Time × PendingTask × Option TaskState} :
    entry ∈ q.snapshot ↔ ∃ task,
      ((∃ t, q.pending.get? t = some task) ∨ ∃ t, q.completed.get? t = some task) ∧
        entry = (task.createdAt, task, q.states.get? task.taskId) := by
  unfold TaskQueue.snapshot
  simp only [List.mem_map, List.mem_append, OrderedDict.mem_values_iff_get?, eq_comm]

/-- What `get_status` says of a task that was enqueued. -/
theorem Keyed.getStatus_eq (hq : Keyed q) (hmem : task ∈ q.objects) (hid : task.taskId = t) :
    q.getStatus t = .ok ⟨
      if t ∉ q.pending ∧ ∃ filed, q.completed.get? t = some filed ∧ ShowsCanceled q filed then
        some .canceled
      else q.states.get? t, none⟩ := by
  subst hid
  obtain ⟨state, hstate⟩ := hq.recorded hmem
  unfold TaskQueue.getStatus ShowsCanceled
  rw [if_pos (hq.hashable task hmem), hstate]
  by_cases hpending : task.taskId ∈ q.pending
  · rw [if_pos hpending, if_neg fun h => h.1 hpending]
    rfl
  · rw [if_neg hpending]
    cases hcompleted : q.completed.get? task.taskId with
    | none => simp
    | some filed =>
        by_cases hshows : (q.cells filed.ref).response = some "(canceled)" <;>
          simp [hshows, hpending]

/-- **The readers agree exactly if each task that shows the text is canceled.** -/
theorem agrees_iff (hq : Keyed q) : Agree q ↔ CanceledTruly q := by
  constructor
  · intro h t task hcompleted hpending hshows
    obtain ⟨rfl, hmem⟩ := hq.wf.completed hcompleted
    have hread := h _ (mem_snapshot.mpr ⟨task, Or.inr ⟨_, hcompleted⟩, rfl⟩)
    rw [hq.getStatus_eq hmem rfl, if_pos ⟨hpending, task, hcompleted, hshows⟩] at hread
    exact (Status.mk.inj (Except.ok.inj hread)).1.symm
  · intro h entry hentry
    obtain ⟨task, hheld, rfl⟩ := mem_snapshot.mp hentry
    have hmem : task ∈ q.objects := by
      rcases hheld with ⟨t, hpending⟩ | ⟨t, hcompleted⟩
      · exact (hq.wf.pending hpending).2
      · exact (hq.wf.completed hcompleted).2
    rw [hq.getStatus_eq hmem rfl]
    split_ifs with hcanceled
    · obtain ⟨hpending, filed, hcompleted, hshows⟩ := hcanceled
      rw [h _ filed hcompleted hpending hshows]
    · rfl

/-- A step that files nothing, and changes neither the fields of a filed task nor the state of a
canceled one. -/
theorem CanceledTruly.of_frame (hq : CanceledTruly q)
    (h : ∀ t task, q'.completed.get? t = some task → t ∉ q'.pending →
      q.completed.get? t = some task ∧ t ∉ q.pending ∧ q'.cells task.ref = q.cells task.ref ∧
        (q.states.get? t = some .canceled → q'.states.get? t = some .canceled)) :
    CanceledTruly q' := by
  intro t task hcompleted hpending hshows
  obtain ⟨hcompleted', hpending', hcell, hstate⟩ := h t task hcompleted hpending
  unfold ShowsCanceled at hshows
  rw [hcell] at hshows
  exact hstate (hq t task hcompleted' hpending' hshows)

theorem canceledTruly_enqueue (hq : Keyed q) (h : CanceledTruly q) (text : String)
    (metadata contextId : Json) (createdAt : Time) :
    CanceledTruly (q.enqueue t text metadata contextId createdAt).2 := by
  rcases enqueue_cases q t text metadata contextId createdAt with ⟨hno, -⟩ | ⟨-, -, hyes⟩
  · rw [hno]
    exact h
  · rw [hyes]
    refine h.of_frame fun t' filed hcompleted hpending => ?_
    have hne : t' ≠ t ∧ t' ∉ q.pending := by
      rw [← not_or]
      exact fun hmem => hpending (OrderedDict.mem_set_iff.mpr hmem)
    have hfresh : filed.ref ≠ q.objects.length :=
      (hq.wf.ref_lt filed (hq.wf.completed hcompleted).2).ne
    refine ⟨hcompleted, hne.2, Function.update_of_ne hfresh .., fun hstate => ?_⟩
    show (q.states.set t .submitted).get? t' = _
    rw [OrderedDict.get?_set_of_ne _ _ hne.1]
    exact hstate

theorem canceledTruly_requeueTasks (h : CanceledTruly q) (tasks : List PendingTask) :
    CanceledTruly (q.requeueTasks tasks) := by
  refine h.of_frame fun t task hcompleted hpending => ?_
  rw [requeueTasks_completed] at hcompleted
  rw [requeueTasks_cells, requeueTasks_states]
  refine ⟨hcompleted, fun hmem => hpending ?_, rfl, id⟩
  obtain ⟨task', hget⟩ := OrderedDict.mem_iff_exists.mp hmem
  exact OrderedDict.mem_of_get? (requeueTasks_of_pending hget)

theorem canceledTruly_transition (h : CanceledTruly q) (t : TaskId) (state : TaskState) :
    CanceledTruly (q.transition t state).2 := by
  refine h.of_frame fun t' task hcompleted hpending => ?_
  rw [transition_completed] at hcompleted
  rw [transition_pending] at hpending
  refine ⟨hcompleted, hpending, by rw [transition_cells], fun hstate => ?_⟩
  -- there is no way out of the state
  rw [transition_states, if_neg]
  · exact hstate
  · rintro ⟨rfl, hmem⟩
    rw [hstate] at hmem
    cases hmem

/-- What `cancel` files is canceled. -/
theorem canceledTruly_cancel (hq : Keyed q) (h : CanceledTruly q) (t : TaskId) :
    CanceledTruly (q.cancel t).2 := by
  cases hget : q.pending.get? t with
  | none =>
      rw [cancel_of_notMem (OrderedDict.get?_eq_none_iff.mp hget)]
      exact h
  | some task =>
      intro t' filed hcompleted hpending hshows
      have hmem := OrderedDict.mem_of_get? hget
      rw [cancel_states]
      by_cases hne : t' = t
      · rw [if_pos ⟨hne, hmem⟩]
      · rw [if_neg fun heq => hne heq.1]
        rw [cancel_completed_eq hget, OrderedDict.get?_set_of_ne _ _ hne] at hcompleted
        have hpending' : t' ∉ q.pending := fun hin => hpending (by
          rw [cancel_pending_eq]
          exact OrderedDict.mem_erase_iff.mpr ⟨hne, hin⟩)
        refine h t' filed hcompleted hpending' ?_
        have href := hq.ref_ne hget hcompleted hne
        unfold ShowsCanceled at hshows ⊢
        rwa [cancel_cells, hget, Option.map_some, if_neg fun heq => href (Option.some.inj heq).symm] at hshows

theorem canceledTruly_set_iff (h : CanceledTruly q) (t : TaskId) {state : TaskState}
    (hstate : state ≠ .canceled) :
    CanceledTruly { q with states := q.states.set t state } ↔
      (t ∉ q.pending → ∀ task ∈ q.completed.get? t, ¬ ShowsCanceled q task) := by
  constructor
  · intro htruly hpending task hcompleted hshows
    have hset : (q.states.set t state).get? t = some .canceled :=
      htruly t task hcompleted hpending hshows
    rw [OrderedDict.get?_set_self] at hset
    exact hstate (Option.some.inj hset)
  · intro hshown t' task hcompleted hpending hshows
    show (q.states.set t state).get? t' = _
    by_cases hne : t' = t
    · subst hne
      exact absurd hshows (hshown hpending task hcompleted)
    · rw [OrderedDict.get?_set_of_ne _ _ hne]
      exact h t' task hcompleted hpending hshows

theorem canceledTruly_write_iff (h : CanceledTruly q) (ref : ℕ) (f : Cell → Cell) :
    CanceledTruly (q.modifyCell ref f) ↔ (QueueEvent.write ref f).Unambiguous q := by
  have hshows : ∀ task, ShowsCanceled (q.modifyCell ref f) task ↔
      if ref = task.ref then (f (q.cells ref)).response = some "(canceled)"
      else ShowsCanceled q task := by
    intro task
    unfold ShowsCanceled
    rw [modifyCell_cells]
    by_cases href : ref = task.ref
    · rw [if_pos href, if_pos href, href]
    · rw [if_neg href, if_neg href]
  constructor
  · intro htruly hwritten entry hentry hpending href
    have hget : q.completed.get? entry.1 = some entry.2 := OrderedDict.get?_eq_some_iff.mpr hentry
    exact htruly _ _ hget hpending ((hshows _).mpr (by rwa [if_pos href.symm]))
  · intro hplain t task hcompleted hpending hshown
    rw [hshows] at hshown
    split_ifs at hshown with href
    · exact hplain hshown (t, task) (OrderedDict.get?_eq_some_iff.mp hcompleted) hpending href.symm
    · exact h t task hcompleted hpending hshown

/-! ### Completing -/

/-- The text that is shown by the task that `complete` takes out. -/
theorem showsCanceled_complete_iff (hget : q.pending.get? t = some task) :
    ¬ ShowsCanceled (q.complete t response).2 task ↔ LeavesOther (q.cells task.ref) response := by
  unfold ShowsCanceled LeavesOther
  rw [complete_cells, hget, Option.map_some, if_pos rfl, completeCell]
  cases hreturned : (q.cells task.ref).returned with
  | true => simp
  | false => simp [Cell.answer, Cell.write, Cell.setReady]

theorem notMem_pending_complete : t ∉ (q.complete t response).2.pending := by
  rw [← OrderedDict.get?_eq_none_iff, complete_pending, if_pos rfl]

/-- What is in the cache under the id afterwards: the task that is taken out, unless the cache
drops it at once. -/
theorem completed_complete_iff (hget : q.pending.get? t = some task) (filed : PendingTask) :
    (q.complete t response).2.completed.get? t = some filed ↔
      filed = task ∧ t ∉ q.trimmed .source t := by
  have hcompleted : (q.complete t response).2.completed =
      trimCompleted Caps.source.taskCacheMax (q.completed.set t task) := by
    unfold TaskQueue.complete
    rw [completeWithin_of_pending .source response hget]
  have heq : ∀ filed, (trimCompleted Caps.source.taskCacheMax
      (q.completed.set t task)).get? t = some filed → filed = task := by
    intro filed hfiled
    have hset := get?_trimCompleted hfiled
    rw [OrderedDict.get?_set_self] at hset
    exact (Option.some.inj hset).symm
  rw [hcompleted]
  constructor
  · intro hkept
    exact ⟨heq filed hkept, fun htrimmed =>
      not_kept_of_trimmed htrimmed task (OrderedDict.mem_of_get? hkept)⟩
  · rintro ⟨rfl, htrimmed⟩
    have hkept := (mem_trimmed_or_kept .source (Or.inl rfl) filed).resolve_left htrimmed
    obtain ⟨filed', hfiled⟩ := OrderedDict.mem_iff_exists.mp hkept
    rw [hfiled, heq filed' hfiled]

/-- **Both readers report the completion exactly if** the task is left with another text than
that of `cancel`, and left in the cache. -/
theorem reportsDone_iff (hq : Keyed (q.complete t response).2)
    (hget : q.pending.get? t = some task) :
    Reports (q.complete t response).2 t .completed ↔
      LeavesOther (q.cells task.ref) response ∧ t ∉ q.trimmed .source t := by
  have hstate : (q.complete t response).2.states.get? t = some .completed := by
    rw [complete_states, if_pos ⟨rfl, OrderedDict.mem_of_get? hget⟩]
  have hout : t ∉ (q.complete t response).2.pending := notMem_pending_complete
  rw [← showsCanceled_complete_iff hget]
  constructor
  · intro h
    -- the entry of the snapshot is the one of the cache
    have hfiled : (q.complete t response).2.completed.get? t = some task := by
      obtain ⟨entry, hentry, hid⟩ := h.held
      obtain ⟨filed, ⟨t', hpending⟩ | ⟨t', hcompleted⟩, rfl⟩ := mem_snapshot.mp hentry
      · obtain rfl := (hq.wf.pending hpending).1.symm.trans hid
        exact absurd (OrderedDict.mem_of_get? hpending) hout
      · obtain rfl := (hq.wf.completed hcompleted).1.symm.trans hid
        rwa [((completed_complete_iff hget filed).mp hcompleted).1] at hcompleted
    refine ⟨fun hshows => ?_, ((completed_complete_iff hget task).mp hfiled).2⟩
    obtain ⟨hid, hmem⟩ := hq.wf.completed hfiled
    have hstatus := h.status
    rw [hq.getStatus_eq hmem hid, if_pos ⟨hout, task, hfiled, hshows⟩] at hstatus
    cases hstatus
  · rintro ⟨hother, hkept⟩
    have hfiled : (q.complete t response).2.completed.get? t = some task :=
      (completed_complete_iff hget task).mpr ⟨rfl, hkept⟩
    obtain ⟨hid, hmem⟩ := hq.wf.completed hfiled
    refine ⟨?_, ⟨_, mem_snapshot.mpr ⟨task, Or.inr ⟨t, hfiled⟩, rfl⟩, hid⟩, ?_⟩
    · rw [hq.getStatus_eq hmem hid, hstate, if_neg]
      rintro ⟨-, filed, hfiled', hshows⟩
      obtain rfl := ((completed_complete_iff hget filed).mp hfiled').1
      exact hother hshows
    · intro entry hentry hsame
      obtain ⟨filed, -, rfl⟩ := mem_snapshot.mp hentry
      rw [hsame]
      exact hstate

theorem canceledTruly_complete (hq : Keyed q) (h : CanceledTruly q)
    (hget : q.pending.get? t = some task) (hother : LeavesOther (q.cells task.ref) response) :
    CanceledTruly (q.complete t response).2 := by
  intro t' filed hcompleted hpending hshows
  by_cases hne : t' = t
  · subst hne
    obtain rfl := ((completed_complete_iff hget filed).mp hcompleted).1
    exact absurd hshows ((showsCanceled_complete_iff hget).mpr hother)
  · have hold : q.completed.get? t' = some filed :=
      (complete_completed t response q hcompleted).resolve_right fun heq => hne heq.1
    have hpending' : t' ∉ q.pending := fun hin => hpending (by
      obtain ⟨task', hget'⟩ := OrderedDict.mem_iff_exists.mp hin
      rw [OrderedDict.mem_iff_exists]
      exact ⟨task', by rwa [complete_pending, if_neg hne]⟩)
    rw [complete_states, if_neg fun heq => hne heq.1]
    refine h t' filed hold hpending' ?_
    have href := hq.ref_ne hget hold hne
    unfold ShowsCanceled at hshows ⊢
    rwa [complete_cells, hget, Option.map_some,
      if_neg fun heq => href (Option.some.inj heq).symm] at hshows

end Agreement

/-! ### One step, and a run -/

section Step

variable {q : TaskQueue} {t : TaskId} {e : QueueEvent}

theorem reportsDone_of_ne (h : ∀ t response, e ≠ .call (.complete t response)) :
    e.ReportsDone q := fun t response heq => absurd heq (h t response)

theorem reportsDone_complete_iff (response : String)
    (hon : (QueueEvent.call (.complete t response)).on q = (q.complete t response).2) :
    (QueueEvent.call (.complete t response)).ReportsDone q ↔
      (t ∈ q.pending → Reports (q.complete t response).2 t .completed) := by
  unfold QueueEvent.ReportsDone
  rw [← hon]
  constructor
  · exact fun h => h t response rfl
  · intro h t' response' heq
    cases heq
    exact h

/-- An id that is no dictionary key is not held. -/
theorem Keyed.not_held (hq : Keyed q) (hhash : t.hashable ≠ true) :
    q.pending.get? t = none ∧ q.completed.get? t = none := by
  refine ⟨OrderedDict.get?_eq_none_iff.mpr fun hmem => ?_,
    OrderedDict.get?_eq_none_iff.mpr fun hmem => ?_⟩
  · obtain ⟨task, hget⟩ := OrderedDict.mem_iff_exists.mp hmem
    obtain ⟨rfl, hobject⟩ := hq.wf.pending hget
    exact hhash (hq.hashable task hobject)
  · obtain ⟨task, hget⟩ := OrderedDict.mem_iff_exists.mp hmem
    obtain ⟨rfl, hobject⟩ := hq.wf.completed hget
    exact hhash (hq.hashable task hobject)

/-- An operation that raises. -/
theorem unambiguous_of_not_hashable {o : QueueCall} (hq : Keyed q)
    (hkey : ¬ ∀ t ∈ o.key?, t.hashable = true) :
    (QueueEvent.call o).Unambiguous q ∧ (QueueEvent.call o).ReportsDone q := by
  cases o with
  | complete t response =>
      have hnone := (hq.not_held fun hhash => hkey fun _ heq => Option.some.inj heq ▸ hhash).1
      refine ⟨fun task htask => ?_, fun t' response' heq hmem => ?_⟩
      · rw [hnone] at htask
        cases htask
      · cases heq
        exact absurd hmem (OrderedDict.get?_eq_none_iff.mp hnone)
  | setAuthRequired t =>
      have hnone := (hq.not_held fun hhash => hkey fun _ heq => Option.some.inj heq ▸ hhash).2
      refine ⟨fun _ task htask => ?_, reportsDone_of_ne fun _ _ heq => by cases heq⟩
      rw [hnone] at htask
      cases htask
  | setAuthenticated t =>
      have hnone := (hq.not_held fun hhash => hkey fun _ heq => Option.some.inj heq ▸ hhash).2
      refine ⟨fun _ task htask => ?_, reportsDone_of_ne fun _ _ heq => by cases heq⟩
      rw [hnone] at htask
      cases htask
  | _ => exact ⟨trivial, reportsDone_of_ne fun _ _ heq => by cases heq⟩

/-- **One step**: its completion is reported and the readers still agree exactly if it is
unambiguous. -/
theorem reportsTruly_on_iff (hq : Keyed q) (hown : e.Requeues q) (h : Agree q) :
    (e.ReportsDone q ∧ Agree (e.on q)) ↔ e.Unambiguous q := by
  have hq' := hq.on hown
  rw [agrees_iff hq] at h
  rw [agrees_iff hq']
  cases e with
  | write ref f =>
      exact (and_iff_right (reportsDone_of_ne fun _ _ heq => by cases heq)).trans
        (canceledTruly_write_iff h ref f)
  | call o =>
      by_cases hkey : ∀ t ∈ o.key?, t.hashable = true
      · have hon : (QueueEvent.call o).on q = o.on .source q := if_pos hkey
        have hdone : (∀ t response, o ≠ .complete t response) →
            (QueueEvent.call o).ReportsDone q := fun hne =>
          reportsDone_of_ne fun t response heq => hne t response (QueueEvent.call.inj heq)
        rw [hon] at hq' ⊢
        cases o with
        | complete t response =>
            rw [reportsDone_complete_iff response hon]
            cases hget : q.pending.get? t with
            | none =>
                have hno := OrderedDict.get?_eq_none_iff.mp hget
                have hsame : CanceledTruly ((QueueCall.complete t response).on .source q) := by
                  show CanceledTruly (q.completeWithin .source t response).2
                  rw [completeWithin_of_notMem _ _ hno]
                  exact h
                refine iff_of_true ⟨fun hmem => absurd hmem hno, hsame⟩ fun task htask => ?_
                rw [hget] at htask
                cases htask
            | some task =>
                have hmem := OrderedDict.mem_of_get? hget
                constructor
                · rintro ⟨hreports, -⟩ task' htask'
                  obtain rfl := Option.some.inj (hget.symm.trans htask')
                  exact (reportsDone_iff hq' hget).mp (hreports hmem)
                · intro hplain
                  obtain ⟨hother, hkept⟩ := hplain task hget
                  exact ⟨fun _ => (reportsDone_iff hq' hget).mpr ⟨hother, hkept⟩,
                    canceledTruly_complete hq h hget hother⟩
        | enqueue t text metadata contextId createdAt =>
            exact iff_of_true ⟨hdone (fun _ _ heq => by cases heq),
              canceledTruly_enqueue hq h text metadata contextId createdAt⟩ trivial
        | requeueTasks tasks =>
            exact iff_of_true ⟨hdone (fun _ _ heq => by cases heq),
              canceledTruly_requeueTasks h tasks⟩ trivial
        | markProcessing t =>
            refine iff_of_true ⟨hdone (fun _ _ heq => by cases heq), ?_⟩ trivial
            show CanceledTruly (q.markProcessing t)
            refine h.of_frame fun t' task hcompleted hpending => ?_
            rw [markProcessing_completed] at hcompleted
            rw [markProcessing_pending] at hpending
            exact ⟨hcompleted, hpending, by rw [markProcessing_cells],
              fun hstate => by rwa [markProcessing_states]⟩
        | transition t state =>
            exact iff_of_true ⟨hdone (fun _ _ heq => by cases heq),
              canceledTruly_transition h t state⟩ trivial
        | cancel t =>
            exact iff_of_true ⟨hdone (fun _ _ heq => by cases heq),
              canceledTruly_cancel hq h t⟩ trivial
        | setAuthRequired t =>
            exact (and_iff_right (hdone fun _ _ heq => by cases heq)).trans
              (canceledTruly_set_iff h t fun heq => by cases heq)
        | setAuthenticated t =>
            exact (and_iff_right (hdone fun _ _ heq => by cases heq)).trans
              (canceledTruly_set_iff h t fun heq => by cases heq)
      · have hon : (QueueEvent.call o).on q = q := if_neg hkey
        obtain ⟨hplain, hdone⟩ := unambiguous_of_not_hashable hq hkey
        rw [hon]
        exact iff_of_true ⟨hdone, h⟩ hplain

end Step

/-- **Every completion is reported, and the two readers never differ, exactly if every
step is unambiguous.** -/
theorem reportsTruly_iff (events : List QueueEvent)
    (hown : Sequential.Each QueueEvent.on QueueEvent.Requeues events .empty) :
    (Sequential.Each QueueEvent.on QueueEvent.ReportsDone events .empty ∧
        Sequential.Always QueueEvent.on Agree events .empty) ↔
      Sequential.Each QueueEvent.on QueueEvent.Unambiguous events .empty :=
  Sequential.each_and_always_iff (J := Keyed) (I := Agree) (fun _ _ hq hown => hq.on hown)
    (fun _ _ hq hown h => reportsTruly_on_iff hq hown h) Keyed.empty
    ((agrees_iff .empty).mpr fun t task h => by cases h) hown

/-- The task of the example. -/
def answeredTask : PendingTask := ⟨0, .str "a", "", .obj [], .null, 0⟩

/-- One task, which is drained, handed back and completed with this response. -/
def answering (response : String) : List QueueEvent :=
  [.call (.enqueue (.str "a") "" (.obj []) .null 0), .call (.requeueTasks [answeredTask]),
    .call (.complete (.str "a") response)]

theorem reportsTruly_answering :
    Sequential.Each QueueEvent.on QueueEvent.ReportsDone (answering "done") .empty ∧
      Sequential.Always QueueEvent.on Agree (answering "done") .empty :=
  (reportsTruly_iff (answering "done") (by decide +kernel)).mpr (by decide +kernel)

/-- **An agent that answers `(canceled)`**: `get_status` reports the task as canceled, and
`snapshot` as completed. -/
theorem answer_read_as_state :
    let q := Sequential.run QueueEvent.on (answering "(canceled)") .empty
    q.getStatus (.str "a") = .ok ⟨some .canceled, none⟩ ∧
      q.snapshot = [(0, answeredTask, some .completed)] ∧
      ¬ (Sequential.Each QueueEvent.on QueueEvent.ReportsDone (answering "(canceled)") .empty ∧
        Sequential.Always QueueEvent.on Agree (answering "(canceled)") .empty) := by
  have hstatus : (Sequential.run QueueEvent.on (answering "(canceled)") .empty).getStatus
      (.str "a") = .ok ⟨some .canceled, none⟩ := by decide +kernel
  refine ⟨hstatus, by decide +kernel, fun h => ?_⟩
  have hdone := h.1.2.2.1 (.str "a") "(canceled)" rfl (by decide +kernel)
  have hread := hstatus.symm.trans hdone.status
  cases hread

end HermesA2A
