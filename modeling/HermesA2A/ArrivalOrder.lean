import HermesA2A.Answers
import HermesA2A.Injection
import HermesA2A.QueueRuns
import Mathlib.Data.List.Sort

/-!
# Arrival order

What `pre_llm_call` injects when hook calls do not overlap: every call is carried out
as a whole (`Prog.alone`), between `enqueue`, `cancel` and `complete` calls.

A call drains the unclaimed tasks, claims the first and requeues the others, which
never left.  New tasks come in at the end, so the tasks injected so far were all
accepted before the unclaimed ones that are still pending; that is the invariant,
`Orderly`.

* `preLlmCall_alone_cons` — the whole call as one step of the queue.
* `Orderly.accept`, `Orderly.leave`, `Orderly.claim` — the three kinds of steps.
* `arrival_order` — what the claimed tasks of a whole run are.
-/

namespace HermesA2A

open TaskQueue

/-! ### Turns -/

/-- A call that nothing overlaps; the metadata of a task is a dictionary. -/
inductive Turn
  | enqueue (t : TaskId) (text : String) (fields : List (String × Json)) (contextId : Json)
      (createdAt : Time)
  | cancel (t : TaskId)
  | complete (t : TaskId) (response : String)
  | preLlmCall

/-- The shared state, and the tasks injected so far, oldest first. -/
structure Session where
  world : World
  injected : List PendingTask

/-- The first session. -/
def Session.start (clock : Time) : Session := ⟨World.init clock, []⟩

/-- The task a `pre_llm_call` has injected, if it returned a context: the first of those
it drained. -/
def injectedBy : Outcome → List Event → Option PendingTask
  | .context (some _), events => (events.head?.bind drained?).bind List.head?
  | _, _ => none

/-- A whole `pre_llm_call`: how it ends, the state after it, and what it did. -/
def Session.preLlmCall (P : Platform) (s : Session) : Option (Outcome × World × List Event) :=
  HermesA2A.preLlmCall.alone (Prog.recording (exec P)) (s.world, [])

/-- What a turn does. -/
def Turn.on (P : Platform) : Turn → Session → Session
  | enqueue t text fields contextId createdAt, s =>
      { s with world := (Op.enqueue t text (.obj fields) contextId createdAt).after P s.world }
  | cancel t, s => { s with world := (Op.cancel t).after P s.world }
  | complete t response, s => { s with world := (Op.complete t response).after P s.world }
  | preLlmCall, s =>
      match s.preLlmCall P with
      | some (outcome, world, events) => ⟨world, s.injected ++ (injectedBy outcome events).toList⟩
      | none => s

/-! ### The whole call -/

section Call

variable {P : Platform} {w : World} {task : PendingTask} {rest : List PendingTask}

theorem recording_act {o : Op} {α : Type} {f : o.Res → Proc α} {events : List Event}
    (h : o.blocked w = false) :
    (act o >>= f).alone (Prog.recording (exec P)) (w, events) =
      (f (o.answer P w)).alone (Prog.recording (exec P))
        (o.after P w, events ++ [⟨o, o.answer P w⟩]) := by
  show (Prog.recording (exec P) o (w, events)).bind _ = _
  unfold Prog.recording exec
  rw [if_neg (by simp [h])]
  rfl

/-- With nothing to inject, the call ends at once. -/
theorem preLlmCall_alone_nil (h : w.queue.drainPending [] = []) :
    preLlmCall.alone (Prog.recording (exec P)) (w, []) =
      some (.context none, w, [⟨.drainPending, []⟩]) := by
  have hanswer : Op.drainPending.answer P w = [] := h
  unfold preLlmCall
  rw [recording_act rfl, hanswer]
  rfl

/-- The queue after a call that injects `task`. -/
def TaskQueue.injecting (task : PendingTask) (q : TaskQueue) : TaskQueue :=
  (q.transition task.taskId .working).2.markProcessing task.taskId

@[simp] theorem injecting_pending (task : PendingTask) (q : TaskQueue) :
    (q.injecting task).pending = q.pending := by
  rw [injecting, markProcessing_pending, transition_pending]

@[simp] theorem injecting_objects (q : TaskQueue) : (q.injecting task).objects = q.objects := by
  rw [injecting, markProcessing_objects, transition_objects]

theorem mem_injecting_processing {q : TaskQueue} {t : TaskId} :
    t ∈ (q.injecting task).processing ↔
      t ∈ q.processing ∨ (t = task.taskId ∧ task.taskId ∈ q.pending) := by
  rw [injecting, mem_markProcessing, transition_processing, transition_pending]

/-- What was drained and not injected is requeued for nothing: it is still pending. -/
theorem requeueTasks_drained {q q' : TaskQueue} {tasks : List PendingTask} (hq : q.Represented)
    (hsub : tasks ⊆ q.drainPending []) (hpending : q'.pending = q.pending) :
    q'.requeueTasks tasks = q' := by
  refine requeueTasks_eq_self fun task htask => ?_
  obtain ⟨t, hget⟩ := OrderedDict.mem_values_iff_get?.mp (List.mem_filter.mp (hsub htask)).1
  rw [hpending, hq.pending t task hget]
  exact OrderedDict.mem_of_get? hget

/-- **The whole call is one step of the queue**: it claims the first drained task. -/
theorem preLlmCall_alone_cons (hq : w.queue.Represented)
    (h : w.queue.drainPending [] = task :: rest) {fields : List (String × Json)}
    (hfields : task.metadata = .obj fields) :
    ∃ sender events,
      preLlmCall.alone (Prog.recording (exec P)) (w, []) =
        some (.context (some (triggerContext task.taskId sender task.text)),
          w.withQueue (w.queue.injecting task), ⟨.drainPending, task :: rest⟩ :: events) := by
  have hanswer : Op.drainPending.answer P w = task :: rest := h
  unfold preLlmCall
  rw [recording_act rfl, hanswer]
  dsimp only
  rw [hfields, Json.get_obj]
  dsimp only
  cases rest with
  | nil => exact ⟨_, _, rfl⟩
  | cons next rest =>
      have hsame := requeueTasks_drained hq (h ▸ List.subset_cons_self task (next :: rest))
        (injecting_pending task w.queue)
      rw [← hsame]
      exact ⟨_, _, rfl⟩

end Call

/-! ### The invariant -/

/-- **The order of a queue and of the tasks injected so far.**  Identities are given in
the order of acceptance. -/
structure Orderly (q : TaskQueue) (injected : List PendingTask) : Prop where
  represented : q.Represented
  refs : q.objects.map PendingTask.ref = List.range q.objects.length
  known : ∀ task ∈ q.pending.values, task ∈ q.objects ∧ ∃ fields, task.metadata = .obj fields
  sorted : q.pending.values.Pairwise fun task task' => task.ref < task'.ref
  injected_known : ∀ task ∈ injected, task ∈ q.objects
  injected_sorted : injected.Pairwise fun task task' => task.ref < task'.ref
  /-- What is still to be injected was accepted later. -/
  later : ∀ a ∈ injected, ∀ task ∈ q.pending.values, task.taskId ∉ q.processing → a.ref < task.ref

namespace Orderly

variable {q q' : TaskQueue} {injected : List PendingTask} {task : PendingTask}

theorem start : Orderly .empty [] where
  represented := .empty
  refs := rfl
  known := fun _ h => absurd h List.not_mem_nil
  sorted := List.Pairwise.nil
  injected_known := fun _ h => absurd h List.not_mem_nil
  injected_sorted := List.Pairwise.nil
  later := fun _ h => absurd h List.not_mem_nil

theorem ref_lt (h : Orderly q injected) (hmem : task ∈ q.objects) :
    task.ref < q.objects.length := by
  have href : task.ref ∈ q.objects.map PendingTask.ref := List.mem_map_of_mem hmem
  rw [h.refs] at href
  exact List.mem_range.mp href

/-- The accepted tasks, and so the injected ones, are in the order of acceptance. -/
theorem objects_sorted (h : Orderly q injected) :
    q.objects.Pairwise fun task task' => task.ref < task'.ref := by
  have hsorted : (q.objects.map PendingTask.ref).Pairwise (· < ·) := by
    rw [h.refs]
    exact List.pairwise_lt_range
  exact List.pairwise_map.mp hsorted

theorem injected_sublist (h : Orderly q injected) : injected.Sublist q.objects := by
  have hirrefl : Std.Irrefl fun task task' : PendingTask => task.ref < task'.ref :=
    ⟨fun _ => Nat.lt_irrefl _⟩
  have hantisymm : Std.Antisymm fun task task' : PendingTask => task.ref < task'.ref :=
    ⟨fun _ _ hlt hgt => absurd hlt (Nat.lt_asymm hgt)⟩
  exact List.sublist_of_subperm_of_pairwise
    (List.subperm_of_subset h.injected_sorted.nodup h.injected_known)
    h.injected_sorted h.objects_sorted

/-- A new task comes last. -/
theorem accept (h : Orderly q injected) (task : PendingTask) (htask : task.ref = q.objects.length)
    (hnew : task.taskId ∉ q.pending) (fields : List (String × Json))
    (hfields : task.metadata = .obj fields) (hq' : q'.Represented)
    (hobjects : q'.objects = q.objects ++ [task])
    (hpending : q'.pending = q.pending.set task.taskId task)
    (hprocessing : q'.processing = q.processing) : Orderly q' injected := by
  have hvalues : q'.pending.values = q.pending.values ++ [task] := by
    rw [hpending, OrderedDict.values, OrderedDict.entries_set_of_notMem _ hnew, List.map_append]
    rfl
  refine ⟨hq', ?_, ?_, ?_, ?_, h.injected_sorted, ?_⟩
  · rw [hobjects, List.map_append, h.refs, List.length_append, List.length_singleton,
      List.range_succ, List.map_singleton, htask]
  · rw [hvalues, hobjects]
    intro a ha
    rcases List.mem_append.mp ha with ha | ha
    · exact (h.known a ha).imp_left (List.mem_append_left _)
    · obtain rfl := List.mem_singleton.mp ha
      exact ⟨List.mem_append_right _ ha, fields, hfields⟩
  · rw [hvalues, List.pairwise_append]
    refine ⟨h.sorted, List.pairwise_singleton _ _, fun a ha b hb => ?_⟩
    rw [List.mem_singleton.mp hb, htask]
    exact h.ref_lt (h.known a ha).1
  · rw [hobjects]
    exact fun a ha => List.mem_append_left _ (h.injected_known a ha)
  · rw [hvalues, hprocessing]
    intro a ha b hb hno
    rcases List.mem_append.mp hb with hb | hb
    · exact h.later a ha b hb hno
    · rw [List.mem_singleton.mp hb, htask]
      exact h.ref_lt (h.injected_known a ha)

/-- A task leaves, with its claim. -/
theorem leave (h : Orderly q injected) (t : TaskId) (hq' : q'.Represented)
    (hobjects : q'.objects = q.objects) (hpending : q'.pending = q.pending.erase t)
    (hprocessing : q'.processing = q.processing.filter (· ≠ t)) : Orderly q' injected := by
  have hsub : q'.pending.values.Sublist q.pending.values := by
    rw [hpending]
    exact List.filter_sublist.map Prod.snd
  refine ⟨hq', ?_, ?_, h.sorted.sublist hsub, ?_, h.injected_sorted, ?_⟩
  · rw [hobjects, h.refs]
  · rw [hobjects]
    exact fun a ha => h.known a (hsub.subset ha)
  · rw [hobjects]
    exact h.injected_known
  · intro a ha b hb hno
    refine h.later a ha b (hsub.subset hb) fun hclaimed => hno ?_
    obtain ⟨t', hget⟩ := OrderedDict.mem_values_iff_get?.mp hb
    have hne : b.taskId ≠ t := by
      rw [hq'.pending t' b hget]
      rw [hpending] at hget
      exact (OrderedDict.mem_erase_iff.mp (OrderedDict.mem_of_get? hget)).1
    rw [hprocessing]
    exact List.mem_filter.mpr ⟨hclaimed, decide_eq_true hne⟩

/-- The first unclaimed task is claimed and injected. -/
theorem claim (h : Orderly q injected) {rest : List PendingTask}
    (hdrained : q.drainPending [] = task :: rest) :
    Orderly (q.injecting task) (injected ++ [task]) := by
  have hfirst : task ∈ q.drainPending [] := hdrained ▸ List.mem_cons_self
  obtain ⟨hmem, hunclaimed⟩ := List.mem_filter.mp hfirst
  have hunclaimed : task.taskId ∉ q.processing := (of_decide_eq_true hunclaimed).2
  have hpending : task.taskId ∈ q.pending := by
    obtain ⟨t, hget⟩ := OrderedDict.mem_values_iff_get?.mp hmem
    rw [h.represented.pending t task hget]
    exact OrderedDict.mem_of_get? hget
  have hsorted : (task :: rest).Pairwise fun task task' => task.ref < task'.ref :=
    hdrained ▸ h.sorted.filter _
  refine ⟨(h.represented.transition ..).markProcessing _, ?_, ?_, ?_, ?_, ?_, ?_⟩
  · rw [injecting_objects, h.refs]
  · rw [injecting_pending, injecting_objects]
    exact h.known
  · rw [injecting_pending]
    exact h.sorted
  · rw [injecting_objects]
    intro a ha
    rcases List.mem_append.mp ha with ha | ha
    · exact h.injected_known a ha
    · exact List.mem_singleton.mp ha ▸ (h.known task hmem).1
  · rw [List.pairwise_append]
    refine ⟨h.injected_sorted, List.pairwise_singleton _ _, fun a ha b hb => ?_⟩
    rw [List.mem_singleton.mp hb]
    exact h.later a ha task hmem hunclaimed
  · rw [injecting_pending]
    intro a ha b hb hno
    rw [mem_injecting_processing, not_or] at hno
    rcases List.mem_append.mp ha with ha | ha
    · exact h.later a ha b hb hno.1
    · rw [List.mem_singleton.mp ha]
      have hin : b ∈ q.drainPending [] :=
        List.mem_filter.mpr ⟨hb, decide_eq_true ⟨List.not_mem_nil, hno.1⟩⟩
      rw [hdrained] at hin
      rcases List.mem_cons.mp hin with rfl | hin
      · exact absurd ⟨rfl, hpending⟩ hno.2
      · exact List.rel_of_pairwise_cons hsorted hin

theorem complete (h : Orderly q injected) (t : TaskId) (response : String) :
    Orderly (q.complete t response).2 injected :=
  h.leave t (h.represented.complete .source t response) (complete_objects ..)
    (completeWithin_pending .source t response q) (complete_processing ..)

theorem cancel (h : Orderly q injected) (t : TaskId) : Orderly (q.cancel t).2 injected :=
  h.leave t (h.represented.cancel t) (cancel_objects ..) (cancel_pending_eq t q)
    (cancel_processing ..)

theorem enqueue (h : Orderly q injected) (t : TaskId) (text : String)
    (fields : List (String × Json)) (contextId : Json) (createdAt : Time) :
    Orderly (q.enqueue t text (.obj fields) contextId createdAt).2 injected := by
  have hq' : (q.enqueue t text (.obj fields) contextId createdAt).2.Represented :=
    h.represented.on .source (.enqueue t text (.obj fields) contextId createdAt)
  rcases enqueue_cases q t text (.obj fields) contextId createdAt with ⟨hno, -⟩ | ⟨hnew, -, hyes⟩
  · rw [hno]
    exact h
  · rw [hyes] at hq' ⊢
    exact h.accept (q.newTask t text (.obj fields) contextId createdAt) rfl hnew fields rfl hq'
      rfl rfl rfl

end Orderly

/-! ### Turns and runs -/

section Runs

variable {P : Platform} {s : Session}

/-- How a `pre_llm_call` of an orderly session ends: with no context, all pending tasks
being processed, or with the first unclaimed task. -/
theorem Orderly.preLlmCall (h : Orderly s.world.queue s.injected) (P : Platform) :
    (∃ events, s.preLlmCall P = some (.context none, s.world, events) ∧
        ∀ t ∈ s.world.queue.pending, t ∈ s.world.queue.processing) ∨
      ∃ task rest sender events, s.world.queue.drainPending [] = task :: rest ∧
        s.preLlmCall P = some
          (.context (some (triggerContext task.taskId sender task.text)),
            s.world.withQueue (s.world.queue.injecting task), events) ∧
        injectedBy (.context (some (triggerContext task.taskId sender task.text))) events =
          some task := by
  cases hdrained : s.world.queue.drainPending [] with
  | nil =>
      refine Or.inl ⟨_, preLlmCall_alone_nil hdrained, fun t ht => ?_⟩
      obtain ⟨task, hget⟩ := OrderedDict.mem_iff_exists.mp ht
      have hno := List.filter_eq_nil_iff.mp hdrained task
        (OrderedDict.mem_values_iff_get?.mpr ⟨t, hget⟩)
      simpa [h.represented.pending t task hget] using hno
  | cons task rest =>
      have hfirst : task ∈ s.world.queue.drainPending [] := hdrained ▸ List.mem_cons_self
      obtain ⟨-, fields, hfields⟩ := h.known task (List.mem_filter.mp hfirst).1
      obtain ⟨sender, events, hcall⟩ :=
        preLlmCall_alone_cons (P := P) h.represented hdrained hfields
      exact Or.inr ⟨task, rest, sender, _, rfl, hcall, rfl⟩

theorem Orderly.on (o : Turn) (h : Orderly s.world.queue s.injected) :
    Orderly (o.on P s).world.queue (o.on P s).injected := by
  cases o with
  | enqueue t text fields contextId createdAt => exact h.enqueue t text fields contextId createdAt
  | cancel t => exact h.cancel t
  | complete t response => exact h.complete t response
  | preLlmCall =>
      simp only [Turn.on]
      rcases h.preLlmCall P with
        ⟨events, hcall, -⟩ | ⟨task, rest, sender, events, hdrained, hcall, hin⟩
      · rw [hcall]
        simpa [injectedBy] using h
      · rw [hcall]
        dsimp only
        rw [hin]
        exact h.claim hdrained

theorem orderly_run (P : Platform) (clock : Time) (turns : List Turn) :
    Orderly (Sequential.run (Turn.on P) turns (.start clock)).world.queue
      (Sequential.run (Turn.on P) turns (.start clock)).injected :=
  Sequential.run_invariant (I := fun s : Session => Orderly s.world.queue s.injected)
    (fun o _ h => h.on o) turns Orderly.start

end Runs

/-- **Arrival order.**  After any calls that do not overlap, the injected tasks are some
of the accepted ones, in the order of acceptance, each of them once.  The next
`pre_llm_call` ends: with no context only if every pending task is being processed, else
with that of a task that is pending and not being processed.  It leaves the pending tasks
as they are, and the requeue of what else it drained changes nothing. -/
theorem arrival_order (P : Platform) (clock : Time) (turns : List Turn) :
    let s := Sequential.run (Turn.on P) turns (.start clock)
    let q := s.world.queue
    s.injected.Sublist q.objects ∧ q.objects.Nodup ∧
      ∃ outcome world events, s.preLlmCall P = some (outcome, world, events) ∧
        (outcome = .context none ∨ ∃ task, injectedBy outcome events = some task) ∧
        (outcome = .context none → ∀ t ∈ q.pending, t ∈ q.processing) ∧
        (∀ task, injectedBy outcome events = some task →
          q.pending.get? task.taskId = some task ∧ task.taskId ∉ q.processing ∧
            ∃ sender, outcome =
              .context (some (triggerContext task.taskId sender task.text))) ∧
        world.queue.pending = q.pending ∧ world.queue.pendingCount = q.pendingCount ∧
        ∀ q' : TaskQueue, q'.pending = q.pending →
          q'.requeueTasks (q.drainPending []).tail = q' := by
  intro s q
  have h : Orderly q s.injected := orderly_run P clock turns
  have hrequeue : ∀ q' : TaskQueue, q'.pending = q.pending →
      q'.requeueTasks (q.drainPending []).tail = q' :=
    fun q' => requeueTasks_drained h.represented (List.tail_subset _)
  refine ⟨h.injected_sublist, h.objects_sorted.nodup, ?_⟩
  rcases h.preLlmCall P with
    ⟨events, hcall, hall⟩ | ⟨task, rest, sender, events, hdrained, hcall, hin⟩
  · exact ⟨_, _, _, hcall, Or.inl rfl, fun _ => hall, nofun, rfl, rfl, hrequeue⟩
  · have hfirst : task ∈ q.drainPending [] := hdrained ▸ List.mem_cons_self
    obtain ⟨hmem, hunclaimed⟩ := List.mem_filter.mp hfirst
    obtain ⟨t, hget⟩ := OrderedDict.mem_values_iff_get?.mp hmem
    have hclaim := (h.claim hdrained).represented
    refine ⟨_, _, _, hcall, Or.inr ⟨task, hin⟩, nofun, ?_, injecting_pending .., ?_, hrequeue⟩
    · intro task' htask'
      obtain rfl : task = task' := Option.some.inj (hin.symm.trans htask')
      rw [h.represented.pending t task hget]
      exact ⟨hget, h.represented.pending t task hget ▸ (of_decide_eq_true hunclaimed).2,
        sender, rfl⟩
    · show (q.injecting task).pendingCount = _
      rw [hclaim.pendingCount_eq, h.represented.pendingCount_eq, injecting_pending]

end HermesA2A
