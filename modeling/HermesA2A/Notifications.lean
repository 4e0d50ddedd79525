import HermesA2A.Cancellation
import HermesA2A.StateMachine
import Mathlib.Data.List.Perm.Subperm

/-!
# State changes and their announcements

The queue does not announce what it does.  `_trigger_state_change_hook` is called by
`pre_llm_call` and `post_llm_call`, after a `transition` and a `complete` whose answers
they do not look at, with an old state that one of them takes for granted and the
other has read one lock section earlier; CancelTask calls it not at all.

`announcesTruly` is what would have to hold at each step for the announcements to be
the changes.  Where it does, a hook that has changed a state owes the announcement
(`owed`) and makes it as its next step but one.
-/

namespace HermesA2A

open Machine

/-! ### Changes and announcements -/

/-- The change of a task's recorded state from one queue to the next, if there is
one; a first record is none. -/
def stateChange? (t : TaskId) (q q' : TaskQueue) : Option (String × String) :=
  match q.states.get? t, q'.states.get? t with
  | some old, some new => if old = new then none else some (old.name, new.name)
  | _, _ => none

/-- The changes of a task's recorded state along a trace, each with the thread that
made it. -/
def changes (t : TaskId) : TaskQueue → Trace → List (ℕ × String × String)
  | _, [] => []
  | q, (i, e) :: tr =>
      ((stateChange? t q (e.op.onQueue q)).map (Prod.mk i)).toList ++
        changes t (e.op.onQueue q) tr

/-- What an event announces about a task: `on_state_change(t, old, new)`. -/
def announced? (t : TaskId) : Event → Option (String × String)
  | ⟨.stateHook t' old new _, _⟩ => if t' = t then some (old, new.name) else none
  | _ => none

/-- The announcements about a task in a trace, each with its thread. -/
def announcements (t : TaskId) (tr : Trace) : List (ℕ × String × String) :=
  tr.filterMap fun e => (announced? t e.2).map (Prod.mk e.1)

theorem changes_snoc (t : TaskId) (q : TaskQueue) (tr : Trace) (i : ℕ) (e : Event) :
    changes t q (tr ++ [(i, e)]) = changes t q tr ++
      ((stateChange? t (queueAfter q tr) (e.op.onQueue (queueAfter q tr))).map
        (Prod.mk i)).toList := by
  induction tr generalizing q with
  | nil => simp [changes]
  | cons e' tr ih =>
      obtain ⟨j, e'⟩ := e'
      rw [List.cons_append, changes, changes, ih, List.append_assoc]
      rfl

theorem announcements_snoc (t : TaskId) (tr : Trace) (i : ℕ) (e : Event) :
    announcements t (tr ++ [(i, e)]) =
      announcements t tr ++ ((announced? t e).map (Prod.mk i)).toList := by
  unfold announcements
  rw [List.filterMap_append]
  cases h : announced? t e <;> simp [h]

/-! ### Comparing lists thread by thread -/

section Threads

variable {β : Type*}

theorem filter_tagged_self (i : ℕ) (x : Option β) :
    ((x.map (Prod.mk i)).toList.filter fun y => y.1 = i) = (x.map (Prod.mk i)).toList := by
  cases x <;> simp

theorem filter_tagged_of_ne {i j : ℕ} (hij : j ≠ i) (x : Option β) :
    ((x.map (Prod.mk j)).toList.filter fun y => y.1 = i) = [] := by
  cases x <;> simp [hij]

variable [DecidableEq β] {l l' : List (ℕ × β)}

theorem count_eq_count_filter (x : ℕ × β) (l : List (ℕ × β)) :
    l.count x = (l.filter fun y => y.1 = x.1).count x := by
  rw [List.count_filter]
  simp

/-- Lists that agree thread by thread agree up to order. -/
theorem perm_of_filter_eq (h : ∀ i, (l.filter fun y => y.1 = i) = l'.filter fun y => y.1 = i) :
    l.Perm l' := by
  rw [List.perm_iff_count]
  intro x
  rw [count_eq_count_filter, h, ← count_eq_count_filter]

theorem subperm_of_filter_sublist
    (h : ∀ i, List.Sublist (l.filter fun y => y.1 = i) (l'.filter fun y => y.1 = i)) :
    l.Subperm l' := by
  rw [List.subperm_ext_iff]
  intro x _
  rw [count_eq_count_filter x l, count_eq_count_filter x l']
  exact (h x.1).count_le x

end Threads

/-! ### What a hook owes -/

/-- The announcement about `t` that a thread has still to make: it has moved the task
or completed it, and not yet called the hook. -/
def owed (t : TaskId) (h : List Event) : Option (String × String) :=
  match h.reverse with
  | ⟨.transition t' s, _⟩ :: _ =>
      if t' = t then some (TaskState.submitted.name, s.name) else none
  | ⟨.markProcessing t', _⟩ :: _ =>
      if t' = t then some (TaskState.submitted.name, TaskState.working.name) else none
  | ⟨.complete t' _, _⟩ :: ⟨.getStatus _, .ok status⟩ :: _ =>
      if t' = t then some (status.name, TaskState.completed.name) else none
  | _ => none

/-- The steps only the hooks make. -/
def Op.hookOnly : Op → Bool
  | .transition .. => true
  | .markProcessing _ => true
  | .complete .. => true
  | .stateHook .. => true
  | _ => false

/-- Who owes what before a step. -/
def OwesBefore (h : List Event) : Op → Prop
  | .transition _ s => s = .working ∧ ∀ t, owed t h = none
  | .markProcessing t =>
      ∀ t', owed t' h =
        if t = t' then some (TaskState.submitted.name, TaskState.working.name) else none
  | .complete t _ =>
      (∃ h' status, h = h' ++ [⟨.getStatus t, .ok status⟩]) ∧ ∀ t', owed t' h = none
  | .stateHook t old new _ => ∀ t', owed t' h = if t = t' then some (old, new.name) else none
  | _ => ∀ t, owed t h = none

/-- Nobody ends in debt. -/
def OwesNothing (h : List Event) (_ : Outcome) : Prop := ∀ t, owed t h = none

theorem owed_nil (t : TaskId) : owed t [] = none := rfl

theorem owed_snoc (t : TaskId) (h : List Event) {o : Op} (ho : o.hookOnly = false) (r : o.Res) :
    owed t (h ++ [⟨o, r⟩]) = none := by
  unfold owed
  rw [List.reverse_append]
  cases o <;> first | rfl | cases ho

theorem owed_snoc_hook (t t' : TaskId) (h : List Event) (old : String) (new : TaskState)
    (contextId : Json) : owed t (h ++ [⟨.stateHook t' old new contextId, ()⟩]) = none := by
  unfold owed
  rw [List.reverse_append]
  rfl

theorem owed_snoc_transition (t t' : TaskId) (h : List Event) (s : TaskState) (moved : Bool) :
    owed t (h ++ [⟨.transition t' s, moved⟩]) =
      if t' = t then some (TaskState.submitted.name, s.name) else none := by
  unfold owed
  rw [List.reverse_append]
  rfl

theorem owed_snoc_markProcessing (t t' : TaskId) (h : List Event) :
    owed t (h ++ [⟨.markProcessing t', ()⟩]) =
      if t' = t then some (TaskState.submitted.name, TaskState.working.name) else none := by
  unfold owed
  rw [List.reverse_append]
  rfl

theorem owed_snoc_complete (t t' : TaskId) (h : List Event) (status : Status) (response : String)
    (taken : Option PendingTask) :
    owed t (h ++ [⟨.getStatus t', .ok status⟩] ++ [⟨.complete t' response, taken⟩]) =
      if t' = t then some (status.name, TaskState.completed.name) else none := by
  unfold owed
  rw [List.reverse_append, List.reverse_append]
  rfl

/-- A program that makes none of the hooks' steps owes nothing. -/
theorem owes_of_hookFree : ∀ {p : Proc Outcome} {h : List Event},
    p.Meets (fun _ o => o.hookOnly = false) (fun _ _ => True) h → (∀ t, owed t h = none) →
      p.Meets OwesBefore OwesNothing h := by
  intro p
  induction p with
  | ret outcome => exact fun _ hnone => hnone
  | step o k ih =>
      rintro h ⟨ho, hrest⟩ hnone
      refine ⟨?_, fun r => ih r (hrest r) fun t => owed_snoc t h ho r⟩
      cases o <;> first | exact hnone | cases ho

theorem preLlmCall_owes : preLlmCall.Meets OwesBefore OwesNothing [] := by
  refine ⟨owed_nil, ?_⟩
  rintro (_ | ⟨task, rest⟩)
  · exact fun t => owed_snoc t [] rfl _
  dsimp only [Prog.bind]
  cases task.metadata.get "sender_name" (.str "unknown") with
  | error e => exact fun t => owed_snoc t [] rfl _
  | ok sender =>
      refine ⟨⟨rfl, fun t => owed_snoc t [] rfl _⟩, fun moved => ?_⟩
      refine ⟨fun t => owed_snoc_transition .., fun _ => ?_⟩
      refine ⟨fun t => owed_snoc_markProcessing .., fun _ => ?_⟩
      cases rest with
      | nil => exact fun t => owed_snoc_hook ..
      | cons next rest =>
          exact ⟨fun t => owed_snoc_hook .., fun _ t => owed_snoc t _ rfl _⟩

theorem completeTask_owes (t : TaskId) (response : String) {h : List Event}
    (hnone : ∀ t, owed t h = none) : (completeTask t response).Meets OwesBefore OwesNothing h := by
  refine ⟨hnone, ?_⟩
  rintro (e | status)
  · exact fun t => owed_snoc t h rfl _
  · refine ⟨⟨⟨h, status, rfl⟩, fun t => owed_snoc t h rfl _⟩, fun taken => ?_⟩
    exact ⟨fun t => owed_snoc_complete .., fun _ t => owed_snoc_hook ..⟩

theorem postLlmCall_owes (taskId : Json) (response : String) (turn turn' : ℕ) :
    (postLlmCall taskId response turn turn').Meets OwesBefore OwesNothing [] := by
  have hafter : ∀ h, (∀ t, owed t h = none) →
      (postLlmCall.afterwards response turn').Meets OwesBefore OwesNothing h := by
    intro h hnone
    refine ⟨hnone, ?_⟩
    rintro (_ | ⟨t, _⟩)
    · exact fun t => owed_snoc t h rfl _
    · exact completeTask_owes t response fun t => owed_snoc t h rfl _
  unfold postLlmCall
  split_ifs
  · exact owed_nil
  · exact completeTask_owes taskId response owed_nil
  · refine ⟨owed_nil, ?_⟩
    rintro (_ | ⟨t, ts⟩)
    · exact hafter _ fun t => owed_snoc t [] rfl _
    · show (if t.truthy = true then _ else _ : Proc _).Meets _ _ _
      split_ifs
      · exact completeTask_owes t response fun t => owed_snoc t [] rfl _
      · exact hafter _ fun t => owed_snoc t [] rfl _

/-- A call that is no hook makes none of the hooks' steps. -/
theorem hookOnly_of_pre {P : Platform} {x : Call} {h : List Event} {o : Op} (hpre : x.pre P h o)
    (hpreHook : x ≠ .preLlmCall)
    (hpostHook : ∀ taskId response turn turn', x ≠ .postLlmCall taskId response turn turn') :
    o.hookOnly = false := by
  cases o with
  | transition =>
      obtain ⟨_, _, hx, _⟩ := hpre
      exact absurd hx hpreHook
  | markProcessing =>
      obtain ⟨_, _, _, hx, _⟩ := hpre
      exact absurd hx hpreHook
  | complete =>
      obtain ⟨_, _, _, hx⟩ := hpre
      exact absurd hx (hpostHook _ _ _ _)
  | stateHook =>
      rcases hpre with hx | ⟨_, _, _, _, hx⟩
      · exact absurd hx hpreHook
      · exact absurd hx (hpostHook _ _ _ _)
  | _ => rfl

/-- **Every call makes the announcements it owes, and no others.** -/
theorem Call.owes (P : Platform) (x : Call) : (x.prog P).Meets OwesBefore OwesNothing [] := by
  cases x with
  | preLlmCall => exact preLlmCall_owes
  | postLlmCall taskId response turn turn' => exact postLlmCall_owes taskId response turn turn'
  | _ =>
      refine owes_of_hookFree ((Call.meets P _).mono ?_ fun _ _ _ => trivial) owed_nil
      exact fun h o hpre => hookOnly_of_pre hpre nofun nofun

/-! ### Truthful runs -/

/-- A hook moves a task only from "submitted", and completes only a task that is
pending in the state it has read, not a completed one; nobody cancels a pending task
that is not canceled yet, or has an id accepted that is recorded beyond
"submitted". -/
def announcesTruly : Test
  | c, _, .enqueue t text metadata contextId createdAt =>
      decide ((c.shared.queue.enqueue t text metadata contextId createdAt).1 = none ∨
        c.shared.recorded t = none ∨ c.shared.recorded t = some .submitted)
  | c, _, .transition t _ => decide (c.shared.recorded t = some .submitted)
  | c, i, .complete t _ =>
      match (Machine.Config.history c i).getLast? with
      | some ⟨.getStatus _, .ok status⟩ =>
          decide (t ∈ c.shared.queue.pending ∧ c.shared.recorded t = status.state ∧
            status.state ≠ none ∧ status.state ≠ some .completed)
      | _ => false
  | c, _, .cancel t =>
      decide (t ∈ c.shared.queue.pending → c.shared.recorded t = some .canceled)
  | _, _, _ => true

section Step

variable {c : Config} {i : ℕ} {o : Op} {t : TaskId} {q q' : TaskQueue}

theorem stateChange?_of_eq (h : q'.states.get? t = q.states.get? t) :
    stateChange? t q q' = none := by
  unfold stateChange?
  rw [h]
  cases q.states.get? t with
  | none => rfl
  | some s => exact if_pos rfl

theorem stateChange?_of_ne {old new : TaskState} (hold : q.states.get? t = some old)
    (hnew : q'.states.get? t = some new) (hne : old ≠ new) :
    stateChange? t q q' = some (old.name, new.name) := by
  unfold stateChange?
  rw [hold, hnew]
  exact if_neg hne

/-- In a truthful run, the steps of other threads than the hooks change no recorded
state. -/
theorem unchanged_of_announcesTruly (hok : announcesTruly c i o = true) (ho : o.hookOnly = false)
    (t : TaskId) : stateChange? t c.shared.queue (o.onQueue c.shared.queue) = none := by
  rcases states_onQueue o c.shared.queue t with heq | ⟨task, hacc, rfl, heq⟩ | ⟨s, rfl, -⟩ |
    ⟨-, ⟨response, rfl⟩, -⟩ | ⟨hin, rfl, heq⟩
  · exact stateChange?_of_eq heq
  · obtain ⟨t', text, metadata, contextId, createdAt, rfl, hacc⟩ := hacc
    have ht : task.taskId = t' := TaskQueue.taskId_of_enqueue hacc
    rcases of_decide_eq_true hok with hno | hnone | hsubmitted
    · rw [hno] at hacc
      cases hacc
    · change c.shared.queue.states.get? t' = none at hnone
      unfold stateChange?
      rw [ht, hnone]
    · exact stateChange?_of_eq (heq.trans (ht ▸ hsubmitted.symm))
  · cases ho
  · cases ho
  · exact stateChange?_of_eq (heq.trans (of_decide_eq_true hok hin).symm)

/-- **One step**: what was owed and what has changed is what is announced and what is
owed now. -/
theorem owed_step (hok : announcesTruly c i o = true) (howes : OwesBefore (c.history i) o)
    (r : o.Res) (t : TaskId) :
    (owed t (c.history i)).toList ++
        (stateChange? t c.shared.queue (o.onQueue c.shared.queue)).toList =
      (announced? t ⟨o, r⟩).toList ++ (owed t (c.history i ++ [⟨o, r⟩])).toList := by
  by_cases ho : o.hookOnly = false
  · have hnone : owed t (c.history i) = none := by
      cases o <;> first | exact howes t | cases ho
    have hannounced : announced? t ⟨o, r⟩ = none := by
      cases o <;> first | rfl | cases ho
    rw [hnone, unchanged_of_announcesTruly hok ho, hannounced, owed_snoc t _ ho]
  -- a hook owes what it has changed until it announces it
  cases o with
  | transition t' s =>
      obtain ⟨rfl, hnone⟩ := howes
      have hold : c.shared.queue.states.get? t' = some .submitted := of_decide_eq_true hok
      have hchange : stateChange? t c.shared.queue
          ((Op.transition t' .working).onQueue c.shared.queue) =
            if t' = t then some (TaskState.submitted.name, TaskState.working.name) else none := by
        have hstates := TaskQueue.transition_states t' .working c.shared.queue t
        split_ifs with ht
        · subst ht
          refine stateChange?_of_ne hold (hstates.trans (if_pos ⟨rfl, ?_⟩)) nofun
          rw [hold]
          decide
        · exact stateChange?_of_eq (hstates.trans (if_neg fun h => ht h.1.symm))
      rw [hnone, hchange, owed_snoc_transition]
      rfl
  | markProcessing t' =>
      have hchange : stateChange? t c.shared.queue
          ((Op.markProcessing t').onQueue c.shared.queue) = none :=
        stateChange?_of_eq (by rw [Op.onQueue, TaskQueue.markProcessing_states])
      rw [howes t, hchange, owed_snoc_markProcessing, Option.toList_none, List.append_nil]
      rfl
  | complete t' response =>
      obtain ⟨⟨h', status, hhist⟩, hnone⟩ := howes
      simp only [announcesTruly, hhist, List.getLast?_concat] at hok
      obtain ⟨hin, hstate, hknown, hopen⟩ := of_decide_eq_true hok
      obtain ⟨old, hold⟩ := Option.ne_none_iff_exists'.mp hknown
      have hname : status.name = old.name := by rw [Status.name, hold]
      have hchange : stateChange? t c.shared.queue
          ((Op.complete t' response).onQueue c.shared.queue) =
            if t' = t then some (status.name, TaskState.completed.name) else none := by
        have hstates := TaskQueue.complete_states t' response c.shared.queue t
        split_ifs with ht
        · subst ht
          rw [hname]
          refine stateChange?_of_ne (hstate.trans hold) (hstates.trans (if_pos ⟨rfl, hin⟩)) ?_
          rintro rfl
          exact hopen hold
        · exact stateChange?_of_eq (hstates.trans (if_neg fun h => ht h.1.symm))
      rw [hnone, hchange, hhist, owed_snoc_complete]
      rfl
  | stateHook t' old new contextId =>
      have hchange : stateChange? t c.shared.queue
          ((Op.stateHook t' old new contextId).onQueue c.shared.queue) = none :=
        stateChange?_of_eq rfl
      rw [howes t, hchange, owed_snoc_hook, Option.toList_none, List.append_nil, List.append_nil]
      rfl
  | _ => exact absurd rfl ho

end Step

section Runs

variable {P : Platform} {t₀ : Time} {c : Config}

/-- **Thread by thread, the changes are what was announced and what is owed.** -/
theorem changes_by_thread (hc : (system P).Reaches (Allows announcesTruly) (World.init t₀) c)
    (t : TaskId) : ∀ i,
      (changes t .empty c.trace).filter (fun y => y.1 = i) =
        ((announcements t c.trace).filter fun y => y.1 = i) ++
          ((owed t (c.history i)).map (Prod.mk i)).toList := by
  refine hc.config_invariant (I := fun c => ∀ i,
    (changes t .empty c.trace).filter (fun y => y.1 = i) =
      ((announcements t c.trace).filter fun y => y.1 = i) ++
        ((owed t (c.history i)).map (Prod.mk i)).toList) ?_ ?_ ?_ ?_
  · exact fun _ => rfl
  · exact fun _ _ _ h => h
  · exact fun _ _ _ h => h
  · intro b j x o k r w' hreach ih thread guard exec i
    obtain ⟨-, hr, rfl⟩ := (exec_eq_some_iff (P := P)).mp exec
    have hqueue : b.shared.queue = queueAfter .empty b.trace := queue_eq_queueAfter hreach
    show (changes t .empty (b.trace ++ [(j, ⟨o, r⟩)])).filter (fun y => y.1 = i) =
      ((announcements t (b.trace ++ [(j, ⟨o, r⟩)])).filter fun y => y.1 = i) ++
        ((owed t (historyOf i (b.trace ++ [(j, ⟨o, r⟩)]))).map (Prod.mk i)).toList
    rw [changes_snoc, announcements_snoc, List.filter_append, List.filter_append, ih, ← hqueue]
    by_cases hij : j = i
    · subst hij
      have hstep := congrArg (List.map (Prod.mk j))
        (owed_step guard (hreach.meets (Call.owes P) thread).1 r t)
      rw [historyOf_snoc_self, filter_tagged_self, filter_tagged_self, List.append_assoc,
        List.append_assoc]
      rw [List.map_append, List.map_append, ← Option.toList_map, ← Option.toList_map,
        ← Option.toList_map, ← Option.toList_map] at hstep
      exact congrArg _ hstep
    · rw [historyOf_snoc_of_ne hij, filter_tagged_of_ne hij, filter_tagged_of_ne hij,
        List.append_nil, List.append_nil]
      rfl

/-- Nothing is owed where every thread has ended. -/
theorem owed_of_allEnded {test : Test}
    (hc : (system P).Reaches (Allows test) (World.init t₀) c)
    (hended : ∀ i x, c.Calls i x → c.Ended i) (i : ℕ) (t : TaskId) :
    owed t (c.history i) = none := by
  by_cases hcalled : ∃ x, c.Calls i x
  · obtain ⟨x, hcall⟩ := hcalled
    obtain ⟨y, outcome, hends⟩ := hended i x hcall
    exact Prog.meets_ret.mp (hc.meets (Call.owes P) hends) t
  · have hnil : c.history i = [] := historyOf_eq_nil fun e hmem => by
      obtain ⟨tr₁, tr₂, htr⟩ := List.append_of_mem hmem
      obtain ⟨x, hcall, -⟩ := hc.event_pre (Call.owes P) htr
      exact hcalled ⟨x, hcall⟩
    rw [hnil]
    rfl

/-- **Where every step is announced truthfully, announcements and changes correspond
one to one.**  At any time, what has been announced about a task is part of what has
happened to it; and when every thread has ended, it is all of it. -/
theorem announced_one_to_one
    (hc : (system P).Reaches (Allows announcesTruly) (World.init t₀) c) (t : TaskId) :
    ((announcements t c.trace).map Prod.snd).Subperm
        ((changes t .empty c.trace).map Prod.snd) ∧
      ((∀ i x, c.Calls i x → c.Ended i) →
        ((announcements t c.trace).map Prod.snd).Perm
          ((changes t .empty c.trace).map Prod.snd)) := by
  have hthreads := changes_by_thread hc t
  refine ⟨?_, fun hended => ?_⟩
  · obtain ⟨l, hperm, hsub⟩ : (announcements t c.trace).Subperm (changes t .empty c.trace) :=
      subperm_of_filter_sublist fun i => by
        rw [hthreads i]
        exact List.sublist_append_left ..
    exact ⟨l.map Prod.snd, hperm.map _, hsub.map _⟩
  · refine List.Perm.map _ (perm_of_filter_eq fun i => ?_)
    rw [hthreads i, owed_of_allEnded hc hended i t]
    exact (List.append_nil _).symm

end Runs

/-! ### A message, answered or canceled -/

/-- A message, a hook that announces it, and the agent's response. -/
def answeredCalls : List Call :=
  [.sendMessage .jsonRpc (.sample [("id", .str "a")] "hi"), .preLlmCall,
    .postLlmCall (.str "a") "done" 0 0]

/-- One after the other, each change is announced. -/
theorem announced_in_turn :
    ∃ c, (system Platform.sample).Reaches (Allows announcesTruly) (World.init 0) c ∧
      (announcements (.str "a") c.trace).map Prod.snd =
        [("submitted", "working"), ("working", "completed")] ∧
      ((announcements (.str "a") c.trace).map Prod.snd).Perm
        ((changes (.str "a") .empty c.trace).map Prod.snd) := by
  have hplay : (playSample announcesTruly
      (List.replicate 4 (.act 0) ++ List.replicate 4 (.act 1) ++ List.replicate 3 (.act 2) ++
        List.replicate 3 (.act 0))
      (Config.calling answeredCalls)).any (fun c =>
        decide (c.allEnded = true ∧ (announcements (.str "a") c.trace).map Prod.snd =
          [("submitted", "working"), ("working", "completed")])) = true := by
    decide +kernel
  obtain ⟨c, hc, -, hp⟩ := exists_of_playCalls hplay
  obtain ⟨hended, hannounced⟩ := of_decide_eq_true hp
  exact ⟨c, hc, hannounced, (announced_one_to_one hc _).2 fun i x =>
    Machine.Config.ended_of_allEnded hended⟩

/-- The cancellation changes the state and is not announced; the response is announced
and changes nothing. -/
theorem announced_without_change :
    ∃ c, (system Platform.sample).Reaches (Allows anyStep) (World.init 0) c ∧
      (∀ i x, c.Calls i x → c.Ended i) ∧
      (changes (.str "a") .empty c.trace).map Prod.snd = [("submitted", "canceled")] ∧
      (announcements (.str "a") c.trace).map Prod.snd = [("canceled", "completed")] := by
  have hplay : (playSample anyStep
      (List.replicate 4 (.act 0) ++ List.replicate 2 (.act 1) ++ List.replicate 3 (.act 2) ++
        List.replicate 3 (.act 0))
      (Config.calling cancelCalls)).any (fun c =>
        decide (c.allEnded = true ∧
          (changes (.str "a") .empty c.trace).map Prod.snd = [("submitted", "canceled")] ∧
          (announcements (.str "a") c.trace).map Prod.snd = [("canceled", "completed")])) =
            true := by
    decide +kernel
  obtain ⟨c, hc, -, hp⟩ := exists_of_playCalls hplay
  obtain ⟨hended, hchanges, hannounced⟩ := of_decide_eq_true hp
  exact ⟨c, hc, fun i x => Machine.Config.ended_of_allEnded hended, hchanges, hannounced⟩

end HermesA2A
