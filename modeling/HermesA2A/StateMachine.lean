import HermesA2A.Runs

/-!
# The task state machine under interleaving

`transition` is the only operation that consults `_TRANSITIONS`.  `enqueue`,
`complete` and `cancel` write the recorded state directly, and `requeue_tasks`
puts a task back without looking at it.  What saves the state machine in a quiet
run is an invariant no operation checks: a pending task is submitted or working.

Two steps break it, and only these two:

* `requeue_tasks`, when a task it was given has left the queue since it was
  drained: a completed or canceled task becomes pending again;
* `enqueue`, when the id it accepts has a recorded state: the id was found free
  before another thread used it.

`respectsRecords` excludes both, and `states_follow_transitions` is the result.
-/

namespace HermesA2A

open Machine

/-- The state recorded for a task id. -/
def World.recorded (w : World) (t : TaskId) : Option TaskState := w.queue.states.get? t

/-- No change, the first record of a task, or an edge of `_TRANSITIONS`. -/
def FollowsTransitions (old new : Option TaskState) : Prop :=
  new = old ∨ (old = none ∧ new = some .submitted) ∨
    ∃ a b, old = some a ∧ new = some b ∧ b ∈ a.transitions

/-- No id is accepted that has a recorded state, and no task is requeued that is
not pending. -/
def respectsRecords : Test
  | c, _, .enqueue t text metadata contextId createdAt =>
      decide (t ∈ c.shared.queue.states →
        (c.shared.queue.enqueue t text metadata contextId createdAt).1 = none)
  | c, _, .requeueTasks tasks => tasks.all fun task => task.taskId ∈ c.shared.queue.pending
  | _, _, _ => true

/-- A pending task is submitted or working. -/
def PendingActive (w : World) : Prop :=
  ∀ t ∈ w.queue.pending, w.recorded t = some .submitted ∨ w.recorded t = some .working

section Step

variable {P : Platform} {c : Config} {i : ℕ} {x : Call} {o : Op}

/-- A hook moves a task that has a recorded state. -/
theorem recorded_of_transition (hbase : Base c.trace c.shared) {t : TaskId} {s : TaskState}
    (hpre : x.pre P (c.history i) (.transition t s)) :
    s = .working ∧ t ∈ c.shared.queue.states := by
  obtain ⟨task, rest, -, rfl, rfl, hhist⟩ := hpre
  have hev : (⟨.drainPending, task :: rest⟩ : Event) ∈ c.history i := by
    rw [hhist]
    exact List.mem_singleton.mpr rfl
  have hmem := hbase.drained (mem_historyOf.mp hev) task List.mem_cons_self
  exact ⟨rfl, hbase.wf.recorded task hmem⟩

theorem notMem_states_of_accepts (hok : respectsRecords c i o = true) {task : PendingTask}
    (h : o.Accepts c.shared.queue task) : task.taskId ∉ c.shared.queue.states := by
  obtain ⟨t, text, metadata, contextId, createdAt, rfl, hacc⟩ := h
  have ht : task.taskId = t := TaskQueue.taskId_of_enqueue hacc
  intro hmem
  have := of_decide_eq_true hok (ht ▸ hmem)
  rw [hacc] at this
  cases this

theorem mem_pending_of_requeue {tasks : List PendingTask}
    (hok : respectsRecords c i (.requeueTasks tasks) = true) {task : PendingTask}
    (h : task ∈ tasks) : task.taskId ∈ c.shared.queue.pending :=
  of_decide_eq_true (List.all_eq_true.mp hok task h)

/-- One step keeps pending tasks submitted or working. -/
theorem PendingActive.step (h : PendingActive c.shared) (hok : respectsRecords c i o = true)
    (hpre : x.pre P (c.history i) o) : PendingActive (o.after P c.shared) := by
  intro t hmem
  obtain ⟨task, hp⟩ := OrderedDict.mem_iff_exists.mp hmem
  rcases pending_arrives hp with hp' | ⟨hnot, ht, hacc | ⟨tasks, ho, hin⟩⟩
  · -- the task was pending before
    have hold := h t (OrderedDict.mem_of_get? hp')
    have hgone : ∀ task', ¬ o.Takes c.shared.queue t task' := fun task' htakes =>
      htakes.not_pending hmem
    rcases states_onQueue o c.shared.queue t with heq | ⟨new, hacc, rfl, -⟩ | ⟨s, ho, -, heq⟩ |
      ⟨hin, ⟨response, ho⟩, -⟩ | ⟨hin, ho, -⟩
    · exact hold.imp heq.trans heq.trans
    · exact absurd (OrderedDict.mem_of_get? hp') hacc.spec.1
    · subst ho
      obtain ⟨_, _, _, _, rfl, _⟩ := hpre
      exact Or.inr heq
    · exact absurd ⟨hp', Or.inl ⟨response, ho⟩⟩ (hgone task)
    · exact absurd ⟨hp', Or.inr ho⟩ (hgone task)
  · left
    show ((o.onQueue c.shared.queue).states.get? t) = _
    rw [hacc.spec.2.2, ← ht]
    exact OrderedDict.get?_set_self ..
  · subst ho
    exact absurd (ht ▸ mem_pending_of_requeue hok hin) hnot

/-- One step changes recorded states along edges only. -/
theorem followsTransitions_step (hbase : Base c.trace c.shared) (h : PendingActive c.shared)
    (hok : respectsRecords c i o = true) (hpre : x.pre P (c.history i) o) (t : TaskId) :
    FollowsTransitions (c.shared.recorded t) ((o.after P c.shared).recorded t) := by
  rcases states_onQueue o c.shared.queue t with heq | ⟨task, hacc, rfl, heq⟩ | ⟨s, ho, hs, heq⟩ |
    ⟨hin, -, heq⟩ | ⟨hin, -, heq⟩
  · exact Or.inl heq
  · exact Or.inr (Or.inl
      ⟨OrderedDict.get?_eq_none_iff.mpr (notMem_states_of_accepts hok hacc), heq⟩)
  · subst ho
    obtain ⟨a, ha⟩ := OrderedDict.mem_iff_exists.mp (recorded_of_transition hbase hpre).2
    rw [ha] at hs
    exact Or.inr (Or.inr ⟨a, s, ha, heq, hs⟩)
  · rcases h t hin with hold | hold
    · exact Or.inr (Or.inr ⟨_, _, hold, heq, by decide⟩)
    · exact Or.inr (Or.inr ⟨_, _, hold, heq, by decide⟩)
  · rcases h t hin with hold | hold
    · exact Or.inr (Or.inr ⟨_, _, hold, heq, by decide⟩)
    · exact Or.inr (Or.inr ⟨_, _, hold, heq, by decide⟩)

end Step

/-- A state without a way out does not change. -/
theorem FollowsTransitions.terminal {old new : Option TaskState} {s : TaskState}
    (h : FollowsTransitions old new) (hold : old = some s) (hs : s.terminal = true) :
    new = some s := by
  subst hold
  rcases h with h | ⟨h, -⟩ | ⟨a, b, ha, -, hb⟩
  · exact h
  · cases h
  · obtain rfl := Option.some.inj ha
    rw [(TaskState.terminal_iff s).mp hs] at hb
    cases hb

section Runs

variable {P : Platform} {t₀ : Time} {c c' : Config}

theorem reaches_pendingActive (hc : (system P).Reaches (Allows respectsRecords) (World.init t₀) c) :
    PendingActive c.shared := by
  refine run_invariant (I := fun _ w => PendingActive w) ?_ ?_ ?_ hc
  · intro t hmem
    exact absurd hmem (OrderedDict.notMem_empty t)
  · exact fun _ _ _ h => h
  · exact fun c i x o _ h hok hpre _ => h.step hok hpre

theorem steps_followTransitions (hc : (system P).Reaches (Allows respectsRecords) (World.init t₀) c)
    (hstep : (system P).Step (Allows respectsRecords) c c') (t : TaskId) :
    FollowsTransitions (c.shared.recorded t) (c'.shared.recorded t) := by
  cases hstep with
  | call => exact Or.inl rfl
  | env => exact Or.inl rfl
  | act thread guard exec =>
      obtain ⟨-, rfl, rfl⟩ := exec_eq_some_iff.mp exec
      exact followsTransitions_step (reaches_base hc) (reaches_pendingActive hc) guard
        (pre_of_thread hc thread) t

/-- A terminal task is not pending. -/
theorem PendingActive.not_pending {w : World} (h : PendingActive w) {t : TaskId} {s : TaskState}
    (ht : w.recorded t = some s) (hs : s.terminal = true) : t ∉ w.queue.pending := by
  intro hmem
  rcases h t hmem with hold | hold <;>
    · obtain rfl := Option.some.inj (ht.symm.trans hold)
      cases hs

/-- A terminal state stays. -/
theorem terminal_stays (hc : (system P).Reaches (Allows respectsRecords) (World.init t₀) c)
    {c' : Config} (hsteps : Relation.ReflTransGen ((system P).Step (Allows respectsRecords)) c c')
    {t : TaskId} {s : TaskState} (ht : c.shared.recorded t = some s) (hs : s.terminal = true) :
    c'.shared.recorded t = some s := by
  induction hsteps with
  | refl => exact ht
  | tail hsteps hstep ih =>
      exact (steps_followTransitions (Relation.ReflTransGen.trans hc hsteps) hstep t).terminal
        ih hs

/-- What was completed is recorded as completed. -/
theorem recorded_of_completesIn
    (hc : (system P).Reaches (Allows respectsRecords) (World.init t₀) c) :
    ∀ {task : PendingTask} {response : String}, CompletesIn c.trace task response →
      c.shared.recorded task.taskId = some .completed := by
  induction hc with
  | refl =>
      rintro task response ⟨i, t, h⟩
      cases h
  | @tail b d hreach hstep ih =>
      intro task response h
      have hold : CompletesIn b.trace task response →
          d.shared.recorded task.taskId = some .completed := fun hold =>
        (steps_followTransitions hreach hstep task.taskId).terminal (ih hold) rfl
      cases hstep with
      | call => exact hold h
      | env => exact hold h
      | act thread guard exec =>
          obtain ⟨-, rfl, rfl⟩ := exec_eq_some_iff.mp exec
          rcases completesIn_snoc h with h | ⟨t, rfl, hp⟩
          · exact hold h
          · obtain ⟨rfl, -⟩ := (reaches_base hreach).wf.pending hp
            exact (TaskQueue.complete_states ..).trans
              (if_pos ⟨rfl, OrderedDict.mem_of_get? hp⟩)

/-- **State-machine safety.**  In a run that respects the records, every change of
a recorded state is an edge of `_TRANSITIONS`, and a task in a terminal state
stays in it and out of the pending tasks for ever. -/
theorem states_follow_transitions
    (hc : (system P).Reaches (Allows respectsRecords) (World.init t₀) c) :
    (∀ c', (system P).Step (Allows respectsRecords) c c' → ∀ t,
        FollowsTransitions (c.shared.recorded t) (c'.shared.recorded t)) ∧
      ∀ c', Relation.ReflTransGen ((system P).Step (Allows respectsRecords)) c c' → ∀ t s,
        c.shared.recorded t = some s → s.terminal = true →
          c'.shared.recorded t = some s ∧ t ∉ c'.shared.queue.pending := by
  refine ⟨fun c' hstep t => steps_followTransitions hc hstep t, ?_⟩
  intro c' hsteps t s ht hs
  have hkept : c'.shared.recorded t = some s := terminal_stays hc hsteps ht hs
  exact ⟨hkept, (reaches_pendingActive (Relation.ReflTransGen.trans hc hsteps)).not_pending hkept
    hs⟩

end Runs

/-- A message is accepted, injected and answered. -/
def answeredSchedule : List Move :=
  [.call (.sendMessage .jsonRpc (.sample [("id", .str "a")] "hi"))] ++ List.replicate 4 (.act 0) ++
  [.call .preLlmCall] ++ List.replicate 4 (.act 1) ++
  [.call (.postLlmCall (.str "a") "done" 0 0)] ++ List.replicate 3 (.act 2)

/-- The answered message is completed for ever. -/
theorem answered_stays_completed :
    ∃ c, (system Platform.sample).Reaches (Allows respectsRecords) (World.init 0) c ∧
      c.shared.recorded (.str "a") = some .completed ∧
        ∀ c', Relation.ReflTransGen ((system Platform.sample).Step (Allows respectsRecords)) c c' →
          c'.shared.recorded (.str "a") = some .completed ∧
            .str "a" ∉ c'.shared.queue.pending := by
  have hplay : (playSample respectsRecords answeredSchedule Config.sample).any (fun c =>
      decide (c.shared.recorded (Json.str "a") = some .completed)) = true := by
    decide +kernel
  obtain ⟨c, hc, hp⟩ := exists_of_playSample hplay
  have hrec := of_decide_eq_true hp
  exact ⟨c, hc, hrec, fun c' hsteps =>
    (states_follow_transitions hc).2 c' hsteps _ _ hrec rfl⟩

/-! ### How it breaks -/

/-- Two messages are accepted; a hook drains both; the second is canceled; the
hook goes on. -/
def requeueSchedule : List Move :=
  [.call (.sendMessage .jsonRpc (.sample [("id", .str "a")] "hi"))] ++ List.replicate 4 (.act 0) ++
  [.call (.sendMessage .jsonRpc (.sample [("id", .str "b")] "ho"))] ++ List.replicate 4 (.act 1) ++
  [.call .preLlmCall, .act 2,
    .call (.cancelTask .jsonRpc (.str "b") .null Stamp.sample), .act 3, .act 3] ++
  List.replicate 4 (.act 2)

/-- The agent's answer to the second message arrives. -/
def completeSchedule : List Move :=
  [.call (.postLlmCall (.str "b") "late" 0 0), .act 4, .act 4]

/-- Requeueing puts a canceled task back, which is then completed. -/
theorem requeue_revives_canceled :
    ∃ c, (system Platform.sample).Reaches (Allows anyStep) (World.init 0) c ∧
      c.shared.recorded (.str "b") = some .canceled ∧ .str "b" ∈ c.shared.queue.pending ∧
        ∃ c', Relation.ReflTransGen ((system Platform.sample).Step (Allows anyStep)) c c' ∧
          c'.shared.recorded (.str "b") = some .completed := by
  have hplay : (playSample anyStep requeueSchedule Config.sample).any (fun c =>
      decide (c.shared.recorded (Json.str "b") = some .canceled ∧
        Json.str "b" ∈ c.shared.queue.pending) &&
          (playSample anyStep completeSchedule c).any fun c' =>
            decide (c'.shared.recorded (Json.str "b") = some .completed)) = true := by
    decide +kernel
  obtain ⟨c, hc, hp⟩ := exists_of_playSample hplay
  obtain ⟨hcanceled, hplay'⟩ := Bool.and_eq_true_iff.mp hp
  obtain ⟨c', hc', hp'⟩ := exists_of_playSample hplay'
  obtain ⟨hrec, hpend⟩ := of_decide_eq_true hcanceled
  exact ⟨c, hc, hrec, hpend, c', hc', of_decide_eq_true hp'⟩

end HermesA2A
