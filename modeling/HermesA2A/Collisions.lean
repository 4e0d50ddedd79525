import HermesA2A.QueueRuns
import HermesA2A.Verdict

/-!
# One task per id

A SendMessage looks its task id up and enqueues the task two lock sections later.
`enqueue` itself looks only among the pending tasks, and `requeue_tasks` does not look
among the completed ones either.  So an id can be taken in the meantime, and even be
done with: then it is accepted twice, or its task is pending and completed at once.

`checksHold` describes the runs in which what was looked up still holds when it is
acted upon, below the caps of the queue.

* `TaskQueue.Apart` — no id is both pending and completed.
* `oneTask_of_reaches` — the invariant: ids stay apart, an accepted id stays taken, and
  no id is accepted twice.
* `one_task_per_id` — with what the other requests are answered.
-/

namespace HermesA2A

open Machine TaskQueue

/-- No id is both pending and completed. -/
def TaskQueue.Apart (q : TaskQueue) : Prop := ∀ t ∈ q.pending, t ∉ q.completed

/-- The id is taken. -/
def TaskQueue.Taken (q : TaskQueue) (t : TaskId) : Prop := t ∈ q.pending ∨ t ∈ q.completed

/-- What a step was chosen for still holds when it is performed: an id found free is
free, and what is requeued is not completed.  And the queue is below its caps. -/
def checksHold : Test
  | c, _, .enqueue t _ _ _ _ =>
      decide (t ∉ c.shared.queue.pending ∧ t ∉ c.shared.queue.completed ∧
        c.shared.queue.pending.length < MAX_PENDING)
  | c, _, .requeueTasks tasks =>
      tasks.all fun task => decide (task.taskId ∉ c.shared.queue.completed)
  | c, _, .complete t _ =>
      decide (t ∈ c.shared.queue.pending → c.shared.queue.completed.length < TASK_CACHE_MAX)
  | _, _, _ => true

/-! ### Steps -/

section Steps

variable {q : TaskQueue} {t : TaskId} {task : PendingTask} {o : Op} {c : Config} {i : ℕ}

/-- A task that is taken out is filed. -/
theorem apart_of_filed {q' : TaskQueue} (h : q.Apart) (hpending : q'.pending = q.pending.erase t)
    (hcompleted : q'.completed = q.completed.set t task) :
    q'.Apart ∧ ∀ t', q.Taken t' → q'.Taken t' := by
  constructor
  · intro t' ht' hc
    rw [hpending, OrderedDict.mem_erase_iff] at ht'
    rw [hcompleted, OrderedDict.mem_set_iff] at hc
    rcases hc with heq | hc
    · exact ht'.1 heq
    · exact h t' ht'.2 hc
  · intro t' ht'
    unfold TaskQueue.Taken
    rw [hpending, hcompleted, OrderedDict.mem_erase_iff, OrderedDict.mem_set_iff]
    by_cases heq : t' = t
    · exact Or.inr (Or.inl heq)
    · exact ht'.imp (fun hp => ⟨heq, hp⟩) Or.inr

/-- Nothing happens to either map. -/
theorem apart_of_same {q' : TaskQueue} (h : q.Apart) (hpending : q'.pending = q.pending)
    (hcompleted : q'.completed = q.completed) : q'.Apart ∧ ∀ t', q.Taken t' → q'.Taken t' := by
  unfold TaskQueue.Apart TaskQueue.Taken
  rw [hpending, hcompleted]
  exact ⟨h, fun _ ht => ht⟩

/-- **One step** keeps the ids apart, and the taken ones taken. -/
theorem apart_onQueue (h : c.shared.queue.Apart) (hok : checksHold c i o = true) :
    (o.onQueue c.shared.queue).Apart ∧
      ∀ t, c.shared.queue.Taken t → (o.onQueue c.shared.queue).Taken t := by
  cases o with
  | enqueue t text metadata contextId createdAt =>
      obtain ⟨-, hfree, -⟩ := of_decide_eq_true hok
      rcases enqueue_accepts_or (t := t) (q := c.shared.queue) text metadata contextId createdAt
        with ⟨task, hacc⟩ | hno
      · obtain ⟨-, -, hq⟩ := hacc.spec
        obtain rfl : task.taskId = t := by
          obtain ⟨_, _, _, _, _, heq, htask⟩ := hacc
          cases heq
          exact taskId_of_enqueue htask
        rw [hq]
        constructor
        -- the guard has found the id in neither map
        · intro t' ht'
          rcases OrderedDict.mem_set_iff.mp ht' with rfl | ht'
          · exact hfree
          · exact h t' ht'
        · exact fun t' ht' => ht'.imp (fun hp => OrderedDict.mem_set_iff.mpr (Or.inr hp)) id
      · rw [hno]
        exact ⟨h, fun _ ht => ht⟩
  | requeueTasks tasks =>
      constructor
      · intro t ht
        show t ∉ (c.shared.queue.requeueTasks tasks).completed
        rw [requeueTasks_completed]
        obtain ⟨task, hget⟩ := OrderedDict.mem_iff_exists.mp ht
        rcases requeueTasks_pending hget with hold | ⟨hmem, rfl, -⟩
        · exact h t (OrderedDict.mem_of_get? hold)
        · exact of_decide_eq_true (List.all_eq_true.mp hok task hmem)
      · intro t ht
        refine ht.imp (fun hp => ?_) fun hc => ?_
        · obtain ⟨task, hget⟩ := OrderedDict.mem_iff_exists.mp hp
          exact OrderedDict.mem_of_get? (requeueTasks_of_pending hget)
        · show t ∈ (c.shared.queue.requeueTasks tasks).completed
          rwa [requeueTasks_completed]
  | complete t response =>
      show (c.shared.queue.completeWithin .source t response).2.Apart ∧
        ∀ t', _ → (c.shared.queue.completeWithin .source t response).2.Taken t'
      cases hget : c.shared.queue.pending.get? t with
      | none =>
          rw [completeWithin_of_notMem .source response (OrderedDict.get?_eq_none_iff.mp hget)]
          exact apart_of_same h rfl rfl
      | some task =>
          have hlt := of_decide_eq_true hok (OrderedDict.mem_of_get? hget)
          exact apart_of_filed h (completeWithin_pending ..)
            (completeWithin_completed_of_lt .source response hget hlt)
  | cancel t =>
      show (c.shared.queue.cancel t).2.Apart ∧ ∀ t', _ → (c.shared.queue.cancel t).2.Taken t'
      cases hget : c.shared.queue.pending.get? t with
      | none =>
          rw [cancel_of_notMem (OrderedDict.get?_eq_none_iff.mp hget)]
          exact apart_of_same h rfl rfl
      | some task =>
          exact apart_of_filed h (cancel_pending_eq ..) (cancel_completed_eq hget)
  | transition t toState =>
      exact apart_of_same h (transition_pending ..) (transition_completed ..)
  | markProcessing t =>
      exact apart_of_same h (markProcessing_pending ..) (markProcessing_completed ..)
  | _ => exact apart_of_same h rfl rfl

end Steps

/-! ### Runs -/

/-- **One task per id**, in the state and in the events so far. -/
structure OneTask (tr : Trace) (w : World) : Prop where
  apart : w.queue.Apart
  taken : ∀ i task, AcceptsIn tr i task → w.queue.Taken task.taskId
  once : ∀ i j task task', AcceptsIn tr i task → AcceptsIn tr j task' →
    task.taskId = task'.taskId → i = j ∧ task = task'
  /-- Nobody was sent away for want of room. -/
  room : ∀ i t text metadata contextId createdAt,
    (i, (⟨.enqueue t text metadata contextId createdAt, none⟩ : Event)) ∉ tr

section Runs

variable {P : Platform} {t₀ : Time} {c : Config} {i : ℕ} {task : PendingTask}

/-- An id that is accepted was free. -/
theorem notTaken_of_accepts {o : Op} (hok : checksHold c i o = true)
    (hacc : o.Accepts c.shared.queue task) : ¬ c.shared.queue.Taken task.taskId := by
  obtain ⟨t, text, metadata, contextId, createdAt, rfl, htask⟩ := hacc
  obtain rfl := taskId_of_enqueue htask
  obtain ⟨hpending, hcompleted, -⟩ := of_decide_eq_true hok
  exact not_or.mpr ⟨hpending, hcompleted⟩

/-- An id that is accepted is taken. -/
theorem taken_of_accepts {q : TaskQueue} {o : Op} (hacc : o.Accepts q task) :
    (o.onQueue q).Taken task.taskId := by
  rw [hacc.spec.2.2]
  exact Or.inl (OrderedDict.mem_set_iff.mpr (Or.inl rfl))

theorem oneTask_of_reaches (hc : (system P).Reaches (Allows checksHold) (World.init t₀) c) :
    OneTask c.trace c.shared := by
  refine run_invariant (I := OneTask) ?_ (fun _ _ _ h => ⟨h.apart, h.taken, h.once, h.room⟩) ?_ hc
  · refine ⟨fun t ht => absurd ht (OrderedDict.notMem_empty t), ?_, ?_, ?_⟩
    · rintro i task ⟨_, _, _, _, _, h⟩
      exact absurd h List.not_mem_nil
    · rintro i j task task' ⟨_, _, _, _, _, h⟩
      exact absurd h List.not_mem_nil
    · exact fun _ _ _ _ _ _ h => absurd h List.not_mem_nil
  · intro c i x o _ ih hok _ _
    obtain ⟨hapart, hkept⟩ := apart_onQueue ih.apart hok
    refine ⟨hapart, ?_, ?_, ?_⟩
    · intro j task h
      rcases acceptsIn_snoc h with hold | ⟨-, hnew⟩
      · exact hkept _ (ih.taken j task hold)
      · exact taken_of_accepts hnew
    · intro j k task task' hj hk hid
      rcases acceptsIn_snoc hj with hold | ⟨rfl, hnew⟩ <;>
        rcases acceptsIn_snoc hk with hold' | ⟨rfl, hnew'⟩
      · exact ih.once j k task task' hold hold' hid
      · exact absurd (hid ▸ ih.taken j task hold) (notTaken_of_accepts hok hnew')
      · exact absurd (hid ▸ ih.taken k task' hold') (notTaken_of_accepts hok hnew)
      · obtain ⟨t, text, metadata, contextId, createdAt, rfl, htask⟩ := hnew
        obtain ⟨_, _, _, _, _, heq, htask'⟩ := hnew'
        cases heq
        exact ⟨rfl, Option.some.inj (htask.symm.trans htask')⟩
    · intro j t text metadata contextId createdAt h
      rcases mem_snoc.mp h with hold | hnew
      · exact ih.room j t text metadata contextId createdAt hold
      · obtain ⟨-, hev⟩ := Prod.mk.inj hnew
        generalize hr : o.answer P c.shared = r at hev
        cases hev
        obtain ⟨hpending, -, hlt⟩ := of_decide_eq_true hok
        change (c.shared.queue.enqueue t text metadata contextId createdAt).1 = none at hr
        rcases enqueue_cases c.shared.queue t text metadata contextId createdAt with
          ⟨-, hfull | hmem⟩ | ⟨-, -, hyes⟩
        · exact absurd hlt (Nat.not_lt.mpr hfull)
        · exact hpending hmem
        · rw [hyes] at hr
          cases hr

/-- A look-up of a string does not raise. -/
theorem ok_of_findTaskById {test : Test}
    (hc : (system P).Reaches (Allows test) (World.init t₀) c) {t : TaskId}
    (hhash : t.hashable = true) {e : PyError} :
    (i, (⟨.findTaskById t, .error e⟩ : Event)) ∉ c.trace := by
  intro h
  obtain ⟨tr₁, tr₂, htr⟩ := List.append_of_mem h
  obtain ⟨b, x, k, w', -, -, -, -, hexec, -⟩ := hc.event htr
  obtain ⟨-, hanswer, -⟩ := (exec_eq_some_iff (P := P) (o := .findTaskById t)).mp hexec
  change Except.error e = b.shared.queue.findTaskById t at hanswer
  unfold TaskQueue.findTaskById at hanswer
  rw [if_pos hhash] at hanswer
  cases hanswer

/-- The id a step looks up. -/
def found? : Event → Option (Except PyError (Option PendingTask))
  | ⟨.findTaskById _, answer⟩ => some answer
  | _ => none

/-- Who has looked its id up and is over, was accepted, was told of the collision, was
sent away for want of room, or has an id that is no key. -/
theorem AwaitEnds.of_found {req : SendRequest} {s : Submission} {h : List Event}
    {result : Except PyError Awaited} (hends : AwaitEnds P req s h result)
    (hfound : h.filterMap found? ≠ []) :
    (∃ createdAt task, (⟨.enqueue s.taskId (sanitizeInbound s.userText) s.metadata s.contextId
        createdAt, some task⟩ : Event) ∈ h) ∨
      result = .ok (.refused
        ⟨409, rpcErrorBody A2A_ERR_NON_IDEMPOTENT "Task ID already in use" s.rpcId⟩) ∨
      (∃ createdAt, (⟨.enqueue s.taskId (sanitizeInbound s.userText) s.metadata s.contextId
        createdAt, none⟩ : Event) ∈ h) ∨
      ∃ e, (⟨.findTaskById s.taskId, .error e⟩ : Event) ∈ h := by
  cases hends with
  | checkRaised | conflict | getRaised | replay => simp [found?] at hfound
  | findRaised e => exact Or.inr (Or.inr (Or.inr ⟨e, List.mem_append_right _ List.mem_cons_self⟩))
  | collision task => exact Or.inr (Or.inl rfl)
  | busy createdAt => exact Or.inr (Or.inr (Or.inl ⟨createdAt, by simp [enqueuedHistory]⟩))
  | timedOut createdAt task =>
      exact Or.inl ⟨createdAt, task, by simp [waitedHistory, enqueuedHistory]⟩
  | vanished createdAt task =>
      exact Or.inl ⟨createdAt, task, by simp [waitedHistory, enqueuedHistory]⟩
  | answered createdAt task =>
      exact Or.inl ⟨createdAt, task,
        by simp [storedHistory, readHistory, waitedHistory, enqueuedHistory]⟩

/-- **One task per id.**  In a run in which every check still holds when it is acted
upon, no id is pending and completed at once, no two requests have one id accepted, and
a request that has looked up its id is accepted or ends with the collision answer.  Ids are
JSON values here (`TaskId`). -/
theorem one_task_per_id (hc : (system P).Reaches (Allows checksHold) (World.init t₀) c) :
    (∀ t ∈ c.shared.queue.pending, t ∉ c.shared.queue.completed) ∧
      (∀ i j task task', AcceptsIn c.trace i task → AcceptsIn c.trace j task' →
        task.taskId = task'.taskId → i = j) ∧
      ∀ i x transport req s answer outcome, x.Submits P transport req s →
        s.taskId.hashable = true → c.Ends i x outcome →
          (i, (⟨.findTaskById s.taskId, answer⟩ : Event)) ∈ c.trace →
            (∃ task, AcceptsIn c.trace i task ∧ task.taskId = s.taskId) ∨
              outcome = outcomeOf transport req s (.ok (.refused
                ⟨409, rpcErrorBody A2A_ERR_NON_IDEMPOTENT "Task ID already in use" s.rpcId⟩)) := by
  have hone := oneTask_of_reaches hc
  refine ⟨hone.apart, fun i j task task' hi hj hid => (hone.once i j task task' hi hj hid).1, ?_⟩
  rintro i x transport req s answer outcome ⟨rfl, s₀, hplan, rfl⟩ hhash hends hfound
  have hpost : sendPost P transport req (c.history i) outcome := post_of_ends hc hends
  unfold sendPost at hpost
  rw [hplan] at hpost
  obtain ⟨result, hawait, rfl⟩ := hpost
  have hlooked : (c.history i).filterMap found? ≠ [] :=
    List.ne_nil_of_mem (List.mem_filterMap.mpr ⟨_, mem_historyOf.mpr hfound, rfl⟩)
  rcases hawait.of_found hlooked with ⟨createdAt, task, hacc⟩ | rfl | ⟨createdAt, hbusy⟩ | ⟨e, he⟩
  · have hev := mem_historyOf.mp hacc
    exact Or.inl ⟨task, ⟨_, _, _, _, _, hev⟩, ((reaches_base hc).accepted hev).2.1⟩
  · exact Or.inr rfl
  · exact absurd (mem_historyOf.mp hbusy) (hone.room i _ _ _ _ _)
  · exact absurd (mem_historyOf.mp he) (ok_of_findTaskById hc hhash)

end Runs

/-! ### Two messages with one id -/

/-- Two messages with one id, and the agent's response. -/
def sameIdCalls : List Call :=
  [.sendMessage .jsonRpc (.sample [("id", .str "a")] "hi"),
    .sendMessage .jsonRpc (.sample [("id", .str "a")] "ho"),
    .postLlmCall (.str "a") "done" 0 0]

/-- What the client of the second message is sent. -/
def collisionOutcome : Outcome :=
  .replied [⟨409, rpcErrorBody A2A_ERR_NON_IDEMPOTENT "Task ID already in use" (.int 1)⟩,
    rpcResult (.obj [("task", .null)]) (.int 1)]

/-- The object thread `i` had accepted. -/
def Config.acceptedBy (c : Config) (i : ℕ) : Option PendingTask :=
  ((Machine.Config.history c i).filterMap accepted?).head?

theorem acceptsIn_of_acceptedBy {c : Config} {i : ℕ} {task : PendingTask}
    (h : Config.acceptedBy c i = some task) : AcceptsIn c.trace i task :=
  acceptsIn_iff.mpr (List.mem_filterMap.mp (List.mem_of_head? h))

/-- The second message comes when the first is enqueued: it is told of the collision. -/
theorem second_send_collides :
    ∃ (c : Config) (task : PendingTask),
      (system Platform.sample).Reaches (Allows checksHold) (World.init 0) c ∧
        AcceptsIn c.trace 0 task ∧
          c.Ends 1 (.sendMessage .jsonRpc (.sample [("id", .str "a")] "ho")) collisionOutcome ∧
            ∀ task', AcceptsIn c.trace 1 task' → task.taskId ≠ task'.taskId := by
  have hplay : (playSample checksHold (List.replicate 3 (.act 0) ++ [.act 1])
      (Config.calling sameIdCalls)).any (fun c =>
        decide ((Config.acceptedBy c 0).isSome ∧ c.outcome? 1 = some collisionOutcome)) = true := by
    decide +kernel
  obtain ⟨c, hc, hcalls, hp⟩ := exists_of_playCalls hplay
  obtain ⟨hacc, houtcome⟩ := of_decide_eq_true hp
  obtain ⟨task, htask⟩ := Option.isSome_iff_exists.mp hacc
  refine ⟨c, task, hc, acceptsIn_of_acceptedBy htask, (hcalls 1 _ rfl).ends houtcome, ?_⟩
  intro task' hacc' hid
  exact absurd ((one_task_per_id hc).2.1 0 1 task task' (acceptsIn_of_acceptedBy htask) hacc' hid)
    Nat.zero_ne_one

/-- **A whole lifetime fits between a check and its act**: the first message has found
its id free; the second is accepted under it, answered and completed; then the first is
accepted as well. -/
theorem accepted_twice :
    ∃ (c : Config) (task task' : PendingTask),
      (system Platform.sample).Reaches (Allows anyStep) (World.init 0) c ∧
        AcceptsIn c.trace 0 task ∧ AcceptsIn c.trace 1 task' ∧ task.taskId = task'.taskId ∧
          task.taskId ∈ c.shared.queue.pending ∧ task.taskId ∈ c.shared.queue.completed := by
  have hplay : (playSample anyStep
      ([.act 0] ++ List.replicate 3 (.act 1) ++ List.replicate 2 (.act 2) ++
        List.replicate 2 (.act 0)) (Config.calling sameIdCalls)).any (fun c =>
        (Config.acceptedBy c 0).any fun task => (Config.acceptedBy c 1).any fun task' =>
          decide (task.taskId = task'.taskId ∧ task.taskId ∈ c.shared.queue.pending ∧
            task.taskId ∈ c.shared.queue.completed)) = true := by
    decide +kernel
  obtain ⟨c, hc, -, hp⟩ := exists_of_playCalls hplay
  obtain ⟨task, htask, hp⟩ := (Option.any_eq_true _ _).mp hp
  obtain ⟨task', htask', hp⟩ := (Option.any_eq_true _ _).mp hp
  exact ⟨c, task, task', hc, acceptsIn_of_acceptedBy htask, acceptsIn_of_acceptedBy htask',
    of_decide_eq_true hp⟩

end HermesA2A
