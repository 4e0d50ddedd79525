import HermesA2A.Replay
import HermesA2A.Server.Replies

/-!
# Acknowledged tasks

A reply with a Task that is submitted or working tells the client to come back.
There are two such replies.  The one after a time-out comes from a thread that had
its message accepted (`taskExists_of_accepted`).  The one for `return_immediately`
comes from a handler that has not touched the queue at all.

`acknowledged_iff` says that these are all: every other reply is either an error
or a finished Task, a replayed one included.
-/

namespace HermesA2A

open Machine

/-- The Task is still to be finished. -/
def Unfinished (task : Json) : Prop :=
  taskState? task = some (.str "submitted") ∨ taskState? task = some (.str "working")

/-- The message of thread `i` was accepted under the id `t`, GetTask knows `t`, and
the text waits for the agent unless it has been completed or canceled since. -/
def TaskExists (c : Config) (i : ℕ) (req : SendRequest) (t : TaskId) : Prop :=
  ∃ task userText, req.userText = .ok userText ∧ AcceptsIn c.trace i task ∧ task.taskId = t ∧
    task.text = sanitizeInbound userText ∧
      (∃ status, c.shared.queue.getStatus t = .ok status ∧ status.state ≠ none) ∧
        (c.shared.queue.pending.get? t = some task ∨ TakenIn c.trace task)

/-- A Task in another state is not unfinished. -/
theorem not_unfinished {task : Json} {state : Option Json} (hstate : taskState? task = state)
    (hne : state ≠ some (.str "submitted") ∧ state ≠ some (.str "working")) :
    ¬ Unfinished task := by
  subst hstate
  rintro (h | h)
  · exact hne.1 h
  · exact hne.2 h

section Runs

variable {P : Platform} {test : Test} {t₀ : Time} {c : Config} {i : ℕ}

/-- **An accepted task is pending until it is completed or canceled.** -/
theorem pending_or_taken (hc : (system P).Reaches (Allows test) (World.init t₀) c)
    {task : PendingTask} (h : AcceptsIn c.trace i task) :
    c.shared.queue.pending.get? task.taskId = some task ∨ TakenIn c.trace task := by
  have hinv : ∀ i task, AcceptsIn c.trace i task →
      c.shared.queue.pending.get? task.taskId = some task ∨ TakenIn c.trace task := by
    refine run_invariant (I := fun tr w => ∀ i task, AcceptsIn tr i task →
      w.queue.pending.get? task.taskId = some task ∨ TakenIn tr task) ?_ ?_ ?_ hc
    · rintro i task ⟨_, _, _, _, _, h⟩
      exact absurd h List.not_mem_nil
    · exact fun _ _ _ h => h
    · intro c j x o _ ih _ _ _ i task h
      rcases acceptsIn_snoc h with h | ⟨-, hacc⟩
      · rcases ih i task h with hp | htaken
        · exact (pending_leaves o hp).imp id Op.Takes.takenIn
        · exact Or.inr htaken.snoc
      · refine Or.inl ?_
        show (o.onQueue c.shared.queue).pending.get? task.taskId = some task
        rw [hacc.spec.2.2]
        exact OrderedDict.get?_set_self ..
  exact hinv i task h

/-- An id `find_task_by_id` has looked for is hashable. -/
theorem hashable_of_found (hc : (system P).Reaches (Allows test) (World.init t₀) c) {t : TaskId}
    {found : Option PendingTask}
    (h : (i, (⟨.findTaskById t, .ok found⟩ : Event)) ∈ c.trace) : t.hashable = true := by
  have hinv : ∀ i t found, (i, (⟨.findTaskById t, .ok found⟩ : Event)) ∈ c.trace →
      t.hashable = true := by
    refine run_invariant (I := fun tr _ => ∀ i t found,
      (i, (⟨.findTaskById t, .ok found⟩ : Event)) ∈ tr → t.hashable = true) ?_ ?_ ?_ hc
    · exact fun _ _ _ h => absurd h List.not_mem_nil
    · exact fun _ _ _ h => h
    · intro c j x o _ ih _ _ _ i t found h
      rcases mem_snoc.mp h with h | h
      · exact ih i t found h
      · obtain ⟨-, h⟩ := Prod.mk.inj h
        generalize hr : o.answer P c.shared = r at h
        cases h
        change c.shared.queue.findTaskById t = .ok found at hr
        unfold TaskQueue.findTaskById at hr
        split at hr
        · assumption
        · cases hr
  exact hinv i t found h

/-- A replayed result is a completed Task. -/
theorem taskState?_of_replay (hc : (system P).Reaches (Allows test) (World.init t₀) c)
    {key result : Json} {t : TaskId}
    (h : (i, (⟨.idemGet key, .ok (some (t, result))⟩ : Event)) ∈ c.trace) :
    taskState? result = some (.str "completed") := by
  obtain ⟨j, payload, h⟩ := idemSet_of_replay hc h
  obtain ⟨_, req, s, _, task, _, _, response, _, _, _, _, rfl, _⟩ := spec_of_idemSet hc h
  exact taskState?_buildTaskObject ..

/-- A thread whose message was accepted is as good as its word. -/
theorem taskExists_of_accepted (hc : (system P).Reaches (Allows test) (World.init t₀) c)
    {req : SendRequest} {s : Submission} {createdAt : Time} {task : PendingTask}
    (htext : req.userText = .ok s.userText)
    (hhist : ∀ a ∈ enqueuedHistory s createdAt (some task), a ∈ c.history i) :
    TaskExists c i req s.taskId := by
  have hbase := reaches_base hc
  have henqueue : (i, (⟨.enqueue s.taskId (sanitizeInbound s.userText) s.metadata s.contextId
      createdAt, some task⟩ : Event)) ∈ c.trace := by
    refine mem_historyOf.mp (hhist _ (List.mem_append_right _ ?_))
    simp
  have hfind : (i, (⟨.findTaskById s.taskId, .ok none⟩ : Event)) ∈ c.trace := by
    refine mem_historyOf.mp (hhist _ (List.mem_append_right _ ?_))
    simp
  have hacc : AcceptsIn c.trace i task := ⟨_, _, _, _, _, henqueue⟩
  obtain ⟨hmem, hid, htask, -⟩ := hbase.accepted henqueue
  obtain ⟨state, hstatus, hsome⟩ := hbase.wf.getStatus (hashable_of_found hc hfind)
  refine ⟨task, s.userText, htext, hacc, hid, htask, ⟨_, hstatus, ?_⟩, ?_⟩
  · have := hsome (hid ▸ hbase.wf.recorded task hmem)
    rintro rfl
    cases this
  · rw [← hid]
    exact pending_or_taken hc hacc

/-- A thread that has done nothing has no task. -/
theorem not_taskExists_of_idle {req : SendRequest} {t : TaskId} (h : c.history i = []) :
    ¬ TaskExists c i req t := by
  rintro ⟨_, _, -, ⟨_, _, _, _, _, hev⟩, -⟩
  have := mem_historyOf.mpr hev
  change _ ∈ c.history i at this
  rw [h] at this
  cases this

/-- The results of `_enqueue_and_await_task` are completed Tasks. -/
theorem taskState?_of_awaitEnds (hc : (system P).Reaches (Allows test) (World.init t₀) c)
    {req : SendRequest} {s : Submission} {result : Json}
    (hends : AwaitEnds P req s (c.history i) (.ok (.answered result))) :
    taskState? result = some (.str "completed") := by
  generalize hhist : c.history i = h at hends
  cases hends with
  | replay key t result =>
      have hev : (⟨.idemGet s.idemKey, .ok (some (t, result))⟩ : Event) ∈ c.history i := by
        rw [hhist]
        exact List.mem_cons_of_mem _ (List.mem_singleton.mpr rfl)
      exact taskState?_of_replay hc (mem_historyOf.mp hev)
  | answered => exact taskState?_buildTaskObject ..

end Runs

/-! ### Who is acknowledged -/

/-- **Every acknowledged task exists, unless `return_immediately` was asked for.**
In every run, a SendMessage reply with an unfinished Task `t` stands for an accepted
message if and only if it is not a JSON-RPC reply to a request with
`return_immediately`.  Ids are JSON values here (`TaskId`). -/
theorem acknowledged_iff {P : Platform} {t₀ : Time} {c : Config} {i : ℕ} {transport : Transport}
    {req : SendRequest} {responses : List HttpResponse} {response : HttpResponse} {task : Json}
    (hc : (system P).Reaches (Allows anyStep) (World.init t₀) c)
    (hends : c.Ends i (.sendMessage transport req) (.replied responses))
    (hmem : response ∈ responses) (htask : taskIn? transport response = some task)
    (hopen : Unfinished task) :
    ∃ t, taskId? task = some t ∧
      (TaskExists c i req t ↔ ¬ (transport = .jsonRpc ∧ req.returnImmediately = true)) := by
  have hpost : sendPost P transport req (c.history i) (.replied responses) := post_of_ends hc hends
  unfold sendPost at hpost
  cases hplan : planSend P.table transport req with
  | error e =>
      rw [hplan] at hpost
      cases hpost.2
  | ok plan =>
      rw [hplan] at hpost
      cases plan with
      | answer exit early =>
          -- the handler has done nothing but build the Task
          obtain ⟨hidle, hreplied⟩ := hpost
          obtain rfl := Outcome.replied.inj hreplied
          obtain rfl := List.mem_singleton.mp hmem
          obtain rfl := Option.some.inj (taskIn?_replyEarly.symm.trans htask)
          have hasked : transport = .jsonRpc ∧ req.returnImmediately = true := by
            rcases taskState?_of_answer hplan with hstate | hstate | hasked
            · exact absurd hopen (not_unfinished hstate (by decide))
            · exact absurd hopen (not_unfinished hstate (by decide))
            · exact hasked
          obtain ⟨t, ht⟩ := taskId?_of_answer hplan
          refine ⟨t, ht, fun hexists => absurd hexists (not_taskExists_of_idle hidle),
            fun hnot => ?_⟩
          exact absurd hasked hnot
      | submit s =>
          obtain ⟨result, hawait, houtcome⟩ := hpost
          obtain ⟨awaited, rfl, hreply⟩ := reply_of_outcomeOf houtcome.symm
          obtain ⟨htext, hasked⟩ := submission_of_plan hplan
          cases awaited with
          | answered result =>
              have hstate := taskState?_of_answered (taskState?_of_awaitEnds hc hawait) hreply hmem
                htask
              exact absurd hopen (not_unfinished hstate (by decide))
          | refused error =>
              obtain ⟨code, message, hbody⟩ := hawait.refused_body
              have hstate := taskState?_of_refused hbody hreply hmem htask
              exact absurd hopen (not_unfinished hstate (by decide))
          | timedOut =>
              have hexists : TaskExists c i req s.markOrigin.taskId := by
                generalize hhist : c.history i = h at hawait
                cases hawait with
                | timedOut createdAt task start =>
                    have hbefore : ∀ a ∈ enqueuedHistory s.markOrigin createdAt (some task),
                        a ∈ c.history i := by
                      intro a ha
                      rw [hhist]
                      exact List.mem_append_left _ (List.mem_append_left _ ha)
                    exact taskExists_of_accepted hc htext hbefore
              refine ⟨_, (sent_of_timedOut hreply hmem htask).1, fun _ => ?_, fun _ => hexists⟩
              rintro ⟨htransport, htrue⟩
              rw [hasked htransport] at htrue
              cases htrue

/-- A message is accepted, and nobody answers in time. -/
def timedOutRequest : SendRequest := .sample [("id", .str "a")] "hi"

/-- After the time-out, the task of the message is there. -/
theorem timedOut_taskExists :
    ∃ (c : Config) (t : TaskId),
      (system Platform.sample).Reaches (Allows anyStep) (World.init 0) c ∧
        TaskExists c 0 timedOutRequest t := by
  have hplay : (playSample anyStep
      (List.replicate 4 (.act 0) ++ [.env 121] ++ List.replicate 3 (.act 0))
      (Config.calling [.sendMessage .jsonRpc timedOutRequest])).any (fun c =>
        decide (c.outcome? 0 = some (.replied [rpcResult (.obj [("task",
          buildTaskObject (.str "a") "working" (.str "a") (some pollText) none Stamp.sample)])
            (.int 1)]))) = true := by
    decide +kernel
  obtain ⟨c, hc, hcalls, hp⟩ := exists_of_playCalls hplay
  have hends := (hcalls 0 _ rfl).ends (of_decide_eq_true hp)
  obtain ⟨t, -, hiff⟩ := acknowledged_iff hc hends (List.mem_singleton.mpr rfl) rfl
    (Or.inr (taskState?_buildTaskObject ..))
  exact ⟨c, t, hc, hiff.mpr fun h => nomatch h.2⟩

/-- A message whose client does not want to wait. -/
def immediateRequest : SendRequest :=
  .sample [("id", .str "a"), ("configuration", .obj [("return_immediately", .bool true)])] "hi"

/-- The client is told to poll for a task that does not exist. -/
theorem immediate_task_missing :
    ∃ (c : Config) (response : HttpResponse) (task : Json),
      (system Platform.sample).Reaches (Allows anyStep) (World.init 0) c ∧
        c.Ends 0 (.sendMessage .jsonRpc immediateRequest) (.replied [response]) ∧
          taskIn? .jsonRpc response = some task ∧ taskId? task = some (.str "a") ∧
            Unfinished task ∧ ¬ TaskExists c 0 immediateRequest (.str "a") ∧
              c.shared.queue.getStatus (.str "a") = .ok ⟨none, none⟩ ∧
                .str "a" ∉ c.shared.queue.pending := by
  refine ⟨Config.calling [.sendMessage .jsonRpc immediateRequest], _, _, reaches_calling _, rfl, rfl,
    taskId?_buildTaskObject .., Or.inr (taskState?_buildTaskObject ..), ?_, rfl, ?_⟩
  · exact not_taskExists_of_idle rfl
  · exact OrderedDict.notMem_empty _

end HermesA2A
