import HermesA2A.Runs

/-!
# What GetTask delivers

A SendMessage that times out tells its client to come back with GetTask.  The
agent's response is kept for that: `complete` stores it in the task object and
files the object under the completed ones.  `get_status` would show it for a
completed task without recorded state.

But `complete` records the state `completed` in the same breath, and no state is
ever removed: the branch that carries the response is never taken
(`TaskQueue.WF.getStatus`).  So GetTask reports that the task is completed, and
never what was answered.
-/

namespace HermesA2A

open Machine

/-- The client got the completed Task `t` with this text. -/
def Delivers (transport : Transport) (t : TaskId) (text : String) : Outcome → Prop
  | .replied [response] =>
      ∃ task, taskInResponse? transport response = some task ∧ taskId? task = some t ∧
        taskState? task = some (.str "completed") ∧ artifactText? task = some (.str text)
  | _ => False

/-- A GetTask reply to a status without response has no artifact. -/
theorem artifactText?_replyGetTask {transport : Transport} {t : TaskId} {rpcId : Json}
    {stamp : Stamp} {status : Status} {task : Json} (hnone : status.response = none)
    (h : taskInResponse? transport (replyGetTask transport t rpcId stamp status) = some task) :
    artifactText? task = none := by
  unfold replyGetTask at h
  split_ifs at h
  · cases transport <;> cases h
  · have htask : task = buildTaskObject t status.name .null status.response none stamp := by
      cases transport <;> exact (Option.some.inj h).symm
    rw [htask, artifactText?_buildTaskObject, hnone]
    rfl

section Runs

variable {P : Platform} {t₀ : Time} {c c' : Config} {transport : Transport} {t : TaskId}
  {rpcId : Json} {stamp : Stamp} {j : ℕ} {outcome : Outcome}

/-- The one step of a GetTask thread reads the status and ends it. -/
theorem outcome_of_getTask {test : Test} (hstep : (system P).Step (Allows test) c c')
    (hthread : c.threads[j]? =
      some (.getTask transport t rpcId stamp, getTask transport t rpcId stamp))
    (hends : c'.Ends j (.getTask transport t rpcId stamp) outcome) :
    outcome =
      match c.shared.queue.getStatus t with
      | .error e => .raised e
      | .ok status => .replied [replyGetTask transport t rpcId stamp status] := by
  have hwaiting : ∀ {q : Option (Call × Proc Outcome)}, q =
      some (.getTask transport t rpcId stamp, getTask transport t rpcId stamp) →
        q ≠ some (.getTask transport t rpcId stamp, .ret outcome) := by
    rintro _ rfl h
    cases (Prod.mk.inj (Option.some.inj h)).2
  cases hstep with
  | env e => exact absurd hends (hwaiting hthread)
  | call x =>
      have hlt := (List.getElem?_eq_some_iff.mp hthread).1
      exact absurd hends (hwaiting ((List.getElem?_append_left hlt).trans hthread))
  | @act i y o k r w' thread guard exec =>
      by_cases hij : i = j
      · subst hij
        have hlt := (List.getElem?_eq_some_iff.mp hthread).1
        have hprog := (Prod.mk.inj (Option.some.inj (thread.symm.trans hthread))).2
        obtain ⟨-, rfl, -⟩ := exec_eq_some_iff.mp exec
        have hret := (List.getElem?_set_self hlt).symm.trans hends
        have hk := (Prod.mk.inj (Option.some.inj hret)).2
        -- the thread's program is the one step `get_status`
        cases hprog
        have hans : (Op.getStatus t).answer P c.shared = c.shared.queue.getStatus t := rfl
        rw [hans] at hk
        cases hst : c.shared.queue.getStatus t with
        | error e => rw [hst] at hk; cases hk; rfl
        | ok status => rw [hst] at hk; cases hk; rfl
      · exact absurd hends (hwaiting ((List.getElem?_set_ne hij).trans hthread))

/-- **No response is ever delivered by GetTask.**  In every run: when `complete`
has taken `t` out of the pending tasks with a response whose filtered text is not
empty, a GetTask of `t` while it is cached does not return that text. -/
theorem getTask_never_delivers (hc : (system P).Reaches (Allows anyStep) (World.init t₀) c)
    {task : PendingTask} {response : String} (_ : CompletesIn c.trace task response)
    (_ : task.taskId = t) (_ : filterOutbound response ≠ "")
    (_ : t ∈ c.shared.queue.completed)
    (hthread : c.threads[j]? =
      some (.getTask transport t rpcId stamp, getTask transport t rpcId stamp))
    (hstep : (system P).Step (Allows anyStep) c c')
    (hends : c'.Ends j (.getTask transport t rpcId stamp) outcome) :
    ¬ Delivers transport t (filterOutbound response) outcome := by
  rw [outcome_of_getTask hstep hthread hends]
  cases hst : c.shared.queue.getStatus t with
  | error e => exact id
  | ok status =>
      rintro ⟨sent, hsent, -, -, htext⟩
      have hnone := (reaches_base hc).wf.getStatus_response hst
      rw [artifactText?_replyGetTask hnone hsent] at htext
      cases htext

end Runs

/-- From any configuration, a GetTask thread can be started and run to its end. -/
theorem exists_getTask {P : Platform} {test : Test} (htest : ∀ c i o, test c i o = true)
    (c : Config) (transport : Transport) (t : TaskId) (rpcId : Json) (stamp : Stamp)
    {status : Status} (hst : c.shared.queue.getStatus t = .ok status) :
    ∃ (c₁ c₂ : Config) (j : ℕ), (system P).Step (Allows test) c c₁ ∧
      c₁.shared = c.shared ∧ c₁.trace = c.trace ∧
      c₁.threads[j]? =
        some (.getTask transport t rpcId stamp, getTask transport t rpcId stamp) ∧
      (system P).Step (Allows test) c₁ c₂ ∧
      c₂.Ends j (.getTask transport t rpcId stamp)
        (.replied [replyGetTask transport t rpcId stamp status]) := by
  let x : Call := .getTask transport t rpcId stamp
  let c₁ : Config := c.called x (getTask transport t rpcId stamp)
  have hthread : c₁.threads[c.threads.length]? = some (x, getTask transport t rpcId stamp) :=
    List.getElem?_concat_length
  have hexec : (system P).exec (.getStatus t) c₁.shared =
      some (.ok status, (Op.getStatus t).after P c₁.shared) :=
    (exec_eq_some_iff (P := P) (o := .getStatus t)).mpr ⟨rfl, hst.symm, rfl⟩
  have hlt : c.threads.length < c₁.threads.length := by
    show _ < (c.threads ++ [_]).length
    rw [List.length_append, List.length_singleton]
    exact Nat.lt_succ_self _
  exact ⟨c₁, _, c.threads.length, .call c x, rfl, rfl, hthread,
    .act hthread (htest _ _ _) hexec, List.getElem?_set_self hlt⟩

/-! ### A lost response -/

/-- A message is accepted; its handler's wait times out, and while it is about to
say so the agent answers. -/
def lateSchedule : List Move :=
  [.call (.sendMessage .jsonRpc (.sample [("id", .str "a")] "hi"))] ++ List.replicate 4 (.act 0) ++
  [.env 121] ++ List.replicate 2 (.act 0) ++
  [.call (.postLlmCall (.str "a") "done" 0 0), .act 1, .act 1, .act 0]

private theorem late_run :
    ∃ (c : Config) (task : PendingTask),
      (system Platform.sample).Reaches (Allows anyStep) (World.init 0) c ∧
      CompletesIn c.trace task "done" ∧ task.taskId = .str "a" ∧
        .str "a" ∈ c.shared.queue.completed ∧
          c.shared.queue.getStatus (.str "a") = .ok ⟨some .completed, none⟩ := by
  have hplay : (playSample anyStep lateSchedule Config.sample).any (fun c =>
      (completions c.trace).any (fun e => e.2.1 = "done" && e.2.2.taskId = Json.str "a") &&
        decide (Json.str "a" ∈ c.shared.queue.completed ∧
          c.shared.queue.getStatus (Json.str "a") = .ok ⟨some .completed, none⟩)) = true := by
    decide +kernel
  obtain ⟨c, hc, hp⟩ := exists_of_playSample hplay
  obtain ⟨hdone, hstatus⟩ := Bool.and_eq_true_iff.mp hp
  obtain ⟨⟨t, response, task⟩, hmem, htask⟩ := List.any_eq_true.mp hdone
  obtain ⟨hresponse, hid⟩ := Bool.and_eq_true_iff.mp htask
  obtain rfl : response = "done" := of_decide_eq_true hresponse
  obtain ⟨hcached, hst⟩ := of_decide_eq_true hstatus
  exact ⟨c, task, hc, completesIn_of_mem hmem, of_decide_eq_true hid, hcached, hst⟩

/-- In that run, the response `done` is completed and cached, and GetTask answers
with a Task without it. -/
theorem late_response_lost :
    ∃ (c c' : Config) (task : PendingTask) (j : ℕ) (outcome : Outcome),
      (system Platform.sample).Reaches (Allows anyStep) (World.init 0) c ∧
      CompletesIn c.trace task "done" ∧ task.taskId = .str "a" ∧ filterOutbound "done" ≠ "" ∧
      .str "a" ∈ c.shared.queue.completed ∧
      (system Platform.sample).Step (Allows anyStep) c c' ∧
      c'.Ends j (.getTask .jsonRpc (.str "a") .null Stamp.sample) outcome ∧
      ¬ Delivers .jsonRpc (.str "a") (filterOutbound "done") outcome := by
  obtain ⟨c, task, hc, hdone, hid, hcached, hst⟩ := late_run
  obtain ⟨c₁, c₂, j, hcall, hshared, htrace, -, hstep, hends⟩ :=
    exists_getTask anyStep_eq_true c .jsonRpc (.str "a") .null Stamp.sample hst
  refine ⟨c₁, c₂, task, j, _, .tail hc hcall, htrace ▸ hdone, hid, by decide,
    hshared ▸ hcached, hstep, hends, ?_⟩
  rintro ⟨sent, hsent, -, -, htext⟩
  rw [artifactText?_replyGetTask rfl hsent] at htext
  cases htext

theorem getTask_never_delivers_done :
    ∃ (c c' : Config) (j : ℕ) (outcome : Outcome),
      (system Platform.sample).Reaches (Allows anyStep) (World.init 0) c ∧
      c'.Ends j (.getTask .rest (.str "a") .null Stamp.sample) outcome ∧
      ¬ Delivers .rest (.str "a") (filterOutbound "done") outcome := by
  obtain ⟨c, task, hc, hdone, hid, hcached, hst⟩ := late_run
  obtain ⟨c₁, c₂, j, hcall, hshared, htrace, hthread, hstep, hends⟩ :=
    exists_getTask anyStep_eq_true c .rest (.str "a") .null Stamp.sample hst
  have hc₁ : (system Platform.sample).Reaches (Allows anyStep) (World.init 0) c₁ :=
    .tail hc hcall
  exact ⟨c₁, c₂, j, _, hc₁, hends,
    getTask_never_delivers hc₁ (htrace ▸ hdone) hid (by decide) (hshared ▸ hcached) hthread hstep
      hends⟩

end HermesA2A
