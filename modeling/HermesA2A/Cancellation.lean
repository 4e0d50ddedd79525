import HermesA2A.Runs

/-!
# What CancelTask answers

`_cancel_task_core` looks at the task's state in one lock section, cancels in
another, and answers "canceled" without looking again.  `cancel` does nothing to a
task that is not pending, and the check knows three of the four terminal states:
`rejected` is missing.

`cancelsHonestly_iff` says exactly which of its answers are true.  It is about runs
from any state of the queue, so the states that no call of this system records
(`auth_required`, `authenticated`, `rejected`) are among them.
-/

namespace HermesA2A

open Machine

/-- The state in an answer of `get_status`. -/
def answeredState : Except PyError Status → Option TaskState
  | .ok status => status.state
  | .error _ => none

/-- The state `get_status` reports for a task. -/
def TaskQueue.reported (t : TaskId) (q : TaskQueue) : Option TaskState :=
  answeredState (q.getStatus t)

/-- The task has come to an end other than a cancellation. -/
def TaskQueue.EndsElsewhere (t : TaskId) (q : TaskQueue) : Prop :=
  q.reported t = some .completed ∨ q.reported t = some .failed ∨ q.reported t = some .rejected

/-- The reply of CancelTask to a task in one of the three states it knows. -/
def notCancelable (status : Status) (rpcId : Json) : HttpResponse :=
  ⟨409, rpcErrorBody A2A_ERR_TASK_NOT_CANCELABLE
    ("Task not cancelable: task is " ++ status.name) rpcId⟩

/-! ### The answer and the truth -/

/-- **CancelTask does not lie**: thread `i`, a CancelTask for `t`, has ended with
`outcome`. -/
structure CancelsHonestly (q₀ : TaskQueue) (tr : Trace) (i : ℕ) (t : TaskId) (outcome : Outcome) :
    Prop where
  /-- Whoever is told that the task is canceled had it canceled: `get_status` says so
  right after the cancel step. -/
  told : ∀ transport rpcId task, outcome = .replied [taskResponse transport rpcId task] →
    taskState? task = some (.str "canceled") →
      (∃ r, (i, (⟨.cancel t, r⟩ : Event)) ∈ tr) ∧
        ∀ tr₁ tr₂ r, tr = tr₁ ++ (i, ⟨.cancel t, r⟩) :: tr₂ →
          (queueAfter q₀ (tr₁ ++ [(i, ⟨.cancel t, r⟩)])).reported t = some .canceled
  /-- A task that has ended otherwise by the time of one of the thread's steps is not
  touched, and the answer is an error. -/
  spared : ∀ tr₁ tr₂ e, tr = tr₁ ++ (i, e) :: tr₂ → (queueAfter q₀ tr₁).EndsElsewhere t →
    queueAfter q₀ (tr₁ ++ [(i, e)]) = queueAfter q₀ tr₁ ∧
      ∃ response, outcome = .replied [response] ∧
        errorCode? response = some (.int A2A_ERR_TASK_NOT_CANCELABLE)

/-- The thread does not read "rejected", and at its cancel step the task is pending
and has not ended, or is canceled already. -/
structure CancelsInTime (q₀ : TaskQueue) (tr : Trace) (i : ℕ) (t : TaskId) : Prop where
  read : ∀ tr₁ tr₂ r, tr = tr₁ ++ (i, ⟨.getStatus t, r⟩) :: tr₂ →
    (queueAfter q₀ tr₁).reported t ≠ some .rejected
  acts : ∀ tr₁ tr₂ r, tr = tr₁ ++ (i, ⟨.cancel t, r⟩) :: tr₂ →
    (t ∈ (queueAfter q₀ tr₁).pending ∧ ¬ (queueAfter q₀ tr₁).EndsElsewhere t) ∨
      (queueAfter q₀ tr₁).reported t = some .canceled

/-! ### The cancel step -/

section Cancel

variable {t : TaskId} {q : TaskQueue}

/-- A cancel step does nothing to a task that is not pending. -/
theorem reported_cancel_of_notMem (h : t ∉ q.pending) :
    (q.cancel t).2.reported t = q.reported t := by
  have hnone : q.pending.get? t = none := OrderedDict.get?_eq_none_iff.mpr h
  have hcancel : (q.cancel t).2 = { q with processing := q.processing.filter (· ≠ t) } := by
    unfold TaskQueue.cancel TaskQueue.takeOut
    rw [hnone]
  rw [hcancel]
  rfl

/-- A pending task is found canceled by its response. -/
theorem reported_cancel_of_mem (ht : t.hashable = true) (h : t ∈ q.pending) :
    (q.cancel t).2.reported t = some .canceled := by
  obtain ⟨task, hp⟩ := OrderedDict.mem_iff_exists.mp h
  obtain ⟨n, hcancel⟩ := q.cancel_snd t
  have hgone : t ∉ (q.cancel t).2.pending := by
    rw [← OrderedDict.get?_eq_none_iff, TaskQueue.cancel_pending, if_pos rfl]
  have hfiled : (q.cancel t).2.completed.get? t = some task := by
    rw [hcancel]
    change (q.takeOut t .canceled (Cell.answer "(canceled)")).2.completed.get? t = _
    rw [TaskQueue.takeOut_completed, if_pos rfl, hp]
    rfl
  have hresponse : ((q.cancel t).2.cells task.ref).response = some "(canceled)" := by
    rw [TaskQueue.cancel_cells, hp, Option.map_some, if_pos rfl]
    rfl
  have hstatus : (q.cancel t).2.getStatus t = .ok ⟨some .canceled, none⟩ := by
    unfold TaskQueue.getStatus
    rw [if_pos ht, if_neg hgone, hfiled]
    show (if _ = some "(canceled)" then _ else _) = _
    rw [if_pos hresponse]
  unfold TaskQueue.reported
  rw [hstatus]
  rfl

/-- **After a cancel step the task is canceled if it was pending, or was so before.** -/
theorem reported_cancel_iff (ht : t.hashable = true) :
    (q.cancel t).2.reported t = some .canceled ↔
      t ∈ q.pending ∨ q.reported t = some .canceled := by
  by_cases h : t ∈ q.pending
  · exact iff_of_true (reported_cancel_of_mem ht h) (Or.inl h)
  · rw [reported_cancel_of_notMem h, or_iff_right h]

end Cancel

/-! ### What a CancelTask does -/

/-- How a CancelTask ends. -/
inductive CancelEnds (transport : Transport) (t : TaskId) (rpcId : Json) (stamp : Stamp) :
    List Event → Outcome → Prop
  | raised (e : PyError) : CancelEnds transport t rpcId stamp [⟨.getStatus t, .error e⟩] (.raised e)
  | notFound (status : Status) (unknown : status.state = none) :
      CancelEnds transport t rpcId stamp [⟨.getStatus t, .ok status⟩]
        (.replied [taskNotFound t rpcId])
  | refused (status : Status)
      (ended : status.state ∈ [some .completed, some .failed, some .canceled]) :
      CancelEnds transport t rpcId stamp [⟨.getStatus t, .ok status⟩]
        (.replied [notCancelable status rpcId])
  | canceled (status : Status) (known : status.state ≠ none)
      (cancelable : status.state ∉ [some .completed, some .failed, some .canceled])
      (taken : Option PendingTask) :
      CancelEnds transport t rpcId stamp
        [⟨.getStatus t, .ok status⟩, ⟨.cancel t, taken⟩]
        (.replied [taskResponse transport rpcId
          (buildTaskObject t "canceled" .null none none stamp)])

/-- What a thread has done before a step, if it is a CancelTask. -/
def CancelSteps (x : Call) (h : List Event) (o : Op) : Prop :=
  ∀ transport t rpcId stamp, x = .cancelTask transport t rpcId stamp →
    (o = .getStatus t ∧ h = []) ∨
      (o = .cancel t ∧ ∃ status, h = [⟨.getStatus t, .ok status⟩])

/-- How a thread ends, if it is a CancelTask. -/
def CancelReplies (x : Call) (h : List Event) (outcome : Outcome) : Prop :=
  ∀ transport t rpcId stamp, x = .cancelTask transport t rpcId stamp →
    CancelEnds transport t rpcId stamp h outcome

theorem cancelTask_ends (transport : Transport) (t : TaskId) (rpcId : Json) (stamp : Stamp) :
    (cancelTask transport t rpcId stamp).Meets
      (CancelSteps (.cancelTask transport t rpcId stamp))
      (CancelReplies (.cancelTask transport t rpcId stamp)) [] := by
  refine ⟨?_, ?_⟩
  · rintro _ _ _ _ ⟨⟩
    exact Or.inl ⟨rfl, rfl⟩
  rintro (e | status)
  · rintro _ _ _ _ ⟨⟩
    exact .raised e
  show (if status.state = none then _ else _ : Proc _).Meets _ _ _
  split_ifs with hnone hended
  · rintro _ _ _ _ ⟨⟩
    exact .notFound status hnone
  · rintro _ _ _ _ ⟨⟩
    exact .refused status hended
  · refine ⟨?_, fun taken => ?_⟩
    · rintro _ _ _ _ ⟨⟩
      exact Or.inr ⟨rfl, status, rfl⟩
    · rintro _ _ _ _ ⟨⟩
      exact .canceled status hnone hended taken

theorem Call.cancel_meets (P : Platform) (x : Call) :
    (x.prog P).Meets (CancelSteps x) (CancelReplies x) [] := by
  cases x with
  | cancelTask transport t rpcId stamp => exact cancelTask_ends transport t rpcId stamp
  | _ =>
      refine (Prog.meets_trivial _ _).mono ?_ ?_
      · rintro _ _ _ _ _ _ _ ⟨⟩
      · rintro _ _ _ _ _ _ _ ⟨⟩

section Runs

variable {P : Platform} {test : Test} {w₀ : World} {c : Config} {i : ℕ} {transport : Transport}
  {t : TaskId} {rpcId : Json} {stamp : Stamp} {outcome : Outcome}

/-- The steps of a CancelTask in a trace. -/
theorem step_of_cancelTask (hc : (system P).Reaches (Allows test) w₀ c)
    (hcall : c.Calls i (.cancelTask transport t rpcId stamp)) {tr₁ tr₂ : Trace} {e : Event}
    (htr : c.trace = tr₁ ++ (i, e) :: tr₂) :
    (∃ answer, e = ⟨.getStatus t, answer⟩ ∧ historyOf i tr₁ = []) ∨
      ∃ taken status, e = ⟨.cancel t, taken⟩ ∧
        historyOf i tr₁ = [⟨.getStatus t, .ok status⟩] := by
  obtain ⟨x, ⟨p, hx⟩, hpre⟩ := hc.event_pre (Call.cancel_meets P) htr
  obtain ⟨p', hp'⟩ := hcall
  obtain ⟨rfl, -⟩ := Prod.mk.inj (Option.some.inj (hx.symm.trans hp'))
  obtain ⟨o, r⟩ := e
  rcases hpre _ _ _ _ rfl with ⟨ho, hhist⟩ | ⟨ho, status, hhist⟩
  · obtain rfl : o = _ := ho
    exact Or.inl ⟨r, rfl, hhist⟩
  · obtain rfl : o = _ := ho
    exact Or.inr ⟨r, status, rfl, hhist⟩

/-- What a CancelTask has read is what `get_status` reported there. -/
theorem reported_of_read (hc : (system P).Reaches (Allows test) w₀ c) {tr₁ tr₂ : Trace}
    {answer : Except PyError Status} (htr : c.trace = tr₁ ++ (i, ⟨.getStatus t, answer⟩) :: tr₂) :
    (queueAfter w₀.queue tr₁).reported t = answeredState answer := by
  obtain ⟨b, -, -, hqueue, -, hanswer⟩ := event_at hc htr
  rw [← hqueue]
  exact congrArg answeredState hanswer.symm

theorem hashable_of_read (hc : (system P).Reaches (Allows test) w₀ c) {status : Status}
    (hread : (i, (⟨.getStatus t, .ok status⟩ : Event)) ∈ c.trace) : t.hashable = true := by
  obtain ⟨tr₁, tr₂, htr⟩ := List.append_of_mem hread
  obtain ⟨b, -, -, -, -, hanswer⟩ := event_at hc htr
  change .ok status = b.shared.queue.getStatus t at hanswer
  unfold TaskQueue.getStatus at hanswer
  split at hanswer
  · assumption
  · cases hanswer

theorem mem_history_of_at {tr₁ tr₂ : Trace} {e : Event} (htr : c.trace = tr₁ ++ (i, e) :: tr₂) :
    e ∈ c.history i := by
  refine mem_historyOf.mpr ?_
  rw [htr]
  exact List.mem_append_right _ List.mem_cons_self

/-- A CancelTask that has only read is in time, unless it read "rejected". -/
theorem cancelsInTime_of_read (hc : (system P).Reaches (Allows test) w₀ c)
    {answer : Except PyError Status} (hhist : c.history i = [⟨.getStatus t, answer⟩])
    (hstate : answeredState answer ≠ some .rejected) : CancelsInTime w₀.queue c.trace i t where
  read := by
    intro tr₁ tr₂ r htr
    have hmem := mem_history_of_at htr
    rw [hhist, List.mem_singleton] at hmem
    cases hmem
    rw [reported_of_read hc htr]
    exact hstate
  acts := by
    intro tr₁ tr₂ r htr
    have hmem := mem_history_of_at htr
    rw [hhist, List.mem_singleton] at hmem
    cases hmem

/-- A CancelTask that has only read has spared the task, if the answer is right. -/
theorem spared_of_read (hc : (system P).Reaches (Allows test) w₀ c)
    {answer : Except PyError Status} (hhist : c.history i = [⟨.getStatus t, answer⟩])
    (hanswer : answeredState answer = some .completed ∨ answeredState answer = some .failed ∨
        answeredState answer = some .rejected →
      ∃ response, outcome = .replied [response] ∧
        errorCode? response = some (.int A2A_ERR_TASK_NOT_CANCELABLE))
    {tr₁ tr₂ : Trace} {e : Event} (htr : c.trace = tr₁ ++ (i, e) :: tr₂)
    (hended : (queueAfter w₀.queue tr₁).EndsElsewhere t) :
    queueAfter w₀.queue (tr₁ ++ [(i, e)]) = queueAfter w₀.queue tr₁ ∧
      ∃ response, outcome = .replied [response] ∧
        errorCode? response = some (.int A2A_ERR_TASK_NOT_CANCELABLE) := by
  have hmem := mem_history_of_at htr
  rw [hhist, List.mem_singleton] at hmem
  subst hmem
  unfold TaskQueue.EndsElsewhere at hended
  rw [reported_of_read hc htr] at hended
  exact ⟨queueAfter_snoc .., hanswer hended⟩

/-- The 409 and the 404 are no Task. -/
theorem taskResponse_ne {response : HttpResponse} (hstatus : response.status ≠ 200)
    (transport : Transport) (rpcId task : Json) :
    Outcome.replied [response] ≠ .replied [taskResponse transport rpcId task] := by
  intro h
  obtain rfl := List.singleton_inj.mp (Outcome.replied.inj h)
  cases transport <;> exact hstatus rfl

/-- **CancelTask answers truthfully exactly where it acts in time.**  Ids are JSON values here
(`TaskId`). -/
theorem cancelsHonestly_iff (hc : (system P).Reaches (Allows test) w₀ c)
    (hends : c.Ends i (.cancelTask transport t rpcId stamp) outcome) :
    CancelsHonestly w₀.queue c.trace i t outcome ↔ CancelsInTime w₀.queue c.trace i t := by
  have hpost : CancelEnds transport t rpcId stamp (c.history i) outcome :=
    Prog.meets_ret.mp (hc.meets (Call.cancel_meets P) hends) _ _ _ _ rfl
  generalize hhist : c.history i = hist at hpost
  cases hpost with
  | raised e =>
      refine iff_of_true ⟨?_, ?_⟩ (cancelsInTime_of_read hc hhist nofun)
      · nofun
      · intro tr₁ tr₂ e htr
        exact spared_of_read hc hhist nofun htr
  | notFound status unknown =>
      refine iff_of_true ⟨?_, ?_⟩ (cancelsInTime_of_read hc hhist ?_)
      · intro transport' rpcId' task h
        exact absurd h (taskResponse_ne (by simp [taskNotFound]) _ _ _)
      · intro tr₁ tr₂ e htr
        refine spared_of_read hc hhist ?_ htr
        change status.state = _ ∨ status.state = _ ∨ status.state = _ → _
        rw [unknown]
        nofun
      · change status.state ≠ _
        rw [unknown]
        nofun
  | refused status ended =>
      refine iff_of_true ⟨?_, ?_⟩ (cancelsInTime_of_read hc hhist ?_)
      · intro transport' rpcId' task h
        exact absurd h (taskResponse_ne (by simp [notCancelable]) _ _ _)
      · intro tr₁ tr₂ e htr
        exact spared_of_read hc hhist (fun _ => ⟨_, rfl, rfl⟩) htr
      · change status.state ≠ _
        intro hrejected
        rw [hrejected] at ended
        exact absurd ended (by decide)
  | canceled status known cancelable taken =>
      -- what the trace says about the two steps
      have hread : (i, (⟨.getStatus t, .ok status⟩ : Event)) ∈ c.trace :=
        mem_historyOf.mp (show _ ∈ c.history i by rw [hhist]; exact List.mem_cons_self)
      have hact : (i, (⟨.cancel t, taken⟩ : Event)) ∈ c.trace :=
        mem_historyOf.mp (show _ ∈ c.history i by
          rw [hhist]
          exact List.mem_cons_of_mem _ List.mem_cons_self)
      have hhash := hashable_of_read hc hread
      have hcall : c.Calls i (.cancelTask transport t rpcId stamp) := ⟨_, hends⟩
      have hstep : ∀ (tr₁ : Trace) (r : Option PendingTask),
          (queueAfter w₀.queue (tr₁ ++ [(i, ⟨.cancel t, r⟩)])).reported t = some .canceled ↔
            t ∈ (queueAfter w₀.queue tr₁).pending ∨
              (queueAfter w₀.queue tr₁).reported t = some .canceled := by
        intro tr₁ r
        rw [queueAfter_snoc]
        exact reported_cancel_iff hhash
      have hwrong : ¬ ∃ response, Outcome.replied [taskResponse transport rpcId
          (buildTaskObject t "canceled" .null none none stamp)] = .replied [response] ∧
            errorCode? response = some (.int A2A_ERR_TASK_NOT_CANCELABLE) := by
        rintro ⟨response, h, herror⟩
        obtain rfl := List.singleton_inj.mp (Outcome.replied.inj h)
        cases transport <;> cases herror
      constructor
      · intro honest
        refine ⟨fun tr₁ tr₂ r htr hrejected => ?_, fun tr₁ tr₂ r htr => ?_⟩
        · exact hwrong (honest.spared _ _ _ htr (Or.inr (Or.inr hrejected))).2
        · have htold := honest.told _ _ _ rfl (taskState?_buildTaskObject ..)
          refine ((hstep tr₁ r).mp (htold.2 tr₁ tr₂ r htr)).imp_left fun hpending => ?_
          exact ⟨hpending, fun hended => hwrong (honest.spared _ _ _ htr hended).2⟩
      · intro timely
        refine ⟨fun _ _ _ _ _ => ⟨⟨taken, hact⟩, fun tr₁ tr₂ r htr => ?_⟩, ?_⟩
        · exact (hstep tr₁ r).mpr ((timely.acts tr₁ tr₂ r htr).imp_left And.left)
        · -- in time, no step is made on a task that has ended elsewhere
          intro tr₁ tr₂ e htr hended
          exfalso
          rcases step_of_cancelTask hc hcall htr with ⟨answer, rfl, -⟩ | ⟨r, -, rfl, -⟩
          · have hmem := mem_history_of_at htr
            rw [hhist] at hmem
            have hanswer : answer = .ok status := by
              rcases List.mem_cons.mp hmem with h | h
              · cases h
                rfl
              · cases List.mem_singleton.mp h
            subst hanswer
            have hreported : (queueAfter w₀.queue tr₁).reported t = status.state :=
              reported_of_read hc htr
            rcases hended with h | h | h
            · exact cancelable (by rw [← hreported, h]; decide)
            · exact cancelable (by rw [← hreported, h]; decide)
            · exact timely.read tr₁ tr₂ _ htr h
          · rcases timely.acts tr₁ tr₂ r htr with ⟨-, hgoing⟩ | hcanceled
            · exact hgoing hended
            · rcases hended with h | h | h <;>
                · rw [hcanceled] at h
                  cases h

end Runs

/-! ### A message, its cancellation and its completion -/

/-- A message, a CancelTask for it and the agent's response. -/
def cancelCalls : List Call :=
  [.sendMessage .jsonRpc (.sample [("id", .str "a")] "hi"),
    .cancelTask .rest (.str "a") .null Stamp.sample,
    .postLlmCall (.str "a") "done" 0 0]

/-- The CancelTask has answered with a canceled Task. -/
def cancelOutcome : Outcome :=
  .replied [taskResponse .rest .null (buildTaskObject (.str "a") "canceled" .null none none
    Stamp.sample)]

/-- The message is canceled, and nobody else is there. -/
theorem canceled_alone :
    ∃ c, (system Platform.sample).Reaches (Allows anyStep) (World.init 0) c ∧
      c.Ends 1 (.cancelTask .rest (.str "a") .null Stamp.sample) cancelOutcome ∧
      (CancelsHonestly .empty c.trace 1 (.str "a") cancelOutcome ↔
        CancelsInTime .empty c.trace 1 (.str "a")) := by
  have hplay : (playSample anyStep (List.replicate 4 (.act 0) ++ List.replicate 2 (.act 1))
      (Config.calling cancelCalls)).any (fun c =>
        decide (c.outcome? 1 = some cancelOutcome)) = true := by
    decide +kernel
  obtain ⟨c, hc, hcalls, hp⟩ := exists_of_playCalls hplay
  have hends := (hcalls 1 _ rfl).ends (of_decide_eq_true hp)
  exact ⟨c, hc, hends, cancelsHonestly_iff hc hends⟩

/-- The agent's response comes between the two lock sections: the answer is
"canceled", the task is completed. -/
theorem canceled_after_completion :
    ∃ c, (system Platform.sample).Reaches (Allows anyStep) (World.init 0) c ∧
      c.Ends 1 (.cancelTask .rest (.str "a") .null Stamp.sample) cancelOutcome ∧
      c.shared.queue.reported (.str "a") = some .completed ∧
      ¬ CancelsHonestly .empty c.trace 1 (.str "a") cancelOutcome := by
  have hplay : (playSample anyStep
      (List.replicate 4 (.act 0) ++ [.act 1] ++ List.replicate 3 (.act 2) ++ [.act 1])
      (Config.calling cancelCalls)).any (fun c =>
        decide (c.outcome? 1 = some cancelOutcome ∧
          c.shared.queue.reported (.str "a") = some .completed ∧
          (c.trace.map Prod.fst).getLast? = some 1)) = true := by
    decide +kernel
  obtain ⟨c, hc, hcalls, hp⟩ := exists_of_playCalls hplay
  obtain ⟨houtcome, hcompleted, hlast⟩ := of_decide_eq_true hp
  have hends := (hcalls 1 _ rfl).ends houtcome
  refine ⟨c, hc, hends, hcompleted, fun honest => ?_⟩
  -- the last step of the run was the cancel step
  obtain ⟨tr, ⟨i, e⟩, htr⟩ : ∃ tr e, c.trace = tr ++ [e] := by
    rcases List.eq_nil_or_concat c.trace with hnil | h
    · rw [hnil] at hlast
      cases hlast
    · obtain ⟨tr, e, h⟩ := h
      exact ⟨tr, e, by rw [h, List.concat_eq_append]⟩
  rw [htr, List.map_append, List.map_singleton, List.getLast?_concat] at hlast
  obtain rfl : i = 1 := Option.some.inj hlast
  obtain ⟨⟨r, hmem⟩, htold⟩ := honest.told _ _ _ rfl (taskState?_buildTaskObject ..)
  rcases step_of_cancelTask hc ⟨_, hends⟩ htr with ⟨answer, rfl, hfirst⟩ | ⟨taken, -, rfl, -⟩
  · have hmem := mem_historyOf.mpr hmem
    rw [htr, historyOf_snoc_self, hfirst] at hmem
    cases List.mem_singleton.mp hmem
  · have hcanceled := htold tr [] taken htr
    have hqueue : c.shared.queue = queueAfter .empty c.trace := queue_eq_queueAfter hc
    rw [← htr, ← hqueue, hcompleted] at hcanceled
    cases hcanceled

end HermesA2A
