import HermesA2A.Lib.Waiting
import HermesA2A.Envelopes

/-!
# No request waits for ever

Three things take time in the server: a SendMessage waits for the agent's response, or for the
worker it has asked for, and a stream sleeps between two polls.  All of them give up after a
while; how long a worker may take, the peer says.  `timing` says how long each step can be put
off; nothing else waits for anything.

* `Patient` — a handler's waiting, summed up; one lemma for each handler.
* `ServerCall.patience` — how long a call waits, all in all.
* `call_ends_alone` — wherever the other threads are, a call can be brought to its end by its
  own steps within that time.

No delivery to a subscriber takes any time here.  Nobody can subscribe at this server.
-/

namespace HermesA2A

/-! ### Steps -/

/-- How long a step of the inbound path can be put off, and what it says about the clock. -/
def Op.timing : Timing Op Op.Res where
  delay
    | .awaitReady _ deadline => .upTo deadline
    | _ => .atOnce
  reads
    | .now, time => some time
    | _, _ => none
  passed _ := none

/-- The same for the server. -/
def ServerOp.timing : Timing ServerOp ServerOp.Res where
  delay
    | .base o => Op.timing.delay o
    | .sleepUntil deadline => .upTo deadline
    | .halt => .unbounded
    | _ => .atOnce
  reads
    | .base o, r => Op.timing.reads o r
    | _, _ => none
  passed
    | .sleepUntil deadline => some deadline
    | _ => none

theorem ServerOp.timing_times (site : Site) :
    timing.Times (httpServer site) (fun s => s.world.clock) ServerEnv.tick where
  at_once {o} s ho := by
    have hblocked : o.blocked s.world = false := by
      cases o with
      | base o => cases o <;> first | rfl | cases ho
      | sleepUntil => cases ho
      | halt => cases ho
      | _ => rfl
    exact ⟨_, _, serve_eq_some_iff.mpr ⟨hblocked, rfl, rfl⟩⟩
  in_time {o d s} ho hd := by
    have hblocked : o.blocked s.world = false := by
      cases o with
      | base o =>
          cases o with
          | awaitReady task deadline =>
              cases ho
              change (_ && decide (s.world.clock < d)) = false
              rw [decide_eq_false (Int.not_lt.mpr hd), Bool.and_false]
          | _ => cases ho
      | sleepUntil deadline =>
          cases ho
          exact decide_eq_false (Int.not_lt.mpr hd)
      | _ => cases ho
    exact ⟨_, _, serve_eq_some_iff.mpr ⟨hblocked, rfl, rfl⟩⟩
  timeless {o s s' r} h := by
    obtain ⟨-, -, rfl⟩ := serve_eq_some_iff.mp h
    cases o <;> rfl
  reads {o s s' r time} h htime := by
    obtain ⟨-, rfl, -⟩ := serve_eq_some_iff.mp h
    cases o with
    | base o =>
        cases o with
        | now => exact (Option.some.inj htime).symm
        | _ => cases htime
    | _ => cases htime
  passed {o s s' r time} h htime := by
    obtain ⟨hblocked, -, -⟩ := serve_eq_some_iff.mp h
    cases o with
    | sleepUntil deadline =>
        cases htime
        exact Int.not_lt.mp (of_decide_eq_false hblocked)
    | _ => cases htime
  advanced d s := rfl
  forward e s := by
    cases e with
    | tick d => exact Int.le_add_of_nonneg_right (Int.natCast_nonneg d)
    | hangUp => exact Int.le_refl _

/-! ### Programs -/

/-- **A program that never waits.** -/
structure Prompt {α : Type} (p : ServerProc α) : Prop where
  within (seen : ℤ) : p.Within ServerOp.timing 0 seen

/-- **A handler waits no longer than that**, all in all. -/
structure Patient (budget : ℕ) {α : Type} (p : Handler α) : Prop where
  within (seen : ℤ) : p.run.Within ServerOp.timing budget seen

section Rules

variable {α β : Type} {budget : ℕ}

theorem prompt_return (a : α) : Prompt (return a) := ⟨fun _ => trivial⟩

theorem prompt_step {o : ServerOp} {k : o.Res → ServerProc α}
    (ho : ServerOp.timing.delay o = .atOnce) (hk : ∀ r, Prompt (k r)) : Prompt (.step o k) :=
  ⟨fun _ => (Prog.within_step_atOnce ho).mpr fun r _ => (hk r).within _⟩

theorem Prompt.bind {p : ServerProc α} {f : α → ServerProc β} (hp : Prompt p)
    (hf : ∀ a, Prompt (f a)) : Prompt (p >>= f) :=
  ⟨fun seen => (hp.within seen).bind fun a _ _ => (hf a).within _⟩

theorem patient_pure (a : α) : Patient budget (pure a) := ⟨fun _ => trivial⟩

theorem patient_throw (e : PyError) : Patient budget (throw e : Handler α) := ⟨fun _ => trivial⟩

theorem patient_compute (x : Except PyError α) : Patient budget (compute x) := ⟨fun _ => trivial⟩

theorem Patient.mono {p : Handler α} {budget' : ℕ} (hp : Patient budget p) (h : budget ≤ budget') :
    Patient budget' p := ⟨fun seen => (hp.within seen).mono h (Int.le_refl _)⟩

/-- After a handler that does not wait. -/
theorem Patient.then_within {p : Handler α} {f : α → Handler β} {seen : ℤ} (hp : Patient 0 p)
    (hf : ∀ a seen', seen ≤ seen' → (f a).run.Within ServerOp.timing budget seen') :
    (p >>= f).run.Within ServerOp.timing budget seen := by
  refine (hp.within seen).bind_prompt fun result seen' hseen => ?_
  cases result with
  | error e => exact trivial
  | ok a => exact hf a seen' hseen

theorem Patient.bind {p : Handler α} {f : α → Handler β} (hp : Patient 0 p)
    (hf : ∀ a, Patient budget (f a)) : Patient budget (p >>= f) :=
  ⟨fun _ => hp.then_within fun a seen' _ => (hf a).within seen'⟩

/-- Before a handler that does not wait. -/
theorem Patient.bind_prompt {p : Handler α} {f : α → Handler β} (hp : Patient budget p)
    (hf : ∀ a, Patient 0 (f a)) : Patient budget (p >>= f) := by
  refine ⟨fun seen => Prog.Within.mono ?_ (Nat.le_of_eq (Nat.add_zero budget)) (Int.le_refl _)⟩
  refine Prog.Within.bind (hp.within seen) fun result seen' _ => ?_
  cases result with
  | error e => exact trivial
  | ok a => exact (hf a).within seen'

/-- After a computation that may raise. -/
theorem patient_compute_bind {x : Except PyError α} {f : α → Handler β}
    (hf : ∀ a, x = .ok a → Patient budget (f a)) : Patient budget (compute x >>= f) := by
  cases x with
  | error e => exact ⟨fun _ => trivial⟩
  | ok a => exact hf a rfl

/-- After a handler that does not wait, knowing what it has come to. -/
theorem Patient.bind_sends {p : Handler α} {f : α → Handler β} {mid : α → Prop} (hp : Patient 0 p)
    (hmid : Sends (fun _ => True) p mid) (hf : ∀ a, mid a → Patient budget (f a)) :
    Patient budget (p >>= f) := by
  refine ⟨fun seen => Prog.Within.mono ?_ (Nat.le_of_eq (Nat.zero_add budget)) (Int.le_refl _)⟩
  refine (hp.within seen).bind_relies (Prog.Relies.allow (fun _ _ => trivial) hmid) ?_
  rintro (e | a) seen' hends -
  · exact trivial
  · exact (hf a (hends a rfl)).within seen'

theorem patient_attempt {p : ServerProc (Except PyError α)} (h : Prompt p) :
    Patient budget (attempt p) := ⟨fun seen => (h.within seen).mono (Nat.zero_le _) (Int.le_refl _)⟩

theorem patient_call {o : ServerOp} (ho : ServerOp.timing.delay o = .atOnce) :
    Patient budget (call o) := ⟨fun _ => (Prog.within_step_atOnce ho).mpr fun _ _ => trivial⟩

theorem patient_lift {p : ServerProc α} (h : Prompt p) :
    Patient budget (ExceptT.lift p : Handler α) := by
  have hlifted := h.bind fun a => prompt_return (Except.ok (ε := PyError) a)
  exact ⟨fun seen => (hlifted.within seen).mono (Nat.zero_le _) (Int.le_refl _)⟩

/-- Whoever reads the clock knows it. -/
theorem within_now {k : ℤ → ServerProc α} {seen : ℤ}
    (hk : ∀ now : ℤ, seen ≤ now → (k now).Within ServerOp.timing budget now) :
    (Prog.step (.base .now) k : ServerProc α).Within ServerOp.timing budget seen := by
  refine (Prog.within_step_atOnce rfl).mpr fun (now : ℤ) hnow => ?_
  have hle : seen ≤ now := hnow now rfl
  have hseen : ServerOp.timing.seenAfter (.base .now) now seen = now := by
    change max (max seen now) seen = now
    omega
  rw [hseen]
  exact hk now hle

/-- Whoever has slept until then knows as much. -/
theorem within_sleepUntil {k : Unit → ServerProc α} {seen deadline : ℤ} (h : seen ≤ deadline)
    (hin : deadline ≤ seen + budget)
    (hk : (k ()).Within ServerOp.timing (budget - (deadline - seen).toNat) deadline) :
    (Prog.step (.sleepUntil deadline) k : ServerProc α).Within ServerOp.timing budget seen := by
  refine (Prog.within_step_upTo rfl).mpr ⟨hin, fun _ _ => ?_⟩
  have hslept : ServerOp.timing.seenAfter (.sleepUntil deadline) () seen = deadline := by
    change max (max seen seen) deadline = deadline
    omega
  rw [hslept]
  exact hk

end Rules

/-! ### Events and deliveries -/

theorem broadcast_prompt (ids : List StreamId) (event : SseEvent) :
    Prompt (broadcast ids event) := by
  induction ids generalizing event with
  | nil => exact prompt_return ()
  | cons id ids ih => exact prompt_step rfl fun pushed => ih pushed.event

theorem emitArtifacts_prompt (t : TaskId) (contextId : Json) (ids : List StreamId)
    (artifacts : List Json) : Prompt (emitArtifacts t contextId ids artifacts) := by
  induction artifacts with
  | nil => exact prompt_return ()
  | cons artifact artifacts ih => exact (broadcast_prompt ..).bind fun _ => ih

theorem streamArtifacts_prompt (t : TaskId) (contextId task : Json) :
    Prompt (streamArtifacts t contextId task) := by
  refine prompt_step rfl ?_
  rintro (e | ids)
  · exact prompt_return ()
  · change Prompt (if ids.isEmpty then return () else _)
    split_ifs
    · exact prompt_return ()
    · exact emitArtifacts_prompt ..

theorem deliverArtifactsAll_prompt (t : TaskId) (contextId : Json) (artifacts : List Json)
    (subs : List Subscription) : Prompt (deliverArtifactsAll t contextId artifacts subs) := by
  have hone : ∀ sub artifacts, Prompt (deliverArtifacts t contextId sub artifacts) := by
    intro sub artifacts
    induction artifacts with
    | nil => exact prompt_return ()
    | cons artifact artifacts ih => exact prompt_step rfl fun _ => ih
  induction subs with
  | nil => exact prompt_return ()
  | cons sub subs ih => exact (hone ..).bind fun _ => ih

theorem pushArtifacts_prompt (t : TaskId) (contextId task : Json) :
    Prompt (pushArtifacts t contextId task) := by
  refine prompt_step rfl ?_
  rintro (e | subs)
  · exact prompt_return ()
  · exact deliverArtifactsAll_prompt ..

theorem emitGetTaskArtifacts_prompt (t : TaskId) (task : Json) :
    Prompt (emitGetTaskArtifacts t task) := by
  refine prompt_step rfl ?_
  rintro (e | _ | ⟨id, ids⟩)
  · exact prompt_return ()
  · exact prompt_return ()
  refine prompt_step rfl ?_
  rintro (e | pending)
  · exact prompt_return ()
  · exact emitArtifacts_prompt ..

theorem onStateChange_prompt (t : TaskId) (oldState : String) (newState : TaskState)
    (contextId : Json) : Prompt (onStateChange t oldState newState contextId) := by
  have hsse : ∀ event, Prompt (pushSse t event) := by
    intro event
    refine prompt_step rfl ?_
    rintro (e | ids)
    · exact prompt_return ()
    · exact broadcast_prompt ..
  have hall : ∀ payload subs, Prompt (deliverAll payload subs) := by
    intro payload subs
    induction subs with
    | nil => exact prompt_return ()
    | cons sub subs ih => exact prompt_step rfl fun _ => ih
  refine prompt_step rfl fun _ => (hsse _).bind fun _ => prompt_step rfl ?_
  rintro (e | _ | ⟨sub, subs⟩)
  · exact prompt_return ()
  · exact prompt_return ()
  · exact prompt_step rfl fun timestamp => hall ..

/-! ### The inbound path -/

/-- **A program of the inbound path** waits no longer on the server. -/
theorem within_lift {α : Type} {p : Proc α} {budget : ℕ} {seen : ℤ}
    (h : p.Within Op.timing budget seen) : (lift p).Within ServerOp.timing budget seen := by
  refine Prog.Within.expand (fun o k k' budget seen hstep hk => ?_) h
  cases o with
  | stateHook t oldState newState contextId =>
      have hrest := (Prog.within_step_atOnce rfl).mp hstep
      have hprompt := (onStateChange_prompt t oldState newState contextId).within seen
      refine hprompt.bind_prompt fun a seen' hseen => ?_
      have hafter : Op.timing.seenAfter (.stateHook t oldState newState contextId) a seen = seen := by
        unfold Timing.seenAfter
        exact (Int.max_self _).symm ▸ Int.max_self _
      have hgoes := hrest a fun _ htime => by cases htime
      rw [hafter] at hgoes
      exact (hk a _ _ hgoes).mono (Nat.le_refl _) hseen
  | awaitReady task deadline =>
      obtain ⟨hin, hrest⟩ := (Prog.within_step_upTo rfl).mp hstep
      exact (Prog.within_step_upTo rfl).mpr ⟨hin, fun r hr => hk _ _ _ (hrest r hr)⟩
  | _ =>
      have hrest := (Prog.within_step_atOnce rfl).mp hstep
      exact (Prog.within_step_atOnce rfl).mpr fun r hr => hk _ _ _ (hrest r hr)

/-- A step that is not a wait. -/
theorem within_act {α : Type} {o : Op} {k : o.Res → Proc α} {budget : ℕ} {seen : ℤ}
    (ho : Op.timing.delay o = .atOnce)
    (hk : ∀ r seen', seen ≤ seen' → (k r).Within Op.timing budget seen') :
    (Prog.step o k : Proc α).Within Op.timing budget seen :=
  (Prog.within_step_atOnce ho).mpr fun r _ => hk r _ (Op.timing.seen_le_seenAfter o r)

theorem prepareAndEnqueue_within (s : Submission) (seen : ℤ) :
    (prepareAndEnqueue s).Within Op.timing 0 seen := by
  have hchecked : ∀ text seen, (enqueueChecked s text).Within Op.timing 0 seen := by
    intro text seen
    refine within_act rfl ?_
    rintro (e | _ | task) seen' -
    · exact trivial
    · refine within_act rfl fun createdAt seen' _ => within_act rfl ?_
      rintro (_ | task) seen' -
      · exact trivial
      · exact trivial
    · exact trivial
  unfold prepareAndEnqueue checkIdempotency
  split_ifs
  · refine within_act rfl ?_
    rintro (e | _ | _) seen' -
    · exact trivial
    · refine within_act rfl ?_
      rintro (e | _ | stored) seen' -
      · exact trivial
      · exact hchecked (sanitizeInbound s.userText) seen'
      · exact trivial
    · exact trivial
  · exact hchecked (sanitizeInbound s.userText) seen

/-- **SendMessage waits for the response only**, and no longer than the time-out. -/
theorem enqueueAndAwaitTask_within (P : Platform) (s : Submission) (stamp : Stamp) (seen : ℤ) :
    (enqueueAndAwaitTask P s stamp).Within Op.timing P.responseTimeout.toNat seen := by
  have hawait : ∀ task seen,
      (awaitTask P s stamp task).Within Op.timing P.responseTimeout.toNat seen := by
    intro task seen
    refine (Prog.within_step_atOnce rfl).mpr fun (start : ℤ) hstart => ?_
    have hseen : Op.timing.seenAfter .now start seen = start := by
      have hle : seen ≤ start := hstart start rfl
      change max (max seen start) seen = start
      omega
    rw [hseen]
    refine (Prog.within_step_upTo rfl).mpr ⟨by omega, fun _ _ => within_act rfl ?_⟩
    rintro (_ | response) seen' -
    · exact within_act rfl fun _ _ _ => trivial
    · refine within_act rfl ?_
      rintro (_ | response) seen' -
      · exact trivial
      · dsimp only
        split_ifs
        · exact within_act rfl fun _ _ _ => trivial
        · exact trivial
  refine ((prepareAndEnqueue_within s seen).bind fun prepared seen' _ => ?_).mono
    (Nat.le_of_eq (Nat.zero_add _)) (Int.le_refl _)
  rcases prepared with e | task | ⟨code, status, message⟩ | stored
  · exact trivial
  · exact hawait task seen'
  · exact trivial
  · exact trivial

theorem patient_enqueueAndAwaitTask (P : Platform) (s : Submission) (stamp : Stamp) :
    Patient P.responseTimeout.toNat (attempt (lift (enqueueAndAwaitTask P s stamp))) :=
  ⟨fun seen => within_lift (enqueueAndAwaitTask_within P s stamp seen)⟩

/-- A program of the inbound path that waits for nothing. -/
theorem prompt_lift {α : Type} {p : Proc α} (h : ∀ seen, p.Within Op.timing 0 seen) :
    Prompt (lift p) := ⟨fun seen => within_lift (h seen)⟩

/-! ### Hooks and callbacks -/

theorem preLlmCall_within (seen : ℤ) : preLlmCall.Within Op.timing 0 seen := by
  refine within_act rfl ?_
  rintro (_ | ⟨task, rest⟩) seen' -
  · exact trivial
  simp only [Prog.bind]
  cases task.metadata.get "sender_name" (.str "unknown") with
  | error e => exact trivial
  | ok sender =>
      refine within_act rfl fun _ _ _ => within_act rfl fun _ _ _ => within_act rfl fun _ _ _ => ?_
      cases rest with
      | nil => exact trivial
      | cons next rest => exact within_act rfl fun _ _ _ => trivial

theorem postLlmCall_within (taskId : Json) (response : String) (turn turn' : ℕ) (seen : ℤ) :
    (postLlmCall taskId response turn turn').Within Op.timing 0 seen := by
  have hcomplete : ∀ t seen, (completeTask t response).Within Op.timing 0 seen := by
    intro t seen
    refine within_act rfl ?_
    rintro (e | status) seen' -
    · exact trivial
    · exact within_act rfl fun _ _ _ => within_act rfl fun _ _ _ => trivial
  have hafterwards : ∀ seen, (postLlmCall.afterwards response turn').Within Op.timing 0 seen := by
    intro seen
    refine within_act rfl ?_
    rintro (_ | ⟨t, rest⟩) seen' -
    · exact trivial
    · exact hcomplete t seen'
  unfold postLlmCall
  split_ifs
  · exact trivial
  · exact hcomplete taskId seen
  · refine within_act rfl ?_
    rintro (_ | ⟨t, rest⟩) seen' -
    · exact hafterwards seen'
    · simp only [Prog.bind]
      split_ifs
      · exact hcomplete t seen'
      · exact hafterwards seen'

theorem answerUnanswered_within (task : PendingTask) (text : String) (seen : ℤ) :
    (answerUnanswered task text).Within Op.timing 0 seen := by
  refine within_act rfl ?_
  rintro (_ | response) seen' -
  · exact within_act rfl fun _ _ _ => within_act rfl fun _ _ _ => trivial
  · exact trivial

theorem webhookFailure_within (t : TaskId) (seen : ℤ) :
    (webhookFailure t).Within Op.timing 0 seen := by
  refine within_act rfl ?_
  rintro (e | _ | task) seen' -
  · exact trivial
  · exact trivial
  · have hanswered := answerUnanswered_within task "(webhook delivery failed)" seen'
    exact hanswered.bind_prompt fun _ _ _ => trivial

theorem watchdogPass_within (P : Platform) (seen : ℤ) :
    (watchdogPass P).Within Op.timing 0 seen := by
  have hmark : ∀ cutoff tasks seen, (markOrphans cutoff tasks).Within Op.timing 0 seen := by
    intro cutoff tasks
    induction tasks with
    | nil => exact fun _ => trivial
    | cons task tasks ih =>
        intro seen
        unfold markOrphans
        split_ifs
        · exact (answerUnanswered_within task _ seen).bind_prompt fun _ seen' _ => ih seen'
        · exact ih seen
  have hscan : ∀ cutoff seen, (watchdogPass.scan cutoff).Within Op.timing 0 seen :=
    fun cutoff seen => within_act rfl fun tasks seen' _ => hmark cutoff tasks seen'
  refine within_act rfl fun now seen' _ => within_act rfl ?_
  rintro (_ | oldest) seen' -
  · exact hscan _ seen'
  · refine within_act rfl ?_
    rintro (_ | oldest) seen' -
    · exact trivial
    · simp only [Prog.bind]
      split_ifs
      · exact trivial
      · exact hscan _ seen'

/-! ### Handlers -/

section Handlers

variable {site : Site} {req : HttpRequest} {budget : ℕ}

theorem patient_sendJson (status : ℕ) (body : Json) : Patient budget (sendJson status body) :=
  patient_call rfl

theorem patient_sendRpcError (code : ℤ) (message : String) (status : ℕ) (rpcId : Json) :
    Patient budget (sendRpcError code message status rpcId) := patient_call rfl

theorem patient_getStatus (t : TaskId) : Patient budget (getStatus t) :=
  patient_attempt (prompt_step rfl fun _ => prompt_return _)

theorem patient_loadTaskOr404 (t : TaskId) (rpcId : Json) :
    Patient budget (loadTaskOr404 t rpcId) := by
  refine (patient_getStatus t).bind fun status => ?_
  split_ifs
  · exact (patient_call rfl).bind fun _ => patient_pure none
  · exact patient_pure _

theorem patient_getTaskCore (t : TaskId) (rpcId : Json) (stamp : Stamp) :
    Patient budget (getTaskCore t rpcId stamp) := by
  refine (patient_loadTaskOr404 t rpcId).bind ?_
  rintro (_ | status)
  · exact patient_pure none
  · exact patient_pure _

theorem patient_cancelTaskCore (t : TaskId) (rpcId : Json) (stamp : Stamp) :
    Patient budget (cancelTaskCore t rpcId stamp) := by
  refine (patient_loadTaskOr404 t rpcId).bind ?_
  rintro (_ | status)
  · exact patient_pure none
  · dsimp only
    split_ifs
    · exact (patient_call rfl).bind fun _ => patient_pure none
    · exact (patient_call rfl).bind fun _ => patient_pure _

/-- **A SendMessage waits for the agent or for a worker**, never for both. -/
theorem patient_handleTaskSend (params rpcId : Json) :
    Patient (max site.platform.responseTimeout.toNat
      ((req.workerWait? site (req.message params rpcId)).getD 0))
      (handleTaskSend site req params rpcId) := by
  unfold handleTaskSend awaitWorker
  dsimp only
  cases hwait : req.workerWait? site (req.message params rpcId) with
  | none =>
      refine (patient_pure ()).bind fun _ => (patient_compute _).bind fun plan => ?_
      cases plan with
      | answer exit task => exact patient_pure task
      | submit s =>
          refine ((patient_enqueueAndAwaitTask ..).mono (Nat.le_max_left ..)).bind_prompt ?_
          rintro (result | error | _)
          · exact (patient_lift (streamArtifacts_prompt ..)).bind fun _ =>
              (patient_lift (pushArtifacts_prompt ..)).bind fun _ => patient_pure _
          · exact (patient_call rfl).bind fun _ => patient_pure _
          · exact patient_pure _
  | some seconds =>
      obtain ⟨job, hjob, -⟩ := Option.map_eq_some_iff.mp hwait
      have hle := Nat.le_max_right site.platform.responseTimeout.toNat seconds
      refine ⟨fun seen => within_now fun now _ =>
        within_sleepUntil (by omega) (by simp only [Option.getD_some]; omega) ?_⟩
      refine (patient_compute_bind fun plan hplan => ?_).within _
      cases plan with
      | answer exit task => exact patient_pure task
      | submit s => exact absurd hplan (not_submit_of_workerJob hjob s)

theorem patient_restSendMessage (body : Json) :
    Patient site.platform.responseTimeout.toNat (restSendMessage site req body) := by
  refine (patient_compute _).bind fun plan => ?_
  cases plan with
  | answer exit task => exact patient_sendJson ..
  | submit s =>
      refine (patient_enqueueAndAwaitTask ..).bind_prompt ?_
      rintro (result | error | _)
      · exact (patient_compute _).bind fun text => patient_sendJson ..
      · exact patient_call rfl
      · exact patient_sendJson ..

theorem patient_buildPaginatedTaskList (size : ℤ) (token : Json) :
    Patient 0 (buildPaginatedTaskList site size token req.stamps) := by
  have hitems : ∀ page stamps, Patient 0 (listItems page stamps) := by
    intro page
    induction page with
    | nil => exact fun _ => patient_pure []
    | cons entry page ih =>
        obtain ⟨createdAt, task, state⟩ := entry
        intro stamps
        refine (patient_call rfl).bind fun response => ?_
        have hrest : ∀ filtered : Option String, Patient 0 (do
            let stateName := (state.map TaskState.name).getD "unknown"
            let item := buildTaskObject task.taskId stateName task.contextId filtered
              (some task.createdAt) (stamps 0)
            let items ← listItems page fun n => stamps (n + 1)
            return item :: items) := fun filtered => (ih _).bind fun items => patient_pure _
        cases nonEmpty? response with
        | none => exact hrest none
        | some text =>
            refine (patient_call rfl).bind ?_
            rintro (_ | response)
            · exact patient_throw _
            · exact hrest _
  exact (patient_call rfl).bind fun snapshot => (hitems ..).bind fun items => patient_pure _

theorem patient_rpcListTasks (params : Json) : Patient 0 (rpcListTasks site req params) :=
  (patient_compute _).bind fun _ => (patient_compute _).bind fun _ => (patient_compute _).bind
    fun _ => (patient_buildPaginatedTaskList ..).bind fun _ => patient_pure _

/-! ### Streams -/

theorem patient_sseEmit (id : StreamId) (eventId : Option String) (t : TaskId) (state : String)
    (contextId : Json) : Patient budget (sseEmit id eventId t state contextId) :=
  (patient_call rfl).bind fun _ => patient_call rfl

theorem patient_openSseStream (t : TaskId) : Patient budget (openSseStream t) :=
  (patient_attempt (prompt_step rfl fun _ => prompt_return _)).bind fun id =>
    (patient_call rfl).bind fun _ => patient_pure id

theorem patient_sendLines (id : StreamId) (lines : List SseLine) :
    Patient budget (sendLines id lines) := by
  induction lines with
  | nil => exact patient_pure true
  | cons line lines ih =>
      refine (patient_call rfl).bind fun written => ?_
      split_ifs
      · exact ih
      · exact patient_pure false

/-- How long a stream waits. -/
def Site.streamTime (site : Site) : ℕ := (site.sseTimeout + site.pollInterval).toNat

/-- The polls do not run out before the time does; in the source they never do. -/
structure HttpRequest.PollsOn (req : HttpRequest) (site : Site) : Prop where
  interval : (0 : ℤ) < site.pollInterval
  polls : 0 < req.polls
  enough : (site.sseTimeout + site.pollInterval : ℤ) ≤ req.polls * site.pollInterval

/-- **The loop ends by its deadline**, but for the last sleep. -/
theorem ssePollUntilTerminal_within (hpoll : (0 : ℤ) < site.pollInterval) (id : StreamId) (t : TaskId)
    (contextId : Json) {deadline : ℤ} : ∀ {polls budget : ℕ} {seen : ℤ},
      deadline + site.pollInterval ≤ seen + polls * site.pollInterval → 0 < polls →
        (seen < deadline → deadline + site.pollInterval ≤ seen + budget) →
          (ssePollUntilTerminal site id t contextId deadline polls).run.Within ServerOp.timing
            budget seen := by
  intro polls
  induction polls with
  | zero => exact fun _ h => absurd h (Nat.lt_irrefl 0)
  | succ polls ih =>
      intro budget seen henough _ hbudget
      refine within_now fun now hle => ?_
      have hcloses : Patient budget (call (.closeStream id)) := patient_call rfl
      change Prog.Within ServerOp.timing (ExceptT.run (if now < deadline then _ else _)) budget now
      by_cases hearly : now < deadline
      · rw [if_pos hearly]
        have hbudget := hbudget (by omega)
        -- one sleep, and round again
        have hround : ∀ seen', now ≤ seen' → (do
            let now ← call (.base .now)
            call (.sleepUntil (now + site.pollInterval))
            ssePollUntilTerminal site id t contextId deadline polls : Handler Unit).run.Within
              ServerOp.timing budget seen' := by
          intro seen' hseen'
          refine within_now fun later hle' => within_sleepUntil (by omega) (by omega) ?_
          have hpolls : ((polls + 1 : ℕ) : ℤ) * site.pollInterval =
              polls * site.pollInterval + site.pollInterval := by
            rw [Int.natCast_succ, Int.add_mul, Int.one_mul]
          refine ih (by omega) (Nat.pos_of_ne_zero fun hzero => ?_) fun _ => by omega
          rw [hzero] at henough
          omega
        refine Patient.then_within (patient_call rfl) fun lines seen' hseen' => ?_
        refine Patient.then_within (patient_sendLines ..) fun written seen'' hseen'' => ?_
        split_ifs
        · refine Patient.then_within (patient_call rfl) fun closed s₁ hs₁ => ?_
          split_ifs
          · exact trivial
          refine Patient.then_within (patient_getStatus t) fun status s₂ hs₂ => ?_
          split_ifs
          · exact ((patient_sseEmit ..).bind fun _ => hcloses).within _
          · exact hround _ (by omega)
        · exact hcloses.within _
      · rw [if_neg hearly]
        exact (Patient.bind (patient_call rfl) fun _ => hcloses).within _

theorem patient_pollStream (h : req.PollsOn site) (id : StreamId) (t : TaskId) (contextId : Json) :
    Patient site.streamTime (pollStream site req id t contextId) := by
  refine ⟨fun seen => within_now fun start _ => ?_⟩
  have henough := Int.add_le_add_left h.enough start
  rw [← Int.add_assoc] at henough
  refine ssePollUntilTerminal_within h.interval id t contextId henough h.polls fun _ => ?_
  unfold Site.streamTime
  omega

theorem patient_streamTaskSse (h : req.PollsOn site) (t : TaskId) :
    Patient site.streamTime (streamTaskSse site req t) := by
  refine (patient_getStatus t).bind fun status => ?_
  by_cases hnone : status.state = none
  · rw [if_pos hnone]
    exact patient_call rfl
  · rw [if_neg hnone]
    refine (patient_openSseStream t).bind fun id => (patient_sseEmit ..).bind fun written => ?_
    split_ifs
    · exact patient_call rfl
    · exact patient_pollStream h ..
    · exact patient_call rfl

theorem patient_handleSendSubscribe (h : req.PollsOn site) (params rpcId : Json) :
    Patient site.streamTime (handleSendSubscribe site req params rpcId) := by
  refine (patient_compute _).bind fun t => ?_
  dsimp only
  split_ifs
  · exact patient_sendJson ..
  refine (patient_getStatus t).bind fun status => ?_
  split_ifs
  · exact patient_sendJson ..
  · exact patient_streamTaskSse h t

theorem patient_restSendMessageStream (h : req.PollsOn site) (body : Json) :
    Patient site.streamTime (restSendMessageStream site req body) := by
  have hcached : ∀ cached contextId,
      Patient site.streamTime (streamCachedResult req cached contextId) := by
    intro cached contextId
    refine (patient_compute _).bind fun t => (patient_compute _).bind fun context =>
      (patient_compute _).bind fun status => (patient_compute _).bind fun state =>
        (patient_openSseStream _).bind fun id => (patient_sseEmit ..).bind fun written => ?_
    split_ifs
    · exact (patient_sseEmit ..).bind fun _ => patient_call rfl
    · exact patient_call rfl
  refine (patient_compute _).bind fun plan => ?_
  cases plan with
  | answer exit task => exact patient_sendJson ..
  | submit s =>
      refine (patient_attempt (prompt_lift (prepareAndEnqueue_within _))).bind ?_
      rintro (task | ⟨code, status, message⟩ | stored)
      · refine (patient_openSseStream _).bind fun id => (patient_sseEmit ..).bind fun written => ?_
        split_ifs
        · exact patient_pollStream h ..
        · exact patient_call rfl
      · exact patient_sendJson ..
      · exact hcached ..

/-! ### Push configurations -/

theorem patient_checkHmacPush : Patient budget (checkHmacPush site req) := by
  unfold checkHmacPush
  split_ifs
  · exact patient_pure true
  · exact patient_pure true
  · exact (patient_sendRpcError ..).bind fun _ => patient_pure false

theorem patient_restCreatePushConfig (t : String) (body : Json) :
    Patient budget (restCreatePushConfig site req t body) := by
  refine patient_checkHmacPush.bind fun authorised => ?_
  split_ifs
  · refine (patient_loadTaskOr404 ..).bind ?_
    rintro (_ | status)
    · exact patient_pure ()
    refine (patient_compute _).bind fun url => (patient_compute _).bind fun hmacKey =>
      (patient_compute _).bind fun other => ?_
    split_ifs
    · exact patient_sendJson ..
    · exact patient_sendJson ..
    · exact (patient_compute _).bind fun _ => (patient_compute _).bind fun _ =>
        (patient_call rfl).bind fun _ => patient_sendJson ..
  · exact patient_pure ()

theorem patient_restGetPushConfig (t id : String) :
    Patient budget (restGetPushConfig site req t id) := by
  refine patient_checkHmacPush.bind fun authorised => ?_
  split_ifs
  · refine (patient_loadTaskOr404 ..).bind ?_
    rintro (_ | status)
    · exact patient_pure ()
    refine (patient_call rfl).bind ?_
    rintro (_ | config)
    · exact patient_call rfl
    · exact patient_sendJson ..
  · exact patient_pure ()

theorem patient_restDeletePushConfig (t id : String) :
    Patient budget (restDeletePushConfig site req t id) := by
  refine patient_checkHmacPush.bind fun authorised => ?_
  split_ifs
  · refine (patient_loadTaskOr404 ..).bind ?_
    rintro (_ | status)
    · exact patient_pure ()
    refine (patient_call rfl).bind ?_
    rintro (_ | url)
    · exact patient_call rfl
    · exact patient_call rfl
  · exact patient_pure ()

theorem patient_restListPushConfigs (t : String) : Patient budget (restListPushConfigs t) := by
  refine (patient_loadTaskOr404 ..).bind ?_
  rintro (_ | status)
  · exact patient_pure ()
  · exact (patient_call rfl).bind fun configs => patient_sendJson ..

/-! ### Requests -/

theorem patient_readBody {unauthorized : Handler Unit} {badLength : ℤ → ℕ → Handler Unit}
    (hunauthorized : Patient 0 unauthorized) (hbadLength : ∀ length status,
      Patient 0 (badLength length status)) :
    Patient 0 (readBody site req unauthorized badLength) := by
  refine (patient_compute _).bind fun authorised => ?_
  split_ifs
  · exact hunauthorized.bind fun _ => patient_pure none
  refine (patient_compute _).bind fun limited => ?_
  cases limited with
  | some retryAfter => exact (patient_sendJson ..).bind fun _ => patient_pure none
  | none =>
      cases req.contentLength with
      | none => exact (patient_sendRpcError ..).bind fun _ => patient_pure none
      | some length =>
          dsimp only
          split_ifs
          · exact (hbadLength ..).bind fun _ => patient_pure none
          · exact (hbadLength ..).bind fun _ => patient_pure none
          · cases req.body with
            | none => exact (patient_sendRpcError ..).bind fun _ => patient_pure none
            | some body => exact patient_pure _

/-- Whatever is raised is answered at once. -/
theorem patient_guarded {handler : Handler Unit} {error : PyError → HttpResponse}
    (h : Patient budget handler) : Patient budget (guarded handler error) := by
  refine ⟨fun seen => Prog.Within.mono ?_ (Nat.le_of_eq (Nat.add_zero budget)) (Int.le_refl _)⟩
  refine Prog.Within.bind (h.within seen) fun result seen' _ => ?_
  cases result with
  | error e => exact (prompt_step rfl fun _ => prompt_return _).within seen'
  | ok _ => exact trivial

/-- How long a POST waits at most. -/
def Site.patience (site : Site) : ℕ := max site.platform.responseTimeout.toNat site.streamTime

/-- How long a POST waits for the worker that it has asked for: as long as the worker runs, up to
the time-out that the request names. -/
def HttpRequest.workerWait (site : Site) (req : HttpRequest) : ℕ :=
  match req.postRoute, (req.admitted? site).map readRpc with
  | .jsonRpc, some (.ok (.method .sendMessage params rpcId)) =>
      (req.workerWait? site (req.message params rpcId)).getD 0
  | _, _ => 0

theorem patient_doJsonRpc (h : req.PollsOn site) (hroute : req.postRoute = .jsonRpc) :
    Patient (max site.patience (req.workerWait site)) (doJsonRpc site req) := by
  have hsend := Nat.le_max_left site.platform.responseTimeout.toNat site.streamTime
  have hstream := Nat.le_max_right site.platform.responseTimeout.toNat site.streamTime
  have hpatience := Nat.le_max_left site.patience (req.workerWait site)
  have hhandler : ∀ body (m : RpcMethod) params rpcId, req.admitted? site = some body →
      readRpc body = .ok (.method m params rpcId) →
        Patient (max site.patience (req.workerWait site)) (m.handler site req params rpcId) := by
    intro body m params rpcId hadmitted hread
    cases m with
    | sendMessage =>
        have hwait : req.workerWait site =
            (req.workerWait? site (req.message params rpcId)).getD 0 := by
          rw [HttpRequest.workerWait, hroute, hadmitted, Option.map_some, hread]
        refine ((patient_handleTaskSend ..).bind_prompt fun _ => patient_pure _).mono ?_
        rw [← hwait]
        exact max_le_max_right _ hsend
    | getTask =>
        refine (patient_compute _).bind fun t => (patient_getTaskCore ..).bind ?_
        rintro (_ | task)
        · exact patient_pure _
        · exact (patient_lift (emitGetTaskArtifacts_prompt ..)).bind fun _ => patient_pure _
    | cancelTask =>
        refine (patient_compute _).bind fun t => (patient_cancelTaskCore ..).bind ?_
        rintro (_ | task)
        · exact patient_pure _
        · exact patient_pure _
    | subscribeToTask =>
        exact ((patient_handleSendSubscribe h ..).bind_prompt fun _ => patient_pure _).mono
          (hstream.trans hpatience)
    | listTasks => exact (patient_rpcListTasks params).mono (Nat.zero_le _)
  refine patient_guarded (Patient.bind_sends (patient_readBody (patient_sendRpcError ..)
    fun _ _ => patient_sendRpcError ..) (readBody_sends (fun _ _ _ _ _ => trivial)
      (sends_send trivial) fun _ _ _ => sends_send trivial) ?_)
  rintro (_ | body) hadmitted
  · exact patient_pure ()
  refine patient_compute_bind ?_
  rintro (⟨code, message, status, rpcId⟩ | ⟨m, params, rpcId⟩) hread
  · exact patient_sendRpcError ..
  · refine (hhandler body m params rpcId (hadmitted body rfl) hread).bind_prompt ?_
    rintro (_ | j)
    · exact patient_pure ()
    · exact patient_call rfl

theorem patient_doPost (h : req.PollsOn site) :
    Patient (max site.patience (req.workerWait site)) (doPost site req) := by
  have hsend := Nat.le_max_left site.platform.responseTimeout.toNat site.streamTime
  have hstream := Nat.le_max_right site.platform.responseTimeout.toNat site.streamTime
  have hrest : ∀ handler : Json → Handler Unit, (∀ body, Patient site.patience (handler body)) →
      Patient site.patience (doRestPost site req handler) := by
    intro handler hhandler
    refine (patient_readBody (patient_sendJson ..) fun _ _ => patient_sendJson ..).bind ?_
    rintro (_ | body)
    · exact patient_pure ()
    · exact hhandler body
  have hpatience {handler : Handler Unit} (hp : Patient site.patience handler) :
      Patient (max site.patience (req.workerWait site)) handler := hp.mono (Nat.le_max_left ..)
  unfold doPost
  cases hroute : req.postRoute with
  | send => exact hpatience (hrest _ fun body => (patient_restSendMessage body).mono hsend)
  | stream =>
      exact hpatience (hrest _ fun body => (patient_restSendMessageStream h body).mono hstream)
  | cancel t =>
      refine hpatience (hrest _ fun body => (patient_cancelTaskCore ..).bind ?_)
      rintro (_ | task)
      · exact patient_pure ()
      · exact patient_sendJson ..
  | createPushConfig t =>
      exact hpatience (hrest _ fun body => patient_restCreatePushConfig t body)
  | jsonRpc => exact patient_doJsonRpc h hroute

theorem patient_doGet (h : req.PollsOn site) : Patient site.streamTime (doGet site req) := by
  have hroute : ∀ route : GetRoute, Patient site.streamTime (route.handler site req) := by
    intro route
    cases route with
    | subscribe t => exact patient_streamTaskSse h _
    | getPushConfig t id => exact patient_restGetPushConfig t id
    | listPushConfigs t => exact patient_restListPushConfigs t
    | getTask t =>
        refine (patient_getTaskCore ..).bind ?_
        rintro (_ | task)
        · exact patient_pure ()
        · exact patient_sendJson ..
    | listTasks => exact (patient_buildPaginatedTaskList ..).bind fun _ => patient_sendJson ..
    | _ => exact patient_sendJson ..
  have hserved : ∀ refused : Bool, Patient site.streamTime
      (if refused then sendRpcError (-32603) "Unauthorized" 401 .null
      else guarded (req.getRoute.handler site req) fun _ =>
        ⟨500, rpcErrorBody (-32603) "Internal error" .null⟩) := by
    intro refused
    split_ifs
    · exact patient_sendRpcError ..
    · exact patient_guarded (hroute _)
  unfold doGet
  split_ifs
  · exact (patient_compute _).bind fun authorised => hserved !authorised
  · exact hserved false

theorem patient_doDelete : Patient 0 (doDelete site req) := by
  unfold doDelete
  dsimp only
  split_ifs
  · exact patient_restDeletePushConfig ..
  · exact patient_sendJson ..

end Handlers

/-! ### Calls -/

/-- **How long a call waits**, all in all: a POST for a response, a stream or a worker, a GET for
a stream, and everything else for nothing. -/
def ServerCall.patience (site : Site) : ServerCall → ℕ
  | .get _ => site.streamTime
  | .post req => max site.patience (req.workerWait site)
  | _ => 0

/-- The polls of a call's streams do not run out. -/
def ServerCall.PollsOn (site : Site) : ServerCall → Prop
  | .get req | .post req => req.PollsOn site
  | _ => True

theorem within_serveHttp {handler : Handler Unit} {budget : ℕ} {seen : ℤ}
    (h : Patient budget handler) : (serveHttp handler).Within ServerOp.timing budget seen := by
  refine Prog.Within.mono ?_ (Nat.le_of_eq (Nat.add_zero budget)) (Int.le_refl seen)
  exact Prog.Within.bind (f := fun result => .ret (ServerOutcome.http result)) (h.within seen)
    fun _ _ _ => trivial

theorem within_serveInternal {p : Proc Outcome} {seen : ℤ}
    (h : ∀ seen, p.Within Op.timing 0 seen) :
    (serveInternal p).Within ServerOp.timing 0 seen :=
  (within_lift (h seen)).bind_prompt fun _ _ _ => trivial

theorem within_prog {site : Site} {x : ServerCall} (h : x.PollsOn site) (seen : ℤ) :
    (x.prog site).Within ServerOp.timing (x.patience site) seen := by
  cases x with
  | get req => exact within_serveHttp (patient_doGet h)
  | post req => exact within_serveHttp (patient_doPost h)
  | delete req => exact within_serveHttp patient_doDelete
  | preLlmCall => exact within_serveInternal preLlmCall_within
  | postLlmCall taskId response turn turn' =>
      exact within_serveInternal (postLlmCall_within taskId response turn turn')
  | webhookFailure t => exact within_serveInternal (webhookFailure_within t)
  | watchdogPass => exact within_serveInternal (watchdogPass_within site.platform)
  | evictExpired => exact within_serveInternal fun _ => within_act rfl fun _ _ _ => trivial
  | closeIdleStreams => exact (prompt_step rfl fun _ => prompt_return _).within seen

end HermesA2A
