import HermesA2A.Replay
import HermesA2A.Server.Replies

/-!
# One message over either transport

Over JSON-RPC and over REST a message goes through the same queue and comes back as
a Task.  `RpcAnswers` and `RestAnswers` are what a client then reads, state and text,
for each way the message can have gone; the comparison of the two is
`transports_agree_iff`.

REST takes the text from a field `response` of the result.  The result is a Task
since both transports share its builder, and a Task has no such field.
-/

namespace HermesA2A

open Machine

/-- What came of a message in the queue. -/
inductive QueueOutcome
  /-- The agent's response. -/
  | completed (response : String)
  /-- The stored result of an earlier message. -/
  | replayed (result : Json)
  | timedOut
  deriving DecidableEq

/-- The state of the message. -/
def QueueOutcome.state : QueueOutcome → String
  | timedOut => "working"
  | _ => "completed"

/-- The text for the client. -/
def QueueOutcome.text : QueueOutcome → Json
  | completed response => .str (filterOutbound response)
  | replayed result => replyText result
  | timedOut => .str pollText

/-- What is left of it over REST. -/
def QueueOutcome.restText : QueueOutcome → Json
  | timedOut => .str pollText
  | _ => .str ""

/-- What a step shows of the outcome. -/
def outcomeStep? : Event → Option QueueOutcome
  | ⟨.setReturned _, _⟩ => some .timedOut
  | ⟨.readResponse _, some response⟩ => some (.completed response)
  | ⟨.idemGet _, .ok (some (_, result))⟩ => some (.replayed result)
  | _ => none

/-- What came of the message of a thread with this history. -/
def queueOutcome? (h : List Event) : Option QueueOutcome := (h.filterMap outcomeStep?).getLast?

/-- Thread `i` has answered a message with a Task. -/
def AnswersWith (c : Config) (i : ℕ) (transport : Transport) (req : SendRequest) (task : Json) :
    Prop :=
  ∃ responses response, c.Ends i (.sendMessage transport req) (.replied responses) ∧
    response ∈ responses ∧ taskIn? transport response = some task ∧ (taskState? task).isSome = true

/-! ### What a client reads -/

/-- The client reads this state and this text. -/
structure Reads (task : Json) (state : String) (text : Json) : Prop where
  state_eq : taskState? task = some (.str state)
  text_eq : replyText task = text

/-- The answers over REST. -/
inductive RestAnswers (req : SendRequest) (outcome : Option QueueOutcome) (task : Json) : Prop
  | blank (blank : req.blank = true) (reads : Reads task "failed" (.str "Empty message"))
  | queued {o : QueueOutcome} (blank : req.blank = false) (outcome_eq : outcome = some o)
      (reads : Reads task o.state o.restText)

/-- The answers over JSON-RPC. -/
inductive RpcAnswers (req : SendRequest) (outcome : Option QueueOutcome) (task : Json) : Prop
  | blank (blank : req.blank = true) (reads : Reads task "failed" (.str "Empty message"))
  | workerFailed {text : String} (blank : req.blank = false) (asked : req.asksWorker = true)
      (worker_eq : req.worker = .failed text) (reads : Reads task "failed" (.str text))
  | workerCompleted {response : Json} (blank : req.blank = false) (asked : req.asksWorker = true)
      (worker_eq : req.worker = .completed response) (reads : Reads task "completed" response)
  | returnImmediately (blank : req.blank = false) (worker : req.asksWorker = false)
      (asked : req.returnImmediately = true) (reads : Reads task "working" (.str pollText))
  | queued {o : QueueOutcome} (blank : req.blank = false) (worker : req.asksWorker = false)
      (asked : req.returnImmediately = false) (outcome_eq : outcome = some o)
      (reads : Reads task o.state o.text)

section Runs

variable {P : Platform} {test : Test} {t₀ : Time} {c : Config} {i : ℕ} {req : SendRequest}
  {s : Submission} {task : Json}

theorem filterMap_outcomeStep?_waitedHistory (createdAt : Time) (task : PendingTask)
    (start : Time) : (waitedHistory P s createdAt task start).filterMap outcomeStep? = [] := by
  have hcleared : (clearedHistory s).filterMap outcomeStep? = [] := by
    unfold clearedHistory
    split_ifs <;> rfl
  simp [waitedHistory, enqueuedHistory, hcleared, outcomeStep?]

/-- A time-out shows. -/
theorem queueOutcome?_of_timedOut {h : List Event} (hends : AwaitEnds P req s h (.ok .timedOut)) :
    queueOutcome? h = some .timedOut := by
  cases hends with
  | timedOut createdAt task start =>
      unfold queueOutcome?
      rw [List.filterMap_append, filterMap_outcomeStep?_waitedHistory]
      rfl

/-- **Every result is a completed Task** without a field `response`, and its text is
that of the outcome. -/
theorem queueOutcome?_of_answered (hc : (system P).Reaches (Allows test) (World.init t₀) c)
    {result : Json} (hends : AwaitEnds P req s (c.history i) (.ok (.answered result))) :
    ∃ o, queueOutcome? (c.history i) = some o ∧ o ≠ .timedOut ∧
      Reads result "completed" o.text ∧ result.get "response" (.str "") = .ok (.str "") := by
  generalize hhist : c.history i = h at hends
  cases hends with
  | replay key t result =>
      have hev : (⟨.idemGet s.idemKey, .ok (some (t, result))⟩ : Event) ∈ c.history i := by
        rw [hhist]
        exact List.mem_cons_of_mem _ (List.mem_singleton.mpr rfl)
      -- it was built by the thread that stored it
      obtain ⟨j, payload, hset⟩ := idemSet_of_replay hc (mem_historyOf.mp hev)
      obtain ⟨_, _, _, _, _, _, _, _, _, _, _, _, rfl, _⟩ := spec_of_idemSet hc hset
      exact ⟨.replayed _, rfl, nofun, ⟨taskState?_buildTaskObject .., rfl⟩,
        get_response_buildTaskObject ..⟩
  | answered createdAt task start response₀ response =>
      refine ⟨.completed response, ?_, nofun,
        ⟨taskState?_buildTaskObject .., replyText_buildTaskObject ..⟩,
        get_response_buildTaskObject ..⟩
      unfold queueOutcome? storedHistory readHistory
      rw [List.filterMap_append, List.filterMap_append, filterMap_outcomeStep?_waitedHistory]
      split_ifs <;> rfl

/-- **What a client reads of a message that went to the queue.** -/
theorem reads_of_submit {transport : Transport}
    (hc : (system P).Reaches (Allows test) (World.init t₀) c)
    (hplan : planSend P.table transport req = .ok (.submit s))
    (h : AnswersWith c i transport req task) :
    ∃ o, queueOutcome? (c.history i) = some o ∧
      Reads task o.state (match transport with | .jsonRpc => o.text | .rest => o.restText) := by
  obtain ⟨responses, response, hends, hmem, htask, hstate⟩ := h
  have hpost : sendPost P transport req (c.history i) (.replied responses) := post_of_ends hc hends
  unfold sendPost at hpost
  rw [hplan] at hpost
  obtain ⟨result, hawait, houtcome⟩ := hpost
  obtain ⟨awaited, rfl, hreply⟩ := reply_of_outcomeOf houtcome.symm
  cases awaited with
  | answered result =>
      obtain ⟨o, ho, hne, hreads, hfield⟩ := queueOutcome?_of_answered hc hawait
      refine ⟨o, ho, ?_⟩
      have hfound := sent_of_answered hreply hmem htask
      have hstate_eq : o.state = "completed" := by
        cases o with
        | timedOut => exact absurd rfl hne
        | _ => rfl
      rw [hstate_eq]
      cases transport with
      | jsonRpc =>
          obtain rfl : task = result := hfound
          exact hreads
      | rest =>
          obtain ⟨text, htext, rfl⟩ := hfound
          obtain rfl := Except.ok.inj (htext.symm.trans hfield)
          refine ⟨taskState?_plainTask .., ?_⟩
          cases o with
          | timedOut => exact absurd rfl hne
          | _ => rfl
  | refused error =>
      obtain ⟨code, message, hbody⟩ := hawait.refused_body
      rw [taskState?_of_refused hbody hreply hmem htask] at hstate
      cases hstate
  | timedOut =>
      obtain ⟨-, hworking, htext⟩ := sent_of_timedOut hreply hmem htask
      refine ⟨.timedOut, queueOutcome?_of_timedOut hawait, hworking, ?_⟩
      cases transport with
      | jsonRpc => exact htext
      | rest => exact htext

/-- The Task of a handler that answers by itself is the client's. -/
theorem task_of_answer {transport : Transport} {exit : EarlyExit} {early : Json}
    (hc : (system P).Reaches (Allows test) (World.init t₀) c)
    (hplan : planSend P.table transport req = .ok (.answer exit early))
    (h : AnswersWith c i transport req task) : task = early := by
  obtain ⟨responses, response, hends, hmem, htask, -⟩ := h
  have hpost : sendPost P transport req (c.history i) (.replied responses) := post_of_ends hc hends
  unfold sendPost at hpost
  rw [hplan] at hpost
  obtain rfl := Outcome.replied.inj hpost.2
  obtain rfl := List.mem_singleton.mp hmem
  exact (Option.some.inj (taskIn?_replyEarly.symm.trans htask)).symm

/-- A thread that answers has a plan. -/
theorem plan_of_answersWith {transport : Transport}
    (hc : (system P).Reaches (Allows test) (World.init t₀) c)
    (h : AnswersWith c i transport req task) :
    ∃ plan, planSend P.table transport req = .ok plan := by
  obtain ⟨responses, response, hends, -⟩ := h
  have hpost : sendPost P transport req (c.history i) (.replied responses) := post_of_ends hc hends
  unfold sendPost at hpost
  cases hplan : planSend P.table transport req with
  | error e =>
      rw [hplan] at hpost
      cases hpost.2
  | ok plan => exact ⟨plan, rfl⟩

/-- **What a client reads over REST.** -/
theorem restAnswers (hc : (system P).Reaches (Allows test) (World.init t₀) c)
    (h : AnswersWith c i .rest req task) :
    RestAnswers req (queueOutcome? (c.history i)) task := by
  obtain ⟨plan, hplan⟩ := plan_of_answersWith hc h
  cases planRestSend_plans hplan with
  | blank message_eq text_eq blank =>
      obtain rfl := task_of_answer hc hplan h
      refine .blank ?_ ⟨rfl, rfl⟩
      rw [SendRequest.blank_eq message_eq text_eq, blank]
      rfl
  | submit _ message_eq text_eq text_ne =>
      obtain ⟨o, ho, hreads⟩ := reads_of_submit hc hplan h
      refine .queued ?_ ho hreads
      rw [SendRequest.blank_eq message_eq text_eq, decide_eq_false text_ne]

/-- **What a client reads over JSON-RPC.** -/
theorem rpcAnswers (hc : (system P).Reaches (Allows test) (World.init t₀) c)
    (h : AnswersWith c i .jsonRpc req task) :
    RpcAnswers req (queueOutcome? (c.history i)) task := by
  obtain ⟨plan, hplan⟩ := plan_of_answersWith hc h
  have hblank : ∀ {message : Json} {userText : String},
      req.body.get "message" (.obj []) = .ok message → extractTextParts message = .ok userText →
        userText.strip ≠ "" → req.blank = false := by
    intro message userText message_eq text_eq text_ne
    rw [SendRequest.blank_eq message_eq text_eq, decide_eq_false text_ne]
  cases planTaskSend_plans hplan with
  | blank message_eq text_eq blank =>
      obtain rfl := task_of_answer hc hplan h
      refine .blank ?_ ⟨taskState?_buildTaskObject ..,
        replyText_of_filtered filterOutbound_emptyMessage ..⟩
      rw [SendRequest.blank_eq message_eq text_eq, blank]
      rfl
  | worker message_eq text_eq text_ne metadata_eq worker_eq task_eq =>
      obtain rfl := task_of_answer hc hplan h
      have hasked := SendRequest.asksWorker_eq message_eq metadata_eq worker_eq
      obtain ⟨-, -, ⟨text, hworker, rfl⟩ | ⟨response, hworker, rfl⟩⟩ :=
        handleTaskSendMode3_spec task_eq
      · exact .workerFailed (hblank message_eq text_eq text_ne) hasked hworker ⟨rfl, rfl⟩
      · exact .workerCompleted (hblank message_eq text_eq text_ne) hasked hworker ⟨rfl, rfl⟩
  | returnImmediately _ message_eq text_eq text_ne metadata_eq worker_eq asked =>
      obtain rfl := task_of_answer hc hplan h
      exact .returnImmediately (hblank message_eq text_eq text_ne)
        (SendRequest.asksWorker_eq message_eq metadata_eq worker_eq) asked
        ⟨taskState?_buildTaskObject .., replyText_of_filtered filterOutbound_pollText ..⟩
  | submit _ message_eq text_eq text_ne metadata_eq _ value_eq asked worker_eq =>
      obtain ⟨o, ho, hreads⟩ := reads_of_submit hc hplan h
      exact .queued (hblank message_eq text_eq text_ne)
        (SendRequest.asksWorker_eq message_eq metadata_eq worker_eq)
        ((SendRequest.returnImmediately_eq value_eq).trans asked) ho hreads

end Runs

/-! ### The comparison -/

/-- Both transports say the same: there is nothing to say, nobody answered in time,
or the answer is empty. -/
def SameAnswer (req : SendRequest) (outcome : Option QueueOutcome) : Prop :=
  req.blank = true ∨
    if req.asksWorker then req.worker = .completed (.str "") ∧ outcome ≠ some .timedOut
    else outcome = some .timedOut ∨
      (req.returnImmediately = false ∧ outcome.map QueueOutcome.text = some (.str ""))

theorem Reads.same_iff {task task' : Json} {state state' : String} {text text' : Json}
    (h : Reads task state text) (h' : Reads task' state' text') :
    (taskState? task' = taskState? task ∧ replyText task' = replyText task) ↔
      state' = state ∧ text' = text := by
  rw [h.state_eq, h'.state_eq, h.text_eq, h'.text_eq]
  simp

theorem QueueOutcome.state_ne_failed (o : QueueOutcome) : o.state ≠ "failed" := by
  cases o <;> simp [QueueOutcome.state]

/-- REST and JSON-RPC render an outcome alike if it has no text, or none yet. -/
theorem QueueOutcome.restText_eq_text {o : QueueOutcome} :
    o.restText = o.text ↔ o = .timedOut ∨ o.text = .str "" := by
  cases o with
  | timedOut => simp [QueueOutcome.restText, QueueOutcome.text]
  | completed response =>
      rw [eq_comm]
      simp [QueueOutcome.restText]
  | replayed result =>
      rw [eq_comm]
      simp [QueueOutcome.restText]

/-- What is left over REST is empty exactly when something came back. -/
theorem QueueOutcome.completed_and_restText {o : QueueOutcome} {text : Json} :
    (o.state = "completed" ∧ o.restText = text) ↔ text = .str "" ∧ o ≠ .timedOut := by
  cases o <;> simp [QueueOutcome.state, QueueOutcome.restText, eq_comm]

theorem QueueOutcome.working_and_restText {o : QueueOutcome} :
    (o.state = "working" ∧ o.restText = .str pollText) ↔ o = .timedOut := by
  cases o <;> simp [QueueOutcome.state, QueueOutcome.restText]

/-- **The transports agree on blank messages, time-outs and empty answers.**  For a
JSON-RPC and a REST SendMessage with the same body, in any runs: if what came of the
first in the queue, if anything, also came of the second, then the clients read the
same state and text if and only if `SameAnswer` holds. -/
theorem transports_agree_iff {P : Platform} {t₀ t₁ : Time} {c c' : Config} {i j : ℕ}
    {req req' : SendRequest} {task task' : Json}
    (hc : (system P).Reaches (Allows anyStep) (World.init t₀) c)
    (hc' : (system P).Reaches (Allows anyStep) (World.init t₁) c')
    (hrpc : AnswersWith c i .jsonRpc req task) (hrest : AnswersWith c' j .rest req' task')
    (hbody : req'.body = req.body)
    (hsame : ∀ o, queueOutcome? (c.history i) = some o → queueOutcome? (c'.history j) = some o) :
    (taskState? task' = taskState? task ∧ replyText task' = replyText task) ↔
      SameAnswer req (queueOutcome? (c'.history j)) := by
  have hblank : req'.blank = req.blank := by
    unfold SendRequest.blank SendRequest.userText
    rw [hbody]
  have hanswers := rpcAnswers hc hrpc
  have hanswers' := restAnswers hc' hrest
  generalize queueOutcome? (c.history i) = outcome at hsame hanswers
  generalize queueOutcome? (c'.history j) = outcome' at hsame hanswers' ⊢
  unfold SameAnswer
  -- a message is blank on both sides or on neither
  cases hanswers' with
  | blank blank' reads' =>
      rw [hblank] at blank'
      cases hanswers with
      | blank blank reads => simp [reads.same_iff reads', blank]
      | workerFailed blank => cases blank.symm.trans blank'
      | workerCompleted blank => cases blank.symm.trans blank'
      | returnImmediately blank => cases blank.symm.trans blank'
      | queued blank => cases blank.symm.trans blank'
  | @queued o' blank' outcome_eq' reads' =>
      subst outcome_eq'
      rw [hblank] at blank'
      rw [blank']
      cases hanswers with
      | blank blank => cases blank.symm.trans blank'
      | workerFailed _ asked worker_eq reads =>
          rw [reads.same_iff reads', if_pos asked, worker_eq]
          simp [QueueOutcome.state_ne_failed]
      | workerCompleted _ asked worker_eq reads =>
          rw [reads.same_iff reads', if_pos asked, worker_eq,
            QueueOutcome.completed_and_restText]
          simp
      | returnImmediately _ worker asked reads =>
          rw [reads.same_iff reads', if_neg (Bool.eq_false_iff.mp worker), asked,
            QueueOutcome.working_and_restText]
          simp
      | @queued o _ worker asked outcome_eq reads =>
          obtain rfl := Option.some.inj (hsame o outcome_eq)
          rw [reads.same_iff reads', if_neg (Bool.eq_false_iff.mp worker), asked]
          simp [QueueOutcome.restText_eq_text]

/-- A message over REST. -/
def restRequest : SendRequest := { SendRequest.sample [] "hi" with uuid := "uuid-3" }

/-- One message over each transport, and an answer to both. -/
def transportCalls : List Call :=
  [ .sendMessage .jsonRpc (.sample [] "hi"),
    .sendMessage .rest restRequest,
    .postLlmCall (.str "uuid-1") "done" 0 0,
    .postLlmCall (.str "uuid-3") "done" 0 0 ]

/-- Both messages have been answered with these Tasks, after the same outcome. -/
def answeredAlike (task task' : Json) (o : QueueOutcome) (c : Config) : Bool :=
  decide (c.outcome? 0 = some (.replied [rpcResult (.obj [("task", task)]) (.int 1)]) ∧
    c.outcome? 1 = some (.replied [⟨200, task'⟩]) ∧
      queueOutcome? (c.history 0) = some o ∧ queueOutcome? (c.history 1) = some o)

theorem answersWith_of_answeredAlike {c : Config} {task task' : Json} {o : QueueOutcome}
    (hcalls : ∀ i x, transportCalls[i]? = some x → c.Calls i x)
    (h : answeredAlike task task' o c = true) (hstate : (taskState? task).isSome = true)
    (hstate' : (taskState? task').isSome = true) :
    AnswersWith c 0 .jsonRpc (.sample [] "hi") task ∧ AnswersWith c 1 .rest restRequest task' ∧
      queueOutcome? (c.history 0) = some o ∧ queueOutcome? (c.history 1) = some o := by
  obtain ⟨houtcome, houtcome', ho, ho'⟩ := of_decide_eq_true h
  exact ⟨⟨_, _, (hcalls 0 _ rfl).ends houtcome, List.mem_singleton.mpr rfl, rfl, hstate⟩,
    ⟨_, _, (hcalls 1 _ rfl).ends houtcome', List.mem_singleton.mpr rfl, rfl, hstate'⟩, ho, ho'⟩

/-- Nobody answers: both clients are told to poll. -/
theorem both_told_to_poll :
    ∃ (c : Config) (task task' : Json),
      (system Platform.sample).Reaches (Allows anyStep) (World.init 0) c ∧
        AnswersWith c 0 .jsonRpc (.sample [] "hi") task ∧ AnswersWith c 1 .rest restRequest task' ∧
          taskState? task' = taskState? task ∧ replyText task' = replyText task := by
  have hplay : (playSample anyStep
      (List.replicate 4 (.act 0) ++ List.replicate 4 (.act 1) ++ [.env 121] ++
        List.replicate 3 (.act 0) ++ List.replicate 3 (.act 1))
      (Config.calling transportCalls)).any
        (answeredAlike
          (buildTaskObject (.str "uuid-1") "working" (.str "uuid-1") (some pollText) none Stamp.sample)
          (plainTask [("id", .str "uuid-3")] "working" (.str pollText)) .timedOut) = true := by
    decide +kernel
  obtain ⟨c, hc, hcalls, hp⟩ := exists_of_playCalls hplay
  obtain ⟨hrpc, hrest, ho, ho'⟩ := answersWith_of_answeredAlike hcalls hp rfl rfl
  have hagree := transports_agree_iff hc hc hrpc hrest rfl fun o h => by rw [ho', ← ho, h]
  refine ⟨c, _, _, hc, hrpc, hrest, hagree.mpr (Or.inr ?_)⟩
  rw [ho']
  exact Or.inl rfl

/-- Both are answered, and the client over REST reads nothing. -/
theorem answer_lost_over_rest :
    ∃ (c : Config) (task task' : Json),
      (system Platform.sample).Reaches (Allows anyStep) (World.init 0) c ∧
        AnswersWith c 0 .jsonRpc (.sample [] "hi") task ∧ AnswersWith c 1 .rest restRequest task' ∧
          restRequest.body = (SendRequest.sample [] "hi").body ∧
            queueOutcome? (c.history 0) = some (.completed "done") ∧
              queueOutcome? (c.history 1) = some (.completed "done") ∧
                replyText task = .str "done" ∧ replyText task' = .str "" := by
  have hplay : (playSample anyStep
      (List.replicate 4 (.act 0) ++ List.replicate 4 (.act 1) ++ List.replicate 3 (.act 2) ++
        List.replicate 3 (.act 3) ++ List.replicate 3 (.act 0) ++ List.replicate 3 (.act 1))
      (Config.calling transportCalls)).any
        (answeredAlike
          (buildTaskObject (.str "uuid-1") "completed" (.str "uuid-1") (some "done") none
            Stamp.sample)
          (plainTask [("id", .str "uuid-3")] "completed" (.str "")) (.completed "done")) = true := by
    decide +kernel
  obtain ⟨c, hc, hcalls, hp⟩ := exists_of_playCalls hplay
  obtain ⟨hrpc, hrest, ho, ho'⟩ := answersWith_of_answeredAlike hcalls hp rfl rfl
  exact ⟨c, _, _, hc, hrpc, hrest, rfl, ho, ho', by decide +kernel, rfl⟩

end HermesA2A
