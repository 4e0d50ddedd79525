import HermesA2A.Conversations
import HermesA2A.IdempotentKeys
import HermesA2A.Injection
import HermesA2A.Server.Senders

/-!
# Saved exchanges

When an agent has answered, `post_llm_call` completes the task and saves the exchange.  The
inbound text it takes from the field `original_text` of the task's metadata.  The server
writes the text to the task and never to that field: what is saved as inbound text is what
the peer has put there, or nothing.

The metadata is read in a lock section of its own, some time after the completion: any
configuration in which the hook's thread has ended stands for the moment of that read.

* `accepted_submission` — what an accepted task has from its message.
* `exists_metadata` — whatever `get_task_metadata` finds is a dictionary that names a sender.
* `completes_of_ends` — the hook completes its target, if it has one.
-/

namespace HermesA2A

open Machine

/-- `text in s` -/
def Within (text s : String) : Prop := text.toList <:+: s.toList

instance (text s : String) : Decidable (Within text s) :=
  inferInstanceAs (Decidable (text.toList <:+: s.toList))

/-! ### The metadata of a task -/

/-- The `original_text` that the peer has sent. -/
def SendRequest.originalText? (req : SendRequest) : Option Json :=
  match req.body.get "message" (.obj []) >>= (·.get "metadata" (.obj [])) with
  | .ok metadata => metadata.field? "original_text"
  | .error _ => none

/-- What is submitted has the metadata of the message, with a name and an origin. -/
theorem metadata_of_plan {table : CharTable} {transport : Transport} {req : SendRequest}
    {s : Submission} (h : planSend table transport req = .ok (.submit s)) :
    ∃ fields name, s.markOrigin.metadata = peerMetadata name fields ∧
      fields.lookup "original_text" = req.originalText? := by
  have hread : ∀ {message : Json} {fields : List (String × Json)},
      req.body.get "message" (.obj []) = .ok message →
      message.get "metadata" (.obj []) = .ok (.obj fields) →
      fields.lookup "original_text" = req.originalText? := by
    intro message fields hmessage hmetadata
    unfold SendRequest.originalText?
    rw [hmessage]
    show _ = (match message.get "metadata" (.obj []) with | .ok metadata => _ | .error _ => _)
    rw [hmetadata]
    rfl
  cases transport with
  | jsonRpc =>
      cases planTaskSend_plans h with
      | submit _ message_eq _ _ metadata_eq _ _ _ _ named_eq =>
          obtain ⟨fields, name, rfl, -, hmark⟩ := fields_of_named named_eq
          exact ⟨fields, name, hmark, hread message_eq metadata_eq⟩
  | rest =>
      cases planRestSend_plans h with
      | submit _ message_eq _ _ metadata_eq _ named_eq =>
          obtain ⟨fields, name, rfl, -, hmark⟩ := fields_of_named named_eq
          exact ⟨fields, name, hmark, hread message_eq metadata_eq⟩

/-- The server's two fields: the sender is named by a text, and `original_text` is left as it
is. -/
theorem lookup_peerFields (name : String) (fields : List (String × Json)) :
    ((Json.setField "_a2a_origin" (.str "peer")
        (Json.setField "sender_name" (.str name) fields)).lookup "sender_name") =
      some (.str name) ∧
    ((Json.setField "_a2a_origin" (.str "peer")
        (Json.setField "sender_name" (.str name) fields)).lookup "original_text") =
      fields.lookup "original_text" := by
  constructor <;> simp [Json.lookup_setField]

section Runs

variable {P : Platform} {test : Test} {t₀ : Time} {c : Config} {i j : ℕ} {task : PendingTask}

/-- **What an accepted task has from its message.** -/
theorem accepted_submission (hc : (system P).Reaches (Allows test) (World.init t₀) c)
    (hacc : AcceptsIn c.trace i task) :
    ∃ transport req s, c.Calls i (.sendMessage transport req) ∧
      planSend P.table transport req = .ok (.submit s) ∧
      task.text = sanitizeInbound s.userText ∧ task.metadata = s.markOrigin.metadata := by
  obtain ⟨t, text, metadata, contextId, createdAt, hev⟩ := hacc
  obtain ⟨tr₁, tr₂, htr⟩ := List.append_of_mem hev
  obtain ⟨x, hx, transport, req, s, ⟨rfl, s', hplan, rfl⟩, -, rfl, rfl, -⟩ :=
    hc.event_pre (Call.meets P) htr
  obtain ⟨b, y, k, w, -, -, -, -, hexec, -⟩ := hc.event htr
  obtain ⟨-, hanswer, -⟩ := (exec_eq_some_iff (o := .enqueue ..)).mp hexec
  have hnew := TaskQueue.eq_newTask_of_enqueue (Eq.symm hanswer)
  refine ⟨transport, req, s', hx, hplan, ?_, ?_⟩
  · rw [hnew]
    rfl
  · rw [hnew]
    rfl

/-- All objects of the queue were accepted. -/
theorem accepted_of_mem_objects (hc : (system P).Reaches (Allows test) (World.init t₀) c)
    (hmem : task ∈ c.shared.queue.objects) : ∃ i, AcceptsIn c.trace i task := by
  have hinv : ∀ task ∈ c.shared.queue.objects, ∃ i, AcceptsIn c.trace i task := by
    refine run_invariant (I := fun tr w => ∀ task ∈ w.queue.objects, ∃ i, AcceptsIn tr i task)
      ?_ ?_ ?_ hc
    · intro task h
      cases h
    · exact fun _ _ _ h => h
    · intro c i x o _ ih _ _ _ task hmem
      change task ∈ (o.onQueue c.shared.queue).objects at hmem
      have hold : task ∈ c.shared.queue.objects →
          ∃ j, AcceptsIn (c.trace ++ [(i, ⟨o, o.answer P c.shared⟩)]) j task := by
        intro hmem
        obtain ⟨j, hj⟩ := ih task hmem
        exact ⟨j, hj.snoc⟩
      rcases objects_onQueue o c.shared.queue with heq | ⟨new, hnew, heq⟩
      · rw [heq] at hmem
        exact hold hmem
      · rw [heq] at hmem
        rcases List.mem_append.mp hmem with hmem | hmem
        · exact hold hmem
        · obtain rfl := List.mem_singleton.mp hmem
          obtain ⟨t, text, metadata, contextId, createdAt, rfl, hanswer⟩ := hnew
          refine ⟨i, t, text, metadata, contextId, createdAt, mem_snoc.mpr (Or.inr ?_)⟩
          exact congrArg (fun r => (i, (⟨.enqueue t text metadata contextId createdAt, r⟩ : Event)))
            hanswer.symm
  exact hinv task hmem

/-- **Whatever metadata is found**, it is a dictionary that names the sender by a text. -/
theorem exists_metadata (hc : (system P).Reaches (Allows test) (World.init t₀) c) (t : TaskId) :
    ∃ fields name, c.shared.queue.getTaskMetadata t = .obj fields ∧
      (fields.lookup "sender_name").getD (.str "a2a_peer") = .str name := by
  have hwf := (reaches_base hc).wf
  unfold TaskQueue.getTaskMetadata
  cases hfound : (c.shared.queue.pending.get? t).or (c.shared.queue.completed.get? t) with
  | none => exact ⟨[], "a2a_peer", rfl, rfl⟩
  | some task =>
      have hmem : task ∈ c.shared.queue.objects := by
        rcases Option.or_eq_some_iff.mp hfound with h | ⟨-, h⟩
        · exact (hwf.pending h).2
        · exact (hwf.completed h).2
      obtain ⟨i, hacc⟩ := accepted_of_mem_objects hc hmem
      obtain ⟨transport, req, s, -, hplan, -, hmetadata⟩ := accepted_submission hc hacc
      obtain ⟨fields, name, hpeer, -⟩ := metadata_of_plan hplan
      refine ⟨_, name, hmetadata.trans hpeer, ?_⟩
      rw [(lookup_peerFields name fields).1]
      rfl

end Runs

/-! ### The target of the hook -/

/-- `target_id` of `post_llm_call`, if it is truthy: the id it was given, or else the first
one that is being processed. -/
def hookTarget? (taskId : Json) (h : List Event) : Option TaskId :=
  if taskId.truthy then some taskId
  else
    match h.head? with
    | some ⟨.processingTasks _, t :: _⟩ => if t.truthy then some t else none
    | _ => none

/-- The step completes nothing but `t`, and with this response. -/
def CompletesOnly (t : TaskId) (response : String) (e : Event) : Prop :=
  ∀ t' response' r, e = ⟨.complete t' response', r⟩ → t' = t ∧ response' = response

/-- The hook completes its target. -/
def CompletesTarget (taskId : Json) (response : String) (h : List Event) : Prop :=
  ∀ t response' r, (⟨.complete t response', r⟩ : Event) ∈ h →
    response' = response ∧ ∀ target, hookTarget? taskId h = some target → target = t

theorem completeTask_completes (t : TaskId) (response : String) (h : List Event) :
    (completeTask t response).Meets (fun _ _ => True)
      (fun h' _ => ∃ events, h' = h ++ events ∧ ∀ e ∈ events, CompletesOnly t response e) h := by
  refine ⟨trivial, ?_⟩
  rintro (e | status)
  · refine ⟨[_], rfl, fun e he => ?_⟩
    obtain rfl := List.mem_singleton.mp he
    rintro t' response' r ⟨⟩
  · refine ⟨trivial, fun r => ⟨trivial, fun _ => ⟨[⟨.getStatus t, .ok status⟩,
      ⟨.complete t response, r⟩, ⟨.stateHook t status.name .completed t, ()⟩], by simp,
      fun e he => ?_⟩⟩⟩
    rcases List.mem_cons.mp he with rfl | he
    · rintro t' response' r ⟨⟩
    rcases List.mem_cons.mp he with rfl | he
    · rintro t' response' r ⟨⟩
      exact ⟨rfl, rfl⟩
    · obtain rfl := List.mem_singleton.mp he
      rintro t' response' r ⟨⟩

section Hook

variable {taskId : Json} {response : String} {h : List Event}

theorem completesOnly_processingTasks (t : TaskId) (turn : ℕ) (ts : List TaskId) :
    CompletesOnly t response ⟨.processingTasks turn, ts⟩ := by
  rintro t' response' r ⟨⟩

/-- A task is completed that is the target, if there is one. -/
theorem completeTask_completesTarget {t : TaskId} (hbefore : ∀ e ∈ h, CompletesOnly t response e)
    (htarget : ∀ events target, hookTarget? taskId (h ++ events) = some target → target = t) :
    (completeTask t response).Meets (fun _ _ => True)
      (fun h' _ => CompletesTarget taskId response h') h := by
  refine (completeTask_completes t response h).mono (fun _ _ h => h) ?_
  rintro h' - ⟨events, rfl, honly⟩ t' response' r hmem
  have hcompletes : CompletesOnly t response ⟨.complete t' response', r⟩ := by
    rcases List.mem_append.mp hmem with hmem | hmem
    · exact hbefore _ hmem
    · exact honly _ hmem
  obtain ⟨rfl, hresponse⟩ := hcompletes _ _ _ rfl
  exact ⟨hresponse, htarget events⟩

/-- Without a target, some task is completed or none. -/
theorem afterwards_completesTarget (turn : ℕ) (ts : List TaskId)
    (hnone : ∀ events, hookTarget? taskId (⟨.processingTasks turn, ts⟩ :: events) = none)
    (turn' : ℕ) :
    (postLlmCall.afterwards response turn').Meets (fun _ _ => True)
      (fun h' _ => CompletesTarget taskId response h') [⟨.processingTasks turn, ts⟩] := by
  refine ⟨trivial, ?_⟩
  rintro (_ | ⟨t, ts'⟩)
  · intro t response' r hmem
    rcases List.mem_cons.mp hmem with hmem | hmem
    · cases hmem
    · cases List.mem_singleton.mp hmem
  · refine completeTask_completesTarget (fun e he => ?_) fun events target htarget => ?_
    · rcases List.mem_cons.mp he with rfl | he
      · exact completesOnly_processingTasks _ _ _
      · obtain rfl := List.mem_singleton.mp he
        exact completesOnly_processingTasks _ _ _
    · cases (hnone _).symm.trans htarget

theorem postLlmCall_completesTarget (turn turn' : ℕ) :
    (postLlmCall taskId response turn turn').Meets (fun _ _ => True)
      (fun h _ => CompletesTarget taskId response h) [] := by
  unfold postLlmCall
  split_ifs with hempty hgiven
  · intro t response' r hmem
    cases hmem
  -- the hook was given an id
  · refine completeTask_completesTarget (fun e he => by cases he) fun events target htarget => ?_
    rw [hookTarget?, if_pos hgiven] at htarget
    exact (Option.some.inj htarget).symm
  -- it looks for a task that is being processed, and for another one if that has no id
  · refine ⟨trivial, ?_⟩
    rintro (_ | ⟨t, ts⟩)
    · refine afterwards_completesTarget turn [] (fun events => ?_) turn'
      rw [hookTarget?, if_neg hgiven]
      rfl
    · show (if t.truthy = true then _ else _ : Proc _).Meets _ _ _
      have hfirst : ∀ events, hookTarget? taskId (⟨.processingTasks turn, t :: ts⟩ :: events) =
          if t.truthy = true then some t else none := by
        intro events
        rw [hookTarget?, if_neg hgiven]
        rfl
      split_ifs with htruthy
      · refine completeTask_completesTarget (fun e he => ?_) fun events target htarget => ?_
        · obtain rfl := List.mem_singleton.mp he
          exact completesOnly_processingTasks _ _ _
        · rw [List.nil_append, List.singleton_append, hfirst, if_pos htruthy] at htarget
          exact (Option.some.inj htarget).symm
      · refine afterwards_completesTarget turn (t :: ts) (fun events => ?_) turn'
        rw [hfirst, if_neg htruthy]

/-- **The hook completes its target**, if it has one. -/
theorem completes_of_ends {P : Platform} {test : Test} {t₀ : Time} {c : Config} {j : ℕ}
    {turn turn' : ℕ} {outcome : Outcome}
    (hc : (system P).Reaches (Allows test) (World.init t₀) c)
    (hends : c.Ends j (.postLlmCall taskId response turn turn') outcome) :
    CompletesTarget taskId response (c.history j) := by
  have hmeets : ∀ x : Call, (x.prog P).Meets (fun _ _ => True) (fun h _ =>
      ∀ taskId response turn turn', x = .postLlmCall taskId response turn turn' →
        CompletesTarget taskId response h) [] := by
    intro x
    cases x with
    | postLlmCall taskId response turn turn' =>
        refine (postLlmCall_completesTarget turn turn').mono (fun _ _ h => h) ?_
        rintro h - hcompletes _ _ _ _ ⟨⟩
        exact hcompletes
    | _ => exact (Prog.meets_trivial _ _).mono (fun _ _ h => h) fun _ _ _ _ _ _ _ h => nomatch h
  exact Prog.meets_ret.mp (hc.meets hmeets hends) _ _ _ _ rfl

end Hook

/-! ### What is saved -/

/-- What `post_llm_call` saves at its end, when the queue is as it is now. -/
def recordExchange (table : CharTable) (locale : Locale) (now : Moment) (taskId : Json)
    (response : String) (h : List Event) (q : TaskQueue) (files : ConversationFiles) :
    Except PyError (Option String × ConversationFiles) :=
  match hookTarget? taskId h with
  | some t => persistExchange table locale now t response q files
  | none => .ok (none, files)

/-- The task is the one that its id stands for. -/
def Filed (q : TaskQueue) (task : PendingTask) : Prop :=
  (q.pending.get? task.taskId).or (q.completed.get? task.taskId) = some task

theorem within_entryTail (head response : String) :
    Within response (head ++ entryTail response) := by
  unfold Within entryTail
  rw [String.toList_append, String.toList_append, String.toList_append]
  exact (List.infix_append _ _ _).trans (List.suffix_append _ _).isInfix

/-- A text occurs in an entry inside the middle or beside it. -/
theorem within_append_append_iff {text head middle tail : String} :
    Within text (head ++ middle ++ tail) ↔
      Within text middle ∨ Text.Beside text.toList head.toList middle.toList tail.toList := by
  unfold Within
  rw [String.toList_append, String.toList_append]
  exact Text.infix_append_append_iff

/-- A message with metadata of the peer. -/
def peerRequest (fields : List (String × Json)) : SendRequest :=
  { SendRequest.sample [] "" with
    body := .obj
      [ ("id", .str "a"),
        ("message", .obj
          [("parts", .arr [.obj [("text", .str "hi")]]), ("metadata", .obj fields)]) ] }

/-- The message is accepted, injected and answered. -/
def exchangeCalls (fields : List (String × Json)) : List Call :=
  [ .sendMessage .jsonRpc (peerRequest fields), .preLlmCall,
    .postLlmCall (.str "a") "done" 0 0 ]

def exchangeSchedule : List Move :=
  List.replicate 4 (.act 0) ++ List.replicate 4 (.act 1) ++ List.replicate 3 (.act 2)

/-- The fields of the task's metadata. -/
def exchangeFields (fields : List (String × Json)) : List (String × Json) :=
  fields ++ [("sender_name", .str "agent-10.0.0.1"), ("_a2a_origin", .str "peer")]

/-- The task that comes of it. -/
def exchangeTask (fields : List (String × Json)) : PendingTask :=
  { hooksTask with metadata := .obj (exchangeFields fields) }

/-- The step completes this task. -/
def completesTask (task : PendingTask) : Event → Bool
  | ⟨.complete t _, some task'⟩ => decide (t = task.taskId ∧ task' = task)
  | _ => false

theorem complete_of_completesTask {task : PendingTask} {h : List Event}
    (hany : h.any (completesTask task) = true) :
    ∃ response, (⟨.complete task.taskId response, some task⟩ : Event) ∈ h := by
  obtain ⟨e, he, hcompletes⟩ := List.any_eq_true.mp hany
  unfold completesTask at hcompletes
  split at hcompletes
  · obtain ⟨rfl, rfl⟩ := of_decide_eq_true hcompletes
    exact ⟨_, he⟩
  · cases hcompletes

/-- The task was accepted, injected and completed, and is found under its id. -/
def exchanged (task : PendingTask) (c : Config) : Bool :=
  decide (task ∈ (c.history 0).filterMap accepted? ∧ Config.drainedBy c 1 = some [task] ∧
      c.outcome? 1 = some hooksOutcome ∧ c.outcome? 2 = some .done ∧
      c.shared.queue.getTaskMetadata (.str "a") = task.metadata) &&
    (c.history 2).any (completesTask task)

/-- ASCII texts, and lists and dictionaries as JSON. -/
def Locale.sample : Locale := ⟨fun name => String.ofList (name.toList.map Char.toLower), Json.dumps⟩

def Moment.sample : Moment := ⟨"2026-06-02", "12:00:00", "120000"⟩

end HermesA2A
