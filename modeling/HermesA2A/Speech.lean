import HermesA2A.Contexts
import HermesA2A.SingleResponse

/-!
# Whose text is told

A task is answered with a text, and whoever hears of the task should hear that text and no
other: what was said for one task must not be told for another.

`ServerOp.utters` has the texts of a step, each with the task it is told for.  `SaidFor` has
what was written as the response of a task: by the agent, by a cancellation, or by the two
background threads that give up on it.

A handler holds on to the object of its task, and the object may have left the queue when its
response is read; that the response is the task's own is a fact about all objects.
`SpeechRecord` has it, as `ContextRecord` has the contexts: `Holds.after` says that every step
keeps it, and `SpeechConduct` goes through the programs.
-/

namespace HermesA2A

/-! ### What is told -/

/-- Texts, with what names the task they are about. -/
def toldOf (id : String) (texts : Json → List Json) (j : Json) : List (Option Json × Json) :=
  (texts j).map fun text => (j.field? id, text)

/-- The texts of a Task. -/
abbrev toldByTask (task : Json) : List (Option Json × Json) := toldOf "id" taskTexts task

/-- The texts of an event. -/
abbrev toldByEvent (payload : Json) : List (Option Json × Json) :=
  toldOf "taskId" eventTexts payload

/-- The texts of a response. -/
def toldByBody (body : Json) : List (Option Json × Json) := (tasksIn body).flatMap toldByTask

/-- **The texts of a step**, each with the task it is told for.  A message that was pushed is
told when it is pushed. -/
def ServerOp.utters : ServerOp → List (Option Json × Json)
  | send response => toldByBody response.body
  | pushEvent _ event => toldByEvent (event.payload "")
  | sendLine _ (.status _ _ payload) => toldByEvent payload
  | deliver _ payload _ => toldByEvent ((payload.field? "artifact_update").getD payload)
  | _ => []

/-- No text is left out. -/
theorem map_snd_toldOf (id : String) (texts : Json → List Json) (j : Json) :
    (toldOf id texts j).map Prod.snd = texts j := by
  rw [toldOf, List.map_map]
  exact List.map_id'' (fun _ => rfl) _

theorem map_snd_toldByBody (body : Json) : (toldByBody body).map Prod.snd = bodyTexts body := by
  rw [toldByBody, List.map_flatMap, bodyTexts]
  exact List.flatMap_congr fun task _ => map_snd_toldOf ..

theorem toldByBody_of_eq_nil {body : Json} (h : bodyTexts body = []) : toldByBody body = [] := by
  have hmap := map_snd_toldByBody body
  rw [h] at hmap
  exact List.map_eq_nil_iff.mp hmap

/-- What a response with one Task tells. -/
theorem toldByBody_task {body task : Json}
    (h : ((body.field? "result").getD body).field? "task" = some task)
    (hnot : ∀ tasks, task ≠ .arr tasks) : toldByBody body = toldByTask task := by
  have htasks : tasksIn body = [task] := by
    unfold tasksIn
    dsimp only
    rw [h]
    cases task with
    | arr tasks => exact absurd rfl (hnot tasks)
    | _ => rfl
  rw [toldByBody, htasks, List.flatMap_singleton]

/-- **A Task that is built tells its response**, filtered, and nothing else. -/
theorem told_buildTaskObject {t c : Json} {state : String} {response : Option String}
    {createdAt : Option Time} {stamp : Stamp} {p : Option Json × Json}
    (h : p ∈ toldByTask (buildTaskObject t state c response createdAt stamp)) :
    p.1 = some t ∧ ∃ r, response = some r ∧ p.2 = .str (filterOutbound r) := by
  obtain ⟨text, htext, rfl⟩ := List.mem_map.mp h
  refine ⟨rfl, ?_⟩
  rw [taskTexts_buildTaskObject] at htext
  cases hshown : nonEmpty? ((nonEmpty? response).map filterOutbound) with
  | none =>
      rw [hshown] at htext
      cases htext
  | some shown =>
      rw [hshown] at htext
      obtain ⟨r, hr, rfl⟩ := Option.map_eq_some_iff.mp (Option.filter_eq_some_iff.mp hshown).1
      refine ⟨r, (Option.filter_eq_some_iff.mp hr).1, ?_⟩
      simpa using htext

/-- An artifact that is falsy has no text. -/
theorem messageTexts_orElse (artifact : Json) :
    messageTexts (artifact.orElse (.obj [])) = messageTexts artifact := by
  cases htruthy : artifact.truthy with
  | true => rw [Json.orElse_of_truthy htruthy]
  | false =>
      rw [Json.orElse_of_falsy htruthy]
      cases artifact with
      | obj fields =>
          cases fields with
          | nil => rfl
          | cons field fields => cases htruthy
      | _ => rfl

/-- **An event tells the texts of its artifact**, whenever it is written. -/
theorem toldByEvent_payload (e : SseEvent) (timestamp : String) :
    toldByEvent (e.payload timestamp) =
      match e.kind with
      | .status => []
      | .artifact artifact _ => (messageTexts artifact).map fun text => (some e.taskId, text) := by
  unfold SseEvent.payload
  cases e.kind with
  | status => rfl
  | artifact artifact metadata =>
      change ((messageTexts (artifact.orElse (.obj [])) ++ []).map fun text =>
        (some e.taskId, text)) = _
      rw [List.append_nil, messageTexts_orElse]

/-- Its number does not matter. -/
theorem toldByEvent_stamp (stream : SseStream) (e : SseEvent) (timestamp : String) :
    toldByEvent ((stream.stamp e).payload timestamp) = toldByEvent (e.payload "") := by
  rw [toldByEvent_payload, toldByEvent_payload]
  unfold SseStream.stamp
  cases e.id <;> rfl

/-! ### What was said -/

/-- What a step says for a task, as its response. -/
def said? : ServerEvent → Option (TaskId × String)
  | ⟨.base (.complete t response), some _⟩ => some (t, response)
  | ⟨.base (.cancel t), some _⟩ => some (t, "(canceled)")
  | ⟨.base (.writeResponse task response), _⟩ => some (task.taskId, response)
  | _ => none

/-- The response has been written for the task. -/
def SaidFor (trace : ServerTrace) (t : TaskId) (response : String) : Prop :=
  (t, response) ∈ trace.filterMap fun e => said? e.2

/-- The task has been accepted. -/
def AcceptedIn (trace : ServerTrace) (task : PendingTask) : Prop :=
  task ∈ trace.filterMap fun e => acceptedTask? e.2

/-! ### What is on record -/

/-- What the answers of a run are about: which tasks have been accepted, what was said for
each, which Tasks were stored under which key, and which messages were put into a buffer. -/
structure SpeechRecord where
  accepted : PendingTask → Prop
  /-- No two objects are one. -/
  unique : ∀ task task', accepted task → accepted task' → task.ref = task'.ref → task = task'
  said : TaskId → String → Prop
  stored : Json → Json → Prop
  buffered : StreamId → SseLine → Prop
  /-- Only what is pushed gets into a buffer. -/
  pushed : ∀ id line, buffered id line → line.isPushed = true

namespace SpeechRecord

variable (R : SpeechRecord)

/-- The text was said for the task, and is filtered. -/
def Tells (p : Option Json × Json) : Prop :=
  ∃ t response, p.1 = some t ∧ R.said t response ∧ p.2 = .str (filterOutbound response)

/-- The Task has texts of its task only, and no field `response`. -/
structure Filed (task : Json) : Prop where
  tells : ∀ p ∈ toldByTask task, R.Tells p
  get_response : task.get "response" (.str "") = .ok (.str "")

/-- What a step leaves on record. -/
def Records : ServerEvent → Prop
  | ⟨.base (.enqueue ..), some task⟩ => R.accepted task
  | ⟨.base (.complete t response), some _⟩ => R.said t response
  | ⟨.base (.cancel t), some _⟩ => R.said t "(canceled)"
  | ⟨.base (.writeResponse task response), _⟩ => R.said task.taskId response
  | ⟨.base (.idemSet key _ _ task), _⟩ => R.stored key task
  | ⟨.pushEvent id event, _⟩ => ∀ line : SseLine, line.isPushed = true →
      toldByEvent line.payload = toldByEvent (event.payload "") → R.buffered id line
  | _ => True

/-- What the inbound path relies on. -/
def GoodOp : (o : Op) → o.Res → Prop
  | .enqueue t .., answer => ∀ task, answer = some task → task.taskId = t ∧ R.accepted task
  | .drainPending, tasks => ∀ task ∈ tasks, R.accepted task
  | .pendingTasks, tasks => ∀ task ∈ tasks, R.accepted task
  | .findTaskById _, answer => ∀ task, answer = .ok (some task) → R.accepted task
  | .getStatus t, answer => ∀ status, answer = .ok status →
      ∀ text, status.response = some text → R.Tells (some t, .str text)
  | .readResponse task, answer => R.accepted task →
      ∀ response, answer = some response → R.said task.taskId response
  | .idemGet key, answer =>
      ∀ t task, answer = .ok (some (t, task)) → R.Filed task ∧ R.stored key task
  | _, _ => True

/-- What the handlers rely on. -/
def Good : (o : ServerOp) → o.Res → Prop
  | .base o, answer => R.GoodOp o answer
  | .snapshot, page => ∀ e ∈ page, R.accepted e.2.1
  | .pushEvent _ event, pushed =>
      toldByEvent (pushed.event.payload "") = toldByEvent (event.payload "")
  | .getPending id, lines => ∀ line ∈ lines, R.buffered id line
  | _, _ => True

/-- A text that is on record, or one of the words of a call. -/
def May (words : Option Json → Json → Prop) (p : Option Json × Json) : Prop :=
  R.Tells p ∨ words p.1 p.2

/-- What a step of the inbound path owes. -/
def KeepsOp : Op → Prop
  | .requeueTasks tasks => ∀ task ∈ tasks, R.accepted task
  | .writeResponse task _ => R.accepted task
  | .idemSet _ _ _ task => R.Filed task
  | _ => True

/-- What a step leaves behind for others. -/
def KeepsShared : ServerOp → Prop
  | .base o => R.KeepsOp o
  | .sendLine id line => line.isPushed = true → R.buffered id line
  | _ => True

/-- **The steps of a thread that has no more words of its own than `words`.** -/
structure Keeps (words : Option Json → Json → Prop) (o : ServerOp) : Prop where
  shared : R.KeepsShared o
  utters : ∀ p ∈ o.utters, R.May words p

/-- The shared state has on record what it holds. -/
structure Holds (s : ServerState) : Prop where
  pending : ∀ t task,
    s.world.queue.pending.get? t = some task → task.taskId = t ∧ R.accepted task
  completed : ∀ t task,
    s.world.queue.completed.get? t = some task → task.taskId = t ∧ R.accepted task
  cells : ∀ task, R.accepted task → ∀ response,
    (s.world.queue.cells task.ref).response = some response → R.said task.taskId response
  stored : ∀ key entry, OrderedDict.get? s.world.idem key = some entry →
    R.Filed entry.result ∧ R.stored key entry.result
  buffers : ∀ id stream, s.streams.streams.get? id = some stream →
    ∀ line ∈ stream.pending, R.buffered id line

/-! ### What is held stays on record -/

variable {R} {words : Option Json → Json → Prop} {s : ServerState} {site : Site}

/-- A step that tells nothing. -/
theorem Keeps.silent {o : ServerOp} (hutters : o.utters = []) (hshared : R.KeepsShared o) :
    R.Keeps words o := by
  refine ⟨hshared, ?_⟩
  rw [hutters]
  exact List.forall_mem_nil _

/-- Nothing is held at the start. -/
theorem holds_init (clock : Time) : R.Holds (ServerState.init clock) where
  pending t task h := by cases (OrderedDict.get?_empty t).symm.trans h
  completed t task h := by cases (OrderedDict.get?_empty t).symm.trans h
  cells task _ response h := by cases h
  stored key entry h := by cases (OrderedDict.get?_empty key).symm.trans h
  buffers id stream h := by cases (OrderedDict.get?_empty id).symm.trans h

/-- The surroundings touch none of it. -/
theorem Holds.move (h : R.Holds s) (e : ServerEnv) : R.Holds (e.move s) := by
  cases e with
  | tick d => exact ⟨h.pending, h.completed, h.cells, h.stored, h.buffers⟩
  | hangUp id => exact ⟨h.pending, h.completed, h.cells, h.stored, h.buffers⟩

/-- An accepted task is on record. -/
theorem accepted_of_accepts {o : Op} {task : PendingTask}
    (hrec : R.Records ⟨.base o, (ServerOp.base o).answer site s⟩)
    (hacc : o.Accepts s.world.queue task) : R.accepted task := by
  obtain ⟨t, text, metadata, c, createdAt, rfl, hanswer⟩ := hacc
  have hres : (ServerOp.base (.enqueue t text metadata c createdAt)).answer site s = some task :=
    hanswer
  rw [hres] at hrec
  exact hrec

/-- **A response is written for the task whose object it is written to.** -/
theorem said_after {o : Op} (h : R.Holds s) (hkeeps : R.KeepsOp o)
    (hrec : R.Records ⟨.base o, (ServerOp.base o).answer site s⟩) {task : PendingTask}
    (haccepted : R.accepted task) {response : String}
    (hcell : ((o.onQueue s.world.queue).cells task.ref).response = some response) :
    R.said task.taskId response := by
  have hold := h.cells task haccepted response
  rcases cells_onQueue o s.world.queue task.ref with heq | ⟨new, -, -, heq⟩ |
    ⟨t, task', r, rfl, hget, href, heq⟩ | ⟨t, task', rfl, hget, href, heq⟩ |
    ⟨task', r, rfl, href, heq⟩ | ⟨task', -, -, heq⟩ | ⟨task', -, -, heq⟩
  · exact hold (heq ▸ hcell)
  · rw [heq] at hcell
    cases hcell
  · obtain ⟨rfl, htask'⟩ := h.pending t task' hget
    obtain rfl := R.unique _ _ htask' haccepted href
    have hanswer : (ServerOp.base (.complete task'.taskId r)).answer site s = some task' :=
      (TaskQueue.complete_fst ..).trans hget
    rw [hanswer] at hrec
    rw [heq] at hcell
    unfold TaskQueue.completeCell at hcell
    split_ifs at hcell
    · exact hold hcell
    · obtain rfl := Option.some.inj hcell
      exact hrec
  · obtain ⟨rfl, htask'⟩ := h.pending t task' hget
    obtain rfl := R.unique _ _ htask' haccepted href
    have hanswer : (ServerOp.base (.cancel task'.taskId)).answer site s = some task' :=
      (TaskQueue.cancel_fst ..).trans hget
    rw [hanswer] at hrec
    rw [heq] at hcell
    obtain rfl := Option.some.inj hcell
    exact hrec
  · obtain rfl := R.unique _ _ hkeeps haccepted href
    rw [heq] at hcell
    obtain rfl := Option.some.inj hcell
    exact hrec
  · rw [heq] at hcell
    exact hold hcell
  · rw [heq] at hcell
    exact hold hcell

/-- **A step that keeps the record leaves a state that has it.** -/
theorem Holds.after {o : ServerOp} (h : R.Holds s) (hkeeps : R.Keeps words o)
    (hrec : R.Records ⟨o, o.answer site s⟩) : R.Holds (o.after site s) := by
  refine ⟨fun t task hget => ?_, fun t task hget => ?_, fun task haccepted response hcell => ?_,
    fun key entry hget => ?_, fun id stream hget line hline => ?_⟩
  · cases o with
    | base o =>
        rcases pending_arrives hget with hold | ⟨-, ht, hacc | ⟨tasks, rfl, hmem⟩⟩
        · exact h.pending t task hold
        · exact ⟨ht, accepted_of_accepts hrec hacc⟩
        · exact ⟨ht, hkeeps.shared task hmem⟩
    | _ => exact h.pending t task hget
  · cases o with
    | base o =>
        rcases completed_onQueue hget with hold | ⟨hpending, -⟩
        · exact h.completed t task hold
        · exact h.pending t task hpending
    | _ => exact h.completed t task hget
  · cases o with
    | base o => exact said_after h hkeeps.shared hrec haccepted hcell
    | _ => exact h.cells task haccepted response hcell
  · cases o with
    | base o =>
        rcases entry_of_onStore hget with hold | ⟨t, payload, rfl⟩
        · exact h.stored key entry hold
        · exact ⟨hkeeps.shared, hrec⟩
    | _ => exact h.stored key entry hget
  · rcases pending_of_onStreams hget hline with ⟨before, hbefore, hline⟩ |
      ⟨e, timestamp, before, rfl, hline'⟩
    · exact h.buffers id before hbefore line hline
    · rw [hline']
      exact hrec (.pushed _ timestamp) rfl (toldByEvent_stamp before e timestamp)

/-- Whoever is in the queue is on record. -/
theorem Holds.queued {t : TaskId} {task : PendingTask} (h : R.Holds s)
    (hget : (s.world.queue.pending.get? t).or (s.world.queue.completed.get? t) = some task) :
    task.taskId = t ∧ R.accepted task := by
  rcases Option.or_eq_some_iff.mp hget with hpending | ⟨-, hcompleted⟩
  · exact h.pending t task hpending
  · exact h.completed t task hcompleted

/-- The same of a list of values. -/
theorem accepted_of_mem_values {d : OrderedDict TaskId PendingTask} {task : PendingTask}
    (hd : ∀ t task, d.get? t = some task → task.taskId = t ∧ R.accepted task)
    (hmem : task ∈ d.values) : R.accepted task := by
  obtain ⟨t, hget⟩ := OrderedDict.mem_values_iff_get?.mp hmem
  exact (hd t task hget).2

/-- A status has the response of its task. -/
theorem Holds.status {t : TaskId} {status : Status} (h : R.Holds s)
    (hstatus : s.world.queue.getStatus t = .ok status) {text : String}
    (htext : status.response = some text) : R.Tells (some t, .str text) := by
  unfold TaskQueue.getStatus at hstatus
  split_ifs at hstatus
  · obtain rfl := Except.ok.inj hstatus
    cases htext
  · cases hget : s.world.queue.completed.get? t with
    | none =>
        rw [hget] at hstatus
        obtain rfl := Except.ok.inj hstatus
        cases htext
    | some task =>
        obtain ⟨rfl, haccepted⟩ := h.completed t task hget
        rw [hget] at hstatus
        dsimp only at hstatus
        split_ifs at hstatus
        · obtain rfl := Except.ok.inj hstatus
          cases htext
        · split at hstatus
          · obtain rfl := Except.ok.inj hstatus
            cases htext
          · split at hstatus
            · rename_i response hresponse
              obtain rfl := Except.ok.inj hstatus
              obtain rfl := Option.some.inj htext
              exact ⟨_, response, rfl, h.cells task haccepted response hresponse, rfl⟩
            · cases hstatus

/-- **What is answered is on record.** -/
theorem good_of_holds {o : ServerOp} (h : R.Holds s)
    (hrec : R.Records ⟨o, o.answer site s⟩) : R.Good o (o.answer site s) := by
  cases o with
  | base o =>
      cases o with
      | enqueue t text metadata c createdAt =>
          intro task hanswer
          have hacc : (Op.enqueue t text metadata c createdAt).Accepts s.world.queue task :=
            ⟨t, text, metadata, c, createdAt, rfl, hanswer⟩
          exact ⟨(ContextRecord.fields_of_enqueue hanswer).1, accepted_of_accepts hrec hacc⟩
      | drainPending =>
          intro task hmem
          exact accepted_of_mem_values h.pending (List.mem_filter.mp hmem).1
      | pendingTasks =>
          intro task hmem
          exact accepted_of_mem_values h.pending hmem
      | findTaskById t =>
          intro task hanswer
          change s.world.queue.findTaskById t = _ at hanswer
          unfold TaskQueue.findTaskById at hanswer
          split_ifs at hanswer
          exact (h.queued (Except.ok.inj hanswer)).2
      | getStatus t => exact fun status hstatus text htext => h.status hstatus htext
      | readResponse task => exact fun haccepted response => h.cells task haccepted response
      | idemGet key =>
          intro t result hanswer
          change (s.world.idem.get s.world.clock key).1 = _ at hanswer
          unfold IdempotencyStore.get at hanswer
          split_ifs at hanswer
          obtain ⟨entry, hlive, heq⟩ := Option.map_eq_some_iff.mp (Except.ok.inj hanswer)
          obtain ⟨-, rfl⟩ := Prod.mk.inj heq
          exact h.stored key entry (IdempotencyStore.live?_eq_some_iff.mp hlive).1
      | _ => exact trivial
  | snapshot =>
      intro e hmem
      obtain ⟨task, htask, rfl⟩ := List.mem_map.mp hmem
      rcases List.mem_append.mp htask with hpending | hcompleted
      · exact accepted_of_mem_values h.pending hpending
      · exact accepted_of_mem_values h.completed hcompleted
  | pushEvent id event =>
      change toldByEvent ((s.streams.pushEvent _ _ id event).1.event.payload "") = _
      unfold SseStreamer.pushEvent
      split
      · rfl
      · exact toldByEvent_stamp _ event ""
  | getPending id =>
      intro line hline
      change line ∈ (s.streams.getPending id).1 at hline
      unfold SseStreamer.getPending at hline
      split at hline
      · cases hline
      · rename_i stream hstream
        exact h.buffers id stream hstream line hline
  | _ => exact trivial

end SpeechRecord

end HermesA2A
