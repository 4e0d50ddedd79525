import HermesA2A.Lib.OrderedDict
import HermesA2A.Payloads

/-!
# Server-Sent Events: the streams

`SSEStreamer` with its lock-protected operations, each one a function of the
streamer.  A stream is a buffer: `pushEvent` appends a rendered event to it,
`getPending` takes out what is there, `closeStream` and `closeIdleStreams` drop it.

A stream id is drawn by `uuid.uuid4` and never drawn twice; here the streams are
numbered as they are opened, and no open stream has a number that is still to come.
The flag `closed` is left out: it is set in the same lock section that removes the
stream from the dictionary, so nobody sees it.

An `SSEEvent` is an object that `push_event` writes its id to, and the callers push
one object to several streams.  `pushEvent` answers with the event as it is then.
It also answers, as the source does not, whether the event was buffered.
-/

namespace HermesA2A

/-- The number of a stream. -/
abbrev StreamId := ℕ

/-! ### Events -/

/-- What an event is about: the `kind` of an `SSEEvent`. -/
inductive EventKind
  | status
  | artifact (artifact metadata : Json)

/-- `SSEEvent`.  The package never passes `data`, which keeps its default. -/
structure SseEvent where
  taskId : TaskId
  state : String
  event : String
  id : Option String
  contextId : Json
  kind : EventKind

/-- `_event_name_for_state` -/
def eventNameForState : String → String
  | "working" => "TaskStarted"
  | "completed" => "TaskCompleted"
  | "failed" => "TaskFailed"
  | "canceled" => "TaskCanceled"
  | "rejected" => "TaskRejected"
  | "auth_required" => "TaskAuthRequired"
  | "authenticated" => "TaskAuthenticated"
  | "submitted" => "TaskSubmitted"
  | _ => "TaskUpdated"

/-- `emit_artifact_event` -/
def emitArtifactEvent (taskId : TaskId) (contextId artifact metadata : Json) : SseEvent where
  taskId := taskId
  state := "artifact"
  event := "TaskArtifactUpdate"
  id := none
  contextId := contextId
  kind := .artifact artifact metadata

/-- The `data:` of `to_sse_line`. -/
def SseEvent.payload (e : SseEvent) (timestamp : String) : Json :=
  match e.kind with
  | .artifact artifact metadata =>
      .obj
        [ ("contextId", e.contextId.orElse e.taskId),
          ("taskId", e.taskId),
          ("artifact", artifact.orElse (.obj [])),
          ("metadata", metadata.orElse (.obj [])) ]
  | .status =>
      .obj
        [ ("taskId", e.taskId),
          ("contextId", e.contextId.orElse e.taskId),
          ("status", .obj
            [ ("state", .str e.state),
              ("message", .obj [("role", .str "agent"), ("parts", .arr [])]),
              ("timestamp", .str timestamp) ]),
          ("metadata", .obj []) ]

/-- `_build_status_update_payload` -/
def buildStatusUpdatePayload (taskId : TaskId) (state : String) (contextId : Json)
    (timestamp : String) : Json :=
  .obj
    [ ("taskId", taskId),
      ("contextId", contextId.orElse taskId),
      ("status", .obj [("state", .str state), ("timestamp", .str timestamp)]),
      ("event", .str (eventNameForState state)) ]

/-- A message on a stream, by where it comes from. -/
inductive SseLine
  /-- `to_sse_line`, for an event that was pushed. -/
  | pushed (event : SseEvent) (timestamp : String)
  /-- `_sse_emit`: the `id:` line, if there is one, the `event:` and the `data:`. -/
  | status (id : Option String) (event : String) (payload : Json)
  /-- The error a stream ends with that has timed out. -/
  | timedOut

/-- The `data:` of a message. -/
def SseLine.payload : SseLine → Json
  | pushed event timestamp => event.payload timestamp
  | status _ _ payload => payload
  | timedOut => .obj [("code", .int (-38000)), ("message", .str "SSE stream timed out")]

/-- The state that a message announces. -/
def SseLine.state? (line : SseLine) : Option Json :=
  (line.payload.field? "status").bind (·.field? "state")

/-! ### The streamer -/

/-- `_Stream`, with the fields that are read. -/
structure SseStream where
  taskId : TaskId
  lastActivity : Time
  pending : List SseLine
  sequenceCounter : ℕ
  lastId : Option String

/-- The event with its id: a new one, if it has none. -/
def SseStream.stamp (stream : SseStream) (e : SseEvent) : SseEvent :=
  match e.id with
  | some _ => e
  | none =>
      { e with id := some (stream.taskId.display ++ "_" ++ toString (stream.sequenceCounter + 1)) }

/-- The stream with one more event. -/
def SseStream.buffer (stream : SseStream) (now : Time) (timestamp : String) (e : SseEvent) :
    SseStream where
  taskId := stream.taskId
  lastActivity := now
  pending := stream.pending ++ [.pushed (stream.stamp e) timestamp]
  sequenceCounter :=
    match e.id with
    | some _ => stream.sequenceCounter
    | none => stream.sequenceCounter + 1
  lastId := (stream.stamp e).id

/-- `SSEStreamer`: the streams, the index by task, and the next number. -/
structure SseStreamer where
  streams : OrderedDict StreamId SseStream
  byTask : OrderedDict TaskId (List StreamId)
  next : StreamId
  /-- The next number is new. -/
  fresh : ∀ id ∈ streams, id < next

/-- What `push_event` has done. -/
structure Pushed where
  /-- The event, with its id. -/
  event : SseEvent
  /-- The message, if it was buffered. -/
  line : Option SseLine

namespace SseStreamer

/-- No stream. -/
def empty : SseStreamer where
  streams := .empty
  byTask := .empty
  next := 0
  fresh _ h := absurd h (OrderedDict.notMem_empty _)

/-- The streams with one that is open already replaced. -/
def update (s : SseStreamer) (id : StreamId) (stream : SseStream) (h : id ∈ s.streams) :
    SseStreamer where
  streams := s.streams.set id stream
  byTask := s.byTask
  next := s.next
  fresh := by
    intro id' h'
    rcases OrderedDict.mem_set_iff.mp h' with rfl | h'
    · exact s.fresh _ h
    · exact s.fresh _ h'

/-- A stream leaves the dictionary and the index. -/
def drop (s : SseStreamer) (id : StreamId) (t : TaskId) : SseStreamer where
  streams := s.streams.erase id
  byTask :=
    match s.byTask.get? t with
    | some ids => if id ∈ ids then s.byTask.set t (ids.erase id) else s.byTask
    | none => s.byTask
  next := s.next
  fresh id' h := s.fresh id' (OrderedDict.mem_erase_iff.mp h).2

/-- `open_stream`.  A task id that is no dictionary key fails in the index, when the
stream is in the dictionary already. -/
def openStream (s : SseStreamer) (now : Time) (t : TaskId) :
    Except PyError StreamId × SseStreamer :=
  let opened : SseStreamer :=
    { streams := s.streams.set s.next ⟨t, now, [], 0, none⟩
      byTask :=
        if t.hashable then s.byTask.set t ((s.byTask.get? t).getD [] ++ [s.next]) else s.byTask
      next := s.next + 1
      fresh := by
        intro id h
        rcases OrderedDict.mem_set_iff.mp h with rfl | h
        · exact Nat.lt_succ_self _
        · exact Nat.lt_succ_of_lt (s.fresh id h) }
  (if t.hashable then .ok s.next else .error .typeError, opened)

/-- `push_event` -/
def pushEvent (s : SseStreamer) (now : Time) (timestamp : String) (id : StreamId) (e : SseEvent) :
    Pushed × SseStreamer :=
  match h : s.streams.get? id with
  | none => (⟨e, none⟩, s)
  | some stream =>
      (⟨stream.stamp e, some (.pushed (stream.stamp e) timestamp)⟩,
        s.update id (stream.buffer now timestamp e) (OrderedDict.mem_of_get? h))

/-- `close_stream` -/
def closeStream (s : SseStreamer) (id : StreamId) : SseStreamer :=
  match s.streams.get? id with
  | none => s
  | some stream => s.drop id stream.taskId

/-- `get_pending` -/
def getPending (s : SseStreamer) (id : StreamId) : List SseLine × SseStreamer :=
  match h : s.streams.get? id with
  | none => ([], s)
  | some stream =>
      (stream.pending, s.update id { stream with pending := [] } (OrderedDict.mem_of_get? h))

/-- `is_closed` -/
def isClosed (s : SseStreamer) (id : StreamId) : Bool := (s.streams.get? id).isNone

/-- `get_stream_ids_for_task` -/
def streamIdsForTask (s : SseStreamer) (t : TaskId) : Except PyError (List StreamId) :=
  if t.hashable then .ok ((s.byTask.get? t).getD []) else .error .typeError

/-- Has the stream been idle for too long? -/
def idle (now timeout : Time) (stream : SseStream) : Bool :=
  decide (now - stream.lastActivity > timeout)

/-- `_close_idle_streams` -/
def closeIdleStreams (s : SseStreamer) (now timeout : Time) : SseStreamer :=
  s.streams.entries.foldl
    (fun s e => if idle now timeout e.2 then s.drop e.1 e.2.taskId else s) s

/-! ### What the operations do to one stream -/

variable (s : SseStreamer) (now timeout : Time) (timestamp : String) (id id' : StreamId)

@[simp] theorem get?_openStream (t : TaskId) :
    (s.openStream now t).2.streams.get? id =
      if id = s.next then some ⟨t, now, [], 0, none⟩ else s.streams.get? id :=
  OrderedDict.get?_set ..

@[simp] theorem get?_drop (t : TaskId) :
    (s.drop id' t).streams.get? id = if id = id' then none else s.streams.get? id :=
  OrderedDict.get?_erase ..

@[simp] theorem get?_closeStream :
    (s.closeStream id').streams.get? id = if id = id' then none else s.streams.get? id := by
  unfold closeStream
  split
  · rename_i hnone
    split_ifs with h
    · rw [h, hnone]
    · rfl
  · exact get?_drop ..

/-- Pushing appends to the stream that is pushed to. -/
theorem get?_pushEvent (e : SseEvent) :
    (s.pushEvent now timestamp id' e).2.streams.get? id =
      if id = id' then (s.streams.get? id').map (·.buffer now timestamp e)
      else s.streams.get? id := by
  unfold pushEvent
  split
  · rename_i hnone
    split_ifs with h
    · rw [h, hnone]
      rfl
    · rfl
  · rename_i stream hstream
    refine (OrderedDict.get?_set ..).trans ?_
    rw [hstream]
    rfl

/-- Flushing empties the stream that is flushed. -/
theorem get?_getPending :
    (s.getPending id').2.streams.get? id =
      if id = id' then (s.streams.get? id').map fun stream => { stream with pending := [] }
      else s.streams.get? id := by
  unfold getPending
  split
  · rename_i hnone
    split_ifs with h
    · rw [h, hnone]
      rfl
    · rfl
  · rename_i stream hstream
    refine (OrderedDict.get?_set ..).trans ?_
    rw [hstream]
    rfl

/-- Of some entries, those that are idle are dropped. -/
theorem get?_foldl_drop (entries : List (StreamId × SseStream)) (s : SseStreamer) :
    (entries.foldl (fun s e => if idle now timeout e.2 then s.drop e.1 e.2.taskId else s)
      s).streams.get? id =
        if ∃ e ∈ entries, e.1 = id ∧ idle now timeout e.2 = true then none
        else s.streams.get? id := by
  induction entries generalizing s with
  | nil => simp
  | cons e entries ih =>
      rw [List.foldl_cons, ih]
      by_cases hidle : idle now timeout e.2 = true
      · rw [if_pos hidle]
        by_cases he : e.1 = id
        · simp only [List.exists_mem_cons_iff, he, hidle, get?_drop, if_true, ite_self,
            true_and, true_or]
        · simp only [List.exists_mem_cons_iff, he, get?_drop, Ne.symm he, if_false, false_and,
            false_or]
      · rw [if_neg hidle]
        simp only [List.exists_mem_cons_iff, Bool.eq_false_of_not_eq_true hidle,
          Bool.false_eq_true, and_false, false_or]

/-- The idle streams are closed, and no others. -/
theorem get?_closeIdleStreams :
    (s.closeIdleStreams now timeout).streams.get? id =
      (s.streams.get? id).filter fun stream => !idle now timeout stream := by
  unfold closeIdleStreams
  rw [get?_foldl_drop]
  cases hget : s.streams.get? id with
  | none =>
      rw [Option.filter_none, ite_self]
  | some stream =>
      have hiff : (∃ e ∈ s.streams.entries, e.1 = id ∧ idle now timeout e.2 = true) ↔
          idle now timeout stream = true := by
        constructor
        · rintro ⟨⟨id', stream'⟩, hmem, rfl, hidle⟩
          rw [OrderedDict.get?_eq_some_iff.mpr hmem] at hget
          rwa [← Option.some.inj hget]
        · exact fun h => ⟨_, OrderedDict.get?_eq_some_iff.mp hget, rfl, h⟩
      by_cases h : idle now timeout stream = true
      · rw [if_pos (hiff.mpr h)]
        simp [Option.filter, h]
      · rw [if_neg (mt hiff.mp h)]
        simp [Option.filter, h]

/-! ### What the operations do to a buffer -/

/-- What is in the buffer of a stream. -/
def held (s : SseStreamer) (id : StreamId) : List SseLine :=
  (s.streams.get? id).elim [] SseStream.pending

theorem held_of_notMem {s : SseStreamer} {id : StreamId} (h : id ∉ s.streams) : s.held id = [] := by
  unfold held
  rw [OrderedDict.get?_eq_none_iff.mpr h]
  rfl

@[simp] theorem held_openStream (t : TaskId) : (s.openStream now t).2.held id = s.held id := by
  unfold held
  rw [get?_openStream]
  split_ifs with h
  · have hnew : id ∉ s.streams := fun hmem => (s.fresh id hmem).ne h
    rw [OrderedDict.get?_eq_none_iff.mpr hnew]
    rfl
  · rfl

/-- What is pushed is buffered, or nothing is. -/
theorem held_pushEvent (e : SseEvent) :
    (s.pushEvent now timestamp id' e).2.held id =
      s.held id ++ if id' = id then (s.pushEvent now timestamp id' e).1.line.toList else [] := by
  unfold held
  rw [get?_pushEvent]
  by_cases h : id = id'
  · subst h
    rw [if_pos rfl, if_pos rfl]
    unfold pushEvent
    split
    · rename_i hnone
      rw [hnone]
      rfl
    · rename_i stream hstream
      dsimp only
      rw [hstream]
      rfl
  · rw [if_neg h, if_neg (Ne.symm h), List.append_nil]

/-- A message is buffered on an open stream only. -/
theorem mem_line_pushEvent {s : SseStreamer} {e : SseEvent} {line : SseLine}
    (h : line ∈ (s.pushEvent now timestamp id e).1.line.toList) :
    ∃ stream, s.streams.get? id = some stream ∧ line = .pushed (stream.stamp e) timestamp := by
  unfold pushEvent at h
  split at h
  · cases h
  · rename_i stream hstream
    exact ⟨stream, hstream, List.mem_singleton.mp h⟩

/-- What is flushed is all there was. -/
theorem held_getPending :
    s.held id = (if id' = id then (s.getPending id').1 else []) ++ (s.getPending id').2.held id := by
  unfold held
  rw [get?_getPending]
  by_cases h : id = id'
  · subst h
    rw [if_pos rfl, if_pos rfl]
    unfold getPending
    split
    · rename_i hnone
      rw [hnone]
      rfl
    · rename_i stream hstream
      dsimp only
      rw [hstream]
      exact (List.append_nil _).symm
  · rw [if_neg h, if_neg (Ne.symm h), List.nil_append]

theorem held_closeStream (h : id' = id → s.held id = []) :
    (s.closeStream id').held id = s.held id := by
  by_cases hid : id = id'
  · rw [h hid.symm]
    unfold held
    rw [get?_closeStream, if_pos hid]
    rfl
  · unfold held
    rw [get?_closeStream, if_neg hid]

theorem held_closeIdleStreams
    (h : ∀ stream, s.streams.get? id = some stream → idle now timeout stream = true →
      stream.pending = []) : (s.closeIdleStreams now timeout).held id = s.held id := by
  unfold held
  rw [get?_closeIdleStreams]
  cases hstream : s.streams.get? id with
  | none => rfl
  | some stream =>
      cases hidle : idle now timeout stream with
      | true =>
          rw [Option.filter_some, hidle]
          exact (h stream hstream hidle).symm
      | false =>
          rw [Option.filter_some, hidle]
          rfl

theorem next_pushEvent (e : SseEvent) : (s.pushEvent now timestamp id e).2.next = s.next := by
  unfold pushEvent
  split <;> rfl

theorem next_getPending : (s.getPending id).2.next = s.next := by
  unfold getPending
  split <;> rfl

theorem next_closeStream : (s.closeStream id).next = s.next := by
  unfold closeStream
  split <;> rfl

theorem next_closeIdleStreams : (s.closeIdleStreams now timeout).next = s.next := by
  unfold closeIdleStreams
  generalize s.streams.entries = entries
  induction entries generalizing s with
  | nil => rfl
  | cons e entries ih =>
      rw [List.foldl_cons, ih]
      split_ifs <;> rfl

end SseStreamer

end HermesA2A
