import HermesA2A.Broadcasts
import HermesA2A.EventIds
import HermesA2A.JsonText
import HermesA2A.Lib.EventStream

/-!
# The text of a stream

What is written to a subscriber is text, and the subscriber reads messages off it.  The payload
is JSON, and stays in one line whatever is in it.  The id is written as it is, and `push_event`
makes it of the task's id, which the sender of the task chooses: a line break in it ends the
field, and what follows is a field of its own.

* `SseLine.text` — what is written for a message.
* `subscriber_reads_iff` — messages are read as they were meant exactly if their ids and names
  are plain; then also a stream that breaks off is read correctly up to there.
* `stream_reads_iff` — in every run, what a subscriber takes out of a stream is read as it was
  meant exactly if the task's id is plain.
-/

namespace HermesA2A

open EventStream JsonLexer

/-! ### Writing -/

/-- `SSEEvent.to_sse_line` -/
def SseEvent.toSseLine (e : SseEvent) (timestamp : String) : List Char :=
  let parts :=
    match e.id with
    | some id => if id = "" then [] else ["id: ".toList ++ id.toList]
    | none => []
  let parts := parts ++ ["event: ".toList ++ e.event.toList]
  let parts := parts ++ ["data: ".toList ++ (e.payload timestamp).write]
  List.intercalate ['\n'] parts ++ "\n\n".toList

/-- What is written for a message. -/
def SseLine.text : SseLine → List Char
  | pushed e timestamp => e.toSseLine timestamp
  | status id event payload =>
      id.elim [] (fun id => "id: ".toList ++ id.toList ++ "\n".toList) ++
        ("event: ".toList ++ event.toList ++ "\n".toList) ++
          ("data: ".toList ++ payload.write ++ "\n\n".toList)
  | timedOut =>
      ("event: error\ndata: \x7b\"code\": -38000, " ++
        "\"message\": \"SSE stream timed out\"\x7d\n\n").toList

/-- The text of a stream. -/
def streamText (lines : List SseLine) : List Char := lines.flatMap SseLine.text

/-! ### Reading -/

/-- What a subscriber reads: the id and the name of a message, and its payload, if it can be
parsed. -/
structure Received where
  lastId : String
  event : String
  payload : Option Json

/-- What a subscriber makes of a message. -/
def receive (F : FloatReader) (m : Message) : Received :=
  ⟨String.ofList m.lastId, String.ofList m.event, Json.loads F m.data⟩

/-- What a subscriber reads off a text. -/
def subscriberReads (F : FloatReader) (text : List Char) : List Received :=
  (read text).map (receive F)

/-- The id of a message, if it has one. -/
def SseLine.sentId? : SseLine → Option String
  | pushed e _ => e.id.filter (· ≠ "")
  | status id _ _ => id
  | timedOut => none

/-- The name of a message. -/
def SseLine.event : SseLine → String
  | pushed e _ => e.event
  | status _ event _ => event
  | timedOut => "error"

/-- What the messages mean, after an id. -/
def meant (lastId : String) : List SseLine → List Received
  | [] => []
  | line :: lines =>
      ⟨line.sentId?.getD lastId, line.event, some line.payload⟩ ::
        meant (line.sentId?.getD lastId) lines

/-- **The id and the name of a message are plain.** -/
structure SseLine.Plain (line : SseLine) : Prop where
  id : ∀ id, line.sentId? = some id → PlainId id.toList
  event : OneLine line.event.toList
  event_ne : line.event ≠ ""

/-! ### A list of messages -/

/-- A message as it is written. -/
def SseLine.frame (line : SseLine) : Frame :=
  ⟨line.sentId?.map String.toList, line.event.toList, line.payload.write⟩

section Text

variable {F : FloatReader} {line : SseLine} {lines : List SseLine}

/-- The text of a message, with its field names spelled out. -/
theorem frame_text (id : Option (List Char)) (event data : List Char) :
    (Frame.mk id event data).text =
      id.elim [] (fun id => "id: ".toList ++ id ++ ['\n']) ++
        ("event: ".toList ++ event ++ ['\n']) ++ ("data: ".toList ++ data ++ ['\n']) ++ ['\n'] := by
  cases id with
  | none => rfl
  | some id => rfl

theorem SseEvent.toSseLine_eq (e : SseEvent) (timestamp : String) :
    e.toSseLine timestamp = (SseLine.pushed e timestamp).frame.text := by
  unfold SseLine.frame
  rw [frame_text]
  unfold SseEvent.toSseLine SseLine.sentId? SseLine.event SseLine.payload
  have hend : "\n\n".toList = ['\n', '\n'] := rfl
  dsimp only
  rw [hend]
  generalize "event: ".toList = name, "data: ".toList = name', "id: ".toList = name''
  cases e.id with
  | none => simp [List.intercalate]
  | some id =>
      by_cases hempty : id = ""
      · have hnone : (some id).filter (· ≠ "") = none := by
          rw [hempty]
          rfl
        rw [hnone]
        dsimp only
        rw [if_pos hempty]
        simp [List.intercalate]
      · have hsome : (some id).filter (· ≠ "") = some id := if_pos (decide_eq_true hempty)
        rw [hsome]
        dsimp only
        rw [if_neg hempty]
        simp [List.intercalate]

theorem SseLine.text_eq (line : SseLine) : line.text = line.frame.text := by
  cases line with
  | pushed e timestamp => exact e.toSseLine_eq timestamp
  | status id event payload =>
      unfold frame
      rw [frame_text]
      unfold SseLine.text
      have hend : "\n\n".toList = ['\n', '\n'] := rfl
      have hone : "\n".toList = ['\n'] := rfl
      rw [hend, hone]
      generalize "event: ".toList = name, "data: ".toList = name', "id: ".toList = name''
      cases id with
      | none => simp [sentId?, SseLine.event, SseLine.payload]
      | some id => simp [sentId?, SseLine.event, SseLine.payload]
  | timedOut => decide +kernel

theorem SseLine.plain_frame_iff : line.frame.Plain ↔ line.Plain := by
  have hne : line.event.toList ≠ [] ↔ line.event ≠ "" := not_congr String.toList_eq_nil_iff
  constructor
  · exact fun h => ⟨fun id hid => h.id _ (congrArg (Option.map String.toList) hid), h.event,
      hne.mp h.event_ne⟩
  · intro h
    refine ⟨fun id hid => ?_, h.event, hne.mpr h.event_ne⟩
    obtain ⟨s, hs, rfl⟩ := Option.map_eq_some_iff.mp hid
    exact h.id s hs

/-- The payload is in one line. -/
theorem SseLine.oneLine_data (h : line.payload.WellFormed F) : OneLine line.frame.data := by
  have hprintable := Json.printable_write h
  exact ⟨fun hmem => absurd (hprintable _ hmem) (by decide),
    fun hmem => absurd (hprintable _ hmem) (by decide)⟩

theorem streamText_eq (lines : List SseLine) :
    streamText lines = (lines.map SseLine.frame).flatMap Frame.text := by
  rw [streamText, List.flatMap_map]
  exact List.flatMap_congr fun line _ => line.text_eq

/-- What a reader should have of the text is what the messages mean. -/
theorem map_receive_messages (h : ∀ line ∈ lines, line.payload.WellFormed F) (lastId : String) :
    (messages lastId.toList (lines.map SseLine.frame)).map (receive F) = meant lastId lines := by
  induction lines generalizing lastId with
  | nil => rfl
  | cons line lines ih =>
      have hid : line.frame.id.getD lastId.toList = (line.sentId?.getD lastId).toList :=
        Option.getD_map ..
      have hpayload : Json.loads F line.frame.data = some line.payload :=
        Json.loads_write (h line List.mem_cons_self)
      rw [List.map_cons, messages, List.map_cons, hid,
        ih fun l hl => h l (List.mem_cons_of_mem _ hl)]
      unfold receive
      dsimp only
      rw [hpayload, String.ofList_toList]
      congr 2
      exact String.ofList_toList

theorem subscriberReads_of_plain (h : ∀ line ∈ lines, line.payload.WellFormed F)
    (hplain : ∀ line ∈ lines, line.Plain) :
    read (streamText lines) = messages [] (lines.map SseLine.frame) := by
  rw [streamText_eq]
  refine read_flatMap_text (fun f hf => ?_) fun f hf => ?_
  · obtain ⟨line, hline, rfl⟩ := List.mem_map.mp hf
    exact SseLine.plain_frame_iff.mpr (hplain line hline)
  · obtain ⟨line, hline, rfl⟩ := List.mem_map.mp hf
    exact SseLine.oneLine_data (h line hline)

/-- A text in one line has no carriage return before its end. -/
theorem notMem_streamText (h : ∀ line ∈ lines, line.payload.WellFormed F)
    (hplain : ∀ line ∈ lines, line.Plain) : '\r' ∉ streamText lines := by
  rw [streamText, List.mem_flatMap]
  rintro ⟨line, hline, hmem⟩
  rw [SseLine.text_eq] at hmem
  have hp := SseLine.plain_frame_iff.mpr (hplain line hline)
  have hdata := SseLine.oneLine_data (h line hline)
  have hfield : ∀ name value, '\r' ∉ name → '\r' ∉ value → '\r' ∉ fieldText name value := by
    intro name value hname hvalue
    unfold fieldText
    simp only [List.mem_append, not_or]
    exact ⟨⟨⟨hname, by decide⟩, hvalue⟩, by decide⟩
  unfold Frame.text at hmem
  simp only [List.mem_append] at hmem
  rcases hmem with ((hid | hevent) | hdata') | hend
  · cases hid' : line.frame.id with
    | none =>
        rw [hid'] at hid
        exact absurd hid List.not_mem_nil
    | some id =>
        rw [hid'] at hid
        exact hfield _ _ (by decide) (hp.id id hid').1.2 hid
  · exact hfield _ _ (by decide) hp.event.2 hevent
  · exact hfield _ _ (by decide) hdata.2 hdata'
  · exact absurd hend (by decide)

/-- **A subscriber reads what was meant**, whatever the payloads are, exactly if the ids and the
names are plain.  And then a stream that breaks off is read correctly up to there: no message
is read in part, and none is read as another. -/
theorem subscriber_reads_iff (F : FloatReader) (lines : List SseLine)
    (h : ∀ line ∈ lines, line.payload.WellFormed F) :
    (subscriberReads F (streamText lines) = meant "" lines ↔ ∀ line ∈ lines, line.Plain) ∧
      ((∀ line ∈ lines, line.Plain) → ∀ text, text <+: streamText lines →
        subscriberReads F text <+: meant "" lines) := by
  have hmeant := map_receive_messages h ""
  refine ⟨⟨fun heq line hline => ?_, fun hplain => ?_⟩, fun hplain text htext => ?_⟩
  · -- no id and no name that is read has a line break
    rw [← hmeant] at heq
    refine SseLine.plain_frame_iff.mp
      (@plain_of_read _ (streamText lines) (fun m hm => ?_) _ (List.mem_map_of_mem hline))
    have hreceived : receive F m ∈ subscriberReads F (streamText lines) := by
      rw [heq]
      exact List.mem_map_of_mem hm
    obtain ⟨m', hm', hsame⟩ := List.mem_map.mp hreceived
    exact ⟨m', hm', String.ofList_injective (congrArg Received.lastId hsame),
      String.ofList_injective (congrArg Received.event hsame)⟩
  · rw [subscriberReads, subscriberReads_of_plain h hplain]
    exact hmeant
  · rw [← hmeant]
    have hread := prefix_read htext (notMem_streamText h hplain)
    rw [subscriberReads_of_plain h hplain] at hread
    exact hread.map _

/-- A message with an id that goes on in the next line. -/
def brokenId : List SseLine := [.status (some "t\nevent: TaskCompleted") "TaskStarted" (.obj [])]

theorem brokenId_misread :
    subscriberReads String.ofList (streamText brokenId) ≠ meant "" brokenId := by
  have hformed : ∀ line ∈ brokenId, line.payload.WellFormed String.ofList := by
    intro line hline
    rw [List.mem_singleton.mp hline]
    exact ⟨List.nodup_nil, trivial⟩
  intro heq
  have hplain := (subscriber_reads_iff String.ofList brokenId hformed).1.mp heq _ List.mem_cons_self
  exact absurd (hplain.id _ rfl) (by decide)

end Text

/-! ### The streams of a run -/

/-- An id that `push_event` makes is as plain as the task's. -/
theorem plainId_eventId_iff {t : TaskId} {n : ℕ} :
    PlainId (eventId t n).toList ↔ PlainId t.display.toList := by
  have hnumber : ∀ c ∈ "_".toList ++ (toString n).toList, c ≠ '\n' ∧ c ≠ '\r' ∧ c ≠ '\x00' := by
    intro c hc
    rcases List.mem_append.mp hc with hc | hc
    · obtain rfl := List.mem_singleton.mp hc
      decide
    · have hdigits : (toString n).toList = Nat.toDigits 10 n := String.toList_ofList
      rw [hdigits] at hc
      have hdigit := Nat.isDigit_of_mem_toDigits (by decide) (by decide) hc
      refine ⟨?_, ?_, ?_⟩ <;> rintro rfl <;> exact absurd hdigit (by decide)
  have hlist : (eventId t n).toList = t.display.toList ++ ("_".toList ++ (toString n).toList) := by
    unfold eventId
    rw [String.toList_append, String.toList_append, List.append_assoc]
  unfold PlainId OneLine
  rw [hlist]
  simp only [List.mem_append (t := "_".toList ++ (toString n).toList), not_or]
  have hn : '\n' ∉ "_".toList ++ (toString n).toList := fun h => (hnumber _ h).1 rfl
  have hr : '\r' ∉ "_".toList ++ (toString n).toList := fun h => (hnumber _ h).2.1 rfl
  have h0 : '\x00' ∉ "_".toList ++ (toString n).toList := fun h => (hnumber _ h).2.2 rfl
  tauto

/-- An event that the server announces: its name is plain, and its payload a value. -/
structure SseEvent.Sendable (F : FloatReader) (e : SseEvent) : Prop where
  event : OneLine e.event.toList
  event_ne : e.event ≠ ""
  payload : ∀ timestamp, (e.payload timestamp).WellFormed F

/-- Events are pushed by broadcasts, and have no id when they are listed. -/
def SseStep.Announces (F : FloatReader) : SseStep → Prop
  | call (.pushEvent ..) => False
  | call _ => True
  | list _ e => e.id = none ∧ e.Sendable F
  | push .. => True

/-- A message about a task, with an id of the task's. -/
def SseLine.Stamped (F : FloatReader) (t : TaskId) (line : SseLine) : Prop :=
  ∃ e timestamp n, line = .pushed e timestamp ∧ e.id = some (eventId t n) ∧ e.Sendable F

theorem SseLine.Stamped.plain_iff {F : FloatReader} {t : TaskId} {line : SseLine}
    (h : line.Stamped F t) : line.Plain ↔ PlainId t.display.toList := by
  obtain ⟨e, timestamp, n, rfl, hid, hsend⟩ := h
  have hne : eventId t n ≠ "" := by
    intro heq
    have hlist := congrArg String.toList heq
    unfold eventId at hlist
    rw [String.toList_append, String.toList_append] at hlist
    simp at hlist
  have hsome : (SseLine.pushed e timestamp).sentId? = some (eventId t n) := by
    change e.id.filter (· ≠ "") = _
    rw [hid]
    exact if_pos (decide_eq_true hne)
  rw [← plainId_eventId_iff (n := n)]
  constructor
  · exact fun hplain => hplain.id _ hsome
  · exact fun hplain => ⟨fun id hid' => Option.some.inj (hsome.symm.trans hid') ▸ hplain,
      hsend.event, hsend.event_ne⟩

section Runs

variable {F : FloatReader} {timeout : Time} {s : SseSystem} {id : StreamId} {t : TaskId}

/-- The task of a stream that is open, or was. -/
def SseSystem.taskOf (s : SseSystem) (id : StreamId) : Option TaskId :=
  (s.objects id).map SseStream.taskId

/-- A stream stays with its task. -/
theorem SseStreamer.taskId_of_get?_on {o : StreamerCall} {s : SseStreamer} {stream' : SseStream}
    (hget : (o.on timeout s).streams.get? id = some stream') (hne : id ≠ s.next) :
    ∃ stream, s.streams.get? id = some stream ∧ stream'.taskId = stream.taskId := by
  have hremoved : ∀ {s' : SseStreamer}, s'.streams.get? id = some stream' →
      (s'.streams.get? id = none ∨ s'.streams.get? id = s.streams.get? id) →
        ∃ stream, s.streams.get? id = some stream ∧ stream'.taskId = stream.taskId := by
    rintro s' hget' (hnone | hsame)
    · rw [hnone] at hget'
      cases hget'
    · exact ⟨stream', hsame.symm.trans hget', rfl⟩
  cases o with
  | openStream now t =>
      rw [StreamerCall.on, get?_openStream, if_neg hne] at hget
      exact ⟨stream', hget, rfl⟩
  | pushEvent now timestamp id' event =>
      rw [StreamerCall.on, get?_pushEvent] at hget
      split_ifs at hget with hid
      · obtain ⟨stream, hstream, rfl⟩ := Option.map_eq_some_iff.mp hget
        exact ⟨stream, hid ▸ hstream, rfl⟩
      · exact ⟨stream', hget, rfl⟩
  | getPending id' =>
      rw [StreamerCall.on, get?_getPending] at hget
      split_ifs at hget with hid
      · obtain ⟨stream, hstream, rfl⟩ := Option.map_eq_some_iff.mp hget
        exact ⟨stream, hid ▸ hstream, rfl⟩
      · exact ⟨stream', hget, rfl⟩
  | closeStream id' => exact hremoved hget (get?_closeStream_cases ..)
  | closeIdleStreams now => exact hremoved hget (get?_closeIdleStreams_cases ..)

namespace SseSystem

theorem Kept.taskOf_perform (h : s.Kept) (source : Option ℕ) (o : StreamerCall)
    (htask : s.taskOf id = some t) : (s.perform timeout source o).taskOf id = some t := by
  obtain ⟨stream, hobject, rfl⟩ := Option.map_eq_some_iff.mp htask
  have hne : id ≠ s.streamer.next := by
    rintro rfl
    rw [h.fresh _ le_rfl] at hobject
    cases hobject
  unfold taskOf SseSystem.perform
  cases hget : (o.on timeout s.streamer).streams.get? id with
  | none =>
      simp only [hget, Option.none_or]
      exact htask
  | some stream' =>
      obtain ⟨stream₀, hget₀, heq⟩ := SseStreamer.taskId_of_get?_on hget hne
      rw [h.objects id stream₀ hget₀] at hobject
      simp only [hget, Option.some_or, Option.map_some, heq, Option.some.inj hobject]

/-- What a broadcast still has to push, and what was accepted, is about the task of the
stream. -/
structure Stamps (F : FloatReader) (s : SseSystem) : Prop where
  kept : s.Kept
  accepted : ∀ id, ∀ line ∈ acceptedOn id s.log, ∃ t, s.taskOf id = some t ∧ line.Stamped F t
  broadcasts : ∀ b ∈ s.broadcasts, ∃ t, b.event.Sendable F ∧
    (∀ i, b.event.id = some i → ∃ n, i = eventId t n) ∧ ∀ id ∈ b.left, s.taskOf id = some t

theorem stamps_start : Stamps F start where
  kept := kept_start
  accepted _ _ h := absurd h List.not_mem_nil
  broadcasts _ h := absurd h List.not_mem_nil

/-- What a push leaves of an event, and what is accepted of it. -/
theorem stamped_pushEvent {now : Time} {timestamp : String} {e : SseEvent} (h : s.Kept)
    (htask : s.taskOf id = some t) (hsend : e.Sendable F)
    (hid : ∀ i, e.id = some i → ∃ n, i = eventId t n) :
    ((s.streamer.pushEvent now timestamp id e).1.event.Sendable F ∧
      ∀ i, (s.streamer.pushEvent now timestamp id e).1.event.id = some i → ∃ n, i = eventId t n) ∧
    ∀ line ∈ (s.streamer.pushEvent now timestamp id e).1.line, line.Stamped F t := by
  unfold SseStreamer.pushEvent
  split
  · exact ⟨⟨hsend, hid⟩, fun line hline => by cases hline⟩
  · rename_i stream hget
    have hstream : stream.taskId = t := by
      unfold taskOf at htask
      rw [h.objects id stream hget] at htask
      exact Option.some.inj htask
    have hstamp : (stream.stamp e).Sendable F ∧ ∃ n, (stream.stamp e).id = some (eventId t n) := by
      unfold SseStream.stamp
      cases heq : e.id with
      | some i =>
          obtain ⟨n, rfl⟩ := hid i heq
          exact ⟨hsend, n, heq⟩
      | none =>
          refine ⟨⟨hsend.event, hsend.event_ne, hsend.payload⟩, stream.sequenceCounter + 1, ?_⟩
          rw [← hstream]
          rfl
    obtain ⟨hsend', n, hid'⟩ := hstamp
    refine ⟨⟨hsend', fun i hi => ⟨n, Option.some.inj (hi.symm.trans hid')⟩⟩, fun line hline => ?_⟩
    obtain rfl := Option.some.inj hline
    exact ⟨_, timestamp, n, rfl, hid', hsend'⟩

/-- What is accepted of an operation, on one stream. -/
theorem Stamps.perform (h : s.Stamps F) {source : Option ℕ} {o : StreamerCall}
    (hkept : (s.perform timeout source o).Kept)
    (haccepted : ∀ id, ∀ line ∈ acceptedOn id (o.report source s.streamer),
      ∃ t, s.taskOf id = some t ∧ line.Stamped F t) :
    (s.perform timeout source o).Stamps F where
  kept := hkept
  accepted id line hline := by
    have hsplit : line ∈ acceptedOn id s.log ++ acceptedOn id (o.report source s.streamer) := by
      rw [← acceptedOn_append]
      exact hline
    have hone : ∃ t, s.taskOf id = some t ∧ line.Stamped F t :=
      (List.mem_append.mp hsplit).elim (h.accepted id line) (haccepted id line)
    obtain ⟨t, htask, hstamped⟩ := hone
    exact ⟨t, h.kept.taskOf_perform source o htask, hstamped⟩
  broadcasts b hb := by
    obtain ⟨t, hsend, hid, hleft⟩ := h.broadcasts b hb
    exact ⟨t, hsend, hid, fun id hmem => h.kept.taskOf_perform source o (hleft id hmem)⟩

/-- **A step keeps it.** -/
theorem Stamps.on (h : s.Stamps F) {step : SseStep} (hstep : step.Announces F) :
    (step.on timeout s).Stamps F := by
  have hkept : (step.on timeout s).Kept := h.kept.on step
  cases step with
  | call o =>
      refine h.perform hkept fun id line hline => ?_
      cases o with
      | pushEvent now timestamp id' event => exact hstep.elim
      | _ => exact absurd hline List.not_mem_nil
  | list t event =>
      rw [SseStep.on_list] at hkept ⊢
      refine ⟨hkept, h.accepted, fun b hb => ?_⟩
      rcases List.mem_append.mp hb with hb | hb
      · exact h.broadcasts b hb
      · obtain rfl := List.mem_singleton.mp hb
        refine ⟨t.1, hstep.2, fun i hi => ?_, fun id hid => ?_⟩
        · rw [hstep.1] at hi
          cases hi
        · obtain ⟨stream, hget, htask⟩ := h.kept.index.mem_listed_iff.mp hid
          unfold taskOf
          rw [h.kept.objects id stream hget, Option.map_some, htask]
  | push b now timestamp =>
      rcases SseStep.on_push_cases timeout s b now timestamp with
        hidle | ⟨event, id, left, hget, hpush⟩
      · rw [hidle]
        exact h
      · rw [hpush] at hkept ⊢
        obtain ⟨t, hsend, hid, hleft⟩ := h.broadcasts _ (List.mem_of_getElem? hget)
        obtain ⟨⟨hsend', hid'⟩, hline⟩ := @stamped_pushEvent F s id t now timestamp event h.kept
          (hleft id List.mem_cons_self) hsend hid
        have hperform : (s.perform timeout (some b) (.pushEvent now timestamp id event)).Stamps F := by
          refine h.perform ⟨hkept.index, hkept.objects, hkept.fresh, ?_, hkept.flow⟩ ?_
          · intro b' id' hle
            refine hkept.numbers b' id' ?_
            rw [List.length_set]
            exact hle
          · intro id' line hmem
            unfold StreamerCall.report at hmem
            rw [acceptedOn_line] at hmem
            split_ifs at hmem with heq
            · exact ⟨t, heq ▸ hleft id List.mem_cons_self, hline line (Option.mem_toList.mp hmem)⟩
            · exact absurd hmem List.not_mem_nil
        refine ⟨hkept, hperform.accepted, fun b' hb' => ?_⟩
        rcases List.mem_or_eq_of_mem_set hb' with hb' | rfl
        · exact hperform.broadcasts b' hb'
        · exact ⟨t, hsend', hid', fun id' hmem =>
            h.kept.taskOf_perform (some b) (.pushEvent now timestamp id event)
              (hleft id' (List.mem_cons_of_mem _ hmem))⟩

end SseSystem

theorem stamps_after (timeout : Time) {steps : List SseStep} (h : ∀ step ∈ steps, step.Announces F) :
    (sseAfter timeout steps).Stamps F :=
  Sequential.run_invariant_of_mem (fun _ _ hstep hs => hs.on hstep) h SseSystem.stamps_start

/-- **What a subscriber takes out of a stream**, in any run: it is read as it was meant exactly
if there is nothing to read or the task's id is plain. -/
theorem stream_reads_iff (F : FloatReader) (timeout : Time) (steps : List SseStep)
    (h : ∀ step ∈ steps, step.Announces F) (id : StreamId) (t : TaskId)
    (htask : (sseAfter timeout steps).taskOf id = some t) :
    subscriberReads F (streamText (readOn id (sseAfter timeout steps).log)) =
        meant "" (readOn id (sseAfter timeout steps).log) ↔
      readOn id (sseAfter timeout steps).log = [] ∨ PlainId t.display.toList := by
  have hstamps := stamps_after timeout h
  have hread : ∀ line ∈ readOn id (sseAfter timeout steps).log, line.Stamped F t := by
    intro line hline
    have hmem : line ∈ acceptedOn id (sseAfter timeout steps).log := by
      rw [← hstamps.kept.flow id]
      exact List.mem_append_left _ hline
    obtain ⟨t', htask', hstamped⟩ := hstamps.accepted id line hmem
    obtain rfl := Option.some.inj (htask.symm.trans htask')
    exact hstamped
  have hformed : ∀ line ∈ readOn id (sseAfter timeout steps).log, line.payload.WellFormed F := by
    intro line hline
    obtain ⟨e, timestamp, -, rfl, -, hsend⟩ := hread line hline
    exact hsend.payload timestamp
  rw [(subscriber_reads_iff F _ hformed).1]
  constructor
  · intro hplain
    cases hlines : readOn id (sseAfter timeout steps).log with
    | nil => exact Or.inl rfl
    | cons line lines =>
        have hmem : line ∈ readOn id (sseAfter timeout steps).log := hlines ▸ List.mem_cons_self
        exact Or.inr ((hread line hmem).plain_iff.mp (hplain line hmem))
  · rintro (hnil | hplain) line hline
    · rw [hnil] at hline
      exact absurd hline List.not_mem_nil
    · exact (hread line hline).plain_iff.mpr hplain

/-- An event that tells that a task has been started. -/
def startedEvent : SseEvent := ⟨.str "t", "working", "TaskStarted", none, .null, .status⟩

/-- A stream is opened, an event is pushed to it, and taken out. -/
def oneEvent : List SseStep :=
  [ .call (.openStream 0 ⟨.str "t", rfl⟩), .list ⟨.str "t", rfl⟩ startedEvent, .push 0 1 "now",
    .call (.getPending 0) ]

theorem oneEvent_read :
    subscriberReads String.ofList (streamText (readOn 0 (sseAfter 300 oneEvent).log)) =
      meant "" (readOn 0 (sseAfter 300 oneEvent).log) := by
  have houter : ["taskId", "contextId", "status", "metadata"].Nodup := by decide
  have hstatus : ["state", "message", "timestamp"].Nodup := by decide
  have hmessage : ["role", "parts"].Nodup := by decide
  have hsendable : startedEvent.Sendable String.ofList :=
    ⟨by decide, by decide, fun timestamp => ⟨houter, trivial, trivial,
      ⟨hstatus, trivial, ⟨hmessage, trivial, trivial, trivial⟩, trivial, trivial⟩,
      ⟨List.nodup_nil, trivial⟩, trivial⟩⟩
  have hsteps : ∀ step ∈ oneEvent, step.Announces String.ofList := by
    intro step hstep
    unfold oneEvent at hstep
    simp only [List.mem_cons, List.not_mem_nil, or_false] at hstep
    rcases hstep with rfl | rfl | rfl | rfl
    · trivial
    · exact ⟨rfl, hsendable⟩
    · trivial
    · trivial
  exact (stream_reads_iff String.ofList 300 oneEvent hsteps 0 (.str "t") rfl).mpr
    (Or.inr (by decide))

end Runs

end HermesA2A
