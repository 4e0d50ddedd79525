import HermesA2A.StreamIndex

/-!
# Broadcasts

`_push_sse` lists the streams of a task, and then pushes its event to each of them.  The
listing and the pushes hold the streamer's lock one by one: between them streams are
opened and closed, other broadcasts push, and what has arrived is taken out.

`SseSystem` is the streamer, the broadcasts that are under way, and a log of what was
buffered and what was taken out.

* `SseSystem.Kept` — what was taken out of a stream, followed by what is in its buffer,
  is what was accepted for it.
* `SseSystem.Tracked` — how far a broadcast has come; `Tracked.on` is the step lemma.
* `broadcast_exact` — the index, the buffers and the broadcasts are right in every run.
-/

namespace HermesA2A

open GroupIndex

/-! ### The system -/

/-- The event without the id that the first push gives it. -/
def SseEvent.anonymous (e : SseEvent) : SseEvent := { e with id := none }

/-- The message is this event, with whatever id it got. -/
def SseLine.Carries (e : SseEvent) (line : SseLine) : Prop :=
  ∃ e' timestamp, line = .pushed e' timestamp ∧ e'.anonymous = e.anonymous

/-- A broadcast: its event, as the object is by now, and the streams that it has listed
and not pushed to yet. -/
structure Broadcast where
  event : SseEvent
  left : List StreamId

/-- What is logged of an operation: a message that was buffered, with the number of its
broadcast, if it is one, and what was taken out of a buffer. -/
inductive SseReport
  | accepted (broadcast : Option ℕ) (id : StreamId) (line : SseLine)
  | read (id : StreamId) (lines : List SseLine)

/-- The report of an operation on a streamer. -/
def StreamerCall.report (broadcast : Option ℕ) : StreamerCall → SseStreamer → List SseReport
  | pushEvent now timestamp id event, s =>
      (s.pushEvent now timestamp id event).1.line.toList.map (.accepted broadcast id)
  | getPending id, s => [.read id (s.getPending id).1]
  | _, _ => []

/-- The streamer, the broadcasts in the order of their listings, and the log.  `objects`
are the `_Stream` objects: one that has left the dictionary stays as it was. -/
structure SseSystem where
  streamer : SseStreamer
  objects : StreamId → Option SseStream
  broadcasts : List Broadcast
  log : List SseReport

/-- A step: an operation of the streamer, the listing that begins a broadcast, or the next
push of a broadcast. -/
inductive SseStep
  | call (o : StreamerCall)
  | list (t : TaskKey) (event : SseEvent)
  | push (broadcast : ℕ) (now : Time) (timestamp : String)

namespace SseSystem

/-- Nothing has happened. -/
def start : SseSystem := ⟨.empty, fun _ => none, [], []⟩

/-- An operation of the streamer, for a broadcast or for none. -/
def perform (timeout : Time) (broadcast : Option ℕ) (o : StreamerCall) (s : SseSystem) :
    SseSystem where
  streamer := o.on timeout s.streamer
  objects id := ((o.on timeout s.streamer).streams.get? id).or (s.objects id)
  broadcasts := s.broadcasts
  log := s.log ++ o.report broadcast s.streamer

/-- What is in the buffer of a stream, or was when it was closed. -/
def buffer (s : SseSystem) (id : StreamId) : List SseLine :=
  (s.objects id).elim [] SseStream.pending

end SseSystem

/-- What a step does. -/
def SseStep.on (timeout : Time) : SseStep → SseSystem → SseSystem
  | call o, s => s.perform timeout none o
  | list t event, s =>
      match s.streamer.streamIdsForTask t.1 with
      | .ok ids => { s with broadcasts := s.broadcasts ++ [⟨event, ids⟩] }
      | .error _ => s
  | push broadcast now timestamp, s =>
      match s.broadcasts[broadcast]? with
      | some ⟨event, id :: left⟩ =>
          { s.perform timeout (some broadcast) (.pushEvent now timestamp id event) with
            broadcasts := s.broadcasts.set broadcast
              ⟨(s.streamer.pushEvent now timestamp id event).1.event, left⟩ }
      | _ => s

/-- The system after a sequence of steps. -/
abbrev sseAfter (timeout : Time) (steps : List SseStep) : SseSystem :=
  Sequential.run (SseStep.on timeout) steps .start

/-! ### What the steps do -/

section Steps

variable (timeout : Time) (s : SseSystem)

/-- A broadcast begins with the streams that the index lists. -/
theorem SseStep.on_list (t : TaskKey) (event : SseEvent) :
    (SseStep.list t event).on timeout s =
      { s with broadcasts := s.broadcasts ++ [⟨event, listed s.streamer.byTask t.1⟩] } := by
  have hlist : s.streamer.streamIdsForTask t.1 = .ok (listed s.streamer.byTask t.1) :=
    if_pos t.2
  simp only [SseStep.on, hlist]

/-- A broadcast that is over, or has not begun, pushes nothing. -/
theorem SseStep.on_push_cases (b : ℕ) (now : Time) (timestamp : String) :
    (SseStep.push b now timestamp).on timeout s = s ∨
      ∃ event id left, s.broadcasts[b]? = some ⟨event, id :: left⟩ ∧
        (SseStep.push b now timestamp).on timeout s =
          { s.perform timeout (some b) (.pushEvent now timestamp id event) with
            broadcasts := s.broadcasts.set b
              ⟨(s.streamer.pushEvent now timestamp id event).1.event, left⟩ } := by
  cases hget : s.broadcasts[b]? with
  | none => exact Or.inl (by simp only [SseStep.on, hget])
  | some broadcast =>
      obtain ⟨event, left⟩ := broadcast
      cases left with
      | nil => exact Or.inl (by simp only [SseStep.on, hget])
      | cons id left => exact Or.inr ⟨event, id, left, rfl, by simp only [SseStep.on, hget]⟩

end Steps

/-! ### The log -/

/-- The messages that were accepted for a stream. -/
def acceptedOn (id : StreamId) (log : List SseReport) : List SseLine :=
  log.filterMap fun
    | .accepted _ id' line => if id' = id then some line else none
    | .read .. => none

/-- What was taken out of a stream. -/
def readOn (id : StreamId) (log : List SseReport) : List SseLine :=
  log.flatMap fun
    | .accepted .. => []
    | .read id' lines => if id' = id then lines else []

/-- The messages of a broadcast that were accepted for a stream. -/
def deliveries (broadcast : ℕ) (id : StreamId) (log : List SseReport) : List SseLine :=
  log.filterMap fun
    | .accepted broadcast' id' line =>
        if broadcast' = some broadcast ∧ id' = id then some line else none
    | .read .. => none

section Log

variable {id : StreamId} (log log' : List SseReport)

theorem acceptedOn_append :
    acceptedOn id (log ++ log') = acceptedOn id log ++ acceptedOn id log' :=
  List.filterMap_append

theorem readOn_append : readOn id (log ++ log') = readOn id log ++ readOn id log' :=
  List.flatMap_append

theorem deliveries_append {b : ℕ} :
    deliveries b id (log ++ log') = deliveries b id log ++ deliveries b id log' :=
  List.filterMap_append

/-- What is logged of a push. -/
theorem acceptedOn_line (source : Option ℕ) (id' : StreamId) (line : Option SseLine) :
    acceptedOn id (line.toList.map (.accepted source id')) =
      if id' = id then line.toList else [] := by
  cases line with
  | none => exact (ite_self _).symm
  | some line => by_cases h : id' = id <;> simp [acceptedOn, h]

theorem readOn_line (source : Option ℕ) (id' : StreamId) (line : Option SseLine) :
    readOn id (line.toList.map (.accepted source id')) = [] := by
  cases line <;> rfl

theorem deliveries_line {b : ℕ} (source : Option ℕ) (id' : StreamId) (line : Option SseLine) :
    deliveries b id (line.toList.map (.accepted source id')) =
      if source = some b ∧ id' = id then line.toList else [] := by
  cases line with
  | none => exact (ite_self _).symm
  | some line => by_cases h : source = some b ∧ id' = id <;> simp [deliveries, h]

end Log

/-! ### The buffers -/

/-- A stream that a removal leaves open holds what it held. -/
theorem SseStreamer.held_of_removed {s s' : SseStreamer} {id : StreamId}
    (h : s'.streams.get? id = none ∨ s'.streams.get? id = s.streams.get? id) :
    id ∉ s'.streams ∨ (id ∈ s'.streams ∧ s'.held id = s.held id) := by
  by_cases hmem : id ∈ s'.streams
  · refine Or.inr ⟨hmem, ?_⟩
    rcases h with hnone | hget
    · exact absurd hmem (OrderedDict.get?_eq_none_iff.mp hnone)
    · unfold held
      rw [hget]
  · exact Or.inl hmem

/-- **What one operation does to one stream**: it is closed then, and nothing is logged of
it; or it is open, and what was in its buffer and was accepted is what was read and is in
its buffer. -/
theorem SseStreamer.flow_on (timeout : Time) (source : Option ℕ) (o : StreamerCall)
    (s : SseStreamer) (id : StreamId) :
    (id ∉ (o.on timeout s).streams ∧ acceptedOn id (o.report source s) = [] ∧
        readOn id (o.report source s) = []) ∨
      (id ∈ (o.on timeout s).streams ∧
        readOn id (o.report source s) ++ (o.on timeout s).held id =
          s.held id ++ acceptedOn id (o.report source s)) := by
  -- a removal logs nothing
  have hquiet : ∀ {s' : SseStreamer},
      (s'.streams.get? id = none ∨ s'.streams.get? id = s.streams.get? id) →
      (id ∉ s'.streams ∧ ([] : List SseLine) = [] ∧ ([] : List SseLine) = []) ∨
        (id ∈ s'.streams ∧ [] ++ s'.held id = s.held id ++ []) := by
    intro s' h
    rcases held_of_removed h with hno | ⟨hmem, hheld⟩
    · exact Or.inl ⟨hno, rfl, rfl⟩
    · exact Or.inr ⟨hmem, by rw [hheld, List.nil_append, List.append_nil]⟩
  cases o with
  | openStream now t =>
      by_cases hmem : id ∈ (s.openStream now t.1).2.streams
      · refine Or.inr ⟨hmem, ?_⟩
        show [] ++ (s.openStream now t.1).2.held id = s.held id ++ []
        rw [held_openStream, List.nil_append, List.append_nil]
      · exact Or.inl ⟨hmem, rfl, rfl⟩
  | pushEvent now timestamp id' event =>
      unfold StreamerCall.report
      rw [acceptedOn_line, readOn_line, List.nil_append]
      by_cases hmem : id ∈ (s.pushEvent now timestamp id' event).2.streams
      · exact Or.inr ⟨hmem, held_pushEvent ..⟩
      · refine Or.inl ⟨hmem, ?_, rfl⟩
        split_ifs with hid
        · -- nothing is buffered on a stream that is not open
          rw [List.eq_nil_iff_forall_not_mem]
          intro line hline
          obtain ⟨stream, hstream, -⟩ := mem_line_pushEvent _ _ _ hline
          exact hmem ((mem_pushEvent_iff ..).mpr (OrderedDict.mem_of_get? (hid ▸ hstream)))
        · rfl
  | getPending id' =>
      have hread : readOn id [.read id' (s.getPending id').1] =
          if id' = id then (s.getPending id').1 else [] := List.append_nil _
      unfold StreamerCall.report
      rw [hread]
      by_cases hmem : id ∈ (s.getPending id').2.streams
      · exact Or.inr ⟨hmem, (held_getPending s id id').symm.trans (List.append_nil _).symm⟩
      · refine Or.inl ⟨hmem, rfl, ?_⟩
        -- a stream that is not open holds nothing that could be read
        have hheld := held_getPending s id id'
        rw [held_of_notMem (mt mem_getPending_iff.mpr hmem)] at hheld
        exact (List.append_eq_nil_iff.mp hheld.symm).1
  | closeStream id' => exact hquiet (get?_closeStream_cases ..)
  | closeIdleStreams now => exact hquiet (get?_closeIdleStreams_cases ..)

/-- Only a push for a broadcast is logged under its number. -/
theorem deliveries_report {b : ℕ} {source : Option ℕ} (hne : source ≠ some b) (o : StreamerCall)
    (s : SseStreamer) (id : StreamId) : deliveries b id (o.report source s) = [] := by
  cases o with
  | pushEvent now timestamp id' event =>
      exact (deliveries_line ..).trans (if_neg fun h => hne h.1)
  | _ => rfl

namespace SseSystem

/-- **What holds in every state.** -/
structure Kept (s : SseSystem) : Prop where
  index : s.streamer.Coherent
  objects : ∀ id stream, s.streamer.streams.get? id = some stream → s.objects id = some stream
  fresh : ∀ id, s.streamer.next ≤ id → s.objects id = none
  numbers : ∀ b id, s.broadcasts.length ≤ b → deliveries b id s.log = []
  flow : ∀ id, readOn id s.log ++ s.buffer id = acceptedOn id s.log

variable {timeout : Time} {s : SseSystem}

theorem kept_start : start.Kept where
  index := coherent_empty _
  objects _ _ h := by cases h
  fresh _ _ := rfl
  numbers _ _ _ := rfl
  flow _ := rfl

/-- Until it is changed, a stream that is open holds what its object does, and a new one
holds nothing. -/
theorem Kept.held (h : s.Kept) {id : StreamId}
    (hid : id ∈ s.streamer.streams ∨ id = s.streamer.next) :
    s.streamer.held id = s.buffer id := by
  rcases hid with hmem | rfl
  · obtain ⟨stream, hget⟩ := OrderedDict.mem_iff_exists.mp hmem
    rw [SseStreamer.held, buffer, h.objects id stream hget, hget]
  · rw [SseStreamer.held_of_notMem s.streamer.notMem_next, buffer, h.fresh _ le_rfl]
    rfl

theorem buffer_perform (timeout : Time) (source : Option ℕ) (o : StreamerCall) (s : SseSystem)
    (id : StreamId) :
    (s.perform timeout source o).buffer id =
      if id ∈ (o.on timeout s.streamer).streams then (o.on timeout s.streamer).held id
      else s.buffer id := by
  unfold buffer perform SseStreamer.held
  split_ifs with hmem
  · obtain ⟨stream, hget⟩ := OrderedDict.mem_iff_exists.mp hmem
    simp only [hget, Option.some_or]
  · simp only [OrderedDict.get?_eq_none_iff.mpr hmem, Option.none_or]

/-- **An operation keeps it.** -/
theorem Kept.perform (h : s.Kept) {source : Option ℕ}
    (hsource : ∀ b, source = some b → b < s.broadcasts.length) (o : StreamerCall) :
    (s.perform timeout source o).Kept where
  index := SseStreamer.coherent_on o h.index
  objects id stream hget := by
    show ((o.on timeout s.streamer).streams.get? id).or (s.objects id) = some stream
    rw [show (o.on timeout s.streamer).streams.get? id = some stream from hget, Option.some_or]
  fresh id hle := by
    have hnew : id ∉ (o.on timeout s.streamer).streams := fun hmem =>
      absurd ((o.on timeout s.streamer).fresh id hmem) (Nat.not_lt.mpr hle)
    show ((o.on timeout s.streamer).streams.get? id).or (s.objects id) = none
    rw [OrderedDict.get?_eq_none_iff.mpr hnew, Option.none_or]
    exact h.fresh id ((SseStreamer.next_le_on o _).trans hle)
  numbers b id hle := by
    refine (deliveries_append s.log _).trans ?_
    rw [h.numbers b id hle, List.nil_append]
    exact deliveries_report (fun heq => absurd (hsource b heq) (Nat.not_lt.mpr hle)) ..
  flow id := by
    have hbuffer := buffer_perform timeout source o s id
    show readOn id (s.log ++ _) ++ _ = acceptedOn id (s.log ++ _)
    rw [readOn_append, acceptedOn_append, ← h.flow id, hbuffer]
    rcases s.streamer.flow_on timeout source o id with ⟨hno, haccepted, hread⟩ | ⟨hmem, hflow⟩
    · rw [if_neg hno, haccepted, hread, List.append_nil, List.append_nil]
    · rw [if_pos hmem, List.append_assoc, hflow, h.held (SseStreamer.mem_of_mem_on hmem),
        List.append_assoc]

/-- **So does a step.** -/
theorem Kept.on (h : s.Kept) (step : SseStep) : (step.on timeout s).Kept := by
  cases step with
  | call o => exact h.perform (fun _ hb => by cases hb) o
  | list t event =>
      rw [SseStep.on_list]
      refine ⟨h.index, h.objects, h.fresh, fun b id hle => h.numbers b id ?_, h.flow⟩
      rw [List.length_append] at hle
      exact (Nat.le_add_right ..).trans hle
  | push b now timestamp =>
      rcases SseStep.on_push_cases timeout s b now timestamp with
        hidle | ⟨event, id, left, hget, hpush⟩
      · rw [hidle]
        exact h
      · rw [hpush]
        have hlt : b < s.broadcasts.length := (List.getElem?_eq_some_iff.mp hget).1
        have hkept : (s.perform timeout (some b) (.pushEvent now timestamp id event)).Kept :=
          h.perform (fun b' hb => Option.some.inj hb ▸ hlt) _
        refine ⟨hkept.index, hkept.objects, hkept.fresh, fun b' id' hle => ?_, hkept.flow⟩
        rw [List.length_set] at hle
        exact hkept.numbers b' id' hle

/-- The invariant of all runs. -/
theorem kept_after (timeout : Time) (steps : List SseStep) : (sseAfter timeout steps).Kept :=
  Sequential.run_invariant (fun step _ h => h.on step) steps kept_start

/-! ### A broadcast -/

/-- **How far a broadcast has come**: `audience` are the streams it has listed, and `left`
those of them that it has not pushed to yet. -/
structure Progress (b : ℕ) (e : SseEvent) (audience : List StreamId) (current : SseEvent)
    (left : List StreamId) (s : SseSystem) : Prop where
  broadcast : s.broadcasts[b]? = some ⟨current, left⟩
  event : current.anonymous = e.anonymous
  nodup : left.Nodup
  known : ∀ id ∈ audience, id < s.streamer.next
  waiting : ∀ id ∈ left, id ∈ audience ∧ deliveries b id s.log = []
  done : ∀ id ∈ audience, id ∉ left → id ∈ s.streamer.streams → deliveries b id s.log ≠ []
  others : ∀ id, id ∉ audience → deliveries b id s.log = []
  atMost : ∀ id, (deliveries b id s.log).length ≤ 1
  carries : ∀ id, ∀ line ∈ deliveries b id s.log, line.Carries e

/-- A broadcast of an event to an audience, somewhere on its way. -/
def Tracked (b : ℕ) (e : SseEvent) (audience : List StreamId) (s : SseSystem) : Prop :=
  ∃ current left, s.Progress b e audience current left

variable {b : ℕ} {e current : SseEvent} {audience left : List StreamId}

/-- What the operation of another does to a broadcast. -/
theorem Progress.perform (h : s.Progress b e audience current left) {source : Option ℕ}
    (hne : source ≠ some b) (o : StreamerCall) :
    (s.perform timeout source o).Progress b e audience current left := by
  have hlog : ∀ id, deliveries b id (s.perform timeout source o).log = deliveries b id s.log := by
    intro id
    refine (deliveries_append s.log _).trans ?_
    rw [deliveries_report hne, List.append_nil]
  refine ⟨h.broadcast, h.event, h.nodup, fun id hid => ?_, fun id hid => ?_,
    fun id hid hno hopen => ?_, fun id hid => ?_, fun id => ?_, fun id => ?_⟩
  · exact (h.known id hid).trans_le (SseStreamer.next_le_on o _)
  · rw [hlog]
    exact h.waiting id hid
  · rw [hlog]
    rcases SseStreamer.mem_of_mem_on hopen with hmem | hnew
    · exact h.done id hid hno hmem
    · exact absurd hnew (h.known id hid).ne
  · rw [hlog]
    exact h.others id hid
  · rw [hlog]
    exact h.atMost id
  · rw [hlog]
    exact h.carries id

/-- Only the broadcasts themselves matter. -/
theorem Progress.congr (h : s.Progress b e audience current left) {broadcasts : List Broadcast}
    (hget : broadcasts[b]? = s.broadcasts[b]?) :
    ({ s with broadcasts := broadcasts } : SseSystem).Progress b e audience current left :=
  ⟨hget.trans h.broadcast, h.event, h.nodup, h.known, h.waiting, h.done, h.others, h.atMost,
    h.carries⟩

end SseSystem

theorem SseLine.Carries.congr {e e' : SseEvent} {line : SseLine} (h : line.Carries e)
    (heq : e.anonymous = e'.anonymous) : line.Carries e' := by
  obtain ⟨event, timestamp, hline, hevent⟩ := h
  exact ⟨event, timestamp, hline, hevent.trans heq⟩

theorem SseStream.anonymous_stamp (stream : SseStream) (e : SseEvent) :
    (stream.stamp e).anonymous = e.anonymous := by
  unfold SseStream.stamp
  split <;> rfl

namespace SseStreamer

variable {s : SseStreamer} {id : StreamId} {now : Time} {timestamp : String} {e : SseEvent}

theorem anonymous_pushEvent :
    (s.pushEvent now timestamp id e).1.event.anonymous = e.anonymous := by
  unfold pushEvent
  split
  · rfl
  · exact SseStream.anonymous_stamp ..

/-- An open stream buffers what is pushed to it. -/
theorem line_pushEvent (now : Time) (timestamp : String) (e : SseEvent) (h : id ∈ s.streams) :
    ∃ line, (s.pushEvent now timestamp id e).1.line = some line ∧ line.Carries e := by
  unfold pushEvent
  split
  · rename_i hnone
    exact absurd h (OrderedDict.get?_eq_none_iff.mp hnone)
  · rename_i stream hget
    exact ⟨_, rfl, _, _, rfl, SseStream.anonymous_stamp ..⟩

/-- A stream that is not open does not. -/
theorem line_pushEvent_of_notMem (h : id ∉ s.streams) :
    (s.pushEvent now timestamp id e).1.line = none := by
  unfold pushEvent
  split
  · rfl
  · rename_i stream hget
    exact absurd (OrderedDict.mem_of_get? hget) h

end SseStreamer

namespace SseSystem

variable {timeout : Time} {s : SseSystem} {b : ℕ} {e current : SseEvent}
  {audience left : List StreamId}

/-- **The next push of a broadcast.** -/
theorem Progress.push {id : StreamId} (h : s.Progress b e audience current (id :: left))
    (now : Time) (timestamp : String) :
    ({ s.perform timeout (some b) (.pushEvent now timestamp id current) with
        broadcasts := s.broadcasts.set b
          ⟨(s.streamer.pushEvent now timestamp id current).1.event, left⟩ } : SseSystem).Progress
      b e audience (s.streamer.pushEvent now timestamp id current).1.event left := by
  obtain ⟨hnotMem, hnodup⟩ := List.nodup_cons.mp h.nodup
  obtain ⟨haudience, hnothing⟩ := h.waiting id List.mem_cons_self
  have hlt : b < s.broadcasts.length := (List.getElem?_eq_some_iff.mp h.broadcast).1
  let line := (s.streamer.pushEvent now timestamp id current).1.line
  -- only the stream that is pushed to is delivered to, and to that stream nothing was
  have hlog : ∀ id', deliveries b id' (s.log ++ StreamerCall.report (some b)
      (.pushEvent now timestamp id current) s.streamer) =
        if id = id' then line.toList else deliveries b id' s.log := by
    intro id'
    refine (deliveries_append s.log _).trans ?_
    have hline : deliveries b id' (StreamerCall.report (some b)
        (.pushEvent now timestamp id current) s.streamer) =
          if some b = some b ∧ id = id' then line.toList else [] := deliveries_line ..
    rw [hline]
    by_cases hid : id = id'
    · subst hid
      rw [hnothing, if_pos ⟨rfl, rfl⟩, if_pos rfl, List.nil_append]
    · rw [if_neg fun h => hid h.2, if_neg hid, List.append_nil]
  refine ⟨?_, ?_, hnodup, fun id' hid' => ?_, fun id' hid' => ?_, fun id' hid' hno hopen => ?_,
    fun id' hid' => ?_, fun id' => ?_, fun id' line' hline' => ?_⟩
  · exact List.getElem?_set_self hlt
  · exact SseStreamer.anonymous_pushEvent.trans h.event
  · exact (h.known id' hid').trans_le (SseStreamer.next_pushEvent ..).ge
  · have hne : id ≠ id' := fun heq => hnotMem (heq ▸ hid')
    refine ⟨(h.waiting id' (List.mem_cons_of_mem _ hid')).1, (hlog id').trans ?_⟩
    rw [if_neg hne]
    exact (h.waiting id' (List.mem_cons_of_mem _ hid')).2
  -- a stream that is no longer waiting: this one, or one of those before it
  · have hmem : id' ∈ s.streamer.streams := (SseStreamer.mem_pushEvent_iff ..).mp hopen
    refine ne_of_eq_of_ne (hlog id') ?_
    split_ifs with hid
    · obtain ⟨l, hl, -⟩ := SseStreamer.line_pushEvent now timestamp current (hid ▸ hmem)
      show line.toList ≠ []
      rw [show line = some l from hl]
      exact List.cons_ne_nil _ _
    · refine h.done id' hid' (fun hcons => ?_) hmem
      rcases List.mem_cons.mp hcons with heq | hleft
      · exact hid heq.symm
      · exact hno hleft
  · refine (hlog id').trans ?_
    rw [if_neg fun heq : id = id' => hid' (heq ▸ haudience)]
    exact h.others id' hid'
  · refine (congrArg List.length (hlog id')).trans_le ?_
    split_ifs
    · exact Option.length_toList_le
    · exact h.atMost id'
  · have hline : line' ∈ if id = id' then line.toList else deliveries b id' s.log :=
      hlog id' ▸ hline'
    split_ifs at hline with hid
    · by_cases hmem : id ∈ s.streamer.streams
      · obtain ⟨l, hl, hcarries⟩ := SseStreamer.line_pushEvent now timestamp current hmem
        rw [show line = some l from hl] at hline
        rw [List.mem_singleton.mp hline]
        exact hcarries.congr h.event
      · rw [show line = none from SseStreamer.line_pushEvent_of_notMem hmem] at hline
        cases hline
    · exact h.carries id' line' hline

/-- **Every step keeps track of a broadcast.** -/
theorem Tracked.on (h : s.Tracked b e audience) (step : SseStep) :
    (step.on timeout s).Tracked b e audience := by
  obtain ⟨current, left, h⟩ := h
  cases step with
  | call o => exact ⟨current, left, h.perform (fun heq => by cases heq) o⟩
  | list t event =>
      rw [SseStep.on_list]
      refine ⟨current, left, h.congr ?_⟩
      exact List.getElem?_append_left (List.getElem?_eq_some_iff.mp h.broadcast).1
  | push b' now timestamp =>
      rcases SseStep.on_push_cases timeout s b' now timestamp with
        hidle | ⟨event, id, rest, hget, hpush⟩
      · rw [hidle]
        exact ⟨current, left, h⟩
      · rw [hpush]
        by_cases hb : b' = b
        · subst hb
          obtain ⟨rfl, rfl⟩ := Broadcast.mk.inj (Option.some.inj (h.broadcast.symm.trans hget))
          exact ⟨_, _, h.push now timestamp⟩
        · have hother : some b' ≠ some b := fun heq => hb (Option.some.inj heq)
          refine ⟨current, left, (h.perform hother _).congr ?_⟩
          exact List.getElem?_set_ne hb

/-- A broadcast begins. -/
theorem Kept.tracked (h : s.Kept) (t : TaskKey) (e : SseEvent) :
    ((SseStep.list t e).on timeout s).Tracked s.broadcasts.length e
      (listed s.streamer.byTask t.1) := by
  rw [SseStep.on_list]
  have hnothing : ∀ id, deliveries s.broadcasts.length id s.log = [] := fun id =>
    h.numbers _ id le_rfl
  refine ⟨e, listed s.streamer.byTask t.1, List.getElem?_concat_length, rfl,
    h.index.nodup_listed t.1, fun id hid => ?_, fun id hid => ⟨hid, hnothing id⟩,
    fun id hid hno => absurd hid hno, fun id _ => hnothing id, fun id => ?_,
    fun id line hline => ?_⟩
  · obtain ⟨stream, hget, -⟩ := h.index.mem_listed_iff.mp hid
    exact s.streamer.fresh id (OrderedDict.mem_of_get? hget)
  · exact (congrArg List.length (hnothing id)).trans_le (Nat.zero_le _)
  · rw [show deliveries _ id s.log = [] from hnothing id] at hline
    cases hline

/-- **A broadcast is exact.**  It begins in the first state; the second state is a later one.
A stream is never opened again, so one that is open in both has been open all the time. -/
structure Delivered (t : TaskId) (e : SseEvent) (s₀ s : SseSystem) : Prop where
  once : (s.broadcasts[s₀.broadcasts.length]?).map Broadcast.left = some [] →
    ∀ id stream, s₀.streamer.streams.get? id = some stream → stream.taskId = t →
      id ∈ s.streamer.streams →
        ∃ line, deliveries s₀.broadcasts.length id s.log = [line] ∧ line.Carries e
  others : ∀ id, (∀ stream, s₀.streamer.streams.get? id = some stream → stream.taskId ≠ t) →
    deliveries s₀.broadcasts.length id s.log = []
  atMost : ∀ id, (deliveries s₀.broadcasts.length id s.log).length ≤ 1

theorem Tracked.delivered {s₀ : SseSystem} {t : TaskId} (h₀ : s₀.Kept)
    (h : s.Tracked s₀.broadcasts.length e (listed s₀.streamer.byTask t)) : Delivered t e s₀ s := by
  obtain ⟨current, left, h⟩ := h
  refine ⟨fun hover id stream hget htask hopen => ?_, fun id hno => ?_, h.atMost⟩
  · rw [h.broadcast] at hover
    have hleft : left = [] := Option.some.inj hover
    have haudience : id ∈ listed s₀.streamer.byTask t :=
      h₀.index.mem_listed_iff.mpr ⟨stream, hget, htask⟩
    have hsome := h.done id haudience (hleft ▸ List.not_mem_nil) hopen
    obtain ⟨line, hline⟩ : ∃ line, deliveries s₀.broadcasts.length id s.log = [line] := by
      refine List.length_eq_one_iff.mp (le_antisymm (h.atMost id) ?_)
      exact List.length_pos_of_ne_nil hsome
    exact ⟨line, hline, h.carries id line (hline ▸ List.mem_singleton_self line)⟩
  · refine h.others id fun haudience => ?_
    obtain ⟨stream, hget, htask⟩ := h₀.index.mem_listed_iff.mp haudience
    exact hno stream hget htask

end SseSystem

/-- **Broadcasts are exact**, in every run: the index lists the open streams of each task,
each one once; what was taken out of a stream, followed by what is in its buffer, is what
was accepted for it; and every broadcast is delivered. -/
theorem broadcast_exact (timeout : Time) (steps : List SseStep) :
    (∀ t, (listed (sseAfter timeout steps).streamer.byTask t).Nodup ∧
      ∀ id, id ∈ listed (sseAfter timeout steps).streamer.byTask t ↔
        ∃ stream, (sseAfter timeout steps).streamer.streams.get? id = some stream ∧
          stream.taskId = t) ∧
    (∀ id, readOn id (sseAfter timeout steps).log ++ (sseAfter timeout steps).buffer id =
      acceptedOn id (sseAfter timeout steps).log) ∧
    ∀ before t e after, steps = before ++ SseStep.list t e :: after →
      SseSystem.Delivered t.1 e (sseAfter timeout before) (sseAfter timeout steps) := by
  have hkept := SseSystem.kept_after timeout steps
  refine ⟨fun t => ⟨hkept.index.nodup_listed t, fun id => hkept.index.mem_listed_iff⟩,
    hkept.flow, ?_⟩
  rintro before t e after rfl
  have hbefore := SseSystem.kept_after timeout before
  have hrun : sseAfter timeout (before ++ SseStep.list t e :: after) =
      Sequential.run (SseStep.on timeout) after
        ((SseStep.list t e).on timeout (sseAfter timeout before)) := Sequential.run_append ..
  refine SseSystem.Tracked.delivered hbefore ?_
  rw [hrun]
  exact Sequential.run_invariant (fun step _ h => h.on step) after (hbefore.tracked t e)

end HermesA2A
