import HermesA2A.Lib.Sequential
import HermesA2A.StreamDelivery

/-!
# The ids of events

`push_event` gives an event without an id the next number of the stream it is pushed
to, and a broadcast pushes one event object to all streams of a task: the oldest stream
numbers the event, the others repeat its number and leave their own counters as they
are.  When the oldest stream is closed, the next one starts to number with a counter
that has not been moved; what it has passed on before is numbered higher.

* `Feed` — the server, and all that was done to its streams.
* `FeedCall.KeepsOrder` — the oldest stream of the task has numbered an event before, or
  no open stream of the task has got one yet.
* `Numbered` — what always holds; `CaughtUp` — the counter of the oldest stream is the
  largest number of all.
* `resumable_iff` — the ids on every stream increase throughout a run exactly when all
  broadcasts keep the order.
-/

namespace HermesA2A

/-! ### Ids -/

/-- The id of the `n`th event numbered by a stream of the task. -/
def eventId (t : TaskId) (n : ℕ) : String := t.display ++ "_" ++ toString n

theorem eventId_inj {t : TaskId} {m n : ℕ} (h : eventId t m = eventId t n) : m = n := by
  have hlist := congrArg String.toList h
  simp only [eventId, String.toList_append] at hlist
  -- the digits give the number back
  have hvalue := congrArg (fun digits => Nat.ofDigitChars 10 digits 0)
    (List.append_cancel_left hlist)
  simpa [Nat.toString_eq_ofList_toDigits] using hvalue

/-- The `id:` of a message. -/
def SseLine.id? : SseLine → Option String
  | pushed event _ => event.id
  | status id _ _ => id
  | timedOut => none

/-- **The ids are usable for resumption**: they are numbered in strictly increasing
order. -/
def Resumable (t : TaskId) (ids : List (Option String)) : Prop :=
  ∃ ns : List ℕ, ids = ns.map (fun n => some (eventId t n)) ∧ ns.Pairwise (· < ·)

/-- The ids delivered on a stream. -/
def idsOn (id : StreamId) (h : List ServerEvent) : List (Option String) :=
  (pushedTo id h).map SseLine.id?

/-- The step that opened a stream. -/
abbrev opening (t : TaskId) (id : StreamId) : ServerEvent := ⟨.openStream t, .ok id⟩

/-! ### Runs -/

/-- The server, and all that was done, oldest first. -/
structure Feed where
  state : ServerState
  events : List ServerEvent

/-- The beginning. -/
def Feed.start (clock : Time) : Feed := ⟨.init clock, []⟩

/-- A call that nothing overlaps. -/
inductive FeedCall
  | openStream (t : TaskId)
  /-- The event has no id yet. -/
  | broadcast (t : TaskId) (event : SseEvent)
  | closeStream (id : StreamId)

/-- The program of a call. -/
def FeedCall.prog : FeedCall → ServerProc Unit
  | openStream t => do
      let _ ← server (.openStream t)
      return ()
  | broadcast t event => pushSse t { event with id := none }
  | closeStream id => server (.closeStream id)

/-- What a call does. -/
def FeedCall.on (site : Site) (o : FeedCall) (f : Feed) : Feed :=
  match o.prog.alone (Prog.recording (serve site)) (f.state, f.events) with
  | some (_, state, events) => ⟨state, events⟩
  | none => f

/-- The streams of a task, oldest first. -/
def SseStreamer.streamsOf (s : SseStreamer) (t : TaskId) : List StreamId :=
  (s.byTask.get? t).getD []

/-- The oldest stream of the task has numbered an event before, or no open stream of the
task has got one yet. -/
def FeedCall.KeepsOrder : FeedCall → Feed → Prop
  | broadcast t _, f =>
      (∀ first ∈ (f.state.streams.streamsOf t).head?,
        ∀ stream ∈ f.state.streams.streams.get? first, 0 < stream.sequenceCounter) ∨
      ∀ id ∈ f.state.streams.streamsOf t,
        ∀ stream ∈ f.state.streams.streams.get? id, stream.lastId = none
  | _, _ => True

instance (o : FeedCall) (f : Feed) : Decidable (o.KeepsOrder f) :=
  match o with
  | .broadcast t _ =>
      inferInstanceAs (Decidable (
        (∀ first ∈ (f.state.streams.streamsOf t).head?,
          ∀ stream ∈ f.state.streams.streams.get? first, 0 < stream.sequenceCounter) ∨
        ∀ id ∈ f.state.streams.streamsOf t,
          ∀ stream ∈ f.state.streams.streams.get? id, stream.lastId = none))
  | .openStream _ | .closeStream _ => isTrue trivial

/-- What of a stream its ids depend on. -/
structure StreamView where
  taskId : TaskId
  counter : ℕ
  lastId : Option String

/-- The view of a stream, while it is open. -/
def Feed.view (f : Feed) (id : StreamId) : Option StreamView :=
  (f.state.streams.streams.get? id).map fun stream =>
    ⟨stream.taskId, stream.sequenceCounter, stream.lastId⟩

/-- The open streams of a task. -/
abbrev Feed.streamsOf (f : Feed) (t : TaskId) : List StreamId := f.state.streams.streamsOf t

theorem keepsOrder_broadcast {t : TaskId} {e : SseEvent} {f : Feed} :
    (FeedCall.broadcast t e).KeepsOrder f ↔
      (∀ first ∈ (f.streamsOf t).head?, ∀ v ∈ f.view first, 0 < v.counter) ∨
        ∀ id ∈ f.streamsOf t, ∀ v ∈ f.view id, v.lastId = none := by
  simp [FeedCall.KeepsOrder, Feed.view]

/-! ### A broadcast -/

section Broadcast

variable {site : Site} {s : ServerState} {h : List ServerEvent} {t : TaskId} {e : SseEvent}

theorem recording_server {o : ServerOp} {α : Type} {f : o.Res → ServerProc α}
    (hblocked : o.blocked s.world = false) :
    (server o >>= f).alone (Prog.recording (serve site)) (s, h) =
      (f (o.answer site s)).alone (Prog.recording (serve site))
        (o.after site s, h ++ [⟨o, o.answer site s⟩]) := by
  show (Prog.recording (serve site) o (s, h)).bind _ = _
  unfold Prog.recording serve
  rw [if_neg (by simp [hblocked])]
  rfl

theorem idsOn_append (id : StreamId) (h h' : List ServerEvent) :
    idsOn id (h ++ h') = idsOn id h ++ idsOn id h' := by
  simp [idsOn, pushedTo]

/-- **What a broadcast does**: every stream of the list gets one message, with the id `x`,
and no counter is moved but that of the `numberer`. -/
structure Told (numberer : Option StreamId) (ids : List StreamId) (x : String)
    (f f' : Feed) : Prop where
  byTask : f'.state.streams.byTask = f.state.streams.byTask
  next : f'.state.streams.next = f.state.streams.next
  view : ∀ id, f'.view id = (f.view id).map fun v =>
    ⟨v.taskId, if numberer = some id then v.counter + 1 else v.counter,
      if id ∈ ids then some x else v.lastId⟩
  ids : ∀ id, idsOn id f'.events = idsOn id f.events ++ if id ∈ ids then [some x] else []
  openings : ∀ t id, opening t id ∈ f'.events ↔ opening t id ∈ f.events

/-- One message. -/
theorem told_pushEvent (site : Site) {id : StreamId} {stream : SseStream} {x : String}
    (hget : s.streams.streams.get? id = some stream) (hx : (stream.stamp e).id = some x) :
    (ServerOp.pushEvent id e).answer site s =
        ⟨stream.stamp e, some (.pushed (stream.stamp e) (site.isoNow s.world.clock))⟩ ∧
      Told (if e.id = none then some id else none) [id] x ⟨s, h⟩
        ⟨(ServerOp.pushEvent id e).after site s,
          h ++ [⟨.pushEvent id e, (ServerOp.pushEvent id e).answer site s⟩]⟩ := by
  have hanswer : (ServerOp.pushEvent id e).answer site s =
      ⟨stream.stamp e, some (.pushed (stream.stamp e) (site.isoNow s.world.clock))⟩ := by
    show (s.streams.pushEvent _ _ id e).1 = _
    unfold SseStreamer.pushEvent
    split
    · rename_i hnone
      rw [hget] at hnone
      cases hnone
    · rename_i stream' hsome
      obtain rfl := Option.some.inj (hget.symm.trans hsome)
      rfl
  have hsame : (s.streams.pushEvent s.world.clock (site.isoNow s.world.clock) id e).2.byTask =
      s.streams.byTask ∧
      (s.streams.pushEvent s.world.clock (site.isoNow s.world.clock) id e).2.next =
        s.streams.next := by
    unfold SseStreamer.pushEvent
    split <;> exact ⟨rfl, rfl⟩
  refine ⟨hanswer, hsame.1, hsame.2, ?_, ?_, ?_⟩
  · intro id'
    show ((s.streams.pushEvent _ _ id e).2.streams.get? id').map _ =
      ((s.streams.streams.get? id').map _).map _
    rw [SseStreamer.get?_pushEvent]
    by_cases hid : id' = id
    · subst hid
      rw [if_pos rfl, hget]
      cases he : e.id <;> simp [SseStream.buffer, he, ← hx]
    · have hne : ¬ (if e.id = none then some id else none) = some id' := by
        split_ifs
        · exact fun heq => hid (Option.some.inj heq).symm
        · exact fun heq => nomatch heq
      simp [hid, hne, Function.comp_def]
  · intro id'
    show idsOn id' (h ++ [_]) = _
    rw [idsOn_append, hanswer]
    congr 1
    by_cases hid : id = id'
    · subst hid
      simp [idsOn, pushedTo, pushedBy, SseLine.id?, hx]
    · have hid' : id' ≠ id := Ne.symm hid
      simp [idsOn, pushedTo, pushedBy, hid, hid']
  · intro t' id'
    simp

/-- Messages one after the other. -/
theorem Told.trans {numberer : Option StreamId} {id : StreamId} {ids : List StreamId}
    {x : String} {f f' f'' : Feed} (hone : Told numberer [id] x f f')
    (hrest : Told none ids x f' f'') (hnew : id ∉ ids) :
    Told numberer (id :: ids) x f f'' where
  byTask := hrest.byTask.trans hone.byTask
  next := hrest.next.trans hone.next
  view := by
    intro id'
    rw [hrest.view, hone.view, Option.map_map]
    congr 1
    funext v
    by_cases hid : id' ∈ ids <;> simp [hid]
  ids := by
    intro id'
    rw [hrest.ids, hone.ids, List.append_assoc]
    congr 1
    by_cases hid : id' = id
    · subst hid
      simp [hnew]
    · simp [hid]
  openings t' id' := (hrest.openings t' id').trans (hone.openings t' id')

/-- A step that tells nothing, first. -/
theorem Told.before {numberer : Option StreamId} {ids : List StreamId} {x : String}
    {f f' f'' : Feed} (hquiet : Told none [] x f f') (h : Told numberer ids x f' f'') :
    Told numberer ids x f f'' where
  byTask := h.byTask.trans hquiet.byTask
  next := h.next.trans hquiet.next
  view id := by
    rw [h.view, hquiet.view]
    simp
  ids id := by
    rw [h.ids, hquiet.ids]
    simp
  openings u id := (h.openings u id).trans (hquiet.openings u id)

/-- No message. -/
theorem told_nil {x : String} {f : Feed} : Told none [] x f f where
  byTask := rfl
  next := rfl
  view := by simp
  ids := by simp
  openings := by simp

theorem broadcast_cons (id : StreamId) (ids : List StreamId) (e : SseEvent) :
    broadcast (id :: ids) e =
      server (.pushEvent id e) >>= fun pushed => broadcast ids pushed.event := rfl

/-- An event that has an id. -/
theorem told_broadcast (site : Site) {x : String} (hx : e.id = some x) :
    ∀ {ids : List StreamId} {f : Feed}, ids.Nodup → (∀ id ∈ ids, (f.view id).isSome) →
      ∃ f', (broadcast ids e).alone (Prog.recording (serve site)) (f.state, f.events) =
          some ((), f'.state, f'.events) ∧ Told none ids x f f'
  | [], f, _, _ => ⟨f, rfl, told_nil⟩
  | id :: ids, f, hnodup, hopen => by
      obtain ⟨hnew, hnodup⟩ := List.nodup_cons.mp hnodup
      obtain ⟨stream, hget⟩ : ∃ stream, f.state.streams.streams.get? id = some stream := by
        simpa [Feed.view, Option.isSome_iff_exists] using hopen id List.mem_cons_self
      have hstamp : stream.stamp e = e := by simp [SseStream.stamp, hx]
      obtain ⟨hanswer, hone⟩ := told_pushEvent site (h := f.events) hget
        ((congrArg SseEvent.id hstamp).trans hx)
      rw [if_neg (by simp [hx])] at hone
      obtain ⟨f', hrun, hrest⟩ := told_broadcast site hx hnodup fun id' hid' => by
        rw [hone.view, Option.isSome_map]
        exact hopen id' (List.mem_cons_of_mem _ hid')
      have hsame : ((ServerOp.pushEvent id e).answer site f.state).event = e := by
        rw [hanswer]
        exact hstamp
      refine ⟨f', ?_, hone.trans hrest hnew⟩
      rw [broadcast_cons, recording_server rfl, hsame]
      exact hrun

/-- **A broadcast**: the oldest stream numbers the event. -/
theorem told_first (site : Site) {first : StreamId} {ids : List StreamId} {f : Feed}
    {v : StreamView}
    (he : e.id = none) (hv : f.view first = some v) (hnodup : (first :: ids).Nodup)
    (hopen : ∀ id ∈ ids, (f.view id).isSome) :
    ∃ f', (broadcast (first :: ids) e).alone (Prog.recording (serve site)) (f.state, f.events) =
        some ((), f'.state, f'.events) ∧
      Told (some first) (first :: ids) (eventId v.taskId (v.counter + 1)) f f' := by
  obtain ⟨hnew, hnodup⟩ := List.nodup_cons.mp hnodup
  obtain ⟨stream, hget, rfl⟩ := Option.map_eq_some_iff.mp hv
  have hstamp : (stream.stamp e).id =
      some (eventId stream.taskId (stream.sequenceCounter + 1)) := by
    simp [SseStream.stamp, he, eventId]
  obtain ⟨hanswer, hone⟩ := told_pushEvent site (h := f.events) hget hstamp
  rw [if_pos he] at hone
  obtain ⟨f', hrun, hrest⟩ := told_broadcast site hstamp hnodup fun id' hid' => by
    rw [hone.view, Option.isSome_map]
    exact hopen id' hid'
  have hstamped : ((ServerOp.pushEvent first e).answer site f.state).event = stream.stamp e := by
    rw [hanswer]
  refine ⟨f', ?_, hone.trans hrest hnew⟩
  rw [broadcast_cons, recording_server rfl, hstamped]
  exact hrun

end Broadcast

/-! ### What the calls do -/

section Calls

variable {site : Site} {f f' : Feed} {t : TaskId}

/-- What `open_stream` does. -/
structure Opened (t : TaskId) (f f' : Feed) : Prop where
  streamsOf : ∀ u, f'.streamsOf u =
    if t.hashable = true ∧ u = t then f.streamsOf u ++ [f.state.streams.next] else f.streamsOf u
  next : f'.state.streams.next = f.state.streams.next + 1
  view : ∀ id, f'.view id =
    if id = f.state.streams.next then some ⟨t, 0, none⟩ else f.view id
  ids : ∀ id, idsOn id f'.events = idsOn id f.events
  openings : ∀ u id, opening u id ∈ f'.events ↔
    opening u id ∈ f.events ∨ t.hashable = true ∧ u = t ∧ id = f.state.streams.next

theorem opened_openStream : Opened t f ((FeedCall.openStream t).on site f) where
  streamsOf := by
    intro u
    show ((if t.hashable = true then
      f.state.streams.byTask.set t ((f.state.streams.byTask.get? t).getD [] ++
        [f.state.streams.next]) else f.state.streams.byTask).get? u).getD [] = _
    by_cases hhash : t.hashable = true
    · by_cases hu : u = t
      · subst hu
        simp [hhash, SseStreamer.streamsOf]
      · simp [hhash, hu, SseStreamer.streamsOf, OrderedDict.get?_set]
    · simp [hhash, SseStreamer.streamsOf]
  next := rfl
  view := by
    intro id
    show ((f.state.streams.openStream _ t).2.streams.get? id).map _ = _
    rw [SseStreamer.get?_openStream]
    split_ifs <;> rfl
  ids := by
    intro id
    show idsOn id (f.events ++ [_]) = _
    rw [idsOn_append]
    simp [idsOn, pushedTo, pushedBy]
  openings := by
    intro u id
    show opening u id ∈ f.events ++ [⟨.openStream t, if t.hashable = true then _ else _⟩] ↔ _
    rw [List.mem_append, List.mem_singleton]
    by_cases hhash : t.hashable = true <;> simp [opening, hhash]

/-- What `close_stream` does. -/
structure Closed (id : StreamId) (f f' : Feed) : Prop where
  streamsOf : ∀ u, f'.streamsOf u =
    if u ∈ (f.view id).map StreamView.taskId then (f.streamsOf u).erase id else f.streamsOf u
  next : f'.state.streams.next = f.state.streams.next
  view : ∀ id', f'.view id' = if id' = id then none else f.view id'
  ids : ∀ id', idsOn id' f'.events = idsOn id' f.events
  openings : ∀ u id', opening u id' ∈ f'.events ↔ opening u id' ∈ f.events

theorem closed_closeStream {id : StreamId} : Closed id f ((FeedCall.closeStream id).on site f) where
  streamsOf := by
    intro u
    show (f.state.streams.closeStream id).streamsOf u = _
    unfold SseStreamer.closeStream
    cases hget : f.state.streams.streams.get? id with
    | none => simp [Feed.view, hget]
    | some stream =>
        have hview : (f.view id).map StreamView.taskId = some stream.taskId := by
          simp [Feed.view, hget]
        rw [hview]
        simp only [SseStreamer.drop, SseStreamer.streamsOf, Option.mem_def, Option.some.injEq]
        by_cases hu : stream.taskId = u
        · subst hu
          rw [if_pos rfl]
          cases hids : f.state.streams.byTask.get? stream.taskId with
          | none => simp [hids]
          | some ids =>
              by_cases hid : id ∈ ids
              · simp [hid]
              · simp [hid, hids, List.erase_of_not_mem]
        · rw [if_neg hu]
          congr 1
          split
          · split_ifs
            · exact OrderedDict.get?_set_of_ne _ _ (Ne.symm hu)
            · rfl
          · rfl
  next := by
    show (f.state.streams.closeStream id).next = _
    unfold SseStreamer.closeStream
    split <;> rfl
  view := by
    intro id'
    show ((f.state.streams.closeStream id).streams.get? id').map _ = _
    rw [SseStreamer.get?_closeStream]
    split_ifs <;> rfl
  ids := by
    intro id'
    show idsOn id' (f.events ++ [_]) = _
    rw [idsOn_append]
    simp [idsOn, pushedTo, pushedBy]
  openings := by
    intro u id'
    show opening u id' ∈ f.events ++ [_] ↔ _
    simp

/-- The streams of a task have been asked for. -/
def Feed.asked (f : Feed) (t : TaskId) : Feed :=
  ⟨f.state, f.events ++ [⟨.streamIdsForTask t, f.state.streams.streamIdsForTask t⟩]⟩

/-- Nothing but that. -/
theorem told_asked (x : String) : Told none [] x f (f.asked t) where
  byTask := rfl
  next := rfl
  view id := by
    show f.view id = _
    simp
  ids id := by
    show idsOn id (f.events ++ [_]) = _
    rw [idsOn_append]
    simp [idsOn, pushedTo, pushedBy]
  openings u id := by
    show opening u id ∈ f.events ++ [_] ↔ _
    simp

/-- `_push_sse` is a broadcast to the streams of the task. -/
theorem on_broadcast {e : SseEvent} {r : Feed}
    (hrun : (broadcast (if t.hashable = true then f.streamsOf t else [])
        { e with id := none }).alone (Prog.recording (serve site))
          ((f.asked t).state, (f.asked t).events) = some ((), r.state, r.events)) :
    (FeedCall.broadcast t e).on site f = r := by
  have hpush : (pushSse t { e with id := none }).alone (Prog.recording (serve site))
      (f.state, f.events) = some ((), r.state, r.events) := by
    unfold pushSse
    rw [recording_server rfl, ← hrun]
    have hanswer : (ServerOp.streamIdsForTask t).answer site f.state =
        if t.hashable = true then .ok (f.streamsOf t) else .error .typeError := rfl
    unfold Feed.asked
    rw [show f.state.streams.streamIdsForTask t = _ from hanswer, hanswer]
    split_ifs <;> rfl
  unfold FeedCall.on FeedCall.prog
  rw [hpush]

/-- Nobody listens. -/
theorem told_of_nobody {e : SseEvent} (x : String)
    (hnone : t.hashable = true → f.streamsOf t = []) :
    Told none [] x f ((FeedCall.broadcast t e).on site f) := by
  have hids : (if t.hashable = true then f.streamsOf t else []) = [] := by
    split_ifs with hhash
    · exact hnone hhash
    · rfl
  rw [on_broadcast (r := f.asked t) (by rw [hids]; rfl)]
  exact told_asked x

/-- **A broadcast** numbers the event with the counter of the oldest stream. -/
theorem told_of_first (site : Site) {e : SseEvent} {first : StreamId} {ids : List StreamId}
    {v : StreamView}
    (hhash : t.hashable = true) (hids : f.streamsOf t = first :: ids)
    (hv : f.view first = some v) (hnodup : (first :: ids).Nodup)
    (hopen : ∀ id ∈ ids, (f.view id).isSome) :
    Told (some first) (first :: ids) (eventId v.taskId (v.counter + 1)) f
      ((FeedCall.broadcast t e).on site f) := by
  obtain ⟨r, hrun, htold⟩ := told_first site (f := f.asked t)
    (e := { e with id := none }) rfl hv hnodup hopen
  rw [on_broadcast (r := r) (by rw [if_pos hhash, hids]; exact hrun)]
  exact (told_asked _).before htold

end Calls

/-! ### Resumable ids -/

theorem resumable_nil (t : TaskId) : Resumable t [] := ⟨[], rfl, .nil⟩

/-- One more id. -/
theorem resumable_snoc {t : TaskId} {ids : List (Option String)} {n : ℕ} :
    Resumable t (ids ++ [some (eventId t n)]) ↔
      Resumable t ids ∧ ∀ m, some (eventId t m) ∈ ids → m < n := by
  constructor
  · rintro ⟨ns, hns, hlt⟩
    obtain ⟨before, last, rfl, rfl, hlast⟩ := List.map_eq_append_iff.mp hns.symm
    obtain ⟨n', rfl, hn'⟩ := List.map_eq_singleton_iff.mp hlast
    obtain rfl := eventId_inj (Option.some.inj hn')
    obtain ⟨hbefore, -, hlt⟩ := List.pairwise_append.mp hlt
    refine ⟨⟨before, rfl, hbefore⟩, fun m hm => ?_⟩
    obtain ⟨m', hm', heq⟩ := List.mem_map.mp hm
    obtain rfl := eventId_inj (Option.some.inj heq)
    exact hlt _ hm' _ (List.mem_singleton_self _)
  · rintro ⟨⟨ns, rfl, hns⟩, hlt⟩
    refine ⟨ns ++ [n], by simp, List.pairwise_append.mpr ⟨hns, List.pairwise_singleton .., ?_⟩⟩
    intro m hm n' hn'
    rw [List.mem_singleton.mp hn']
    exact hlt m (List.mem_map.mpr ⟨m, hm, rfl⟩)

/-- The ids on every stream can be used for resumption. -/
def Feed.Ordered (f : Feed) : Prop :=
  ∀ t id, opening t id ∈ f.events → Resumable t (idsOn id f.events)

/-- **What always holds** of the streams and their ids. -/
structure Numbered (f : Feed) : Prop where
  /-- The index has no task id that is not hashable. -/
  hashable : ∀ t, t.hashable = false → f.streamsOf t = []
  nodup : ∀ t, (f.streamsOf t).Nodup
  indexed : ∀ t, ∀ id ∈ f.streamsOf t, opening t id ∈ f.events ∧ (f.view id).isSome
  /-- Only the oldest stream of a task numbers events. -/
  later : ∀ t, ∀ id ∈ (f.streamsOf t).tail, ∀ v ∈ f.view id, v.counter = 0
  opened : ∀ t id, opening t id ∈ f.events →
    id < f.state.streams.next ∧ ∀ v ∈ f.view id, v.taskId = t
  ahead : ∀ id, f.state.streams.next ≤ id → f.view id = none ∧ idsOn id f.events = []
  numbered : ∀ t id, opening t id ∈ f.events → ∀ x ∈ idsOn id f.events,
    ∃ n, 0 < n ∧ x = some (eventId t n)
  last : ∀ id, ∀ v ∈ f.view id, v.lastId = none ↔ idsOn id f.events = []

/-- **The oldest stream has caught up**: if it has numbered an event, it has numbered none
below what the streams of the task have passed on. -/
def CaughtUp (f : Feed) : Prop :=
  ∀ t, ∀ first ∈ (f.streamsOf t).head?, ∀ v ∈ f.view first, 0 < v.counter →
    ∀ id ∈ f.streamsOf t, ∀ n, some (eventId t n) ∈ idsOn id f.events → n ≤ v.counter

section Invariant

variable {f f' : Feed} {t : TaskId}

/-- An open stream belongs to one task. -/
theorem Numbered.taskId_eq {id : StreamId} {v : StreamView} (hnum : Numbered f)
    (hid : id ∈ f.streamsOf t) (hv : f.view id = some v) : v.taskId = t :=
  (hnum.opened t id (hnum.indexed t id hid).1).2 v hv

theorem Numbered.task_unique {id : StreamId} {u : TaskId} (hnum : Numbered f)
    (hid : id ∈ f.streamsOf t) (hid' : id ∈ f.streamsOf u) : t = u := by
  obtain ⟨v, hv⟩ := Option.isSome_iff_exists.mp (hnum.indexed t id hid).2
  exact (hnum.taskId_eq hid hv).symm.trans (hnum.taskId_eq hid' hv)

/-! #### Opening a stream -/

theorem Numbered.of_opened (hopen : Opened t f f') (hnum : Numbered f) : Numbered f' := by
  have hnew : ∀ u, f.state.streams.next ∉ f.streamsOf u := fun u hmem =>
    absurd (hnum.opened u _ (hnum.indexed u _ hmem).1).1 (Nat.lt_irrefl _)
  have hview : ∀ {u id}, id ∈ f.streamsOf u → f'.view id = f.view id := by
    intro u id hid
    rw [hopen.view, if_neg]
    rintro rfl
    exact hnew u hid
  constructor
  case hashable =>
    intro u hu
    rw [hopen.streamsOf, if_neg]
    · exact hnum.hashable u hu
    · rintro ⟨hhash, rfl⟩
      rw [hhash] at hu
      cases hu
  case nodup =>
    intro u
    rw [hopen.streamsOf]
    split_ifs
    · exact (hnum.nodup u).append (List.nodup_singleton _) (by simpa using hnew u)
    · exact hnum.nodup u
  case indexed =>
    intro u id hid
    rw [hopen.openings]
    rw [hopen.streamsOf] at hid
    have hold : ∀ {id}, id ∈ f.streamsOf u →
        (opening u id ∈ f.events ∨ t.hashable = true ∧ u = t ∧ id = f.state.streams.next) ∧
          (f'.view id).isSome := fun hid =>
      ⟨Or.inl (hnum.indexed u _ hid).1, by rw [hview hid]; exact (hnum.indexed u _ hid).2⟩
    split_ifs at hid with hu
    · rcases List.mem_append.mp hid with hid | hid
      · exact hold hid
      · obtain rfl := List.mem_singleton.mp hid
        refine ⟨Or.inr ⟨hu.1, hu.2, rfl⟩, ?_⟩
        rw [hopen.view, if_pos rfl]
        rfl
    · exact hold hid
  case later =>
    intro u id hid v hv
    rw [hopen.view] at hv
    split_ifs at hv with hid'
    · cases hv
      rfl
    · refine hnum.later u id ?_ v hv
      rw [hopen.streamsOf] at hid
      split_ifs at hid
      · cases hids : f.streamsOf u with
        | nil => simp [hids] at hid
        | cons first ids =>
            rw [hids, List.cons_append, List.tail_cons, List.mem_append] at hid
            exact hid.resolve_right fun h => hid' (List.mem_singleton.mp h)
      · exact hid
  case opened =>
    intro u id hid
    rw [hopen.next, hopen.view]
    rcases (hopen.openings u id).mp hid with hid | ⟨-, rfl, rfl⟩
    · obtain ⟨hlt, htask⟩ := hnum.opened u id hid
      rw [if_neg hlt.ne]
      exact ⟨Nat.lt_succ_of_lt hlt, htask⟩
    · rw [if_pos rfl]
      refine ⟨Nat.lt_succ_self _, ?_⟩
      rintro v ⟨⟩
      rfl
  case ahead =>
    intro id hid
    rw [hopen.next] at hid
    rw [hopen.view, hopen.ids, if_neg (Nat.ne_of_gt hid)]
    exact hnum.ahead id (Nat.le_of_succ_le hid)
  case numbered =>
    intro u id hid x hx
    rw [hopen.ids] at hx
    rcases (hopen.openings u id).mp hid with hid | ⟨-, rfl, rfl⟩
    · exact hnum.numbered u id hid x hx
    · rw [(hnum.ahead _ le_rfl).2] at hx
      cases hx
  case last =>
    intro id v hv
    rw [hopen.view] at hv
    rw [hopen.ids]
    split_ifs at hv with hid
    · subst hid
      cases hv
      exact iff_of_true rfl (hnum.ahead _ le_rfl).2
    · exact hnum.last id v hv

/-! #### Closing a stream -/

theorem Closed.sublist {id : StreamId} (hclose : Closed id f f') (u : TaskId) :
    (f'.streamsOf u).Sublist (f.streamsOf u) := by
  rw [hclose.streamsOf]
  split_ifs
  · exact List.erase_sublist
  · exact List.Sublist.refl _

/-- What is open afterwards was open before. -/
theorem Closed.view_of {id id' : StreamId} {v : StreamView} (hclose : Closed id f f')
    (hv : f'.view id' = some v) : id' ≠ id ∧ f.view id' = some v := by
  rw [hclose.view] at hv
  split_ifs at hv with hid
  exact ⟨hid, hv⟩

theorem Numbered.of_closed {id : StreamId} (hclose : Closed id f f') (hnum : Numbered f) :
    Numbered f' := by
  constructor
  case hashable =>
    intro u hu
    exact List.sublist_nil.mp (hnum.hashable u hu ▸ hclose.sublist u)
  case nodup => exact fun u => (hnum.nodup u).sublist (hclose.sublist u)
  case indexed =>
    intro u id' hid'
    obtain ⟨hopening, hsome⟩ := hnum.indexed u id' ((hclose.sublist u).subset hid')
    have hne : id' ≠ id := by
      rintro rfl
      obtain ⟨v, hv⟩ := Option.isSome_iff_exists.mp hsome
      have htask := hnum.taskId_eq ((hclose.sublist u).subset hid') hv
      rw [hclose.streamsOf, if_pos (by simp [hv, htask])] at hid'
      exact (hnum.nodup u).not_mem_erase hid'
    rw [hclose.openings, hclose.view, if_neg hne]
    exact ⟨hopening, hsome⟩
  case later =>
    intro u id' hid' v hv
    exact hnum.later u id' ((hclose.sublist u).tail.subset hid') v (hclose.view_of hv).2
  case opened =>
    intro u id' hid'
    rw [hclose.next]
    obtain ⟨hlt, htask⟩ := hnum.opened u id' ((hclose.openings u id').mp hid')
    exact ⟨hlt, fun v hv => htask v (hclose.view_of hv).2⟩
  case ahead =>
    intro id' hid'
    rw [hclose.next] at hid'
    obtain ⟨hview, hids⟩ := hnum.ahead id' hid'
    rw [hclose.view, hclose.ids, hview, ite_self]
    exact ⟨rfl, hids⟩
  case numbered =>
    intro u id' hid' x hx
    rw [hclose.ids] at hx
    exact hnum.numbered u id' ((hclose.openings u id').mp hid') x hx
  case last =>
    intro id' v hv
    rw [hclose.ids]
    exact hnum.last id' v (hclose.view_of hv).2

/-- Who becomes the oldest stream has numbered nothing. -/
theorem CaughtUp.of_closed {id : StreamId} (hclose : Closed id f f') (hnum : Numbered f)
    (hcaught : CaughtUp f) : CaughtUp f' := by
  intro u first hfirst v hv hpos id' hid' n hn
  rw [hclose.ids] at hn
  have hv' := (hclose.view_of hv).2
  refine hcaught u first ?_ v hv' hpos id' ((hclose.sublist u).subset hid') n hn
  have hmem : first ∈ f.streamsOf u :=
    (hclose.sublist u).subset (List.mem_of_mem_head? hfirst)
  cases hids : f.streamsOf u with
  | nil =>
      rw [hids] at hmem
      cases hmem
  | cons oldest ids =>
      rw [hids] at hmem
      rcases List.mem_cons.mp hmem with rfl | htail
      · rfl
      · have hzero := hnum.later u first (by rw [hids]; exact htail) v hv'
        rw [hzero] at hpos
        exact absurd hpos (Nat.lt_irrefl _)

theorem CaughtUp.of_opened (hopen : Opened t f f') (hnum : Numbered f) (hcaught : CaughtUp f) :
    CaughtUp f' := by
  intro u first hfirst v hv hpos id hid n hn
  rw [hopen.ids] at hn
  rw [hopen.view] at hv
  split_ifs at hv with hnew
  · cases hv
    cases hpos
  have hold : id ∈ f.streamsOf u := by
    rw [hopen.streamsOf] at hid
    split_ifs at hid
    · refine (List.mem_append.mp hid).resolve_right fun hid => ?_
      rw [List.mem_singleton.mp hid, (hnum.ahead _ le_rfl).2] at hn
      cases hn
    · exact hid
  refine hcaught u first ?_ v hv hpos id hold n hn
  rw [hopen.streamsOf] at hfirst
  split_ifs at hfirst
  · cases hids : f.streamsOf u with
    | nil =>
        rw [hids] at hold
        cases hold
    | cons oldest ids =>
        rw [hids] at hfirst
        exact hfirst
  · exact hfirst

/-- A step that tells nothing is no worse than closing a stream that is not open. -/
theorem Told.closed {x : String} {id : StreamId} (h : Told none [] x f f')
    (hid : f.view id = none) : Closed id f f' where
  streamsOf u := by
    rw [hid]
    exact congrArg (fun byTask => (OrderedDict.get? byTask u).getD []) h.byTask
  next := h.next
  view id' := by
    rw [h.view]
    by_cases heq : id' = id
    · rw [heq, hid, if_pos rfl]
      rfl
    · simp [heq]
  ids id' := by simp [h.ids]
  openings := h.openings

/-! #### A broadcast -/

/-- The broadcast of a task's event, numbered by its oldest stream. -/
structure ToldAll (t : TaskId) (first : StreamId) (ids : List StreamId) (v : StreamView)
    (f f' : Feed) : Prop where
  streams : f.streamsOf t = first :: ids
  oldest : f.view first = some v
  told : Told (some first) (first :: ids) (eventId t (v.counter + 1)) f f'

variable {first : StreamId} {ids : List StreamId} {v : StreamView}

theorem ToldAll.streamsOf (h : ToldAll t first ids v f f') (u : TaskId) :
    f'.streamsOf u = f.streamsOf u :=
  congrArg (fun byTask => (OrderedDict.get? byTask u).getD []) h.told.byTask

/-- The ids on a stream of the task. -/
theorem ToldAll.ids_of_mem {id : StreamId} (h : ToldAll t first ids v f f')
    (hid : id ∈ f.streamsOf t) :
    idsOn id f'.events = idsOn id f.events ++ [some (eventId t (v.counter + 1))] := by
  rw [h.told.ids, if_pos (h.streams ▸ hid)]

/-- The ids on another stream. -/
theorem ToldAll.ids_of_notMem {id : StreamId} (h : ToldAll t first ids v f f')
    (hid : id ∉ f.streamsOf t) : idsOn id f'.events = idsOn id f.events := by
  rw [h.told.ids, if_neg (h.streams ▸ hid), List.append_nil]

theorem Numbered.of_toldAll (h : ToldAll t first ids v f f') (hnum : Numbered f) :
    Numbered f' := by
  have hview : ∀ {id w'}, f'.view id = some w' → ∃ w, f.view id = some w ∧
      w'.taskId = w.taskId ∧ (id ≠ first → w'.counter = w.counter) ∧
      w'.lastId = if id ∈ f.streamsOf t then some (eventId t (v.counter + 1)) else w.lastId := by
    intro id w' hw'
    rw [h.told.view] at hw'
    obtain ⟨w, hw, rfl⟩ := Option.map_eq_some_iff.mp hw'
    refine ⟨w, hw, rfl, fun hne => if_neg fun heq => hne (Option.some.inj heq).symm, ?_⟩
    rw [h.streams]
  have hfirst : first ∈ f.streamsOf t := by simp [h.streams]
  constructor
  case hashable =>
    intro u hu
    rw [h.streamsOf]
    exact hnum.hashable u hu
  case nodup =>
    intro u
    rw [h.streamsOf]
    exact hnum.nodup u
  case indexed =>
    intro u id hid
    rw [h.streamsOf] at hid
    rw [h.told.openings, h.told.view, Option.isSome_map]
    exact hnum.indexed u id hid
  case later =>
    intro u id hid w' hw'
    rw [h.streamsOf] at hid
    obtain ⟨w, hw, -, hcounter, -⟩ := hview hw'
    have hne : id ≠ first := by
      rintro rfl
      obtain rfl := hnum.task_unique hfirst (List.mem_of_mem_tail hid)
      rw [h.streams, List.tail_cons] at hid
      exact (List.nodup_cons.mp (h.streams ▸ hnum.nodup t)).1 hid
    rw [hcounter hne]
    exact hnum.later u id hid w hw
  case opened =>
    intro u id hid
    rw [h.told.next]
    obtain ⟨hlt, htask⟩ := hnum.opened u id ((h.told.openings u id).mp hid)
    refine ⟨hlt, fun w' hw' => ?_⟩
    obtain ⟨w, hw, heq, -, -⟩ := hview hw'
    rw [heq]
    exact htask w hw
  case ahead =>
    intro id hid
    rw [h.told.next] at hid
    obtain ⟨hnone, hids⟩ := hnum.ahead id hid
    have hnot : id ∉ f.streamsOf t := fun hmem =>
      Nat.not_lt.mpr hid (hnum.opened t id (hnum.indexed t id hmem).1).1
    rw [h.told.view, hnone, h.ids_of_notMem hnot]
    exact ⟨rfl, hids⟩
  case numbered =>
    intro u id hid x hx
    have hold := (h.told.openings u id).mp hid
    by_cases hmem : id ∈ f.streamsOf t
    · rw [h.ids_of_mem hmem] at hx
      rcases List.mem_append.mp hx with hx | hx
      · exact hnum.numbered u id hold x hx
      · -- the stream was opened for this task
        obtain ⟨w, hw⟩ := Option.isSome_iff_exists.mp (hnum.indexed t id hmem).2
        obtain rfl := ((hnum.opened u id hold).2 w hw).symm.trans (hnum.taskId_eq hmem hw)
        exact ⟨_, Nat.succ_pos _, List.mem_singleton.mp hx⟩
    · rw [h.ids_of_notMem hmem] at hx
      exact hnum.numbered u id hold x hx
  case last =>
    intro id w' hw'
    obtain ⟨w, hw, -, -, hlast⟩ := hview hw'
    rw [hlast]
    by_cases hmem : id ∈ f.streamsOf t
    · rw [if_pos hmem, h.ids_of_mem hmem]
      exact iff_of_false (Option.some_ne_none _) (by simp)
    · rw [if_neg hmem, h.ids_of_notMem hmem]
      exact hnum.last id w hw

/-- **The order is kept** by a broadcast whose number is above all that the streams of the task
have passed on. -/
theorem ordered_of_toldAll (h : ToldAll t first ids v f f') (hnum : Numbered f) :
    f'.Ordered ↔ f.Ordered ∧
      ∀ id ∈ f.streamsOf t, ∀ n, some (eventId t n) ∈ idsOn id f.events → n ≤ v.counter := by
  constructor
  · intro hord
    have hmem : ∀ id ∈ f.streamsOf t, Resumable t (idsOn id f.events) ∧
        ∀ n, some (eventId t n) ∈ idsOn id f.events → n < v.counter + 1 := by
      intro id hid
      rw [← resumable_snoc, ← h.ids_of_mem hid]
      exact hord t id ((h.told.openings t id).mpr (hnum.indexed t id hid).1)
    refine ⟨fun u id hid => ?_, fun id hid n hn => Nat.le_of_lt_succ ((hmem id hid).2 n hn)⟩
    by_cases hin : id ∈ f.streamsOf t
    · obtain ⟨w, hw⟩ := Option.isSome_iff_exists.mp (hnum.indexed t id hin).2
      obtain rfl := ((hnum.opened u id hid).2 w hw).symm.trans (hnum.taskId_eq hin hw)
      exact (hmem id hin).1
    · rw [← h.ids_of_notMem hin]
      exact hord u id ((h.told.openings u id).mpr hid)
  · rintro ⟨hord, hle⟩ u id hid
    have hold := (h.told.openings u id).mp hid
    by_cases hin : id ∈ f.streamsOf t
    · obtain ⟨w, hw⟩ := Option.isSome_iff_exists.mp (hnum.indexed t id hin).2
      obtain rfl := ((hnum.opened u id hold).2 w hw).symm.trans (hnum.taskId_eq hin hw)
      rw [h.ids_of_mem hin, resumable_snoc]
      exact ⟨hord u id hold, fun n hn => Nat.lt_succ_of_le (hle id hin n hn)⟩
    · rw [h.ids_of_notMem hin]
      exact hord u id hold

/-- A broadcast is above all the others exactly when it keeps the order. -/
theorem keepsOrder_iff {e : SseEvent} (h : ToldAll t first ids v f f') (hnum : Numbered f)
    (hcaught : CaughtUp f) :
    (∀ id ∈ f.streamsOf t, ∀ n, some (eventId t n) ∈ idsOn id f.events → n ≤ v.counter) ↔
      (FeedCall.broadcast t e).KeepsOrder f := by
  rw [keepsOrder_broadcast]
  constructor
  · intro hle
    by_cases hpos : 0 < v.counter
    · left
      intro id hid w hw
      rw [h.streams, List.head?_cons] at hid
      obtain rfl := Option.some.inj hid
      obtain rfl := Option.some.inj (h.oldest.symm.trans hw)
      exact hpos
    · right
      intro id hid w hw
      rw [hnum.last id w hw, List.eq_nil_iff_forall_not_mem]
      intro x hx
      -- a number that was passed on is positive, and yet no larger than the counter
      obtain ⟨n, hn, rfl⟩ := hnum.numbered t id (hnum.indexed t id hid).1 x hx
      exact hpos (lt_of_lt_of_le hn (hle id hid n hx))
  · rintro (hpos | hnone) id hid n hn
    · have hfirst : first ∈ (f.streamsOf t).head? := by simp [h.streams]
      exact hcaught t first hfirst v h.oldest (hpos first hfirst v h.oldest) id hid n hn
    · obtain ⟨w, hw⟩ := Option.isSome_iff_exists.mp (hnum.indexed t id hid).2
      rw [(hnum.last id w hw).mp (hnone id hid w hw)] at hn
      cases hn

/-- After a broadcast in order, the oldest stream has caught up. -/
theorem CaughtUp.of_toldAll (h : ToldAll t first ids v f f') (hnum : Numbered f)
    (hcaught : CaughtUp f)
    (hle : ∀ id ∈ f.streamsOf t, ∀ n, some (eventId t n) ∈ idsOn id f.events → n ≤ v.counter) :
    CaughtUp f' := by
  intro u first' hfirst' w' hw' hpos id hid n hn
  rw [h.streamsOf] at hfirst' hid
  rw [h.told.view] at hw'
  obtain ⟨w, hw, rfl⟩ := Option.map_eq_some_iff.mp hw'
  by_cases hu : u = t
  · subst hu
    rw [h.streams, List.head?_cons] at hfirst'
    obtain rfl := Option.some.inj hfirst'
    obtain rfl := Option.some.inj (h.oldest.symm.trans hw)
    simp only [if_true]
    rw [h.ids_of_mem hid] at hn
    rcases List.mem_append.mp hn with hn | hn
    · exact Nat.le_succ_of_le (hle id hid n hn)
    · exact (eventId_inj (Option.some.inj (List.mem_singleton.mp hn))).le
  · have hne : first' ≠ first := by
      rintro rfl
      exact hu (hnum.task_unique (List.mem_of_mem_head? hfirst') (by simp [h.streams]))
    have hcounter : ¬ some first = some first' := fun heq => hne (Option.some.inj heq).symm
    have hnot : id ∉ f.streamsOf t := fun hmem => hu (hnum.task_unique hid hmem)
    simp only [if_neg hcounter] at hpos ⊢
    rw [h.ids_of_notMem hnot] at hn
    exact hcaught u first' hfirst' w hw hpos id hid n hn

/-! #### Any call -/

theorem ordered_of_closed {id : StreamId} (hclose : Closed id f f') :
    f'.Ordered ↔ f.Ordered := by
  simp only [Feed.Ordered, hclose.openings, hclose.ids]

theorem ordered_of_opened (hopen : Opened t f f') (hnum : Numbered f) :
    f'.Ordered ↔ f.Ordered := by
  constructor
  · intro hord u id hid
    rw [← hopen.ids]
    exact hord u id ((hopen.openings u id).mpr (Or.inl hid))
  · intro hord u id hid
    rw [hopen.ids]
    rcases (hopen.openings u id).mp hid with hid | ⟨-, -, rfl⟩
    · exact hord u id hid
    · rw [(hnum.ahead _ le_rfl).2]
      exact resumable_nil u

/-- Somebody listens to a broadcast, or nothing happens. -/
theorem toldAll_or_quiet (site : Site) (e : SseEvent) (hnum : Numbered f) :
    (∃ first ids v, ToldAll t first ids v f ((FeedCall.broadcast t e).on site f)) ∨
      f.streamsOf t = [] ∧
        Closed f.state.streams.next f ((FeedCall.broadcast t e).on site f) := by
  cases hids : f.streamsOf t with
  | nil =>
      have hquiet : Told none [] "" f ((FeedCall.broadcast t e).on site f) :=
        told_of_nobody "" fun _ => hids
      exact Or.inr ⟨rfl, hquiet.closed (hnum.ahead _ le_rfl).1⟩
  | cons first ids =>
      have hopen : ∀ id ∈ first :: ids, (f.view id).isSome := fun id hid =>
        (hnum.indexed t id (hids ▸ hid)).2
      obtain ⟨v, hv⟩ := Option.isSome_iff_exists.mp (hopen first List.mem_cons_self)
      have hhash : t.hashable = true := by
        by_contra hno
        rw [hnum.hashable t (Bool.eq_false_of_not_eq_true hno)] at hids
        cases hids
      have htold := told_of_first site (e := e) hhash hids hv (hids ▸ hnum.nodup t)
        fun id hid => hopen id (List.mem_cons_of_mem _ hid)
      have hmem : first ∈ f.streamsOf t := by simp [hids]
      rw [hnum.taskId_eq hmem hv] at htold
      exact Or.inl ⟨first, ids, v, hids, hv, htold⟩

/-- What always holds, and what holds as long as the ids are in order. -/
def Tracked (f : Feed) : Prop := Numbered f ∧ (f.Ordered → CaughtUp f)

/-- **A call keeps the ids in order** exactly when it keeps the order. -/
theorem ordered_on (site : Site) (o : FeedCall) (htracked : Tracked f) (hord : f.Ordered) :
    (o.on site f).Ordered ↔ o.KeepsOrder f := by
  have hnum := htracked.1
  cases o with
  | openStream t => exact iff_of_true ((ordered_of_opened opened_openStream hnum).mpr hord) trivial
  | closeStream id => exact iff_of_true ((ordered_of_closed closed_closeStream).mpr hord) trivial
  | broadcast t e =>
      rcases toldAll_or_quiet site e hnum with ⟨first, ids, v, h⟩ | ⟨hnone, hclose⟩
      · rw [ordered_of_toldAll h hnum, keepsOrder_iff (e := e) h hnum (htracked.2 hord),
          and_iff_right hord]
      · refine iff_of_true ((ordered_of_closed hclose).mpr hord) (keepsOrder_broadcast.mpr ?_)
        rw [hnone]
        exact Or.inr fun id hid => nomatch hid

theorem tracked_on (site : Site) (o : FeedCall) (htracked : Tracked f) :
    Tracked (o.on site f) := by
  obtain ⟨hnum, hcaught⟩ := htracked
  cases o with
  | openStream t =>
      have hopen : Opened t f ((FeedCall.openStream t).on site f) := opened_openStream
      refine ⟨hnum.of_opened hopen, fun hord => ?_⟩
      exact (hcaught ((ordered_of_opened hopen hnum).mp hord)).of_opened hopen hnum
  | closeStream id =>
      have hclose : Closed id f ((FeedCall.closeStream id).on site f) := closed_closeStream
      refine ⟨hnum.of_closed hclose, fun hord => ?_⟩
      exact (hcaught ((ordered_of_closed hclose).mp hord)).of_closed hclose hnum
  | broadcast t e =>
      rcases toldAll_or_quiet site e hnum with ⟨first, ids, v, h⟩ | ⟨-, hclose⟩
      · refine ⟨hnum.of_toldAll h, fun hord => ?_⟩
        obtain ⟨hbefore, hle⟩ := (ordered_of_toldAll h hnum).mp hord
        exact (hcaught hbefore).of_toldAll h hnum hle
      · refine ⟨hnum.of_closed hclose, fun hord => ?_⟩
        exact (hcaught ((ordered_of_closed hclose).mp hord)).of_closed hclose hnum

theorem tracked_start (clock : Time) : Tracked (Feed.start clock) := by
  have hnone : ∀ u, (Feed.start clock).streamsOf u = [] := fun u => rfl
  refine ⟨⟨fun u _ => hnone u, fun u => ?_, fun u id hid => ?_, fun u id hid => ?_, nofun,
    fun id _ => ⟨rfl, rfl⟩, nofun, nofun⟩, fun _ u first hfirst => ?_⟩
  · rw [hnone]
    exact List.nodup_nil
  · rw [hnone] at hid
    cases hid
  · rw [hnone] at hid
    cases hid
  · rw [hnone] at hfirst
    cases hfirst

end Invariant

/-- **The ids are usable for resumption**, throughout a run, exactly when every broadcast
keeps the order. -/
theorem resumable_iff (site : Site) (clock : Time) (calls : List FeedCall) :
    Sequential.Always (FeedCall.on site) Feed.Ordered calls (Feed.start clock) ↔
      Sequential.Each (FeedCall.on site) FeedCall.KeepsOrder calls (Feed.start clock) := by
  refine Sequential.always_iff_each (fun o f => tracked_on site o) (fun o f => ordered_on site o)
    (tracked_start clock) ?_
  intro t id hid
  exact absurd hid List.not_mem_nil

/-- Two streams; the older one is closed after the first event that both get, and the id of
the next one is lower than what the other has passed on. -/
theorem number_goes_back :
    ¬ ∀ calls, Sequential.Always (FeedCall.on Site.sample) Feed.Ordered calls
      (Feed.start 0) := by
  intro hall
  let t : TaskId := .str "a"
  let event : SseEvent := ⟨t, "working", "TaskStarted", none, .null, .status⟩
  let calls : List FeedCall :=
    [.openStream t, .broadcast t event, .openStream t, .broadcast t event, .closeStream 0,
      .broadcast t event]
  have hids : idsOn 1 (Sequential.run (FeedCall.on Site.sample) calls (Feed.start 0)).events =
      [some (eventId t 2)] ++ [some (eventId t 1)] := by decide +kernel
  -- the stream that is left is one of the task's
  have htracked : Tracked (Sequential.run (FeedCall.on Site.sample) calls (Feed.start 0)) :=
    Sequential.run_invariant (fun o f => tracked_on Site.sample o) calls (tracked_start 0)
  have hopening := (htracked.1.indexed t 1 (by decide +kernel)).1
  have hord := Sequential.always_iff.mp (hall calls) calls [] (List.append_nil _).symm
  have hres := hord t 1 hopening
  rw [hids, resumable_snoc] at hres
  exact absurd (hres.2 2 (List.mem_singleton_self _)) (by decide)

end HermesA2A
