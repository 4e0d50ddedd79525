import HermesA2A.Lib.GroupIndex
import HermesA2A.Lib.Sequential
import HermesA2A.Server.Streams

/-!
# The streams and their index

`SSEStreamer` keeps the open streams in one dictionary and the stream ids of each task in
another.  Two of its methods remove streams, by different code.

* `StreamerCall` — the operations, each one under the lock.
* `removed_closeStream`, `removed_closeIdleStreams` — both removals take from the index
  what they take from the streams.
* `coherent_on` — every operation keeps the index coherent.
-/

namespace HermesA2A

open GroupIndex

/-- A task id that can be a dictionary key, as every text can. -/
abbrev TaskKey := { t : TaskId // t.hashable = true }

/-- The operations of the streamer.  `pushEvent` takes two clock readings, one of them as
a text. -/
inductive StreamerCall
  | openStream (now : Time) (t : TaskKey)
  | pushEvent (now : Time) (timestamp : String) (id : StreamId) (event : SseEvent)
  | getPending (id : StreamId)
  | closeStream (id : StreamId)
  | closeIdleStreams (now : Time)

/-- What an operation does to the streamer. -/
def StreamerCall.on (timeout : Time) : StreamerCall → SseStreamer → SseStreamer
  | openStream now t, s => (s.openStream now t).2
  | pushEvent now timestamp id event, s => (s.pushEvent now timestamp id event).2
  | getPending id, s => (s.getPending id).2
  | closeStream id, s => s.closeStream id
  | closeIdleStreams now, s => s.closeIdleStreams now timeout

namespace SseStreamer

/-- The index lists the open streams of each task. -/
abbrev Coherent (s : SseStreamer) : Prop :=
  GroupIndex.Coherent SseStream.taskId s.streams s.byTask

/-- One streamer has the streams of another that `keep` says, and its index so. -/
abbrev RemovedTo (keep : StreamId → Bool) (s s' : SseStreamer) : Prop :=
  Removed keep s.streams s'.streams s.byTask s'.byTask

/-! ### Opening and writing -/

variable {s : SseStreamer} {id : StreamId} {stream : SseStream} {now timeout : Time}

theorem notMem_next (s : SseStreamer) : s.next ∉ s.streams := fun h => (s.fresh _ h).false

theorem byTask_openStream (t : TaskKey) :
    (s.openStream now t).2.byTask = file s.byTask t.1 s.next := if_pos t.2

theorem coherent_openStream (h : s.Coherent) (t : TaskKey) :
    ((s.openStream now t).2).Coherent := by
  unfold Coherent
  rw [byTask_openStream]
  exact h.file ⟨t.1, now, [], 0, none⟩ s.notMem_next

theorem byTask_pushEvent (s : SseStreamer) (now : Time) (timestamp : String) (id : StreamId)
    (e : SseEvent) : (s.pushEvent now timestamp id e).2.byTask = s.byTask := by
  unfold pushEvent
  split <;> rfl

theorem byTask_getPending (s : SseStreamer) (id : StreamId) :
    (s.getPending id).2.byTask = s.byTask := by
  unfold getPending
  split <;> rfl

/-- A stream that changes, and not its task. -/
theorem coherent_update {stream' : SseStream} (h : s.Coherent)
    (hget : s.streams.get? id = some stream) (htask : stream'.taskId = stream.taskId) :
    (s.update id stream' (OrderedDict.mem_of_get? hget)).Coherent := h.update hget htask

theorem coherent_pushEvent (h : s.Coherent) (timestamp : String) (e : SseEvent) :
    ((s.pushEvent now timestamp id e).2).Coherent := by
  unfold pushEvent
  split
  · exact h
  · rename_i stream hget
    exact coherent_update h hget rfl

theorem coherent_getPending (h : s.Coherent) : ((s.getPending id).2).Coherent := by
  unfold getPending
  split
  · exact h
  · rename_i stream hget
    exact coherent_update h hget rfl

/-! ### Removing -/

/-- What a removal does to the index: it looks whether the id is there. -/
theorem get?_byTask_drop (t t' : TaskId) :
    (s.drop id t).byTask.get? t' =
      if t' = t then (s.byTask.get? t').map (·.erase id) else s.byTask.get? t' := by
  unfold drop
  cases hget : s.byTask.get? t with
  | none =>
      by_cases ht : t' = t
      · subst ht
        simp [hget]
      · simp [ht]
  | some ids =>
      by_cases hid : id ∈ ids
      · by_cases ht : t' = t
        · subst ht
          simp [hget, hid]
        · simp [hid, ht, OrderedDict.get?_set]
      · by_cases ht : t' = t
        · subst ht
          simp [hget, hid, List.erase_of_not_mem hid]
        · simp [hid, ht]

theorem removed_drop (h : s.Coherent) (hget : s.streams.get? id = some stream) :
    RemovedTo (fun id' => id' ≠ id) s (s.drop id stream.taskId) := by
  refine removed_erase h hget fun t => ?_
  exact get?_byTask_drop ..

/-- `close_stream` on an open stream. -/
theorem removed_closeStream (h : s.Coherent) (hget : s.streams.get? id = some stream) :
    RemovedTo (fun id' => id' ≠ id) s (s.closeStream id) := by
  unfold closeStream
  rw [hget]
  exact removed_drop h hget

/-- The streams that a sweep closes. -/
def idleIds (s : SseStreamer) (now timeout : Time) : List StreamId :=
  (s.streams.entries.filter fun e => idle now timeout e.2).map Prod.fst

theorem mem_idleIds_iff (hget : s.streams.get? id = some stream) :
    id ∈ s.idleIds now timeout ↔ idle now timeout stream = true := by
  constructor
  · intro h
    obtain ⟨⟨id', stream'⟩, he, rfl⟩ := List.mem_map.mp h
    obtain ⟨hmem, hidle⟩ := List.mem_filter.mp he
    rw [OrderedDict.get?_eq_some_iff.mpr hmem] at hget
    exact Option.some.inj hget ▸ hidle
  · intro hidle
    exact List.mem_map_of_mem (f := Prod.fst)
      (List.mem_filter.mpr ⟨OrderedDict.get?_eq_some_iff.mp hget, hidle⟩)

/-- `_close_idle_streams` -/
theorem removed_closeIdleStreams (h : s.Coherent) :
    RemovedTo (fun id => id ∉ s.idleIds now timeout) s (s.closeIdleStreams now timeout) := by
  unfold closeIdleStreams
  rw [← List.foldl_filter]
  refine removed_foldl streams byTask Prod.fst Prod.snd
    (fun s e hs hget => removed_drop hs hget) _ ?_ s h fun e he => ?_
  · exact s.streams.nodup_keys.sublist (List.filter_sublist.map Prod.fst)
  · exact OrderedDict.get?_eq_some_iff.mpr (List.mem_filter.mp he).1

/-- **Every operation keeps the index coherent.** -/
theorem coherent_on (o : StreamerCall) (h : s.Coherent) : (o.on timeout s).Coherent := by
  cases o with
  | openStream now t => exact coherent_openStream h t
  | pushEvent now timestamp id event => exact coherent_pushEvent h timestamp event
  | getPending id => exact coherent_getPending h
  | closeStream id =>
      cases hget : s.streams.get? id with
      | none =>
          show (s.closeStream id).Coherent
          unfold closeStream
          rw [hget]
          exact h
      | some stream => exact (removed_closeStream h hget).coherent h
  | closeIdleStreams now => exact (removed_closeIdleStreams h).coherent h

/-! ### Which streams are open -/

/-- Numbers only go up. -/
theorem next_le_on (o : StreamerCall) (s : SseStreamer) : s.next ≤ (o.on timeout s).next := by
  cases o with
  | openStream now t => exact Nat.le_succ _
  | pushEvent now timestamp id event => exact (next_pushEvent ..).ge
  | getPending id => exact (next_getPending ..).ge
  | closeStream id => exact (next_closeStream ..).ge
  | closeIdleStreams now => exact (next_closeIdleStreams ..).ge

theorem mem_pushEvent_iff {id' : StreamId} (timestamp : String) (e : SseEvent) :
    id ∈ (s.pushEvent now timestamp id' e).2.streams ↔ id ∈ s.streams := by
  rw [← not_iff_not, ← OrderedDict.get?_eq_none_iff, ← OrderedDict.get?_eq_none_iff,
    get?_pushEvent]
  split_ifs with h
  · rw [h, Option.map_eq_none_iff]
  · rfl

theorem mem_getPending_iff {id' : StreamId} :
    id ∈ (s.getPending id').2.streams ↔ id ∈ s.streams := by
  rw [← not_iff_not, ← OrderedDict.get?_eq_none_iff, ← OrderedDict.get?_eq_none_iff,
    get?_getPending]
  split_ifs with h
  · rw [h, Option.map_eq_none_iff]
  · rfl

/-- The two removals leave a stream alone, or it is gone. -/
theorem get?_closeStream_cases (s : SseStreamer) (id id' : StreamId) :
    (s.closeStream id').streams.get? id = none ∨
      (s.closeStream id').streams.get? id = s.streams.get? id := by
  rw [get?_closeStream]
  split_ifs
  · exact Or.inl rfl
  · exact Or.inr rfl

theorem get?_closeIdleStreams_cases (s : SseStreamer) (now timeout : Time) (id : StreamId) :
    (s.closeIdleStreams now timeout).streams.get? id = none ∨
      (s.closeIdleStreams now timeout).streams.get? id = s.streams.get? id := by
  rw [get?_closeIdleStreams]
  cases s.streams.get? id with
  | none => exact Or.inl rfl
  | some stream =>
      rw [Option.filter_some]
      split_ifs
      · exact Or.inr rfl
      · exact Or.inl rfl

/-- A stream that is open was open before, or it is the new one. -/
theorem mem_of_mem_on {o : StreamerCall} (h : id ∈ (o.on timeout s).streams) :
    id ∈ s.streams ∨ id = s.next := by
  have hsame : ∀ {s' : SseStreamer}, id ∈ s'.streams →
      (s'.streams.get? id = none ∨ s'.streams.get? id = s.streams.get? id) → id ∈ s.streams := by
    rintro s' hmem (hnone | hget)
    · exact absurd hmem (OrderedDict.get?_eq_none_iff.mp hnone)
    · obtain ⟨stream, hstream⟩ := OrderedDict.mem_iff_exists.mp hmem
      exact OrderedDict.mem_of_get? (hget.symm.trans hstream)
  cases o with
  | openStream now t => exact (OrderedDict.mem_set_iff.mp h).symm
  | pushEvent now timestamp id' event => exact Or.inl ((mem_pushEvent_iff ..).mp h)
  | getPending id' => exact Or.inl (mem_getPending_iff.mp h)
  | closeStream id' => exact Or.inl (hsame h (get?_closeStream_cases ..))
  | closeIdleStreams now => exact Or.inl (hsame h (get?_closeIdleStreams_cases ..))

end SseStreamer

end HermesA2A
