import HermesA2A.Streaming
import HermesA2A.SingleResponse

/-!
# What a subscriber sees

A subscriber should see each event that is pushed to its stream, once, and one ending.  The
buffer does its part: what was pushed has been taken out or is still there (`pushed_eq`).

But the end of a task has two ways to the client.  The hook pushes it like every change of
state, and the loop sees it in the queue and announces it by itself, so the usual end is told
twice.  And the loop closes the stream with what is in the buffer, although `close_stream` is
said to flush it; a stream that is idle is closed under the loop, which then leaves without a
word; and the time can be over when the task is over as well.

`Spares id` are the runs in which none of this happens to the stream `id`.  In these its
subscriber sees what it should.
-/

namespace HermesA2A

/-! ### What there is to see -/

/-- What has been pushed to a stream while it was open. -/
def pushedTo (id : StreamId) (h : List ServerEvent) : List SseLine := h.flatMap (pushedBy id)

/-- All steps that have been performed. -/
def eventsOf (c : ServerConfig) : List ServerEvent := c.trace.map Prod.snd

/-- **Each event once and one ending**: the pushed messages among what was received are those
that were pushed, in that order, and what was received last, and only that, says that the task
is over. -/
structure SeenOnce (received pushed : List SseLine) : Prop where
  pushed : received.filter SseLine.isPushed = pushed
  ending : ∃ before last, received = before ++ [last] ∧ last.isLast = true ∧
    ∀ line ∈ before, line.isLast = false

/-- What spares the stream `id`: while it is open no end of a task is pushed to it; it is
closed with an empty buffer only; it is still there when its loop asks; and it does not time
out.  A stream that times out before its task is over has no client that stays to the end. -/
def Spares (site : Site) (id : StreamId) :
    Machine.Guard ServerOp ServerOp.Res ServerState ServerCall ServerOutcome := fun c _ o =>
  match o with
  | .pushEvent id' e => id' = id → id ∈ c.shared.streams.streams → e.isLast = false
  | .closeStream id' => id' = id → c.shared.streams.held id = []
  | .closeIdleStreams => ∀ stream ∈ c.shared.streams.streams.get? id,
      SseStreamer.idle c.shared.world.clock site.idleTimeout stream = true → stream.pending = []
  | .isClosed id' => id' = id → id ∈ c.shared.streams.streams
  | .sendLine id' .timedOut => id' ≠ id
  | _ => True

instance (site : Site) (id : StreamId) (c : ServerConfig) (i : ℕ) (o : ServerOp) :
    Decidable (Spares site id c i o) := by
  cases o with
  | pushEvent id' e =>
      exact inferInstanceAs (Decidable (id' = id → id ∈ c.shared.streams.streams → e.isLast = false))
  | closeStream id' => exact inferInstanceAs (Decidable (id' = id → c.shared.streams.held id = []))
  | closeIdleStreams =>
      exact inferInstanceAs (Decidable (∀ stream ∈ c.shared.streams.streams.get? id,
        SseStreamer.idle c.shared.world.clock site.idleTimeout stream = true →
          stream.pending = []))
  | isClosed id' => exact inferInstanceAs (Decidable (id' = id → id ∈ c.shared.streams.streams))
  | sendLine id' line =>
      cases line with
      | timedOut => exact inferInstanceAs (Decidable (id' ≠ id))
      | _ => exact inferInstanceAs (Decidable True)
  | _ => exact inferInstanceAs (Decidable True)

/-! ### The numbers of streams -/

/-- Numbers only go up. -/
theorem ServerOp.next_le_onStreams (site : Site) (now : Time) (o : ServerOp) (s : SseStreamer) :
    s.next ≤ (o.onStreams site now s).next := by
  cases o with
  | openStream t => exact Nat.le_succ _
  | pushEvent id e => exact (SseStreamer.next_pushEvent ..).ge
  | closeStream id => exact (SseStreamer.next_closeStream ..).ge
  | getPending id => exact (SseStreamer.next_getPending ..).ge
  | closeIdleStreams => exact (SseStreamer.next_closeIdleStreams ..).ge
  | _ => exact le_rfl

/-- The stream has been opened, and is not open any more. -/
def SseStreamer.Retired (s : SseStreamer) (id : StreamId) : Prop := id < s.next ∧ id ∉ s.streams

/-- **A stream that was closed stays closed.** -/
theorem SseStreamer.Retired.onStreams {s : SseStreamer} {id : StreamId} (h : s.Retired id)
    (site : Site) (now : Time) (o : ServerOp) : (o.onStreams site now s).Retired id := by
  obtain ⟨hlt, hclosed⟩ := h
  refine ⟨hlt.trans_le (o.next_le_onStreams site now s), ?_⟩
  rw [← OrderedDict.get?_eq_none_iff] at hclosed ⊢
  cases o with
  | openStream t => exact (get?_openStream ..).trans ((if_neg hlt.ne).trans hclosed)
  | pushEvent id' e =>
      refine (get?_pushEvent ..).trans ?_
      split_ifs with hid
      · rw [← hid, hclosed]
        rfl
      · exact hclosed
  | closeStream id' =>
      refine (get?_closeStream ..).trans ?_
      rw [hclosed, ite_self]
  | getPending id' =>
      refine (get?_getPending ..).trans ?_
      split_ifs with hid
      · rw [← hid, hclosed]
        rfl
      · exact hclosed
  | closeIdleStreams =>
      refine (get?_closeIdleStreams ..).trans ?_
      rw [hclosed]
      rfl
  | _ => exact hclosed

/-! ### Runs -/

section Run

variable {site : Site} {clock : Time} {c : ServerConfig} {id : StreamId}

/-- Where the stream is spared, a step puts into its buffer what it pushes, and takes out what it
flushes, and does nothing else to it. -/
theorem held_of_spares {b : ServerConfig} {i : ℕ} {o : ServerOp} (h : Spares site id b i o) :
    b.shared.streams.held id ++ pushedBy id ⟨o, o.answer site b.shared⟩ =
      flushedBy id ⟨o, o.answer site b.shared⟩ ++ (o.after site b.shared).streams.held id := by
  cases o with
  | openStream t => exact (List.append_nil _).trans (SseStreamer.held_openStream ..).symm
  | pushEvent id' e => exact (SseStreamer.held_pushEvent ..).symm
  | getPending id' => exact (List.append_nil _).trans (SseStreamer.held_getPending ..)
  | closeStream id' => exact (List.append_nil _).trans (SseStreamer.held_closeStream _ _ _ h).symm
  | closeIdleStreams =>
      exact (List.append_nil _).trans (SseStreamer.held_closeIdleStreams _ _ _ _ h).symm
  | _ => exact List.append_nil _

/-- **What was pushed to the stream has been taken out of its buffer**, or is still there. -/
theorem pushedTo_eq (hc : (httpServer site).Reaches (Spares site id) (ServerState.init clock) c) :
    pushedTo id (eventsOf c) = flushed id (eventsOf c) ++ c.shared.streams.held id := by
  refine hc.conserves (fun s => s.streams.held id) rfl (fun e s => ?_) ?_
  · cases e <;> rfl
  · intro b i o r s' hok hserve
    obtain ⟨-, rfl, rfl⟩ := serve_eq_some_iff.mp hserve
    exact held_of_spares hok

/-- Every answer in every run is good. -/
theorem streamsWell_of_reaches
    (hc : (httpServer site).Reaches anyServerStep (ServerState.init clock) c) {i : ℕ}
    {e : ServerEvent} (h : (i, e) ∈ c.trace) : StreamsWell e.op e.res := by
  have hprog : ∀ x : ServerCall, KeepsTo (fun _ => False) (x.rights fun _ _ => True)
      (x.prog site) fun _ => True :=
    prog_keepsTo site (fun _ _ _ => trivial) fun _ _ _ _ _ => trivial
  obtain ⟨x, -, -, hgood⟩ := hc.relies_event (sound_init_empty clock)
    (fun e s hs => hs.move e) (sound_of_serve _) hprog h
  refine ⟨hgood, ?_⟩
  obtain ⟨tr₁, tr₂, htrace⟩ := List.append_of_mem h
  obtain ⟨b, y, k, s', hb, -, -, -, hserve, -⟩ := hc.event htrace
  obtain ⟨op, res⟩ := e
  obtain ⟨hblocked, hres, -⟩ := serve_eq_some_iff.mp hserve
  cases op with
  | base o => exact (answersWell_of_reaches hc h).2
  | openStream t =>
      obtain rfl : res = (b.shared.streams.openStream b.shared.world.clock t).1 := hres
      change (if t.hashable = true then .ok b.shared.streams.next else .error .typeError :
        Except PyError StreamId).isOk = t.hashable
      split_ifs with ht
      · exact ht.symm
      · exact (Bool.eq_false_of_not_eq_true ht).symm
  | halt => cases hblocked
  | _ => exact trivial

/-- The stream is opened by this step. -/
def Opens (id : StreamId) (e : ℕ × ServerEvent) : Prop := opened? e.2 = some id

/-- **Each stream has one thread**, and a number below the next one. -/
theorem opens_unique (hc : (httpServer site).Reaches anyServerStep (ServerState.init clock) c) :
    (∀ e ∈ c.trace, Opens id e → id < c.shared.streams.next) ∧
      ∀ e ∈ c.trace, ∀ e' ∈ c.trace, Opens id e → Opens id e' → e.1 = e'.1 := by
  refine hc.invariant (I := fun tr s => (∀ e ∈ tr, Opens id e → id < s.streams.next) ∧
    ∀ e ∈ tr, ∀ e' ∈ tr, Opens id e → Opens id e' → e.1 = e'.1) ?_ ?_ ?_
  · exact ⟨fun _ h => absurd h List.not_mem_nil, fun _ h => absurd h List.not_mem_nil⟩
  · intro tr s e hs
    cases e <;> exact hs
  · intro b i x o k r s' _ hs _ _ hserve
    obtain ⟨-, rfl, rfl⟩ := serve_eq_some_iff.mp hserve
    -- a new stream has the next number, and the next number moves on
    have hnew : Opens id (i, ⟨o, o.answer site b.shared⟩) →
        id = b.shared.streams.next ∧ id < (o.after site b.shared).streams.next := by
      intro hopens
      cases o with
      | openStream t =>
          change opened? ⟨.openStream t, if t.hashable = true then .ok b.shared.streams.next
            else .error .typeError⟩ = some id at hopens
          split_ifs at hopens
          · obtain rfl := Option.some.inj hopens
            exact ⟨rfl, Nat.lt_succ_self _⟩
          · cases hopens
      | _ => cases hopens
    have hle := o.next_le_onStreams site b.shared.world.clock b.shared.streams
    refine ⟨fun e he hopens => ?_, fun e he e' he' hopens hopens' => ?_⟩
    · rcases List.mem_append.mp he with he | he
      · exact (hs.1 e he hopens).trans_le hle
      · obtain rfl := List.mem_singleton.mp he
        exact (hnew hopens).2
    · rcases List.mem_append.mp he with he | he <;> rcases List.mem_append.mp he' with he' | he'
      · exact hs.2 e he e' he' hopens hopens'
      · obtain rfl := List.mem_singleton.mp he'
        exact absurd (hnew hopens').1 (hs.1 e he hopens).ne
      · obtain rfl := List.mem_singleton.mp he
        exact absurd (hnew hopens).1 (hs.1 e' he' hopens').ne
      · rw [List.mem_singleton.mp he, List.mem_singleton.mp he']

/-- **Whoever takes a step on a stream has opened it**, at once or before. -/
theorem opens_of_stream? (hc : (httpServer site).Reaches anyServerStep (ServerState.init clock) c)
    {i : ℕ} {x : ServerCall} {o : ServerOp} {k : o.Res → ServerProc ServerOutcome}
    (hthread : c.threads[i]? = some (x, .step o k)) (ho : o.stream? = some id) :
    ∃ e, (i, e) ∈ c.trace ∧ opened? e = some id := by
  have hgood : ∀ e ∈ c.history i, StreamsWell e.op e.res :=
    fun e he => streamsWell_of_reaches hc (Machine.mem_historyOf.mp he)
  obtain ⟨e, he, hopened⟩ := hc.yields_next (prog_converses site) hthread hgood id ho
  exact ⟨e, Machine.mem_historyOf.mp he, hopened⟩

/-- The same, of a step that was taken. -/
theorem opens_of_mem (hc : (httpServer site).Reaches anyServerStep (ServerState.init clock) c)
    {i : ℕ} {a : ServerEvent} (h : (i, a) ∈ c.trace) (ha : a.op.stream? = some id) :
    ∃ e, (i, e) ∈ c.trace ∧ opened? e = some id := by
  obtain ⟨tr₁, tr₂, htrace⟩ := List.append_of_mem h
  obtain ⟨b, x, k, s', hb, rfl, hthread, -, -, -⟩ := hc.event htrace
  obtain ⟨e, he, hopened⟩ := opens_of_stream? hb hthread ha
  refine ⟨e, ?_, hopened⟩
  rw [htrace]
  exact List.mem_append_left _ he

/-- **A stream that its thread has closed** is not open any more. -/
theorem retired_of_closed
    (hc : (httpServer site).Reaches anyServerStep (ServerState.init clock) c) :
    ∀ e ∈ c.trace, e.2 = ⟨.closeStream id, ()⟩ → c.shared.streams.Retired id := by
  refine hc.invariant (I := fun tr s => ∀ e ∈ tr, e.2 = ⟨.closeStream id, ()⟩ →
    s.streams.Retired id) (fun _ h => absurd h List.not_mem_nil) ?_ ?_
  · intro tr s e hs
    cases e <;> exact hs
  · intro b i x o k r s' hb hs hthread _ hserve e he heq
    obtain ⟨-, rfl, rfl⟩ := serve_eq_some_iff.mp hserve
    rcases List.mem_append.mp he with he | he
    · exact (hs e he heq).onStreams site b.shared.world.clock o
    · obtain rfl := List.mem_singleton.mp he
      cases heq
      obtain ⟨e, he, hopened⟩ := opens_of_stream? hb hthread rfl
      refine ⟨?_, ?_⟩
      · exact ((opens_unique hb).1 _ he hopened).trans_le
          (ServerOp.next_le_onStreams site b.shared.world.clock (.closeStream id) _)
      · rw [← OrderedDict.get?_eq_none_iff]
        exact (SseStreamer.get?_closeStream ..).trans (if_pos rfl)

/-- Who has hung up stays away. -/
theorem gone_of_steps {b : ServerConfig}
    (hsteps : Relation.ReflTransGen ((httpServer site).Step anyServerStep) b c)
    (h : id ∈ b.shared.gone) : id ∈ c.shared.gone := by
  refine Machine.kept_of_steps (I := fun s => id ∈ s.gone) ?_ ?_ hsteps h
  · intro e s hs
    cases e with
    | tick d => exact hs
    | hangUp id' => exact List.mem_cons_of_mem _ hs
  · intro o s r s' hs hserve
    obtain ⟨-, -, rfl⟩ := serve_eq_some_iff.mp hserve
    exact hs

/-- **On a stream that is spared, with a client that stays, nothing goes wrong.** -/
theorem smooth_of_spares
    (hc : (httpServer site).Reaches (Spares site id) (ServerState.init clock) c)
    (hstays : id ∉ c.shared.gone) {i : ℕ} {e : ServerEvent} (h : (i, e) ∈ c.trace) :
    Smooth id e := by
  obtain ⟨tr₁, tr₂, htrace⟩ := List.append_of_mem h
  obtain ⟨b, x, k, s', hb, -, -, hok, hserve, hsteps⟩ := hc.event htrace
  obtain ⟨op, res⟩ := e
  obtain ⟨-, hres, -⟩ := serve_eq_some_iff.mp hserve
  cases op with
  | sendLine id' line =>
      rintro rfl
      have hthere : id' ∉ b.shared.gone := by
        have hsteps : Relation.ReflTransGen ((httpServer site).Step anyServerStep) b c :=
          Relation.ReflTransGen.mono (fun _ _ => Machine.Step.mono fun _ _ _ _ => trivial) _ _ hsteps
        exact fun hgone => hstays (gone_of_steps hsteps hgone)
      refine ⟨hres.trans (decide_eq_true hthere), ?_⟩
      rintro rfl
      exact hok rfl
  | isClosed id' =>
      rintro rfl
      obtain ⟨stream, hstream⟩ := OrderedDict.mem_iff_exists.mp (hok rfl)
      refine hres.trans ?_
      change (b.shared.streams.streams.get? id').isNone = false
      rw [hstream]
      rfl
  | _ => exact trivial

/-- **What is pushed to a stream that is spared** is not the end. -/
theorem pushed_of_spares
    (hc : (httpServer site).Reaches (Spares site id) (ServerState.init clock) c) :
    ∀ line ∈ pushedTo id (eventsOf c), line.isPushed = true ∧ line.isLast = false := by
  intro line hline
  obtain ⟨e, he, hpushed⟩ := List.mem_flatMap.mp hline
  obtain ⟨⟨i, e⟩, h, rfl⟩ := List.mem_map.mp he
  obtain ⟨tr₁, tr₂, htrace⟩ := List.append_of_mem h
  obtain ⟨b, x, k, s', hb, -, -, hok, hserve, -⟩ := hc.event htrace
  obtain ⟨op, res⟩ := e
  obtain ⟨-, hres, -⟩ := serve_eq_some_iff.mp hserve
  cases op with
  | pushEvent id' e =>
      obtain rfl : res = (b.shared.streams.pushEvent b.shared.world.clock
        (site.isoNow b.shared.world.clock) id' e).1 := hres
      change line ∈ (if id' = id then _ else []) at hpushed
      by_cases hid : id' = id
      · rw [if_pos hid] at hpushed
        obtain ⟨stream, hstream, rfl⟩ := SseStreamer.mem_line_pushEvent _ _ _ hpushed
        subst hid
        have hlast := hok rfl (OrderedDict.mem_of_get? hstream)
        exact ⟨rfl, (stream.isLast_stamp e _).trans hlast⟩
      · rw [if_neg hid] at hpushed
        cases hpushed
  | _ => cases hpushed

end Run

/-! ### A subscriber that is told twice -/

theorem SeenOnce.countP {received pushed : List SseLine} (h : SeenOnce received pushed) :
    received.countP SseLine.isLast = 1 := by
  obtain ⟨before, last, rfl, hlast, hbefore⟩ := h.ending
  have hnone : before.countP SseLine.isLast = 0 :=
    List.countP_eq_zero.mpr fun line hline => ne_true_of_eq_false (hbefore line hline)
  rw [List.countP_append, hnone, List.countP_singleton, if_pos hlast]

/-- The stream that a step sends the head of. -/
def started? : ServerEvent → Option StreamId
  | ⟨.startStream id, _⟩ => some id
  | _ => none

theorem mem_of_started? {e : ServerEvent} {id : StreamId} (h : started? e = some id) :
    e = ⟨.startStream id, ()⟩ := by
  unfold started? at h
  split at h
  · rw [Option.some.inj h]
  · cases h

/-- A subscription to the task `a`. -/
def subscribeToA : HttpRequest := .sample "/tasks/a:subscribe" .null

/-- The thread `i` has streamed on `id`, its client has not hung up, and `p` holds of what it
has received. -/
def hasStreamed (i : ℕ) (id : StreamId) (p : List SseLine → Bool) (c : ServerConfig) : Bool :=
  (c.outcome? i).isSome && ((c.history i).any fun e => started? e == some id) &&
    !c.shared.gone.contains id && p (written id (eventsOf c))

/-- The task goes to work, is subscribed to, and is answered. -/
def toldTwiceCalls : List ServerCall :=
  [.post (.sampleMessage "a"), .preLlmCall, .get subscribeToA, .postLlmCall (.str "a") "done" 0 0]

/-- The hook is told of the answer when the stream is open. -/
def toldTwiceSchedule : List ServerMove :=
  List.replicate 3 (.act 0) ++ List.replicate 6 (.act 1) ++ List.replicate 6 (.act 2) ++
    List.replicate 6 (.act 3) ++ List.replicate 8 (.act 2)

/-- The task is subscribed to, goes to work, and is canceled. -/
def toldOnceCalls : List ServerCall :=
  [.post (.sampleMessage "a"), .get subscribeToA, .preLlmCall,
    .post (.sample "/tasks/a:cancel" (.obj []))]

/-- The loop finds what the hook has pushed, and sees the task canceled. -/
def toldOnceSchedule : List ServerMove :=
  List.replicate 3 (.act 0) ++ List.replicate 6 (.act 1) ++ List.replicate 7 (.act 2) ++
    List.replicate 3 (.act 3) ++ List.replicate 8 (.act 1)

theorem exists_hasStreamed {ok : Machine.Guard ServerOp ServerOp.Res ServerState ServerCall
      ServerOutcome} {test : ServerConfig → ℕ → ServerOp → Bool}
    (htest : ∀ c i o, test c i o = true → ok c i o) {calls : List ServerCall}
    {moves : List ServerMove} {i : ℕ} {id : StreamId} {p : List SseLine → Bool}
    (hplay : ((httpServer .sample).play test moves
      ((httpServer .sample).started (ServerState.init 0) calls)).any (hasStreamed i id p) = true) :
    ∃ c, (httpServer .sample).Reaches ok (ServerState.init 0) c ∧ c.Ended i ∧
      (i, ⟨.startStream id, ()⟩) ∈ c.trace ∧ id ∉ c.shared.gone ∧
        p (written id (eventsOf c)) = true := by
  obtain ⟨c, hc, -, hp⟩ := Machine.exists_of_play_started htest hplay
  simp only [hasStreamed, Bool.and_eq_true, Bool.not_eq_true'] at hp
  obtain ⟨⟨⟨hended, hstarted⟩, hgone⟩, hp⟩ := hp
  obtain ⟨outcome, houtcome⟩ := Option.isSome_iff_exists.mp hended
  obtain ⟨e, he, hstarted⟩ := List.any_eq_true.mp hstarted
  obtain rfl := mem_of_started? (eq_of_beq hstarted)
  refine ⟨c, hc, Machine.Config.ended_of_outcome? houtcome, Machine.mem_historyOf.mp he, ?_, hp⟩
  intro hmem
  rw [List.contains_iff_mem.mpr hmem] at hgone
  cases hgone

end HermesA2A
