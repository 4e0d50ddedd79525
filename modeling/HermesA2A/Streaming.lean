import HermesA2A.Responses

/-!
# What a thread does on its stream

A handler that streams opens one stream, sends its head, and from then on all it has to do
with streams it does on that one.  It greets the client with the state of the task, goes on
to send what it finds in the buffer, and when it sees that the task is over it says so and
closes the stream.

What a client reads then is what was taken out of the buffer, with a greeting before it and
an ending after it (`Conversed`), unless something comes in between: the client hangs up, the
stream is closed by someone else, or the time is over (`Smooth`).

All other handlers have nothing to do with streams but to push events; that they have no right
to them is known already (`HandlerKeepsTo`).
-/

namespace HermesA2A

/-! ### Messages -/

/-- Was the message pushed? -/
def SseLine.isPushed : SseLine → Bool
  | pushed .. => true
  | _ => false

/-- Does the message say that the task is over? -/
def SseLine.isLast (line : SseLine) : Bool :=
  match line.state? with
  | some (.str name) =>
      [TaskState.completed, .failed, .canceled, .rejected].any fun s => name == s.name
  | _ => false

/-- A message with a state says that the task is over if the state is terminal. -/
theorem SseLine.isLast_of_state {line : SseLine} {s : TaskState}
    (h : line.state? = some (.str s.name)) : line.isLast = s.terminal := by
  unfold isLast
  rw [h]
  cases s <;> decide

/-- Would the event, as it is pushed, say that the task is over? -/
def SseEvent.isLast (e : SseEvent) : Bool := (SseLine.pushed e "").isLast

/-- Neither the id nor the time matters. -/
theorem SseStream.isLast_stamp (stream : SseStream) (e : SseEvent) (timestamp : String) :
    (SseLine.pushed (stream.stamp e) timestamp).isLast = e.isLast := by
  have hstate : (SseLine.pushed (stream.stamp e) timestamp).state? =
      (SseLine.pushed e "").state? := by
    obtain ⟨taskId, state, event, id, contextId, kind⟩ := e
    cases id <;> cases kind <;> rfl
  unfold SseEvent.isLast SseLine.isLast
  rw [hstate]

/-! ### Streams in a history -/

/-- The stream that a step is reserved to its owner for. -/
def ServerOp.stream? : ServerOp → Option StreamId
  | startStream id => some id
  | closeStream id => some id
  | getPending id => some id
  | sendLine id _ => some id
  | _ => none

/-- The stream that a step has opened. -/
def opened? : ServerEvent → Option StreamId
  | ⟨.openStream _, .ok id⟩ => some id
  | _ => none

/-- What a step has written to the client of a stream. -/
def writtenBy (id : StreamId) : ServerEvent → List SseLine
  | ⟨.sendLine id' line, true⟩ => if id' = id then [line] else []
  | _ => []

/-- What a step has taken out of the buffer of a stream. -/
def flushedBy (id : StreamId) : ServerEvent → List SseLine
  | ⟨.getPending id', lines⟩ => if id' = id then lines else []
  | _ => []

/-- What a step has put into the buffer of a stream. -/
def pushedBy (id : StreamId) : ServerEvent → List SseLine
  | ⟨.pushEvent id' _, pushed⟩ => if id' = id then pushed.line.toList else []
  | _ => []

/-- What the client of a stream has received. -/
def written (id : StreamId) (h : List ServerEvent) : List SseLine := h.flatMap (writtenBy id)

/-- What has been taken out of the buffer of a stream. -/
def flushed (id : StreamId) (h : List ServerEvent) : List SseLine := h.flatMap (flushedBy id)

section Reading

variable {id : StreamId} {h h' : List ServerEvent}

@[simp] theorem written_nil : written id [] = [] := rfl

@[simp] theorem flushed_nil : flushed id [] = [] := rfl

@[simp] theorem written_cons {e : ServerEvent} :
    written id (e :: h) = writtenBy id e ++ written id h := List.flatMap_cons

@[simp] theorem flushed_cons {e : ServerEvent} :
    flushed id (e :: h) = flushedBy id e ++ flushed id h := List.flatMap_cons

@[simp] theorem written_append : written id (h ++ h') = written id h ++ written id h' :=
  List.flatMap_append

@[simp] theorem flushed_append : flushed id (h ++ h') = flushed id h ++ flushed id h' :=
  List.flatMap_append

@[simp] theorem writtenBy_sendLine {line : SseLine} :
    writtenBy id ⟨.sendLine id line, true⟩ = [line] := if_pos rfl

@[simp] theorem flushedBy_getPending {lines : List SseLine} :
    flushedBy id ⟨.getPending id, lines⟩ = lines := if_pos rfl

/-- Only a step on the stream writes to it. -/
theorem stream?_of_writtenBy {e : ServerEvent} (hne : writtenBy id e ≠ []) :
    e.op.stream? = some id := by
  unfold writtenBy at hne
  split at hne
  · by_contra hother
    exact hne (if_neg fun heq => hother (congrArg some heq))
  · exact absurd rfl hne

/-- Only a step on the stream empties its buffer. -/
theorem stream?_of_flushedBy {e : ServerEvent} (hne : flushedBy id e ≠ []) :
    e.op.stream? = some id := by
  unfold flushedBy at hne
  split at hne
  · by_contra hother
    exact hne (if_neg fun heq => hother (congrArg some heq))
  · exact absurd rfl hne

/-- No step is one on a stream. -/
def Plain (h : List ServerEvent) : Prop := ∀ e ∈ h, e.op.stream? = none

theorem plain_nil : Plain [] := fun _ he => absurd he List.not_mem_nil

theorem Plain.written (hplain : Plain h) (id : StreamId) : written id h = [] := by
  refine List.flatMap_eq_nil_iff.mpr fun e he => ?_
  by_contra hne
  cases (hplain e he).symm.trans (stream?_of_writtenBy hne)

theorem Plain.flushed (hplain : Plain h) (id : StreamId) : flushed id h = [] := by
  refine List.flatMap_eq_nil_iff.mpr fun e he => ?_
  by_contra hne
  cases (hplain e he).symm.trans (stream?_of_flushedBy hne)

end Reading

/-! ### What a client reads -/

/-- Nothing has gone wrong on the stream: what was sent was written, nobody has closed the
stream, and it has not timed out. -/
def Smooth (id : StreamId) : ServerEvent → Prop
  | ⟨.sendLine id' line, answer⟩ => id' = id → answer = true ∧ line ≠ .timedOut
  | ⟨.isClosed id', answer⟩ => id' = id → answer = false
  | _ => True

/-- How the client is told that the task is over. -/
structure Ending (last : SseLine) : Prop where
  isPushed : last.isPushed = false
  isLast : last.isLast = true

/-- What comes first is neither pushed nor the end. -/
def Greeting (greeting : List SseLine) : Prop :=
  ∀ line ∈ greeting, line.isPushed = false ∧ line.isLast = false

/-- **The stream is closed, and its client has read all that was in the buffer**, between a
greeting and an ending. -/
structure Conversed (id : StreamId) (h : List ServerEvent) : Prop where
  closed : (⟨.closeStream id, ()⟩ : ServerEvent) ∈ h
  read : ∃ greeting last, written id h = greeting ++ flushed id h ++ [last] ∧
    Greeting greeting ∧ Ending last

section Conversed

variable {id : StreamId} {h h' : List ServerEvent}

theorem Conversed.after_plain (hplain : Plain h) (hconv : Conversed id h') :
    Conversed id (h ++ h') := by
  refine ⟨List.mem_append_right _ hconv.closed, ?_⟩
  rw [written_append, flushed_append, hplain.written, hplain.flushed]
  exact hconv.read

theorem Conversed.before_plain (hplain : Plain h') (hconv : Conversed id h) :
    Conversed id (h ++ h') := by
  refine ⟨List.mem_append_left _ hconv.closed, ?_⟩
  rw [written_append, flushed_append, hplain.written, hplain.flushed, List.append_nil,
    List.append_nil]
  exact hconv.read

end Conversed

/-! ### Good answers -/

/-- What the handlers rely on when they stream: look-ups raise for bad keys only, and so does
opening a stream; and no program goes on after it has halted. -/
def AnswersStreaming : (o : ServerOp) → o.Res → Prop
  | .base o, answer => o.AnswersByKey answer
  | .openStream t, answer => answer.isOk = t.hashable
  | .halt, _ => False
  | _, _ => True

/-- The same, with what the other handlers rely on. -/
def StreamsWell (o : ServerOp) (answer : o.Res) : Prop :=
  GoodAnswer (fun _ => False) o answer ∧ AnswersStreaming o answer

/-! ### Rules -/

/-- The steps of one stream. -/
def OnStream (id : StreamId) (o : ServerOp) : Prop := ∀ id', o.stream? = some id' → id' = id

/-- What a handler does that has a stream open. -/
def Talks {α : Type} (id : StreamId) (p : Handler α)
    (ends : List ServerEvent → Except PyError α → Prop) : Prop :=
  p.run.Yields StreamsWell (fun _ o => OnStream id o) ends

section Talks

variable {id : StreamId} {α β : Type} {mid : List ServerEvent → Except PyError α → Prop}
  {ends : List ServerEvent → Except PyError β → Prop}

theorem Talks.mono {p : Handler β} {ends' : List ServerEvent → Except PyError β → Prop}
    (h : Talks id p ends) (hends : ∀ h r, ends h r → ends' h r) : Talks id p ends' :=
  Prog.Yields.mono (fun _ _ ho => ho) hends h

theorem Talks.bind {p : Handler α} {f : α → Handler β} (hp : Talks id p mid)
    (hok : ∀ h a, mid h (.ok a) → Talks id (f a) fun h' r => ends (h ++ h') r)
    (herror : ∀ h e, mid h (.error e) → ends h (.error e)) : Talks id (p >>= f) ends :=
  Prog.Yields.bind_except hp hok herror

theorem talks_pure {a : β} (h : ends [] (.ok a)) : Talks id (pure a) ends := h

theorem talks_call {o : ServerOp} {ends : List ServerEvent → Except PyError o.Res → Prop}
    (ho : OnStream id o) (h : ∀ r, StreamsWell o r → ends [⟨o, r⟩] (.ok r)) :
    Talks id (call o) ends := ⟨ho, h⟩

theorem talks_call_bind {o : ServerOp} {f : o.Res → Handler β} (ho : OnStream id o)
    (h : ∀ r, StreamsWell o r → Talks id (f r) fun h' r' => ends (⟨o, r⟩ :: h') r') :
    Talks id (call o >>= f) ends := ⟨ho, h⟩

end Talks

theorem onStream_of_none {id : StreamId} {o : ServerOp} (h : o.stream? = none) : OnStream id o :=
  fun _ heq => nomatch h.symm.trans heq

theorem onStream_of_some {id : StreamId} {o : ServerOp} (h : o.stream? = some id) : OnStream id o :=
  fun _ heq => Option.some.inj (heq.symm.trans h)

/-! ### Parts of a conversation -/

/-- Nothing has gone wrong on the stream so far. -/
def AllSmooth (id : StreamId) (h : List ServerEvent) : Prop := ∀ e ∈ h, Smooth id e

/-- The stream is closed, and its client has read all that was in the buffer, and an ending. -/
structure Polled (id : StreamId) (h : List ServerEvent) : Prop where
  closed : (⟨.closeStream id, ()⟩ : ServerEvent) ∈ h
  read : ∃ last, written id h = flushed id h ++ [last] ∧ Ending last

section Parts

variable {id : StreamId} {h h' : List ServerEvent}

theorem allSmooth_cons {e : ServerEvent} :
    AllSmooth id (e :: h) ↔ Smooth id e ∧ AllSmooth id h := List.forall_mem_cons

theorem allSmooth_append : AllSmooth id (h ++ h') ↔ AllSmooth id h ∧ AllSmooth id h' :=
  List.forall_mem_append

/-- What was taken out and written on comes first. -/
theorem Polled.after (hpolled : Polled id h') (hread : written id h = flushed id h) :
    Polled id (h ++ h') := by
  obtain ⟨hclosed, last, hlast, hending⟩ := hpolled
  refine ⟨List.mem_append_right _ hclosed, last, ?_, hending⟩
  rw [written_append, flushed_append, hread, hlast, List.append_assoc]

/-- A message is put together from the state it is to announce. -/
theorem sseEmit_talks (id : StreamId) (eventId : Option String) (t : TaskId) (state : String)
    (contextId : Json) :
    Talks id (sseEmit id eventId t state contextId) fun h r => AllSmooth id h →
      r = .ok true ∧ flushed id h = [] ∧ ∃ line, written id h = [line] ∧
        line.isPushed = false ∧ line.state? = some (.str state) := by
  refine talks_call_bind (onStream_of_none rfl) fun timestamp _ => ?_
  refine talks_call (onStream_of_some rfl) fun answer _ hsmooth => ?_
  obtain ⟨-, hsent, -⟩ :=
    (allSmooth_cons.trans (and_congr_right fun _ => allSmooth_cons)).mp hsmooth
  obtain ⟨rfl, -⟩ := hsent rfl
  refine ⟨rfl, rfl, .status eventId (eventNameForState state)
    (buildStatusUpdatePayload t state contextId timestamp), ?_, rfl, rfl⟩
  rw [written_cons, written_cons, writtenBy_sendLine]
  rfl

theorem sendLines_talks (id : StreamId) (lines : List SseLine) :
    Talks id (sendLines id lines) fun h r => AllSmooth id h →
      r = .ok true ∧ flushed id h = [] ∧ written id h = lines := by
  induction lines with
  | nil => exact talks_pure fun _ => ⟨rfl, rfl, rfl⟩
  | cons line lines ih =>
      refine talks_call_bind (onStream_of_some rfl) fun answer _ => ?_
      cases answer with
      | true =>
          refine ih.mono fun h r hrest hsmooth => ?_
          obtain ⟨hr, hflushed, hwritten⟩ := hrest (allSmooth_cons.mp hsmooth).2
          refine ⟨hr, hflushed, ?_⟩
          rw [written_cons, writtenBy_sendLine, hwritten]
          rfl
      | false =>
          refine talks_pure fun hsmooth => ?_
          cases ((allSmooth_cons.mp hsmooth).1 rfl).1

theorem getStatus_talks (id : StreamId) {t : TaskId} (ht : t.hashable = true) :
    Talks id (getStatus t) fun h r =>
      r.isOk = true ∧ written id h = [] ∧ flushed id h = [] :=
  ⟨onStream_of_none rfl, fun _ hstatus => ⟨hstatus.2.trans ht, rfl, rfl⟩⟩

/-- To say that the task is over, and close the stream. -/
theorem sseEmit_closeStream_talks (id : StreamId) (eventId : Option String) (t : TaskId)
    {s : TaskState} (hs : s.terminal = true) (contextId : Json) :
    Talks id (do
      let _ ← sseEmit id eventId t s.name contextId
      call (.closeStream id)) fun h _ => AllSmooth id h → Polled id h := by
  refine (sseEmit_talks id eventId t s.name contextId).bind ?_ ?_
  · intro h answer hemit
    refine talks_call (onStream_of_some rfl) fun _ _ hsmooth => ?_
    obtain ⟨-, hflushed, line, hwritten, hpushed, hstate⟩ := hemit (allSmooth_append.mp hsmooth).1
    refine ⟨List.mem_append_right _ (List.mem_singleton_self _), line, ?_, hpushed, ?_⟩
    · rw [written_append, flushed_append, hwritten, hflushed]
      rfl
    · rw [SseLine.isLast_of_state hstate, hs]
  · intro h e hemit hsmooth
    cases (hemit hsmooth).1

/-- One round of the loop, when all that was found has been sent; `next` is the next one. -/
theorem pollState_talks (site : Site) (id : StreamId) {t : TaskId} (ht : t.hashable = true)
    (contextId : Json) {next : Handler Unit}
    (hnext : Talks id next fun h _ => AllSmooth id h → Polled id h) :
    Talks id (do
      if ← call (.isClosed id) then return ()
      else
        let status ← getStatus t
        if status.state.any TaskState.terminal then
          let _ ← sseEmit id none t status.name contextId
          call (.closeStream id)
        else
          let now ← call (.base .now)
          call (.sleepUntil (now + site.pollInterval))
          next) fun h _ => AllSmooth id h → Polled id h := by
  refine talks_call_bind (onStream_of_none rfl) fun closed _ => ?_
  cases closed with
  | true =>
      refine talks_pure fun hsmooth => ?_
      cases (allSmooth_cons.mp hsmooth).1 rfl
  | false =>
      refine (getStatus_talks id ht).bind (fun h status hstatus => ?_) fun h e hstatus => ?_
      · obtain ⟨-, hwritten, hflushed⟩ := hstatus
        have hafter : ∀ {h'}, (AllSmooth id h' → Polled id h') →
            AllSmooth id (⟨.isClosed id, false⟩ :: (h ++ h')) →
              Polled id (⟨.isClosed id, false⟩ :: (h ++ h')) := by
          intro h' hpolled hsmooth
          have hsmooth := (allSmooth_append.mp (allSmooth_cons.mp hsmooth).2).2
          refine (hpolled hsmooth).after (h := ⟨.isClosed id, false⟩ :: h) ?_
          rw [written_cons, flushed_cons, hwritten, hflushed]
          rfl
        split_ifs with hover
        · obtain ⟨s, hs, hterminal⟩ := (Option.any_eq_true _ _).mp hover
          have hname : status.name = s.name := by rw [Status.name, hs]
          rw [hname]
          exact (sseEmit_closeStream_talks id none t hterminal contextId).mono fun h' _ => hafter
        · refine talks_call_bind (onStream_of_none rfl) fun now _ => ?_
          refine talks_call_bind (onStream_of_none rfl) fun _ _ => ?_
          refine hnext.mono fun h' _ hpolled => hafter fun hsmooth => ?_
          have hsmooth := (allSmooth_cons.mp (allSmooth_cons.mp hsmooth).2).2
          exact (hpolled hsmooth).after (h := [⟨.base .now, now⟩, ⟨.sleepUntil _, ()⟩]) rfl
      · cases hstatus.1

/-- **The loop ends with the ending**, when it has sent on whatever it found. -/
theorem ssePollUntilTerminal_talks (site : Site) (id : StreamId) {t : TaskId}
    (ht : t.hashable = true) (contextId : Json) (deadline : Time) (polls : ℕ) :
    Talks id (ssePollUntilTerminal site id t contextId deadline polls) fun h _ =>
      AllSmooth id h → Polled id h := by
  induction polls with
  | zero =>
      -- the source would go on here, and so the program does not
      exact talks_call (onStream_of_none rfl) fun _ hhalt => hhalt.2.elim
  | succ polls ih =>
      refine talks_call_bind (onStream_of_none rfl) fun now _ => ?_
      split_ifs
      · refine talks_call_bind (onStream_of_some rfl) fun lines _ => ?_
        refine (sendLines_talks id lines).bind (fun h sent hsent => ?_) fun h e hsent hsmooth => ?_
        · cases sent with
          | true =>
              refine (pollState_talks site id ht contextId ih).mono fun h' _ hpolled hsmooth => ?_
              have hsmooth := (allSmooth_cons.mp (allSmooth_cons.mp hsmooth).2).2
              have hsmooth := allSmooth_append.mp hsmooth
              obtain ⟨-, hflushed, hwritten⟩ := hsent hsmooth.1
              refine (hpolled hsmooth.2).after
                (h := ⟨.base .now, now⟩ :: ⟨.getPending id, lines⟩ :: h) ?_
              rw [written_cons, written_cons, flushed_cons, flushed_cons, hwritten, hflushed,
                flushedBy_getPending, List.append_nil]
              rfl
          | false =>
              refine talks_call (onStream_of_some rfl) fun _ _ hsmooth => ?_
              have hsmooth := (allSmooth_cons.mp (allSmooth_cons.mp hsmooth).2).2
              cases (hsent (allSmooth_append.mp hsmooth).1).1
        · cases (hsent (allSmooth_cons.mp (allSmooth_cons.mp hsmooth).2).2).1
      · refine talks_call_bind (onStream_of_some rfl) fun answer _ => ?_
        refine talks_call (onStream_of_some rfl) fun _ _ hsmooth => ?_
        exact absurd rfl ((allSmooth_cons.mp (allSmooth_cons.mp hsmooth).2).1 rfl).2

theorem pollStream_talks (site : Site) (req : HttpRequest) (id : StreamId) {t : TaskId}
    (ht : t.hashable = true) (contextId : Json) :
    Talks id (pollStream site req id t contextId) fun h _ => AllSmooth id h → Polled id h := by
  refine talks_call_bind (onStream_of_none rfl) fun start _ => ?_
  refine (ssePollUntilTerminal_talks site id ht contextId _ req.polls).mono ?_
  intro h _ hpolled hsmooth
  exact (hpolled (allSmooth_cons.mp hsmooth).2).after (h := [⟨.base .now, start⟩]) rfl

/-- A greeting comes first. -/
theorem Polled.conversed {line : SseLine} (hpolled : Polled id h') (hwritten : written id h = [line])
    (hflushed : flushed id h = []) (hpushed : line.isPushed = false) (hlast : line.isLast = false) :
    Conversed id (h ++ h') := by
  obtain ⟨hclosed, last, hread, hending⟩ := hpolled
  refine ⟨List.mem_append_right _ hclosed, [line], last, ?_, ?_, hending⟩
  · rw [written_append, flushed_append, hwritten, hflushed, hread, List.nil_append,
      List.append_assoc]
  · exact List.forall_mem_singleton.mpr ⟨hpushed, hlast⟩

/-- To greet with a state that is not terminal, and go on. -/
theorem greet_talks {id : StreamId} {eventId : Option String} {t : TaskId} {state : String}
    {s : TaskState} (hs : s.terminal = false) (hstate : state = s.name) {contextId : Json}
    {next : Handler Unit} (hnext : Talks id next fun h _ => AllSmooth id h → Polled id h) :
    Talks id (do
      if ← sseEmit id eventId t state contextId then next else call (.closeStream id)) fun h _ =>
        AllSmooth id h → Conversed id h := by
  subst hstate
  refine (sseEmit_talks id eventId t s.name contextId).bind ?_ ?_
  · intro h sent hsent
    cases sent with
    | true =>
        refine hnext.mono fun h' _ hpolled hsmooth => ?_
        obtain ⟨hsmooth, hsmooth'⟩ := allSmooth_append.mp hsmooth
        obtain ⟨-, hflushed, line, hwritten, hpushed, hstate⟩ := hsent hsmooth
        refine (hpolled hsmooth').conversed hwritten hflushed hpushed ?_
        rw [SseLine.isLast_of_state hstate, hs]
    | false =>
        refine talks_call (onStream_of_some rfl) fun _ _ hsmooth => ?_
        cases (hsent (allSmooth_append.mp hsmooth).1).1
  · intro h e hsent hsmooth
    cases (hsent hsmooth).1

/-- To greet with a state that is terminal is all there is to do. -/
theorem greetLast_talks {id : StreamId} {eventId : Option String} {t : TaskId} {state : String}
    {s : TaskState} (hs : s.terminal = true) (hstate : state = s.name) {contextId : Json} :
    Talks id (do
      if ← sseEmit id eventId t state contextId then call (.closeStream id)
      else call (.closeStream id)) fun h _ => AllSmooth id h → Conversed id h := by
  subst hstate
  have hclose : (do
      if ← sseEmit id eventId t s.name contextId then call (.closeStream id)
      else call (.closeStream id)) = (do
        let _ ← sseEmit id eventId t s.name contextId
        call (.closeStream id)) := by
    simp only [ite_self]
  rw [hclose]
  refine (sseEmit_closeStream_talks id eventId t hs contextId).mono fun h _ hpolled hsmooth => ?_
  obtain ⟨hclosed, last, hread, hending⟩ := hpolled hsmooth
  exact ⟨hclosed, [], last, hread, nofun, hending⟩

end Parts

/-! ### Every handler -/

/-- A step on a stream is made by the thread that has opened it. -/
def Owns (h : List ServerEvent) (o : ServerOp) : Prop :=
  ∀ id, o.stream? = some id → ∃ e ∈ h, opened? e = some id

/-- Wherever the thread has sent the head of a stream, and nothing has gone wrong on it, it has
had its conversation. -/
def HasConversed (h : List ServerEvent) : Prop :=
  ∀ id, (⟨.startStream id, ()⟩ : ServerEvent) ∈ h → AllSmooth id h → Conversed id h

/-- **A program that has its conversation**, on a stream of its own. -/
def Converses {α : Type} (p : Handler α) : Prop :=
  p.run.Yields StreamsWell Owns fun h _ => HasConversed h

/-- Every right but that to a stream. -/
def plainRights : Rights := ⟨True, True, False, fun _ => True⟩

theorem stream?_of_plainRights {subscribed : Subscription → Prop} {o : ServerOp}
    (h : plainRights.Allows subscribed o) : o.stream? = none := by
  cases o with
  | startStream id => exact h.elim
  | closeStream id => exact h.elim
  | getPending id => exact h.elim
  | sendLine id line => exact h.1.elim
  | _ => rfl

section Converses

variable {α β : Type}

/-- A program without that right has nothing to do with streams. -/
theorem yields_of_plain {p : ServerProc α} {ends : α → Prop}
    (h : KeepsTo (fun _ => False) plainRights p ends) :
    p.Yields StreamsWell Owns fun h a => Plain h ∧ ends a := by
  refine (Prog.Relies.relax (fun _ _ hgood => hgood.1) h).yields.mono ?_ ?_
  · intro _ o ho id heq
    cases (stream?_of_plainRights ho).symm.trans heq
  · exact fun h a hend => ⟨fun e he => stream?_of_plainRights (hend.1 e he).1, hend.2⟩

theorem owns_append {h h' : List ServerEvent} {o : ServerOp} (howns : Owns h' o) :
    Owns (h ++ h') o := by
  intro id hid
  obtain ⟨e, he, hopened⟩ := howns id hid
  exact ⟨e, List.mem_append_right _ he, hopened⟩

theorem Plain.not_starts {h : List ServerEvent} (hplain : Plain h) (id : StreamId) :
    (⟨.startStream id, ()⟩ : ServerEvent) ∉ h := by
  intro hmem
  cases hplain _ hmem

theorem Plain.hasConversed {h : List ServerEvent} (hplain : Plain h) : HasConversed h :=
  fun id hstart => absurd hstart (hplain.not_starts id)

theorem HasConversed.after_plain {h h' : List ServerEvent} (hplain : Plain h)
    (hconv : HasConversed h') : HasConversed (h ++ h') := by
  intro id hstart hsmooth
  have hstart := (List.mem_append.mp hstart).resolve_left (hplain.not_starts id)
  exact (hconv id hstart (allSmooth_append.mp hsmooth).2).after_plain hplain

theorem HasConversed.before_plain {h h' : List ServerEvent} (hplain : Plain h')
    (hconv : HasConversed h) : HasConversed (h ++ h') := by
  intro id hstart hsmooth
  have hstart := (List.mem_append.mp hstart).resolve_right (hplain.not_starts id)
  exact (hconv id hstart (allSmooth_append.mp hsmooth).1).before_plain hplain

/-- What comes before a conversation does not matter. -/
theorem Converses.bind {p : Handler α} {f : α → Handler β} {mid : α → Prop}
    (hp : HandlerKeepsTo (fun _ => False) plainRights p mid)
    (hf : ∀ a, mid a → Converses (f a)) : Converses (p >>= f) := by
  refine Prog.Yields.bind_except (yields_of_plain hp) (fun h a hend => ?_) fun h e hend => ?_
  · exact (hf a (hend.2 a rfl)).mono (fun _ _ => owns_append) fun h' r =>
      HasConversed.after_plain hend.1
  · exact hend.1.hasConversed

/-- Nor does what comes after it. -/
theorem Converses.bind_plain {p : Handler α} {f : α → Handler β} (hp : Converses p)
    (hf : ∀ a, HandlerKeepsTo (fun _ => False) plainRights (f a) fun _ => True) :
    Converses (p >>= f) := by
  refine Prog.Yields.bind_except hp (fun h a hconv => ?_) fun _ _ => id
  exact (yields_of_plain (hf a)).mono (fun _ _ => owns_append) fun h' r hend =>
    hconv.before_plain hend.1

theorem converses_of_plain {p : Handler α}
    (h : HandlerKeepsTo (fun _ => False) plainRights p fun _ => True) : Converses p :=
  (yields_of_plain h).mono (fun _ _ ho => ho) fun _ _ hend => hend.1.hasConversed

theorem converses_compute_bind {x : Except PyError α} {f : α → Handler β}
    (hf : ∀ a, x = .ok a → Converses (f a)) : Converses (compute x >>= f) :=
  Converses.bind (keepsTo_compute fun _ h => h) hf

/-- **A stream that is opened is talked on.** -/
theorem converses_openSseStream {t : TaskId} {f : StreamId → Handler β}
    (hf : ∀ id, t.hashable = true → Talks id (f id) fun h _ => AllSmooth id h → Conversed id h) :
    Converses (openSseStream t >>= f) := by
  refine ⟨nofun, ?_⟩
  rintro (e | id) hgood
  · intro id hstart
    cases List.mem_singleton.mp hstart
  have howns : ∀ {h' o}, OnStream id o → Owns (⟨.openStream t, .ok id⟩ :: h') o := by
    intro h' o ho id' hid
    obtain rfl := ho id' hid
    exact ⟨_, List.mem_cons_self .., rfl⟩
  refine ⟨howns (onStream_of_some rfl), fun _ _ => ?_⟩
  refine (hf id hgood.2.symm).performed.mono (fun _ _ => howns)
    fun h r hend id' hstart hsmooth => ?_
  have hid : id' = id := by
    rcases List.mem_cons.mp hstart with heq | hstart
    · cases heq
    rcases List.mem_cons.mp hstart with heq | hstart
    · cases heq
      rfl
    · exact hend.2 _ hstart id' rfl
  subst hid
  have hconv := hend.1 (allSmooth_cons.mp (allSmooth_cons.mp hsmooth).2).2
  exact ⟨List.mem_cons_of_mem _ (List.mem_cons_of_mem _ hconv.closed), hconv.read⟩

end Converses

section Handlers

variable (site : Site) (req : HttpRequest)

/-- Without streams, every response may be sent. -/
theorem plainRights_responds (response : HttpResponse) (_ : CleanResponse response) :
    plainRights.responds response := trivial

theorem send_plain (response : HttpResponse) :
    HandlerKeepsTo (fun _ => False) plainRights (call (.send response)) fun _ => True :=
  ⟨trivial, fun _ _ _ _ => trivial⟩

theorem streamTaskSse_converses (t : TaskId) : Converses (streamTaskSse site req t) := by
  refine Converses.bind (getStatus_keepsTo t) fun status _ => ?_
  by_cases hstate : status.state = none
  · rw [if_pos hstate]
    exact converses_of_plain (send_plain _)
  · rw [if_neg hstate]
    obtain ⟨s, hs⟩ := Option.ne_none_iff_exists'.mp hstate
    have hname : status.name = s.name := by rw [Status.name, hs]
    refine converses_openSseStream fun id ht => ?_
    rw [hs, Option.any_some]
    cases hterminal : s.terminal with
    | true => exact greetLast_talks hterminal hname
    | false => exact greet_talks hterminal hname (pollStream_talks site req id ht .null)

/-- **A replay** has nothing to poll: the task was completed when it was stored. -/
theorem streamCachedResult_converses {cached : Json} (hcached : Cached cached)
    (fallbackContextId : Json) : Converses (streamCachedResult req cached fallbackContextId) := by
  refine converses_compute_bind fun t _ => converses_compute_bind fun contextId _ => ?_
  refine converses_compute_bind fun status hstatus => converses_compute_bind fun state hstate => ?_
  obtain ⟨status', hget, hcompleted⟩ := hcached.completed
  obtain rfl := Except.ok.inj (hget.symm.trans hstatus)
  obtain rfl := Except.ok.inj (hcompleted.symm.trans hstate)
  refine converses_openSseStream fun id _ => greet_talks (s := .working) rfl rfl ?_
  exact sseEmit_closeStream_talks id none _ (s := .completed) rfl _

theorem restSendMessageStream_converses (body : Json) :
    Converses (restSendMessageStream site req body) := by
  refine converses_compute_bind fun plan _ => ?_
  cases plan with
  | answer exit task => exact converses_of_plain (send_plain _)
  | submit s =>
      refine Converses.bind (keepsTo_attempt (keepsTo_lift
        (prepareAndEnqueue_relies trivial _))) ?_
      rintro (task | ⟨code, status, message⟩ | result) h
      · refine converses_openSseStream fun id ht => greet_talks (s := .working) rfl rfl ?_
        exact pollStream_talks site req id ht _
      · exact converses_of_plain (send_plain _)
      · exact streamCachedResult_converses req h _

theorem handleSendSubscribe_converses (params rpcId : Json) :
    Converses (handleSendSubscribe site req params rpcId) := by
  refine converses_compute_bind fun t _ => ?_
  by_cases htruthy : t.truthy = false
  · rw [if_pos htruthy]
    exact converses_of_plain (send_plain _)
  · rw [if_neg htruthy]
    refine Converses.bind (getStatus_keepsTo t) fun status _ => ?_
    split_ifs
    · exact converses_of_plain (send_plain _)
    · exact streamTaskSse_converses site req t

/-- What is sent when the handler has raised does not matter. -/
theorem guarded_converses {handler : Handler Unit} {error : PyError → HttpResponse}
    (h : Converses handler) : Converses (guarded handler error) := by
  refine Prog.Yields.bind h fun h r hconv => ?_
  cases r with
  | ok u => exact hconv.before_plain plain_nil
  | error e => exact ⟨nofun, fun _ _ => hconv.before_plain (List.forall_mem_singleton.mpr rfl)⟩

theorem readBody_plain {unauthorized : Handler Unit} {badLength : ℤ → ℕ → Handler Unit}
    (hunauthorized : HandlerKeepsTo (fun _ => False) plainRights unauthorized fun _ => True)
    (hbadLength : ∀ length status,
      HandlerKeepsTo (fun _ => False) plainRights (badLength length status) fun _ => True)
    {f : Option Json → Handler Unit} (hnone : Converses (f none))
    (hsome : ∀ body, Converses (f (some body))) :
    Converses (readBody site req unauthorized badLength >>= f) := by
  refine Converses.bind
    (readBody_keepsTo site req plainRights_responds hunauthorized hbadLength) ?_
  rintro (_ | body) -
  · exact hnone
  · exact hsome body

theorem doRestPost_converses {handler : Json → Handler Unit}
    (h : ∀ body, Converses (handler body)) : Converses (doRestPost site req handler) := by
  refine readBody_plain site req ?_ (fun _ _ => ?_) ?_ h
  · exact send_plain _
  · exact send_plain _
  · exact converses_of_plain (keepsTo_pure trivial)

theorem rpcMethod_converses (m : RpcMethod) (params rpcId : Json) :
    Converses (m.handler site req params rpcId) := by
  cases m with
  | sendMessage =>
      refine converses_of_plain ?_
      refine (handleTaskSend_keepsTo site req plainRights_responds trivial ?_).bind fun _ _ => ?_
      · exact fun _ _ => trivial
      · exact keepsTo_pure trivial
  | getTask =>
      exact converses_of_plain
        ((rpcGetTask_keepsTo req plainRights_responds params rpcId).mono fun _ _ => trivial)
  | cancelTask =>
      exact converses_of_plain
        ((rpcCancelTask_keepsTo req plainRights_responds trivial params rpcId).mono
          fun _ _ => trivial)
  | subscribeToTask =>
      exact (handleSendSubscribe_converses site req params rpcId).bind_plain fun _ =>
        keepsTo_pure trivial
  | listTasks =>
      exact converses_of_plain
        ((rpcListTasks_keepsTo site req plainRights_responds params rpcId).mono fun _ _ => trivial)

theorem doJsonRpc_converses : Converses (doJsonRpc site req) := by
  refine guarded_converses (readBody_plain site req ?_ (fun _ _ => ?_) ?_ fun body => ?_)
  · exact send_plain _
  · exact send_plain _
  · exact converses_of_plain (keepsTo_pure trivial)
  refine converses_compute_bind fun request _ => ?_
  cases request with
  | invalid => exact converses_of_plain (send_plain _)
  | method m params rpcId =>
      refine (rpcMethod_converses site req m params rpcId).bind_plain ?_
      rintro (_ | j)
      · exact keepsTo_pure trivial
      · exact send_plain _

theorem doPost_converses : Converses (doPost site req) := by
  have hrest : ∀ {handler : Json → Handler Unit},
      (∀ body, HandlerKeepsTo (fun _ => False) plainRights (handler body) fun _ => True) →
        Converses (doRestPost site req handler) :=
    fun h => doRestPost_converses site req fun body => converses_of_plain (h body)
  unfold doPost
  cases req.postRoute with
  | send => exact hrest (restSendMessage_keepsTo site req plainRights_responds trivial)
  | stream => exact doRestPost_converses site req (restSendMessageStream_converses site req)
  | cancel t => exact hrest fun _ => restCancelTask_keepsTo req plainRights_responds trivial t
  | createPushConfig t =>
      exact hrest (restCreatePushConfig_keepsTo site req plainRights_responds trivial t)
  | jsonRpc => exact doJsonRpc_converses site req

theorem doGet_converses : Converses (doGet site req) := by
  have hhandler : Converses (req.getRoute.handler site req) := by
    cases req.getRoute with
    | subscribe t => exact streamTaskSse_converses site req _
    | getPushConfig t id =>
        exact converses_of_plain (restGetPushConfig_keepsTo site req plainRights_responds t id)
    | listPushConfigs t =>
        exact converses_of_plain (restListPushConfigs_keepsTo plainRights_responds t)
    | getTask t => exact converses_of_plain (restGetTask_keepsTo req plainRights_responds t)
    | listTasks => exact converses_of_plain (restListTasks_keepsTo site req plainRights_responds)
    | _ => exact converses_of_plain (send_plain _)
  have hrest : ∀ refused : Bool, Converses
      (if refused = true then sendRpcError (-32603) "Unauthorized" 401 .null
        else guarded (req.getRoute.handler site req) fun _ =>
          ⟨500, rpcErrorBody (-32603) "Internal error" .null⟩) := by
    intro refused
    split_ifs
    · exact converses_of_plain (send_plain _)
    · exact guarded_converses hhandler
  unfold doGet
  split_ifs
  · exact converses_compute_bind fun authorised _ => hrest _
  · exact hrest false

end Handlers

theorem serveHttp_converses {handler : Handler Unit} (h : Converses handler) :
    (serveHttp handler).Yields StreamsWell Owns fun h _ => HasConversed h := by
  refine Prog.Yields.bind h fun h r hconv => ?_
  exact hconv.before_plain plain_nil

/-- **Every thread.** -/
theorem prog_converses (site : Site) (x : ServerCall) :
    (x.prog site).Yields StreamsWell Owns fun h _ => HasConversed h := by
  have hplain : ∀ {p : ServerProc ServerOutcome},
      KeepsTo (fun _ => False) plainRights p (fun _ => True) →
        p.Yields StreamsWell Owns fun h _ => HasConversed h :=
    fun h => (yields_of_plain h).mono (fun _ _ ho => ho) fun _ _ hend => hend.1.hasConversed
  have hinternal : ∀ call : Call, (∀ transport req, call ≠ .sendMessage transport req) →
      (serveInternal (call.prog site.platform)).Yields StreamsWell Owns fun h _ => HasConversed h :=
    fun _ hcall => hplain (serveInternal_keepsTo (internal_relies trivial site.platform hcall))
  cases x with
  | get req => exact serveHttp_converses (doGet_converses site req)
  | post req => exact serveHttp_converses (doPost_converses site req)
  | delete req =>
      exact hplain (serveHttp_keepsTo (doDelete_keepsTo site req plainRights_responds trivial))
  | preLlmCall => exact hinternal .preLlmCall nofun
  | postLlmCall taskId response turn turn' =>
      exact hinternal (.postLlmCall taskId response turn turn') nofun
  | webhookFailure t => exact hinternal (.webhookFailure t) nofun
  | watchdogPass => exact hinternal .watchdogPass nofun
  | evictExpired => exact hinternal .evictExpired nofun
  | closeIdleStreams =>
      exact ⟨nofun, fun _ _ => Plain.hasConversed (List.forall_mem_singleton.mpr rfl)⟩

end HermesA2A
