import HermesA2A.Requests
import HermesA2A.QueueSteps
import HermesA2A.Server.Readable

/-!
# What a POST leaves behind

A POST should be answered once.  The errors of `_enqueue_and_await_task` are sent where
they are found, and the two callers are told by a sentinel; `_handle_task_send` returns on
it, and its caller wraps what it returned in a second response.  The JSON-RPC methods are
called inside a `try`, the REST handlers are not: whatever a REST handler raises leaves the
request without any response.

This module goes through the handlers and says for each how many responses it has sent
when it ends, by what its thread has seen on the way: `Yields`.
-/

namespace HermesA2A

/-- One performed step of the server. -/
abbrev ServerEvent := Act ServerOp ServerOp.Res

/-! ### What is counted -/

/-- Is the step a complete response? -/
def isResponse : ServerEvent → Bool
  | ⟨.send _, _⟩ => true
  | _ => false

/-- How many responses have been sent. -/
def responses (h : List ServerEvent) : ℕ := h.countP isResponse

/-- The step as one of the inbound path. -/
def inbound? : ServerEvent → Option Event
  | ⟨.base o, r⟩ => some ⟨o, r⟩
  | _ => none

/-- The steps of the inbound path. -/
def inbound (h : List ServerEvent) : List Event := h.filterMap inbound?

/-- Is the step the head of a stream? -/
def startsStream : ServerEvent → Bool
  | ⟨.startStream _, _⟩ => true
  | _ => false

/-- The thread has begun to stream. -/
def Streams (h : List ServerEvent) : Prop := h.any startsStream = true

section Counting

variable {h h' : List ServerEvent}

@[simp] theorem responses_nil : responses [] = 0 := rfl

@[simp] theorem inbound_nil : inbound [] = [] := rfl

@[simp] theorem responses_append : responses (h ++ h') = responses h + responses h' :=
  List.countP_append

@[simp] theorem inbound_append : inbound (h ++ h') = inbound h ++ inbound h' :=
  List.filterMap_append

theorem Streams.append_left (hs : Streams h) : Streams (h ++ h') := by
  rw [Streams, List.any_append, hs, Bool.true_or]

theorem Streams.append_right (hs : Streams h') : Streams (h ++ h') := by
  rw [Streams, List.any_append, hs, Bool.or_true]

end Counting

/-! ### Good answers -/

/-- A look-up raises only where what it looks up cannot be a key. -/
def Op.AnswersByKey : (o : Op) → o.Res → Prop
  | getStatus t, answer => answer.isOk = t.hashable
  | findTaskById t, answer => answer.isOk = t.hashable
  | checkConflict key _, answer => answer.isOk = key.hashable
  | idemGet key, answer => answer.isOk = key.hashable
  | _, _ => True

/-- What the inbound path relies on here. -/
def Op.AnswersWell (o : Op) (answer : o.Res) : Prop := o.AnswersClean answer ∧ o.AnswersByKey answer

/-- What the handlers rely on here. -/
def AnswersWell : (o : ServerOp) → o.Res → Prop
  | .base o, answer => o.AnswersWell answer
  | _, _ => True

/-- What is in the completed cache has a state on record. -/
def TaskQueue.Recorded (q : TaskQueue) : Prop :=
  ∀ t task, q.completed.get? t = some task → t ∈ q.states

theorem TaskQueue.Recorded.onQueue {q : TaskQueue} (hq : q.Recorded) (o : Op) :
    (o.onQueue q).Recorded := by
  intro t task h
  rcases completed_onQueue h with h | ⟨hpending, ⟨response, rfl⟩ | rfl⟩
  · exact mem_states_onQueue o (hq t task h)
  · have hstates := complete_states t response q t
    exact OrderedDict.mem_of_get? (hstates.trans (if_pos ⟨rfl, OrderedDict.mem_of_get? hpending⟩))
  · have hstates := cancel_states t q t
    exact OrderedDict.mem_of_get? (hstates.trans (if_pos ⟨rfl, OrderedDict.mem_of_get? hpending⟩))

/-- With every completed task on record, only the key matters. -/
theorem getStatus_isOk {q : TaskQueue} (hq : q.Recorded) (t : TaskId) :
    (q.getStatus t).isOk = t.hashable := by
  unfold TaskQueue.getStatus
  by_cases ht : t.hashable = true
  · rw [if_pos ht, ht]
    split_ifs
    · rfl
    cases hcompleted : q.completed.get? t with
    | none => rfl
    | some task =>
        obtain ⟨state, hstate⟩ := OrderedDict.mem_iff_exists.mp (hq t task hcompleted)
        dsimp only
        split_ifs
        · rfl
        · rw [hstate]
          rfl
  · rw [if_neg ht, Bool.eq_false_of_not_eq_true ht]
    rfl

theorem answersByKey_of_recorded {P : Platform} {w : World} (hw : w.queue.Recorded) (o : Op) :
    o.AnswersByKey (o.answer P w) := by
  cases o with
  | getStatus t => exact getStatus_isOk hw t
  | findTaskById t =>
      change (w.queue.findTaskById t).isOk = _
      unfold TaskQueue.findTaskById
      split_ifs with ht
      · exact ht.symm
      · exact (Bool.eq_false_of_not_eq_true ht).symm
  | checkConflict key payload =>
      change (w.idem.checkConflict P.digest w.clock key payload).1.isOk = _
      unfold IdempotencyStore.checkConflict
      split_ifs with hkey
      · exact hkey.symm
      · exact (Bool.eq_false_of_not_eq_true hkey).symm
  | idemGet key =>
      change (w.idem.get w.clock key).1.isOk = _
      unfold IdempotencyStore.get
      split_ifs with hkey
      · exact hkey.symm
      · exact (Bool.eq_false_of_not_eq_true hkey).symm
  | _ => exact trivial

/-! ### Responses stay -/

/-- The object is there, and has a response. -/
def TaskQueue.Holds (ref : ℕ) (q : TaskQueue) : Prop :=
  ref < q.objects.length ∧ (q.cells ref).response.isSome = true

theorem TaskQueue.lt_length_onQueue {q : TaskQueue} {ref : ℕ} (h : ref < q.objects.length)
    (o : Op) : ref < (o.onQueue q).objects.length := by
  rcases objects_onQueue o q with heq | ⟨task, -, heq⟩
  · rwa [heq]
  · rw [heq, List.length_append]
    omega

/-- **A response is replaced at most, never taken back.** -/
theorem TaskQueue.Holds.onQueue {q : TaskQueue} {ref : ℕ} (h : q.Holds ref) (o : Op) :
    (o.onQueue q).Holds ref := by
  refine ⟨lt_length_onQueue h.1 o, ?_⟩
  rcases cells_onQueue o q ref with heq | ⟨task, hacc, href, -⟩ | ⟨-, -, response, -, -, -, heq⟩ |
    ⟨-, -, -, -, -, heq⟩ | ⟨-, response, -, -, heq⟩ | ⟨-, -, -, heq⟩ | ⟨-, -, -, heq⟩
  · rw [heq]
    exact h.2
  · -- a new object has a new place
    have hnew := hacc.spec.2.1
    have hlt := h.1
    omega
  · rw [heq, completeCell]
    split_ifs
    · exact h.2
    · rfl
  · rw [heq]
    rfl
  · rw [heq]
    rfl
  · rw [heq]
    exact h.2
  · rw [heq]
    exact h.2

/-! ### Programs that send nothing -/

/-- The step reaches streams and subscribers only. -/
def ServerOp.isOutward : ServerOp → Bool
  | base _ | send _ | startStream _ => false
  | _ => true

/-- The step is no response, nor the head of one. -/
def ServerOp.isMute : ServerOp → Bool
  | send _ | startStream _ => false
  | _ => true

/-- All steps of a program are of a kind. -/
def Only (kind : ServerOp → Bool) {α : Type} (p : ServerProc α) : Prop :=
  p.Relies (fun _ _ => True) (fun o => kind o = true) fun _ => True

section Only

variable {kind : ServerOp → Bool} {α : Type}

theorem only_mute {p : ServerProc α} (h : Only ServerOp.isOutward p) : Only ServerOp.isMute p := by
  refine Prog.Relies.allow (fun o ho => ?_) h
  cases o <;> first | rfl | cases ho

theorem Only.bind {β : Type} {p : ServerProc α} {f : α → ServerProc β} (hp : Only kind p)
    (hf : ∀ a, Only kind (f a)) : Only kind (p >>= f) :=
  Prog.Relies.bind hp fun a _ => hf a

theorem broadcast_only (ids : List StreamId) (event : SseEvent) :
    Only ServerOp.isOutward (broadcast ids event) := by
  induction ids generalizing event with
  | nil => exact trivial
  | cons id ids ih => exact ⟨rfl, fun pushed _ => ih pushed.event⟩

theorem emitArtifacts_only (t : TaskId) (contextId : Json) (ids : List StreamId)
    (artifacts : List Json) : Only ServerOp.isOutward (emitArtifacts t contextId ids artifacts) := by
  induction artifacts with
  | nil => exact trivial
  | cons artifact artifacts ih => exact (broadcast_only ..).bind fun _ => ih

theorem streamArtifacts_only (t : TaskId) (contextId task : Json) :
    Only ServerOp.isOutward (streamArtifacts t contextId task) := by
  refine ⟨rfl, ?_⟩
  rintro (e | ids) -
  · exact trivial
  · change Only ServerOp.isOutward (if ids.isEmpty then return () else _)
    split_ifs
    · exact trivial
    · exact emitArtifacts_only ..

theorem deliverArtifacts_only (t : TaskId) (contextId : Json) (sub : Subscription)
    (artifacts : List Json) :
    Only ServerOp.isOutward (deliverArtifacts t contextId sub artifacts) := by
  induction artifacts with
  | nil => exact trivial
  | cons artifact artifacts ih => exact ⟨rfl, fun _ _ => ih⟩

theorem deliverArtifactsAll_only (t : TaskId) (contextId : Json) (artifacts : List Json)
    (subs : List Subscription) :
    Only ServerOp.isOutward (deliverArtifactsAll t contextId artifacts subs) := by
  induction subs with
  | nil => exact trivial
  | cons sub subs ih => exact (deliverArtifacts_only ..).bind fun _ => ih

theorem pushArtifacts_only (t : TaskId) (contextId task : Json) :
    Only ServerOp.isOutward (pushArtifacts t contextId task) := by
  refine ⟨rfl, ?_⟩
  rintro (e | subs) -
  · exact trivial
  · exact deliverArtifactsAll_only ..

theorem deliverAll_only (payload : Json) (subs : List Subscription) :
    Only ServerOp.isOutward (deliverAll payload subs) := by
  induction subs with
  | nil => exact trivial
  | cons sub subs ih => exact ⟨rfl, fun _ _ => ih⟩

/-- What `on_state_change` does after it was called. -/
theorem pushSse_only (t : TaskId) (event : SseEvent) :
    Only ServerOp.isOutward (pushSse t event) := by
  refine ⟨rfl, ?_⟩
  rintro (e | ids) -
  · exact trivial
  · exact broadcast_only ..

theorem pushNotifications_only (t : TaskId) (newState : TaskState) (contextId : Json) :
    Only ServerOp.isOutward (pushNotifications t newState contextId) := by
  refine ⟨rfl, ?_⟩
  rintro (e | _ | ⟨sub, subs⟩) -
  · exact trivial
  · exact trivial
  · exact ⟨rfl, fun timestamp _ => deliverAll_only ..⟩

theorem emitGetTaskArtifacts_only (t : TaskId) (task : Json) :
    Only ServerOp.isMute (emitGetTaskArtifacts t task) := by
  refine ⟨rfl, ?_⟩
  rintro (e | _ | ⟨id, ids⟩) -
  · exact trivial
  · exact trivial
  refine ⟨rfl, ?_⟩
  rintro (e | pending) -
  · exact trivial
  · exact only_mute (emitArtifacts_only ..)

/-- The inbound path sends nothing by itself. -/
theorem lift_only (p : Proc α) : Only ServerOp.isMute (lift p) := by
  have htrivial : p.Relies (fun _ _ => True) (fun _ => True) fun _ => True :=
    Prog.relies_trivial p
  refine Prog.Relies.expand (fun o _ => ?_) htrivial
  cases o with
  | stateHook t oldState newState contextId =>
      refine ⟨rfl, fun _ _ => only_mute ?_⟩
      exact (pushSse_only ..).bind fun _ => pushNotifications_only ..
  | _ => exact ⟨rfl, fun _ _ => trivial⟩

theorem Only.yields {p : ServerProc α} (h : Only kind p) :
    p.Yields AnswersWell (fun _ _ => True) fun h _ => ∀ e ∈ h, kind e.op = true :=
  (Prog.Relies.relax (fun _ _ _ => trivial) h).yields.mono (fun _ _ _ => trivial)
    fun _ _ hend e he => (hend.1 e he).1

end Only

section Kinds

variable {h : List ServerEvent}

theorem responses_of_mute (hmute : ∀ e ∈ h, e.op.isMute = true) : responses h = 0 := by
  refine List.countP_eq_zero.mpr fun e he => ?_
  obtain ⟨op, res⟩ := e
  cases op with
  | send response => cases hmute _ he
  | _ => exact Bool.false_ne_true

theorem inbound_of_outward (houtward : ∀ e ∈ h, e.op.isOutward = true) : inbound h = [] := by
  refine List.filterMap_eq_nil_iff.mpr fun e he => ?_
  obtain ⟨op, res⟩ := e
  cases op with
  | base o => cases houtward _ he
  | _ => rfl

end Kinds

/-! ### Rules -/

/-- What a handler has done when it ends. -/
def Leaves {α : Type} (p : Handler α) (ends : List ServerEvent → Except PyError α → Prop) : Prop :=
  p.run.Yields AnswersWell (fun _ _ => True) ends

section Leaves

variable {α β : Type} {mid : List ServerEvent → Except PyError α → Prop}
  {ends : List ServerEvent → Except PyError β → Prop}

theorem Leaves.mono {p : Handler β} {ends' : List ServerEvent → Except PyError β → Prop}
    (h : Leaves p ends) (hends : ∀ h r, ends h r → ends' h r) : Leaves p ends' :=
  Prog.Yields.mono (fun _ _ => id) hends h

theorem Leaves.bind {p : Handler α} {f : α → Handler β} (hp : Leaves p mid)
    (hok : ∀ h a, mid h (.ok a) → Leaves (f a) fun h' r => ends (h ++ h') r)
    (herror : ∀ h e, mid h (.error e) → ends h (.error e)) : Leaves (p >>= f) ends :=
  Prog.Yields.bind_except hp hok herror

theorem leaves_pure {a : β} (h : ends [] (.ok a)) : Leaves (pure a) ends := h

theorem leaves_compute {x : Except PyError β} (h : ends [] x) : Leaves (compute x) ends := h

/-- A computation that comes first. -/
theorem leaves_compute_bind {x : Except PyError α} {f : α → Handler β}
    (hok : ∀ a, x = .ok a → Leaves (f a) ends) (herror : ∀ e, x = .error e → ends [] (.error e)) :
    Leaves (compute x >>= f) ends := by
  cases x with
  | ok a => exact hok a rfl
  | error e => exact herror e rfl

theorem leaves_call {o : ServerOp} {ends : List ServerEvent → Except PyError o.Res → Prop}
    (h : ∀ r, AnswersWell o r → ends [⟨o, r⟩] (.ok r)) : Leaves (call o) ends := ⟨trivial, h⟩

theorem leaves_call_bind {o : ServerOp} {f : o.Res → Handler β}
    (h : ∀ r, AnswersWell o r → Leaves (f r) fun h' r' => ends (⟨o, r⟩ :: h') r') :
    Leaves (call o >>= f) ends := ⟨trivial, h⟩

/-- Whatever it does. -/
theorem leaves_trivial (p : Handler β) : Leaves p fun _ _ => True :=
  Prog.yields_trivial p.run

/-- A program that raises nothing, and sends nothing. -/
theorem leaves_mute {p : ServerProc α} (h : Only ServerOp.isMute p) :
    Leaves (ExceptT.lift p) fun h r => r.isOk = true ∧ responses h = 0 := by
  refine Prog.Yields.bind h.yields fun h a hmute => ?_
  change true = true ∧ responses (h ++ []) = 0
  rw [List.append_nil]
  exact ⟨rfl, responses_of_mute hmute⟩

/-- The same, of one that has nothing to do with the inbound path. -/
theorem leaves_outward {p : ServerProc α} (h : Only ServerOp.isOutward p) :
    Leaves (ExceptT.lift p) fun h r => r.isOk = true ∧ responses h = 0 ∧ inbound h = [] := by
  refine Prog.Yields.bind (h.yields.and (only_mute h).yields) fun h a hend => ?_
  change true = true ∧ responses (h ++ []) = 0 ∧ inbound (h ++ []) = []
  rw [List.append_nil]
  exact ⟨rfl, responses_of_mute hend.2, inbound_of_outward hend.1⟩

end Leaves

/-! ### The inbound path -/

/-- What a step looks up under. -/
def Op.key? : Op → Option Json
  | getStatus t => some t
  | findTaskById t => some t
  | checkConflict key _ => some key
  | idemGet key => some key
  | _ => none

/-- The step has looked something up under what cannot be a key. -/
def unhashed : Event → Bool
  | ⟨o, _⟩ => o.key?.any fun key => !key.hashable

/-- The step has turned the message away. -/
def refuses : Event → Bool
  | ⟨.checkConflict .., .ok true⟩ => true
  | ⟨.findTaskById _, .ok (some _)⟩ => true
  | ⟨.enqueue .., none⟩ => true
  | _ => false

/-- A response that was read is gone when it is read again. -/
def Vanishes (h : List Event) : Prop :=
  ∃ before t text metadata contextId createdAt between task response,
    h = before ++ ⟨.enqueue t text metadata contextId createdAt, some task⟩ :: between ++
      [⟨.readResponse task, some response⟩, ⟨.readResponse task, none⟩]

/-- A step that raises, by its answer. -/
def raises : Event → Bool
  | ⟨.getStatus _, answer⟩ => !answer.isOk
  | ⟨.findTaskById _, answer⟩ => !answer.isOk
  | ⟨.checkConflict .., answer⟩ => !answer.isOk
  | ⟨.idemGet _, answer⟩ => !answer.isOk
  | _ => false

theorem raises_eq_unhashed {e : Event} (h : e.op.AnswersByKey e.res) : raises e = unhashed e := by
  obtain ⟨op, res⟩ := e
  cases op with
  | getStatus t => exact congrArg not h
  | findTaskById t => exact congrArg not h
  | checkConflict key payload => exact congrArg not h
  | idemGet key => exact congrArg not h
  | _ => rfl

section Await

variable {P : Platform} {req : SendRequest} {s : Submission} {h : List Event}
  {result : Except PyError Awaited}

theorem any_clearedHistory {p : Event → Bool}
    (hchecked : p ⟨.checkConflict s.idemKey s.payload, .ok false⟩ = false)
    (hgot : p ⟨.idemGet s.idemKey, .ok none⟩ = false) : (clearedHistory s).any p = false := by
  unfold clearedHistory
  split_ifs
  · simp [hchecked, hgot]
  · rfl

/-- **Where `_enqueue_and_await_task` raises**, something unhashable was looked up, or the
response is gone. -/
theorem AwaitEnds.raises_of_error {e : PyError} (hends : AwaitEnds P req s h (.error e)) :
    h.any raises = true ∨ Vanishes h := by
  have hcleared : (clearedHistory s).any raises = false := any_clearedHistory rfl rfl
  cases hends with
  | checkRaised => exact Or.inl rfl
  | getRaised => exact Or.inl rfl
  | findRaised => exact Or.inl (by rw [List.any_append, hcleared]; rfl)
  | vanished createdAt task start response₀ =>
      refine Or.inr ⟨clearedHistory s ++ [⟨.findTaskById s.taskId, .ok none⟩, ⟨.now, createdAt⟩],
        s.taskId, sanitizeInbound s.userText, s.metadata, s.contextId, createdAt,
        [⟨.now, start⟩, ⟨.awaitReady task (start + P.responseTimeout), ()⟩], task, response₀, ?_⟩
      simp [waitedHistory, enqueuedHistory]

theorem AwaitEnds.not_raises {awaited : Awaited} (hends : AwaitEnds P req s h (.ok awaited)) :
    h.any raises = false := by
  have hcleared : (clearedHistory s).any raises = false := any_clearedHistory rfl rfl
  have hstored : ∀ createdAt task start response₀ response,
      (storedHistory P req s createdAt task start response₀ response).any raises = false := by
    intro createdAt task start response₀ response
    unfold storedHistory
    split_ifs <;>
      simp [readHistory, waitedHistory, enqueuedHistory, List.any_append, hcleared, raises]
  cases hends with
  | answered => exact hstored ..
  | _ => simp [waitedHistory, enqueuedHistory, List.any_append, hcleared, raises]

/-- **A refusal has been seen where one is returned.** -/
theorem AwaitEnds.refuses_eq (hends : AwaitEnds P req s h result) :
    h.any refuses = match result with
      | .ok (.refused _) => true
      | _ => false := by
  have hcleared : (clearedHistory s).any refuses = false := any_clearedHistory rfl rfl
  have hstored : ∀ createdAt task start response₀ response,
      (storedHistory P req s createdAt task start response₀ response).any refuses = false := by
    intro createdAt task start response₀ response
    unfold storedHistory
    split_ifs <;>
      simp [readHistory, waitedHistory, enqueuedHistory, List.any_append, hcleared, refuses]
  cases hends with
  | answered => exact hstored ..
  | _ => simp [waitedHistory, enqueuedHistory, List.any_append, hcleared, refuses]

end Await

end HermesA2A
