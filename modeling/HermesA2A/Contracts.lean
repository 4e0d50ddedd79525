import HermesA2A.Outbound
import HermesA2A.Server.Http

/-!
# What the threads of the server may do

One contract for every program of the server.  `Rights` are what a thread is given:
whether it may change the queue or the configurations, whether it may have a stream,
and which responses it may send.  `Rights.Allows` are the steps it may take then, and
`GoodAnswer` is what it relies on.

Whatever the rights are, a step that is allowed keeps the shared state `Sound`
(`sound_after`): nothing unfiltered is stored or buffered.  In a sound state every answer
is good (`goodAnswer_of_sound`).  So a thread need only be shown to keep to its rights on
its own, one handler after the other; `Reaches.relies_event` has the rest.

`subscribed` is any property that all subscriptions have; no thread adds one.
-/

namespace HermesA2A

/-! ### Rights -/

/-- What a thread is given. -/
structure Rights where
  /-- It may change the task queue. -/
  queue : Prop
  /-- It may change the push configurations. -/
  configs : Prop
  /-- It may have a stream. -/
  streams : Prop
  /-- It may send this response. -/
  responds : HttpResponse → Prop

/-- Does a step write to the task queue? -/
def Op.writes : Op → Bool
  | enqueue .. | transition .. | markProcessing _ | requeueTasks _ | complete .. | cancel _ => true
  | writeResponse .. | setReady _ | setReturned _ => true
  | _ => false

/-- A Task with filtered texts.  It has no field `response`. -/
structure Storable (result : Json) : Prop where
  clean : CleanTask result
  get_response : result.get "response" (.str "") = .ok (.str "")

/-- What the idempotency store may hold: such a Task, completed. -/
structure Cached (result : Json) : Prop extends Storable result where
  completed : ∃ status, result.get "status" (.obj []) = .ok status ∧
    status.get "state" (.str "completed") = .ok (.str "completed")

/-- A step stores what may be stored. -/
def Op.StoresClean : Op → Prop
  | idemSet _ _ _ result => Cached result
  | _ => True

/-- What an allowed read of the store answers. -/
def Op.AnswersClean : (o : Op) → o.Res → Prop
  | idemGet _, answer => ∀ t result, answer = .ok (some (t, result)) → Cached result
  | _, _ => True

/-- The steps of the inbound path that a thread with these rights may take. -/
def Rights.AllowsBase (rights : Rights) (o : Op) : Prop :=
  (o.writes = true → rights.queue) ∧ o.StoresClean

section Contract

variable (subscribed : Subscription → Prop)

/-- The steps a thread with these rights may take. -/
def Rights.Allows (rights : Rights) : ServerOp → Prop
  | .base o => rights.AllowsBase o
  | .openStream _ => rights.streams
  | .startStream _ => rights.streams
  | .closeStream _ => rights.streams
  | .closeIdleStreams => rights.streams
  | .getPending _ => rights.streams
  | .sendLine _ line => rights.streams ∧ AllFiltered (eventTexts line.payload)
  | .pushEvent _ event => CleanEvent event
  | .createPushConfig _ => rights.configs
  | .deletePushConfig .. => rights.configs
  | .addSubscription .. => False
  | .removeSubscription _ => False
  | .send response => rights.responds response
  | .deliver url payload _ => AllFiltered (pushTexts payload) ∧ ∃ sub, subscribed sub ∧ sub.url = url
  | _ => True

/-- What the programs rely on. -/
def GoodAnswer : (o : ServerOp) → o.Res → Prop
  | .base o, answer => o.AnswersClean answer
  | .getPending _, lines => ∀ line ∈ lines, AllFiltered (eventTexts line.payload)
  | .pushEvent _ event, pushed => pushed.event.kind = event.kind
  | .subscriptionsOf _, answer => ∀ subs, answer = .ok subs → ∀ sub ∈ subs, subscribed sub
  | _, _ => True

/-- What the shared state owes to them. -/
structure Sound (s : ServerState) : Prop where
  stored : ∀ key entry, OrderedDict.get? s.world.idem key = some entry → Cached entry.result
  pending : ∀ id stream, s.streams.streams.get? id = some stream →
    ∀ line ∈ stream.pending, AllFiltered (eventTexts line.payload)
  subscriptions : ∀ id sub, s.subscriptions.store.get? id = some sub → subscribed sub

/-- The program keeps to the rights, and what it returns is as `ends` says. -/
def KeepsTo (rights : Rights) {α : Type} (p : ServerProc α) (ends : α → Prop) : Prop :=
  p.Relies (GoodAnswer subscribed) (rights.Allows subscribed) ends

/-- The same for a program that can raise an exception. -/
def HandlerKeepsTo (rights : Rights) {α : Type} (p : Handler α) (ends : α → Prop) : Prop :=
  KeepsTo subscribed rights p.run fun result => ∀ a, result = .ok a → ends a

end Contract

/-! ### The state stays sound -/

section Sound

variable {subscribed : Subscription → Prop} {s : ServerState} {site : Site}

/-- At the start, with any subscriptions. -/
theorem sound_init {clock : Time} {subs : SubscriptionStore}
    (hsubs : ∀ id sub, subs.store.get? id = some sub → subscribed sub) :
    Sound subscribed { ServerState.init clock with subscriptions := subs } where
  stored key entry h := by cases (OrderedDict.get?_empty key).symm.trans h
  pending id stream h := by cases (OrderedDict.get?_empty id).symm.trans h
  subscriptions := hsubs

/-- An entry was there before, or it is the one that was stored. -/
theorem entry_of_onStore {P : Platform} {clock : Time} {o : Op} {store : IdempotencyStore}
    {key : Json} {entry : IdempotencyEntry}
    (h : OrderedDict.get? (o.onStore P clock store) key = some entry) :
    OrderedDict.get? store key = some entry ∨ ∃ t payload, o = .idemSet key t payload entry.result := by
  cases o with
  | checkConflict k payload =>
      change OrderedDict.get? (store.checkConflict P.digest clock k payload).2 key = _ at h
      unfold IdempotencyStore.checkConflict at h
      split_ifs at h
      · exact Or.inl (IdempotencyStore.get?_of_dropExpired h)
      · exact Or.inl h
  | idemGet k =>
      change OrderedDict.get? (store.get clock k).2 key = _ at h
      unfold IdempotencyStore.get at h
      split_ifs at h
      · exact Or.inl (IdempotencyStore.get?_of_dropExpired h)
      · exact Or.inl h
  | idemSet k t payload result =>
      change OrderedDict.get? (OrderedDict.set store k _) key = _ at h
      rw [OrderedDict.get?_set] at h
      split_ifs at h with hkey
      · obtain rfl := Option.some.inj h
        rw [hkey]
        exact Or.inr ⟨t, payload, rfl⟩
      · exact Or.inl h
  | evictExpired =>
      change OrderedDict.get? (store.evictExpired clock) key = _ at h
      rw [IdempotencyStore.get?_evictExpired] at h
      exact Or.inl (IdempotencyStore.live?_eq_some_iff.mp h).1
  | _ => exact Or.inl h

/-- The event an artifact is pushed with, or a status. -/
theorem eventTexts_pushed {e : SseEvent} (h : CleanEvent e) (timestamp : String) :
    AllFiltered (eventTexts (e.payload timestamp)) := by
  unfold CleanEvent at h
  unfold SseEvent.payload
  cases hkind : e.kind with
  | status => exact allFiltered_nil
  | artifact artifact metadata =>
      rw [hkind] at h
      change AllFiltered (messageTexts (artifact.orElse (.obj [])) ++ [])
      rw [List.append_nil, Json.orElse]
      split_ifs
      · exact h
      · exact allFiltered_nil

@[simp] theorem cleanEvent_stamp {stream : SseStream} {e : SseEvent} :
    CleanEvent (stream.stamp e) ↔ CleanEvent e := by
  have hkind : (stream.stamp e).kind = e.kind := by
    unfold SseStream.stamp
    split <;> rfl
  unfold CleanEvent
  rw [hkind]

/-- A buffered message was there before, or it is the one that was pushed. -/
theorem pending_of_onStreams {now : Time} {o : ServerOp} {streamer : SseStreamer}
    {id : StreamId} {stream : SseStream} {line : SseLine}
    (h : (o.onStreams site now streamer).streams.get? id = some stream)
    (hline : line ∈ stream.pending) :
    (∃ before, streamer.streams.get? id = some before ∧ line ∈ before.pending) ∨
      ∃ e timestamp before, o = .pushEvent id e ∧
        line = .pushed (SseStream.stamp before e) timestamp := by
  cases o with
  | openStream t =>
      change (streamer.openStream now t).2.streams.get? id = _ at h
      rw [SseStreamer.get?_openStream] at h
      split_ifs at h
      · obtain rfl := Option.some.inj h
        cases hline
      · exact Or.inl ⟨_, h, hline⟩
  | pushEvent id' e =>
      change (streamer.pushEvent now (site.isoNow now) id' e).2.streams.get? id = _ at h
      rw [SseStreamer.get?_pushEvent] at h
      split_ifs at h with hid
      · obtain ⟨before, hbefore, rfl⟩ := Option.map_eq_some_iff.mp h
        subst hid
        rcases List.mem_append.mp hline with hline | hline
        · exact Or.inl ⟨before, hbefore, hline⟩
        · exact Or.inr ⟨e, _, before, rfl, List.mem_singleton.mp hline⟩
      · exact Or.inl ⟨_, h, hline⟩
  | closeStream id' =>
      change (streamer.closeStream id').streams.get? id = _ at h
      rw [SseStreamer.get?_closeStream] at h
      split_ifs at h
      exact Or.inl ⟨_, h, hline⟩
  | getPending id' =>
      change (streamer.getPending id').2.streams.get? id = _ at h
      rw [SseStreamer.get?_getPending] at h
      split_ifs at h with hid
      · obtain ⟨before, hbefore, rfl⟩ := Option.map_eq_some_iff.mp h
        cases hline
      · exact Or.inl ⟨_, h, hline⟩
  | closeIdleStreams =>
      change (streamer.closeIdleStreams now site.idleTimeout).streams.get? id = _ at h
      rw [SseStreamer.get?_closeIdleStreams] at h
      exact Or.inl ⟨_, (Option.filter_eq_some_iff.mp h).1, hline⟩
  | _ => exact Or.inl ⟨_, h, hline⟩

/-- **A step that is allowed keeps the state sound.** -/
theorem sound_after {rights : Rights} {o : ServerOp} (h : Sound subscribed s)
    (hallowed : rights.Allows subscribed o) : Sound subscribed (o.after site s) := by
  refine ⟨fun key entry hentry => ?_, fun id stream hstream line hline => ?_,
    fun id sub hsub => ?_⟩
  · cases o with
    | base o =>
        rcases entry_of_onStore hentry with hold | ⟨t, payload, rfl⟩
        · exact h.stored key entry hold
        · exact hallowed.2
    | _ => exact h.stored key entry hentry
  · rcases pending_of_onStreams hstream hline with ⟨before, hbefore, hline⟩ |
      ⟨e, timestamp, before, rfl, rfl⟩
    · exact h.pending id before hbefore line hline
    · exact eventTexts_pushed (cleanEvent_stamp.mpr hallowed) timestamp
  · cases o with
    | addSubscription => exact hallowed.elim
    | removeSubscription => exact hallowed.elim
    | _ => exact h.subscriptions id sub hsub

/-- **In a sound state every answer is good.** -/
theorem goodAnswer_of_sound (h : Sound subscribed s) (o : ServerOp) :
    GoodAnswer subscribed o (o.answer site s) := by
  cases o with
  | base o =>
      cases o with
      | idemGet key =>
          intro t result hanswer
          change (s.world.idem.get s.world.clock key).1 = _ at hanswer
          unfold IdempotencyStore.get at hanswer
          split_ifs at hanswer
          obtain ⟨entry, hlive, heq⟩ := Option.map_eq_some_iff.mp (Except.ok.inj hanswer)
          obtain ⟨-, rfl⟩ := Prod.mk.inj heq
          exact h.stored key entry (IdempotencyStore.live?_eq_some_iff.mp hlive).1
      | _ => exact trivial
  | getPending id =>
      intro line hline
      change line ∈ (s.streams.getPending id).1 at hline
      unfold SseStreamer.getPending at hline
      split at hline
      · cases hline
      · rename_i stream hstream
        exact h.pending id stream hstream line hline
  | pushEvent id event =>
      change (s.streams.pushEvent _ _ id event).1.event.kind = event.kind
      unfold SseStreamer.pushEvent SseStream.stamp
      split
      · rfl
      · dsimp only
        split <;> rfl
  | subscriptionsOf t =>
      intro subs hanswer sub hsub
      change s.subscriptions.subscriptionsOf t = _ at hanswer
      unfold SubscriptionStore.subscriptionsOf at hanswer
      split_ifs at hanswer
      obtain rfl := Except.ok.inj hanswer
      obtain ⟨id, -, hget⟩ := List.mem_filterMap.mp hsub
      exact h.subscriptions id sub hget
  | _ => exact trivial

/-- The surroundings touch none of it. -/
theorem Sound.move (h : Sound subscribed s) (e : ServerEnv) : Sound subscribed (e.move s) := by
  cases e with
  | tick d => exact ⟨h.stored, h.pending, h.subscriptions⟩
  | hangUp id => exact ⟨h.stored, h.pending, h.subscriptions⟩

/-- What `Reaches.relies` asks of a step. -/
theorem sound_of_serve (rights : ServerCall → Rights) (x : ServerCall) (o : ServerOp)
    (s : ServerState) (r : o.Res) (s' : ServerState) (h : Sound subscribed s)
    (hallowed : (rights x).Allows subscribed o) (hserve : serve site o s = some (r, s')) :
    Sound subscribed s' ∧ GoodAnswer subscribed o r := by
  obtain ⟨-, rfl, rfl⟩ := serve_eq_some_iff.mp hserve
  exact ⟨sound_after h hallowed, goodAnswer_of_sound h o⟩

end Sound

/-! ### Handlers that rely on good answers -/

section Owes

variable {good : (o : ServerOp) → o.Res → Prop} {allowed : ServerOp → Prop} {α β : Type}

/-- As long as answers are good, the handler performs what is allowed, and what it returns is
as `ends` says. -/
def Owes (good : (o : ServerOp) → o.Res → Prop) (allowed : ServerOp → Prop) (p : Handler α)
    (ends : α → Prop) : Prop :=
  p.run.Relies good allowed fun result => ∀ a, result = .ok a → ends a

theorem Owes.bind {p : Handler α} {f : α → Handler β} {mid : α → Prop} {ends : β → Prop}
    (hp : Owes good allowed p mid) (hf : ∀ a, mid a → Owes good allowed (f a) ends) :
    Owes good allowed (p >>= f) ends :=
  Prog.Relies.bind_except hp (fun a hmid => hf a (hmid a rfl)) fun _ _ _ h => nomatch h

theorem Owes.mono {p : Handler α} {ends ends' : α → Prop} (h : Owes good allowed p ends)
    (hends : ∀ a, ends a → ends' a) : Owes good allowed p ends' :=
  Prog.Relies.mono (fun _ hresult a ha => hends a (hresult a ha)) h

theorem owes_pure {a : α} {ends : α → Prop} (h : ends a) : Owes good allowed (pure a) ends := by
  rintro b hb
  obtain rfl := Except.ok.inj hb
  exact h

theorem owes_exceptLift {p : ServerProc α} {ends : α → Prop} (h : p.Relies good allowed ends) :
    Owes good allowed (ExceptT.lift p) ends := by
  refine Prog.Relies.bind h fun a ha b hb => ?_
  obtain rfl := Except.ok.inj hb
  exact ha

theorem owes_call {o : ServerOp} (h : allowed o) : Owes good allowed (call o) (good o) :=
  owes_exceptLift (p := server o) ⟨h, fun _ hgood => hgood⟩

/-- A step whose answer does not matter. -/
theorem owes_call_bind {o : ServerOp} {f : o.Res → Handler β} {ends : β → Prop} (h : allowed o)
    (hf : ∀ r, Owes good allowed (f r) ends) : Owes good allowed (call o >>= f) ends :=
  (owes_call h).bind fun r _ => hf r

/-- A computation that comes first. -/
theorem owes_compute_bind {x : Except PyError α} {f : α → Handler β} {ends : β → Prop}
    (hf : ∀ a, x = .ok a → Owes good allowed (f a) ends) :
    Owes good allowed (compute x >>= f) ends := by
  have hx : Owes good allowed (compute x) fun a => x = .ok a := fun _ h => h
  exact hx.bind hf

/-- Whatever is raised, one more step is made of it. -/
theorem Owes.guarded {handler : Handler Unit} {error : PyError → HttpResponse}
    (h : Owes good allowed handler fun _ => True) (herror : ∀ e, allowed (.send (error e))) :
    Owes good allowed (guarded handler error) fun _ => True := by
  refine Prog.Relies.bind h ?_
  rintro (e | _) -
  · exact ⟨herror e, fun _ _ _ _ => trivial⟩
  · exact fun _ _ => trivial

end Owes

/-! ### Rules -/

section Rules

variable {subscribed : Subscription → Prop} {rights : Rights} {α β : Type}

theorem HandlerKeepsTo.bind {p : Handler α} {f : α → Handler β} {mid : α → Prop}
    {ends : β → Prop} (hp : HandlerKeepsTo subscribed rights p mid)
    (hf : ∀ a, mid a → HandlerKeepsTo subscribed rights (f a) ends) :
    HandlerKeepsTo subscribed rights (p >>= f) ends :=
  Owes.bind hp hf

theorem HandlerKeepsTo.mono {p : Handler α} {ends ends' : α → Prop}
    (h : HandlerKeepsTo subscribed rights p ends) (hends : ∀ a, ends a → ends' a) :
    HandlerKeepsTo subscribed rights p ends' :=
  Owes.mono h hends

theorem keepsTo_pure {a : α} {ends : α → Prop} (h : ends a) :
    HandlerKeepsTo subscribed rights (pure a) ends :=
  owes_pure h

theorem keepsTo_compute {x : Except PyError α} {ends : α → Prop} (h : ∀ a, x = .ok a → ends a) :
    HandlerKeepsTo subscribed rights (compute x) ends := h

theorem keepsTo_attempt {p : ServerProc (Except PyError α)} {ends : α → Prop}
    (h : KeepsTo subscribed rights p fun result => ∀ a, result = .ok a → ends a) :
    HandlerKeepsTo subscribed rights (attempt p) ends := h

theorem keepsTo_exceptLift {p : ServerProc α} {ends : α → Prop}
    (h : KeepsTo subscribed rights p ends) :
    HandlerKeepsTo subscribed rights (ExceptT.lift p) ends :=
  owes_exceptLift h

theorem keepsTo_server {o : ServerOp} (h : rights.Allows subscribed o) :
    KeepsTo subscribed rights (server o) (GoodAnswer subscribed o) := ⟨h, fun _ hgood => hgood⟩

theorem keepsTo_call {o : ServerOp} (h : rights.Allows subscribed o) :
    HandlerKeepsTo subscribed rights (call o) (GoodAnswer subscribed o) :=
  owes_call h

/-- A step whose answer does not matter. -/
theorem keepsTo_call_bind {o : ServerOp} {f : o.Res → Handler β} {ends : β → Prop}
    (h : rights.Allows subscribed o)
    (hf : ∀ r, HandlerKeepsTo subscribed rights (f r) ends) :
    HandlerKeepsTo subscribed rights (call o >>= f) ends :=
  owes_call_bind h hf

/-- A computation that comes first. -/
theorem keepsTo_compute_bind {x : Except PyError α} {f : α → Handler β} {ends : β → Prop}
    (hf : ∀ a, x = .ok a → HandlerKeepsTo subscribed rights (f a) ends) :
    HandlerKeepsTo subscribed rights (compute x >>= f) ends :=
  owes_compute_bind hf

end Rules

end HermesA2A
