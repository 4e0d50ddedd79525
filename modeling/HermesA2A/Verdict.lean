import HermesA2A.Acknowledgement
import HermesA2A.StateMachine

/-!
# The verdict of a synchronous SendMessage

A waiting handler takes any response for a completion: it looks whether
`task.response` is `None`, and builds a completed Task otherwise.  `cancel`, the
webhook-failure callback and the watchdog write their own texts into that field,
so each of them makes a waiting handler report success, and store it under the
idempotency key.

`truthfulVerdicts` keeps them away from tasks whose handler is still to read the
response.  What the handler reads then comes from `complete`
(`completes_of_read`), and that it was completed stays true
(`recorded_of_completesIn`).
-/

namespace HermesA2A

open Machine

/-! ### Who still waits -/

/-- The object an `enqueue` step accepted. -/
def accepted? : Event → Option PendingTask
  | ⟨.enqueue .., result⟩ => result
  | _ => none

/-- What a `task.response` step has read. -/
def read? : Event → Option (Option String)
  | ⟨.readResponse _, response⟩ => some response
  | _ => none

/-- The handler has read its response for the last time: it was `None`, or this
was the second time. -/
def hasRead (h : List Event) : Bool :=
  let reads := h.filterMap read?
  decide (none ∈ reads) || decide (2 ≤ reads.length)

/-- A handler that had the object accepted is still to read its response. -/
def awaited (c : Config) (ref : ℕ) : Bool :=
  c.trace.any fun e => (accepted? e.2).any (·.ref = ref) && !hasRead (historyOf e.1 c.trace)

/-- The step cancels an awaited object, or writes to it from outside. -/
def answersAwaited (c : Config) : Op → Bool
  | .cancel t => (c.shared.queue.pending.get? t).any fun task => awaited c task.ref
  | .writeResponse task _ => awaited c task.ref
  | _ => false

/-- The records are respected, and no awaited object is canceled or written to from
outside. -/
def truthfulVerdicts : Test := fun c i o => respectsRecords c i o && !answersAwaited c o

theorem truthfulVerdicts_iff {c : Config} {i : ℕ} {o : Op} :
    truthfulVerdicts c i o = true ↔
      respectsRecords c i o = true ∧ answersAwaited c o = false := by
  unfold truthfulVerdicts
  rw [Bool.and_eq_true_iff, Bool.not_eq_true']

theorem acceptsIn_iff {tr : Trace} {i : ℕ} {task : PendingTask} :
    AcceptsIn tr i task ↔ ∃ e ∈ historyOf i tr, accepted? e = some task := by
  constructor
  · rintro ⟨t, text, metadata, contextId, createdAt, h⟩
    exact ⟨_, mem_historyOf.mpr h, rfl⟩
  · rintro ⟨⟨o, r⟩, hmem, h⟩
    unfold accepted? at h
    split at h
    · rename_i t text metadata contextId createdAt result heq
      subst h
      rw [heq, mem_historyOf] at hmem
      exact ⟨t, text, metadata, contextId, createdAt, hmem⟩
    · cases h

theorem awaited_of_acceptsIn {c : Config} {i : ℕ} {task : PendingTask}
    (h : AcceptsIn c.trace i task) (hread : hasRead (c.history i) = false) :
    awaited c task.ref = true := by
  obtain ⟨t, text, metadata, contextId, createdAt, h⟩ := h
  refine List.any_eq_true.mpr ⟨_, h, ?_⟩
  change hasRead (historyOf i c.trace) = false at hread
  simp [accepted?, hread]

/-- Who is still to read was still to read before. -/
theorem hasRead_of_snoc {tr : Trace} {i : ℕ} {e : ℕ × Event}
    (h : hasRead (historyOf i (tr ++ [e])) = false) : hasRead (historyOf i tr) = false := by
  obtain ⟨j, a⟩ := e
  by_cases hij : j = i
  · subst hij
    rw [historyOf_snoc_self] at h
    simp only [hasRead, List.filterMap_append, List.mem_append, List.length_append,
      Bool.or_eq_false_iff, decide_eq_false_iff_not, not_or] at h ⊢
    exact ⟨h.1.1, fun hlen => h.2 (by omega)⟩
  · rwa [historyOf_snoc_of_ne hij] at h

section Histories

variable {P : Platform} {s : Submission} {createdAt : Time} {task : PendingTask} {start : Time}

theorem filterMap_read?_waitedHistory :
    (waitedHistory P s createdAt task start).filterMap read? = [] := by
  unfold waitedHistory enqueuedHistory clearedHistory
  split_ifs <;> rfl

/-- A handler that is about to read has not read for the last time. -/
theorem hasRead_of_pre {x : Call} {h : List Event} {transport : Transport} {req : SendRequest}
    (hpre : x.pre P h (.readResponse task)) (hx : x.Submits P transport req s) :
    hasRead h = false ∧ ∃ e ∈ h, accepted? e = some task := by
  obtain ⟨createdAt, start, hh⟩ := hpre transport req s hx
  have haccepted : ∃ e ∈ waitedHistory P s createdAt task start, accepted? e = some task :=
    ⟨_, List.mem_append_left _ (List.mem_append_right _
      (List.mem_cons_of_mem _ (List.mem_cons_of_mem _ (List.mem_singleton.mpr rfl)))), rfl⟩
  rcases hh with rfl | ⟨response₀, rfl⟩
  · refine ⟨?_, haccepted⟩
    unfold hasRead
    rw [filterMap_read?_waitedHistory]
    rfl
  · obtain ⟨e, he, hacc⟩ := haccepted
    refine ⟨?_, e, List.mem_append_left _ he, hacc⟩
    unfold hasRead
    rw [List.filterMap_append, filterMap_read?_waitedHistory]
    rfl

/-- A handler that answers has had one object accepted. -/
theorem filterMap_accepted?_storedHistory {req : SendRequest} {response₀ response : String} :
    (storedHistory P req s createdAt task start response₀ response).filterMap accepted? =
      [task] := by
  unfold storedHistory readHistory waitedHistory enqueuedHistory clearedHistory
  split_ifs <;> rfl

end Histories

section Runs

variable {P : Platform} {t₀ : Time} {c : Config} {i : ℕ} {task : PendingTask}

/-- **The response of an awaited object is `None` or comes from `complete`.** -/
theorem response_of_awaited (hc : (system P).Reaches (Allows truthfulVerdicts) (World.init t₀) c)
    (hacc : AcceptsIn c.trace i task) (hread : hasRead (c.history i) = false) {response : String}
    (hresponse : (c.shared.queue.cells task.ref).response = some response) :
    CompletesIn c.trace task response := by
  have hinv : ∀ i task, AcceptsIn c.trace i task → hasRead (historyOf i c.trace) = false →
      ∀ response, (c.shared.queue.cells task.ref).response = some response →
        CompletesIn c.trace task response := by
    refine run_invariant (I := fun tr w => ∀ i task, AcceptsIn tr i task →
      hasRead (historyOf i tr) = false → ∀ response,
        (w.queue.cells task.ref).response = some response → CompletesIn tr task response)
      ?_ ?_ ?_ hc
    · rintro i task ⟨_, _, _, _, _, h⟩
      exact absurd h List.not_mem_nil
    · exact fun _ _ _ h => h
    · intro c j x o hbase ih hok _ _ i task hacc hread response hresponse
      change ((o.onQueue c.shared.queue).cells task.ref).response = some response at hresponse
      rcases acceptsIn_snoc hacc with hacc | ⟨-, hnew⟩
      · have hread := hasRead_of_snoc hread
        have hawaited : awaited c task.ref = true := awaited_of_acceptsIn hacc hread
        have hmem := hbase.mem_objects hacc
        have hold : (c.shared.queue.cells task.ref).response = some response →
            CompletesIn (c.trace ++ [(j, ⟨o, o.answer P c.shared⟩)]) task response :=
          fun h => (ih i task hacc hread response h).snoc
        have hsame : ∀ {t task'}, c.shared.queue.pending.get? t = some task' →
            task'.ref = task.ref → task' = task := fun hp href =>
          hbase.wf.ref_inj _ (hbase.wf.pending hp).2 _ hmem href
        rcases cells_onQueue o c.shared.queue task.ref with heq | ⟨new, hacc', href, -⟩ |
          ⟨t, task', response', rfl, hp, href, heq⟩ | ⟨t, task', rfl, hp, href, -⟩ |
          ⟨task', response', rfl, href, -⟩ | ⟨task', rfl, -, heq⟩ | ⟨task', rfl, -, heq⟩
        · rw [heq] at hresponse
          exact hold hresponse
        · -- a new object has a new reference
          have := hbase.wf.ref_lt task hmem
          rw [← href, hacc'.spec.2.1] at this
          exact absurd this (Nat.lt_irrefl _)
        · obtain rfl := hsame hp href
          rw [heq] at hresponse
          unfold TaskQueue.completeCell at hresponse
          split_ifs at hresponse
          · exact hold hresponse
          · obtain rfl := Option.some.inj hresponse
            exact completesIn_of_pending hp
        · -- the guard keeps `cancel` away from an awaited object
          have := (truthfulVerdicts_iff.mp hok).2
          rw [answersAwaited, hp, Option.any_some, href, hawaited] at this
          cases this
        · have := (truthfulVerdicts_iff.mp hok).2
          rw [answersAwaited, href, hawaited] at this
          cases this
        · rw [heq] at hresponse
          exact hold hresponse
        · rw [heq] at hresponse
          exact hold hresponse
      · rw [hnew.cell] at hresponse
        cases hresponse
  exact hinv i task hacc hread response hresponse

/-- **What a handler reads comes from `complete`.** -/
theorem completes_of_read (hc : (system P).Reaches (Allows truthfulVerdicts) (World.init t₀) c)
    {x : Call} {transport : Transport} {req : SendRequest} {s : Submission} (hx : c.Calls i x)
    (hsub : x.Submits P transport req s) {response : String}
    (hev : (i, (⟨.readResponse task, some response⟩ : Event)) ∈ c.trace) :
    CompletesIn c.trace task response := by
  obtain ⟨tr₁, tr₂, htr⟩ := List.append_of_mem hev
  obtain ⟨b, y, k, s', hb, hbtr, hthread, -, hexec, hsteps⟩ := hc.event htr
  obtain rfl : y = x := by
    obtain ⟨p, hp⟩ := Machine.calls_of_steps hsteps ⟨_, hthread⟩
    obtain ⟨p', hp'⟩ := hx
    exact (Prod.mk.inj (Option.some.inj (hp.symm.trans hp'))).1
  obtain ⟨hread, hacc⟩ := hasRead_of_pre (pre_of_thread hb hthread) hsub
  obtain ⟨-, hanswer, -⟩ := (exec_eq_some_iff (P := P) (o := .readResponse task)).mp hexec
  obtain ⟨j, t, h⟩ := response_of_awaited hb (acceptsIn_iff.mpr hacc) hread hanswer.symm
  refine ⟨j, t, ?_⟩
  rw [htr, ← hbtr]
  exact List.mem_append_left _ h

/-- What a handler stores or answers was completed, and is recorded so. -/
theorem completed_of_read (hc : (system P).Reaches (Allows truthfulVerdicts) (World.init t₀) c)
    {x : Call} {transport : Transport} {req : SendRequest} {s : Submission} (hx : c.Calls i x)
    (hsub : x.Submits P transport req s) {createdAt : Time} {start : Time}
    {response₀ response : String}
    (hhist : ∀ a ∈ readHistory P s createdAt task start response₀ response, (i, a) ∈ c.trace) :
    task.taskId = s.taskId ∧ c.shared.recorded s.taskId = some .completed ∧
      CompletesIn c.trace task response := by
  have hcompletes : CompletesIn c.trace task response :=
    completes_of_read hc hx hsub (hhist _ (by simp [readHistory]))
  have henqueue := hhist ⟨.enqueue s.taskId (sanitizeInbound s.userText) s.metadata s.contextId
    createdAt, some task⟩ (by simp [readHistory, waitedHistory, enqueuedHistory])
  have hid : task.taskId = s.taskId := ((reaches_base hc).accepted henqueue).2.1
  have hrespects : (system P).Reaches (Allows respectsRecords) (World.init t₀) c :=
    hc.mono fun _ _ _ hok => (truthfulVerdicts_iff.mp hok).1
  exact ⟨hid, hid ▸ recorded_of_completesIn hrespects hcompletes, hcompletes⟩

/-- The Task a handler has built from a response is the Task it sends, except that
REST loses the text. -/
theorem sent_of_completedTask {transport : Transport} {req : SendRequest} {s : Submission}
    {responses : List HttpResponse} {response : HttpResponse} {sent : Json} {r : String}
    (hreply : replySend transport req s (.answered (completedTask s req.stamp task r)) =
      .ok responses)
    (hmem : response ∈ responses) (hsent : taskIn? transport response = some sent) :
    taskId? sent = some s.taskId ∧
      (transport = .jsonRpc ∨ filterOutbound r = "" → replyText sent = .str (filterOutbound r)) := by
  have hfound := sent_of_answered hreply hmem hsent
  cases transport with
  | jsonRpc =>
      obtain rfl : sent = completedTask s req.stamp task r := hfound
      exact ⟨taskId?_buildTaskObject .., fun _ => replyText_buildTaskObject ..⟩
  | rest =>
      obtain ⟨text, htext, rfl⟩ := hfound
      obtain rfl := Except.ok.inj ((get_response_buildTaskObject ..).symm.trans htext)
      refine ⟨rfl, ?_⟩
      rintro (h | h)
      · cases h
      · rw [h]
        rfl

/-- A handler whose message was accepted reports a completed Task only for a
response it has read. -/
theorem answered_of_completed {transport : Transport} {req : SendRequest}
    {responses : List HttpResponse} {response : HttpResponse} {sent : Json}
    (hpost : sendPost P transport req (c.history i) (.replied responses))
    (hacc : AcceptsIn c.trace i task) (hmem : response ∈ responses)
    (hsent : taskIn? transport response = some sent)
    (hstate : taskState? sent = some (.str "completed")) :
    ∃ s createdAt start response₀ r, (Call.sendMessage transport req).Submits P transport req s ∧
      c.history i = storedHistory P req s createdAt task start response₀ r ∧
        replySend transport req s (.answered (completedTask s req.stamp task r)) =
          .ok responses := by
  obtain ⟨e, he, haccepted⟩ := acceptsIn_iff.mp hacc
  change e ∈ c.history i at he
  unfold sendPost at hpost
  cases hplan : planSend P.table transport req with
  | error _ =>
      rw [hplan] at hpost
      rw [hpost.1] at he
      cases he
  | ok plan =>
      rw [hplan] at hpost
      cases plan with
      | answer exit early =>
          rw [hpost.1] at he
          cases he
      | submit s =>
          obtain ⟨result, hawait, houtcome⟩ := hpost
          obtain ⟨awaited, rfl, hreply⟩ := reply_of_outcomeOf houtcome.symm
          generalize hhist : c.history i = h at hawait he
          cases awaited with
          | answered result =>
              cases hawait with
              | replay =>
                  -- nothing is accepted before a replay
                  rcases List.mem_cons.mp he with rfl | he
                  · cases haccepted
                  · obtain rfl := List.mem_singleton.mp he
                    cases haccepted
              | answered createdAt task' start response₀ r =>
                  have hin := List.mem_filterMap.mpr ⟨e, he, haccepted⟩
                  rw [filterMap_accepted?_storedHistory] at hin
                  obtain rfl := List.mem_singleton.mp hin
                  exact ⟨s.markOrigin, createdAt, start, response₀, r, ⟨rfl, s, hplan, rfl⟩, rfl,
                    hreply⟩
          | refused error =>
              obtain ⟨code, message, hbody⟩ := hawait.refused_body
              cases (taskState?_of_refused hbody hreply hmem hsent).symm.trans hstate
          | timedOut =>
              have hworking := (sent_of_timedOut hreply hmem hsent).2.1
              exact absurd (hworking.symm.trans hstate) (by decide)

/-- **Verdicts are true.**  In a run that keeps away from awaited tasks, a handler
that answers with a completed Task answers with what `complete` was given, and the
task is recorded as completed; and so is every task whose result is stored. -/
theorem verdicts_are_true
    (hc : (system P).Reaches (Allows truthfulVerdicts) (World.init t₀) c) :
    (∀ i transport req responses response sent task,
      c.Ends i (.sendMessage transport req) (.replied responses) → AcceptsIn c.trace i task →
        response ∈ responses → taskIn? transport response = some sent →
          taskState? sent = some (.str "completed") →
      taskId? sent = some task.taskId ∧ c.shared.recorded task.taskId = some .completed ∧
        ∃ r, CompletesIn c.trace task r ∧
          (transport = .jsonRpc ∨ filterOutbound r = "" →
            replyText sent = .str (filterOutbound r))) ∧
    ∀ key entry, OrderedDict.get? c.shared.idem key = some entry →
      c.shared.recorded entry.taskId = some .completed ∧
        ∃ task r, task.taskId = entry.taskId ∧ CompletesIn c.trace task r ∧
          replyText entry.result = .str (filterOutbound r) := by
  constructor
  · intro i transport req responses response sent task hends hacc hmem hsent hstate
    obtain ⟨s, createdAt, start, response₀, r, hsub, hhist, hreply⟩ :=
      answered_of_completed (post_of_ends hc hends) hacc hmem hsent hstate
    have hevents : ∀ a ∈ readHistory P s createdAt task start response₀ r, (i, a) ∈ c.trace := by
      intro a ha
      refine mem_historyOf.mp ?_
      show a ∈ c.history i
      rw [hhist]
      exact List.mem_append_left _ ha
    obtain ⟨hid, hrecorded, hcompletes⟩ := completed_of_read hc ⟨_, hends⟩ hsub hevents
    obtain ⟨hsentId, htext⟩ := sent_of_completedTask hreply hmem hsent
    rw [hid]
    exact ⟨hsentId, hrecorded, r, hcompletes, htext⟩
  · intro key entry hentry
    obtain ⟨i, payload, hev, -⟩ := reaches_stored hc hentry
    obtain ⟨transport, req, s, createdAt, task, start, response₀, r, ⟨x, hx, hsub⟩, -, ht, -,
      hresult, hevents⟩ := spec_of_idemSet hc hev
    obtain ⟨hid, hrecorded, hcompletes⟩ := completed_of_read hc hx hsub hevents
    rw [ht, hresult]
    exact ⟨hrecorded, task, r, hid, hcompletes, replyText_buildTaskObject ..⟩

end Runs

/-! ### A verdict, and a false one -/

/-- A message with an idempotency key, its answer, and its cancellation. -/
def verdictCalls : List Call :=
  [ .sendMessage .jsonRpc (.sample [("id", .str "a"), ("idempotencyKey", .str "k")] "hi"),
    .postLlmCall (.str "a") "done" 0 0,
    .cancelTask .jsonRpc (.str "a") .null Stamp.sample ]

/-- The message of these calls, once accepted. -/
def verdictTask : PendingTask where
  ref := 0
  taskId := .str "a"
  text := "hi"
  metadata := .obj [("sender_name", .str "agent-10.0.0.1"), ("_a2a_origin", .str "peer")]
  contextId := .str "a"
  createdAt := 0

/-- The reply that reports its completion with a text. -/
def verdictReply (text : String) : HttpResponse :=
  rpcResult (.obj [("task",
    buildTaskObject (.str "a") "completed" (.str "a") (some text) none Stamp.sample)]) (.int 1)

/-- The message is accepted, answered, and the handler reports it. -/
theorem answered_verdict_true :
    ∃ (c : Config) (r : String),
      (system Platform.sample).Reaches (Allows truthfulVerdicts) (World.init 0) c ∧
        c.shared.recorded (.str "a") = some .completed ∧ CompletesIn c.trace verdictTask r := by
  have hplay : (playSample truthfulVerdicts
      (List.replicate 6 (.act 0) ++ List.replicate 3 (.act 1) ++ List.replicate 4 (.act 0))
      (Config.calling verdictCalls)).any (fun c =>
        decide (c.outcome? 0 = some (.replied [verdictReply "done"])) &&
          (c.history 0).any fun e => decide (accepted? e = some verdictTask)) = true := by
    decide +kernel
  obtain ⟨c, hc, hcalls, hp⟩ := exists_of_playCalls hplay
  obtain ⟨houtcome, hany⟩ := Bool.and_eq_true_iff.mp hp
  obtain ⟨e, he, hacc⟩ := List.any_eq_true.mp hany
  obtain ⟨-, hrecorded, r, hcompletes, -⟩ := (verdicts_are_true hc).1 0 _ _ _ _ _ verdictTask
    ((hcalls 0 _ rfl).ends (of_decide_eq_true houtcome))
    (acceptsIn_iff.mpr ⟨e, he, of_decide_eq_true hacc⟩) (List.mem_singleton.mpr rfl) rfl
    (taskState?_buildTaskObject ..)
  exact ⟨c, r, hc, hrecorded, hcompletes⟩

/-- The message is canceled while its handler waits: the handler reports it as
completed, with the marker as its text, and stores that under the key. -/
theorem canceled_reported_completed :
    ∃ (c : Config) (entry : IdempotencyEntry),
      (system Platform.sample).Reaches (Allows anyStep) (World.init 0) c ∧
        c.outcome? 0 = some (.replied [verdictReply "(canceled)"]) ∧
          c.shared.recorded (.str "a") = some .canceled ∧
            OrderedDict.get? c.shared.idem (.str "k") = some entry ∧ entry.taskId = .str "a" ∧
              taskState? entry.result = some (.str "completed") := by
  have hplay : (playSample anyStep
      (List.replicate 6 (.act 0) ++ List.replicate 2 (.act 2) ++ List.replicate 4 (.act 0))
      (Config.calling verdictCalls)).any (fun c =>
        decide (c.outcome? 0 = some (.replied [verdictReply "(canceled)"]) ∧
          c.shared.recorded (.str "a") = some .canceled) &&
            (OrderedDict.get? c.shared.idem (.str "k")).any fun entry =>
              decide (entry.taskId = .str "a" ∧
                taskState? entry.result = some (.str "completed"))) = true := by
    decide +kernel
  obtain ⟨c, hc, -, hp⟩ := exists_of_playCalls hplay
  obtain ⟨hreported, hstored⟩ := Bool.and_eq_true_iff.mp hp
  obtain ⟨entry, hentry, hresult⟩ := (Option.any_eq_true _ _).mp hstored
  obtain ⟨houtcome, hrecorded⟩ := of_decide_eq_true hreported
  obtain ⟨hid, hstate⟩ := of_decide_eq_true hresult
  exact ⟨c, entry, hc, houtcome, hrecorded, hentry, hid, hstate⟩

end HermesA2A
