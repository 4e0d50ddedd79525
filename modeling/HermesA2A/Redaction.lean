import HermesA2A.Requests

/-!
# What leaves the agent is filtered

A response text reaches a peer in a result of SendMessage, in GetTask and ListTasks, on a
stream, in a push notification: `ServerOp.shown`.  Every one of these goes through
`filter_outbound`, but for one.  `_handle_task_send_mode3` puts its Task together by hand
and leaves the filter out, and what a worker printed is sent as it is.

So a step shows filtered texts only if and only if it is not the answer of a worker that
has printed something `Marked`, that is, anything the filter would change.
-/

namespace HermesA2A

/-! ### Workers -/

/-- What the subprocess of a worker came to. -/
inductive WorkerProcess
  | timedOut (seconds : ℤ)
  | exited (returncode : ℤ) (stdout stderr : String)

/-- `_handle_task_send_mode3`, after `_run_worker_subprocess`; `loads` is `json.loads`,
if that succeeds, and `repr` is Python's. -/
def WorkerProcess.outcome (loads : String → Option Json) (repr : String → String) :
    WorkerProcess → WorkerOutcome
  | timedOut seconds => .failed ("Mode 3 worker timed out after " ++ toString seconds ++ "s")
  | exited returncode stdout stderr =>
      if returncode = 0 then
        match loads stdout with
        | none =>
            .failed ("Mode 3: non-JSON worker output: " ++
              repr (String.ofList (stdout.toList.take 200)))
        | some result =>
            match result.get "response" (.str "") with
            | .error e => .raised e
            | .ok response => .completed response
      else .failed ("Mode 3 worker error: " ++ String.ofList (stderr.strip.toList.take 300))

/-- The text in the Task of a worker. -/
def WorkerOutcome.text? : WorkerOutcome → Option Json
  | raised _ => none
  | failed text => some (.str text)
  | completed response => some response

/-- The worker's text is one that the filter would change, or no text at all. -/
def WorkerOutcome.Marked (worker : WorkerOutcome) : Prop :=
  ∃ text, worker.text? = some text ∧ ∀ s, text = .str s → ¬ Unmarked s

/-- The response is the answer of the request's worker. -/
def HttpRequest.WorkerAnswer (site : Site) (req : HttpRequest) (response : HttpResponse) : Prop :=
  ∃ params rpcId task,
    planTaskSend site.platform.table (req.message params rpcId) = .ok (.answer .worker task) ∧
      response = rpcResult (.obj [("task", task)]) rpcId

section Answer

variable {site : Site} {req : HttpRequest} {response : HttpResponse}

/-- **A worker's answer shows the worker's text as it is.** -/
theorem bodyTexts_workerAnswer (h : req.WorkerAnswer site response) :
    ∃ text, req.worker.text? = some text ∧ bodyTexts response.body = [text] := by
  obtain ⟨params, rpcId, task, hplan, rfl⟩ := h
  cases planTaskSend_plans hplan with
  | worker _ _ _ _ _ task_eq =>
      obtain ⟨taskId, c, htask⟩ := handleTaskSendMode3_spec task_eq
      have hshow : ∀ {text : Json} {state : String},
          bodyTexts (rpcResult (.obj [("task",
            plainTask [("id", taskId), ("context_id", c)] state text)]) rpcId).body = [text] := by
        intro text state
        refine (bodyTexts_task rfl ?_).trans (taskTexts_plainTask rfl rfl)
        rintro tasks ⟨⟩
      rcases htask with ⟨text, hworker, rfl⟩ | ⟨response, hworker, rfl⟩
      · exact ⟨.str text, by rw [show req.worker = .failed text from hworker]; rfl, hshow⟩
      · exact ⟨response, by rw [show req.worker = .completed response from hworker]; rfl, hshow⟩

/-- Such an answer is filtered only if there was nothing to filter. -/
theorem allFiltered_workerAnswer_iff (h : req.WorkerAnswer site response) :
    AllFiltered (bodyTexts response.body) ↔ ¬ req.worker.Marked := by
  obtain ⟨text, htext, hshown⟩ := bodyTexts_workerAnswer h
  rw [hshown, allFiltered_singleton]
  constructor
  · rintro hfiltered ⟨text', htext', hmarked⟩
    obtain rfl := Option.some.inj (htext.symm.trans htext')
    obtain ⟨r, rfl⟩ := hfiltered
    exact hmarked _ rfl ((isFiltered_iff _).mp (isFiltered_filterOutbound r))
  · intro hunmarked
    by_contra hnot
    refine hunmarked ⟨text, htext, ?_⟩
    rintro s rfl hs
    exact hnot ((isFiltered_iff s).mpr hs)

end Answer

/-! ### Runs -/

/-- What a call may send: clean responses, and the answer of its worker. -/
def ServerCall.MayAnswer (site : Site) (x : ServerCall) (response : HttpResponse) : Prop :=
  CleanResponse response ∨ ∃ req, x = .post req ∧ req.WorkerAnswer site response

section Run

variable {site : Site} {clock : Time} {subs : SubscriptionStore} {c : ServerConfig}

/-- **Every step of every run is one its call may take.** -/
theorem allowed_of_reaches
    (hc : (httpServer site).Reaches anyServerStep
      { ServerState.init clock with subscriptions := subs } c)
    {i : ℕ} {a : Act ServerOp ServerOp.Res} (h : (i, a) ∈ c.trace) :
    ∃ x, c.Calls i x ∧ (x.rights (·.MayAnswer site)).Allows (fun _ => True) a.op := by
  have hprog : ∀ x : ServerCall, KeepsTo (fun _ => True) (x.rights (·.MayAnswer site))
      (x.prog site) fun _ => True :=
    prog_keepsTo site (fun _ _ hclean => Or.inl hclean)
      fun req params rpcId task hplan => Or.inr ⟨req, rfl, params, rpcId, task, hplan, rfl⟩
  obtain ⟨x, hcalls, hallowed, -⟩ := hc.relies_event (sound_init fun _ _ _ => trivial)
    (fun e s hs => hs.move e) (sound_of_serve _) hprog h
  exact ⟨x, hcalls, hallowed⟩

/-- **What a step shows is filtered**, unless it is the answer of a worker that has
printed something marked. -/
theorem shown_filtered_iff
    (hc : (httpServer site).Reaches anyServerStep
      { ServerState.init clock with subscriptions := subs } c)
    {i : ℕ} {a : Act ServerOp ServerOp.Res} (h : (i, a) ∈ c.trace) :
    AllFiltered a.op.shown ↔
      ¬ ∃ req response, c.Calls i (.post req) ∧ a.op = .send response ∧
        req.WorkerAnswer site response ∧ req.worker.Marked := by
  constructor
  · rintro hfiltered ⟨req, response, -, hop, hanswer, hmarked⟩
    rw [hop] at hfiltered
    exact (allFiltered_workerAnswer_iff hanswer).mp hfiltered hmarked
  · intro hnot
    obtain ⟨x, hcalls, hallowed⟩ := allowed_of_reaches hc h
    obtain ⟨op, res⟩ := a
    cases op with
    | send response =>
        rcases hallowed with hclean | ⟨req, rfl, hanswer⟩
        · exact hclean
        · refine (allFiltered_workerAnswer_iff hanswer).mpr fun hmarked => ?_
          exact hnot ⟨req, response, hcalls, rfl, hanswer, hmarked⟩
    | sendLine id line => exact hallowed.2
    | deliver url payload hmacKey => exact hallowed.1
    | _ => exact allFiltered_nil

end Run

/-! ### A worker that fails -/

/-- A message for a worker of this side, whose process ends with this on `stderr`. -/
def failingWorker (stderr : String) : HttpRequest :=
  { HttpRequest.sample "/" (rpcBody "SendMessage"
      [ ("message", .obj
          [ ("parts", .arr [.obj [("text", .str "hi")]]),
            ("metadata", .obj [("worker_at", .str "target"), ("agent_name", .str "bob")]) ]) ]) with
    worker := WorkerProcess.outcome (fun _ => none) id (.exited 1 "" stderr) }

/-- Does the text match a sensitive pattern? -/
def isSensitive : Json → Bool
  | .str s => SENSITIVE_PATTERNS.any (·.search s.toList)
  | _ => false

theorem not_isFiltered_of_isSensitive {text : Json} (h : isSensitive text = true) :
    ¬ IsFiltered text := by
  rintro ⟨response, rfl⟩
  have hunmarked := (isFiltered_iff _).mp (isFiltered_filterOutbound response)
  obtain ⟨p, hp, hsearch⟩ := List.any_eq_true.mp h
  rw [hunmarked.unmatched p hp] at hsearch
  cases hsearch

/-- A password on `stderr` is sent to the peer. -/
theorem worker_leaks_password :
    ∃ c, (httpServer .sample).Reaches anyServerStep (ServerState.init 0) c ∧
      ∃ e ∈ c.trace, ∃ text ∈ e.2.op.shown, isSensitive text = true ∧ ¬ IsFiltered text := by
  have hplay : (playServer .sample [.post (failingWorker "password: hunter2")]
      (List.replicate 3 (.act 0))).any
      (fun c => c.trace.any fun e => e.2.op.shown.any isSensitive) = true := by decide +kernel
  obtain ⟨c, hc, -, hany⟩ := exists_of_playServer hplay
  obtain ⟨e, he, hshown⟩ := List.any_eq_true.mp hany
  obtain ⟨text, htext, hsensitive⟩ := List.any_eq_true.mp hshown
  exact ⟨c, hc, e, he, text, htext, hsensitive, not_isFiltered_of_isSensitive hsensitive⟩

/-- Every step of a run with such a worker. -/
theorem shown_of_failing_worker :
    ∃ c, (httpServer .sample).Reaches anyServerStep (ServerState.init 0) c ∧
      ∃ e ∈ c.trace, (AllFiltered e.2.op.shown ↔
        ¬ ∃ req response, c.Calls e.1 (.post req) ∧ e.2.op = .send response ∧
          req.WorkerAnswer .sample response ∧ req.worker.Marked) := by
  have hplay : (playServer .sample [.post (failingWorker "no such profile")]
      (List.replicate 3 (.act 0))).any
      (fun c => c.trace.any fun _ => true) = true := by decide +kernel
  obtain ⟨c, hc, -, hany⟩ := exists_of_playServer hplay
  obtain ⟨e, he, -⟩ := List.any_eq_true.mp hany
  exact ⟨c, hc, e, he, @shown_filtered_iff _ _ .empty _ hc _ _ he⟩

end HermesA2A
