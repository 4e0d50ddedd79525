import HermesA2A.RemoteCalls
import HermesA2A.Server.Readable

/-!
# What a peer can answer

A tool that calls another agent is to return a dictionary, whatever the other side sends.  What
it is sent it takes apart with and without looking at its type, and what is raised is caught in
the polls only.  Here the bodies for which nothing is raised are described by their shape.

* `parsableTask` — a Task that `parse_task_result` can read (`parseTaskResult_isOk`).
* `parsableBody` — a body that can be read: a dictionary with an error, or with such a Task
  (`callAndParse_isOk`).
* `pollLoop_parsable` — whatever comes back from the polls, the loop keeps a Task that can be read.
* `client_survives_iff` — the tools return a dictionary exactly for the bodies that can be read.
-/

namespace HermesA2A

/-! ### Shapes -/

/-- `for x in j or []` goes through. -/
def Json.loopable : Json → Bool
  | .arr _ => true
  | .obj _ => true
  | .str _ => true
  | j => !j.truthy

/-- A message or an artifact whose parts can be gone through, or something else that is left
out. -/
def parsableMessage : Json → Bool
  | .obj fields => ((fields.lookup "parts").getD (.arr [])).loopable
  | _ => true

/-- Artifacts that can be gone through, each of them readable. -/
def parsableArtifacts : Json → Bool
  | .arr artifacts => artifacts.all parsableMessage
  | j => j.loopable

/-- A dictionary whose artifacts, status message and message can be read. -/
def parsableTask (task : Json) : Bool :=
  task.isDict &&
    (parsableArtifacts (task.getIfDict "artifacts" (.arr [])) &&
      (parsableMessage ((task.getIfDict "status" (.obj [])).getIfDict "message" (.obj [])) &&
        parsableMessage (task.getIfDict "message" (.obj []))))

/-- The Task in a result: under `task`, or the result itself. -/
def taskIn (rpcResult : Json) : Json :=
  ((rpcResult.orElse (.obj [])).getIfDict "task" (.obj [])).orElse (rpcResult.orElse (.obj []))

/-- A dictionary that reports an error, or has a Task that can be read. -/
def parsableBody (locale : Locale) (body : Json) : Bool :=
  body.isDict && ((parseJsonRpcError locale body).truthy ||
    parsableTask (taskIn (body.getIfDict "result" (.obj []))))

/-- A call that fails is told apart, and has no body to be read. -/
def HttpOutcome.parsable (locale : Locale) : HttpOutcome → Bool
  | .body j => parsableBody locale j
  | _ => true

/-! ### Reading a Task -/

section Task

theorem iterate_isOk (j : Json) : ((j.orElse (.arr [])).iterate).isOk = j.loopable := by
  cases htruthy : j.truthy with
  | true =>
      rw [Json.orElse_of_truthy htruthy]
      cases j <;> first | rfl | simp [Json.iterate, Json.loopable, htruthy]
  | false =>
      rw [Json.orElse_of_falsy htruthy]
      cases j <;> simp [Json.iterate, Json.loopable, htruthy]

theorem extractTextFromParts_isOk (parts : Json) :
    (extractTextFromParts parts).isOk = parts.loopable := by
  rw [← iterate_isOk, extractTextFromParts]
  exact isOk_map _ _

theorem chunkOf_isOk (j : Json) : (chunkOf j).isOk = parsableMessage j := by
  cases j with
  | obj fields => exact (isOk_map _ _).trans (extractTextFromParts_isOk _)
  | _ => rfl

theorem artifactChunks_isOk (artifacts : List Json) :
    (artifactChunks artifacts).isOk = artifacts.all parsableMessage := by
  induction artifacts with
  | nil => rfl
  | cons artifact artifacts ih =>
      rw [artifactChunks, List.all_cons, ← chunkOf_isOk, ← ih]
      exact isOk_bind fun chunk _ => isOk_map _ _

/-- What is gone through in a dictionary or a text is no message. -/
theorem artifacts_isOk (j : Json) :
    ((j.orElse (.arr [])).iterate >>= artifactChunks).isOk = parsableArtifacts j := by
  have htexts : ∀ texts : List String, (texts.map Json.str).all parsableMessage = true := by
    intro texts
    rw [List.all_map]
    exact List.all_eq_true.mpr fun _ _ => rfl
  cases htruthy : j.truthy with
  | true =>
      rw [Json.orElse_of_truthy htruthy]
      cases j with
      | arr artifacts => exact artifactChunks_isOk artifacts
      | obj fields =>
          refine (artifactChunks_isOk _).trans ?_
          have hkeys := htexts (fields.map Prod.fst)
          rwa [List.map_map] at hkeys
      | str text =>
          refine (artifactChunks_isOk _).trans ?_
          have hchars := htexts (text.toList.map String.singleton)
          rwa [List.map_map] at hchars
      | _ => simp [Json.iterate, parsableArtifacts, Json.loopable, htruthy]
  | false =>
      rw [Json.orElse_of_falsy htruthy]
      cases j with
      | arr artifacts =>
          have hnil : artifacts = [] := by simpa [Json.truthy] using htruthy
          rw [hnil]
          rfl
      | _ =>
          refine (artifactChunks_isOk []).trans ?_
          simp [parsableArtifacts, Json.loopable, htruthy]

/-- **A Task is read** exactly if it can be. -/
theorem parseTaskResult_isOk (rpcResult defaultTaskId : Json) :
    (parseTaskResult rpcResult defaultTaskId).isOk = parsableTask (taskIn rpcResult) := by
  have hparse : parseTaskResult rpcResult defaultTaskId =
      ((taskIn rpcResult).get "artifacts" (.arr []) >>= fun artifacts =>
        ((artifacts.orElse (.arr [])).iterate >>= artifactChunks) >>= fun fromArtifacts =>
          chunkOf (((taskIn rpcResult).getIfDict "status" (.obj [])).getIfDict "message"
            (.obj [])) >>= fun fromStatus =>
              (fun fromMessage => TaskResult.mk
                ((taskIn rpcResult).getIfDict "id" defaultTaskId)
                (((taskIn rpcResult).getIfDict "status" (.obj [])).getIfDict "state"
                  (.str "unknown"))
                (String.intercalate "\n" (fromArtifacts ++ fromStatus ++ fromMessage)).strip
                (rpcResult.orElse (.obj []))) <$>
                  chunkOf ((taskIn rpcResult).getIfDict "message" (.obj []))) := by
    unfold parseTaskResult
    simp only [bind_assoc]
    rfl
  rw [hparse, parsableTask]
  cases taskIn rpcResult with
  | obj fields =>
      rw [Json.get_obj, ok_bind, ← chunkOf_isOk, ← chunkOf_isOk, ← artifacts_isOk]
      refine (isOk_bind fun fromArtifacts _ => ?_).trans (Bool.true_and _).symm
      exact isOk_bind fun fromStatus _ => isOk_map _ _
  | _ => rfl

end Task

/-! ### Reading a body -/

section Body

variable {locale : Locale} {targetUrl taskId : String} {timeout : ℤ}

/-- A result that is replaced by nothing has the Task that nothing has. -/
theorem taskIn_orElse (result : Json) : taskIn (result.orElse (.obj [])) = taskIn result := by
  unfold taskIn
  rw [Json.orElse_orElse_self]

/-- What has a Task that can be read is a dictionary. -/
theorem exists_fields_of_parsable {result : Json} (h : parsableTask (taskIn result) = true) :
    ∃ fields, result.orElse (.obj []) = .obj fields := by
  cases hresult : result.orElse (.obj []) with
  | obj fields => exact ⟨fields, rfl⟩
  | _ =>
      have htask : taskIn result = result.orElse (.obj []) := by
        unfold taskIn
        rw [hresult]
        rfl
      rw [htask, hresult] at h
      cases h

/-- What a call leaves to be read: a message, or the result of a dictionary that reports no
error. -/
theorem rpcCall_cases (locale : Locale) (targetUrl : String) (timeout : ℤ)
    (answer : HttpOutcome) :
    (∃ errorMsg, errorMsg ≠ "" ∧ answer.parsable locale = true ∧
      rpcCall locale targetUrl timeout answer = .ok (.obj [], errorMsg)) ∨
    (∃ result, answer.parsable locale = parsableTask (taskIn result) ∧
      rpcCall locale targetUrl timeout answer = .ok (result.orElse (.obj []), "")) ∨
    (answer.parsable locale = false ∧
      ∃ e, rpcCall locale targetUrl timeout answer = .error e) := by
  cases answer with
  | connectionError => exact Or.inl ⟨_, by simp, rfl, rfl⟩
  | timeoutError => exact Or.inl ⟨_, by simp, rfl, rfl⟩
  | failed exc => exact Or.inl ⟨_, by simp, rfl, rfl⟩
  | body j =>
      cases j with
      | obj fields =>
          have hparsable : (HttpOutcome.body (.obj fields)).parsable locale =
              ((parseJsonRpcError locale (.obj fields)).truthy ||
                parsableTask (taskIn ((fields.lookup "result").getD (.obj [])))) := rfl
          cases herror : (parseJsonRpcError locale (.obj fields)).truthy with
          | true =>
              refine Or.inl ⟨"Remote agent error: " ++
                locale.format (parseJsonRpcError locale (.obj fields)), by simp, ?_, ?_⟩
              · rw [hparsable, herror, Bool.true_or]
              · exact if_pos herror
          | false =>
              refine Or.inr (Or.inl ⟨(fields.lookup "result").getD (.obj []), ?_, ?_⟩)
              · rw [hparsable, herror, Bool.false_or]
              · exact if_neg (Bool.eq_false_iff.mp herror)
      | _ => exact Or.inr (Or.inr ⟨rfl, _, rfl⟩)

/-- **A body is read** exactly if it can be. -/
theorem callAndParse_isOk (locale : Locale) (targetUrl : String) (timeout : ℤ) (taskId : Json)
    (answer : HttpOutcome) :
    (callAndParse locale targetUrl timeout taskId answer).isOk = answer.parsable locale := by
  unfold callAndParse
  rcases rpcCall_cases locale targetUrl timeout answer with
    ⟨errorMsg, hne, hparsable, hcall⟩ | ⟨result, hparsable, hcall⟩ | ⟨hparsable, e, hcall⟩
  · rw [hcall, hparsable, ok_bind]
    dsimp only
    rw [if_pos hne]
    rfl
  · rw [hcall, hparsable, ok_bind, ← taskIn_orElse, ← parseTaskResult_isOk _ taskId]
    exact isOk_map _ _
  · rw [hcall, hparsable]
    rfl

end Body

/-! ### The polls -/

/-- The loop keeps a result that can be read. -/
def PollState.Parsable (s : PollState) : Prop :=
  ∃ result, s.rpcResult = result.orElse (.obj []) ∧ parsableTask (taskIn result) = true

section Polls

variable {locale : Locale} {remoteTaskId : Json} {s : PollState}

/-- What a poll brings can be read. -/
theorem pollOnce_ok {pollResult pollInner pollState : Json}
    (h : pollOnce locale remoteTaskId pollResult = .ok (some (pollInner, pollState))) :
    ∃ result, pollInner = result.orElse (.obj []) ∧ parsableTask (taskIn result) = true := by
  unfold pollOnce at h
  split_ifs at h
  · cases h
  · obtain ⟨inner, hinner, h⟩ := exists_of_bind_ok h
    obtain ⟨parsed, hparsed, h⟩ := exists_of_bind_ok h
    obtain ⟨rfl, -⟩ := Prod.mk.inj (Option.some.inj (Except.ok.inj h))
    obtain ⟨result, -, hresult⟩ := exists_of_bind_ok hinner
    obtain rfl := Except.ok.inj hresult
    refine ⟨result, rfl, ?_⟩
    rw [← taskIn_orElse, ← parseTaskResult_isOk _ remoteTaskId, hparsed]
    rfl

/-- **One round** keeps a result that can be read, whatever the answer. -/
theorem PollState.Parsable.round (h : s.Parsable) (locale : Locale) (remoteTaskId : Json)
    (answer : HttpOutcome) :
    (s.round locale remoteTaskId answer).1.Parsable := by
  unfold PollState.round
  split
  · rename_i pollResult
    split
    · exact h
    · rename_i pollInner pollState hpoll
      unfold PollState.record
      dsimp only
      split_ifs
      · exact pollOnce_ok hpoll
      · exact h
    · exact h
  · exact h

/-- **The loop** keeps one, whatever the answers. -/
theorem pollLoop_parsable (answers : List HttpOutcome) :
    ∀ {s : PollState}, s.Parsable → (pollLoop locale remoteTaskId answers s).Parsable := by
  induction answers with
  | nil => exact fun h => h
  | cons answer answers ih =>
      intro s h
      rw [pollLoop]
      split
      rename_i s' left hround
      have hkept : s'.Parsable := by
        have hstep := h.round locale remoteTaskId answer
        rwa [hround] at hstep
      split_ifs
      · exact hkept
      · exact ih hkept

end Polls

/-! ### The tools -/

/-- The tool returns a dictionary. -/
def ReturnsDict (outcome : Except PyError Json) : Prop := ∃ fields, outcome = .ok (.obj fields)

section Tools

variable {locale : Locale} {targetUrl name taskId : String} {timeout pollAttempts : ℤ}
  {answer : HttpOutcome}

theorem isOk_of_returnsDict {outcome : Except PyError Json} (h : ReturnsDict outcome) :
    outcome.isOk = true := by
  obtain ⟨fields, rfl⟩ := h
  rfl

/-- **A message**: only the first answer matters. -/
theorem sendRemoteTask_returnsDict (polls : ℕ → HttpOutcome) :
    ReturnsDict (sendRemoteTask locale targetUrl taskId timeout pollAttempts answer polls) ↔
      answer.parsable locale = true := by
  unfold sendRemoteTask
  rcases rpcCall_cases locale targetUrl timeout answer with
    ⟨errorMsg, hne, hparsable, hcall⟩ | ⟨result, hparsable, hcall⟩ | ⟨hparsable, e, hcall⟩
  · rw [hcall, ok_bind]
    dsimp only
    rw [if_pos hne]
    exact iff_of_true ⟨_, rfl⟩ hparsable
  · rw [hcall, ok_bind, hparsable]
    dsimp only
    rw [if_neg (not_not.mpr rfl)]
    have hisOk := parseTaskResult_isOk (result.orElse (.obj [])) (.str taskId)
    rw [taskIn_orElse] at hisOk
    cases hparse : parseTaskResult (result.orElse (.obj [])) (.str taskId) with
    | error e =>
        rw [hparse] at hisOk
        rw [← hisOk]
        exact iff_of_false (fun h => by cases isOk_of_returnsDict h) nofun
    | ok parsed =>
        rw [hparse] at hisOk
        refine iff_of_true ?_ hisOk.symm
        rw [ok_bind]
        have hstart : PollState.Parsable ⟨result.orElse (.obj []), parsed.state, 0⟩ :=
          ⟨result, rfl, hisOk.symm⟩
        -- with or without polls, the result that is left can be read
        have hpolled : ∀ polling : Bool, PollState.Parsable (if polling = true then
            pollLoop locale parsed.taskId ((List.range pollAttempts.toNat).map polls)
              ⟨result.orElse (.obj []), parsed.state, 0⟩
            else ⟨result.orElse (.obj []), parsed.state, 0⟩) := by
          intro polling
          split_ifs
          · exact pollLoop_parsable _ hstart
          · exact hstart
        generalize decide ((parsed.state = .str "working" ∨ parsed.state = .str "submitted") ∧
          parsed.taskId.truthy = true ∧ pollAttempts > 0) = polling
        have hpolled := hpolled polling
        revert hpolled
        generalize (if polling = true then
          pollLoop locale parsed.taskId ((List.range pollAttempts.toNat).map polls)
            ⟨result.orElse (.obj []), parsed.state, 0⟩
          else ⟨result.orElse (.obj []), parsed.state, 0⟩) = polled
        rintro ⟨last, hlast, hreadable⟩
        split_ifs
        · exact ⟨_, rfl⟩
        · obtain ⟨fields, hfields⟩ := exists_fields_of_parsable hreadable
          rw [← taskIn_orElse, ← parseTaskResult_isOk _ (.str taskId), ← hlast] at hreadable
          obtain ⟨parsed, hparsed⟩ := exists_of_isOk hreadable
          rw [hparsed, hlast, hfields]
          exact ⟨_, rfl⟩
  · rw [hcall, hparsable]
    exact iff_of_false (fun h => by cases isOk_of_returnsDict h) nofun

/-- A cancellation. -/
theorem cancelRemoteTask_returnsDict (localCanceled : Bool) :
    ReturnsDict (cancelRemoteTask locale targetUrl taskId localCanceled timeout answer) ↔
      answer.parsable locale = true := by
  have hisOk := callAndParse_isOk locale targetUrl timeout (.str taskId) answer
  unfold cancelRemoteTask
  cases hcall : callAndParse locale targetUrl timeout (.str taskId) answer with
  | error e =>
      rw [hcall] at hisOk
      rw [← hisOk]
      exact iff_of_false (fun h => by cases isOk_of_returnsDict h) nofun
  | ok outcome =>
      rw [hcall] at hisOk
      refine iff_of_true ?_ hisOk.symm
      cases outcome <;> exact ⟨_, rfl⟩

/-- A worker. -/
theorem runRemoteTask_returnsDict (hermes : Json) :
    ReturnsDict (runRemoteTask locale name targetUrl taskId hermes timeout answer) ↔
      answer.parsable locale = true := by
  have hisOk := callAndParse_isOk locale targetUrl timeout (.str taskId) answer
  unfold runRemoteTask
  cases hcall : callAndParse locale targetUrl timeout (.str taskId) answer with
  | error e =>
      rw [hcall] at hisOk
      rw [← hisOk]
      exact iff_of_false (fun h => by cases isOk_of_returnsDict h) nofun
  | ok outcome =>
      rw [hcall] at hisOk
      refine iff_of_true ?_ hisOk.symm
      cases outcome with
      | inl errorMsg => exact ⟨_, rfl⟩
      | inr parsed =>
          rw [ok_bind]
          dsimp only
          split_ifs <;> exact ⟨_, rfl⟩

end Tools

/-- **A peer cannot make a tool fail exactly with what can be read.** -/
theorem client_survives_iff (agents : AgentDirectory) (name url skill message taskId : String)
    (localCanceled : Bool) (hermes : Json) (timeout pollAttempts : ℤ) (answer : HttpOutcome)
    (polls : ℕ → HttpOutcome) :
    ((callAndParse agents.locale url timeout (.str taskId) answer).isOk = true ↔
      answer.parsable agents.locale = true) ∧
    (ReturnsDict (handleSendProtocolTask agents name url skill message taskId timeout pollAttempts
        answer polls) ↔
      ((agents.sendTarget name url skill message).isOk = true →
        answer.parsable agents.locale = true)) ∧
    (ReturnsDict (handleCancelProtocolTask agents name url taskId localCanceled timeout answer) ↔
      ((agents.cancelTarget name url taskId localCanceled).isOk = true →
        answer.parsable agents.locale = true)) ∧
    (ReturnsDict (handleCallMode3 agents name message taskId hermes timeout answer) ↔
      ((agents.workerTarget name message).isOk = true →
        answer.parsable agents.locale = true)) := by
  refine ⟨by rw [callAndParse_isOk], ?_, ?_, ?_⟩
  · unfold handleSendProtocolTask
    cases agents.sendTarget name url skill message with
    | error err => exact iff_of_true ⟨err, rfl⟩ nofun
    | ok targetUrl => simpa using sendRemoteTask_returnsDict polls
  · unfold handleCancelProtocolTask
    cases agents.cancelTarget name url taskId localCanceled with
    | error err => exact iff_of_true ⟨err, rfl⟩ nofun
    | ok targetUrl => simpa using cancelRemoteTask_returnsDict localCanceled
  · unfold handleCallMode3
    cases agents.workerTarget name message with
    | error err => exact iff_of_true ⟨err, rfl⟩ nofun
    | ok targetUrl => simpa using runRemoteTask_returnsDict hermes

/-- A peer that sends a text in the place of the Task. -/
theorem text_task_raises : ¬ ∀ body : Json,
    (callAndParse ⟨id, Json.dumps⟩ "https://peer" 120 (.str "task-1") (.body body)).isOk = true := by
  intro h
  exact absurd (h (.obj [("result", .obj [("task", .str "done")])])) (by decide)

end HermesA2A
