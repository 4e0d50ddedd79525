import HermesA2A.A2ASpec.SendPayload
import HermesA2A.Exchanges
import HermesA2A.Identity
import HermesA2A.Redaction
import HermesA2A.Wire

/-!
# Workers

A task can be given to a worker: a process of its own that runs the agent of another profile.
The parent writes the parameters on its standard input, the worker prints the result on its
standard output, both as JSON.  The worker takes no more than a megabyte and has a time-out of
its own; the parent waits no longer than the same time-out.

* `workerMain` — the worker, from the bytes on its standard input.
* `runWorkerSubprocess` — the parent's half.
* `Completes` — the agent comes to an answer, in time and with parameters that fit.
* `Tells`, `worker_exchange` — whoever has asked for it, on either side, is told exactly that
  answer; or else that there is none.

Two exceptions nobody catches on either side, and then nothing is told: that of `Popen`, if the
interpreter cannot be started, and that of `communicate`, about a time-out of 2147484 seconds or
more (`waitable`).  What is imported prints nothing before standard output is redirected.
-/

namespace HermesA2A

/-! ### The worker -/

/-- `MAX_STDIN_BYTES` -/
def MAX_STDIN_BYTES : ℕ := 1 * 1024 * 1024

/-- What comes of `AIAgent.run_conversation`, and of all that is done before it. -/
inductive AgentRun
  | raised (exc : String)
  | returned (result : Json)

/-- What a worker has from outside. -/
structure WorkerHost where
  locale : Locale
  floatReader : FloatReader
  decode : Json.WideDecoder
  /-- The text of what `json.loads` raises. -/
  parseError : ByteArray → String
  /-- `str(exc)` -/
  describe : PyError → String
  /-- `os.environ.get("HERMES_HOME", "")` -/
  environHome : String
  /-- The seconds until the alarm is set. -/
  startup : ℕ
  /-- What comes of the agent with this home, for this message, after how many seconds. -/
  agent : String → Json → AgentRun × ℕ
  /-- What has been logged on standard error. -/
  logged : String
  /-- The id of the result. -/
  taskId : String

/-- The parameters of a worker. -/
structure WorkerParams where
  agentHome : String
  message : Json
  timeout : ℤ

/-- `params[key]` -/
def WorkerHost.item (H : WorkerHost) (params : Json) (key : String) : Except String Json :=
  match params with
  | .obj fields =>
      match fields.lookup key with
      | some value => .ok value
      | none => .error ("'" ++ key ++ "'")
  | _ => .error (H.describe .typeError)

/-- `main`, as far as the agent; an error is the text on standard error. -/
def WorkerHost.readParams (H : WorkerHost) (raw : ByteArray) : Except String WorkerParams := do
  if raw.size > MAX_STDIN_BYTES then
    throw ("stdin input exceeds " ++ toString MAX_STDIN_BYTES ++
      " byte limit. If this is a large prompt, consider splitting the work.")
  let params ←
    match Json.loadsBytes H.floatReader H.decode raw with
    | none => throw (H.parseError raw)
    | some params => pure params
  let agentHome ← H.item params "agent_home"
  let message ← H.item params "message"
  let timeout ← (params.get "timeout" (.int 300)).mapError H.describe
  let timeout ← timeout.toInt.mapError H.describe
  let hermesHome ← (params.get "hermes_home" .null).mapError H.describe
  let hermesHome := hermesHome.orElse (.str H.environHome)
  if hermesHome.truthy = false then
    throw "ERROR: hermes_home not set in params or HERMES_HOME env var"
  match hermesHome, agentHome with
  | .str _, .str agentHome => return ⟨agentHome, message, timeout⟩
  | _, _ => throw (H.describe .typeError)

/-- The text of what the agent has returned. -/
def finalResponse (locale : Locale) (result : Json) : Except PyError String := do
  let final :=
    match result with
    | .obj fields =>
        ((fields.lookup "final_response").getD (.str "")).orElse (.str (locale.format result))
    | _ => .str (locale.format result)
  match final with
  | .str text => return text.strip
  | _ => throw .attributeError

/-- `os.path.basename` -/
def basename (path : String) : String :=
  String.ofList (path.toList.reverse.takeWhile (· ≠ '/')).reverse

/-- What the worker prints. -/
def WorkerHost.report (H : WorkerHost) (agentHome answer : String) : Json :=
  .obj [
    ("task_id", .str H.taskId),
    ("state", .str "completed"),
    ("response", .str answer),
    ("source", .str ("ephemeral:" ++ basename agentHome))]

/-- How a worker ends, and when. -/
structure WorkerEnd where
  seconds : ℕ
  returncode : ℤ
  stdout : String
  stderr : String

/-- Whatever is raised is printed. -/
def WorkerHost.exit (H : WorkerHost) (seconds : ℕ) (exc : String) : WorkerEnd :=
  ⟨seconds, 1, "", H.logged ++ exc ++ "\n"⟩

/-- `main` of the worker, with what calls it.  The alarm goes off if the agent takes too long. -/
def workerMain (H : WorkerHost) (stdin : ByteArray) : WorkerEnd :=
  match H.readParams (stdin.extract 0 (MAX_STDIN_BYTES + 1)) with
  | .error exc => H.exit H.startup exc
  | .ok params =>
      let (run, seconds) := H.agent params.agentHome params.message
      if 0 < params.timeout ∧ params.timeout ≤ seconds then
        H.exit (H.startup + params.timeout.toNat)
          ("Mode 2 worker exceeded " ++ toString params.timeout ++ "s wall-clock budget")
      else
        match run with
        | .raised exc => H.exit (H.startup + seconds) exc
        | .returned result =>
            match finalResponse H.locale result with
            | .error e => H.exit (H.startup + seconds) (H.describe e)
            | .ok answer =>
                ⟨H.startup + seconds, 0,
                  (H.report params.agentHome answer).dumpsAscii ++ "\n", H.logged⟩

/-! ### The parent -/

/-- The parameters as they are written. -/
def workerInput (agentHome hermesHome message : String) (timeout : ℤ) : Json :=
  .obj [
    ("agent_home", .str agentHome),
    ("hermes_home", .str hermesHome),
    ("message", .str message),
    ("timeout", .int timeout)]

/-- `_run_worker_subprocess`: whoever is not through by then is killed.  `popen` is what `Popen`
comes to, a process being known by what it does with its standard input. -/
def runWorkerSubprocess (popen : Except PyError (ByteArray → WorkerEnd))
    (agentHome hermesHome message : String) (timeout : ℤ) : Except PyError WorkerProcess := do
  let child ← popen
  if waitable timeout = false then throw .overflowError
  else
    let ended := child (workerInput agentHome hermesHome message timeout).dumpsAscii.toUTF8
    if timeout ≤ ended.seconds then return .timedOut timeout
    else return .exited ended.returncode ended.stdout ended.stderr

/-- What those have from outside who ask for a worker. -/
structure WorkerCaller where
  locale : Locale
  floatReader : FloatReader
  /-- `repr` of a text. -/
  repr : String → String
  /-- `_derive_hermes_home()` -/
  hermesHome : String
  /-- `os.path.isdir` -/
  isDir : String → Bool
  /-- `A2A_AGENT_NAME` -/
  senderName : String
  /-- What `Popen` raises, if it does. -/
  popenRaises : Option PyError
  /-- The ids that are drawn. -/
  uuid : String
  requestId : String
  messageId : String

/-- `Popen([venv_python, worker_script], …)` -/
def WorkerCaller.popen (C : WorkerCaller) (H : WorkerHost) :
    Except PyError (ByteArray → WorkerEnd) :=
  match C.popenRaises with
  | some e => .error e
  | none => .ok (workerMain H)

/-- `os.path.join` -/
def joinPath (path name : String) : String :=
  if "/".toList.isPrefixOf name.toList then name
  else if path = "" ∨ path.toList.getLast? = some '/' then path ++ name
  else path ++ "/" ++ name

/-- The home of a profile's agent. -/
def WorkerCaller.agentHome (C : WorkerCaller) (name : String) : String :=
  joinPath (joinPath C.hermesHome "profiles") (C.locale.lower name)

/-- The metadata of a local worker. -/
def localWorker : List (String × Json) :=
  buildHermesMetadata "worker" "local_subprocess" "" "" "local_profile"

/-- The envelope that a local call is shown in. -/
def WorkerCaller.envelope (C : WorkerCaller) (taskId message : String) (timeout : ℤ) : Json :=
  let envelope := buildTaskSendPayload {
    taskId := taskId
    message := message
    senderName := C.senderName
    hermes := localWorker
    requestId := C.requestId
    messageId := C.messageId }
  match envelope with
  | .obj fields =>
      .obj (fields.map fun field =>
        match field with
        | ("params", .obj params) => ("params", .obj (params ++ [("timeout", .int timeout)]))
        | _ => field)
  | _ => envelope

/-- An error that a tool returns. -/
def toolError (text : String) : Json := .obj [("error", .str text)]

/-- `_handle_call_mode2`; a task id that is not given is empty. -/
def handleCallMode2 (C : WorkerCaller) (H : WorkerHost) (name message taskId : String)
    (timeout : ℤ) : Except PyError Json :=
  if name = "" then return toolError "'name' is required for Mode 2"
  else if message = "" then return toolError "'message' is required for Mode 2"
  else
    let taskId := orText taskId C.uuid
    let agentHome := C.agentHome name
    if C.isDir agentHome = false then return toolError ("Agent profile not found: " ++ agentHome)
    else do
      match ← runWorkerSubprocess (C.popen H) agentHome C.hermesHome message timeout with
      | .timedOut _ => return toolError ("Mode 2 worker timed out after " ++ toString timeout ++ "s")
      | .exited returncode stdout stderr =>
          if returncode ≠ 0 then
            return toolError ("Mode 2 worker error (rc=" ++ toString returncode ++ "): " ++
              String.ofList (stderr.strip.toList.take 500))
          else
            match Json.loads C.floatReader stdout.toList with
            | none =>
                return toolError ("Mode 2 worker returned non-JSON on stdout (rc=0): " ++
                  C.repr (String.ofList (stdout.toList.take 500)))
            | some result =>
                let fields :=
                  match result with
                  | .obj fields => fields
                  | _ => [("response", .str (C.locale.format result))]
                return .obj [
                  ("task_id", .str taskId),
                  ("state", .str "completed"),
                  ("response", (fields.lookup "response").getD (.str "")),
                  ("source", .str ("ephemeral-local:" ++ name)),
                  ("mode", .str "2"),
                  ("hermes", .obj localWorker),
                  ("a2a_envelope", C.envelope taskId message timeout),
                  ("raw_result", .obj fields)]

/-- What has come of the worker, for `_handle_task_send_mode3`. -/
def WorkerCaller.outcome (C : WorkerCaller) : Except PyError WorkerProcess → WorkerOutcome
  | .error e => .raised e
  | .ok process => process.outcome (fun text => Json.loads C.floatReader text.toList) C.repr

/-- `_handle_task_send_mode3`, with its worker. -/
def WorkerCaller.handleTaskSendMode3 (C : WorkerCaller) (H : WorkerHost)
    (params metadata contextId : Json) (uuid userText : String) : Except PyError Json := do
  let job ← workerJob params metadata uuid
  let ran := runWorkerSubprocess (C.popen H) (C.agentHome job.name) C.hermesHome userText job.timeout
  HermesA2A.handleTaskSendMode3 params metadata contextId uuid (C.outcome ran)

/-! ### What comes of it -/

/-- A worker can be started, and waited for. -/
def WorkerCaller.Waits (C : WorkerCaller) (timeout : ℤ) : Prop :=
  C.popenRaises = none ∧ waitable timeout = true

/-- The agent comes to this answer: the parameters fit, and there is time enough. -/
structure Completes (H : WorkerHost) (agentHome hermesHome message : String) (timeout : ℤ)
    (answer : String) : Prop where
  fits : (workerInput agentHome hermesHome message timeout).dumpsAscii.length ≤ MAX_STDIN_BYTES
  answers : ∃ result seconds, H.agent agentHome (.str message) = (.returned result, seconds) ∧
    finalResponse H.locale result = .ok answer ∧ ((H.startup + seconds : ℕ) : ℤ) < timeout

/-- What the parent sees of a worker that it waits for. -/
theorem WorkerCaller.runWorkerSubprocess_of_waits (C : WorkerCaller) (H : WorkerHost)
    {agentHome hermesHome message : String} {timeout : ℤ} (hwaits : C.Waits timeout) :
    runWorkerSubprocess (C.popen H) agentHome hermesHome message timeout =
      let ended := workerMain H (workerInput agentHome hermesHome message timeout).dumpsAscii.toUTF8
      if timeout ≤ ended.seconds then .ok (.timedOut timeout)
      else .ok (.exited ended.returncode ended.stdout ended.stderr) := by
  have hpopen : C.popen H = .ok (workerMain H) := by
    rw [WorkerCaller.popen, hwaits.1]
  rw [runWorkerSubprocess, hpopen, ok_bind, hwaits.2]
  exact if_neg Bool.noConfusion

/-- Without that, the parent is left with an exception. -/
theorem WorkerCaller.runWorkerSubprocess_of_not_waits (C : WorkerCaller) (H : WorkerHost)
    {agentHome hermesHome message : String} {timeout : ℤ} (hwaits : ¬ C.Waits timeout) :
    ∃ e, runWorkerSubprocess (C.popen H) agentHome hermesHome message timeout = .error e := by
  unfold runWorkerSubprocess WorkerCaller.popen
  cases hraises : C.popenRaises with
  | some e => exact ⟨e, rfl⟩
  | none =>
      have hnot : waitable timeout = false :=
        Bool.eq_false_iff.mpr fun hwait => hwaits ⟨hraises, hwait⟩
      exact ⟨.overflowError, if_pos hnot⟩

theorem wellFormed_workerInput (F : FloatReader) (agentHome hermesHome message : String)
    (timeout : ℤ) : (workerInput agentHome hermesHome message timeout).WellFormed F :=
  ⟨show ["agent_home", "hermes_home", "message", "timeout"].Nodup by decide,
    trivial, trivial, trivial, trivial, trivial⟩

theorem WorkerHost.wellFormed_report (H : WorkerHost) (F : FloatReader) (agentHome answer : String) :
    (H.report agentHome answer).WellFormed F :=
  ⟨show ["task_id", "state", "response", "source"].Nodup by decide,
    trivial, trivial, trivial, trivial, trivial⟩

/-- **A printed line is read as the value.** -/
theorem loads_printed {F : FloatReader} {v : Json} (h : v.WellFormed F) :
    Json.loads F (v.dumpsAscii ++ "\n").toList = some v := by
  have hline : (v.dumpsAscii ++ "\n").toList = JsonLexer.toAscii (v.write ++ ['\n']) := by
    rw [String.toList_append, Json.dumpsAscii, String.toList_ofList, JsonLexer.toAscii_append]
    rfl
  have hends : JsonLexer.Ends ['\n'] := by
    rintro c hc
    obtain rfl := Option.some.inj hc
    decide
  rw [hline]
  refine Json.loads_toAscii ?_
  rw [Json.loads, Json.skipSpace_write h, Json.scanValue_write h _ _ hends (Nat.lt_succ_self _)]
  rfl

section Worker

variable (H : WorkerHost) {agentHome hermesHome message : String} {timeout : ℤ}

/-- **The worker has the parameters as they were meant**, if they fit. -/
theorem readParams_workerInput (hhome : hermesHome ≠ "")
    (hfits : (workerInput agentHome hermesHome message timeout).dumpsAscii.length ≤ MAX_STDIN_BYTES) :
    H.readParams ((workerInput agentHome hermesHome message timeout).dumpsAscii.toUTF8.extract 0
      (MAX_STDIN_BYTES + 1)) = .ok ⟨agentHome, .str message, timeout⟩ := by
  have hformed := wellFormed_workerInput H.floatReader agentHome hermesHome message timeout
  have hsize := size_dumpsAscii hformed
  rw [extract_of_size_le (by omega)]
  unfold WorkerHost.readParams
  rw [if_neg (by omega), Json.loadsBytes_dumpsAscii hformed H.decode]
  have htruthy : (Json.str hermesHome).truthy = true := by
    simpa [Json.truthy] using hhome
  have hagent : H.item (workerInput agentHome hermesHome message timeout) "agent_home" =
      .ok (.str agentHome) := rfl
  have hmessage : H.item (workerInput agentHome hermesHome message timeout) "message" =
      .ok (.str message) := rfl
  have htimeout : (workerInput agentHome hermesHome message timeout).get "timeout" (.int 300) =
      .ok (.int timeout) := rfl
  have hhermes : (workerInput agentHome hermesHome message timeout).get "hermes_home" .null =
      .ok (.str hermesHome) := rfl
  simp only [pure_bind, hagent, hmessage, htimeout, hhermes, Except.mapError, Json.toInt,
    ok_bind, Json.orElse_of_truthy htruthy, htruthy, Bool.true_eq_false, if_false]
  rfl

/-- Too many parameters are refused. -/
theorem readParams_of_lt (F : FloatReader) {input : Json} (hformed : input.WellFormed F)
    (hlt : MAX_STDIN_BYTES < input.dumpsAscii.length) :
    ∃ exc, H.readParams (input.dumpsAscii.toUTF8.extract 0 (MAX_STDIN_BYTES + 1)) = .error exc := by
  have hsize : (input.dumpsAscii.toUTF8.extract 0 (MAX_STDIN_BYTES + 1)).size =
      MAX_STDIN_BYTES + 1 := by
    rw [ByteArray.size_extract, size_dumpsAscii hformed]
    omega
  unfold WorkerHost.readParams
  rw [if_pos (by omega)]
  exact ⟨_, rfl⟩

/-- **If the agent completes, its result is on standard output**, whatever has been logged. -/
theorem Completes.run {C : WorkerCaller} {H : WorkerHost} {answer : String}
    (hwaits : C.Waits timeout) (hhome : hermesHome ≠ "")
    (h : Completes H agentHome hermesHome message timeout answer) :
    runWorkerSubprocess (C.popen H) agentHome hermesHome message timeout =
      .ok (.exited 0 ((H.report agentHome answer).dumpsAscii ++ "\n") H.logged) := by
  obtain ⟨result, seconds, hagent, hfinal, hlt⟩ := h.answers
  -- there is as much time before the alarm
  have halarm : ¬ (0 < timeout ∧ timeout ≤ (seconds : ℤ)) := by
    rintro ⟨-, hle⟩
    omega
  have hmain : workerMain H (workerInput agentHome hermesHome message timeout).dumpsAscii.toUTF8 =
      ⟨H.startup + seconds, 0, (H.report agentHome answer).dumpsAscii ++ "\n", H.logged⟩ := by
    unfold workerMain
    rw [readParams_workerInput H hhome h.fits]
    simp only [hagent, if_neg halarm, hfinal]
  rw [C.runWorkerSubprocess_of_waits H hwaits, hmain]
  exact if_neg (Int.not_le.mpr hlt)

/-- **Else nothing is on standard output**, and the worker has failed or is killed. -/
theorem runWorkerSubprocess_of_not_completes {C : WorkerCaller} (hwaits : C.Waits timeout)
    (hhome : hermesHome ≠ "")
    (h : ∀ answer, ¬ Completes H agentHome hermesHome message timeout answer) :
    runWorkerSubprocess (C.popen H) agentHome hermesHome message timeout =
        .ok (.timedOut timeout) ∨
      ∃ stderr, runWorkerSubprocess (C.popen H) agentHome hermesHome message timeout =
        .ok (.exited 1 "" stderr) := by
  have hended : ∀ ended, workerMain H
      (workerInput agentHome hermesHome message timeout).dumpsAscii.toUTF8 = ended →
      timeout ≤ ended.seconds ∨ (ended.returncode = 1 ∧ ended.stdout = "") := by
    rintro ended rfl
    unfold workerMain
    by_cases hfits :
        (workerInput agentHome hermesHome message timeout).dumpsAscii.length ≤ MAX_STDIN_BYTES
    · rw [readParams_workerInput H hhome hfits]
      dsimp only
      cases hagent : H.agent agentHome (.str message) with
      | mk run seconds =>
          simp only [hagent]
          split_ifs with halarm
          · exact Or.inr ⟨rfl, rfl⟩
          · cases run with
            | raised exc => exact Or.inr ⟨rfl, rfl⟩
            | returned result =>
                dsimp only
                cases hfinal : finalResponse H.locale result with
                | error e => exact Or.inr ⟨rfl, rfl⟩
                | ok answer =>
                    refine Or.inl (Int.not_lt.mp fun hlt => ?_)
                    exact h answer ⟨hfits, result, seconds, hagent, hfinal, hlt⟩
    · obtain ⟨exc, hexc⟩ := readParams_of_lt H H.floatReader
        (wellFormed_workerInput H.floatReader agentHome hermesHome message timeout)
        (Nat.lt_of_not_le hfits)
      rw [hexc]
      exact Or.inr ⟨rfl, rfl⟩
  rw [C.runWorkerSubprocess_of_waits H hwaits]
  rcases hended _ rfl with hle | ⟨hcode, hout⟩
  · exact Or.inl (if_pos hle)
  · dsimp only
    split_ifs with hle
    · exact Or.inl rfl
    · rw [hcode, hout]
      exact Or.inr ⟨_, rfl⟩

end Worker

/-! ### On either side -/

/-- What Mode 2 returns when the worker has completed. -/
def WorkerCaller.completed (C : WorkerCaller) (H : WorkerHost)
    (name message taskId : String) (timeout : ℤ) (answer : String) : Json :=
  let taskId := orText taskId C.uuid
  .obj [
    ("task_id", .str taskId),
    ("state", .str "completed"),
    ("response", .str answer),
    ("source", .str ("ephemeral-local:" ++ name)),
    ("mode", .str "2"),
    ("hermes", .obj localWorker),
    ("a2a_envelope", C.envelope taskId message timeout),
    ("raw_result", H.report (C.agentHome name) answer)]

/-- **What is told is what has happened**: an answer is told exactly if there is somebody to wait
for who completes with it, a failure exactly if nobody completes, and otherwise nothing. -/
structure Tells {β : Type} (told : Except PyError β) (answered failed : String → β) (waits : Prop)
    (completes : String → Prop) : Prop where
  answer_iff (answer : String) : told = .ok (answered answer) ↔ waits ∧ completes answer
  failure_iff : (∃ text, told = .ok (failed text)) ↔ waits ∧ ∀ answer, ¬ completes answer
  raised_iff : (∃ e, told = .error e) ↔ ¬ waits

/-- It is enough to say what is told in each case, if an answer cannot be taken for another or for
a failure. -/
theorem tells_of {β : Type} {told : Except PyError β} {answered failed : String → β}
    {completes : String → Prop} {waits : Prop} (hinj : ∀ a b, answered a = answered b → a = b)
    (hne : ∀ a text, answered a ≠ failed text)
    (hcompletes : waits → ∀ answer, completes answer → told = .ok (answered answer))
    (hnot : waits → (∀ answer, ¬ completes answer) → ∃ text, told = .ok (failed text))
    (hraises : ¬ waits → ∃ e, told = .error e) : Tells told answered failed waits completes := by
  have hwaits : ∀ b, told = .ok b → waits := by
    intro b hb
    by_contra hno
    obtain ⟨e, he⟩ := hraises hno
    cases hb.symm.trans he
  refine ⟨fun answer => ⟨fun heq => ⟨hwaits _ heq, ?_⟩, fun h => hcompletes h.1 answer h.2⟩,
    ⟨?_, fun h => hnot h.1 h.2⟩, ⟨?_, hraises⟩⟩
  · by_contra hanswer
    have hnone : ∀ other, ¬ completes other := by
      intro other hother
      have hsame := heq.symm.trans (hcompletes (hwaits _ heq) other hother)
      obtain rfl := hinj _ _ (Except.ok.inj hsame)
      exact hanswer hother
    obtain ⟨text, htext⟩ := hnot (hwaits _ heq) hnone
    exact hne answer text (Except.ok.inj (heq.symm.trans htext))
  · rintro ⟨text, htext⟩
    refine ⟨hwaits _ htext, fun answer hanswer => ?_⟩
    have hsame := (hcompletes (hwaits _ htext) answer hanswer).symm.trans htext
    exact hne answer text (Except.ok.inj hsame)
  · rintro ⟨e, he⟩ hwait
    by_cases hsome : ∃ answer, completes answer
    · obtain ⟨answer, hanswer⟩ := hsome
      cases he.symm.trans (hcompletes hwait answer hanswer)
    · obtain ⟨text, htext⟩ := hnot hwait (not_exists.mp hsome)
      cases he.symm.trans htext

/-- What a worker has printed is read as its answer. -/
theorem WorkerCaller.outcome_report (C : WorkerCaller) (H : WorkerHost)
    (agentHome answer : String) :
    C.outcome (.ok (.exited 0 ((H.report agentHome answer).dumpsAscii ++ "\n") H.logged)) =
      .completed (.str answer) := by
  rw [WorkerCaller.outcome, WorkerProcess.outcome, if_pos rfl,
    loads_printed (H.wellFormed_report C.floatReader agentHome answer)]
  rfl

theorem WorkerCaller.completed_inj {C : WorkerCaller} {H : WorkerHost} {name message taskId : String}
    {timeout : ℤ} {a b : String}
    (h : C.completed H name message taskId timeout a = C.completed H name message taskId timeout b) :
    a = b := by
  simp only [completed, Json.obj.injEq, List.cons.injEq, Prod.mk.injEq, Json.str.injEq] at h
  exact h.2.2.1.2

/-- What Mode 2 tells is decided by its worker. -/
theorem handleCallMode2_eq (C : WorkerCaller) (H : WorkerHost) {name message : String}
    (taskId : String) {timeout : ℤ} (hname : name ≠ "") (hmessage : message ≠ "")
    (hdir : C.isDir (C.agentHome name) = true) :
    ∃ told : WorkerProcess → Except PyError Json,
      handleCallMode2 C H name message taskId timeout =
        (runWorkerSubprocess (C.popen H) (C.agentHome name) C.hermesHome message timeout >>= told) ∧
      (∀ answer, told (.exited 0 ((H.report (C.agentHome name) answer).dumpsAscii ++ "\n") H.logged) =
        .ok (C.completed H name message taskId timeout answer)) ∧
      (∃ text, told (.timedOut timeout) = .ok (toolError text)) ∧
        ∀ stderr, ∃ text, told (.exited 1 "" stderr) = .ok (toolError text) := by
  unfold handleCallMode2
  rw [if_neg hname, if_neg hmessage]
  dsimp only
  rw [if_neg (by rw [hdir]; decide)]
  refine ⟨_, rfl, fun answer => ?_, ⟨_, rfl⟩, fun stderr => ⟨_, rfl⟩⟩
  dsimp only
  rw [if_neg (fun hne => hne rfl), loads_printed (H.wellFormed_report _ _ _)]
  rfl

theorem handleCallMode2_tells (C : WorkerCaller) (H : WorkerHost) (hhome : C.hermesHome ≠ "")
    {name message : String} (taskId : String) (timeout : ℤ) (hname : name ≠ "")
    (hmessage : message ≠ "") (hdir : C.isDir (C.agentHome name) = true) :
    Tells (handleCallMode2 C H name message taskId timeout)
      (C.completed H name message taskId timeout) toolError (C.Waits timeout)
      (Completes H (C.agentHome name) C.hermesHome message timeout) := by
  obtain ⟨told, heq, hcompleted, htimedOut, hexited⟩ :=
    handleCallMode2_eq C H taskId hname hmessage hdir
  rw [heq]
  refine tells_of (fun a b => WorkerCaller.completed_inj) (fun a text heq => ?_)
    (fun hwaits answer h => ?_) (fun hwaits h => ?_) fun hwaits => ?_
  · simp [WorkerCaller.completed, toolError] at heq
  · rw [h.run hwaits hhome, ok_bind, hcompleted]
  · rcases runWorkerSubprocess_of_not_completes H hwaits hhome h with hrun | ⟨stderr, hrun⟩
    · rw [hrun, ok_bind]
      exact htimedOut
    · rw [hrun, ok_bind]
      exact hexited stderr
  · obtain ⟨e, hrun⟩ := C.runWorkerSubprocess_of_not_waits H hwaits
    rw [hrun]
    exact ⟨e, rfl⟩

/-- The Task of a worker. -/
def WorkerJob.task (job : WorkerJob) (contextId : Json) (state text : String) : Json :=
  plainTask [("id", job.taskId), ("context_id", contextId.orElse job.taskId)] state (.str text)

/-- What is answered once the request has passed its checks: as the worker has ended, if it could
be waited for. -/
theorem handleTaskSendMode3_of_job {params metadata : Json} {uuid : String} {job : WorkerJob}
    (hjob : workerJob params metadata uuid = .ok job) (hhashable : job.taskId.hashable = true)
    (contextId : Json) :
    (∀ e, handleTaskSendMode3 params metadata contextId uuid (.raised e) = .error e) ∧
      (waitable job.timeout = true →
        (∀ text, handleTaskSendMode3 params metadata contextId uuid (.failed text) =
          .ok (job.task contextId "failed" text)) ∧
        ∀ answer, handleTaskSendMode3 params metadata contextId uuid (.completed (.str answer)) =
          .ok (job.task contextId "completed" answer)) := by
  unfold handleTaskSendMode3
  rw [hjob]
  simp only [ok_bind, hhashable]
  refine ⟨fun e => rfl, fun hwaits => ?_⟩
  rw [hwaits]
  exact ⟨fun text => rfl, fun answer => rfl⟩

theorem handleTaskSendMode3_tells (C : WorkerCaller) (H : WorkerHost) (hhome : C.hermesHome ≠ "")
    {params metadata : Json} (contextId : Json) {uuid : String} (userText : String) {job : WorkerJob}
    (hjob : workerJob params metadata uuid = .ok job) (hhashable : job.taskId.hashable = true) :
    Tells (C.handleTaskSendMode3 H params metadata contextId uuid userText)
      (job.task contextId "completed") (job.task contextId "failed") (C.Waits job.timeout)
      (Completes H (C.agentHome job.name) C.hermesHome userText job.timeout) := by
  have hmode3 : ∀ ran, runWorkerSubprocess (C.popen H) (C.agentHome job.name) C.hermesHome
        userText job.timeout = ran →
      C.handleTaskSendMode3 H params metadata contextId uuid userText =
        handleTaskSendMode3 params metadata contextId uuid (C.outcome ran) := by
    rintro ran rfl
    rw [WorkerCaller.handleTaskSendMode3, hjob, ok_bind]
  obtain ⟨hraised, hended⟩ := handleTaskSendMode3_of_job hjob hhashable contextId
  refine tells_of (fun a b heq => ?_) (fun a text heq => ?_) (fun hwaits answer h => ?_)
    (fun hwaits h => ?_) fun hwaits => ?_
  · simpa [WorkerJob.task, plainTask] using heq
  · simp [WorkerJob.task, plainTask] at heq
  · rw [hmode3 _ (h.run hwaits hhome), C.outcome_report]
    exact (hended hwaits.2).2 answer
  · rcases runWorkerSubprocess_of_not_completes H hwaits hhome h with hrun | ⟨stderr, hrun⟩
    · rw [hmode3 _ hrun]
      exact ⟨_, (hended hwaits.2).1 _⟩
    · rw [hmode3 _ hrun]
      exact ⟨_, (hended hwaits.2).1 _⟩
  · obtain ⟨e, hrun⟩ := C.runWorkerSubprocess_of_not_waits H hwaits
    rw [hmode3 _ hrun]
    exact ⟨e, hraised e⟩

/-- A worker whose agent answers after two seconds. -/
def WorkerHost.sample : WorkerHost where
  locale := .sample
  floatReader := String.ofList
  decode _ _ := none
  parseError _ := ""
  describe _ := ""
  environHome := ""
  startup := 1
  agent _ _ := (.returned (.obj [("final_response", .str " pong\n")]), 2)
  logged := ""
  taskId := "a2a-m2-1"

/-- A caller that has a profile of every name. -/
def WorkerCaller.sample : WorkerCaller where
  locale := .sample
  floatReader := String.ofList
  repr := id
  hermesHome := "/home"
  isDir _ := true
  senderName := "hermes-agent"
  popenRaises := none
  uuid := "t-1"
  requestId := "r-1"
  messageId := "m-1"

end HermesA2A
