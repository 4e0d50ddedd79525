import HermesA2A.Payloads

/-!
# Client side: reading a task result

`parseTaskResult` is what an agent's client makes of the server's answer: it
collects every text it finds in the artifacts, in the status message and in a
message beside them, one line each.

The server's builder puts a response into the artifact *and* into the status
message.  `parseTaskResult_buildTaskObject` says what the two make together: the
identifier and the state come back, the response comes back twice.
-/

namespace HermesA2A

/-! ### Error codes -/

def A2A_ERR_TASK_NOT_FOUND : ℤ := -38000

def A2A_ERR_TASK_NOT_CANCELABLE : ℤ := -38001

def A2A_ERR_NON_IDEMPOTENT : ℤ := -38004

/-! ### Parsing -/

/-- `j.get(key, default) if isinstance(j, dict) else default`. -/
def Json.getIfDict (j : Json) (key : String) (default : Json) : Json :=
  (j.field? key).getD default

@[simp] theorem Json.getIfDict_obj (fields : List (String × Json)) (key : String) (default : Json) :
    (Json.obj fields).getIfDict key default = (fields.lookup key).getD default := rfl

/-- The texts of the parts that have one; any other part is skipped. -/
def partTexts : List Json → List String
  | [] => []
  | part :: parts =>
      match part.field? "text" with
      | some (.str text) => text :: partTexts parts
      | _ => partTexts parts

/-- `extract_text_from_parts` -/
def extractTextFromParts (parts : Json) : Except PyError String := do
  let parts ← (parts.orElse (.arr [])).iterate
  return (String.intercalate "\n" (partTexts parts)).strip

/-- The text of a message or an artifact, as a list of chunks: none, or one
non-empty text. -/
def chunkOf (j : Json) : Except PyError (List String) := do
  match j with
  | .obj fields =>
      let text ← extractTextFromParts ((fields.lookup "parts").getD (.arr []))
      return if text = "" then [] else [text]
  | _ => return []

/-- The chunks of all artifacts, in order. -/
def artifactChunks : List Json → Except PyError (List String)
  | [] => return []
  | artifact :: artifacts => do
      let chunk ← chunkOf artifact
      let chunks ← artifactChunks artifacts
      return chunk ++ chunks

/-- What `parse_task_result` returns. -/
structure TaskResult where
  taskId : Json
  state : Json
  response : String
  rawResult : Json

/-- `parse_task_result` -/
def parseTaskResult (rpcResult defaultTaskId : Json) : Except PyError TaskResult := do
  let rpcResult := rpcResult.orElse (.obj [])
  let inner := (rpcResult.getIfDict "task" (.obj [])).orElse rpcResult
  let status := inner.getIfDict "status" (.obj [])
  let state := status.getIfDict "state" (.str "unknown")
  let taskId := inner.getIfDict "id" defaultTaskId
  let artifacts ← inner.get "artifacts" (.arr [])
  let artifacts ← (artifacts.orElse (.arr [])).iterate
  let fromArtifacts ← artifactChunks artifacts
  let fromStatus ← chunkOf (status.getIfDict "message" (.obj []))
  let fromMessage ← chunkOf (inner.getIfDict "message" (.obj []))
  let chunks := fromArtifacts ++ fromStatus ++ fromMessage
  return {
    taskId := taskId
    state := state
    response := (String.intercalate "\n" chunks).strip
    rawResult := rpcResult }

/-! ### Reading what the server built -/

/-- One text part is read back as it was written, if it was stripped. -/
theorem extractTextFromParts_singleton {text : String} (h : text.Stripped) :
    extractTextFromParts (.arr [.obj [("text", .str text)]]) = .ok text := by
  show Except.ok (String.intercalate "\n" [text]).strip = _
  rw [String.intercalate_singleton, String.strip_eq_self h]

/-- A message or artifact with one text part is one chunk. -/
theorem chunkOf_of_parts {fields : List (String × Json)} {text : String}
    (hparts : fields.lookup "parts" = some (.arr [.obj [("text", .str text)]]))
    (h : text.Stripped) (hne : text ≠ "") : chunkOf (.obj fields) = .ok [text] := by
  simp only [chunkOf, hparts, Option.getD_some]
  rw [extractTextFromParts_singleton h]
  show Except.ok (if text = "" then [] else [text]) = _
  rw [if_neg hne]

/-- What `parse_task_result` does with a Task that has the fields of a built one. -/
theorem parseTaskResult_of_fields {task status artifact message : List (String × Json)}
    {taskId state : Json} {text : String} (defaultTaskId : Json)
    (hid : task.lookup "id" = some taskId)
    (hstatus : task.lookup "status" = some (.obj status))
    (hstate : status.lookup "state" = some state)
    (hartifacts : task.lookup "artifacts" = some (.arr [.obj artifact]))
    (hparts : artifact.lookup "parts" = some (.arr [.obj [("text", .str text)]]))
    (hmessage : status.lookup "message" = some (.obj message))
    (hmparts : message.lookup "parts" = some (.arr [.obj [("text", .str text)]]))
    (hdirect : task.lookup "message" = none) (h : text.Stripped) (hne : text ≠ "") :
    parseTaskResult (.obj [("task", .obj task)]) defaultTaskId =
      .ok {
        taskId := taskId
        state := state
        response := text ++ "\n" ++ text
        rawResult := .obj [("task", .obj task)] } := by
  have htask : (Json.obj task).truthy = true := by
    cases task with
    | nil => cases hid
    | cons e task => rfl
  have hinner : ((Json.obj [("task", .obj task)]).getIfDict "task" (.obj [])).orElse
      (.obj [("task", .obj task)]) = .obj task := by
    show (if (Json.obj task).truthy then _ else _) = _
    rw [htask]
    rfl
  have hchunks : artifactChunks [.obj artifact] = .ok [text] := by
    simp only [artifactChunks, chunkOf_of_parts hparts h hne]
    rfl
  have hstrip : (String.intercalate "\n" [text, text]).strip = text ++ "\n" ++ text :=
    String.strip_eq_self (h.append h hne hne "\n")
  have hor : (Json.obj [("task", .obj task)]).orElse (.obj []) = .obj [("task", .obj task)] := rfl
  simp only [parseTaskResult, hor, hinner]
  simp only [Json.getIfDict_obj, Json.get_obj, hid, hstatus, hstate, hartifacts, hmessage, hdirect,
    Option.getD_some, Option.getD_none]
  show (do
    let fromArtifacts ← artifactChunks [.obj artifact]
    let fromStatus ← chunkOf (.obj message)
    let fromMessage ← chunkOf (.obj [])
    Except.ok (⟨taskId, state, (String.intercalate "\n" (fromArtifacts ++ fromStatus ++
      fromMessage)).strip, .obj [("task", .obj task)]⟩ : TaskResult)) = _
  rw [hchunks, chunkOf_of_parts hmparts h hne]
  show Except.ok (⟨taskId, state, (String.intercalate "\n" [text, text]).strip, _⟩ : TaskResult) = _
  rw [hstrip]

/-- **Decoding what the server encoded**: identifier and state are the ones
given, the filtered response is read from the artifact and again from the status
message. -/
theorem parseTaskResult_buildTaskObject (taskId contextId : Json) (state : String) {r : String}
    (createdAt : Option Time) (stamp : Stamp) (defaultTaskId : Json)
    (hr : filterOutbound r ≠ "") :
    parseTaskResult
        (.obj [("task", buildTaskObject taskId state contextId (some r) createdAt stamp)])
        defaultTaskId =
      .ok {
        taskId := taskId
        state := .str state
        response := filterOutbound r ++ "\n" ++ filterOutbound r
        rawResult :=
          .obj [("task", buildTaskObject taskId state contextId (some r) createdAt stamp)] } := by
  have hrne : r ≠ "" := by
    rintro rfl
    exact hr filterOutbound_empty
  have hf : nonEmpty? (some (filterOutbound r)) = some (filterOutbound r) := nonEmpty?_of_ne hr
  have hs := stripped_filterOutbound r
  simp only [buildTaskObject, buildTaskStatus, nonEmpty?_of_ne hrne, Option.map_some, hf,
    buildMessageObject, if_neg hr]
  cases createdAt with
  | none =>
      exact parseTaskResult_of_fields defaultTaskId rfl rfl rfl rfl rfl rfl rfl rfl hs hr
  | some t =>
      exact parseTaskResult_of_fields defaultTaskId rfl rfl rfl rfl rfl rfl rfl rfl hs hr

/-! ### The round trip -/

/-- The client got the identifier, the state and, up to surrounding white space,
the text. -/
def DecodesTo (taskId : Json) (state text : String) : Except PyError TaskResult → Prop
  | .ok result =>
      result.taskId = taskId ∧ result.state = .str state ∧ result.response.strip = text.strip
  | .error _ => False

instance (taskId : Json) (state text : String) :
    ∀ result, Decidable (DecodesTo taskId state text result)
  | .ok result => inferInstanceAs (Decidable (result.taskId = taskId ∧ _ ∧ _))
  | .error _ => inferInstanceAs (Decidable False)

private theorem doubled_ne (text : String) : text ++ "\n" ++ text ≠ text := by
  intro h
  have hlen := congrArg (fun s : String => s.toList.length) h
  simp only [String.toList_append, List.length_append] at hlen
  have hsep : "\n".toList.length = 1 := rfl
  omega

/-- **No response survives the round trip.**  Whenever there is a text to send,
the client reads it twice. -/
theorem not_decodesTo_buildTaskObject (taskId contextId : Json) (state r : String)
    (createdAt : Option Time) (stamp : Stamp) (defaultTaskId : Json)
    (hr : filterOutbound r ≠ "") :
    ¬ DecodesTo taskId state (filterOutbound r)
      (parseTaskResult
        (.obj [("task", buildTaskObject taskId state contextId (some r) createdAt stamp)])
        defaultTaskId) := by
  rw [parseTaskResult_buildTaskObject taskId contextId state createdAt stamp defaultTaskId hr]
  rintro ⟨-, -, htext⟩
  have hs := stripped_filterOutbound r
  change String.strip (filterOutbound r ++ "\n" ++ filterOutbound r) = _ at htext
  rw [String.strip_eq_self hs, String.strip_eq_self (hs.append hs hr hr "\n")] at htext
  exact doubled_ne _ htext

/-- A stamp for runs on fixed inputs. -/
def Stamp.sample : Stamp := ⟨"message-1", "artifact-1", "2026-06-02T00:00:00Z", fun _ => "created"⟩

theorem not_decodesTo_done :
    filterOutbound "done" ≠ "" ∧
      ¬ DecodesTo (.str "task-1") "completed" (filterOutbound "done")
        (parseTaskResult
          (.obj [("task", buildTaskObject (.str "task-1") "completed" .null (some "done") none
            Stamp.sample)])
          (.str "")) :=
  ⟨by decide, not_decodesTo_buildTaskObject _ _ _ _ _ _ _ (by decide)⟩

/-- The client of `task-1` is told `done` twice. -/
theorem decodes_done_twice :
    ¬ DecodesTo (.str "task-1") "completed" (filterOutbound "done")
        (parseTaskResult
          (.obj [("task", buildTaskObject (.str "task-1") "completed" .null (some "done") none
            Stamp.sample)])
          (.str "")) ∧
      (parseTaskResult
          (.obj [("task", buildTaskObject (.str "task-1") "completed" .null (some "done") none
            Stamp.sample)])
          (.str "")).toOption.map TaskResult.response = some "done\ndone" := by
  decide

end HermesA2A
