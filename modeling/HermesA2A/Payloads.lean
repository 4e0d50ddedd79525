import HermesA2A.Json
import HermesA2A.Security

/-!
# Wire-format payload builders

The Task, TaskStatus and Message dictionaries the server sends.  A builder call
draws identifiers from `uuid.uuid4` and reads the clock; what it drew is a
`Stamp`, so that a builder is a function of its arguments and its stamp.
-/

namespace HermesA2A

/-- A clock reading. -/
abbrev Time := ℤ

/-- Task ids are whatever hashable JSON value the client sent.  Ids, and the keys of requests, are
compared as JSON values: `1`, `1.0` and `True` are three ids here, and one key of a Python
dictionary. -/
abbrev TaskId := Json

/-- What one `_build_task_object` call takes from outside its arguments. -/
structure Stamp where
  messageId : String
  artifactId : String
  /-- `_utc_now_iso()` -/
  utcNow : String
  /-- `datetime.fromtimestamp(t, tz=utc).isoformat()` -/
  isoFormat : Time → String

/-- A truthy text: Python's `if text` for an optional text. -/
def nonEmpty? (text : Option String) : Option String := text.filter (· ≠ "")

@[simp] theorem nonEmpty?_none : nonEmpty? none = none := rfl

theorem nonEmpty?_of_ne {text : String} (h : text ≠ "") : nonEmpty? (some text) = some text := by
  simp [nonEmpty?, h]

@[simp] theorem nonEmpty?_empty : nonEmpty? (some "") = none := rfl

/-- `_build_message_object` -/
def buildMessageObject (text : String) (role : ℤ) (messageId : Option String) (uuid : String) :
    Json :=
  .obj
    [ ("message_id", .str ((nonEmpty? messageId).getD uuid)),
      ("role", .int role),
      ("parts", .arr (if text = "" then [] else [.obj [("text", .str text)]])),
      ("metadata", .obj []) ]

/-- `_build_task_status` -/
def buildTaskStatus (state : String) (messageText timestamp : Option String) (stamp : Stamp) :
    Json :=
  .obj <|
    [ ("state", .str state),
      ("timestamp", .str ((nonEmpty? timestamp).getD stamp.utcNow)) ] ++
    match nonEmpty? messageText with
    | some text => [("message", buildMessageObject text 2 none stamp.messageId)]
    | none => []

/-- Assign inside a dictionary; `task["status"]["timestamp"] = …`. -/
def setInside (key : String) (v : Json) : Json → Json
  | .obj fields => .obj (Json.setField key v fields)
  | j => j

/-- `_build_task_object` -/
def buildTaskObject (taskId : Json) (state : String) (contextId : Json) (response : Option String)
    (createdAt : Option Time) (stamp : Stamp) : Json :=
  let filtered := (nonEmpty? response).map filterOutbound
  let status := buildTaskStatus state filtered none stamp
  .obj <|
    [ ("id", taskId),
      ("context_id", contextId.orElse taskId),
      ("status", match createdAt with
        | some t => setInside "timestamp" (.str (stamp.isoFormat t)) status
        | none => status) ] ++
    match nonEmpty? filtered with
    | some text =>
        [("artifacts", .arr
          [.obj
            [ ("artifact_id", .str stamp.artifactId),
              ("parts", .arr [.obj [("text", .str text)]]),
              ("index", .int 0) ]])]
    | none => []

/-! ### What a Task says -/

/-- The fields under which a client looks: the identifier. -/
def taskId? (task : Json) : Option Json := task.field? "id"

/-- The state of a Task. -/
def taskState? (task : Json) : Option Json := (task.field? "status").bind (·.field? "state")

/-- The text of the first part of the first artifact, if there is one. -/
def artifactText? (task : Json) : Option Json :=
  match task.field? "artifacts" with
  | some (.arr (artifact :: _)) =>
      match artifact.field? "parts" with
      | some (.arr (part :: _)) => part.field? "text"
      | _ => none
  | _ => none

/-- The text a client reads: that of the artifact, or none. -/
def replyText (task : Json) : Json := (artifactText? task).getD (.str "")

section Read

variable (taskId contextId : Json) (state : String) (response : Option String)
  (createdAt : Option Time) (stamp : Stamp)

@[simp] theorem taskId?_buildTaskObject :
    taskId? (buildTaskObject taskId state contextId response createdAt stamp) = some taskId := by
  rfl

@[simp] theorem taskState?_buildTaskObject :
    taskState? (buildTaskObject taskId state contextId response createdAt stamp) =
      some (.str state) := by
  cases createdAt <;> rfl

/-- A Task carries an artifact exactly when the filtered response has a text. -/
theorem artifactText?_buildTaskObject :
    artifactText? (buildTaskObject taskId state contextId response createdAt stamp) =
      (nonEmpty? ((nonEmpty? response).map filterOutbound)).map .str := by
  simp only [buildTaskObject]
  cases nonEmpty? ((nonEmpty? response).map filterOutbound) <;> rfl

/-- A Task has no field `response`. -/
theorem get_response_buildTaskObject (default : Json) :
    (buildTaskObject taskId state contextId response createdAt stamp).get "response" default =
      .ok default := by
  simp only [buildTaskObject]
  cases nonEmpty? ((nonEmpty? response).map filterOutbound) <;> rfl

end Read

theorem filterOutbound_empty : filterOutbound "" = "" := by decide

/-- For a response given as a text, its filtered text decides. -/
theorem nonEmpty?_map_filterOutbound (r : String) :
    nonEmpty? ((nonEmpty? (some r)).map filterOutbound) = nonEmpty? (some (filterOutbound r)) := by
  by_cases h : r = ""
  · subst h
    rw [filterOutbound_empty]
    rfl
  · rw [nonEmpty?_of_ne h]
    rfl

/-- A client reads a filtered response as it is. -/
theorem replyText_buildTaskObject (taskId contextId : Json) (state r : String)
    (createdAt : Option Time) (stamp : Stamp) :
    replyText (buildTaskObject taskId state contextId (some (filterOutbound r)) createdAt stamp) =
      .str (filterOutbound r) := by
  unfold replyText
  rw [artifactText?_buildTaskObject, nonEmpty?_map_filterOutbound, filterOutbound_filterOutbound]
  by_cases h : filterOutbound r = ""
  · rw [h]
    rfl
  · rw [nonEmpty?_of_ne h]
    rfl

/-- A text the filter leaves alone is read as it is. -/
theorem replyText_of_filtered {r : String} (h : filterOutbound r = r) (taskId contextId : Json)
    (state : String) (createdAt : Option Time) (stamp : Stamp) :
    replyText (buildTaskObject taskId state contextId (some r) createdAt stamp) = .str r := by
  have hread := replyText_buildTaskObject taskId contextId state r createdAt stamp
  rwa [h] at hread

end HermesA2A
