import HermesA2A.Json

/-!
# The envelope of a message

`build_task_send_payload` builds the JSON-RPC request of a SendMessage.  Its two generated
identifiers are arguments here.
-/

namespace HermesA2A

/-- A member that is there if its text is not empty. -/
def optionalText (key text : String) : List (String × Json) :=
  if text = "" then [] else [(key, .str text)]

/-- `build_hermes_metadata`; a text that is not given is empty. -/
def buildHermesMetadata (route execution delivery replyMode isolation : String) :
    List (String × Json) :=
  [("version", .str "1"), ("route", .str route), ("execution", .str execution)] ++
    optionalText "delivery" delivery ++ optionalText "reply_mode" replyMode ++
    optionalText "isolation" isolation

/-- `Role.ROLE_USER` -/
def ROLE_USER : ℤ := 1

/-- What `build_task_send_payload` is called with, and the two `uuid4()` it makes. -/
structure SendPayload where
  taskId : String
  message : String
  senderName : String
  intent : String := "consultation"
  expectedAction : String := "reply"
  skill : String := ""
  hermes : List (String × Json) := []
  requestId : String
  messageId : String

/-- `build_task_send_payload` -/
def buildTaskSendPayload (p : SendPayload) : Json :=
  let metadata : List (String × Json) := [
    ("intent", .str p.intent),
    ("expected_action", .str p.expectedAction),
    ("context_scope", .str "full"),
    ("sender_name", .str p.senderName)] ++
    optionalText "skill" p.skill ++
    (if p.hermes.isEmpty then [] else [("hermes", .obj p.hermes)])
  .obj [
    ("jsonrpc", .str "2.0"),
    ("id", .str p.requestId),
    ("method", .str "SendMessage"),
    ("params", .obj [
      ("id", .str p.taskId),
      ("message", .obj [
        ("message_id", .str p.messageId),
        ("role", .int ROLE_USER),
        ("parts", .arr [.obj [("text", .str p.message)]]),
        ("metadata", .obj metadata)])])]

end HermesA2A
