import HermesA2A.TaskQueue
import HermesA2A.Server.SendMessage

/-!
# Conversation files

`save_exchange` writes one entry a task into a file a day and sender: a heading, what came
in, and what was answered.  A file that has grown too large is renamed first.

What the interpreter brings along is a parameter (`Locale`): `str.lower`, a table of Unicode,
and what a list or a dictionary looks like in an f-string.  A directory is known by its name.
Left out is a file system that refuses to write.

* `exchangeContent_inbound` — the parts an entry is made of.
* `saveExchange_spec` — the entry stands at the end of its file.
* `persistExchange` — what `post_llm_call` saves, from what `get_task_metadata` returns.
-/

namespace HermesA2A

/-- What Python knows about texts, beside `CharTable`. -/
structure Locale where
  /-- `str.lower` -/
  lower : String → String
  /-- `str` of a list or a dictionary. -/
  repr : Json → String

/-- `datetime.now(timezone.utc)`, as the code formats it. -/
structure Moment where
  /-- `%Y-%m-%d` -/
  today : String
  /-- `%H:%M:%S` -/
  timestamp : String
  /-- `%H%M%S` -/
  digits : String

/-- `f"{j}"` -/
def Locale.format (locale : Locale) : Json → String
  | .arr items => locale.repr (.arr items)
  | .obj fields => locale.repr (.obj fields)
  | j => j.display

/-! ### Entries -/

/-- Which way the first message of an exchange went. -/
inductive Direction
  | inbound
  | outbound
  deriving DecidableEq

/-- `agent_name.lower()` -/
def lowerName (locale : Locale) : Json → Except PyError String
  | .str name => .ok (locale.lower name)
  | _ => .error .attributeError

/-- The name of the sender's directory, from the lower-case name. -/
def safeName (table : CharTable) (name : String) : String :=
  String.ofList (name.toList.map fun c =>
    if table.isAlnum c || Json.isSubstring (String.ofList [c]) "-_.@ " then c else '_')

/-- The first line of an entry. -/
def entryHeading (locale : Locale) (now : Moment) (t : TaskId) (intent replyTo : Json) : String :=
  "## " ++ now.timestamp ++ " | task:" ++ t.display ++
    (if intent.truthy then " | " ++ locale.format intent else "") ++
    (if replyTo.truthy then " | reply_to:" ++ locale.format replyTo else "")

/-- `entry_lines` -/
def entryLines (heading safeName inboundText outboundText : String) (direction : Direction) :
    List String :=
  [heading, ""] ++
    (match direction with
    | .outbound =>
        ["**→ me:** " ++ outboundText, "", "**← " ++ safeName ++ ":** (waiting for reply…)"]
    | .inbound =>
        ["**← " ++ safeName ++ ":** " ++ inboundText, "", "**→ reply:** " ++ outboundText]) ++
    ["", "---", ""]

/-- `new_content` -/
def exchangeContent (heading safeName inboundText outboundText : String)
    (direction : Direction) : String :=
  String.intercalate "\n" (entryLines heading safeName inboundText outboundText direction)

/-- What stands before the inbound text. -/
def entryHead (heading safeName : String) : String :=
  heading ++ "\n\n**← " ++ safeName ++ ":** "

/-- What stands after it. -/
def entryTail (outboundText : String) : String :=
  "\n\n**→ reply:** " ++ outboundText ++ "\n\n---\n"

/-- **An inbound entry** has the inbound text in the middle. -/
theorem exchangeContent_inbound (heading safeName inboundText outboundText : String) :
    exchangeContent heading safeName inboundText outboundText .inbound =
      entryHead heading safeName ++ inboundText ++ entryTail outboundText := by
  unfold exchangeContent entryLines entryHead entryTail
  simp only [List.cons_append, List.nil_append, String.intercalate_cons_cons,
    String.intercalate_singleton, String.append_assoc]
  rfl

/-! ### Files -/

/-- `_MAX_FILE_SIZE` -/
def MAX_FILE_SIZE : ℕ := 10 * 1024 * 1024

/-- The name of a conversation file: `<directory>/<stem>.md`. -/
structure FileName where
  directory : String
  stem : String
  deriving DecidableEq

/-- The files below `_get_conv_dir()`. -/
abbrev ConversationFiles := OrderedDict FileName String

/-- A text as `read_text` returns it: all line ends are newlines. -/
def universalNewlines : List Char → List Char
  | '\r' :: '\n' :: text => '\n' :: universalNewlines text
  | '\r' :: text => '\n' :: universalNewlines text
  | c :: text => c :: universalNewlines text
  | [] => []

/-- Rotate a file that exceeds the maximal size. -/
def rotateFile (now : Moment) (file : FileName) (files : ConversationFiles) :
    ConversationFiles :=
  match OrderedDict.get? files file with
  | some text =>
      if text.utf8ByteSize > MAX_FILE_SIZE then
        OrderedDict.set (OrderedDict.erase files file)
          { file with stem := file.stem ++ "_old_" ++ now.digits } text
      else files
  | none => files

/-- `save_exchange`: the entry it has written, and the files after it. -/
def saveExchange (table : CharTable) (locale : Locale) (now : Moment) (agentName : Json)
    (t : TaskId) (inboundText : Json) (outboundText : String) (metadata : Json)
    (direction : Direction) (files : ConversationFiles) :
    Except PyError (String × ConversationFiles) := do
  let name ← lowerName locale agentName
  let file : FileName := ⟨safeName table name, now.today⟩
  let intent ← (metadata.orElse (.obj [])).get "intent" (.str "")
  let replyTo ← (metadata.orElse (.obj [])).get "reply_to_task_id" (.str "")
  let newContent := exchangeContent (entryHeading locale now t intent replyTo) file.directory
    (locale.format inboundText) outboundText direction
  let files := rotateFile now file files
  let existing := String.ofList
    (universalNewlines ((OrderedDict.get? files file).getD "").toList)
  return (newContent, OrderedDict.set files file (existing ++ newContent))

/-- The text stands at the end of a file. -/
def ConversationFiles.EndWith (files : ConversationFiles) (text : String) : Prop :=
  ∃ file existing, OrderedDict.get? files file = some (existing ++ text)

/-! ### The end of `post_llm_call` -/

/-- What `post_llm_call` does after it has completed its target: the entry it has written, if
`save_exchange` did not fail, and the files after it. -/
def persistExchange (table : CharTable) (locale : Locale) (now : Moment) (t : TaskId)
    (assistantResponse : String) (q : TaskQueue) (files : ConversationFiles) :
    Except PyError (Option String × ConversationFiles) := do
  let metadata := q.getTaskMetadata t
  let agentLabel ← metadata.get "sender_name" (.str "a2a_peer")
  let saved := do
    let originalText ← metadata.get "original_text" (.str "")
    saveExchange table locale now agentLabel t originalText assistantResponse metadata .inbound
      files
  match saved with
  | .ok (entry, files) => return (some entry, files)
  | .error _ => return (none, files)

section Spec

variable (table : CharTable) (locale : Locale) (now : Moment) (t : TaskId) (response : String)
  (q : TaskQueue) (files : ConversationFiles)

/-- What stands before the inbound text in the entry of a sender. -/
def headOf (name : String) (fields : List (String × Json)) : String :=
  entryHead
    (entryHeading locale now t ((fields.lookup "intent").getD (.str ""))
      ((fields.lookup "reply_to_task_id").getD (.str "")))
    (safeName table (locale.lower name))

/-- **An inbound exchange is saved** at the end of its file. -/
theorem saveExchange_spec (name : String) (inboundText : Json) (fields : List (String × Json)) :
    ∃ files', saveExchange table locale now (.str name) t inboundText response (.obj fields)
        .inbound files =
          .ok (headOf table locale now t name fields ++ locale.format inboundText ++
            entryTail response, files') ∧
      files'.EndWith (headOf table locale now t name fields ++ locale.format inboundText ++
        entryTail response) := by
  have hor : (Json.obj fields).orElse (.obj []) = .obj fields := by
    unfold Json.orElse
    cases fields <;> rfl
  have hsaved : ∃ rotated file existing, saveExchange table locale now (.str name) t inboundText
      response (.obj fields) .inbound files =
        .ok (headOf table locale now t name fields ++ locale.format inboundText ++
          entryTail response,
          OrderedDict.set rotated file (existing ++ (headOf table locale now t name fields ++
            locale.format inboundText ++ entryTail response))) := by
    unfold headOf
    rw [← exchangeContent_inbound]
    unfold saveExchange
    rw [hor]
    exact ⟨_, _, _, rfl⟩
  obtain ⟨rotated, file, existing, hsaved⟩ := hsaved
  exact ⟨_, hsaved, file, existing, OrderedDict.get?_set_self rotated _ _⟩

/-- The `original_text` of the metadata, as it is written. -/
def originalOf (fields : List (String × Json)) : String :=
  locale.format ((fields.lookup "original_text").getD (.str ""))

/-- **What `post_llm_call` saves**, if the metadata is a dictionary and names the sender by a
text. -/
theorem persistExchange_spec {fields : List (String × Json)} {name : String}
    (hfields : q.getTaskMetadata t = .obj fields)
    (hname : (fields.lookup "sender_name").getD (.str "a2a_peer") = .str name) :
    ∃ files', persistExchange table locale now t response q files =
        .ok (some (headOf table locale now t name fields ++ originalOf locale fields ++
          entryTail response), files') ∧
      files'.EndWith (headOf table locale now t name fields ++ originalOf locale fields ++
        entryTail response) := by
  obtain ⟨files', hsaved, hend⟩ := saveExchange_spec table locale now t response files name
    ((fields.lookup "original_text").getD (.str "")) fields
  refine ⟨files', ?_, hend⟩
  unfold persistExchange
  rw [hfields]
  simp only [Json.get_obj, hname]
  show (match saveExchange table locale now (.str name) t
    ((fields.lookup "original_text").getD (.str "")) response (.obj fields) .inbound
    files with | .ok (entry, files) => _ | .error _ => _) = _
  rw [hsaved]
  rfl

end Spec

end HermesA2A
