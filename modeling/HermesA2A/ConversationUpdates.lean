import HermesA2A.Conversations
import HermesA2A.Lib.TextSearch

/-!
# Updating a saved exchange

An exchange that began here is saved with a placeholder in the place of the reply, and
`update_exchange` is to put the reply there.  It does not parse the file.  It looks for the
first `task:<id>`, takes the text from the heading mark before it to the separator after it
for the entry, and replaces the first placeholder in it.

* `rewriteEntry` — the search and the replacement, on a text.
* `updateExchange` — the same on the files.
* `saveExchange_frame`, `updateExchange_frame` — which files the two can change.
-/

namespace HermesA2A

/-- What stands before the reply of an entry. -/
def replyMark (safeName : String) : List Char := ("**← " ++ safeName ++ ":** ").toList

/-- What stands in the place of a reply that has not come. -/
def WAITING : List Char := "(waiting for reply…)".toList

/-- What ends an entry. -/
def SEPARATOR : List Char := "\n---\n".toList

/-- What begins one. -/
def HEADING : List Char := "## ".toList

/-- The text of a conversation file with a reply put in, unless there is no place for it. -/
def rewriteEntry (safeName : String) (taskId inboundText content : List Char) :
    Option (List Char) :=
  let marker := "task:".toList ++ taskId
  match Text.find? marker content with
  | none => none
  | some (upTo, rest) =>
      match Text.rfind? HEADING upTo with
      | none => none
      | some (before, heading) =>
          let (inside, after) :=
            match Text.find? SEPARATOR (marker ++ rest) with
            | none => (marker ++ rest, [])
            | some (inside, after) => (inside ++ SEPARATOR, after)
          let block := HEADING ++ heading ++ inside
          let updatedBlock := Text.replaceOnce (replyMark safeName ++ WAITING)
            (replyMark safeName ++ inboundText) block
          if updatedBlock = block then none else some (before ++ updatedBlock ++ after)

/-- The characters that `strftime` writes for the formats of a `Moment`. -/
structure Moment.Formatted (now : Moment) : Prop where
  today : ∀ c ∈ now.today.toList, c.isDigit = true ∨ c = '-'
  timestamp : ∀ c ∈ now.timestamp.toList, c.isDigit = true ∨ c = ':'
  digits : ∀ c ∈ now.digits.toList, c.isDigit = true

/-- The file that the exchanges with an agent go to. -/
def exchangeFile (table : CharTable) (now : Moment) (name : String) : FileName :=
  ⟨safeName table name, now.today⟩

/-- The file it is renamed to when it has grown too large. -/
def rotatedFile (table : CharTable) (now : Moment) (name : String) : FileName :=
  ⟨safeName table name, now.today ++ "_old_" ++ now.digits⟩

/-- `update_exchange` -/
def updateExchange (table : CharTable) (locale : Locale) (now : Moment) (agentName : Json)
    (t : TaskId) (inboundText : String) (files : ConversationFiles) :
    Except PyError (Bool × ConversationFiles) := do
  let name ← lowerName locale agentName
  let file := exchangeFile table now name
  match OrderedDict.get? files file with
  | none => return (false, files)
  | some text =>
      let content := universalNewlines text.toList
      match rewriteEntry file.directory t.display.toList inboundText.toList content with
      | none => return (false, files)
      | some updated => return (true, OrderedDict.set files file (String.ofList updated))

/-! ### Which files change -/

/-- What `save_exchange` does to the files with the entry that it has made. -/
def appendEntry (now : Moment) (file : FileName) (entry : String) (files : ConversationFiles) :
    ConversationFiles :=
  let files := rotateFile now file files
  OrderedDict.set files file
    (String.ofList (universalNewlines ((OrderedDict.get? files file).getD "").toList) ++ entry)

section Frame

variable {table : CharTable} {locale : Locale} {now : Moment} {agentName : Json} {t : TaskId}
  {files files' : ConversationFiles} {file other : FileName} {entry : String}

/-- A name that is no text is refused. -/
theorem exists_of_lowerName {name : String} (h : lowerName locale agentName = .ok name) :
    ∃ given, agentName = .str given ∧ name = locale.lower given := by
  cases agentName with
  | str given => exact ⟨given, rfl, (Except.ok.inj h).symm⟩
  | _ => cases h

/-- **What is saved**, if anything is: an entry, at the end of the agent's file of the day. -/
theorem saveExchange_ok {inboundText metadata : Json} {outboundText : String}
    {direction : Direction}
    (h : saveExchange table locale now agentName t inboundText outboundText metadata direction
      files = .ok (entry, files')) :
    ∃ given intent replyTo, agentName = .str given ∧
      entry = exchangeContent (entryHeading locale now t intent replyTo)
        (safeName table (locale.lower given)) (locale.format inboundText) outboundText direction ∧
      files' = appendEntry now (exchangeFile table now (locale.lower given)) entry files := by
  obtain ⟨name, hname, h⟩ := exists_of_bind_ok h
  obtain ⟨given, rfl, rfl⟩ := exists_of_lowerName hname
  obtain ⟨intent, -, h⟩ := exists_of_bind_ok h
  obtain ⟨replyTo, -, h⟩ := exists_of_bind_ok h
  obtain ⟨rfl, rfl⟩ := Prod.mk.inj (Except.ok.inj h)
  exact ⟨given, intent, replyTo, rfl, rfl, rfl⟩

/-- Saving an entry touches that file and the one it is renamed to. -/
theorem get?_appendEntry_of_ne (h : other ≠ file)
    (hrotated : other ≠ { file with stem := file.stem ++ "_old_" ++ now.digits }) :
    OrderedDict.get? (appendEntry now file entry files) other = OrderedDict.get? files other := by
  have hrotate : OrderedDict.get? (rotateFile now file files) other =
      OrderedDict.get? files other := by
    unfold rotateFile
    split
    · split_ifs
      · rw [OrderedDict.get?_set, if_neg hrotated, OrderedDict.get?_erase, if_neg h]
      · rfl
    · rfl
  unfold appendEntry
  dsimp only
  rw [OrderedDict.get?_set, if_neg h, hrotate]

/-- **What saving changes** is the agent's file of the day, and the file it is renamed to. -/
theorem saveExchange_frame {inboundText metadata : Json} {outboundText : String}
    {direction : Direction}
    (h : saveExchange table locale now agentName t inboundText outboundText metadata direction
      files = .ok (entry, files')) :
    ∃ given, agentName = .str given ∧
      ∀ file, OrderedDict.get? files' file ≠ OrderedDict.get? files file →
        file = exchangeFile table now (locale.lower given) ∨
          file = rotatedFile table now (locale.lower given) := by
  obtain ⟨given, intent, replyTo, rfl, -, rfl⟩ := saveExchange_ok h
  refine ⟨given, rfl, fun file hchanged => ?_⟩
  by_contra hother
  obtain ⟨hfile, hrotated⟩ := not_or.mp hother
  exact hchanged (get?_appendEntry_of_ne hfile hrotated)

/-- **What updating changes** is the agent's file of the day. -/
theorem updateExchange_frame {inboundText : String} {updated : Bool}
    (h : updateExchange table locale now agentName t inboundText files = .ok (updated, files')) :
    ∃ given, agentName = .str given ∧
      ∀ file, OrderedDict.get? files' file ≠ OrderedDict.get? files file →
        file = exchangeFile table now (locale.lower given) := by
  obtain ⟨name, hname, h⟩ := exists_of_bind_ok h
  obtain ⟨given, rfl, rfl⟩ := exists_of_lowerName hname
  refine ⟨given, rfl, fun file hchanged => ?_⟩
  by_contra hne
  refine hchanged ?_
  dsimp only at h
  split at h
  · obtain ⟨-, rfl⟩ := Prod.mk.inj (Except.ok.inj h)
    rfl
  · split at h
    · obtain ⟨-, rfl⟩ := Prod.mk.inj (Except.ok.inj h)
      rfl
    · obtain ⟨-, rfl⟩ := Prod.mk.inj (Except.ok.inj h)
      rw [OrderedDict.get?_set, if_neg hne]

end Frame

end HermesA2A
