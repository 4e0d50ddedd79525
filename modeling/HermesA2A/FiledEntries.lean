import HermesA2A.ConversationUpdates

/-!
# The entries of a conversation file

A conversation file is made of entries, one after the other, and nothing in them is escaped.
What a call of `save_exchange` appends is one entry, and what stood in the file before is read
and written again, with newlines for all other line ends.

* `FiledEntry` — an entry as it stands in a file; `entriesAfter` — the entries that a sequence
  of calls leaves in the file of the day.
* `universalNewlines_fileText` — a file that is read has the same entries, each of them read.
* `holds_entriesAfter` — the file after any calls on one day has the entries that they leave.
-/

namespace HermesA2A

/-- An entry of a conversation file.  `middle` is what stands between the id and the end, or
the placeholder if the entry waits for a reply. -/
structure FiledEntry where
  stamp : List Char
  id : List Char
  middle : List Char
  waiting : Bool
  stamp_chars : ∀ c ∈ stamp, c.isDigit = true ∨ c = ':'

/-- What a waiting entry has in the place of its reply. -/
def placeholder (safeName : String) : List Char := replyMark safeName ++ WAITING

namespace FiledEntry

variable (safeName : String) (e : FiledEntry)

/-- What stands before the marker. -/
def lead : List Char := HEADING ++ (e.stamp ++ " | ".toList)

/-- The heading and the texts, up to the place of a reply. -/
def upToReply : List Char := e.lead ++ ("task:".toList ++ e.id ++ e.middle)

/-- The text of the entry with a reply in its place. -/
def withReply (reply : List Char) : List Char := e.upToReply ++ reply ++ ('\n' :: SEPARATOR)

/-- The text of the entry. -/
def text : List Char := e.withReply (if e.waiting then placeholder safeName else [])

end FiledEntry

/-- The text of a file. -/
def fileText (safeName : String) (es : List FiledEntry) : List Char :=
  es.flatMap fun e => e.text safeName

section Text

variable {safeName : String}

theorem fileText_append (es₁ es₂ : List FiledEntry) :
    fileText safeName (es₁ ++ es₂) =
    fileText safeName es₁ ++ fileText safeName es₂ := List.flatMap_append

theorem fileText_cons (e : FiledEntry) (es : List FiledEntry) :
    fileText safeName (e :: es) = e.text safeName ++ fileText safeName es :=
  List.flatMap_cons

/-- The placeholder begins with a star and ends with a parenthesis. -/
theorem placeholder_eq (safeName : String) : placeholder safeName =
    '*' :: ("*← ".toList ++ safeName.toList ++ ":** (waiting for reply…".toList) ++ [')'] := by
  unfold placeholder replyMark WAITING
  simp only [String.toList_append]
  simp

end Text

/-! ### Reading a file -/

/-- What is read of a text that stands before another one: a line end can be divided between
the two. -/
def readBefore (next : List Char) : List Char → List Char
  | '\r' :: '\n' :: text => '\n' :: readBefore next text
  | ['\r'] => if next.head? = some '\n' then [] else ['\n']
  | '\r' :: text => '\n' :: readBefore next text
  | c :: text => c :: readBefore next text
  | [] => []

theorem universalNewlines_cons_of_ne {c : Char} (hc : c ≠ '\r') (text : List Char) :
    universalNewlines (c :: text) = c :: universalNewlines text := by
  rw [universalNewlines]
  · rintro _ rfl
    exact absurd rfl hc
  · exact fun h => hc h

theorem universalNewlines_append (text next : List Char) :
    universalNewlines (text ++ next) = readBefore next text ++ universalNewlines next := by
  fun_induction readBefore next text with
  | case1 text ih => simpa [universalNewlines] using ih
  | case2 hnext =>
      obtain ⟨rest, rfl⟩ := List.head?_eq_some_iff.mp hnext
      rfl
  | case3 hnext =>
      cases next with
      | nil => rfl
      | cons c next =>
          have hc : c ≠ '\n' := fun h => hnext (by rw [h]; rfl)
          simp [universalNewlines, hc]
  | case4 text hcrlf hend ih =>
      cases text with
      | nil => exact absurd rfl hend
      | cons d text =>
          rw [List.cons_append, List.cons_append, universalNewlines, ← List.cons_append, ih]
          · rfl
          · rintro rest hrest
            exact hcrlf text (by rw [(List.cons.inj hrest).1])
  | case5 c text hcrlf hcr hc ih =>
      rw [List.cons_append, universalNewlines_cons_of_ne hc, ih]
      rfl
  | case6 => rfl

/-- Only the first character of the other text matters. -/
theorem readBefore_congr {next next' : List Char} (h : next.head? = next'.head?)
    (text : List Char) : readBefore next text = readBefore next' text := by
  fun_induction readBefore next text with
  | case1 text ih => rw [readBefore, ih]
  | case2 hnext => rw [readBefore, if_pos (h ▸ hnext)]
  | case3 hnext => rw [readBefore, if_neg (h ▸ hnext)]
  | case4 text hcrlf hend ih =>
      rw [readBefore, ih]
      · exact hcrlf
      · exact hend
  | case5 c text hcrlf hcr hc ih =>
      rw [readBefore, ih]
      · exact hcrlf
      · exact hcr
      · exact hc
  | case6 => rw [readBefore]

/-- A text without returns is read as it is. -/
theorem readBefore_of_notMem {next text : List Char} (h : '\r' ∉ text) :
    readBefore next text = text := by
  fun_induction readBefore next text with
  | case1 text ih => simp at h
  | case2 hnext => simp at h
  | case3 hnext => simp at h
  | case4 text hcrlf hend ih => simp at h
  | case5 c text hcrlf hcr hc ih => rw [ih fun hmem => h (List.mem_cons_of_mem c hmem)]
  | case6 => rfl

theorem universalNewlines_of_notMem {text : List Char} (h : '\r' ∉ text) :
    universalNewlines text = text := by
  have happend := universalNewlines_append text []
  rw [List.append_nil, readBefore_of_notMem h] at happend
  exact happend.trans (List.append_nil text)

/-- The characters that matter for the search are no part of a name. -/
theorem notMem_safeName (table : CharTable) (name : String) {c : Char} (hascii : c.toNat < 128)
    (halnum : c.isAlphanum = false)
    (hother : Json.isSubstring (String.ofList [c]) "-_.@ " = false) (hline : c ≠ '_') :
    c ∉ (safeName table name).toList := by
  rw [safeName, String.toList_ofList]
  intro hmem
  obtain ⟨d, -, hd⟩ := List.mem_map.mp hmem
  split_ifs at hd with hkept
  · subst hd
    rw [table.ascii d hascii, halnum, hother] at hkept
    exact absurd hkept (by decide)
  · exact hline hd.symm

theorem return_notMem_safeName (table : CharTable) (name : String) :
    '\r' ∉ (safeName table name).toList :=
  notMem_safeName table name (by decide) (by decide) (by decide) (by decide)

theorem newline_notMem_safeName (table : CharTable) (name : String) :
    '\n' ∉ (safeName table name).toList :=
  notMem_safeName table name (by decide) (by decide) (by decide) (by decide)

theorem paren_notMem_safeName (table : CharTable) (name : String) :
    ')' ∉ (safeName table name).toList :=
  notMem_safeName table name (by decide) (by decide) (by decide) (by decide)

namespace FiledEntry

variable (safeName : String) (e : FiledEntry)

/-- What follows the texts of an entry. -/
def ending : List Char :=
  (if e.waiting then placeholder safeName else []) ++ ('\n' :: SEPARATOR)

/-- The entry after its file has been read and written. -/
def read : FiledEntry :=
  { e with
    id := readBefore (e.middle ++ e.ending safeName) e.id
    middle := readBefore (e.ending safeName) e.middle }

variable {safeName e}

theorem text_eq : e.text safeName =
    e.lead ++ "task:".toList ++ (e.id ++ (e.middle ++ e.ending safeName)) := by
  unfold text withReply upToReply ending
  simp only [List.append_assoc]

theorem return_notMem_ending (hreturn : '\r' ∉ safeName.toList) : '\r' ∉ e.ending safeName := by
  unfold ending
  rw [placeholder_eq]
  split_ifs <;> simp [SEPARATOR, hreturn]

theorem return_notMem_lead : '\r' ∉ e.lead ++ "task:".toList := by
  unfold lead
  intro hmem
  simp only [List.mem_append] at hmem
  rcases hmem with (hmem | hmem | hmem) | hmem
  · exact absurd hmem (by decide)
  · rcases e.stamp_chars _ hmem with hdigit | hcolon
    · exact absurd hdigit (by decide)
    · cases hcolon
  · exact absurd hmem (by decide)
  · exact absurd hmem (by decide)

/-- **Reading an entry** changes its id and its texts only. -/
theorem universalNewlines_text_append (hreturn : '\r' ∉ safeName.toList) (next : List Char) :
    universalNewlines (e.text safeName ++ next) =
      (e.read safeName).text safeName ++ universalNewlines next := by
  have hending := e.return_notMem_ending hreturn
  have hhead : ∀ texts : List Char, (texts ++ (e.ending safeName ++ next)).head? =
      (texts ++ e.ending safeName).head? := by
    intro texts
    rw [← List.append_assoc, List.head?_append_of_ne_nil]
    exact List.append_ne_nil_of_right_ne_nil _ (by simp [ending])
  have hwhole : e.text safeName ++ next = e.lead ++ "task:".toList ++
      (e.id ++ (e.middle ++ (e.ending safeName ++ next))) := by
    rw [text_eq]
    simp only [List.append_assoc]
  have hid := readBefore_congr (hhead e.middle) e.id
  have hmiddle : readBefore (e.ending safeName ++ next) e.middle =
      readBefore (e.ending safeName) e.middle := readBefore_congr (hhead []) e.middle
  rw [hwhole, universalNewlines_append, readBefore_of_notMem e.return_notMem_lead,
    universalNewlines_append, universalNewlines_append, universalNewlines_append,
    readBefore_of_notMem hending, hid, hmiddle, text_eq]
  simp only [List.append_assoc]
  rfl

end FiledEntry

/-- A file that is read has the same entries. -/
theorem universalNewlines_fileText {safeName : String} (hreturn : '\r' ∉ safeName.toList)
    (es : List FiledEntry) : universalNewlines (fileText safeName es) =
      fileText safeName (es.map fun e => e.read safeName) := by
  induction es with
  | nil => rfl
  | cons e es ih =>
      rw [fileText_cons, FiledEntry.universalNewlines_text_append hreturn, ih, List.map_cons,
        fileText_cons]

/-! ### Saving -/

/-- A call of `save_exchange`, for a given agent. -/
structure ExchangeSave where
  now : Moment
  taskId : TaskId
  inboundText : Json
  outboundText : String
  metadata : Json
  direction : Direction
  formatted : now.Formatted

/-- What follows the id in a heading. -/
def headingLabels (locale : Locale) (intent replyTo : Json) : String :=
  (if intent.truthy then " | " ++ locale.format intent else "") ++
    (if replyTo.truthy then " | reply_to:" ++ locale.format replyTo else "")

namespace ExchangeSave

/-- The texts of the entry. -/
def texts (locale : Locale) (safeName : String) (s : ExchangeSave) : List Char :=
  match s.direction with
  | .outbound => ("\n\n**→ me:** " ++ s.outboundText ++ "\n\n").toList
  | .inbound => ("\n\n**← " ++ safeName ++ ":** " ++ locale.format s.inboundText ++
      "\n\n**→ reply:** " ++ s.outboundText).toList

/-- The entry that is written, if the metadata can be read. -/
def entry? (locale : Locale) (safeName : String) (s : ExchangeSave) : Option FiledEntry :=
  match (s.metadata.orElse (.obj [])).get "intent" (.str ""),
      (s.metadata.orElse (.obj [])).get "reply_to_task_id" (.str "") with
  | .ok intent, .ok replyTo =>
      some {
        stamp := s.now.timestamp.toList
        id := s.taskId.display.toList
        middle := (headingLabels locale intent replyTo).toList ++ s.texts locale safeName
        waiting := s.direction = .outbound
        stamp_chars := s.formatted.timestamp }
  | _, _ => none

/-- The files after the call: an exception leaves them as they are. -/
def apply (table : CharTable) (locale : Locale) (agentName : Json) (files : ConversationFiles)
    (s : ExchangeSave) : ConversationFiles :=
  match saveExchange table locale s.now agentName s.taskId s.inboundText s.outboundText s.metadata
      s.direction files with
  | .ok (_, files) => files
  | .error _ => files

end ExchangeSave

/-- The files after a sequence of calls. -/
def saveAll (table : CharTable) (locale : Locale) (agentName : Json) (saves : List ExchangeSave)
    (files : ConversationFiles) : ConversationFiles :=
  saves.foldl (ExchangeSave.apply table locale agentName) files

/-- The entries of the file after a call: those of a file that is too large are gone with it,
and the others are read and written. -/
def entriesStep (locale : Locale) (safeName : String) (es : List FiledEntry) (s : ExchangeSave) :
    List FiledEntry :=
  match s.entry? locale safeName with
  | none => es
  | some e =>
      (if (String.ofList (fileText safeName es)).utf8ByteSize > MAX_FILE_SIZE then []
        else es.map fun e => e.read safeName) ++ [e]

/-- The entries that a sequence of calls leaves in a file that was not there before. -/
def entriesAfter (locale : Locale) (safeName : String) (saves : List ExchangeSave) :
    List FiledEntry :=
  saves.foldl (entriesStep locale safeName) []

theorem entriesAfter_singleton (locale : Locale) (safeName : String) (s : ExchangeSave) :
    entriesAfter locale safeName [s] = (s.entry? locale safeName).toList := by
  rw [entriesAfter, List.foldl_cons, List.foldl_nil, entriesStep]
  cases s.entry? locale safeName with
  | none => rfl
  | some e => rw [List.map_nil, ite_self]; rfl

/-- **The file has the entries**, and there is no file if there are none. -/
def HoldsEntries (file : FileName) (es : List FiledEntry) (files : ConversationFiles) : Prop :=
  OrderedDict.get? files file =
    if es = [] then none else some (String.ofList (fileText file.directory es))

section Saves

variable {table : CharTable} {locale : Locale} {now : Moment} {name : String}
  {files : ConversationFiles} {es : List FiledEntry} {file : FileName}

/-- **The entry as it is written** is the one of the file. -/
theorem toList_exchangeContent {s : ExchangeSave} {safeName : String} {intent replyTo : Json} :
    (exchangeContent (entryHeading locale s.now s.taskId intent replyTo) safeName
        (locale.format s.inboundText) s.outboundText s.direction).toList =
      HEADING ++ (s.now.timestamp.toList ++ " | ".toList) ++ ("task:".toList ++
        s.taskId.display.toList ++ ((headingLabels locale intent replyTo).toList ++
          s.texts locale safeName)) ++
        (if s.direction = .outbound then placeholder safeName else []) ++ ('\n' :: SEPARATOR) := by
  unfold exchangeContent entryLines entryHeading ExchangeSave.texts headingLabels
  cases s.direction with
  | inbound =>
      simp only [List.cons_append, List.nil_append, String.intercalate_cons_cons,
        String.intercalate_singleton, String.toList_append, List.append_assoc, reduceCtorEq,
        if_false, SEPARATOR, HEADING]
      simp
  | outbound =>
      rw [if_pos rfl]
      unfold placeholder replyMark WAITING SEPARATOR HEADING
      simp only [List.cons_append, List.nil_append, String.intercalate_cons_cons,
        String.intercalate_singleton, String.toList_append, List.append_assoc]
      simp

/-- **What a call does to the files.** -/
theorem apply_eq (s : ExchangeSave) : s.apply table locale (.str name) files =
    (s.entry? locale (safeName table (locale.lower name))).elim files fun e =>
      appendEntry s.now (exchangeFile table s.now (locale.lower name))
        (String.ofList (e.text (safeName table (locale.lower name)))) files := by
  unfold ExchangeSave.apply ExchangeSave.entry? saveExchange
  cases hintent : (s.metadata.orElse (.obj [])).get "intent" (.str "") with
  | error e => rfl
  | ok intent =>
      cases hreplyTo : (s.metadata.orElse (.obj [])).get "reply_to_task_id" (.str "") with
      | error e => rfl
      | ok replyTo =>
          -- the entry is the same text, put together in another order
          change appendEntry s.now (exchangeFile table s.now (locale.lower name))
            (exchangeContent (entryHeading locale s.now s.taskId intent replyTo)
              (safeName table (locale.lower name)) (locale.format s.inboundText) s.outboundText
                s.direction) files = appendEntry s.now _ _ files
          congr 1
          rw [← String.toList_inj, toList_exchangeContent]
          unfold FiledEntry.text FiledEntry.withReply FiledEntry.upToReply FiledEntry.lead
          simp only [decide_eq_true_eq]
          exact String.toList_ofList.symm

theorem appendEntry_holds (hreturn : '\r' ∉ file.directory.toList) (e : FiledEntry)
    (h : HoldsEntries file es files) :
    HoldsEntries file ((if (String.ofList (fileText file.directory es)).utf8ByteSize >
        MAX_FILE_SIZE then [] else es.map fun e => e.read file.directory) ++ [e])
      (appendEntry now file (String.ofList (e.text file.directory)) files) := by
  have hrotated : file ≠ { file with stem := file.stem ++ "_old_" ++ now.digits } := by
    intro heq
    have hstem := congrArg (fun f => f.stem.length) heq
    have hold : "_old_".length = 5 := rfl
    simp only [String.length_append] at hstem
    omega
  have hexisting : String.ofList (universalNewlines
      ((OrderedDict.get? (rotateFile now file files) file).getD "").toList) =
        String.ofList (fileText file.directory
          (if (String.ofList (fileText file.directory es)).utf8ByteSize > MAX_FILE_SIZE then []
            else es.map fun e => e.read file.directory)) := by
    unfold rotateFile
    unfold HoldsEntries at h
    by_cases hes : es = []
    · subst hes
      rw [if_pos rfl] at h
      simp only [h, List.map_nil, ite_self]
      rfl
    · rw [if_neg hes] at h
      simp only [h]
      split_ifs with hsize
      · rw [OrderedDict.get?_set, if_neg hrotated, OrderedDict.get?_erase, if_pos rfl]
        rfl
      · rw [h, Option.getD_some, String.toList_ofList, universalNewlines_fileText hreturn]
  have hone : fileText file.directory [e] = e.text file.directory := by
    rw [fileText_cons]
    exact List.append_nil _
  unfold HoldsEntries appendEntry
  dsimp only
  rw [OrderedDict.get?_set_self, hexisting, if_neg (List.append_ne_nil_of_right_ne_nil _ (by simp)),
    ← String.ofList_append, fileText_append, hone]

/-- **The file after any calls** on one day has the entries that they leave. -/
theorem holds_foldl (hreturn : '\r' ∉ file.directory.toList)
    (hfile : file.directory = safeName table (locale.lower name)) :
    ∀ (saves : List ExchangeSave), (∀ s ∈ saves, s.now.today = file.stem) →
      ∀ es files, HoldsEntries file es files →
        HoldsEntries file (saves.foldl (entriesStep locale file.directory) es)
          (saveAll table locale (.str name) saves files) := by
  intro saves
  induction saves with
  | nil => exact fun _ es files h => h
  | cons s saves ih =>
      intro htoday es files h
      obtain ⟨hs, hsaves⟩ := List.forall_mem_cons.mp htoday
      refine ih hsaves _ _ ?_
      have hday : exchangeFile table s.now (locale.lower name) = file := by
        rw [exchangeFile, hs, ← hfile]
      rw [apply_eq, entriesStep, hday, ← hfile]
      cases s.entry? locale file.directory with
      | none => exact h
      | some e => exact appendEntry_holds hreturn e h

/-- **The file after any calls** on one day has the entries that they leave. -/
theorem holds_entriesAfter {today : String} (saves : List ExchangeSave)
    (hfile : file = ⟨safeName table (locale.lower name), today⟩)
    (htoday : ∀ s ∈ saves, s.now.today = today)
    (hnone : OrderedDict.get? files file = none) :
    HoldsEntries file (entriesAfter locale file.directory saves)
      (saveAll table locale (.str name) saves files) := by
  have hdirectory : file.directory = safeName table (locale.lower name) := by rw [hfile]
  have hstem : file.stem = today := by rw [hfile]
  refine holds_foldl ?_ hdirectory saves (hstem ▸ htoday) [] files ?_
  · rw [hdirectory]
    exact return_notMem_safeName table _
  unfold HoldsEntries
  rw [if_pos rfl]
  exact hnone

end Saves

end HermesA2A
