import Mathlib.Data.List.Basic

/-!
# Event streams

The text format of Server-Sent Events.  A stream is read line by line: a line is a field, an
empty line ends a message, and what is not ended is dropped.  A message has the text of its
`data`, the name of its `event`, and the `id` that came last, with it or before it.

* `read` — the messages of a text.
* `read_flatMap_text` — messages that are written one after the other are read one after the
  other, if their fields are plain; `plain_of_read` — and only then.
* `prefix_read` — of a text that is cut off, the first messages are read, and nothing else.
-/

namespace EventStream

/-! ### Reading -/

/-- A message, as a reader has it. -/
structure Message where
  lastId : List Char
  event : List Char
  data : List Char
deriving DecidableEq

/-- The lines of a text that are ended, after the beginning of a line. -/
def lines (line : List Char) : List Char → List (List Char)
  | [] => []
  | '\r' :: '\n' :: text => line :: lines [] text
  | '\r' :: text => line :: lines [] text
  | '\n' :: text => line :: lines [] text
  | c :: text => lines (line ++ [c]) text

/-- The name and the value of a field: a blank after the colon is left out. -/
def field (line : List Char) : List Char × List Char :=
  (line.takeWhile (· ≠ ':'),
    match line.dropWhile (· ≠ ':') with
    | ':' :: ' ' :: value => value
    | ':' :: value => value
    | _ => [])

/-- What a reader has read of a message, and the last id. -/
structure Reader where
  lastId : List Char
  event : List Char
  data : List Char

/-- Nothing is read yet. -/
def Reader.init : Reader := ⟨[], [], []⟩

/-- A field is read. -/
def Reader.field (r : Reader) (name value : List Char) : Reader :=
  if name = "event".toList then { r with event := value }
  else if name = "data".toList then { r with data := r.data ++ value ++ ['\n'] }
  else if name = "id".toList then if '\x00' ∈ value then r else { r with lastId := value }
  else r

/-- A message is ended.  One without data is none. -/
def Reader.dispatch (r : Reader) : List Message :=
  if r.data = [] then []
  else [⟨r.lastId, if r.event = [] then "message".toList else r.event, r.data.dropLast⟩]

/-- The messages of some lines. -/
def messagesOf (r : Reader) : List (List Char) → List Message
  | [] => []
  | [] :: rest => r.dispatch ++ messagesOf ⟨r.lastId, [], []⟩ rest
  | line :: rest => messagesOf (r.field (field line).1 (field line).2) rest

/-- **The messages of a text.** -/
def read (text : List Char) : List Message := messagesOf .init (lines [] text)

/-! ### Writing -/

/-- A message, as it is written. -/
structure Frame where
  id : Option (List Char)
  event : List Char
  data : List Char

/-- A field in a line of its own. -/
def fieldText (name value : List Char) : List Char := name ++ ": ".toList ++ value ++ ['\n']

/-- The text of a message. -/
def Frame.text (f : Frame) : List Char :=
  f.id.elim [] (fieldText "id".toList) ++ fieldText "event".toList f.event ++
    fieldText "data".toList f.data ++ ['\n']

/-- What a reader should have of some messages, after an id. -/
def messages (lastId : List Char) : List Frame → List Message
  | [] => []
  | f :: fs => ⟨f.id.getD lastId, f.event, f.data⟩ :: messages (f.id.getD lastId) fs

/-- A text in one line. -/
def OneLine (text : List Char) : Prop := '\n' ∉ text ∧ '\r' ∉ text

instance (text : List Char) : Decidable (OneLine text) := inferInstanceAs (Decidable (_ ∧ _))

/-- An id that can be written. -/
def PlainId (id : List Char) : Prop := OneLine id ∧ '\x00' ∉ id

instance (id : List Char) : Decidable (PlainId id) := inferInstanceAs (Decidable (_ ∧ _))

/-- The id and the name of a message can be written. -/
structure Frame.Plain (f : Frame) : Prop where
  id : ∀ id, f.id = some id → PlainId id
  event : OneLine f.event
  event_ne : f.event ≠ []

/-! ### What is written is read -/

theorem lines_append {text : List Char} (h : OneLine text) (line rest : List Char) :
    lines line (text ++ '\n' :: rest) = (line ++ text) :: lines [] rest := by
  induction text generalizing line with
  | nil =>
      rw [List.append_nil]
      rfl
  | cons c text ih =>
      have hn : c ≠ '\n' := fun hc => h.1 (hc ▸ List.mem_cons_self)
      have hr : c ≠ '\r' := fun hc => h.2 (hc ▸ List.mem_cons_self)
      rw [List.cons_append, lines]
      · rw [ih ⟨fun hmem => h.1 (List.mem_cons_of_mem _ hmem),
          fun hmem => h.2 (List.mem_cons_of_mem _ hmem)⟩, List.append_assoc]
        rfl
      · exact fun text hc _ => hr hc
      · exact hr
      · exact hn

/-- A field that was written is the next line. -/
theorem lines_fieldText {name value : List Char} (hname : OneLine name) (hvalue : OneLine value)
    (rest : List Char) :
    lines [] (fieldText name value ++ rest) = (name ++ ": ".toList ++ value) :: lines [] rest := by
  have hline : OneLine (name ++ ": ".toList ++ value) := by
    constructor
    · simp only [List.mem_append, not_or]
      exact ⟨⟨hname.1, by decide⟩, hvalue.1⟩
    · simp only [List.mem_append, not_or]
      exact ⟨⟨hname.2, by decide⟩, hvalue.2⟩
  unfold fieldText
  rw [List.append_assoc, List.singleton_append, lines_append hline, List.nil_append]

theorem field_append {name : List Char} (hname : ':' ∉ name) (value : List Char) :
    field (name ++ ": ".toList ++ value) = (name, value) := by
  have hall : ∀ c ∈ name, decide (c ≠ ':') = true := fun c hc =>
    decide_eq_true fun heq => hname (heq ▸ hc)
  have htake : (name ++ (":".toList ++ ' ' :: value)).takeWhile (· ≠ ':') = name := by
    rw [List.takeWhile_append_of_pos hall]
    exact List.append_nil name
  have hdrop : (name ++ (":".toList ++ ' ' :: value)).dropWhile (· ≠ ':') = ':' :: ' ' :: value := by
    rw [List.dropWhile_append_of_pos hall]
    rfl
  have htext : name ++ ": ".toList ++ value = name ++ (":".toList ++ ' ' :: value) := by
    rw [List.append_assoc]
    rfl
  unfold field
  rw [htext, htake, hdrop]
  rfl

/-- A line with a field changes the reader, and no message is ended. -/
theorem messagesOf_field {name : List Char} (hname : ':' ∉ name) (hne : name ≠ [])
    (value : List Char) (r : Reader) (rest : List (List Char)) :
    messagesOf r ((name ++ ": ".toList ++ value) :: rest) = messagesOf (r.field name value) rest := by
  cases hline : name ++ ": ".toList ++ value with
  | nil =>
      rw [List.append_eq_nil_iff, List.append_eq_nil_iff] at hline
      exact absurd hline.1.1 hne
  | cons c line =>
      rw [messagesOf, ← hline, field_append hname]
      exact fun h => by cases h

/-- **One message** that was written, and what comes after it. -/
theorem messagesOf_text {f : Frame} (hf : f.Plain) (hdata : OneLine f.data) (lastId : List Char)
    (rest : List Char) :
    messagesOf ⟨lastId, [], []⟩ (lines [] (f.text ++ rest)) =
      ⟨f.id.getD lastId, f.event, f.data⟩ ::
        messagesOf ⟨f.id.getD lastId, [], []⟩ (lines [] rest) := by
  have hlast : ∀ id, messagesOf ⟨id, [], []⟩ (lines [] (fieldText "event".toList f.event ++
      (fieldText "data".toList f.data ++ '\n' :: rest))) =
        ⟨id, f.event, f.data⟩ :: messagesOf ⟨id, [], []⟩ (lines [] rest) := by
    intro id
    rw [lines_fieldText (by decide) hf.event, messagesOf_field (by decide) (by decide),
      lines_fieldText (by decide) hdata, messagesOf_field (by decide) (by decide)]
    change messagesOf ⟨id, f.event, [] ++ f.data ++ ['\n']⟩ ([] :: lines [] rest) = _
    rw [messagesOf, Reader.dispatch, if_neg (by simp), if_neg hf.event_ne, List.dropLast_concat]
    rfl
  unfold Frame.text
  simp only [List.append_assoc, List.singleton_append]
  cases hid : f.id with
  | none => exact hlast lastId
  | some id =>
      have hplain := hf.id id hid
      rw [Option.elim_some, lines_fieldText (by decide) hplain.1,
        messagesOf_field (by decide) (by decide)]
      have hread : (Reader.mk lastId [] []).field "id".toList id = ⟨id, [], []⟩ := by
        unfold Reader.field
        rw [if_neg (by decide), if_neg (by decide), if_pos rfl, if_neg hplain.2]
      rw [hread]
      exact hlast id

/-- **Messages that are written one after the other are read one after the other.** -/
theorem read_flatMap_text {fs : List Frame} (hfs : ∀ f ∈ fs, f.Plain)
    (hdata : ∀ f ∈ fs, OneLine f.data) : read (fs.flatMap Frame.text) = messages [] fs := by
  have hall : ∀ lastId, messagesOf ⟨lastId, [], []⟩ (lines [] (fs.flatMap Frame.text)) =
      messages lastId fs := by
    induction fs with
    | nil => exact fun _ => rfl
    | cons f fs ih =>
        intro lastId
        rw [List.flatMap_cons, messagesOf_text (hfs f List.mem_cons_self)
          (hdata f List.mem_cons_self), ih (fun g hg => hfs g (List.mem_cons_of_mem _ hg))
          (fun g hg => hdata g (List.mem_cons_of_mem _ hg))]
        rfl
  exact hall []

/-! ### What is read is plain -/

/-- What a reader has is in one line, but for the data. -/
structure Reader.Plain (r : Reader) : Prop where
  lastId : PlainId r.lastId
  event : OneLine r.event

theorem oneLine_of_mem_lines {line text l : List Char} (hline : OneLine line)
    (hl : l ∈ lines line text) : OneLine l := by
  fun_induction lines line text with
  | case1 => exact absurd hl List.not_mem_nil
  | case2 line text ih =>
      rcases List.mem_cons.mp hl with rfl | hl
      · exact hline
      · exact ih (by decide) hl
  | case3 line text _ ih =>
      rcases List.mem_cons.mp hl with rfl | hl
      · exact hline
      · exact ih (by decide) hl
  | case4 line text ih =>
      rcases List.mem_cons.mp hl with rfl | hl
      · exact hline
      · exact ih (by decide) hl
  | case5 line c text _ hr hn ih =>
      refine ih ?_ hl
      unfold OneLine at hline ⊢
      simp only [List.mem_append, List.mem_singleton, not_or]
      exact ⟨⟨hline.1, fun h => hn h.symm⟩, hline.2, fun h => hr h.symm⟩

theorem oneLine_field {line : List Char} (h : OneLine line) : OneLine (field line).2 := by
  have hsub : ∀ c ∈ (field line).2, c ∈ line := by
    intro c hc
    refine (List.dropWhile_sublist (· ≠ ':')).mem ?_
    unfold field at hc
    dsimp only at hc
    split at hc
    · rename_i heq
      rw [heq]
      exact List.mem_cons_of_mem _ (List.mem_cons_of_mem _ hc)
    · rename_i _ heq
      rw [heq]
      exact List.mem_cons_of_mem _ hc
    · exact absurd hc List.not_mem_nil
  exact ⟨fun hmem => h.1 (hsub _ hmem), fun hmem => h.2 (hsub _ hmem)⟩

theorem Reader.Plain.field {r : Reader} (hr : r.Plain) {value : List Char} (hvalue : OneLine value)
    (name : List Char) : (r.field name value).Plain := by
  unfold Reader.field
  split_ifs with hevent hdata hid hnul
  · exact ⟨hr.lastId, hvalue⟩
  · exact ⟨hr.lastId, hr.event⟩
  · exact hr
  · exact ⟨⟨hvalue, hnul⟩, hr.event⟩
  · exact hr

/-- Whatever is read, its id and its name are plain. -/
theorem plain_of_mem_messagesOf {ls : List (List Char)} (hls : ∀ l ∈ ls, OneLine l) :
    ∀ {r : Reader}, r.Plain → ∀ m ∈ messagesOf r ls,
      PlainId m.lastId ∧ OneLine m.event ∧ m.event ≠ [] := by
  induction ls with
  | nil => exact fun _ m hm => absurd hm List.not_mem_nil
  | cons l ls ih =>
      have hrest := @ih fun l hl => hls l (List.mem_cons_of_mem _ hl)
      intro r hr m hm
      cases l with
      | nil =>
          rw [messagesOf, List.mem_append] at hm
          rcases hm with hm | hm
          · unfold Reader.dispatch at hm
            split_ifs at hm with hdata hevent
            · exact absurd hm List.not_mem_nil
            · have hname : OneLine "message".toList ∧ "message".toList ≠ [] := by decide
              rw [List.mem_singleton.mp hm]
              exact ⟨hr.lastId, hname⟩
            · rw [List.mem_singleton.mp hm]
              exact ⟨hr.lastId, hr.event, hevent⟩
          · have hnone : OneLine [] := by decide
            exact @hrest ⟨r.lastId, [], []⟩ ⟨hr.lastId, hnone⟩ m hm
      | cons c l =>
          rw [messagesOf] at hm
          · exact hrest (hr.field (oneLine_field (hls _ List.mem_cons_self)) _) m hm
          · exact fun h => by cases h

theorem plain_of_mem_read {text : List Char} {m : Message} (hm : m ∈ read text) :
    PlainId m.lastId ∧ OneLine m.event ∧ m.event ≠ [] :=
  plain_of_mem_messagesOf (fun _ hl => oneLine_of_mem_lines (by decide) hl) ⟨by decide, by decide⟩ m hm

theorem exists_of_mem_messages {f : Frame} {fs : List Frame} (hf : f ∈ fs) :
    ∀ lastId, ∃ m ∈ messages lastId fs, m.event = f.event ∧ ∀ id, f.id = some id → m.lastId = id := by
  induction fs with
  | nil => exact absurd hf List.not_mem_nil
  | cons g fs ih =>
      intro lastId
      rcases List.mem_cons.mp hf with rfl | hf
      · exact ⟨_, List.mem_cons_self, rfl, fun id hid => by rw [hid]; rfl⟩
      · obtain ⟨m, hm, hboth⟩ := ih hf (g.id.getD lastId)
        exact ⟨m, List.mem_cons_of_mem _ hm, hboth⟩

/-- **What a reader has the ids and the names of, was plain.** -/
theorem plain_of_read {fs : List Frame} {text : List Char}
    (h : ∀ m ∈ messages [] fs, ∃ m' ∈ read text, m'.lastId = m.lastId ∧ m'.event = m.event) :
    ∀ f ∈ fs, f.Plain := by
  intro f hf
  obtain ⟨m, hm, hevent, hid⟩ := exists_of_mem_messages hf []
  obtain ⟨m', hm', hlast', hevent'⟩ := h m hm
  obtain ⟨hplain, hline, hne⟩ := plain_of_mem_read hm'
  rw [hlast'] at hplain
  rw [hevent', hevent] at hline hne
  exact ⟨fun id h => hid id h ▸ hplain, hline, hne⟩

/-! ### A text that is cut off -/

theorem prefix_lines {text text' : List Char} (h : text <+: text') (hr : '\r' ∉ text') :
    ∀ line, lines line text <+: lines line text' := by
  induction text generalizing text' with
  | nil => exact fun line => List.nil_prefix
  | cons c text ih =>
      obtain ⟨rest, rfl⟩ := h
      have hc : c ≠ '\r' := fun heq => hr (heq ▸ List.mem_cons_self)
      have htail := ih (List.prefix_append text rest) fun hmem => hr (List.mem_cons_of_mem _ hmem)
      intro line
      by_cases hn : c = '\n'
      · subst hn
        exact List.prefix_cons_inj _ |>.mpr (htail [])
      · have hstep : ∀ t, lines line (c :: t) = lines (line ++ [c]) t := by
          intro t
          rw [lines]
          · exact fun text heq _ => hc heq
          · exact hc
          · exact hn
        rw [List.cons_append, hstep, hstep]
        exact htail _

theorem prefix_messagesOf {ls ls' : List (List Char)} (h : ls <+: ls') :
    ∀ r, messagesOf r ls <+: messagesOf r ls' := by
  induction ls generalizing ls' with
  | nil => exact fun r => List.nil_prefix
  | cons l ls ih =>
      obtain ⟨rest, rfl⟩ := h
      have htail := ih (List.prefix_append ls rest)
      intro r
      cases l with
      | nil => exact (List.prefix_append_right_inj _).mpr (htail _)
      | cons c l =>
          rw [List.cons_append, messagesOf, messagesOf]
          · exact htail _
          · exact fun heq => by cases heq
          · exact fun heq => by cases heq

/-- **A text that is cut off** has the first messages, each of them whole. -/
theorem prefix_read {text text' : List Char} (h : text <+: text') (hr : '\r' ∉ text') :
    read text <+: read text' :=
  prefix_messagesOf (prefix_lines h hr []) _

end EventStream
