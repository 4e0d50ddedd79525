import HermesA2A.ConversationUpdates
import HermesA2A.Exchanges
import HermesA2A.Lib.Paths

/-!
# Where conversation files are

The directory of an agent is named by the agent's name in small letters, with every character
replaced that is no letter, no digit and not one of `-_.@` and the blank.  No slash is left,
but dots are, and nothing asks for a name that is not empty.  A name of no, one or two dots
is that of no directory below: the file comes to lie among the directories, or above them.

The name of an inbound request is the peer's, with such characters removed that would be
replaced; so a peer can choose it.

* `contained_iff` — a file is inside exactly if the name is a name.
* `written_contained_iff` — the files that the code writes, for every agent and every request.
-/

namespace HermesA2A

open Paths

/-! ### The path of a file -/

/-- The path of a conversation file: `_get_conv_dir() / safe_name / f"{stem}.md"`. -/
def FileName.path (convDir : List Component) (file : FileName) : List Component :=
  join (join convDir file.directory.toList) (file.stem ++ ".md").toList

/-- **Contained**: just two levels below the directory of the conversations. -/
def FileName.Contained (convDir : List Component) (file : FileName) : Prop :=
  Inside convDir (file.path convDir)

/-- The texts that are no name of a directory of its own. -/
def DOTS : List String := ["", ".", ".."]

section Path

variable {table : CharTable} {locale : Locale} {now : Moment} {name : String}
  {convDir : List Component} {file : FileName}

theorem toList_safeName : (safeName table name).toList = name.toList.map fun c =>
    if table.isAlnum c || Json.isSubstring (String.ofList [c]) "-_.@ " then c else '_' := by
  rw [safeName, String.toList_ofList]

/-- No slash is left in a name. -/
theorem slash_notMem_safeName : '/' ∉ (safeName table name).toList := by
  rw [toList_safeName]
  intro hmem
  obtain ⟨c, -, hc⟩ := List.mem_map.mp hmem
  split_ifs at hc with hkept
  · subst hc
    rw [table.ascii '/' (by decide)] at hkept
    exact absurd hkept (by decide)
  · cases hc

/-- A name of dots is made from the same name only. -/
theorem safeName_mem_dots : safeName table name ∈ DOTS ↔ name ∈ DOTS := by
  have hdot : ∀ c : Char, (if table.isAlnum c || Json.isSubstring (String.ofList [c]) "-_.@ "
      then c else '_') = '.' ↔ c = '.' := by
    intro c
    constructor
    · intro h
      split_ifs at h with hkept
      · exact h
      · cases h
    · rintro rfl
      rw [if_pos]
      rw [Bool.or_eq_true]
      exact Or.inr (by decide)
  simp only [DOTS, List.mem_cons, List.not_mem_nil, or_false, ← String.toList_inj, toList_safeName]
  have hone : ".".toList = ['.'] := rfl
  have htwo : "..".toList = ['.', '.'] := rfl
  rw [hone, htwo, String.toList_empty, List.map_eq_nil_iff, List.map_eq_singleton_iff]
  refine or_congr Iff.rfl (or_congr ?_ ?_)
  · simp only [hdot]
    exact ⟨by rintro ⟨c, h, rfl⟩; exact h, fun h => ⟨'.', h, rfl⟩⟩
  · rw [List.map_eq_cons_iff]
    simp only [hdot, List.map_eq_singleton_iff]
    constructor
    · rintro ⟨c, text, htext, rfl, d, rfl, rfl⟩
      exact htext
    · exact fun h => ⟨'.', ['.'], h, rfl, '.', rfl, rfl⟩

/-- The name of the file itself is a name. -/
theorem proper_stem {stem : String} (h : '/' ∉ stem.toList) :
    Proper (stem ++ ".md").toList := by
  have htext : (stem ++ ".md").toList = stem.toList ++ ['.', 'm', 'd'] := by
    rw [String.toList_append]
    rfl
  rw [htext]
  refine ⟨by simp, fun heq => ?_, fun heq => ?_, by simpa using h⟩
  · simpa using congrArg List.length heq
  · simpa using congrArg List.length heq

/-- **When a file is contained.** -/
theorem contained_iff (hdirectory : file.directory = safeName table name)
    (hstem : '/' ∉ file.stem.toList) : file.Contained convDir ↔ name ∉ DOTS := by
  have hdots : (safeName table name).toList ∈ [[], ['.'], ['.', '.']] ↔
      safeName table name ∈ DOTS := by
    have hone : ".".toList = ['.'] := rfl
    have htwo : "..".toList = ['.', '.'] := rfl
    simp only [DOTS, List.mem_cons, List.not_mem_nil, or_false, ← String.toList_inj,
      String.toList_empty, hone, htwo]
  unfold FileName.Contained FileName.path
  rw [inside_join_iff (proper_stem hstem) (hdirectory ▸ slash_notMem_safeName), hdirectory,
    hdots, safeName_mem_dots]

end Path

/-! ### What is written -/

/-- What may be written for a name: the file of the day, and what it is renamed to. -/
def MayWrite (table : CharTable) (now : Moment) (name : String) (file : FileName) : Prop :=
  file = exchangeFile table now name ∨ file = rotatedFile table now name

theorem MayWrite.contained_iff {table : CharTable} {now : Moment} {name : String}
    {file : FileName} (hnow : now.Formatted) (convDir : List Component)
    (h : MayWrite table now name file) : file.Contained convDir ↔ name ∉ DOTS := by
  have htoday : '/' ∉ now.today.toList := fun hmem => by
    rcases hnow.today '/' hmem with hdigit | hdash
    · exact absurd hdigit (by decide)
    · cases hdash
  have hdigits : '/' ∉ now.digits.toList := fun hmem =>
    absurd (hnow.digits '/' hmem) (by decide)
  rcases h with rfl | rfl
  · exact HermesA2A.contained_iff rfl htoday
  · refine HermesA2A.contained_iff rfl ?_
    simp [rotatedFile, htoday, hdigits]

/-- **Where a step writes**: the file of the day and every file that differs after it are
contained exactly if the agent's name is a name. -/
def WritesWithin (table : CharTable) (now : Moment) (convDir : List Component) (name : String)
    (files files' : ConversationFiles) : Prop :=
  ∀ file, file = exchangeFile table now name ∨
      OrderedDict.get? files' file ≠ OrderedDict.get? files file →
    (file.Contained convDir ↔ name ∉ DOTS)

section Writes

variable {table : CharTable} {locale : Locale} {now : Moment} {convDir : List Component}
  {agentName : Json} {t : TaskId} {files files' : ConversationFiles}

theorem saveExchange_within (hnow : now.Formatted) {inboundText metadata : Json}
    {outboundText entry : String} {direction : Direction}
    (h : saveExchange table locale now agentName t inboundText outboundText metadata direction
      files = .ok (entry, files')) :
    ∃ given, agentName = .str given ∧
      WritesWithin table now convDir (locale.lower given) files files' := by
  obtain ⟨given, rfl, hframe⟩ := saveExchange_frame h
  refine ⟨given, rfl, fun file hwritten => ?_⟩
  have hmay : MayWrite table now (locale.lower given) file := hwritten.elim Or.inl (hframe file)
  exact hmay.contained_iff hnow convDir

theorem updateExchange_within (hnow : now.Formatted) {inboundText : String} {updated : Bool}
    (h : updateExchange table locale now agentName t inboundText files = .ok (updated, files')) :
    ∃ given, agentName = .str given ∧
      WritesWithin table now convDir (locale.lower given) files files' := by
  obtain ⟨given, rfl, hframe⟩ := updateExchange_frame h
  refine ⟨given, rfl, fun file hwritten => ?_⟩
  have hmay : MayWrite table now (locale.lower given) file :=
    Or.inl (hwritten.elim id (hframe file))
  exact hmay.contained_iff hnow convDir

/-- What the hook saves, it saves under the sender's name. -/
theorem persistExchange_within (hnow : now.Formatted) {response entry : String} {q : TaskQueue}
    {fields : List (String × Json)} {name : String} (hmetadata : q.getTaskMetadata t = .obj fields)
    (hname : fields.lookup "sender_name" = some (.str name))
    (h : persistExchange table locale now t response q files = .ok (some entry, files')) :
    WritesWithin table now convDir (locale.lower name) files files' := by
  unfold persistExchange at h
  rw [hmetadata] at h
  simp only [Json.get_obj, hname, Option.getD_some, bind, Except.bind] at h
  split at h
  · rename_i saved files'' hsaved
    obtain ⟨-, rfl⟩ := Prod.mk.inj (Except.ok.inj h)
    obtain ⟨given, hgiven, hwithin⟩ : ∃ given, Json.str name = .str given ∧
        WritesWithin table now convDir (locale.lower given) files files'' :=
      saveExchange_within hnow hsaved
    obtain rfl := Json.str.inj hgiven
    exact hwithin
  · cases h

end Writes

/-- **Conversation files are contained exactly for the names that are names**: for every agent
to which an exchange is saved or updated, and for the sender of every request, whose exchange
is saved from the metadata that the request came with. -/
theorem written_contained_iff (table : CharTable) (locale : Locale) {now : Moment}
    (hnow : now.Formatted) (convDir : List Component) :
    (∀ agentName t inboundText outboundText metadata direction files entry files',
      saveExchange table locale now agentName t inboundText outboundText metadata direction files =
          .ok (entry, files') →
        ∃ given, agentName = .str given ∧
          WritesWithin table now convDir (locale.lower given) files files') ∧
    (∀ agentName t inboundText files updated files',
      updateExchange table locale now agentName t inboundText files = .ok (updated, files') →
        ∃ given, agentName = .str given ∧
          WritesWithin table now convDir (locale.lower given) files files') ∧
    ∀ transport req s, planSend table transport req = .ok (.submit s) →
      ∃ name, s.markOrigin.metadata.field? "sender_name" = some (.str name) ∧
        ∀ q t response files entry files', q.getTaskMetadata t = s.markOrigin.metadata →
          persistExchange table locale now t response q files = .ok (some entry, files') →
            WritesWithin table now convDir (locale.lower name) files files' := by
  refine ⟨fun _ _ _ _ _ _ _ _ _ h => saveExchange_within hnow h,
    fun _ _ _ _ _ _ h => updateExchange_within hnow h, fun transport req s hplan => ?_⟩
  obtain ⟨fields, name, hmetadata, -⟩ := metadata_of_plan hplan
  have hname := (lookup_peerFields name fields).1
  refine ⟨name, ?_, fun q t response files entry files' hfound hsaved => ?_⟩
  · rw [hmetadata]
    exact hname
  · exact persistExchange_within hnow (hfound.trans hmetadata) hname hsaved

theorem Moment.sample_formatted : Moment.sample.Formatted :=
  ⟨Text.forall_mem_of_all (by decide), Text.forall_mem_of_all (by decide),
    Text.forall_mem_of_all (by decide)⟩

/-- The file of an agent `bob` is contained. -/
theorem written_contained_bob :
    (exchangeFile Platform.sample.table .sample (Locale.sample.lower "Bob")).Contained
      ["home".toList, "a2a_conversations".toList] := by
  obtain ⟨given, hgiven, hwithin⟩ := (written_contained_iff Platform.sample.table .sample
    Moment.sample_formatted ["home".toList, "a2a_conversations".toList]).2.1 (.str "Bob") (.str "a")
      "hi" .empty false .empty rfl
  obtain rfl := Json.str.inj hgiven
  exact (hwithin _ (Or.inl rfl)).mpr (by decide +kernel)

/-- A peer that calls itself `..` is accepted, and its file lies above the directory. -/
theorem dotted_sender_escapes :
    ∃ s, planSend Platform.sample.table .jsonRpc (peerRequest [("sender_name", .str "..")]) =
        .ok (.submit s) ∧
      s.markOrigin.metadata.field? "sender_name" = some (.str "..") ∧
        ¬ (exchangeFile Platform.sample.table .sample (Locale.sample.lower "..")).Contained
          ["home".toList, "a2a_conversations".toList] := by
  refine ⟨_, rfl, by decide +kernel, ?_⟩
  rw [contained_iff rfl (by decide)]
  exact not_not.mpr (by decide +kernel)

end HermesA2A
