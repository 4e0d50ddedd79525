import HermesA2A.ConversationPaths
import HermesA2A.FiledEntries

/-!
# Which entry a reply goes to

`update_exchange` takes the first `task:<id>` in the file for the heading of the entry, so it
matters what an entry's own text is, and what the ids and texts before it are.

* `EditsOwnEntry` — the reply is put into a waiting entry with the id, and all else stays; or
  there is no such entry, and nothing changes.
* `Unambiguous` — the first `task:<id>` is the heading of such an entry, and nothing before its
  placeholder looks like the end of it.
* `updateExchange_edits_own_entry` — after any saves, an unambiguous update edits its entry.
-/

namespace HermesA2A

namespace FiledEntry

variable (safeName : String) (e : FiledEntry)

/-- The entry waits for the reply to a task. -/
def WaitsFor (taskId : List Char) : Prop := e.waiting = true ∧ e.id = taskId

/-- Nothing in the entry can be taken for its end or its placeholder. -/
structure Quiet : Prop where
  no_separator : ¬ SEPARATOR <:+: e.id ++ e.middle
  no_placeholder : ¬ placeholder safeName <:+: e.id ++ e.middle

end FiledEntry

/-! ### The parts of an entry -/

section Parts

variable {safeName : String} {e : FiledEntry}

/-- The mark of a heading does not begin inside the heading. -/
theorem rfind?_lead (before : List Char) :
    Text.rfind? HEADING (before ++ e.lead) = some (before, e.stamp ++ " | ".toList) := by
  have hno : ¬ HEADING <:+: HEADING.tail ++ (e.stamp ++ " | ".toList) := by
    intro h
    have hstamp : '#' ∉ ' ' :: (e.stamp ++ " | ".toList) := by
      intro hmem
      rcases List.mem_cons.mp hmem with hspace | hmem
      · cases hspace
      · rcases List.mem_append.mp hmem with hstamp | hbar
        · rcases e.stamp_chars '#' hstamp with hdigit | hcolon
          · exact absurd hdigit (by decide)
          · cases hcolon
        · exact absurd hbar (by decide)
    rcases List.infix_cons_iff.mp h with hstart | hin
    · exact absurd (List.cons_prefix_cons.mp (List.cons_prefix_cons.mp hstart).2).1 (by decide)
    · have hnil : HEADING <:+: [] :=
        Text.infix_of_head_notMem hstamp (by rw [List.append_nil]; exact hin)
      exact absurd (List.infix_nil.mp hnil) (by decide)
  rw [FiledEntry.lead, ← List.append_assoc]
  exact Text.rfind?_append (by decide) hno

variable (hname : '\n' ∉ safeName.toList) (hparen : ')' ∉ safeName.toList)

include hname in
/-- The first separator after the marker of a quiet waiting entry is the one at its end. -/
theorem find?_separator (hquiet : e.Quiet safeName) (after : List Char) :
    Text.find? SEPARATOR ("task:".toList ++ e.id ++ e.middle ++ placeholder safeName ++
        ('\n' :: SEPARATOR) ++ after) =
      some ("task:".toList ++ e.id ++ e.middle ++ placeholder safeName ++ ['\n'], after) := by
  have hno : ¬ SEPARATOR <:+: "task:".toList ++ e.id ++ e.middle ++ placeholder safeName ++
      ['\n'] ++ SEPARATOR.dropLast := by
    intro h
    rw [placeholder_eq] at h
    have hsplit : "task:".toList ++ e.id ++ e.middle ++ ('*' :: ("*← ".toList ++
        safeName.toList ++ ":** (waiting for reply…".toList) ++ [')']) ++ ['\n'] ++
          SEPARATOR.dropLast =
        ("task".toList ++ ':' :: (e.id ++ e.middle)) ++ '*' :: (("*← ".toList ++
          safeName.toList ++ ":** (waiting for reply…".toList) ++ ')' :: "\n\n---".toList) := by
      simp [SEPARATOR]
    rw [hsplit] at h
    rcases Text.infix_or_of_notMem (by decide) h with h | h
    · rcases Text.infix_or_of_notMem (by decide) h with h | h
      · exact absurd h (by decide)
      · exact hquiet.no_separator h
    · rcases Text.infix_or_of_notMem (by decide) h with h | h
      · -- there is no line end in the placeholder
        have hline : '\n' ∈ "*← ".toList ++ safeName.toList ++ ":** (waiting for reply…".toList :=
          h.subset (by decide)
        simp only [List.mem_append, hname, or_false] at hline
        exact absurd hline (by decide)
      · exact absurd h (by decide)
  have heq : "task:".toList ++ e.id ++ e.middle ++ placeholder safeName ++
      ('\n' :: SEPARATOR) ++ after =
        ("task:".toList ++ e.id ++ e.middle ++ placeholder safeName ++ ['\n']) ++ SEPARATOR ++
          after := by simp
  rw [heq]
  exact Text.find?_append hno

include hparen in
/-- The first placeholder in a quiet waiting entry is its own. -/
theorem replaceOnce_placeholder (hquiet : e.Quiet safeName) (new after : List Char) :
    Text.replaceOnce (placeholder safeName) new (e.upToReply ++ placeholder safeName ++ after) =
      e.upToReply ++ new ++ after := by
  refine Text.replaceOnce_append fun h => hquiet.no_placeholder ?_
  have hlast : ')' ∉ (placeholder safeName).dropLast := by
    rw [placeholder_eq, List.dropLast_concat]
    simp [hparen]
  have hstar : '*' ∉ e.lead ++ "task:".toList := by
    unfold FiledEntry.lead
    intro hmem
    simp only [List.mem_append] at hmem
    rcases hmem with (hmem | hmem | hmem) | hmem
    · exact absurd hmem (by decide)
    · rcases e.stamp_chars '*' hmem with hdigit | hcolon
      · exact absurd hdigit (by decide)
      · cases hcolon
    · exact absurd hmem (by decide)
    · exact absurd hmem (by decide)
  have hfront : placeholder safeName <:+: e.upToReply := by
    rw [placeholder_eq] at h hlast ⊢
    exact Text.infix_of_last_notMem hlast h
  rw [FiledEntry.upToReply, List.append_assoc, ← List.append_assoc, placeholder_eq] at hfront
  rw [placeholder_eq]
  exact Text.infix_of_head_notMem hstar hfront

end Parts

/-! ### The search, in a file of entries -/

section Search

variable {safeName : String} {es es₁ es₂ : List FiledEntry} {e : FiledEntry}
  {taskId reply : List Char}

/-- **The entry is found**: the first marker of the file is that of a quiet waiting entry. -/
theorem rewriteEntry_of_waiting (hname : '\n' ∉ safeName.toList) (hparen : ')' ∉ safeName.toList)
    (hwaits : e.WaitsFor taskId) (hquiet : e.Quiet safeName) (hreply : reply ≠ WAITING)
    (hfirst : Text.First ("task:".toList ++ taskId) (fileText safeName (es₁ ++ e :: es₂))
      (fileText safeName es₁ ++ e.lead)) :
    rewriteEntry safeName taskId reply (fileText safeName (es₁ ++ e :: es₂)) =
      some (fileText safeName es₁ ++ e.withReply (replyMark safeName ++ reply) ++
        fileText safeName es₂) := by
  obtain ⟨hwaiting, rfl⟩ := hwaits
  obtain ⟨rest, hfind⟩ := Text.first_iff.mp hfirst
  have hrest : "task:".toList ++ e.id ++ rest = "task:".toList ++ e.id ++ e.middle ++
      placeholder safeName ++ ('\n' :: SEPARATOR) ++ fileText safeName es₂ := by
    have hwhole := (Text.find?_eq_some_iff.mp hfind).1
    rw [fileText_append, fileText_cons, FiledEntry.text, if_pos hwaiting, FiledEntry.withReply,
      FiledEntry.upToReply] at hwhole
    simp only [List.append_assoc] at hwhole ⊢
    exact (List.append_cancel_left (List.append_cancel_left hwhole)).symm
  unfold rewriteEntry
  dsimp only
  rw [hfind]
  dsimp only
  rw [rfind?_lead, hrest]
  dsimp only
  rw [find?_separator hname hquiet]
  dsimp only
  have hblock : HEADING ++ (e.stamp ++ " | ".toList) ++ ("task:".toList ++ e.id ++ e.middle ++
      placeholder safeName ++ ['\n'] ++ SEPARATOR) =
        e.upToReply ++ placeholder safeName ++ ('\n' :: SEPARATOR) := by
    rw [FiledEntry.upToReply, FiledEntry.lead]
    simp
  have hreplaced : Text.replaceOnce (replyMark safeName ++ WAITING) (replyMark safeName ++ reply)
      (e.upToReply ++ placeholder safeName ++ ('\n' :: SEPARATOR)) =
        e.withReply (replyMark safeName ++ reply) :=
    replaceOnce_placeholder hparen hquiet _ _
  rw [hblock, hreplaced, if_neg]
  intro heq
  exact hreply (List.append_cancel_left (List.append_cancel_left (List.append_cancel_right heq)))

/-- Where the marker begins, there is neither the mark of a heading nor a separator. -/
theorem exists_lead_of_marker (marker : List Char) {lead tail rest more : List Char}
    (htext : e.text safeName = lead ++ tail) (hlead : lead.length < (e.text safeName).length)
    (hmarker : 't' :: marker ++ rest = tail ++ more) :
    (∃ lead', lead = HEADING ++ lead') ∧ ∃ tail', tail = tail' ++ SEPARATOR := by
  have hbegin : ∃ body, e.text safeName = HEADING ++ body := by
    refine ⟨(e.text safeName).drop HEADING.length, ?_⟩
    unfold FiledEntry.text FiledEntry.withReply FiledEntry.upToReply FiledEntry.lead
    simp only [List.append_assoc, List.drop_left]
  have hend : ∃ body, e.text safeName = body ++ SEPARATOR := by
    refine ⟨e.upToReply ++ (if e.waiting then placeholder safeName else []) ++ ['\n'], ?_⟩
    unfold FiledEntry.text FiledEntry.withReply
    simp
  -- what is left of the entry begins as the marker does
  obtain ⟨left, rfl⟩ : ∃ left, tail = 't' :: left := by
    cases tail with
    | nil =>
        rw [htext, List.append_nil] at hlead
        exact absurd hlead (Nat.lt_irrefl _)
    | cons c left =>
        obtain ⟨rfl, -⟩ := List.cons.inj hmarker
        exact ⟨left, rfl⟩
  constructor
  · obtain ⟨body, hbody⟩ := hbegin
    rw [htext] at hbody
    rcases List.append_eq_append_iff.mp hbody with ⟨z, hz, hrest⟩ | ⟨z, rfl, -⟩
    · cases z with
      | nil => exact ⟨[], by simpa using hz.symm⟩
      | cons c z =>
          obtain ⟨rfl, -⟩ := List.cons.inj hrest
          have hmem : 't' ∈ HEADING := by rw [hz]; simp
          exact absurd hmem (by decide)
    · exact ⟨z, rfl⟩
  · obtain ⟨body, hbody⟩ := hend
    rw [htext] at hbody
    rcases List.append_eq_append_iff.mp hbody with ⟨z, rfl, hrest⟩ | ⟨z, -, hrest⟩
    · exact ⟨z, hrest⟩
    · have hmem : 't' ∈ SEPARATOR := by rw [hrest]; simp
      exact absurd hmem (by decide)

/-- **No reply is put in** if the first marker of the file is in an entry without a
placeholder: the search does not leave the entry. -/
theorem rewriteEntry_of_no_placeholder {lead : List Char}
    (hfirst : Text.First ("task:".toList ++ taskId) (fileText safeName (es₁ ++ e :: es₂))
      (fileText safeName es₁ ++ lead))
    (hlead : lead <+: e.text safeName) (hlength : lead.length < (e.text safeName).length)
    (hno : ¬ placeholder safeName <:+: e.text safeName) :
    rewriteEntry safeName taskId reply (fileText safeName (es₁ ++ e :: es₂)) = none := by
  obtain ⟨rest, hfind⟩ := Text.first_iff.mp hfirst
  obtain ⟨tail, htail⟩ := hlead
  have hrest : "task:".toList ++ taskId ++ rest = tail ++ fileText safeName es₂ := by
    have hwhole := (Text.find?_eq_some_iff.mp hfind).1
    rw [fileText_append, fileText_cons, ← htail] at hwhole
    simp only [List.append_assoc] at hwhole ⊢
    exact (List.append_cancel_left (List.append_cancel_left hwhole)).symm
  obtain ⟨⟨lead', hheading⟩, tail', hseparator⟩ :=
    exists_lead_of_marker ("ask:".toList ++ taskId) htail.symm hlength hrest
  -- the last heading mark before the marker, and the first separator after it
  have hmark : Text.rfind? HEADING lead ≠ none := by
    rw [ne_eq, Text.rfind?_eq_none_iff, not_not, hheading]
    exact (List.prefix_append _ _).isInfix
  obtain ⟨⟨before, heading⟩, hrfind⟩ := Option.ne_none_iff_exists'.mp hmark
  have hsep : Text.find? SEPARATOR tail ≠ none := by
    rw [ne_eq, Text.find?_eq_none_iff, not_not, hseparator]
    exact (List.suffix_append _ _).isInfix
  obtain ⟨⟨inside, after⟩, hfindSep⟩ := Option.ne_none_iff_exists'.mp hsep
  have hblock : HEADING ++ heading ++ (inside ++ SEPARATOR) <:+: e.text safeName := by
    refine ⟨before, after, ?_⟩
    rw [← htail, Text.eq_of_rfind? hrfind, (Text.find?_eq_some_iff.mp hfindSep).1]
    simp
  unfold rewriteEntry
  dsimp only
  rw [hfind]
  dsimp only
  rw [Text.rfind?_append_left hrfind, hrest]
  dsimp only
  rw [Text.find?_append_right hfindSep]
  exact if_pos (Text.replaceOnce_of_not_infix fun h => hno (h.trans hblock))

end Search

/-! ### The update -/

/-- **An update edits its own entry**: the reply is in the place of the placeholder of an entry
that waits for it and all else is as it was, or no entry waits for it and nothing has changed. -/
def EditsOwnEntry (file : FileName) (es : List FiledEntry) (taskId reply : List Char)
    (files : ConversationFiles) (outcome : Except PyError (Bool × ConversationFiles)) : Prop :=
  (∃ es₁ e es₂, es = es₁ ++ e :: es₂ ∧ e.WaitsFor taskId ∧
    outcome = .ok (true, OrderedDict.set files file (String.ofList
      (fileText file.directory es₁ ++ e.withReply (replyMark file.directory ++ reply) ++
        fileText file.directory es₂)))) ∨
  ((∀ e ∈ es, ¬ e.WaitsFor taskId) ∧ outcome = .ok (false, files))

/-- The first marker of the file is the one in the heading of an entry that waits, the entry has
nothing else that looks like its placeholder or its end, and the file needs no reading. -/
def LeadsToWaiting (safeName : String) (es : List FiledEntry) (taskId reply : List Char) : Prop :=
  reply ≠ WAITING ∧ '\r' ∉ fileText safeName es ∧
    ∃ es₁ e es₂, es = es₁ ++ e :: es₂ ∧ e.WaitsFor taskId ∧ e.Quiet safeName ∧
      Text.First ("task:".toList ++ taskId) (fileText safeName es)
        (fileText safeName es₁ ++ e.lead)

/-- The first marker of the file, if there is one, is in an entry without a placeholder. -/
def LeadsToNone (safeName : String) (es : List FiledEntry) (taskId : List Char) : Prop :=
  ∀ upTo, Text.First ("task:".toList ++ taskId) (fileText safeName es) upTo →
    ∃ es₁ e es₂ lead, es = es₁ ++ e :: es₂ ∧ upTo = fileText safeName es₁ ++ lead ∧
      lead <+: e.text safeName ∧ lead.length < (e.text safeName).length ∧
      ¬ placeholder safeName <:+: e.text safeName

/-- **An update is unambiguous**: it is led to an entry that waits, if there is one, and to none
otherwise. -/
def Unambiguous (safeName : String) (es : List FiledEntry) (taskId reply : List Char) : Prop :=
  LeadsToWaiting safeName es taskId reply ∨
    (∀ e ∈ es, ¬ e.WaitsFor taskId) ∧
      (reply = WAITING ∨ LeadsToNone safeName (es.map fun e => e.read safeName) taskId)

section Update

variable {table : CharTable} {locale : Locale} {now : Moment} {name : String} {t : TaskId}
  {reply : String} {files : ConversationFiles} {es : List FiledEntry} {taskId : List Char}

/-- A reply that is the placeholder changes nothing. -/
theorem rewriteEntry_waiting (safeName : String) (content : List Char) :
    rewriteEntry safeName taskId WAITING content = none := by
  unfold rewriteEntry
  dsimp only
  split
  · rfl
  · split
    · rfl
    · rw [Text.replaceOnce_self, if_pos rfl]

/-- No reply is put in by an update that is led to no entry. -/
theorem rewriteEntry_of_leadsToNone {safeName : String} {reply : List Char}
    (h : LeadsToNone safeName es taskId) :
    rewriteEntry safeName taskId reply (fileText safeName es) = none := by
  cases hfind : Text.find? ("task:".toList ++ taskId) (fileText safeName es) with
  | none =>
      unfold rewriteEntry
      dsimp only
      rw [hfind]
  | some found =>
      have hfirst := Text.first_iff.mpr ⟨found.2, hfind⟩
      obtain ⟨es₁, e, es₂, lead, rfl, hupTo, hlead, hlength, hno⟩ := h found.1 hfirst
      rw [hupTo] at hfirst
      exact rewriteEntry_of_no_placeholder hfirst hlead hlength hno

/-- What an update does to a file that has the entries. -/
theorem updateExchange_of_holds
    (h : HoldsEntries (exchangeFile table now (locale.lower name)) es files) :
    updateExchange table locale now (.str name) t reply files =
      (rewriteEntry (safeName table (locale.lower name)) t.display.toList reply.toList
        (universalNewlines (fileText (safeName table (locale.lower name)) es))).elim
          (.ok (false, files)) fun updated => .ok (true, OrderedDict.set files
            (exchangeFile table now (locale.lower name)) (String.ofList updated)) := by
  have hstep : updateExchange table locale now (.str name) t reply files =
      (OrderedDict.get? files (exchangeFile table now (locale.lower name))).elim
        (.ok (false, files)) fun text =>
          (rewriteEntry (safeName table (locale.lower name)) t.display.toList reply.toList
            (universalNewlines text.toList)).elim (.ok (false, files)) fun updated =>
              .ok (true, OrderedDict.set files (exchangeFile table now (locale.lower name))
                (String.ofList updated)) := by
    have hlower : lowerName locale (.str name) = .ok (locale.lower name) := rfl
    unfold updateExchange
    rw [hlower]
    simp only [bind, Except.bind, exchangeFile]
    split
    · rename_i hmissing
      rw [hmissing]
      rfl
    · rename_i text htext
      rw [htext, Option.elim_some]
      split
      · rename_i hno
        rw [hno]
        rfl
      · rename_i updated hupdated
        rw [hupdated]
        rfl
  unfold HoldsEntries at h
  rw [hstep, h]
  by_cases hes : es = []
  · -- there is no marker in a file without entries
    subst hes
    rw [if_pos rfl]
    rfl
  · rw [if_neg hes, Option.elim_some, String.toList_ofList]
    rfl

/-- An unambiguous update edits its own entry. -/
theorem updateExchange_of_unambiguous
    (h : HoldsEntries (exchangeFile table now (locale.lower name)) es files)
    (hclear : Unambiguous (safeName table (locale.lower name)) es t.display.toList reply.toList) :
    EditsOwnEntry (exchangeFile table now (locale.lower name)) es t.display.toList reply.toList
      files (updateExchange table locale now (.str name) t reply files) := by
  rw [updateExchange_of_holds h]
  rcases hclear with ⟨hreply, hreturn, es₁, e, es₂, rfl, hwaits, hquiet, hfirst⟩ | ⟨hnone, hcase⟩
  · refine Or.inl ⟨es₁, e, es₂, rfl, hwaits, ?_⟩
    rw [universalNewlines_of_notMem hreturn, rewriteEntry_of_waiting
      (newline_notMem_safeName table _) (paren_notMem_safeName table _) hwaits hquiet hreply hfirst]
    rfl
  · refine Or.inr ⟨hnone, ?_⟩
    rw [universalNewlines_fileText (return_notMem_safeName table _)]
    rcases hcase with hreply | hleads
    · rw [hreply, rewriteEntry_waiting, Option.elim_none]
    · rw [rewriteEntry_of_leadsToNone hleads, Option.elim_none]

end Update

/-- A call that saves what was said to an agent about a task. -/
def ExchangeSave.sample (taskId : String) : ExchangeSave :=
  ⟨.sample, .str taskId, .str "", "hello", .null, .outbound, Moment.sample_formatted⟩

/-- The entry that it leaves. -/
def FiledEntry.sample (taskId : String) : FiledEntry :=
  ⟨"12:00:00".toList, taskId.toList, "\n\n**→ me:** hello\n\n".toList, true,
    Text.forall_mem_of_all (by decide)⟩

theorem safeName_sample : safeName Platform.sample.table (Locale.sample.lower "Bob") = "bob" := by
  decide +kernel

theorem entriesAfter_sample (taskId : String) :
    entriesAfter .sample (safeName Platform.sample.table (Locale.sample.lower "Bob"))
      [.sample taskId] = [.sample taskId] := by
  have hmiddle : (headingLabels .sample (.str "") (.str "")).toList ++
      (ExchangeSave.sample taskId).texts .sample "bob" = "\n\n**→ me:** hello\n\n".toList := by
    change (headingLabels .sample (.str "") (.str "")).toList ++
      ("\n\n**→ me:** " ++ "hello" ++ "\n\n").toList = _
    decide +kernel
  rw [entriesAfter_singleton, safeName_sample]
  change [FiledEntry.mk _ _ ((headingLabels .sample (.str "") (.str "")).toList ++
    (ExchangeSave.sample taskId).texts .sample "bob") _ _] = [FiledEntry.sample taskId]
  simp only [hmiddle]
  rfl

end HermesA2A
