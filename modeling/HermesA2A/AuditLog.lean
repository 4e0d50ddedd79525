import HermesA2A.JsonBytes
import HermesA2A.Lib.RotatingLog
import HermesA2A.Lib.Sequential

/-!
# The audit log

`AuditLogger.log` appends one line of JSON, under a lock.  Before that a file of more than 10 MB
is renamed, and the file that has the new name is deleted.  The file system may refuse any of
these steps; what is raised in the rotation is dropped, and the line is appended all the same.
The line itself may be written in part, as on a disk that is full, and then the next line comes
right after that part.

* `AuditFiles.rotateIfNeeded`, `AuditFiles.log` — the two methods on the two files.
* `AuditFiles.Mirrors` — the files have the lines of a rotating log, or parts of them, whatever
  is refused.
* `audit_log_retained` — what is on file after any calls, and what is read of it.
-/

namespace HermesA2A

open RotatingLog

/-! ### The two files -/

/-- The bytes of a file. -/
abbrev FileBytes := List UInt8

/-- `log_path` and the file beside it, with the suffix `.jsonl.old`. -/
structure AuditFiles where
  logPath : Option FileBytes
  rotated : Option FileBytes

/-- `_AUDIT_MAX_SIZE` -/
def AUDIT_MAX_SIZE : ℕ := 10 * 1024 * 1024

/-- What the file system refuses in a call. -/
structure AuditFaults where
  stat : Bool
  unlink : Bool
  rename : Bool
  openFile : Bool
  /-- The number of bytes after which writing is refused, if it is. -/
  write : Option ℕ

/-- The bytes of an entry: `json.dumps(entry, ensure_ascii=False)` -/
def entryBytes (entry : Json) : FileBytes := entry.dumpsUtf8.toUTF8.data.toList

/-- `"\n"` -/
def NEWLINE : UInt8 := 10

namespace AuditFiles

/-- There are no files yet. -/
def absent : AuditFiles := ⟨none, none⟩

/-- `_rotate_if_needed` -/
def rotateIfNeeded (faults : AuditFaults) (files : AuditFiles) : AuditFiles :=
  match files.logPath with
  | none => files
  | some bytes =>
      if faults.stat then files
      else if bytes.length > AUDIT_MAX_SIZE then
        if faults.unlink then files
        else if faults.rename then { files with rotated := none }
        else ⟨none, some bytes⟩
      else files

/-- The line of an entry. -/
def line (entry : Json) : FileBytes := entryBytes entry ++ [NEWLINE]

/-- `log`, from the lock on.  Opening a file to append to it makes it, if it is not there. -/
def log (faults : AuditFaults) (entry : Json) (files : AuditFiles) : AuditFiles :=
  let files := files.rotateIfNeeded faults
  if faults.openFile then files
  else
    let added :=
      match faults.write with
      | none => line entry
      | some count => (line entry).take count
    { files with logPath := some (files.logPath.getD [] ++ added) }

end AuditFiles

/-- `{"ts": …, "event": event_type, **data}` -/
def auditEntry (ts eventType : String) (data : List (String × Json)) : Json :=
  .obj (data.foldl (fun fields e => Json.setField e.1 e.2 fields)
    [("ts", .str ts), ("event", .str eventType)])

/-- A call of `log`, with the time and what is refused in it. -/
structure AuditCall where
  ts : String
  eventType : String
  data : List (String × Json)
  faults : AuditFaults

/-- The entry of a call. -/
def AuditCall.entry (c : AuditCall) : Json := auditEntry c.ts c.eventType c.data

/-- What a call has written of its line, if it has opened the file. -/
def AuditCall.piece? (c : AuditCall) : Option (Piece Json) :=
  if c.faults.openFile then none
  else some ⟨c.entry, c.faults.write.getD (AuditFiles.line c.entry).length⟩

/-- The files after some calls. -/
def auditAfter (calls : List AuditCall) : AuditFiles :=
  Sequential.run (fun c files => AuditFiles.log c.faults c.entry files) calls AuditFiles.absent

/-- What is read of a file, line by line. -/
def readLog (F : FloatReader) (file : Option FileBytes) : List (Option Json) :=
  (split NEWLINE [] (file.getD [])).map fun bytes => parseBody F ⟨bytes.toArray⟩

/-! ### Entries -/

section Entries

variable {F : FloatReader}

theorem wellFormedFields_setField {key : String} {v : Json} {fields : List (String × Json)}
    (hv : v.WellFormed F) (h : Json.WellFormedFields F fields) :
    Json.WellFormedFields F (Json.setField key v fields) := by
  induction fields with
  | nil => exact ⟨hv, trivial⟩
  | cons e fields ih =>
      obtain ⟨k, w⟩ := e
      rw [Json.setField]
      split_ifs
      · exact ⟨hv, h.2⟩
      · exact ⟨h.1, ih h.2⟩

theorem nodup_keys_setField {key : String} {v : Json} {fields : List (String × Json)}
    (h : (fields.map Prod.fst).Nodup) : ((Json.setField key v fields).map Prod.fst).Nodup := by
  by_cases hkey : key ∈ fields.map Prod.fst
  · have hkeys : (Json.setField key v fields).map Prod.fst = fields.map Prod.fst := by
      clear h
      induction fields with
      | nil => exact absurd hkey List.not_mem_nil
      | cons e fields ih =>
          rw [Json.setField]
          split_ifs with heq
          · rw [List.map_cons, List.map_cons, heq]
          · have hrest := (List.mem_cons.mp hkey).resolve_left fun h => heq h.symm
            rw [List.map_cons, List.map_cons, ih hrest]
    rw [hkeys]
    exact h
  · rw [Json.setField_of_notMem hkey, List.map_append, List.nodup_append]
    refine ⟨h, List.nodup_singleton key, fun k hk k' hk' => ?_⟩
    obtain rfl := List.mem_singleton.mp hk'
    exact fun heq => hkey (heq ▸ hk)

/-- An entry is a value, if its data are. -/
theorem auditEntry_wellFormed {data : List (String × Json)} (h : Json.WellFormedFields F data)
    (ts eventType : String) : (auditEntry ts eventType data).WellFormed F := by
  have hfold : ∀ fields : List (String × Json), (fields.map Prod.fst).Nodup →
      Json.WellFormedFields F fields →
        (Json.obj (data.foldl (fun fields e => Json.setField e.1 e.2 fields) fields)).WellFormed F := by
    induction data with
    | nil => exact fun fields hnodup hfields => ⟨hnodup, hfields⟩
    | cons e data ih =>
        exact fun fields hnodup hfields => ih h.2 _ (nodup_keys_setField hnodup)
          (wellFormedFields_setField h.1 hfields)
  have hkeys : ["ts", "event"].Nodup := by decide
  exact hfold _ hkeys ⟨trivial, trivial, trivial⟩

/-- What is on a line that holds an entry. -/
theorem parseBody_entryBytes {entry : Json} (h : entry.WellFormed F) :
    parseBody F ⟨(entryBytes entry).toArray⟩ = some entry := by
  have hbytes : (⟨(entryBytes entry).toArray⟩ : ByteArray) = entry.dumpsUtf8.toUTF8 := by
    unfold entryBytes
    rw [Array.toArray_toList]
  rw [hbytes, Json.parseBody_dumpsUtf8 h]

/-- No entry has a line break in it. -/
theorem newline_notMem_entryBytes {entry : Json} (h : entry.WellFormed F) :
    NEWLINE ∉ entryBytes entry := by
  intro hmem
  rw [entryBytes, Json.dumpsUtf8, Json.toList_data_toUTF8] at hmem
  obtain ⟨c, hc, hbyte⟩ := List.mem_flatMap.mp hmem
  exact absurd (Json.le_of_mem_utf8EncodeChar (Json.printable_write h c hc) hbyte) (by decide)

/-- **A file holds pieces of lines**: entries that were written whole, and not right after a part
of another, are read as they were written; and if every one was written whole, nothing else is
read. -/
structure Holds (F : FloatReader) (file : Option FileBytes) (pieces : List (Piece Json)) : Prop where
  bytes : file.getD [] = pieces.flatMap (Piece.written NEWLINE entryBytes)
  found : ((intact NEWLINE entryBytes true pieces).map some).Sublist (readLog F file)
  whole : (∀ p ∈ pieces, p.whole entryBytes) → readLog F file = pieces.map fun p => some p.entry

theorem holds_of_bytes {file : Option FileBytes} {pieces : List (Piece Json)}
    (hformed : ∀ p ∈ pieces, p.entry.WellFormed F)
    (hbytes : file.getD [] = pieces.flatMap (Piece.written NEWLINE entryBytes)) :
    Holds F file pieces := by
  have hfree : ∀ p ∈ pieces, NEWLINE ∉ entryBytes p.entry := fun p hp =>
    newline_notMem_entryBytes (hformed p hp)
  refine ⟨hbytes, ?_, fun hwhole => ?_⟩
  · have hparsed : ∀ e ∈ intact NEWLINE entryBytes true pieces,
        parseBody F ⟨(entryBytes e).toArray⟩ = some e := by
      intro e he
      obtain ⟨p, hp, rfl⟩ := List.mem_map.mp ((intact_sublist_entries NEWLINE entryBytes true pieces).subset he)
      exact parseBody_entryBytes (hformed p hp)
    rw [readLog, hbytes, ← List.map_congr_left hparsed]
    have hfound := (intact_sublist hfree []).map fun bytes => parseBody F ⟨bytes.toArray⟩
    rwa [List.map_map] at hfound
  · rw [readLog, hbytes, split_of_whole hfree hwhole, List.map_map]
    exact List.map_congr_left fun p hp => parseBody_entryBytes (hformed p hp)

end Entries

/-! ### The files as a log -/

/-- The bytes that were written of a line. -/
def pieceBytes (p : Piece Json) : FileBytes := p.written NEWLINE entryBytes

/-- The number of bytes. -/
def pieceSize (p : Piece Json) : ℕ := (pieceBytes p).length

theorem length_flatMap_pieceBytes (pieces : List (Piece Json)) :
    (pieces.flatMap pieceBytes).length = total pieceSize pieces := by
  induction pieces with
  | nil => rfl
  | cons p pieces ih => rw [List.flatMap_cons, List.length_append, ih, total_cons, pieceSize]

/-- **The files have the lines of a log**, or parts of them.  A file that is not there has
none. -/
structure AuditFiles.Mirrors (files : AuditFiles) (l : Log (Piece Json)) : Prop where
  old : files.rotated.getD [] = l.old.flatMap pieceBytes
  current : files.logPath.getD [] = l.current.flatMap pieceBytes

section Calls

variable {files : AuditFiles} {l : Log (Piece Json)} {faults : AuditFaults}

/-- The rotation is not refused. -/
def AuditFaults.rotates (faults : AuditFaults) : Prop :=
  faults.stat = false ∧ faults.unlink = false ∧ faults.rename = false

/-- **A rotation** leaves the files as they are, gives up the old one, or puts the current one
in its place; and if it is not refused, the current file is within the limit. -/
theorem AuditFiles.Mirrors.rotate_cases (h : files.Mirrors l) :
    ((files.rotateIfNeeded faults).Mirrors l ∧
        (faults.rotates → total pieceSize l.current ≤ AUDIT_MAX_SIZE)) ∨
      AUDIT_MAX_SIZE < total pieceSize l.current ∧
        ((files.rotateIfNeeded faults).Mirrors l.discard ∧ ¬faults.rotates ∨
          (files.rotateIfNeeded faults).Mirrors l.rotate) := by
  have hsize : (files.logPath.getD []).length = total pieceSize l.current := by
    rw [h.current, length_flatMap_pieceBytes]
  unfold AuditFiles.rotateIfNeeded
  cases hpath : files.logPath with
  | none =>
      rw [hpath] at hsize
      exact Or.inl ⟨h, fun _ => hsize ▸ Nat.zero_le _⟩
  | some bytes =>
      rw [hpath] at hsize
      change bytes.length = _ at hsize
      dsimp only
      split_ifs with hstat hlarge hunlink hrename
      · refine Or.inl ⟨h, fun hrotates => ?_⟩
        rw [hrotates.1] at hstat
        cases hstat
      · refine Or.inl ⟨h, fun hrotates => ?_⟩
        rw [hrotates.2.1] at hunlink
        cases hunlink
      · have hdiscard : (⟨files.logPath, none⟩ : AuditFiles).Mirrors l.discard := ⟨rfl, h.current⟩
        rw [hpath] at hdiscard
        refine Or.inr ⟨hsize ▸ hlarge, Or.inl ⟨hdiscard, fun hrotates => ?_⟩⟩
        rw [hrotates.2.2] at hrename
        cases hrename
      · have hbytes : bytes = l.current.flatMap pieceBytes := by
          rw [← h.current, hpath]
          rfl
        exact Or.inr ⟨hsize ▸ hlarge, Or.inr ⟨hbytes, rfl⟩⟩
      · exact Or.inl ⟨h, fun _ => hsize ▸ Nat.le_of_not_lt hlarge⟩

/-- A piece of a line is appended, if the file is opened. -/
theorem AuditFiles.Mirrors.write {c : AuditCall}
    (h : (files.rotateIfNeeded c.faults).Mirrors l) :
    (files.log c.faults c.entry).Mirrors
      (match c.piece? with
        | none => l
        | some p => l.append p) := by
  unfold AuditFiles.log AuditCall.piece?
  dsimp only
  split_ifs with hopen
  · exact h
  · refine ⟨h.old, ?_⟩
    change _ ++ _ = (l.current ++ [_]).flatMap pieceBytes
    rw [h.current, List.flatMap_append, List.flatMap_singleton]
    congr 1
    cases c.faults.write with
    | none => exact (List.take_length ..).symm
    | some count => rfl

/-- No piece is larger than its line. -/
theorem pieceSize_le_of_piece? {c : AuditCall} {p : Piece Json} (h : c.piece? = some p) :
    pieceSize p ≤ (AuditFiles.line c.entry).length := by
  unfold AuditCall.piece? at h
  split_ifs at h
  obtain rfl := Option.some.inj h
  exact List.length_take_le' ..

/-- **A call** takes the files from one log to another, which keeps the end of the history. -/
theorem AuditFiles.Mirrors.log (h : files.Mirrors l) (c : AuditCall) :
    ∃ l', (files.log c.faults c.entry).Mirrors l' ∧
      (∀ history, l.Retains pieceSize AUDIT_MAX_SIZE history →
        l'.Retains pieceSize AUDIT_MAX_SIZE (history ++ c.piece?.toList)) ∧
      ∀ longest, c.faults.rotates → (AuditFiles.line c.entry).length ≤ longest →
        l.Bounded pieceSize AUDIT_MAX_SIZE longest →
          l'.Bounded pieceSize AUDIT_MAX_SIZE longest := by
  obtain ⟨l₁, hmirrors, hretains, hbounded⟩ : ∃ l₁, (files.rotateIfNeeded c.faults).Mirrors l₁ ∧
      (∀ history, l.Retains pieceSize AUDIT_MAX_SIZE history →
        l₁.Retains pieceSize AUDIT_MAX_SIZE history) ∧
      ∀ longest, c.faults.rotates → l.Bounded pieceSize AUDIT_MAX_SIZE longest →
        l₁.Bounded pieceSize AUDIT_MAX_SIZE longest ∧
          total pieceSize l₁.current ≤ AUDIT_MAX_SIZE := by
    rcases h.rotate_cases with ⟨hsame, hsmall⟩ | ⟨hlarge, ⟨hdiscard, hrefused⟩ | hrotate⟩
    · exact ⟨l, hsame, fun _ h => h, fun _ hrotates h => ⟨h, hsmall hrotates⟩⟩
    · exact ⟨l.discard, hdiscard, fun _ h => h.discard hlarge,
        fun _ hrotates => absurd hrotates hrefused⟩
    · exact ⟨l.rotate, hrotate, fun _ h => h.rotate hlarge,
        fun _ _ h => ⟨h.rotate, Nat.zero_le _⟩⟩
  refine ⟨_, hmirrors.write, fun history h => ?_, fun longest hrotates hline h => ?_⟩
  · cases hpiece : c.piece? with
    | none =>
        rw [Option.toList_none, List.append_nil]
        exact hretains history h
    | some p => exact (hretains history h).append _
  · obtain ⟨hb, hle⟩ := hbounded longest hrotates h
    cases hpiece : c.piece? with
    | none => exact hb
    | some p => exact hb.append hle ((pieceSize_le_of_piece? hpiece).trans hline)

end Calls

/-! ### Any calls -/

/-- What some calls have written. -/
def recorded (calls : List AuditCall) : List (Piece Json) := calls.filterMap AuditCall.piece?

theorem exists_log (calls : List AuditCall) :
    ∃ l, (auditAfter calls).Mirrors l ∧ l.Retains pieceSize AUDIT_MAX_SIZE (recorded calls) ∧
      ∀ longest, (∀ c ∈ calls, c.faults.rotates ∧ (AuditFiles.line c.entry).length ≤ longest) →
        l.Bounded pieceSize AUDIT_MAX_SIZE longest := by
  induction calls using List.reverseRecOn with
  | nil => exact ⟨.empty, ⟨rfl, rfl⟩, Log.retains_empty, fun _ _ => Log.bounded_empty⟩
  | append_singleton calls c ih =>
      obtain ⟨l, hmirrors, hretains, hbounded⟩ := ih
      obtain ⟨l', hmirrors', hretains', hbounded'⟩ := hmirrors.log c
      refine ⟨l', ?_, ?_, fun longest h => ?_⟩
      · unfold auditAfter
        rw [Sequential.run_append]
        exact hmirrors'
      · have happend : recorded (calls ++ [c]) = recorded calls ++ c.piece?.toList := by
          unfold recorded
          rw [List.filterMap_append]
          cases hpiece : c.piece? <;> simp [hpiece]
        rw [happend]
        exact hretains' _ hretains
      · have hc := h c (List.mem_append_right _ List.mem_cons_self)
        exact hbounded' longest hc.1 hc.2
          (hbounded longest fun c' hc' => h c' (List.mem_append_left _ hc'))

/-- **What is on file** after any calls, whatever the file system has refused: the two files are
the end of what was written, and what is read of them are the entries, but for those that were
written in part and those that came right after one (`Holds`).  If anything was lost, more than
10 MB are still there; and if no rotation was refused, no file is larger than that and one
line. -/
theorem audit_log_retained (F : FloatReader) (calls : List AuditCall)
    (h : ∀ c ∈ calls, Json.WellFormedFields F c.data) :
    ∃ lost old current, recorded calls = lost ++ (old ++ current) ∧
      Holds F (auditAfter calls).rotated old ∧ Holds F (auditAfter calls).logPath current ∧
      (lost ≠ [] → AUDIT_MAX_SIZE < ((auditAfter calls).rotated.getD []).length ∨
        AUDIT_MAX_SIZE < ((auditAfter calls).logPath.getD []).length) ∧
      ∀ longest, (∀ c ∈ calls, c.faults.rotates ∧ (AuditFiles.line c.entry).length ≤ longest) →
        ((auditAfter calls).rotated.getD []).length ≤ AUDIT_MAX_SIZE + longest ∧
        ((auditAfter calls).logPath.getD []).length ≤ AUDIT_MAX_SIZE + longest := by
  obtain ⟨l, hmirrors, ⟨lost, hhistory, hlost⟩, hbounded⟩ := exists_log calls
  have hformed : ∀ p ∈ l.entries, p.entry.WellFormed F := by
    intro p hp
    have hmem : p ∈ recorded calls := by
      rw [hhistory]
      exact List.mem_append_right _ hp
    obtain ⟨c, hc, hpiece⟩ := List.mem_filterMap.mp hmem
    unfold AuditCall.piece? at hpiece
    split_ifs at hpiece
    obtain rfl := Option.some.inj hpiece
    exact auditEntry_wellFormed (h c hc) _ _
  refine ⟨lost, l.old, l.current, hhistory,
    holds_of_bytes (fun p hp => hformed p (List.mem_append_left _ hp)) hmirrors.old,
    holds_of_bytes (fun p hp => hformed p (List.mem_append_right _ hp)) hmirrors.current,
    ?_, fun longest hcalls => ?_⟩
  · rw [hmirrors.old, hmirrors.current, length_flatMap_pieceBytes, length_flatMap_pieceBytes]
    exact hlost
  · rw [hmirrors.old, hmirrors.current, length_flatMap_pieceBytes, length_flatMap_pieceBytes]
    exact ⟨(hbounded longest hcalls).old, (hbounded longest hcalls).current⟩

/-- A request, one that is limited, with nothing left on the disk after nine bytes, and another
one when there is room again. -/
def limitedCalls : List AuditCall :=
  [ ⟨"2026-01-01T00:00:00+00:00", "rpc_request",
      [("method", .str "tasks/get"), ("client", .str "10.0.0.1")],
      ⟨false, false, false, false, none⟩⟩,
    ⟨"2026-01-01T00:00:01+00:00", "rate_limited", [("client", .str "10.0.0.1")],
      ⟨false, false, false, false, some 9⟩⟩,
    ⟨"2026-01-01T00:00:02+00:00", "rpc_request",
      [("method", .str "tasks/get"), ("client", .str "10.0.0.1")],
      ⟨false, false, false, false, none⟩⟩ ]

theorem limitedCalls_retained :
    ∃ lost old current, recorded limitedCalls = lost ++ (old ++ current) ∧
      Holds String.ofList (auditAfter limitedCalls).rotated old ∧
        Holds String.ofList (auditAfter limitedCalls).logPath current := by
  have hcalls : ∀ c ∈ limitedCalls, Json.WellFormedFields String.ofList c.data := by
    intro c hc
    unfold limitedCalls at hc
    simp only [List.mem_cons, List.not_mem_nil, or_false] at hc
    rcases hc with rfl | rfl | rfl
    · exact ⟨trivial, trivial, trivial⟩
    · exact ⟨trivial, trivial⟩
    · exact ⟨trivial, trivial, trivial⟩
  obtain ⟨lost, old, current, heq, hold, hcurrent, -⟩ :=
    audit_log_retained String.ofList limitedCalls hcalls
  exact ⟨lost, old, current, heq, hold, hcurrent⟩

end HermesA2A
