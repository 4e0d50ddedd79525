import HermesA2A.Server.Handlers

/-!
# What a peer is shown

The texts a Task, an artifact or an event carries on the wire, and what it means that
they are filtered: `IsFiltered` is the output of `filter_outbound`, `Unmarked` says the
same without it (`isFiltered_iff`).

The builders filter what they are given, whatever it is (`clean_buildTaskObject`).  A
Task put together by hand shows what it is given (`taskTexts_plainTask`).
-/

namespace HermesA2A

/-- The text is an output of `filter_outbound`. -/
def IsFiltered (j : Json) : Prop := ∃ response, j = .str (filterOutbound response)

/-- No sensitive pattern matches, and no white space stands at either end. -/
structure Unmarked (text : String) : Prop where
  stripped : text.Stripped
  unmatched : ∀ p ∈ SENSITIVE_PATTERNS, p.search text.toList = false

/-- **The outputs of the filter are the texts it has nothing to do on.** -/
theorem isFiltered_iff (text : String) : IsFiltered (.str text) ↔ Unmarked text := by
  constructor
  · rintro ⟨response, heq⟩
    obtain rfl := Json.str.inj heq
    refine ⟨stripped_filterOutbound response, fun p hp => ?_⟩
    rw [Pattern.search_eq_false_iff (redactable_sensitive p hp).plain]
    rw [filterOutbound, String.toList_ofList]
    refine Regex.Free.of_infix ?_ (Text.strip_infix _)
    exact free_redactAll (redactable_sensitive p hp) redactable_sensitive (Or.inl hp)
  · intro h
    refine ⟨text, congrArg Json.str ?_⟩
    have hfree : ∀ p ∈ SENSITIVE_PATTERNS, p.regex.Free text.toList := fun p hp =>
      (Pattern.search_eq_false_iff (redactable_sensitive p hp).plain).mp (h.unmatched p hp)
    rw [filterOutbound, redactAll_eq_self redactable_sensitive hfree, Text.strip_eq_self h.stripped,
      String.ofList_toList]

theorem isFiltered_filterOutbound (response : String) :
    IsFiltered (.str (filterOutbound response)) := ⟨response, rfl⟩

/-! ### Texts -/

/-- The texts of the parts of a message or an artifact. -/
def messageTexts (j : Json) : List Json :=
  match j.field? "parts" with
  | some (.arr parts) => parts.filterMap (·.field? "text")
  | _ => []

/-- The texts of a status. -/
def statusTexts (j : Json) : List Json :=
  ((j.field? "status").bind (·.field? "message")).elim [] messageTexts

/-- The texts of a Task: those of its artifacts and that of its status. -/
def taskTexts (task : Json) : List Json :=
  (artifactsOf task).flatMap messageTexts ++ statusTexts task

/-- The Tasks in the body of a response: one or a page under `task`, in the JSON-RPC
`result` if there is one, or the body itself. -/
def tasksIn (body : Json) : List Json :=
  let inner := (body.field? "result").getD body
  match inner.field? "task" with
  | some (.arr tasks) => tasks
  | some task => [task]
  | none => [inner]

/-- The texts in the body of a response. -/
def bodyTexts (body : Json) : List Json := (tasksIn body).flatMap taskTexts

/-- The texts in an event: those of its artifact and of its status. -/
def eventTexts (payload : Json) : List Json :=
  (payload.field? "artifact").elim [] messageTexts ++ statusTexts payload

/-- The texts in a push notification. -/
def pushTexts (payload : Json) : List Json :=
  eventTexts ((payload.field? "artifact_update").getD payload)

/-- **What a step shows to a peer**: with a response, a message on a stream, or a push
notification. -/
def ServerOp.shown : ServerOp → List Json
  | send response => bodyTexts response.body
  | sendLine _ line => eventTexts line.payload
  | deliver _ payload _ => pushTexts payload
  | _ => []

/-! ### Clean Tasks and events -/

/-- All texts are filtered. -/
def AllFiltered (texts : List Json) : Prop := ∀ text ∈ texts, IsFiltered text

@[simp] theorem allFiltered_nil : AllFiltered [] := fun _ h => absurd h List.not_mem_nil

@[simp] theorem allFiltered_append {xs ys : List Json} :
    AllFiltered (xs ++ ys) ↔ AllFiltered xs ∧ AllFiltered ys := List.forall_mem_append

@[simp] theorem allFiltered_singleton {text : Json} : AllFiltered [text] ↔ IsFiltered text :=
  List.forall_mem_singleton

theorem allFiltered_flatMap {xs : List Json} {f : Json → List Json} :
    AllFiltered (xs.flatMap f) ↔ ∀ x ∈ xs, AllFiltered (f x) := by
  unfold AllFiltered
  constructor
  · exact fun h x hx text htext => h text (List.mem_flatMap.mpr ⟨x, hx, htext⟩)
  · rintro h text htext
    obtain ⟨x, hx, htext⟩ := List.mem_flatMap.mp htext
    exact h x hx text htext

/-- Every text of the Task is filtered. -/
def CleanTask (task : Json) : Prop := AllFiltered (taskTexts task)

/-- An event's artifact has filtered texts. -/
def CleanEvent (e : SseEvent) : Prop :=
  match e.kind with
  | .status => True
  | .artifact artifact _ => AllFiltered (messageTexts artifact)

theorem messageTexts_buildMessageObject (text : String) (role : ℤ) (messageId : Option String)
    (uuid : String) : messageTexts (buildMessageObject text role messageId uuid) =
      if text = "" then [] else [.str text] := by
  change List.filterMap _ (if text = "" then [] else [Json.obj [("text", Json.str text)]]) = _
  split_ifs <;> rfl

section Build

variable (taskId contextId : Json) (state : String) (response : Option String)
  (createdAt : Option Time) (stamp : Stamp)

/-- A built Task shows the filtered response twice, or nothing. -/
theorem taskTexts_buildTaskObject :
    taskTexts (buildTaskObject taskId state contextId response createdAt stamp) =
      (nonEmpty? ((nonEmpty? response).map filterOutbound)).elim [] fun text =>
        [.str text, .str text] := by
  unfold taskTexts statusTexts artifactsOf
  simp only [buildTaskObject, buildTaskStatus]
  cases htext : nonEmpty? ((nonEmpty? response).map filterOutbound) with
  | none => cases createdAt <;> rfl
  | some text =>
      have hne : text ≠ "" := by
        have := (Option.filter_eq_some_iff.mp htext).2
        simpa using this
      have hmessage : messageTexts (buildMessageObject text 2 none stamp.messageId) =
          [.str text] := by
        rw [messageTexts_buildMessageObject, if_neg hne]
      cases createdAt <;> exact congrArg (Json.str text :: ·) hmessage

/-- **A built Task is clean.** -/
theorem clean_buildTaskObject :
    CleanTask (buildTaskObject taskId state contextId response createdAt stamp) := by
  unfold CleanTask
  rw [taskTexts_buildTaskObject]
  cases htext : nonEmpty? ((nonEmpty? response).map filterOutbound) with
  | none => exact allFiltered_nil
  | some text =>
      obtain ⟨r, -, rfl⟩ := Option.map_eq_some_iff.mp (Option.filter_eq_some_iff.mp htext).1
      have hfiltered := isFiltered_filterOutbound r
      exact List.forall_mem_cons.mpr ⟨hfiltered, List.forall_mem_singleton.mpr hfiltered⟩

end Build

/-- A Task put together by hand shows its text. -/
theorem taskTexts_plainTask {header : List (String × Json)} {state : String} {text : Json}
    (hstatus : header.lookup "status" = none) (hartifacts : header.lookup "artifacts" = none) :
    taskTexts (plainTask header state text) = [text] := by
  unfold taskTexts statusTexts artifactsOf plainTask
  simp only [Json.field?_obj, List.lookup_append, hstatus, hartifacts]
  rfl

/-- The texts of a response with one Task. -/
theorem bodyTexts_task {body task : Json}
    (h : ((body.field? "result").getD body).field? "task" = some task)
    (hnot : ∀ tasks, task ≠ .arr tasks) : bodyTexts body = taskTexts task := by
  unfold bodyTexts tasksIn
  dsimp only
  rw [h]
  cases task with
  | arr tasks => exact absurd rfl (hnot tasks)
  | _ => exact List.append_nil _

end HermesA2A
