import HermesA2A.Injection
import HermesA2A.Server.Plans

/-!
# The trigger

`pre_llm_call` announces a task to the agent as a trigger,
`[A2A trigger]<id>|<sender>|text`, and `pre_gateway_dispatch` reads the id back and
puts the task's stored text in.  The two do not agree on the delimiter: the id is
written in brackets, and read up to the first `|`, closing bracket included
(`decodedId?_eq_some`).

Both expressions of the reader consist of groups that end where their delimiter
comes for the first time, so a greedy match is the only one.
-/

namespace HermesA2A

open Machine

/-! ### Reading a trigger -/

/-- What both expressions start with. -/
def triggerPrefix : List Char := "[A2A trigger]<".toList

/-- A group `([^…]+)` and the delimiter after it, which is not in the class: the
group and what comes next. -/
def field? (stop : Char → Bool) (delimiter : Char) (text : List Char) :
    Option (List Char × List Char) :=
  match text.span (fun c => !stop c) with
  | (c :: group, d :: rest) => if d = delimiter then some (c :: group, rest) else none
  | _ => none

/-- `(.+)$`: one line, with at most a newline after it. -/
def lastLine (text : List Char) : Bool :=
  match text.span (· ≠ '\n') with
  | (_ :: _, rest) => decide (rest = [] ∨ rest = ['\n'])
  | _ => false

/-- `_A2A_TRIGGER_RE.match`, the group. -/
def triggerId? (text : List Char) : Option (List Char) := do
  let text ← text.dropPrefix? triggerPrefix
  let (id, _) ← field? (· = '|') '|' text
  return id

/-- `_A2A_TRIGGER_LEGACY_RE.match`, the first group. -/
def legacyTriggerId? (text : List Char) : Option (List Char) := do
  let text ← text.dropPrefix? triggerPrefix
  let (id, text) ← field? (fun c => c = '>' || c = ',') ',' text
  let (_, text) ← field? (· = ',') ',' text
  if lastLine text then return id
  none

/-- The task id a trigger is read as, by either expression. -/
def decodedId? (text : List Char) : Option String :=
  match triggerId? text with
  | some id => some (String.ofList id)
  | none => (legacyTriggerId? text).map String.ofList

/-- `f"[A2A trigger]<{task_id}>|<{sender}>|{text}"` -/
def triggerText (taskId sender text : String) : String :=
  "[A2A trigger]<" ++ taskId ++ ">|<" ++ sender ++ ">|" ++ text

/-- The task `pre_gateway_dispatch` finds for an event.  Its lookups are for texts,
which never raise. -/
def dispatchedTask? (eventText : String) (q : TaskQueue) : Option (String × PendingTask) := do
  let id ← decodedId? eventText.toList
  let task ← (q.pending.get? (.str id)).or (q.completed.get? (.str id))
  return (id, task)

/-- `pre_gateway_dispatch` -/
def preGatewayDispatch (eventText : String) (q : TaskQueue) : Except PyError String :=
  match dispatchedTask? eventText q with
  | none => return eventText
  | some (id, task) => do
      let sender ← task.metadata.get "sender_name" (.str "?")
      return triggerText id sender.display task.text

section Decode

variable {stop : Char → Bool} {delimiter : Char} {text group rest : List Char}

/-- A group is what stands before the first delimiter. -/
theorem field?_eq_some (h : field? stop delimiter text = some (group, rest)) :
    text = group ++ delimiter :: rest := by
  unfold field? at h
  rw [List.span_eq_takeWhile_dropWhile] at h
  split at h
  · rename_i c group' d rest' hspan
    split_ifs at h with hd
    obtain ⟨rfl, rfl⟩ := Prod.mk.inj (Option.some.inj h)
    obtain ⟨htake, hdrop⟩ := Prod.mk.inj hspan
    rw [← List.takeWhile_append_dropWhile (p := fun c => !stop c) (l := text), htake, hdrop, hd]
  · cases h

/-- **What a trigger is read as** stands at its start, with a `|` or a comma after
it. -/
theorem decodedId?_eq_some {id : String} (h : decodedId? text = some id) :
    ∃ delimiter rest, delimiter ≠ '>' ∧ text = triggerPrefix ++ id.toList ++ delimiter :: rest := by
  have hdrop : ∀ {rest : List Char}, text.dropPrefix? triggerPrefix = some rest →
      text = triggerPrefix ++ rest := by
    intro rest hrest
    obtain ⟨prefix', rfl, hbeq⟩ := List.dropPrefix?_eq_some_iff.mp hrest
    rw [eq_of_beq hbeq]
  unfold decodedId? at h
  split at h
  · rename_i group hgroup
    obtain rfl := Option.some.inj h
    obtain ⟨after, hafter, hgroup⟩ := Option.bind_eq_some_iff.mp hgroup
    obtain ⟨⟨group', rest⟩, hfield, hgroup⟩ := Option.bind_eq_some_iff.mp hgroup
    obtain rfl : group' = group := Option.some.inj hgroup
    refine ⟨'|', rest, by decide, ?_⟩
    rw [hdrop hafter, field?_eq_some hfield, String.toList_ofList, List.append_assoc]
  · obtain ⟨group, hgroup, rfl⟩ := Option.map_eq_some_iff.mp h
    obtain ⟨after, hafter, hgroup⟩ := Option.bind_eq_some_iff.mp hgroup
    obtain ⟨⟨group', rest⟩, hfield, hgroup⟩ := Option.bind_eq_some_iff.mp hgroup
    obtain ⟨⟨sender, rest'⟩, -, hgroup⟩ := Option.bind_eq_some_iff.mp hgroup
    change (if lastLine rest' = true then some group' else none) = some group at hgroup
    split_ifs at hgroup
    obtain rfl : group' = group := Option.some.inj hgroup
    refine ⟨',', rest, by decide, ?_⟩
    rw [hdrop hafter, field?_eq_some hfield, String.toList_ofList, List.append_assoc]

end Decode

/-! ### Reading what was written -/

theorem toList_triggerText (taskId sender text : String) :
    (triggerText taskId sender text).toList =
      triggerPrefix ++ taskId.toList ++ '>' :: ("|<".toList ++ sender.toList ++ ">|".toList ++
        text.toList) := by
  have hcut : ">|<".toList = '>' :: "|<".toList := rfl
  unfold triggerText triggerPrefix
  rw [String.toList_append, String.toList_append, String.toList_append, String.toList_append,
    String.toList_append, hcut]
  simp only [List.append_assoc, List.cons_append]

theorem triggerContext_eq (t : TaskId) (sender : Json) (text : String) :
    triggerContext t sender text =
      triggerText t.display sender.display text ++
        "\nUse the tools above to respond to this inbound A2A task." := rfl

/-- The id read from a trigger is not the one written. -/
theorem decodedId?_triggerContext {t : TaskId} {sender : Json} {text id : String}
    (h : decodedId? (triggerContext t sender text).toList = some id) : .str id ≠ t := by
  rintro rfl
  obtain ⟨delimiter, rest, hne, heq⟩ := decodedId?_eq_some h
  rw [triggerContext_eq, String.toList_append, toList_triggerText] at heq
  simp only [Json.display, List.append_assoc, List.cons_append, List.append_cancel_left_eq] at heq
  exact hne (List.cons.inj heq).1.symm

/-- A trigger is never read as the text it was made of: the task found, if any, is
announced under another id, and otherwise the template's last line stays. -/
theorem preGatewayDispatch_ne (t : TaskId) (sender : Json) (text : String) (q : TaskQueue) :
    preGatewayDispatch (triggerContext t sender text) q ≠
      .ok (triggerText t.display sender.display text) := by
  intro h
  unfold preGatewayDispatch at h
  split at h
  · rename_i hnone
    have heq := congrArg String.length (Except.ok.inj h)
    rw [triggerContext_eq, String.length_append] at heq
    have : 0 < "\nUse the tools above to respond to this inbound A2A task.".length := by decide
    omega
  · rename_i id task hfound
    obtain ⟨sender', -, h⟩ := exists_of_bind_ok h
    obtain ⟨id', hdecoded, hfound⟩ := Option.bind_eq_some_iff.mp hfound
    obtain ⟨task', -, hfound⟩ := Option.bind_eq_some_iff.mp hfound
    obtain ⟨rfl, rfl⟩ := Prod.mk.inj (Option.some.inj hfound)
    -- the id ends at another delimiter than the one written after it
    obtain ⟨delimiter, rest, hne, heq⟩ := decodedId?_eq_some hdecoded
    have htext := congrArg String.toList (Except.ok.inj h)
    rw [triggerContext_eq, String.toList_append, ← htext, toList_triggerText] at heq
    simp only [List.append_assoc, List.cons_append, List.append_cancel_left_eq] at heq
    exact hne (List.cons.inj heq).1.symm

/-- The task found for an event is filed under the id that was read. -/
theorem taskId_of_dispatched {q : TaskQueue} (hq : q.WF) {eventText id : String}
    {task : PendingTask} (h : dispatchedTask? eventText q = some (id, task)) :
    decodedId? eventText.toList = some id ∧ task.taskId = .str id := by
  obtain ⟨id', hdecoded, h⟩ := Option.bind_eq_some_iff.mp h
  obtain ⟨task', hfound, h⟩ := Option.bind_eq_some_iff.mp h
  obtain ⟨rfl, rfl⟩ := Prod.mk.inj (Option.some.inj h)
  refine ⟨hdecoded, ?_⟩
  rcases Option.or_eq_some_iff.mp hfound with hpending | ⟨-, hcompleted⟩
  · exact (hq.pending hpending).1
  · exact (hq.completed hcompleted).1

/-- **No trigger is read as the task it was written for.**  In every reachable state,
`pre_gateway_dispatch` neither finds the task whose trigger `pre_llm_call` has built,
nor returns the trigger with that task's id, sender and text. -/
theorem trigger_never_decoded {P : Platform} {t₀ : Time} {c : Config}
    (hc : (system P).Reaches (Allows anyStep) (World.init t₀) c) (task : PendingTask)
    (sender : Json) :
    (∀ id, dispatchedTask? (triggerContext task.taskId sender task.text) c.shared.queue ≠
        some (id, task)) ∧
      preGatewayDispatch (triggerContext task.taskId sender task.text) c.shared.queue ≠
        .ok (triggerText task.taskId.display sender.display task.text) := by
  refine ⟨fun id hfound => ?_, preGatewayDispatch_ne _ _ _ _⟩
  obtain ⟨hdecoded, hid⟩ := taskId_of_dispatched (reaches_base hc).wf hfound
  exact decodedId?_triggerContext hdecoded hid.symm

/-- It is so for a message that has just been announced. -/
theorem announced_never_decoded :
    ∃ c, (system Platform.sample).Reaches (Allows anyStep) (World.init 0) c ∧
      c.Ends 1 .preLlmCall hooksOutcome ∧ c.shared.queue.pending.get? (.str "a") = some hooksTask ∧
      ∀ id, dispatchedTask? (triggerContext (.str "a") (.str "agent-10.0.0.1") "hi")
        c.shared.queue ≠ some (id, hooksTask) := by
  have hplay : (playSample anyStep (List.replicate 4 (.act 0) ++ List.replicate 4 (.act 1))
      (Config.calling hooksCalls)).any (fun c =>
        decide (c.outcome? 1 = some hooksOutcome ∧
          c.shared.queue.pending.get? (.str "a") = some hooksTask)) = true := by
    decide +kernel
  obtain ⟨c, hc, hcalls, hp⟩ := exists_of_playCalls hplay
  obtain ⟨houtcome, hpending⟩ := of_decide_eq_true hp
  exact ⟨c, hc, (hcalls 1 _ rfl).ends houtcome, hpending,
    (trigger_never_decoded hc hooksTask (.str "agent-10.0.0.1")).1⟩

/-- A message is announced while it is pending, and `pre_gateway_dispatch` finds
nothing: it returns the text it was given. -/
theorem announced_not_found :
    ∃ c text, (system Platform.sample).Reaches (Allows anyStep) (World.init 0) c ∧
      c.Ends 1 .preLlmCall (.context (some text)) ∧
      c.shared.queue.pending.get? (.str "a") = some hooksTask ∧
      dispatchedTask? text c.shared.queue = none ∧
      preGatewayDispatch text c.shared.queue = .ok text := by
  have hplay : (playSample anyStep (List.replicate 4 (.act 0) ++ List.replicate 4 (.act 1))
      (Config.calling hooksCalls)).any (fun c =>
        decide (c.outcome? 1 = some hooksOutcome ∧
          c.shared.queue.pending.get? (.str "a") = some hooksTask ∧
          dispatchedTask? (triggerContext (.str "a") (.str "agent-10.0.0.1") "hi")
            c.shared.queue = none)) = true := by
    decide +kernel
  obtain ⟨c, hc, hcalls, hp⟩ := exists_of_playCalls hplay
  obtain ⟨houtcome, hpending, hnone⟩ := of_decide_eq_true hp
  refine ⟨c, _, hc, (hcalls 1 _ rfl).ends houtcome, hpending, hnone, ?_⟩
  rw [preGatewayDispatch, hnone]
  rfl

end HermesA2A
