import HermesA2A.HostilePeers

/-!
# One snapshot of a remote task

`handle_send_protocol_task` polls for a task that its first reply leaves open, and returns a
state and a response.  The two come from one reply, the last one with a known state, and the
polls end with the first reply of a terminal state (`pollLoop_eq`, `asked_stops`).

When all polls fail, an error is to be returned.  The tool counts the polls that raised, and a
poll that brings a JSON-RPC error raises nothing: with one such poll among those that failed, the
first reply is reported as if nothing had gone wrong (`sendRemoteTask_oneSnapshot_iff`).
-/

namespace HermesA2A

/-- What comes of a poll. -/
inductive Poll
  | raised
  | rpcError
  | replied (result state : Json)

/-- What comes of a poll, by its answer. -/
def HttpOutcome.poll (locale : Locale) (remoteTaskId : Json) : HttpOutcome → Poll
  | .body pollResult =>
      match pollOnce locale remoteTaskId pollResult with
      | .ok none => .rpcError
      | .ok (some (pollInner, pollState)) => .replied pollInner pollState
      | .error _ => .raised
  | _ => .raised

namespace Poll

/-- A reply with a terminal state. -/
def terminal (locale : Locale) : Poll → Bool
  | replied _ state => isTerminalState locale state
  | _ => false

/-- A reply with a known state, and the state. -/
def known? : Poll → Option (Json × Json)
  | replied result state =>
      if state.truthy ∧ state ≠ .str "unknown" then some (result, state) else none
  | _ => none

/-- No reply. -/
def failed : Poll → Bool
  | replied _ _ => false
  | _ => true

def isRaised : Poll → Bool
  | raised => true
  | _ => false

end Poll

/-- The variables of the loop after a poll. -/
def PollState.after (s : PollState) : Poll → PollState
  | .raised => { s with pollErrors := s.pollErrors + 1 }
  | .rpcError => s
  | .replied result state =>
      if state.truthy ∧ state ≠ .str "unknown" then
        { s with rpcResult := result, taskState := state }
      else s

/-- The answers that `pollLoop` asks for. -/
def askedAnswers (locale : Locale) (remoteTaskId : Json) :
    List HttpOutcome → PollState → List HttpOutcome
  | [], _ => []
  | answer :: answers, s =>
      let (s, left) := s.round locale remoteTaskId answer
      answer :: if left then [] else askedAnswers locale remoteTaskId answers s

/-! ### The loop -/

section Loop

variable (locale : Locale) (remoteTaskId : Json)

theorem PollState.round_eq (s : PollState) (answer : HttpOutcome) :
    s.round locale remoteTaskId answer =
      (s.after (answer.poll locale remoteTaskId),
        (answer.poll locale remoteTaskId).terminal locale) := by
  cases answer with
  | body pollResult =>
      simp only [PollState.round, HttpOutcome.poll]
      cases pollOnce locale remoteTaskId pollResult with
      | error e => rfl
      | ok read =>
          cases read with
          | none => rfl
          | some reply => rfl
  | _ => rfl

/-- What `pollLoop` asks for and what it makes of it. -/
theorem pollLoop_eq (answers : List HttpOutcome) (s : PollState) :
    pollLoop locale remoteTaskId answers s =
      ((askedAnswers locale remoteTaskId answers s).map
        (HttpOutcome.poll locale remoteTaskId)).foldl PollState.after s := by
  induction answers generalizing s with
  | nil => rfl
  | cons answer answers ih =>
      simp only [pollLoop, askedAnswers, PollState.round_eq, List.map_cons, List.foldl_cons]
      split_ifs
      · rfl
      · exact ih _

/-- The polls are asked for in their order, none is left out. -/
theorem asked_initial (answers : List HttpOutcome) (s : PollState) :
    askedAnswers locale remoteTaskId answers s <+: answers := by
  induction answers generalizing s with
  | nil => exact List.prefix_rfl
  | cons answer answers ih =>
      simp only [askedAnswers, PollState.round_eq, List.cons_prefix_cons, true_and]
      split_ifs
      · exact List.nil_prefix
      · exact ih _

/-- **The loop stops at the first terminal state**: there is one at the end, or nowhere. -/
theorem asked_stops (answers : List HttpOutcome) (s : PollState) {before after : List HttpOutcome}
    {answer : HttpOutcome} (h : askedAnswers locale remoteTaskId answers s =
      before ++ answer :: after) :
    (answer.poll locale remoteTaskId).terminal locale = true → after = [] := by
  intro hterminal
  induction answers generalizing s before with
  | nil => simp [askedAnswers] at h
  | cons first answers ih =>
      simp only [askedAnswers, PollState.round_eq] at h
      cases before with
      | nil =>
          obtain ⟨rfl, hrest⟩ := List.cons.inj h
          rw [if_pos hterminal] at hrest
          exact hrest.symm
      | cons b before =>
          obtain ⟨-, hrest⟩ := List.cons.inj h
          split_ifs at hrest with hstop
          · simp at hrest
          · exact ih _ hrest

/-- And it does not stop before. -/
theorem asked_runs_on (answers : List HttpOutcome) (s : PollState) :
    askedAnswers locale remoteTaskId answers s = answers ∨
      ∃ answer ∈ askedAnswers locale remoteTaskId answers s,
        (answer.poll locale remoteTaskId).terminal locale = true := by
  induction answers generalizing s with
  | nil => exact Or.inl rfl
  | cons answer answers ih =>
      simp only [askedAnswers, PollState.round_eq]
      split_ifs with hstop
      · exact Or.inr ⟨answer, List.mem_cons_self, hstop⟩
      · rcases ih (s.after (answer.poll locale remoteTaskId)) with hall | ⟨last, hmem, hlast⟩
        · exact Or.inl (by rw [hall])
        · exact Or.inr ⟨last, List.mem_cons_of_mem answer hmem, hlast⟩

theorem PollState.after_pollErrors (s : PollState) (p : Poll) :
    (s.after p).pollErrors = s.pollErrors + if p.isRaised then 1 else 0 := by
  cases p with
  | raised => rfl
  | rpcError => rfl
  | replied result state =>
      unfold PollState.after
      dsimp only
      split_ifs with hknown hraised
      · cases hraised
      · rfl
      · rename_i hraised
        cases hraised
      · rfl

/-- The polls that raised are counted. -/
theorem foldl_after_pollErrors (polls : List Poll) (s : PollState) :
    (polls.foldl PollState.after s).pollErrors = s.pollErrors + polls.countP Poll.isRaised := by
  induction polls generalizing s with
  | nil => rfl
  | cons p polls ih =>
      rw [List.foldl_cons, ih, List.countP_cons, PollState.after_pollErrors]
      omega

/-- **Result and state are those of the last reply with a known state.** -/
theorem foldl_after_snapshot (polls : List Poll) (s : PollState) :
    ((polls.foldl PollState.after s).rpcResult, (polls.foldl PollState.after s).taskState) =
      ((polls.filterMap Poll.known?).getLast?).getD (s.rpcResult, s.taskState) := by
  induction polls generalizing s with
  | nil => rfl
  | cons p polls ih =>
      rw [List.foldl_cons, ih]
      cases p with
      | raised => rfl
      | rpcError => rfl
      | replied result state =>
          unfold PollState.after
          rw [List.filterMap_cons]
          simp only [Poll.known?]
          split_ifs
          · simp only [List.getLast?_cons]
            rfl
          · rfl

end Loop

/-! ### The tool -/

/-- Is a task that was read polled for? -/
def TaskResult.polledFor (parsed : TaskResult) (pollAttempts : ℤ) : Bool :=
  (parsed.state = .str "working" ∨ parsed.state = .str "submitted") ∧ parsed.taskId.truthy ∧
    pollAttempts > 0

/-- The polls of the tool, once the first reply was read. -/
def pollsOf (locale : Locale) (pollAttempts : ℤ) (polls : ℕ → HttpOutcome) (parsed : TaskResult) :
    List Poll :=
  if parsed.polledFor pollAttempts then
    (askedAnswers locale parsed.taskId ((List.range pollAttempts.toNat).map polls)
      ⟨parsed.rawResult, parsed.state, 0⟩).map (HttpOutcome.poll locale parsed.taskId)
  else []

/-- An error is returned. -/
def ReturnsError (out : Except PyError Json) : Prop :=
  ∃ msg, out = .ok (.obj [("error", .str msg)])

/-- A state, a response and a result are returned, all of this one reply. -/
def ReportsReply (taskId : String) (out : Except PyError Json) (result state : Json) : Prop :=
  ∃ fields reply, out = .ok (.obj fields) ∧ fields.lookup "error" = none ∧
    parseTaskResult result (.str taskId) = .ok reply ∧ reply.state = state ∧
    fields.lookup "state" = some state ∧
    fields.lookup "response" =
      some (.str (if reply.response = "" then "(no text response)" else reply.response)) ∧
    fields.lookup "raw_result" = some result

/-- **One snapshot**: the polls are no more than allowed and end with the first terminal state;
if all of them failed and the task had not ended, an error is returned, and otherwise the last
reply with a known state, the first reply if there is none. -/
structure OneSnapshot (locale : Locale) (taskId : String) (pollAttempts : ℤ) (parsed : TaskResult)
    (made : List Poll) (out : Except PyError Json) : Prop where
  at_most : (made.length : ℤ) ≤ max pollAttempts 0
  stops : ∀ before p after, made = before ++ p :: after → p.terminal locale = true → after = []
  runs_on : parsed.polledFor pollAttempts = true →
    (made.length : ℤ) = pollAttempts ∨ ∃ p ∈ made, p.terminal locale = true
  all_failed : made ≠ [] → (∀ p ∈ made, p.failed = true) →
    isTerminalState locale parsed.state = false → ReturnsError out
  snapshot : (made = [] ∨ (∃ p ∈ made, p.failed = false) ∨
      isTerminalState locale parsed.state = true) →
    ReportsReply taskId out
      (((made.filterMap Poll.known?).getLast?).getD (parsed.rawResult, parsed.state)).1
      (((made.filterMap Poll.known?).getLast?).getD (parsed.rawResult, parsed.state)).2

/-- A failure that is not reported: all polls failed, one at least by a JSON-RPC error, of a
task that had not ended. -/
def MasksFailure (locale : Locale) (pollAttempts : ℤ) (polls : ℕ → HttpOutcome)
    (parsed : TaskResult) : Prop :=
  parsed.polledFor pollAttempts = true ∧ isTerminalState locale parsed.state = false ∧
    (∀ i < pollAttempts.toNat, ((polls i).poll locale parsed.taskId).failed = true) ∧
    ∃ i < pollAttempts.toNat, (polls i).poll locale parsed.taskId = .rpcError

section Tool

variable {locale : Locale} {targetUrl taskId : String} {timeout pollAttempts : ℤ}
  {first : HttpOutcome} {polls : ℕ → HttpOutcome} {parsed : TaskResult}

/-- What is returned of the last reply that was kept. -/
def reportOf (targetUrl taskId : String) (last : PollState) : Except PyError Json := do
  let parsed ← parseTaskResult last.rpcResult (.str taskId)
  return .obj [
    ("task_id", ← last.rpcResult.get "id" (.str taskId)),
    ("state", last.taskState),
    ("response", .str (if parsed.response = "" then "(no text response)" else parsed.response)),
    ("source", .str targetUrl),
    ("raw_result", last.rpcResult)]

/-- The id that is given for want of another matters for the id only. -/
theorem parseTaskResult_default (result d d' : Json) :
    parseTaskResult result d' =
      (fun reply : TaskResult => { reply with taskId := (taskIn result).getIfDict "id" d' }) <$>
        parseTaskResult result d := by
  unfold parseTaskResult
  simp only [map_bind, map_pure]
  rfl

theorem rawResult_of_parse {result d : Json} {reply : TaskResult}
    (h : parseTaskResult result d = .ok reply) : reply.rawResult = result.orElse (.obj []) := by
  unfold parseTaskResult at h
  obtain ⟨artifacts, -, h⟩ := exists_of_bind_ok h
  obtain ⟨items, -, h⟩ := exists_of_bind_ok h
  obtain ⟨fromArtifacts, -, h⟩ := exists_of_bind_ok h
  obtain ⟨fromStatus, -, h⟩ := exists_of_bind_ok h
  obtain ⟨fromMessage, -, h⟩ := exists_of_bind_ok h
  obtain rfl := Except.ok.inj h
  rfl

/-- **The tool, once the first reply was read.** -/
theorem sendRemoteTask_of_parsed
    (hfirst : callAndParse locale targetUrl timeout (.str taskId) first = .ok (.inr parsed)) :
    sendRemoteTask locale targetUrl taskId timeout pollAttempts first polls =
      let last := (pollsOf locale pollAttempts polls parsed).foldl PollState.after
        ⟨parsed.rawResult, parsed.state, 0⟩
      if parsed.polledFor pollAttempts = true ∧ (last.pollErrors : ℤ) = pollAttempts ∧
          isTerminalState locale last.taskState = false then
        .ok (.obj [("error", .str ("All " ++ toString pollAttempts ++
          " poll attempts failed. Could not determine task result."))])
      else reportOf targetUrl taskId last := by
  unfold callAndParse at hfirst
  obtain ⟨⟨rpcResult, errorMsg⟩, hcall, hfirst⟩ := exists_of_bind_ok hfirst
  dsimp only at hfirst
  split_ifs at hfirst with hmsg
  · cases hfirst
  obtain ⟨reply, hparse, hreply⟩ := exists_of_bind_ok hfirst
  obtain rfl := Sum.inr.inj (Except.ok.inj hreply)
  have hraw : reply.rawResult = rpcResult := by
    rw [rawResult_of_parse hparse]
    rcases rpcCall_cases locale targetUrl timeout first with
      ⟨msg, hne, -, hcall'⟩ | ⟨result, -, hcall'⟩ | ⟨-, e, hcall'⟩
    · rw [hcall'] at hcall
      exact absurd (Prod.mk.inj (Except.ok.inj hcall)).2 (fun h => hmsg (h ▸ hne))
    · rw [hcall'] at hcall
      rw [← (Prod.mk.inj (Except.ok.inj hcall)).1, Json.orElse_orElse_self]
    · rw [hcall'] at hcall
      cases hcall
  have hpolled : (if reply.polledFor pollAttempts = true then
      pollLoop locale reply.taskId ((List.range pollAttempts.toNat).map polls)
        ⟨rpcResult, reply.state, 0⟩
      else ⟨rpcResult, reply.state, 0⟩) =
      (pollsOf locale pollAttempts polls reply).foldl PollState.after
        ⟨reply.rawResult, reply.state, 0⟩ := by
    unfold pollsOf
    rw [hraw]
    split_ifs
    · exact pollLoop_eq _ _ _ _
    · rfl
  unfold sendRemoteTask
  rw [hcall, ok_bind]
  dsimp only
  rw [if_neg hmsg, hparse, ok_bind, ← hpolled]
  simp only [Bool.not_eq_true']
  rfl

/-- A result that was read as a Task in this state, whatever id it was read with. -/
def ReadAs (result state : Json) : Prop :=
  (∃ fields, result = .obj fields) ∧
    ∀ d, ∃ reply, parseTaskResult result d = .ok reply ∧ reply.state = state

theorem readAs_of_parse {result state d : Json} {reply : TaskResult}
    (hdict : ∃ fields, result = .obj fields) (h : parseTaskResult result d = .ok reply)
    (hstate : reply.state = state) : ReadAs result state := by
  refine ⟨hdict, fun d' => ?_⟩
  rw [parseTaskResult_default result d d', h]
  exact ⟨_, rfl, hstate⟩

/-- The result of the first reply. -/
theorem readAs_first
    (hfirst : callAndParse locale targetUrl timeout (.str taskId) first = .ok (.inr parsed)) :
    ReadAs parsed.rawResult parsed.state := by
  unfold callAndParse at hfirst
  obtain ⟨⟨rpcResult, errorMsg⟩, hcall, hfirst⟩ := exists_of_bind_ok hfirst
  dsimp only at hfirst
  split_ifs at hfirst with hmsg
  · cases hfirst
  obtain ⟨reply, hparse, hreply⟩ := exists_of_bind_ok hfirst
  obtain rfl := Sum.inr.inj (Except.ok.inj hreply)
  rw [rawResult_of_parse hparse]
  have hreadable : parsableTask (taskIn rpcResult) = true := by
    rw [← parseTaskResult_isOk rpcResult (.str taskId), hparse]
    rfl
  obtain ⟨again, hagain⟩ : ∃ again, parseTaskResult (rpcResult.orElse (.obj [])) (.str taskId) =
      .ok again := by
    apply exists_of_isOk
    rw [parseTaskResult_isOk, taskIn_orElse]
    exact hreadable
  refine readAs_of_parse (exists_fields_of_parsable hreadable) hagain ?_
  have hsame : parseTaskResult (rpcResult.orElse (.obj [])) (.str taskId) =
      parseTaskResult rpcResult (.str taskId) := by
    unfold parseTaskResult
    rw [Json.orElse_orElse_self]
  rw [hsame, hparse] at hagain
  rw [Except.ok.inj hagain]

/-- The result of a poll. -/
theorem readAs_poll {remoteTaskId result state : Json} {answer : HttpOutcome}
    (h : answer.poll locale remoteTaskId = .replied result state) : ReadAs result state := by
  cases answer with
  | body pollResult =>
      simp only [HttpOutcome.poll] at h
      cases hpoll : pollOnce locale remoteTaskId pollResult with
      | error e => rw [hpoll] at h; cases h
      | ok read =>
          rw [hpoll] at h
          cases read with
          | none => cases h
          | some reply =>
              obtain ⟨rfl, rfl⟩ := Poll.replied.inj h
              obtain ⟨inner, hinner, hreadable⟩ := pollOnce_ok hpoll
              have hdict : ∃ fields, reply.1 = .obj fields := by
                obtain ⟨fields, hfields⟩ := exists_fields_of_parsable hreadable
                exact ⟨fields, hinner.trans hfields⟩
              unfold pollOnce at hpoll
              split_ifs at hpoll
              · cases hpoll
              obtain ⟨pollInner, -, hpoll⟩ := exists_of_bind_ok hpoll
              obtain ⟨parsed, hparsed, hpoll⟩ := exists_of_bind_ok hpoll
              obtain rfl := Option.some.inj (Except.ok.inj hpoll)
              exact readAs_of_parse hdict hparsed rfl
  | _ => cases h

/-- **What is reported** of a result that was read. -/
theorem reportOf_readAs (targetUrl taskId : String) {last : PollState} (h : ReadAs last.rpcResult last.taskState) :
    ReportsReply taskId (reportOf targetUrl taskId last) last.rpcResult last.taskState := by
  obtain ⟨⟨fields, hfields⟩, hread⟩ := h
  obtain ⟨reply, hreply, hstate⟩ := hread (.str taskId)
  unfold reportOf
  rw [hreply, hfields]
  refine ⟨_, reply, rfl, rfl, by rw [← hfields, hreply], hstate, rfl, rfl, ?_⟩
  rfl

/-- All polls that are allowed are made, when none ends the loop. -/
theorem pollsOf_of_failed (hpolled : parsed.polledFor pollAttempts = true)
    (hfailed : ∀ p ∈ pollsOf locale pollAttempts polls parsed, p.failed = true) :
    pollsOf locale pollAttempts polls parsed =
      ((List.range pollAttempts.toNat).map polls).map (HttpOutcome.poll locale parsed.taskId) := by
  unfold pollsOf at hfailed ⊢
  rw [if_pos hpolled] at hfailed ⊢
  rcases asked_runs_on locale parsed.taskId
    ((List.range pollAttempts.toNat).map polls) ⟨parsed.rawResult, parsed.state, 0⟩ with
    hall | ⟨answer, hmem, hterminal⟩
  · rw [hall]
  · have hanswer := hfailed _ (List.mem_map_of_mem hmem)
    cases hpoll : answer.poll locale parsed.taskId with
    | replied result state => rw [hpoll] at hanswer; cases hanswer
    | _ => rw [hpoll] at hterminal; cases hterminal

/-- What failed has no known state. -/
theorem known_of_failed {made : List Poll} (h : ∀ p ∈ made, p.failed = true) :
    made.filterMap Poll.known? = [] := by
  rw [List.filterMap_eq_nil_iff]
  intro p hp
  cases p with
  | replied result state => cases h _ hp
  | _ => rfl

/-- What is kept was read as a Task, whatever the polls. -/
theorem readAs_polls (locale : Locale) (pollAttempts : ℤ) (polls : ℕ → HttpOutcome)
    (hstart : ReadAs parsed.rawResult parsed.state) :
    ReadAs
      ((pollsOf locale pollAttempts polls parsed).foldl PollState.after
        ⟨parsed.rawResult, parsed.state, 0⟩).rpcResult
      ((pollsOf locale pollAttempts polls parsed).foldl PollState.after
        ⟨parsed.rawResult, parsed.state, 0⟩).taskState := by
  have hsnapshot := foldl_after_snapshot (pollsOf locale pollAttempts polls parsed)
    ⟨parsed.rawResult, parsed.state, 0⟩
  obtain ⟨hresult, hstate⟩ := Prod.mk.inj hsnapshot
  rw [hresult, hstate]
  cases hlast : ((pollsOf locale pollAttempts polls parsed).filterMap Poll.known?).getLast? with
  | none => exact hstart
  | some reply =>
      -- the last known reply is one of the polls that were made
      obtain ⟨p, hp, hknown⟩ := List.mem_filterMap.mp (List.mem_of_getLast? hlast)
      unfold pollsOf at hp
      split_ifs at hp with hpolled
      · obtain ⟨answer, -, rfl⟩ := List.mem_map.mp hp
        cases hpoll : answer.poll locale parsed.taskId with
        | replied result state =>
            rw [hpoll] at hknown
            unfold Poll.known? at hknown
            dsimp only at hknown
            split_ifs at hknown
            obtain rfl := Option.some.inj hknown
            exact readAs_poll hpoll
        | _ => rw [hpoll] at hknown; cases hknown
      · cases hp

/-- What is reported has no error. -/
theorem ReportsReply.not_error {out : Except PyError Json} {result state : Json}
    (h : ReportsReply taskId out result state) : ¬ ReturnsError out := by
  obtain ⟨fields, reply, rfl, hnone, -⟩ := h
  rintro ⟨msg, hmsg⟩
  obtain rfl := Json.obj.inj (Except.ok.inj hmsg)
  cases hnone

/-- A poll is an answer to a request. -/
theorem mem_pollsOf {p : Poll} (hp : p ∈ pollsOf locale pollAttempts polls parsed) :
    ∃ answer ∈ (List.range pollAttempts.toNat).map polls,
      answer.poll locale parsed.taskId = p := by
  unfold pollsOf at hp
  split_ifs at hp
  · obtain ⟨answer, hasked, hpoll⟩ := List.mem_map.mp hp
    exact ⟨answer, (asked_initial _ _ _ _).subset hasked, hpoll⟩
  · cases hp

theorem polledFor_of_pollsOf (h : pollsOf locale pollAttempts polls parsed ≠ []) :
    parsed.polledFor pollAttempts = true := by
  unfold pollsOf at h
  split_ifs at h with hpolled
  · exact hpolled
  · exact absurd rfl h

theorem length_pollsOf :
    ((pollsOf locale pollAttempts polls parsed).length : ℤ) ≤ max pollAttempts 0 := by
  unfold pollsOf
  split_ifs
  · have hle := (asked_initial locale parsed.taskId
      ((List.range pollAttempts.toNat).map polls) ⟨parsed.rawResult, parsed.state, 0⟩).length_le
    simp only [List.length_map, List.length_range] at hle ⊢
    omega
  · simp

theorem pollsOf_stops (before : List Poll) (p : Poll) (after : List Poll)
    (h : pollsOf locale pollAttempts polls parsed = before ++ p :: after)
    (hterminal : p.terminal locale = true) : after = [] := by
  unfold pollsOf at h
  split_ifs at h
  · obtain ⟨asked, rest, hasked, -, hrest⟩ := List.map_eq_append_iff.mp h
    obtain ⟨answer, left, rfl, rfl, rfl⟩ := List.map_eq_cons_iff.mp hrest
    rw [asked_stops _ _ _ _ hasked hterminal]
    rfl
  · simp at h

theorem pollsOf_runs_on (hpolled : parsed.polledFor pollAttempts = true) :
    ((pollsOf locale pollAttempts polls parsed).length : ℤ) = pollAttempts ∨
      ∃ p ∈ pollsOf locale pollAttempts polls parsed, p.terminal locale = true := by
  unfold pollsOf
  rw [if_pos hpolled]
  rcases asked_runs_on locale parsed.taskId
    ((List.range pollAttempts.toNat).map polls) ⟨parsed.rawResult, parsed.state, 0⟩ with
    hall | ⟨answer, hmem, hterminal⟩
  · left
    simp only [TaskResult.polledFor, decide_eq_true_eq] at hpolled
    rw [hall]
    simp only [List.length_map, List.length_range]
    omega
  · exact Or.inr ⟨_, List.mem_map_of_mem hmem, hterminal⟩

/-- The polls are counted, and all of them raised, exactly if none brought a reply or an error. -/
theorem pollErrors_eq_iff (hpolled : parsed.polledFor pollAttempts = true) :
    ((((pollsOf locale pollAttempts polls parsed).foldl PollState.after
        ⟨parsed.rawResult, parsed.state, 0⟩).pollErrors : ℤ) = pollAttempts ↔
      ∀ i < pollAttempts.toNat, (polls i).poll locale parsed.taskId = .raised) := by
  have hpositive : 0 < pollAttempts := by
    simp only [TaskResult.polledFor, decide_eq_true_eq] at hpolled
    exact hpolled.2.2
  have hlength : (pollsOf locale pollAttempts polls parsed).length ≤ pollAttempts.toNat := by
    unfold pollsOf
    rw [if_pos hpolled, List.length_map]
    exact (asked_initial _ _ _ _).length_le.trans (by simp)
  rw [foldl_after_pollErrors, Nat.zero_add]
  constructor
  · intro hcount
    have hle := List.countP_le_length (p := Poll.isRaised)
      (l := pollsOf locale pollAttempts polls parsed)
    have hall : ∀ p ∈ pollsOf locale pollAttempts polls parsed, p.isRaised = true :=
      List.countP_eq_length.mp (by omega)
    have hfailed : ∀ p ∈ pollsOf locale pollAttempts polls parsed, p.failed = true := by
      intro p hp
      cases p with
      | raised => rfl
      | _ => cases hall _ hp
    rw [pollsOf_of_failed hpolled hfailed] at hall
    intro i hi
    have hraised := hall _ (List.mem_map_of_mem (List.mem_map_of_mem (List.mem_range.mpr hi)))
    cases hpoll : (polls i).poll locale parsed.taskId with
    | raised => rfl
    | _ => rw [hpoll] at hraised; cases hraised
  · intro hraised
    have hmade : ∀ p ∈ pollsOf locale pollAttempts polls parsed, p = .raised := by
      intro p hp
      unfold pollsOf at hp
      rw [if_pos hpolled] at hp
      obtain ⟨answer, hasked, rfl⟩ := List.mem_map.mp hp
      obtain ⟨i, hi, rfl⟩ := List.mem_map.mp ((asked_initial _ _ _ _).subset hasked)
      exact hraised i (List.mem_range.mp hi)
    have hall : ∀ p ∈ pollsOf locale pollAttempts polls parsed, p.isRaised = true :=
      fun p hp => by rw [hmade p hp]; rfl
    have hcount := List.countP_eq_length.mpr hall
    have heq := pollsOf_of_failed hpolled fun p hp => by rw [hmade p hp]; rfl
    have hn := congrArg List.length heq
    simp only [List.length_map, List.length_range] at hn
    omega

end Tool

/-- **One snapshot is reported exactly if no failure is masked**: the tool polls as it should and
what it returns is of one reply, but where all polls failed and one of them brought a JSON-RPC
error, it returns the first reply and no error. -/
theorem sendRemoteTask_oneSnapshot_iff (agents : AgentDirectory)
    (name url skill message taskId targetUrl : String) (timeout pollAttempts : ℤ)
    (first : HttpOutcome) (polls : ℕ → HttpOutcome) (parsed : TaskResult)
    (htarget : agents.sendTarget name url skill message = .ok targetUrl)
    (hfirst : callAndParse agents.locale targetUrl timeout (.str taskId) first =
      .ok (.inr parsed)) :
    OneSnapshot agents.locale taskId pollAttempts parsed
        (pollsOf agents.locale pollAttempts polls parsed)
        (handleSendProtocolTask agents name url skill message taskId timeout pollAttempts first
          polls) ↔
      ¬ MasksFailure agents.locale pollAttempts polls parsed := by
  have hout : handleSendProtocolTask agents name url skill message taskId timeout pollAttempts
      first polls =
      sendRemoteTask agents.locale targetUrl taskId timeout pollAttempts first polls := by
    unfold handleSendProtocolTask
    rw [htarget]
  have hreport := reportOf_readAs targetUrl taskId
    (readAs_polls agents.locale pollAttempts polls (readAs_first hfirst))
  have hsnapshot := foldl_after_snapshot (pollsOf agents.locale pollAttempts polls parsed)
    ⟨parsed.rawResult, parsed.state, 0⟩
  rw [hout, sendRemoteTask_of_parsed hfirst]
  dsimp only
  constructor
  · rintro honce ⟨hpolled, hopen, hfailed, i, hi, hrpc⟩
    have hmade : pollsOf agents.locale pollAttempts polls parsed =
        ((List.range pollAttempts.toNat).map polls).map
          (HttpOutcome.poll agents.locale parsed.taskId) :=
      pollsOf_of_failed hpolled fun p hp => by
        obtain ⟨answer, hasked, rfl⟩ := mem_pollsOf hp
        obtain ⟨j, hj, rfl⟩ := List.mem_map.mp hasked
        exact hfailed j (List.mem_range.mp hj)
    have hmem : Poll.rpcError ∈ pollsOf agents.locale pollAttempts polls parsed := by
      rw [hmade, ← hrpc]
      exact List.mem_map_of_mem (List.mem_map_of_mem (List.mem_range.mpr hi))
    have herror := honce.all_failed (List.ne_nil_of_mem hmem) (fun p hp => by
      obtain ⟨answer, hasked, rfl⟩ := mem_pollsOf hp
      obtain ⟨j, hj, rfl⟩ := List.mem_map.mp hasked
      exact hfailed j (List.mem_range.mp hj)) hopen
    -- the JSON-RPC error is not counted, so the first reply is reported
    rw [if_neg fun hif => by
      have hraised := (pollErrors_eq_iff hpolled).mp hif.2.1 i hi
      rw [hrpc] at hraised
      cases hraised] at herror
    exact hreport.not_error herror
  · intro hmask
    refine ⟨length_pollsOf, ?_, ?_, ?_, ?_⟩
    · exact pollsOf_stops
    · exact pollsOf_runs_on
    · intro hne hfailed hopen
      have hpolled := polledFor_of_pollsOf hne
      have hmade := pollsOf_of_failed hpolled hfailed
      have hkept : ((pollsOf agents.locale pollAttempts polls parsed).foldl PollState.after
          ⟨parsed.rawResult, parsed.state, 0⟩).taskState = parsed.state := by
        rw [known_of_failed hfailed] at hsnapshot
        exact (Prod.mk.inj hsnapshot).2
      have hfailed' : ∀ i < pollAttempts.toNat,
          ((polls i).poll agents.locale parsed.taskId).failed = true := by
        intro i hi
        apply hfailed
        rw [hmade]
        exact List.mem_map_of_mem (List.mem_map_of_mem (List.mem_range.mpr hi))
      have hraised : ∀ i < pollAttempts.toNat,
          (polls i).poll agents.locale parsed.taskId = .raised := by
        intro i hi
        cases hpoll : (polls i).poll agents.locale parsed.taskId with
        | raised => rfl
        | rpcError => exact absurd ⟨hpolled, hopen, hfailed', i, hi, hpoll⟩ hmask
        | replied result state =>
            have hreplied := hfailed' i hi
            rw [hpoll] at hreplied
            cases hreplied
      rw [if_pos ⟨hpolled, (pollErrors_eq_iff hpolled).mpr hraised, by rw [hkept, hopen]⟩]
      exact ⟨_, rfl⟩
    · intro hread
      have hresult := congrArg Prod.fst hsnapshot
      have hstate := congrArg Prod.snd hsnapshot
      dsimp only at hresult hstate
      rw [if_neg ?_, ← hresult, ← hstate]
      · exact hreport
      · rintro ⟨hpolled, hcount, hopen⟩
        have hraised := (pollErrors_eq_iff hpolled).mp hcount
        have hfailed : ∀ p ∈ pollsOf agents.locale pollAttempts polls parsed,
            p.failed = true := by
          intro p hp
          obtain ⟨answer, hasked, rfl⟩ := mem_pollsOf hp
          obtain ⟨i, hi, rfl⟩ := List.mem_map.mp hasked
          rw [hraised i (List.mem_range.mp hi)]
          rfl
        rw [known_of_failed hfailed] at hstate
        rcases hread with hnil | ⟨p, hp, hreplied⟩ | hterminal
        · have hmade := congrArg List.length (pollsOf_of_failed hpolled hfailed)
          rw [hnil] at hmade
          simp only [List.length_nil, List.length_map, List.length_range] at hmade
          have hpositive := hpolled
          simp only [TaskResult.polledFor, decide_eq_true_eq] at hpositive
          omega
        · rw [hfailed p hp] at hreplied
          cases hreplied
        · rw [hstate] at hopen
          exact absurd (hterminal.symm.trans hopen) (by decide)

/-- A directory of agents that are called by their URL. -/
def openDirectory : AgentDirectory :=
  ⟨⟨id, Json.dumps⟩, fun _ url => .found none url false, fun _ _ => (true, .arr []),
    fun url _ => .ok url⟩

/-- A Task in this state. -/
def taskAnswer (state : String) : HttpOutcome :=
  .body (.obj [("result", .obj [("id", .str "task-1"),
    ("status", .obj [("state", .str state)])])])

/-- A JSON-RPC error. -/
def rpcErrorAnswer : HttpOutcome := .body (.obj [("error", .obj [("message", .str "boom")])])

/-- What is read of an answer with a Task at work. -/
def workingTask : TaskResult :=
  ⟨.str "task-1", .str "working", "", .obj [("id", .str "task-1"),
    ("status", .obj [("state", .str "working")])]⟩

theorem sendRemoteTask_oneSnapshot_completed :
    OneSnapshot openDirectory.locale "task-1" 2 workingTask
      (pollsOf openDirectory.locale 2 (fun _ => taskAnswer "completed") workingTask)
      (handleSendProtocolTask openDirectory "" "https://peer" "" "hello" "task-1" 120 2
        (taskAnswer "working") (fun _ => taskAnswer "completed")) :=
  (sendRemoteTask_oneSnapshot_iff openDirectory "" "https://peer" "" "hello" "task-1"
    "https://peer" 120 2 (taskAnswer "working") (fun _ => taskAnswer "completed") workingTask
    rfl rfl).mpr (fun h => absurd (h.2.2.1 0 (by decide)) (by decide))

/-- A task is reported to be at work although no poll brought anything. -/
theorem rpcError_masked : ¬ ∀ (first : HttpOutcome) (polls : ℕ → HttpOutcome)
    (parsed : TaskResult),
    callAndParse openDirectory.locale "https://peer" 120 (.str "task-1") first =
      .ok (.inr parsed) →
    OneSnapshot openDirectory.locale "task-1" 2 parsed
      (pollsOf openDirectory.locale 2 polls parsed)
      (handleSendProtocolTask openDirectory "" "https://peer" "" "hello" "task-1" 120 2 first
        polls) := by
  intro h
  have honce := h (taskAnswer "working") (fun _ => rpcErrorAnswer) workingTask rfl
  obtain ⟨msg, hmsg⟩ := honce.all_failed (by decide) (by decide) (by decide)
  have hlength : 5 = 1 := congrArg List.length (Json.obj.inj (Except.ok.inj hmsg))
  exact absurd hlength (by decide)

end HermesA2A
