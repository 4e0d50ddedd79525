import HermesA2A.Server.Plans

/-!
# The Task in a reply

For each outcome of `_enqueue_and_await_task`, the Task a client finds in what the
handler sends: its id, its state, its text.
-/

namespace HermesA2A

section Reply

variable {transport : Transport} {req : SendRequest} {s : Submission}
  {responses : List HttpResponse} {response : HttpResponse} {sent : Json}

theorem filterOutbound_pollText : filterOutbound pollText = pollText := by decide +kernel

theorem filterOutbound_emptyMessage : filterOutbound "Empty message" = "Empty message" := by
  decide +kernel

/-- What a client finds after a time-out. -/
theorem sent_of_timedOut (hreply : replySend transport req s .timedOut = .ok responses)
    (hmem : response ∈ responses) (hsent : taskIn? transport response = some sent) :
    taskId? sent = some s.taskId ∧ taskState? sent = some (.str "working") ∧
      replyText sent = .str pollText := by
  cases transport with
  | jsonRpc =>
      obtain rfl := Except.ok.inj hreply
      obtain rfl := List.mem_singleton.mp hmem
      obtain rfl := Option.some.inj hsent
      exact ⟨taskId?_buildTaskObject .., taskState?_buildTaskObject ..,
        replyText_of_filtered filterOutbound_pollText ..⟩
  | rest =>
      obtain rfl := Except.ok.inj hreply
      obtain rfl := List.mem_singleton.mp hmem
      obtain rfl := Option.some.inj hsent
      exact ⟨rfl, rfl, rfl⟩

/-- What a client finds after a completion or a replay: over JSON-RPC the result
itself, over REST a Task with the result's `response` field. -/
theorem sent_of_answered {result : Json}
    (hreply : replySend transport req s (.answered result) = .ok responses)
    (hmem : response ∈ responses) (hsent : taskIn? transport response = some sent) :
    match transport with
    | .jsonRpc => sent = result
    | .rest => ∃ text, result.get "response" (.str "") = .ok text ∧
        sent = plainTask [("id", s.taskId)] "completed" text := by
  cases transport with
  | jsonRpc =>
      obtain rfl := Except.ok.inj hreply
      obtain rfl := List.mem_singleton.mp hmem
      exact (Option.some.inj hsent).symm
  | rest =>
      obtain ⟨text, htext, hreply⟩ := exists_of_bind_ok hreply
      obtain rfl := Except.ok.inj hreply
      obtain rfl := List.mem_singleton.mp hmem
      exact ⟨text, htext, (Option.some.inj hsent).symm⟩

/-- A client finds a completed Task if the result is one. -/
theorem taskState?_of_answered {result : Json}
    (hresult : taskState? result = some (.str "completed"))
    (hreply : replySend transport req s (.answered result) = .ok responses)
    (hmem : response ∈ responses) (hsent : taskIn? transport response = some sent) :
    taskState? sent = some (.str "completed") := by
  have hfound := sent_of_answered hreply hmem hsent
  cases transport with
  | jsonRpc =>
      obtain rfl : sent = result := hfound
      exact hresult
  | rest =>
      obtain ⟨text, -, rfl⟩ := hfound
      exact taskState?_plainTask ..

/-- A refusal contains no Task with a state. -/
theorem taskState?_of_refused {error : HttpResponse} {code : ℤ} {message : String} {rpcId : Json}
    (hbody : error.body = rpcErrorBody code message rpcId)
    (hreply : replySend transport req s (.refused error) = .ok responses)
    (hmem : response ∈ responses) (hsent : taskIn? transport response = some sent) :
    taskState? sent = none := by
  cases transport with
  | jsonRpc =>
      obtain rfl := Except.ok.inj hreply
      rcases List.mem_cons.mp hmem with rfl | hmem
      · unfold taskIn? at hsent
        rw [hbody] at hsent
        cases hsent
      · -- the handler's `None`, wrapped after the error has been sent
        obtain rfl := List.mem_singleton.mp hmem
        obtain rfl := Option.some.inj hsent
        rfl
  | rest =>
      obtain rfl := Except.ok.inj hreply
      obtain rfl := List.mem_singleton.mp hmem
      obtain rfl := Option.some.inj hsent
      rw [hbody]
      rfl

/-- A handler that answers by itself sends the Task it made. -/
theorem taskIn?_replyEarly {task : Json} :
    taskIn? transport (replyEarly transport req task) = some task := by
  cases transport <;> rfl

end Reply

end HermesA2A
