import HermesA2A.Redaction

/-!
# Who is notified

A client registers a webhook under `/tasks/{id}/pushNotificationConfigs`, to be told when
the task changes its state.  The endpoints keep what they are given in one store, the
configurations; `_push_notifications` reads another, the subscriptions, and nothing the
server does adds to that one.

So no notification is ever delivered, and a change of state is served as it should be
only if and only if nobody has registered for the task.
-/

namespace HermesA2A

/-- The configurations that have been created along a trace and not deleted since. -/
def configsAfter (trace : List (ℕ × Act ServerOp ServerOp.Res)) : PushConfigStore :=
  Machine.along ServerOp.onConfigs .empty trace

/-- The URLs that deliveries have been made to. -/
def deliveredUrls (history : List (Act ServerOp ServerOp.Res)) : List Json :=
  history.filterMap fun a =>
    match a.op with
    | .deliver url _ _ => some url
    | _ => none

/-- A configuration is one for the task. -/
def PushConfig.IsFor (config : PushConfig) (t : TaskId) : Prop := Json.str config.taskId = t

/-- **Everyone who registered for the task has been told, and nobody else.** -/
structure Served (configs : PushConfigStore) (t : TaskId) (urls : List Json) : Prop where
  complete : ∀ config ∈ configs.values, config.IsFor t → config.url ∈ urls
  sound : ∀ url ∈ urls, ∃ config ∈ configs.values, config.IsFor t ∧ config.url = url

/-- A start without subscriptions, as every start is. -/
theorem sound_init_empty (clock : Time) : Sound (fun _ => False) (ServerState.init clock) :=
  @sound_init _ _ .empty fun id _ h => by cases (OrderedDict.get?_empty id).symm.trans h

section Run

variable {site : Site} {clock : Time} {c : ServerConfig}

/-- **Nothing is ever delivered.** -/
theorem not_delivered (hc : (httpServer site).Reaches anyServerStep (ServerState.init clock) c)
    {i : ℕ} {a : Act ServerOp ServerOp.Res} (h : (i, a) ∈ c.trace) (url payload hmacKey : Json) :
    a.op ≠ .deliver url payload hmacKey := by
  have hprog : ∀ x : ServerCall, KeepsTo (fun _ => False) (x.rights fun _ _ => True)
      (x.prog site) fun _ => True :=
    prog_keepsTo site (fun _ _ _ => trivial) fun _ _ _ _ _ => trivial
  obtain ⟨x, -, hallowed, -⟩ := hc.relies_event (sound_init_empty clock)
    (fun e s hs => hs.move e) (sound_of_serve _) hprog h
  intro hop
  rw [hop] at hallowed
  obtain ⟨-, sub, hsub, -⟩ := hallowed
  exact hsub

theorem deliveredUrls_eq_nil
    (hc : (httpServer site).Reaches anyServerStep (ServerState.init clock) c) (i : ℕ)
    {trace : List (ℕ × Act ServerOp ServerOp.Res)} (h : trace <:+ c.trace) :
    deliveredUrls (Machine.historyOf i trace) = [] := by
  rw [List.eq_nil_iff_forall_not_mem]
  intro url hurl
  obtain ⟨⟨op, res⟩, ha, hmatch⟩ := List.mem_filterMap.mp hurl
  have hmem := h.mem (Machine.mem_historyOf.mp ha)
  cases op with
  | deliver url payload hmacKey => exact not_delivered hc hmem url payload hmacKey rfl
  | _ => cases hmatch

/-- **A change of state is served exactly if nobody has registered for the task.**  The
hook is called for `t` by thread `i`; what it delivers, it delivers after that. -/
theorem served_iff_unregistered
    (hc : (httpServer site).Reaches anyServerStep (ServerState.init clock) c)
    {tr₁ tr₂ : List (ℕ × Act ServerOp ServerOp.Res)} {i : ℕ} {t : TaskId} {oldState : String}
    {newState : TaskState} {contextId : Json} {u : Unit}
    (h : c.trace = tr₁ ++ (i, ⟨.base (.stateHook t oldState newState contextId), u⟩) :: tr₂) :
    Served (configsAfter tr₁) t (deliveredUrls (Machine.historyOf i tr₂)) ↔
      ∀ config ∈ (configsAfter tr₁).values, ¬ config.IsFor t := by
  have hnone : deliveredUrls (Machine.historyOf i tr₂) = [] := by
    refine deliveredUrls_eq_nil hc i ?_
    rw [h]
    exact (List.suffix_cons ..).trans (List.suffix_append ..)
  rw [hnone]
  constructor
  · exact fun hserved config hconfig hfor =>
      absurd (hserved.complete config hconfig hfor) List.not_mem_nil
  · intro hunregistered
    exact ⟨fun config hconfig hfor => absurd hfor (hunregistered config hconfig),
      fun url hurl => absurd hurl List.not_mem_nil⟩

end Run

/-! ### A client that registers and is not told -/

/-- The registration of a webhook for the task `a`. -/
def webhookForA : HttpRequest :=
  .sample "/tasks/a/pushNotificationConfigs"
    (.obj [("url", .str "https://peer.example/hook"), ("hmacKey", .str "key")])

/-- The task is enqueued, the webhook registered, and then the LLM turn starts. -/
def registeredCalls : List ServerCall :=
  [.post (.sampleMessage "a"), .post webhookForA, .preLlmCall]

/-- The three do their steps one after the other. -/
def registeredSchedule : List ServerMove :=
  List.replicate 3 (.act 0) ++ List.replicate 3 (.act 1) ++ List.replicate 6 (.act 2)

/-- The task the hook is called for, if the step is that. -/
def hookOf? : ServerOp → Option TaskId
  | .base (.stateHook t ..) => some t
  | _ => none

/-- The run up to the end of the hook, which is the tenth event. -/
theorem exists_registered_run :
    ∃ c tr₁ tr₂ t oldState newState contextId,
      (httpServer .sample).Reaches anyServerStep (ServerState.init 0) c ∧ c.Ended 2 ∧
        c.trace = tr₁ ++ (2, ⟨.base (.stateHook t oldState newState contextId), ()⟩) :: tr₂ ∧
          ∃ config ∈ (configsAfter tr₁).values, config.IsFor t := by
  have hplay : (playServer .sample registeredCalls registeredSchedule).any (fun c =>
      (c.outcome? 2).isSome && (c.trace[9]?).any fun e => e.1 = 2 &&
        (hookOf? e.2.op).any fun t =>
          (configsAfter (c.trace.take 9)).values.any fun config => Json.str config.taskId = t) =
        true := by decide +kernel
  obtain ⟨c, hc, -, hp⟩ := exists_of_playServer hplay
  obtain ⟨hended, hevent⟩ := Bool.and_eq_true_iff.mp hp
  obtain ⟨⟨j, ⟨op, res⟩⟩, hget, hevent⟩ := (Option.any_eq_true _ _).mp hevent
  obtain ⟨hj, hhook⟩ := Bool.and_eq_true_iff.mp hevent
  obtain rfl : j = 2 := of_decide_eq_true hj
  obtain ⟨t, ht, hany⟩ := (Option.any_eq_true _ _).mp hhook
  obtain ⟨config, hconfig, hfor⟩ := List.any_eq_true.mp hany
  obtain ⟨o, hended⟩ := Option.isSome_iff_exists.mp hended
  have hsplit : c.trace = c.trace.take 9 ++ (2, ⟨op, res⟩) :: c.trace.drop 10 := by
    obtain ⟨hlt, heq⟩ := List.getElem?_eq_some_iff.mp hget
    rw [← heq, List.getElem_cons_drop, List.take_append_drop]
  cases op with
  | base op =>
      cases op with
      | stateHook t' oldState newState contextId =>
          obtain rfl := Option.some.inj ht
          exact ⟨c, _, _, _, oldState, newState, contextId, hc,
            Machine.Config.ended_of_outcome? hended, hsplit, config, hconfig,
            of_decide_eq_true (p := Json.str config.taskId = t') hfor⟩
      | _ => cases ht
  | _ => cases ht

/-- The task goes to work, and the webhook is not called. -/
theorem webhook_not_called :
    ∃ c tr₁ tr₂ t oldState newState contextId,
      (httpServer .sample).Reaches anyServerStep (ServerState.init 0) c ∧ c.Ended 2 ∧
        c.trace = tr₁ ++ (2, ⟨.base (.stateHook t oldState newState contextId), ()⟩) :: tr₂ ∧
          ¬ Served (configsAfter tr₁) t (deliveredUrls (Machine.historyOf 2 tr₂)) := by
  obtain ⟨c, tr₁, tr₂, t, oldState, newState, contextId, hc, hended, htrace, config, hconfig,
    hfor⟩ := exists_registered_run
  refine ⟨c, tr₁, tr₂, t, oldState, newState, contextId, hc, hended, htrace, fun hserved => ?_⟩
  have htold := hserved.complete config hconfig hfor
  rw [deliveredUrls_eq_nil hc 2] at htold
  · cases htold
  · rw [htrace]
    exact (List.suffix_cons ..).trans (List.suffix_append ..)

/-- That run again. -/
theorem unregistered_of_registered_run :
    ∃ (c : ServerConfig) (tr₁ tr₂ : List (ℕ × Act ServerOp ServerOp.Res)) (t : TaskId),
      (httpServer .sample).Reaches anyServerStep (ServerState.init 0) c ∧
        (Served (configsAfter tr₁) t (deliveredUrls (Machine.historyOf 2 tr₂)) ↔
          ∀ config ∈ (configsAfter tr₁).values, ¬ config.IsFor t) ∧
        ∃ config ∈ (configsAfter tr₁).values, config.IsFor t := by
  obtain ⟨c, tr₁, tr₂, t, oldState, newState, contextId, hc, -, htrace, hregistered⟩ :=
    exists_registered_run
  exact ⟨c, tr₁, tr₂, t, hc, served_iff_unregistered hc htrace, hregistered⟩

end HermesA2A
