import HermesA2A.Redaction

/-!
# Requests without authorisation

`do_POST` asks for the bearer token before anything else, on every route.  `do_GET` asks
for it where the path starts with `/tasks` or `/extendedAgentCard`, and only if
`A2A_REQUIRE_AUTH` is set: reading is open by default.  `do_DELETE` asks for the HMAC
key, if there is one, and not for the token.

So for a request from another machine that does not carry the token: a POST is refused
and does nothing else.  A GET changes neither the queue nor a configuration, and is told
nothing where reading is not open.  A DELETE leaves the queue alone and is told nothing,
and without the key it leaves the configurations alone too.
-/

namespace HermesA2A

/-- The request comes from another machine and does not carry the token there is. -/
structure HttpRequest.Unauthorised (site : Site) (req : HttpRequest) : Prop where
  remote : req.isLocal = false
  token_set : site.authToken ≠ ""
  token_missing : req.bearer? ≠ some site.authToken

/-- A response that tells nothing of a task or a configuration: it is made of the request
and of what the site is. -/
inductive Contentless (site : Site) (req : HttpRequest) : HttpResponse → Prop
  | unauthorized : Contentless site req ⟨401, rpcErrorBody (-32603) "Unauthorized" .null⟩
  | restUnauthorized : Contentless site req ⟨401, bareError (-32603) "Unauthorized"⟩
  | internalError (e : PyError) :
      Contentless site req
        ⟨500, rpcErrorBody (-32603) ("Internal error: " ++ site.describe e) .null⟩
  | getError : Contentless site req ⟨500, rpcErrorBody (-32603) "Internal error" .null⟩
  | notFound : Contentless site req ⟨404, .obj [("error", .str "Not found")]⟩
  | taskNotFound : Contentless site req (taskNotFound (.str (segmentText req.segments 2)) .null)
  | configNotFound : Contentless site req (configNotFound (segmentText req.segments 4))
  | deleted : Contentless site req ⟨204, .null⟩
  | agentCard : Contentless site req ⟨200, site.agentCard.json⟩
  | health : Contentless site req ⟨200, site.health.json⟩

/-- The step leaves the task queue as it is. -/
def ServerOp.KeepsQueue (site : Site) (o : ServerOp) : Prop :=
  ∀ s, (o.after site s).world.queue = s.world.queue

/-- The step leaves the push configurations as they are. -/
def ServerOp.KeepsConfigs (site : Site) (o : ServerOp) : Prop :=
  ∀ s, (o.after site s).configs = s.configs

/-- The step opens no stream, sends nothing on one, and tells nothing. -/
def ServerOp.TellsNothing (site : Site) (req : HttpRequest) : ServerOp → Prop
  | .openStream _ => False
  | .startStream _ => False
  | .sendLine .. => False
  | .send response => Contentless site req response
  | _ => True

/-! ### Without the token -/

section Refused

variable {site : Site} {req : HttpRequest} (h : req.Unauthorised site)

include h

/-- The check fails, or raises. -/
theorem checkAuth_of_unauthorised :
    checkAuth site req = .ok false ∨ checkAuth site req = .error .typeError := by
  unfold checkAuth
  rw [h.remote, if_neg Bool.false_ne_true, if_neg h.token_set]
  cases hbearer : req.bearer? with
  | none => exact Or.inl rfl
  | some given =>
      have hne : given ≠ site.authToken := by
        rintro rfl
        exact h.token_missing hbearer
      change compareDigest given site.authToken = _ ∨ compareDigest given site.authToken = _
      unfold compareDigest
      split_ifs
      · exact Or.inl (congrArg Except.ok (beq_eq_false_iff_ne.mpr hne))
      · exact Or.inr rfl

/-- What a refused request does: it is answered, if at all. -/
abbrev Refuses (site : Site) (req : HttpRequest) (o : ServerOp) : Prop :=
  ∃ response, o = .send response ∧ Contentless site req response

/-- The program sends one such response at most, and does nothing else. -/
abbrev OnlyRefuses {α : Type} (site : Site) (req : HttpRequest)
    (p : Prog ServerOp ServerOp.Res α) : Prop :=
  p.Meets (fun h o => h = [] ∧ Refuses site req o) (fun h _ => h.length ≤ 1) []

theorem doRestPost_refused (handler : Json → Handler Unit) :
    OnlyRefuses site req (doRestPost site req handler).run := by
  unfold doRestPost readBody
  rcases checkAuth_of_unauthorised h with hauth | hauth
  · rw [hauth]
    exact ⟨⟨rfl, _, rfl, .restUnauthorized⟩, fun _ => Nat.le_refl 1⟩
  · rw [hauth]
    exact Nat.zero_le 1

theorem doJsonRpc_refused : OnlyRefuses site req (doJsonRpc site req).run := by
  unfold doJsonRpc guarded doJsonRpcInner readBody
  rcases checkAuth_of_unauthorised h with hauth | hauth
  · rw [hauth]
    exact ⟨⟨rfl, _, rfl, .unauthorized⟩, fun _ => Nat.le_refl 1⟩
  · rw [hauth]
    exact ⟨⟨rfl, _, rfl, .internalError .typeError⟩, fun _ => Nat.le_refl 1⟩

/-- **A POST is refused.** -/
theorem doPost_refused : OnlyRefuses site req (doPost site req).run := by
  unfold doPost
  cases req.postRoute with
  | jsonRpc => exact doJsonRpc_refused h
  | _ => exact doRestPost_refused h _

/-- **A GET of a guarded path** is refused where reading is not open. -/
theorem doGet_refused (hauth : site.requireAuth = true) (hguarded : req.isGuarded = true) :
    (doGet site req).run.Relies (fun _ _ => True) (Refuses site req) fun _ => True := by
  unfold doGet
  rw [if_pos ⟨hguarded, hauth⟩]
  rcases checkAuth_of_unauthorised h with hcheck | hcheck
  · rw [hcheck]
    exact ⟨⟨_, rfl, .unauthorized⟩, fun _ _ => trivial⟩
  · rw [hcheck]
    exact trivial

end Refused

/-! ### Paths that are not guarded -/

section Paths

variable {req : HttpRequest}

/-- The first piece of a text that is split. -/
theorem head_splitOn (sep : Char) (text : List Char) :
    (text.splitOn sep)[0]? = some (text.takeWhile (· ≠ sep)) := by
  induction text with
  | nil => rfl
  | cons c text ih =>
      rw [List.splitOn_cons_eq_if_modifyHead]
      by_cases hc : c = sep
      · simp [hc]
      · rw [if_neg (by simpa using hc), List.getElem?_modifyHead_zero, ih]
        simp [hc]

theorem isGuarded_of_tasksPath (h : "/tasks".toList <+: req.route) : req.isGuarded = true := by
  unfold HttpRequest.isGuarded
  rw [List.isPrefixOf_iff_prefix.mpr h, Bool.true_or]

/-- A path that starts with a slash is not the path of a configuration. -/
theorem isGuarded_of_isConfigPath (hslash : ∃ rest, req.path.toList = '/' :: rest)
    (h : isConfigPath req.segments = true) : req.isGuarded = true := by
  obtain ⟨rest, hpath⟩ := hslash
  have hroute : req.route = '/' :: rest.takeWhile (· ≠ '?') := by
    unfold HttpRequest.route
    rw [hpath]
    rfl
  have htasks : req.segments[1]? = some "tasks".toList := (of_decide_eq_true h).1
  refine isGuarded_of_tasksPath ?_
  unfold HttpRequest.segments at htasks
  rw [hroute, List.splitOn_cons_eq_if_modifyHead, if_pos (beq_self_eq_true _),
    List.getElem?_cons_succ, head_splitOn] at htasks
  rw [hroute]
  change '/' :: "tasks".toList <+: _
  rw [← Option.some.inj htasks]
  exact (List.prefix_cons_inj _).mpr (List.takeWhile_prefix _)

/-- **What an open path leads to.** -/
theorem getRoute_of_not_guarded (hslash : ∃ rest, req.path.toList = '/' :: rest)
    (h : req.isGuarded = false) :
    req.getRoute = .agentCard ∨ req.getRoute = .health ∨ req.getRoute = .notFound := by
  have htasks : ¬ "/tasks".toList <+: req.route := by
    intro hprefix
    rw [isGuarded_of_tasksPath hprefix] at h
    cases h
  have hslashed : "/tasks/".toList.isPrefixOf req.route = false := by
    rw [Bool.eq_false_iff]
    intro hprefix
    exact htasks (List.IsPrefix.trans ⟨['/'], rfl⟩ (List.isPrefixOf_iff_prefix.mp hprefix))
  have hconfig : isConfigPath req.segments = false := by
    rw [Bool.eq_false_iff]
    intro hconfig
    rw [isGuarded_of_isConfigPath hslash hconfig] at h
    cases h
  have hcard : req.route ≠ "/extendedAgentCard".toList := by
    intro heq
    unfold HttpRequest.isGuarded at h
    rw [heq] at h
    exact absurd h (by decide)
  have hlist : req.route ≠ "/tasks".toList := by
    intro heq
    exact htasks (heq ▸ List.prefix_rfl)
  unfold HttpRequest.getRoute
  simp only [hslashed, hconfig, hcard, hlist, Bool.false_eq_true, false_and, and_false, if_false]
  split_ifs
  · exact Or.inl rfl
  · exact Or.inr (Or.inl rfl)
  · exact Or.inr (Or.inr rfl)

/-- Where reading is not open, a GET tells nothing. -/
theorem doGet_tellsNothing {site : Site} (h : req.Unauthorised site)
    (hauth : site.requireAuth = true) (hslash : ∃ rest, req.path.toList = '/' :: rest) :
    (doGet site req).run.Relies (fun _ _ => True) (ServerOp.TellsNothing site req)
      fun _ => True := by
  cases hguarded : req.isGuarded with
  | true =>
      refine (doGet_refused h hauth hguarded).allow ?_
      rintro o ⟨response, rfl, hresponse⟩
      exact hresponse
  | false =>
      unfold doGet
      rw [hguarded, if_neg fun hif => Bool.false_ne_true hif.1]
      rcases getRoute_of_not_guarded hslash hguarded with hroute | hroute | hroute
      · rw [hroute]
        exact ⟨.agentCard, fun _ _ => trivial⟩
      · rw [hroute]
        exact ⟨.health, fun _ _ => trivial⟩
      · rw [hroute]
        exact ⟨.notFound, fun _ _ => trivial⟩

end Paths

/-! ### Deletions -/

section Delete

variable {site : Site} {req : HttpRequest}

/-- There is an HMAC key, and the request does not carry it. -/
def HttpRequest.Keyless (site : Site) (req : HttpRequest) : Prop :=
  site.hmacKey ≠ "" ∧ req.header "X-HMAC-Key" ≠ some site.hmacKey

/-- What a DELETE does. -/
structure DeleteDoes (site : Site) (req : HttpRequest) (o : ServerOp) : Prop where
  queue : o.KeepsQueue site
  silent : o.TellsNothing site req
  configs : req.Keyless site → o.KeepsConfigs site

theorem deleteDoes_send {response : HttpResponse} (h : Contentless site req response) :
    DeleteDoes site req (.send response) := ⟨fun _ => rfl, h, fun _ _ => rfl⟩

theorem deleteDoes_getStatus (t : TaskId) : DeleteDoes site req (.base (.getStatus t)) :=
  ⟨fun _ => rfl, trivial, fun _ _ => rfl⟩

theorem checkHmacPush_of_keyless (h : req.Keyless site) :
    checkHmacPush site req = do
      sendRpcError (-32603) "Unauthorized" 401 .null
      return false := by
  unfold checkHmacPush
  rw [if_neg h.1, if_neg h.2]

theorem checkHmacPush_of_not_keyless (h : ¬ req.Keyless site) :
    checkHmacPush site req = pure true := by
  unfold checkHmacPush
  by_cases hkey : site.hmacKey = ""
  · rw [if_pos hkey]
  · rw [if_neg hkey, if_pos (not_not.mp fun hheader => h ⟨hkey, hheader⟩)]

theorem loadTaskOr404_relies {allowed : ServerOp → Prop} {t : TaskId} {rpcId : Json}
    (hread : allowed (.base (.getStatus t))) (hsend : allowed (.send (taskNotFound t rpcId))) :
    (loadTaskOr404 t rpcId).run.Relies (fun _ _ => True) allowed fun _ => True := by
  refine ⟨hread, ?_⟩
  rintro (e | status) -
  · exact trivial
  · change Prog.Relies _ _ _ (ExceptT.run (if status.state = none then _ else _ : Handler _))
    split_ifs
    · exact ⟨hsend, fun _ _ => trivial⟩
    · exact trivial

/-- **A DELETE** asks for the key and looks for the task, and then deletes. -/
theorem doDelete_does :
    (doDelete site req).run.Relies (fun _ _ => True) (DeleteDoes site req) fun _ => True := by
  unfold doDelete
  dsimp only
  by_cases hpath : req.segments.length = 5 ∧ isConfigPath req.segments = true
  · rw [if_pos hpath]
    unfold restDeletePushConfig
    by_cases hkey : req.Keyless site
    · rw [checkHmacPush_of_keyless hkey]
      exact ⟨deleteDoes_send .unauthorized, fun _ _ => trivial⟩
    · rw [checkHmacPush_of_not_keyless hkey]
      change Prog.Relies _ _ _ (ExceptT.run (loadTaskOr404 _ _ >>= _))
      refine Prog.Relies.bind_except (loadTaskOr404_relies (deleteDoes_getStatus _)
        (deleteDoes_send .taskNotFound)) ?_ fun _ _ => trivial
      rintro (_ | status) -
      · exact trivial
      · refine ⟨⟨fun _ => rfl, trivial, fun hkeyless => absurd hkeyless hkey⟩, ?_⟩
        rintro (_ | deleted) -
        · exact ⟨deleteDoes_send .configNotFound, fun _ _ => trivial⟩
        · exact ⟨deleteDoes_send .deleted, fun _ _ => trivial⟩
  · rw [if_neg hpath]
    exact ⟨deleteDoes_send .notFound, fun _ _ => trivial⟩

end Delete

/-! ### Runs -/

section Run

variable {site : Site} {clock : Time} {c : ServerConfig} {req : HttpRequest} {i : ℕ}
  {a : Act ServerOp ServerOp.Res}

theorem onQueue_of_not_writes {o : Op} (h : o.writes = false) (q : TaskQueue) :
    o.onQueue q = q := by
  cases o with
  | enqueue => cases h
  | transition => cases h
  | markProcessing => cases h
  | requeueTasks => cases h
  | complete => cases h
  | cancel => cases h
  | writeResponse => cases h
  | setReady => cases h
  | setReturned => cases h
  | _ => rfl

/-- Without the rights, nothing is changed. -/
theorem keeps_of_allows {subscribed : Subscription → Prop} {rights : Rights} {o : ServerOp}
    (h : rights.Allows subscribed o) (hqueue : ¬ rights.queue) (hconfigs : ¬ rights.configs) :
    o.KeepsQueue site ∧ o.KeepsConfigs site := by
  cases o with
  | base o =>
      refine ⟨fun s => onQueue_of_not_writes ?_ _, fun _ => rfl⟩
      exact Bool.eq_false_iff.mpr fun hwrites => hqueue (h.1 hwrites)
  | createPushConfig => exact absurd h hconfigs
  | deletePushConfig => exact absurd h hconfigs
  | _ => exact ⟨fun _ => rfl, fun _ => rfl⟩

/-- **A GET changes nothing**, whoever sends it. -/
theorem get_keeps (hc : (httpServer site).Reaches anyServerStep (ServerState.init clock) c)
    (hcalls : c.Calls i (.get req)) (h : (i, a) ∈ c.trace) :
    a.op.KeepsQueue site ∧ a.op.KeepsConfigs site := by
  obtain ⟨x, hx, hallowed⟩ := @allowed_of_reaches _ _ .empty _ hc _ _ h
  obtain rfl := hx.unique hcalls
  exact keeps_of_allows hallowed id id

/-- **A refused POST has done one thing, if any**: it has sent its response. -/
theorem post_refused (hc : (httpServer site).Reaches anyServerStep (ServerState.init clock) c)
    (hreq : req.Unauthorised site) (hcalls : c.Calls i (.post req)) (h : (i, a) ∈ c.trace) :
    Refuses site req a.op ∧ c.history i = [a] := by
  have hprog : OnlyRefuses site req ((ServerCall.post req).prog site) :=
    (doPost_refused hreq).bind fun _ _ hone => hone
  have hallowed : Refuses site req a.op :=
    hc.allowed_of_calls (hprog.relies (fun _ _ h => h.2) fun _ _ _ => trivial) hcalls h
  obtain ⟨p, hthread⟩ := hcalls
  have hrest := hc.meets_of_calls hprog hthread
  have hone : (c.history i).length ≤ 1 := by
    cases p with
    | ret outcome => exact hrest
    | step o k =>
        rw [hrest.1.1]
        exact Nat.zero_le 1
  have hmem : a ∈ c.history i := Machine.mem_historyOf.mpr h
  obtain ⟨b, hb⟩ := List.length_eq_one_iff.mp (le_antisymm hone (List.length_pos_of_mem hmem))
  rw [hb] at hmem ⊢
  exact ⟨hallowed, by rw [List.mem_singleton.mp hmem]⟩

/-- **What a request without the token does.**  A POST does nothing but send its response. -/
theorem effects_of_unauthorised
    (hc : (httpServer site).Reaches anyServerStep (ServerState.init clock) c)
    (hreq : req.Unauthorised site) (h : (i, a) ∈ c.trace) :
    (c.Calls i (.post req) → Refuses site req a.op ∧ c.history i = [a]) ∧
      (c.Calls i (.get req) → a.op.KeepsQueue site ∧ a.op.KeepsConfigs site ∧
        (site.requireAuth = true → (∃ rest, req.path.toList = '/' :: rest) →
          a.op.TellsNothing site req)) ∧
      (c.Calls i (.delete req) → a.op.KeepsQueue site ∧ a.op.TellsNothing site req ∧
        (req.Keyless site → a.op.KeepsConfigs site)) := by
  refine ⟨fun hcalls => post_refused hc hreq hcalls h, fun hcalls => ?_, fun hcalls => ?_⟩
  · obtain ⟨hqueue, hconfigs⟩ := get_keeps hc hcalls h
    refine ⟨hqueue, hconfigs, fun hauth hslash => ?_⟩
    refine hc.allowed_of_calls ?_ hcalls h
    exact (doGet_tellsNothing hreq hauth hslash).bind fun _ _ => trivial
  · have hdoes : DeleteDoes site req a.op := by
      refine hc.allowed_of_calls ?_ hcalls h
      exact doDelete_does.bind fun _ _ => trivial
    exact ⟨hdoes.queue, hdoes.silent, hdoes.configs⟩

end Run

/-! ### A stranger -/

/-- A request without any header, from another machine. -/
def strangerRequest (path : String) : HttpRequest :=
  { HttpRequest.sample path .null with header := fun _ => none }

theorem unauthorised_strangerRequest {site : Site} (htoken : site.authToken ≠ "") (path : String) :
    (strangerRequest path).Unauthorised site where
  remote := rfl
  token_set := htoken
  token_missing h := nomatch h

/-- A site where reading is not open, and configurations have a key. -/
def guardedSite : Site := { Site.sample with requireAuth := true, hmacKey := "key" }

/-- The Task in a response to GetTask over REST. -/
def taskOf? (response : HttpResponse) : Option Json := response.body.field? "task"

/-- The state of the Task a step sends. -/
def sentState? : ServerOp → Option Json
  | .send response => (taskOf? response).bind taskState?
  | _ => none

/-- The run in which a stranger asks for a task that somebody else has sent. -/
theorem exists_stranger_run :
    ∃ c, (httpServer .sample).Reaches anyServerStep (ServerState.init 0) c ∧
      c.Calls 1 (.get (strangerRequest "/tasks/a")) ∧
        ∃ a, (1, a) ∈ c.trace ∧ sentState? a.op = some (.str "submitted") := by
  have hplay : (playServer .sample
      [.post (.sampleMessage "a"), .get (strangerRequest "/tasks/a")]
      (List.replicate 3 (.act 0) ++ List.replicate 2 (.act 1))).any
        (fun c => c.trace.any fun e => decide (e.1 = 1) &&
          decide (sentState? e.2.op = some (.str "submitted"))) = true := by decide +kernel
  obtain ⟨c, hc, hcalls, hany⟩ := exists_of_playServer hplay
  obtain ⟨⟨j, a⟩, he, hp⟩ := List.any_eq_true.mp hany
  obtain ⟨hj, hstate⟩ := Bool.and_eq_true_iff.mp hp
  obtain rfl : j = 1 := of_decide_eq_true hj
  exact ⟨c, hc, hcalls 1 _ rfl, a, he, of_decide_eq_true hstate⟩

/-- The stranger is told the task's state. -/
theorem stranger_reads_task :
    ∃ c req a, (httpServer .sample).Reaches anyServerStep (ServerState.init 0) c ∧
      req.Unauthorised .sample ∧ c.Calls 1 (.get req) ∧ (1, a) ∈ c.trace ∧
        sentState? a.op = some (.str "submitted") ∧ ¬ a.op.TellsNothing .sample req := by
  obtain ⟨c, hc, hcalls, a, ha, hstate⟩ := exists_stranger_run
  refine ⟨c, _, a, hc, unauthorised_strangerRequest (by decide) _, hcalls, ha, hstate, fun hnothing => ?_⟩
  obtain ⟨op, res⟩ := a
  cases op with
  | send response =>
      -- no response without content has a Task
      cases hnothing <;> cases hstate
  | _ => cases hstate

/-- The run in which a stranger tries a POST, a GET and a DELETE, with somebody else's task there. -/
theorem exists_refused_run :
    ∃ c, (httpServer guardedSite).Reaches anyServerStep (ServerState.init 0) c ∧
      (c.Calls 1 (.post (strangerRequest "/tasks/a:cancel")) ∧ ∃ a, (1, a) ∈ c.trace) ∧
      (c.Calls 2 (.get (strangerRequest "/tasks/a")) ∧ ∃ a, (2, a) ∈ c.trace) ∧
      c.Calls 3 (.delete (strangerRequest "/tasks/a/pushNotificationConfigs/c")) ∧
        ∃ a, (3, a) ∈ c.trace := by
  have hplay : (playServer guardedSite
      [.post (.sampleMessage "a"), .post (strangerRequest "/tasks/a:cancel"),
        .get (strangerRequest "/tasks/a"),
        .delete (strangerRequest "/tasks/a/pushNotificationConfigs/c")]
      (List.replicate 3 (.act 0) ++ [.act 1, .act 2, .act 3])).any
        (fun c => [1, 2, 3].all fun i => !(c.history i).isEmpty) = true := by decide +kernel
  obtain ⟨c, hc, hcalls, hall⟩ := exists_of_playServer hplay
  have hdone : ∀ i ∈ [1, 2, 3], ∃ a, (i, a) ∈ c.trace := by
    intro i hi
    have hsome := List.all_eq_true.mp hall i hi
    rw [Bool.not_eq_true', List.isEmpty_eq_false_iff_exists_mem] at hsome
    obtain ⟨a, ha⟩ := hsome
    exact ⟨a, Machine.mem_historyOf.mp ha⟩
  exact ⟨c, hc, ⟨hcalls 1 _ rfl, hdone 1 (by decide)⟩, ⟨hcalls 2 _ rfl, hdone 2 (by decide)⟩,
    hcalls 3 _ rfl, hdone 3 (by decide)⟩

/-- What the stranger's requests do: the GET where reading is open, and all three where it is not. -/
theorem effects_of_stranger :
    (∃ c a, (httpServer .sample).Reaches anyServerStep (ServerState.init 0) c ∧
      c.Calls 1 (.get (strangerRequest "/tasks/a")) ∧ (1, a) ∈ c.trace ∧
        a.op.KeepsQueue .sample ∧ a.op.KeepsConfigs .sample) ∧
    ∃ c post get delete, (httpServer guardedSite).Reaches anyServerStep (ServerState.init 0) c ∧
      (1, post) ∈ c.trace ∧ (2, get) ∈ c.trace ∧ (3, delete) ∈ c.trace ∧
      (Refuses guardedSite (strangerRequest "/tasks/a:cancel") post.op ∧ c.history 1 = [post]) ∧
      (get.op.KeepsQueue guardedSite ∧ get.op.KeepsConfigs guardedSite ∧
        get.op.TellsNothing guardedSite (strangerRequest "/tasks/a")) ∧
      delete.op.KeepsQueue guardedSite ∧ delete.op.KeepsConfigs guardedSite ∧
        delete.op.TellsNothing guardedSite
          (strangerRequest "/tasks/a/pushNotificationConfigs/c") := by
  constructor
  · obtain ⟨c, hc, hcalls, a, ha, -⟩ := exists_stranger_run
    have hreq := unauthorised_strangerRequest (by decide : Site.sample.authToken ≠ "") "/tasks/a"
    obtain ⟨hqueue, hconfigs, -⟩ := (effects_of_unauthorised hc hreq ha).2.1 hcalls
    exact ⟨c, a, hc, hcalls, ha, hqueue, hconfigs⟩
  · have hreq := fun path => unauthorised_strangerRequest (by decide : guardedSite.authToken ≠ "") path
    obtain ⟨c, hc, ⟨hpost, post, ha₁⟩, ⟨hget, get, ha₂⟩, hdelete, delete, ha₃⟩ := exists_refused_run
    have hrefused := (effects_of_unauthorised hc (hreq _) ha₁).1 hpost
    obtain ⟨hqueue₂, hconfigs₂, hguarded⟩ := (effects_of_unauthorised hc (hreq _) ha₂).2.1 hget
    obtain ⟨hqueue₃, hsilent₃, hkeyless⟩ := (effects_of_unauthorised hc (hreq _) ha₃).2.2 hdelete
    exact ⟨c, post, get, delete, hc, ha₁, ha₂, ha₃, hrefused,
      ⟨hqueue₂, hconfigs₂, hguarded rfl ⟨_, rfl⟩⟩,
      hqueue₃, hkeyless ⟨by decide, nofun⟩, hsilent₃⟩

end HermesA2A
