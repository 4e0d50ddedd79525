import HermesA2A.ContextRequests

/-!
# The context id is stable where the queue is asked

In every run in which no fallback goes wrong, whoever hears of a task hears of the context
that it was enqueued with (`contexts_stable`).  A run in which a fallback does go wrong is
short: a task is sent with a context of its own, and looked up (`lookup_forgets_context`).
-/

namespace HermesA2A

open ContextRecord

/-! ### The record of a run -/

/-- What has been enqueued and buffered in a trace. -/
def recordOf (trace : ServerTrace) : ContextRecord where
  enqueued t c := EnqueuedAs trace t c ∧ c.orElse t = c
  own _ _ h := h.2
  stored := StoredUnder trace
  buffered id line := line.isPushed = true ∧ ∃ i e pushed,
    (i, (⟨.pushEvent id e, pushed⟩ : ServerEvent)) ∈ trace ∧
      namedByEvent line.payload = namedByEvent (e.payload "")
  pushed _ _ h := h.1

/-- A trace is its own record. -/
theorem records_recordOf {trace : ServerTrace} {e : ℕ × ServerEvent} (he : e ∈ trace) :
    (recordOf trace).Records e.2 := by
  obtain ⟨i, o, r⟩ := e
  cases o with
  | base o =>
      cases o with
      | enqueue t text metadata c createdAt =>
          cases r with
          | none => exact trivial
          | some task => exact fun hown => ⟨List.mem_filterMap.mpr ⟨_, he, if_pos rfl⟩, hown⟩
      | idemSet key t payload task => exact ⟨i, t, payload, he⟩
      | _ => exact trivial
  | pushEvent id event => exact fun line hpushed hnames => ⟨hpushed, i, event, r, he, hnames⟩
  | _ => exact trivial

section Runs

variable {site : Site} {clock : Time}
  {ok : Machine.Guard ServerOp ServerOp.Res ServerState ServerCall ServerOutcome} {b : ServerConfig}

/-- **The next step of a thread names tasks with what is on record, or by its fallbacks.** -/
theorem keeps_next (hb : (httpServer site).Reaches ok (ServerState.init clock) b) {i : ℕ}
    {x : ServerCall} {o : ServerOp} {k : o.Res → ServerProc ServerOutcome}
    (hthread : b.threads[i]? = some (x, .step o k)) :
    (recordOf b.trace).Keeps (x.FallsBackTo site b.trace) o := by
  have hexec : ∀ (x : ServerCall) (o : ServerOp) (s : ServerState) (r : o.Res) (s' : ServerState),
      (recordOf b.trace).Holds s → (recordOf b.trace).Keeps (x.FallsBackTo site b.trace) o →
        (recordOf b.trace).Records ⟨o, r⟩ → serve site o s = some (r, s') →
          (recordOf b.trace).Holds s' ∧ (recordOf b.trace).Good o r := by
    intro x o s r s' hs hkeeps hrec hserve
    obtain ⟨-, rfl, rfl⟩ := serve_eq_some_iff.mp hserve
    exact ⟨hs.after hkeeps hrec, good_of_holds hs hkeeps hrec⟩
  have hprog : ∀ x : ServerCall, (x.prog site).Relies (recordOf b.trace).Good
      ((recordOf b.trace).Keeps (x.FallsBackTo site b.trace)) fun _ => True :=
    fun x => prog_onRecord site x fun _ _ => id
  have hruns := hb.relies_recorded (recordOf b.trace).Records (holds_init clock)
    (fun e s hs => hs.move e) hexec hprog fun e he => records_recordOf he
  exact (hruns.2 hthread).1

/-- **The context id is stable.**  In every run in which no fallback goes wrong, each Task and
each event names its task with a context that the task was enqueued with. -/
theorem contexts_stable {c : ServerConfig}
    (hc : (httpServer site).Reaches (FallsBackRightly site) (ServerState.init clock) c) :
    ContextsStable c.trace := by
  constructor
  · rintro before ⟨i, a⟩ after htrace p hp
    obtain ⟨b, x, k, s', hb, rfl, hthread, hok, -, -⟩ := hc.event htrace
    rcases (keeps_next hb hthread).tells p hp with ⟨d, hknown, hcontext⟩ | hfalls
    · exact fun _ => ⟨d, hknown.1, hcontext⟩
    · exact hok x ⟨_, hthread⟩ p.1 (List.mem_map_of_mem hp) p.2 hfalls
  · intro i id event timestamp written hmem
    obtain ⟨before, after, htrace⟩ := List.append_of_mem hmem
    obtain ⟨b, x, k, s', hb, rfl, hthread, -, -, -⟩ := hc.event htrace
    obtain ⟨-, j, e, pushed, he, hnames⟩ := (keeps_next hb hthread).shared rfl
    refine ⟨j, e, pushed, ?_, hnames.symm⟩
    rw [htrace]
    exact List.mem_append_left _ he

end Runs

/-! ### Fixed inputs -/

/-- A message for the task `a`, in the context `ctx`. -/
def messageInContext : HttpRequest :=
  .sample "/" (rpcBody "SendMessage"
    [("id", .str "a"), ("contextId", .str "ctx"),
      ("message", .obj [("parts", .arr [.obj [("text", .str "hi")]])])])

/-- The task `a` has been enqueued in the context `ctx`, and the last step names it with
`context`. -/
def toldLast (context : Json) (c : ServerConfig) : Bool :=
  match c.trace.getLast? with
  | some e =>
      e.2.op.tells == [(.str "a", some context)] &&
        contextsOf c.trace.dropLast (.str "a") == [.str "ctx"]
  | none => false

theorem split_of_toldLast {context : Json} {c : ServerConfig} (h : toldLast context c = true) :
    ∃ before e, c.trace = before ++ [e] ∧ e.2.op.tells = [(.str "a", some context)] ∧
      contextsOf before (.str "a") = [.str "ctx"] := by
  unfold toldLast at h
  cases hlast : c.trace.getLast? with
  | none =>
      rw [hlast] at h
      cases h
  | some e =>
      rw [hlast, Bool.and_eq_true] at h
      refine ⟨c.trace.dropLast, e, ?_, eq_of_beq h.1, eq_of_beq h.2⟩
      exact (List.dropLast_append_getLast? e hlast).symm

/-- **A look-up forgets the context**: it names the task with the task's own id. -/
theorem lookup_forgets_context :
    ∃ (site : Site) (clock : Time) (c : ServerConfig),
      (httpServer site).Reaches anyServerStep (ServerState.init clock) c ∧
        ¬ ContextsStable c.trace := by
  have hplay : (playServer .sample [.post messageInContext, .get (.sample "/tasks/a" .null)]
      (List.replicate 3 (.act 0) ++ List.replicate 2 (.act 1))).any
        (toldLast (.str "a")) = true := by
    decide +kernel
  obtain ⟨c, hc, -, hlast⟩ := exists_of_playServer hplay
  refine ⟨.sample, 0, c, hc, fun hstable => ?_⟩
  obtain ⟨before, e, htrace, htells, hcontexts⟩ := split_of_toldLast hlast
  have hiff : ∀ d, EnqueuedAs before (.str "a") d ↔ d = .str "ctx" := by
    intro d
    unfold EnqueuedAs
    rw [hcontexts, List.mem_singleton]
  obtain ⟨d, hd, heq⟩ := hstable.told before e [] htrace (.str "a", some (.str "a"))
    (htells ▸ List.mem_singleton.mpr rfl) ⟨_, (hiff _).mpr rfl⟩
  rw [(hiff d).mp hd] at heq
  exact absurd heq (by decide)

/-- The step names no task, or its thread lists all tasks. -/
def listsAtMost (c : ServerConfig) (i : ℕ) (o : ServerOp) : Bool :=
  o.tells.isEmpty ||
    match c.threads[i]? with
    | some (.get req, _) => decide (req.getRoute = .listTasks)
    | _ => false

/-- A list of all tasks needs no fallback. -/
theorem fallsBackRightly_of_listsAtMost {site : Site} {b : ServerConfig} {i : ℕ} {o : ServerOp}
    (h : listsAtMost b i o = true) : FallsBackRightly site b i o := by
  rintro x ⟨p, hp⟩ t ht context hfalls
  unfold listsAtMost at h
  rw [hp] at h
  rcases Bool.or_eq_true_iff.mp h with hempty | hlists
  · rw [List.isEmpty_iff.mp hempty] at ht
    cases ht
  · cases hfalls with
    | getTask route => cases route.symm.trans (of_decide_eq_true hlists)
    | subscribe route => cases route.symm.trans (of_decide_eq_true hlists)
    | _ => cases hlists

/-- A list of all tasks shows the context. -/
theorem contexts_stable_listed :
    ∃ c, (httpServer .sample).Reaches (FallsBackRightly .sample) (ServerState.init 0) c ∧
      ContextsStable c.trace ∧ toldLast (.str "ctx") c = true := by
  have hplay : ((httpServer .sample).play listsAtMost
      (List.replicate 3 (.act 0) ++ List.replicate 3 (.act 1))
        ((httpServer .sample).started (ServerState.init 0)
          [.post messageInContext, .get (.sample "/tasks" .null)])).any
        (toldLast (.str "ctx")) = true := by
    decide +kernel
  obtain ⟨c, hc, -, hlast⟩ := Machine.exists_of_play_started
    (fun _ _ _ => fallsBackRightly_of_listsAtMost) hplay
  exact ⟨c, hc, contexts_stable hc, hlast⟩

end HermesA2A
