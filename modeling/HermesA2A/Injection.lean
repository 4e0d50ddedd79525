import HermesA2A.Runs

/-!
# Injecting a task into the LLM's context

`pre_llm_call` chooses its task with `drain_pending` and claims it two lock
sections later with `mark_processing`.  The claim is not a test: it is made for
whatever id was chosen, claimed or not, pending or not, and the context is
returned in any case.

`claimsFresh` is the test the source leaves out.  Where it holds, the claim works
as a lock: a claimed task stays claimed until it is completed or canceled
(`Claimed.held`), and what was completed or canceled is not chosen again.
-/

namespace HermesA2A

open Machine

/-- What a `drain_pending` step answered. -/
def drained? : Event → Option (List PendingTask)
  | ⟨.drainPending, tasks⟩ => some tasks
  | _ => none

/-- The tasks thread `i` drained, if that is how it began. -/
def Config.drainedBy (c : Config) (i : ℕ) : Option (List PendingTask) :=
  (Machine.Config.history c i).head?.bind drained?

/-- Hook `i` has returned the context of `task`. -/
def Injects (c : Config) (i : ℕ) (task : PendingTask) : Prop :=
  ∃ sender rest, Config.drainedBy c i = some (task :: rest) ∧
    c.Ends i .preLlmCall (.context (some (triggerContext task.taskId sender task.text)))

/-- A hook claims a task only where the object it has chosen is still pending and
not claimed; and no task is requeued that is not pending. -/
def claimsFresh : Test
  | c, i, .markProcessing t =>
      match Config.drainedBy c i with
      | some (task :: _) =>
          decide (c.shared.queue.pending.get? t = some task ∧ t ∉ c.shared.queue.processing)
      | _ => true
  | c, _, .requeueTasks tasks => tasks.all fun task => task.taskId ∈ c.shared.queue.pending
  | _, _, _ => true

/-- Thread `i` has chosen `task` and gone past its claim. -/
def Claimed (tr : Trace) (i : ℕ) (task : PendingTask) : Prop :=
  ∃ rest moved,
    ([⟨.drainPending, task :: rest⟩, ⟨.transition task.taskId .working, moved⟩,
      ⟨.markProcessing task.taskId, ()⟩] : List Event) <+: historyOf i tr

section Step

variable {P : Platform} {c : Config} {i j : ℕ} {x : Call} {o : Op} {task : PendingTask}

theorem claimsFresh_requeuesPending : claimsFresh.RequeuesPending :=
  fun _ _ _ hok task htask => of_decide_eq_true (List.all_eq_true.mp hok task htask)

theorem fresh_of_claimsFresh {t : TaskId} {rest : List PendingTask}
    (hok : claimsFresh c i (.markProcessing t) = true)
    (hdrained : Config.drainedBy c i = some (task :: rest)) :
    c.shared.queue.pending.get? t = some task ∧ t ∉ c.shared.queue.processing := by
  simp only [claimsFresh, hdrained] at hok
  exact of_decide_eq_true hok

theorem Claimed.snoc {tr : Trace} {e : ℕ × Event} (h : Claimed tr i task) :
    Claimed (tr ++ [e]) i task := by
  obtain ⟨rest, moved, h⟩ := h
  refine ⟨rest, moved, h.trans ?_⟩
  show historyOf i tr <+: historyOf i (tr ++ [e])
  unfold historyOf
  rw [List.filter_append, List.map_append]
  exact List.prefix_append _ _

/-- A new claim is an old one, or the step itself, made for a fresh task. -/
theorem claimed_snoc (hok : claimsFresh c i o = true)
    (h : Claimed (c.trace ++ [(i, ⟨o, o.answer P c.shared⟩)]) j task) :
    Claimed c.trace j task ∨
      (j = i ∧ o = .markProcessing task.taskId ∧
        c.shared.queue.pending.get? task.taskId = some task ∧
          task.taskId ∉ c.shared.queue.processing) := by
  obtain ⟨rest, moved, h⟩ := h
  by_cases hij : i = j
  · subst hij
    rw [historyOf_snoc_self] at h
    rcases List.prefix_concat_iff.mp h with heq | hold
    · obtain ⟨hhist, hlast⟩ := List.append_inj'
        (show [⟨.drainPending, task :: rest⟩, ⟨.transition task.taskId .working, moved⟩] ++
          [⟨.markProcessing task.taskId, ()⟩] = historyOf i c.trace ++ _ from heq) rfl
      generalize hr : o.answer P c.shared = r at hlast
      cases hlast
      -- the thread's own first event says what it has chosen
      have hdrained : Config.drainedBy c i = some (task :: rest) := by
        unfold Config.drainedBy Machine.Config.history
        rw [← hhist]
        rfl
      exact Or.inr ⟨rfl, rfl, fresh_of_claimsFresh hok hdrained⟩
    · exact Or.inl ⟨rest, moved, hold⟩
  · rw [historyOf_snoc_of_ne hij] at h
    exact Or.inl ⟨rest, moved, h⟩

end Step

section Runs

variable {P : Platform} {t₀ : Time} {c : Config} {i j : ℕ} {task : PendingTask}

/-- **A claimed task stays pending and claimed until it is taken out.** -/
theorem Claimed.held (hc : (system P).Reaches (Allows claimsFresh) (World.init t₀) c)
    (h : Claimed c.trace i task) :
    (c.shared.queue.pending.get? task.taskId = some task ∧
      task.taskId ∈ c.shared.queue.processing) ∨ TakenIn c.trace task := by
  have hinv : ∀ i task, Claimed c.trace i task →
      (c.shared.queue.pending.get? task.taskId = some task ∧
        task.taskId ∈ c.shared.queue.processing) ∨ TakenIn c.trace task := by
    refine run_invariant (I := fun tr w => ∀ i task, Claimed tr i task →
      (w.queue.pending.get? task.taskId = some task ∧ task.taskId ∈ w.queue.processing) ∨
        TakenIn tr task) ?_ ?_ ?_ hc
    · rintro i task ⟨rest, moved, h⟩
      exact absurd h (by simp)
    · exact fun _ _ _ h => h
    · intro c k x o _ ih hok _ _ i task hclaim
      rcases claimed_snoc hok hclaim with hold | ⟨-, rfl, hp, -⟩
      · rcases ih i task hold with ⟨hp, hclaimed⟩ | htaken
        · rcases pending_leaves o hp with hp' | htakes
          · refine Or.inl ⟨hp', ?_⟩
            have hkept : ¬ o.Takes c.shared.queue task.taskId task := fun htakes =>
              htakes.not_pending (OrderedDict.mem_of_get? hp')
            rcases processing_leaves o hclaimed with hclaimed | hcomplete | hcancel
            · exact hclaimed
            · exact absurd ⟨hp, Or.inl hcomplete⟩ hkept
            · exact absurd ⟨hp, Or.inr hcancel⟩ hkept
          · exact Or.inr htakes.takenIn
        · exact Or.inr htaken.snoc
      · refine Or.inl ⟨?_, ?_⟩
        · show (c.shared.queue.markProcessing task.taskId).pending.get? task.taskId = some task
          rw [TaskQueue.markProcessing_pending]
          exact hp
        · exact TaskQueue.mem_markProcessing.mpr (Or.inr ⟨rfl, OrderedDict.mem_of_get? hp⟩)
  exact hinv i task h

/-- Nobody can claim what another thread has claimed. -/
theorem not_fresh_of_claimed (hc : (system P).Reaches (Allows claimsFresh) (World.init t₀) c)
    (h : Claimed c.trace i task) :
    ¬ (c.shared.queue.pending.get? task.taskId = some task ∧
      task.taskId ∉ c.shared.queue.processing) := by
  rintro ⟨hp, hfree⟩
  rcases h.held hc with ⟨-, hclaimed⟩ | htaken
  · exact hfree hclaimed
  · exact htaken.not_pending claimsFresh_requeuesPending hc hp

/-- **No two threads claim one task.** -/
theorem Claimed.unique (hc : (system P).Reaches (Allows claimsFresh) (World.init t₀) c) :
    ∀ {i j : ℕ} {task : PendingTask}, Claimed c.trace i task → Claimed c.trace j task → i = j := by
  induction hc with
  | refl =>
      rintro i j task ⟨rest, moved, h⟩
      exact absurd h (by simp [Machine.start])
  | tail hreach hstep ih =>
      intro i j task hi hj
      cases hstep with
      | call => exact ih hi hj
      | env => exact ih hi hj
      | act thread guard exec =>
          obtain ⟨-, rfl, rfl⟩ := exec_eq_some_iff.mp exec
          rcases claimed_snoc guard hi with hold | ⟨rfl, -, hfresh⟩ <;>
            rcases claimed_snoc guard hj with hold' | ⟨rfl, -, hfresh'⟩
          · exact ih hold hold'
          · exact absurd hfresh' (not_fresh_of_claimed hreach hold)
          · exact absurd hfresh (not_fresh_of_claimed hreach hold')
          · rfl

/-- A hook that has returned a context has gone past its claim. -/
theorem Injects.claimed {test : Test} (hc : (system P).Reaches (Allows test) (World.init t₀) c)
    (h : Injects c i task) : Claimed c.trace i task := by
  obtain ⟨sender, rest, hdrained, hends⟩ := h
  have hpost : HookEnds (c.history i) _ := post_of_ends hc hends
  unfold Config.drainedBy at hdrained
  generalize hhist : c.history i = hist at hpost hdrained
  generalize houtcome : Outcome.context _ = outcome at hpost
  cases hpost with
  | idle => cases hdrained
  | raised => cases houtcome
  | injected task' rest' moved sender' requeued =>
      obtain ⟨rfl, rfl⟩ := List.cons.inj (Option.some.inj hdrained)
      refine ⟨rest', moved, ?_⟩
      show _ <+: c.history i
      rw [hhist]
      exact ⟨_ :: requeued, rfl⟩

/-- **At most one hook injects a task, and none after its cancellation.**  In a run
in which every claim is fresh, no two hooks return the context of one task, and a
hook whose claim comes after the cancellation of its task does not return it. -/
theorem injected_at_most_once (hc : (system P).Reaches (Allows claimsFresh) (World.init t₀) c) :
    (∀ i j task, Injects c i task → Injects c j task → i = j) ∧
      ∀ tr₁ tr₂ i t task, c.trace = tr₁ ++ (i, ⟨.markProcessing t, ()⟩) :: tr₂ →
        CancelsIn tr₁ task → ¬ Injects c i task := by
  refine ⟨fun i j task hi hj => Claimed.unique hc (hi.claimed hc) (hj.claimed hc), ?_⟩
  intro tr₁ tr₂ i t task htr hcancel hinjects
  obtain ⟨b, x, k, s', hb, rfl, hthread, hok, -, hsteps⟩ := hc.event htr
  -- what the hook had drained before its claim is what it has drained now
  obtain ⟨first, rest, moved, rfl, rfl, hhist⟩ := pre_of_thread hb hthread
  obtain ⟨sender, rest', hdrained, -⟩ := hinjects
  have hbegan : Config.drainedBy c i = some (first :: rest) := by
    unfold Config.drainedBy
    have : c.history i = historyOf i (b.trace ++ (i, ⟨.markProcessing first.taskId, ()⟩) :: tr₂) :=
      congrArg (historyOf i) htr
    rw [this]
    unfold historyOf
    rw [List.filter_append, List.map_append]
    change ((b.history i ++ _).head?).bind drained? = _
    rw [hhist]
    rfl
  obtain ⟨rfl, rfl⟩ := List.cons.inj (Option.some.inj (hbegan.symm.trans hdrained))
  have hbefore : Config.drainedBy b i = some (first :: rest) := by
    unfold Config.drainedBy
    rw [hhist]
    rfl
  have htaken : TakenIn b.trace first := Or.inr hcancel
  exact htaken.not_pending claimsFresh_requeuesPending hb (fresh_of_claimsFresh hok hbefore).1

end Runs

/-! ### A single hook, and two -/

/-- A message and the hooks that look for work. -/
def hooksCalls : List Call :=
  [.sendMessage .jsonRpc (.sample [("id", .str "a")] "hi"), .preLlmCall, .preLlmCall]

/-- The message of the sample calls, once accepted. -/
def hooksTask : PendingTask where
  ref := 0
  taskId := .str "a"
  text := "hi"
  metadata := .obj [("sender_name", .str "agent-10.0.0.1"), ("_a2a_origin", .str "peer")]
  contextId := .str "a"
  createdAt := 0

/-- What a hook returns for it. -/
def hooksOutcome : Outcome :=
  .context (some (triggerContext (.str "a") (.str "agent-10.0.0.1") "hi"))

/-- With one hook at a time, the message is injected once. -/
theorem injected_once_alone :
    ∃ c, (system Platform.sample).Reaches (Allows claimsFresh) (World.init 0) c ∧
      Injects c 1 hooksTask ∧ ∀ j, Injects c j hooksTask → 1 = j := by
  have hplay : (playSample claimsFresh
      (List.replicate 4 (.act 0) ++ List.replicate 4 (.act 1) ++ [.act 2])
      (Config.calling hooksCalls)).any (fun c =>
        decide (Config.drainedBy c 1 = some [hooksTask] ∧ c.outcome? 1 = some hooksOutcome)) =
          true := by
    decide +kernel
  obtain ⟨c, hc, hcalls, hp⟩ := exists_of_playCalls hplay
  obtain ⟨hdrained, houtcome⟩ := of_decide_eq_true hp
  have hinjects : Injects c 1 hooksTask := ⟨_, [], hdrained, (hcalls 1 _ rfl).ends houtcome⟩
  exact ⟨c, hc, hinjects, fun j hj => (injected_at_most_once hc).1 1 j hooksTask hinjects hj⟩

/-- Two hooks drain the same message before either claims it. -/
theorem injected_twice :
    ∃ c, (system Platform.sample).Reaches (Allows anyStep) (World.init 0) c ∧
      Injects c 1 hooksTask ∧ Injects c 2 hooksTask := by
  have hplay : (playSample anyStep
      (List.replicate 4 (.act 0) ++ [.act 1, .act 2] ++ List.replicate 3 (.act 1) ++
        List.replicate 3 (.act 2))
      (Config.calling hooksCalls)).any (fun c =>
        decide (Config.drainedBy c 1 = some [hooksTask] ∧ c.outcome? 1 = some hooksOutcome ∧
          Config.drainedBy c 2 = some [hooksTask] ∧ c.outcome? 2 = some hooksOutcome)) = true := by
    decide +kernel
  obtain ⟨c, hc, hcalls, hp⟩ := exists_of_playCalls hplay
  obtain ⟨hdrained, houtcome, hdrained', houtcome'⟩ := of_decide_eq_true hp
  exact ⟨c, hc, ⟨_, [], hdrained, (hcalls 1 _ rfl).ends houtcome⟩,
    ⟨_, [], hdrained', (hcalls 2 _ rfl).ends houtcome'⟩⟩

end HermesA2A
