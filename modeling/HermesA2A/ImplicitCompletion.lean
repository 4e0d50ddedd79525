import HermesA2A.Answers
import HermesA2A.QueueRuns
import Mathlib.Data.List.Rotate

/-!
# Completing without a task id

`post_llm_call` without a task id is to complete the oldest task that is being processed.  It
takes the first one of `get_processing_tasks`, and that is a list made of a set: the order is
none of age.

* `exists_markedAt` — a task that is being processed has been so since some step of the run.
* `alone_postLlmCall` — the hook completes the task that comes first in the order of the set.
* `completesFirst_iff` — it completes the task that was marked first exactly if that one comes
  first.

The order of the set is given by where it starts (`turn`); the second `turn` is that of a second
look, which the hook takes if the first task's id is falsy.
-/

namespace HermesA2A

open TaskQueue

/-- The task has been in processing since this step. -/
structure MarkedAt (ops : List QueueCall) (t : TaskId) (i : ℕ) : Prop where
  marks : ops[i]? = some (.markProcessing t)
  before : t ∉ (afterCalls .source (ops.take i)).processing
  since : ∀ j, i < j → j ≤ ops.length → t ∈ (afterCalls .source (ops.take j)).processing

/-- Of the tasks in processing, this one was marked first. -/
def FirstMarked (ops : List QueueCall) (t : TaskId) : Prop :=
  ∃ i, MarkedAt ops t i ∧ ∀ t' i', MarkedAt ops t' i' → i ≤ i'

section Marks

variable {ops : List QueueCall} {o : QueueCall} {q : TaskQueue} {t t' : TaskId} {i : ℕ}

/-- A task gets into processing by being marked. -/
theorem processing_on (h : t ∈ (o.on .source q).processing) :
    t ∈ q.processing ∨ o = .markProcessing t := by
  cases o with
  | markProcessing t' =>
      rcases mem_markProcessing.mp h with hold | ⟨rfl, -⟩
      · exact Or.inl hold
      · exact Or.inr rfl
  | enqueue t' text metadata contextId createdAt =>
      rcases q.enqueued_of_enqueueWithin .source t' text metadata contextId createdAt with
        ⟨hno, -⟩ | ⟨-, -, q', hyes, henqueued⟩
      · rw [QueueCall.on, hno] at h
        exact Or.inl h
      · rw [QueueCall.on, hyes] at h
        exact Or.inl (henqueued.processing ▸ h)
  | requeueTasks tasks => exact Or.inl (by rwa [QueueCall.on, requeueTasks_processing] at h)
  | transition t' state => exact Or.inl (by rwa [QueueCall.on, transition_processing] at h)
  | complete t' response =>
      have hmem : t ∈ (q.complete t' response).2.processing := h
      rw [complete_processing] at hmem
      exact Or.inl (List.mem_of_mem_filter hmem)
  | cancel t' =>
      have hmem : t ∈ (q.cancel t').2.processing := h
      rw [cancel_processing] at hmem
      exact Or.inl (List.mem_of_mem_filter hmem)
  | setAuthRequired t' => exact Or.inl h
  | setAuthenticated t' => exact Or.inl h

theorem MarkedAt.lt_length (h : MarkedAt ops t i) : i < ops.length :=
  (List.getElem?_eq_some_iff.mp h.marks).1

theorem MarkedAt.mem_processing (h : MarkedAt ops t i) :
    t ∈ (afterCalls .source ops).processing := by
  have hmem := h.since ops.length h.lt_length le_rfl
  rwa [List.take_length] at hmem

/-- A mark lasts while the task stays in processing. -/
theorem MarkedAt.append (h : MarkedAt ops t i)
    (hstays : t ∈ (afterCalls .source (ops ++ [o])).processing) : MarkedAt (ops ++ [o]) t i := by
  have hlt := h.lt_length
  refine ⟨?_, ?_, fun j hij hj => ?_⟩
  · rw [List.getElem?_append_left hlt]
    exact h.marks
  · rw [List.take_append_of_le_length hlt.le]
    exact h.before
  · rw [List.length_append, List.length_singleton] at hj
    rcases hj.eq_or_lt with rfl | hlt'
    · rwa [List.take_of_length_le (by simp)]
    · rw [List.take_append_of_le_length (by omega)]
      exact h.since j hij (by omega)

/-- **A task in processing was marked at some step**, and has been in processing since. -/
theorem exists_markedAt (h : t ∈ (afterCalls .source ops).processing) :
    ∃ i, MarkedAt ops t i := by
  induction ops using List.reverseRecOn with
  | nil => cases h
  | append_singleton ops o ih =>
      have hrun : afterCalls .source (ops ++ [o]) = o.on .source (afterCalls .source ops) := by
        unfold afterCalls
        rw [Sequential.run_append]
        rfl
      by_cases hbefore : t ∈ (afterCalls .source ops).processing
      · obtain ⟨i, hi⟩ := ih hbefore
        exact ⟨i, hi.append h⟩
      · have hmark : o = .markProcessing t := by
          have hon := h
          rw [hrun] at hon
          exact (processing_on hon).resolve_left hbefore
        refine ⟨ops.length, ?_, ?_, fun j hlt hle => ?_⟩
        · rw [List.getElem?_concat_length, hmark]
        · rwa [List.take_left]
        · rw [List.length_append, List.length_singleton] at hle
          rwa [List.take_of_length_le (by simp; omega)]

/-- Only one of them was. -/
theorem FirstMarked.unique (h : FirstMarked ops t) (h' : FirstMarked ops t') : t = t' := by
  obtain ⟨i, hi, hleast⟩ := h
  obtain ⟨i', hi', hleast'⟩ := h'
  obtain rfl : i = i' := le_antisymm (hleast t' i' hi') (hleast' t i hi)
  have hsame := hi.marks.symm.trans hi'.marks
  exact QueueCall.markProcessing.inj (Option.some.inj hsame)

end Marks

/-! ### The hook -/

/-- The task that the hook takes: the first in the order of the set, or the first of a second
look, if the id of that one is falsy. -/
def hookChoice (processing : List TaskId) (turn turn' : ℕ) : Option TaskId :=
  ((processing.rotate turn).head?.filter Json.truthy).or (processing.rotate turn').head?

/-- **What completing a task is to do**: the task is completed and answered, unless its caller was
sent away, and no longer in processing; every other task keeps its state, its response and its
mark. -/
structure CompletesJust (t : TaskId) (response : String) (q q' : TaskQueue) : Prop where
  completed : q'.states.get? t = some .completed
  unmarked : t ∉ q'.processing
  answered : ∀ task, q.pending.get? t = some task →
    q'.cells task.ref = completeCell response (q.cells task.ref)
  other_states : ∀ t', t' ≠ t → q'.states.get? t' = q.states.get? t'
  other_marks : ∀ t', t' ≠ t → (t' ∈ q'.processing ↔ t' ∈ q.processing)
  other_responses : ∀ task, q.pending.get? t = some task → ∀ ref, ref ≠ task.ref →
    q'.cells ref = q.cells ref

/-- **The oldest task is completed**: the one that was marked first, or nothing changes if there
is none. -/
structure CompletesFirst (ops : List QueueCall) (response : String) (q q' : TaskQueue) : Prop where
  first : ∀ t, FirstMarked ops t → CompletesJust t response q q'
  idle : q.processing = [] → q' = q

section Hook

variable {P : Platform} {w : World} {q : TaskQueue} {t : TaskId} {response : String}

theorem completesJust_complete (hpending : t ∈ q.pending) :
    CompletesJust t response q (q.complete t response).2 := by
  refine ⟨?_, ?_, ?_, ?_, ?_, ?_⟩
  · rw [complete_states, if_pos ⟨rfl, hpending⟩]
  · simp
  · intro task htask
    rw [complete_cells, htask]
    exact if_pos rfl
  · intro t' hne
    rw [complete_states, if_neg fun h => hne h.1]
  · intro t' hne
    simp [hne]
  · intro task htask ref hne
    rw [complete_cells, htask]
    exact if_neg fun h => hne (Option.some.inj h).symm

/-- The completion of a task that is pending. -/
theorem alone_completeTask (hhash : t.hashable = true) (hpending : t ∈ w.queue.pending) :
    (completeTask t response).alone (exec P) w =
      some (.done, w.withQueue (w.queue.complete t response).2) := by
  have hstatus : (Op.getStatus t).answer P w =
      .ok ⟨some ((w.queue.states.get? t).getD .working), none⟩ := by
    show w.queue.getStatus t = _
    unfold TaskQueue.getStatus
    rw [if_pos hhash, if_pos hpending]
  unfold completeTask
  rw [alone_act rfl, hstatus]
  rfl

/-- The second look. -/
theorem alone_afterwards (hhash : ∀ t ∈ w.queue.processing, t.hashable = true)
    (hpending : ∀ t ∈ w.queue.processing, t ∈ w.queue.pending) (turn' : ℕ) :
    (postLlmCall.afterwards response turn').alone (exec P) w =
      some (.done, (w.queue.processing.rotate turn').head?.elim w
        fun t => w.withQueue (w.queue.complete t response).2) := by
  have hanswer : (Op.processingTasks turn').answer P w = w.queue.processing.rotate turn' := rfl
  unfold postLlmCall.afterwards
  rw [alone_act rfl, hanswer]
  cases hrotate : w.queue.processing.rotate turn' with
  | nil => rfl
  | cons t ts =>
      have hmem : t ∈ w.queue.processing := by
        rw [← List.mem_rotate (n := turn'), hrotate]
        exact List.mem_cons_self
      exact alone_completeTask (hhash t hmem) (hpending t hmem)

/-- **The hook completes the task that comes first.** -/
theorem alone_postLlmCall (hhash : ∀ t ∈ w.queue.processing, t.hashable = true)
    (hpending : ∀ t ∈ w.queue.processing, t ∈ w.queue.pending) {taskId : Json}
    (hid : taskId.truthy = false) (hresponse : response ≠ "") (turn turn' : ℕ) :
    (postLlmCall taskId response turn turn').alone (exec P) w =
      some (.done, (hookChoice w.queue.processing turn turn').elim w
        fun t => w.withQueue (w.queue.complete t response).2) := by
  have hanswer : (Op.processingTasks turn).answer P w = w.queue.processing.rotate turn := rfl
  have hafter : (postLlmCall.afterwards response turn').alone (exec P) w = _ :=
    alone_afterwards hhash hpending turn'
  unfold postLlmCall hookChoice
  rw [if_neg hresponse, if_neg (by rw [hid]; decide), alone_act rfl, hanswer]
  cases hrotate : w.queue.processing.rotate turn with
  | nil => exact hafter
  | cons t ts =>
      have hmem : t ∈ w.queue.processing := by
        rw [← List.mem_rotate (n := turn), hrotate]
        exact List.mem_cons_self
      dsimp only
      cases htruthy : t.truthy with
      | true =>
          rw [if_pos rfl, List.head?_cons, Option.filter_some, if_pos htruthy]
          exact alone_completeTask (hhash t hmem) (hpending t hmem)
      | false =>
          rw [if_neg Bool.false_ne_true, List.head?_cons, Option.filter_some,
            if_neg (by rw [htruthy]; decide)]
          exact hafter

/-- What the hook takes is in processing. -/
theorem mem_of_hookChoice {processing : List TaskId} {turn turn' : ℕ}
    (h : hookChoice processing turn turn' = some t) : t ∈ processing := by
  unfold hookChoice at h
  rcases Option.or_eq_some_iff.mp h with hfirst | ⟨-, hsecond⟩
  · exact List.mem_rotate.mp (List.mem_of_mem_head? ((Option.filter_eq_some_iff.mp hfirst).1))
  · exact List.mem_rotate.mp (List.mem_of_mem_head? hsecond)

theorem eq_nil_of_hookChoice {processing : List TaskId} {turn turn' : ℕ}
    (h : hookChoice processing turn turn' = none) : processing = [] := by
  unfold hookChoice at h
  have hsecond := (Option.or_eq_none_iff.mp h).2
  rwa [List.head?_eq_none_iff, List.rotate_eq_nil_iff] at hsecond

end Hook

/-- **The hook completes the task that was marked first exactly if the set has it first.** -/
theorem completesFirst_iff (P : Platform) (w : World) (ops : List QueueCall) (taskId : Json)
    (response : String) (turn turn' : ℕ) (hqueue : w.queue = afterCalls .source ops)
    (hhash : ∀ t, .markProcessing t ∈ ops → t.hashable = true)
    (hid : taskId.truthy = false) (hresponse : response ≠ "") :
    ∃ w', (postLlmCall taskId response turn turn').alone (exec P) w = some (.done, w') ∧
      (CompletesFirst ops response w.queue w'.queue ↔
        ∀ t, FirstMarked ops t → hookChoice w.queue.processing turn turn' = some t) := by
  have hkeys : ∀ t ∈ w.queue.processing, t ∈ w.queue.pending := by
    rw [hqueue]
    exact (represented_afterCalls .source ops).processing
  have hhashed : ∀ t ∈ w.queue.processing, t.hashable = true := by
    intro t ht
    rw [hqueue] at ht
    obtain ⟨i, hi⟩ := exists_markedAt ht
    exact hhash t (List.mem_of_getElem? hi.marks)
  refine ⟨_, alone_postLlmCall hhashed hkeys hid hresponse turn turn', ?_⟩
  cases hchoice : hookChoice w.queue.processing turn turn' with
  | none =>
      have hidle := eq_nil_of_hookChoice hchoice
      have hnone : ∀ t, ¬ FirstMarked ops t := by
        rintro t ⟨i, hi, -⟩
        have hmem := hi.mem_processing
        rw [← hqueue, hidle] at hmem
        cases hmem
      exact iff_of_true ⟨fun t ht => absurd ht (hnone t), fun _ => rfl⟩
        fun t ht => absurd ht (hnone t)
  | some chosen =>
      have hmem := mem_of_hookChoice hchoice
      constructor
      · intro h t ht
        -- what was marked first is not in processing any more, so it is what was completed
        have hunmarked := (h.first t ht).unmarked
        obtain ⟨i, hi, -⟩ := ht
        have hmarked := hi.mem_processing
        rw [← hqueue] at hmarked
        by_contra hne
        refine hunmarked ?_
        show t ∈ (w.queue.complete chosen response).2.processing
        rw [complete_processing, List.mem_filter]
        exact ⟨hmarked, by simpa using fun heq => hne (congrArg some heq.symm)⟩
      · intro h
        refine ⟨fun t ht => ?_, fun hidle => ?_⟩
        · obtain rfl := Option.some.inj (h t ht)
          exact completesJust_complete (hkeys _ hmem)
        · rw [hidle] at hmem
          cases hmem

/-- Two tasks, of which the first is marked first. -/
def demoMarks : List QueueCall :=
  [.enqueue (.str "a") "" (.obj []) .null 0, .enqueue (.str "b") "" (.obj []) .null 0,
    .markProcessing (.str "a"), .markProcessing (.str "b")]

/-- The world with the queue after these operations. -/
def worldAfter (ops : List QueueCall) : World :=
  (World.init 0).withQueue (afterCalls .source ops)

theorem hashable_demoMarks (t : TaskId) (h : .markProcessing t ∈ demoMarks) :
    t.hashable = true := by
  simp only [demoMarks, List.mem_cons, QueueCall.markProcessing.injEq, reduceCtorEq, false_or,
    List.not_mem_nil, or_false] at h
  rcases h with rfl | rfl <;> rfl

theorem firstMarked_demoMarks : FirstMarked demoMarks (.str "a") := by
  refine ⟨2, ⟨rfl, by decide, fun j hlt hle => ?_⟩, fun t' i' h' => ?_⟩
  · have hj : j = 3 ∨ j = 4 := by
      have hlength : j ≤ 4 := hle
      omega
    rcases hj with rfl | rfl <;> decide
  · by_contra hlt
    have hmarks := h'.marks
    have hi' : i' = 0 ∨ i' = 1 := by omega
    rcases hi' with rfl | rfl <;> cases hmarks

theorem completesFirst_second_turn :
    ∃ w', (postLlmCall .null "done" 1 0).alone (exec .sample) (worldAfter demoMarks) =
        some (.done, w') ∧
      CompletesFirst demoMarks "done" (worldAfter demoMarks).queue w'.queue := by
  obtain ⟨w', halone, hiff⟩ := completesFirst_iff .sample (worldAfter demoMarks) demoMarks .null
    "done" 1 0 rfl hashable_demoMarks rfl (by decide)
  refine ⟨w', halone, hiff.mpr fun t ht => ?_⟩
  rw [ht.unique firstMarked_demoMarks]
  decide

/-- The set may have the younger task first, and then that one is completed. -/
theorem younger_completed : ¬ ∀ turn turn' : ℕ,
    ∃ w', (postLlmCall .null "done" turn turn').alone (exec .sample) (worldAfter demoMarks) =
        some (.done, w') ∧
      CompletesFirst demoMarks "done" (worldAfter demoMarks).queue w'.queue := by
  intro h
  obtain ⟨w', halone, hfirst⟩ := h 0 0
  have hb : hookChoice (worldAfter demoMarks).queue.processing 0 0 = some (.str "b") := by decide
  rw [alone_postLlmCall (fun t ht => ?_) (represented_afterCalls .source demoMarks).processing rfl
    (by decide), hb] at halone
  · obtain rfl := (Prod.mk.inj (Option.some.inj halone)).2
    exact absurd (hfirst.first _ firstMarked_demoMarks).unmarked (by decide)
  · obtain ⟨i, hi⟩ := exists_markedAt ht
    exact hashable_demoMarks t (List.mem_of_getElem? hi.marks)

end HermesA2A
