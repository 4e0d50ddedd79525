import HermesA2A.Lib.OrderedDict
import HermesA2A.Lib.Sequential
import HermesA2A.Payloads
import Mathlib.Logic.Function.Basic

/-!
# The registry of worker processes

`_run_worker_subprocess` starts a process, registers it under the id of its task and, whatever
happens, unregisters that id and drops the finished processes.  The registry is one dictionary for
all calls, and the ids are chosen by remote callers: two calls may well have the same one.

* `WorkerStep.on` — the steps of any number of calls; a process may exit at any moment.
* `Owned` — the invariant: an entry belongs to a call that has registered and not unregistered.
* `staysCancelable_iff` — the worker of every registered call can be canceled throughout a run, and
  no call removes the running process of another, exactly if each step is `Alone`: it leaves no
  other call of the same id without an entry.

A call and the process it starts have the same number.
-/

namespace HermesA2A

/-! ### The registry -/

/-- `_processes` -/
abbrev WorkerProcesses := OrderedDict TaskId ℕ

/-- `register_worker`; `running` is `poll() is None`. -/
def registerWorker (running : ℕ → Bool) (t : TaskId) (process : ℕ) (processes : WorkerProcesses) :
    Except PyError WorkerProcesses :=
  if t.hashable then
    -- an entry that is left from a finished process goes first
    .ok ((if (processes.get? t).any fun existing => !running existing then processes.erase t
      else processes).set t process)
  else .error .typeError

/-- `unregister_worker` -/
def unregisterWorker (t : TaskId) (processes : WorkerProcesses) : Except PyError WorkerProcesses :=
  if t.hashable then .ok (processes.erase t) else .error .typeError

/-- `cancel_worker`: the process it terminates.  Without one it returns `False`. -/
def cancelWorker (running : ℕ → Bool) (t : TaskId) (processes : WorkerProcesses) :
    Except PyError (Option ℕ) :=
  if t.hashable then .ok ((processes.get? t).filter running) else .error .typeError

/-- `cleanup_zombie_processes` -/
def cleanupZombieProcesses (running : ℕ → Bool) (processes : WorkerProcesses) :
    ℕ × WorkerProcesses :=
  let zombies := processes.entries.filter fun entry => !running entry.2
  (zombies.length, zombies.foldl (fun left entry => left.erase entry.1) processes)

section Registry

variable {running : ℕ → Bool} {t : TaskId} {process : ℕ} {processes : WorkerProcesses}

/-- Registering, by what a lookup finds afterwards. -/
theorem registerWorker_cases (running : ℕ → Bool) (t : TaskId) (process : ℕ)
    (processes : WorkerProcesses) :
    (t.hashable = true ∧ ∃ after, registerWorker running t process processes = .ok after ∧
        ∀ t', after.get? t' = if t' = t then some process else processes.get? t') ∨
      (t.hashable ≠ true ∧ registerWorker running t process processes = .error .typeError) := by
  unfold registerWorker
  by_cases hhash : t.hashable = true
  · rw [if_pos hhash]
    refine Or.inl ⟨hhash, _, rfl, fun t' => ?_⟩
    rw [OrderedDict.get?_set]
    by_cases hsame : t' = t
    · rw [if_pos hsame, if_pos hsame]
    · rw [if_neg hsame, if_neg hsame]
      split_ifs
      · rw [OrderedDict.get?_erase, if_neg hsame]
      · rfl
  · rw [if_neg hhash]
    exact Or.inr ⟨hhash, rfl⟩

theorem unregisterWorker_cases (t : TaskId) (processes : WorkerProcesses) :
    (t.hashable = true ∧ ∃ after, unregisterWorker t processes = .ok after ∧
        ∀ t', after.get? t' = if t' = t then none else processes.get? t') ∨
      (t.hashable ≠ true ∧ unregisterWorker t processes = .error .typeError) := by
  unfold unregisterWorker
  by_cases hhash : t.hashable = true
  · rw [if_pos hhash]
    exact Or.inl ⟨hhash, _, rfl, OrderedDict.get?_erase processes t⟩
  · rw [if_neg hhash]
    exact Or.inr ⟨hhash, rfl⟩

/-- The running processes stay. -/
theorem get?_cleanupZombieProcesses (running : ℕ → Bool) (processes : WorkerProcesses)
    (t : TaskId) :
    (cleanupZombieProcesses running processes).2.get? t = (processes.get? t).filter running := by
  unfold cleanupZombieProcesses
  simp only [OrderedDict.get?_eraseAll, Bool.not_not]

theorem cancelWorker_eq_some_iff :
    cancelWorker running t processes = .ok (some process) ↔
      t.hashable = true ∧ processes.get? t = some process ∧ running process = true := by
  unfold cancelWorker
  split_ifs with hhash
  · simp [hhash, Option.filter_eq_some_iff]
  · simp [hhash]

end Registry

/-! ### The calls -/

/-- Where a call of `_run_worker_subprocess` is. -/
inductive WorkerPhase
  /-- before `Popen` -/
  | started
  /-- between `Popen` and `register_worker` -/
  | spawned
  /-- in `communicate` -/
  | registered
  /-- in `finally`, before `unregister_worker` -/
  | leaving (enlisted : Bool)
  /-- in `finally`, before `cleanup_zombie_processes` -/
  | cleaning
  | left
  deriving DecidableEq

/-- The call has registered its process, and not unregistered it. -/
def WorkerPhase.enlisted : WorkerPhase → Bool
  | registered => true
  | leaving enlisted => enlisted
  | _ => false

/-- The call is about to unregister its task's id. -/
def WorkerPhase.isLeaving : WorkerPhase → Bool
  | leaving _ => true
  | _ => false

/-- The registry, the processes that are running, and where the calls are. -/
structure WorkerState where
  processes : WorkerProcesses
  running : ℕ → Bool
  phase : ℕ → WorkerPhase

/-- Nothing has been started. -/
def WorkerState.init : WorkerState := ⟨.empty, fun _ => false, fun _ => .started⟩

/-- A step of a call, or the exit of a process: by itself, killed by its call after the timeout,
or terminated by `cancel_worker`. -/
inductive WorkerStep
  /-- `Popen`, which may fail. -/
  | spawn (i : ℕ) (succeeds : Bool)
  | register (i : ℕ)
  | exit (process : ℕ)
  /-- `communicate` returns or raises. -/
  | finish (i : ℕ)
  | unregister (i : ℕ)
  | cleanup (i : ℕ)

/-- The call goes on to this phase. -/
def WorkerState.enter (s : WorkerState) (i : ℕ) (phase : WorkerPhase) : WorkerState :=
  { s with phase := Function.update s.phase i phase }

section Steps

variable (ids : ℕ → TaskId)

/-- What a step does; `ids` are the task ids of the calls.  A step that is not the next one of its
call does nothing. -/
def WorkerStep.on : WorkerStep → WorkerState → WorkerState
  | spawn i succeeds, s =>
      if s.phase i = .started then
        if succeeds then { s.enter i .spawned with running := Function.update s.running i true }
        else s.enter i (.leaving false)
      else s
  | register i, s =>
      if s.phase i = .spawned then
        match registerWorker s.running (ids i) i s.processes with
        | .ok processes => { s.enter i .registered with processes := processes }
        | .error _ => s.enter i (.leaving false)
      else s
  | exit process, s => { s with running := Function.update s.running process false }
  | finish i, s => if s.phase i = .registered then s.enter i (.leaving true) else s
  | unregister i, s =>
      if (s.phase i).isLeaving then
        match unregisterWorker (ids i) s.processes with
        | .ok processes => { s.enter i .cleaning with processes := processes }
        | .error _ => s.enter i .left
      else s
  | cleanup i, s =>
      if s.phase i = .cleaning then
        { s.enter i .left with processes := (cleanupZombieProcesses s.running s.processes).2 }
      else s

/-- **The worker of every registered call can be canceled**: while its process is running,
`cancel_worker` for its task id finds a running process of that task. -/
def Cancelable (s : WorkerState) : Prop :=
  ∀ i, (s.phase i).enlisted = true → s.running i = true →
    ∃ process, cancelWorker s.running (ids i) s.processes = .ok (some process) ∧
      s.running process = true ∧ ids process = ids i

/-- **A call's cleanup removes no running process of another call.** -/
def WorkerStep.SparesOthers (step : WorkerStep) (s : WorkerState) : Prop :=
  ∀ i, step = .unregister i ∨ step = .cleanup i →
    ∀ t process, s.processes.get? t = some process → process ≠ i → s.running process = true →
      (step.on ids s).processes.get? t = some process

/-- Another call of the same id is registered, and its process is running. -/
def HasTwin (s : WorkerState) (i : ℕ) : Prop :=
  ∃ j, j ≠ i ∧ ids j = ids i ∧ (s.phase j).enlisted = true ∧ s.running j = true

/-- **The step leaves no other call without an entry**: where the entry of an id is removed, or is
or becomes that of a finished process, no other call of that id is running its process. -/
def WorkerStep.Alone : WorkerStep → WorkerState → Prop
  | register i, s => s.phase i = .spawned → s.running i = false → ¬ HasTwin ids s i
  | exit process, s => s.processes.get? (ids process) = some process → ¬ HasTwin ids s process
  | unregister i, s => (s.phase i).isLeaving = true → ¬ HasTwin ids s i
  | _, _ => True

/-! ### The invariant -/

/-- **An entry belongs to a call that has registered and not unregistered**, under the id of that
call; and these ids are dictionary keys. -/
structure Owned (s : WorkerState) : Prop where
  owner : ∀ t process, s.processes.get? t = some process →
    t = ids process ∧ (s.phase process).enlisted = true
  hashable : ∀ i, (s.phase i).enlisted = true → (ids i).hashable = true

variable {ids} {s : WorkerState} {step : WorkerStep} {i : ℕ}

theorem Owned.init : Owned ids .init where
  owner := fun _ _ h => by cases h
  hashable := fun _ h => by cases h

/-- What `Cancelable` says of the entries. -/
def Findable (ids : ℕ → TaskId) (s : WorkerState) : Prop :=
  ∀ i, (s.phase i).enlisted = true → s.running i = true →
    ∃ process, s.processes.get? (ids i) = some process ∧ s.running process = true

theorem cancelable_iff (hs : Owned ids s) : Cancelable ids s ↔ Findable ids s := by
  unfold Cancelable Findable
  simp only [cancelWorker_eq_some_iff]
  constructor
  · intro h i hi hrun
    obtain ⟨process, ⟨-, hget, hlive⟩, -⟩ := h i hi hrun
    exact ⟨process, hget, hlive⟩
  · intro h i hi hrun
    obtain ⟨process, hget, hlive⟩ := h i hi hrun
    exact ⟨process, ⟨hs.hashable i hi, hget, hlive⟩, hlive, (hs.owner _ _ hget).1.symm⟩

/-- The entry of another running process is that of a twin. -/
theorem hasTwin_of_entry (hs : Owned ids s) {process : ℕ}
    (hget : s.processes.get? (ids i) = some process) (hne : process ≠ i)
    (hrun : s.running process = true) : HasTwin ids s i := by
  obtain ⟨hid, henlisted⟩ := hs.owner _ _ hget
  exact ⟨process, hne, hid.symm, henlisted, hrun⟩

theorem enlisted_update {phase : WorkerPhase} (j : ℕ) :
    (Function.update s.phase i phase j).enlisted =
      if j = i then phase.enlisted else (s.phase j).enlisted := by
  by_cases hj : j = i
  · rw [hj, Function.update_self, if_pos rfl]
  · rw [Function.update_of_ne hj, if_neg hj]

/-! ### The steps, one by one -/

theorem spawn_cases (ids : ℕ → TaskId) (s : WorkerState) (i : ℕ) (succeeds : Bool) :
    (WorkerStep.spawn i succeeds).on ids s = s ∨
      (s.phase i = .started ∧ (WorkerStep.spawn i succeeds).on ids s =
        { s.enter i .spawned with running := Function.update s.running i true }) ∨
      (s.phase i = .started ∧
        (WorkerStep.spawn i succeeds).on ids s = s.enter i (.leaving false)) := by
  by_cases hphase : s.phase i = .started
  · cases succeeds with
    | true => exact Or.inr (Or.inl ⟨hphase, if_pos hphase⟩)
    | false => exact Or.inr (Or.inr ⟨hphase, if_pos hphase⟩)
  · exact Or.inl (if_neg hphase)

/-- A call registers, or its id is no dictionary key. -/
theorem register_cases (ids : ℕ → TaskId) (s : WorkerState) (i : ℕ) :
    (s.phase i ≠ .spawned ∧ (WorkerStep.register i).on ids s = s) ∨
      (s.phase i = .spawned ∧ (ids i).hashable = true ∧ ∃ processes,
        (∀ t, processes.get? t = if t = ids i then some i else s.processes.get? t) ∧
          (WorkerStep.register i).on ids s =
            { s.enter i .registered with processes := processes }) ∨
      (s.phase i = .spawned ∧ (ids i).hashable ≠ true ∧
        (WorkerStep.register i).on ids s = s.enter i (.leaving false)) := by
  by_cases hphase : s.phase i = .spawned
  · rcases registerWorker_cases s.running (ids i) i s.processes with
      ⟨hhash, after, hafter, hget⟩ | ⟨hhash, herror⟩
    · exact Or.inr (Or.inl ⟨hphase, hhash, after, hget,
        by simp only [WorkerStep.on, if_pos hphase, hafter]⟩)
    · exact Or.inr (Or.inr ⟨hphase, hhash,
        by simp only [WorkerStep.on, if_pos hphase, herror]⟩)
  · exact Or.inl ⟨hphase, if_neg hphase⟩

/-- A call unregisters its id, or that is no dictionary key. -/
theorem unregister_cases (ids : ℕ → TaskId) (s : WorkerState) (i : ℕ) :
    ((s.phase i).isLeaving ≠ true ∧ (WorkerStep.unregister i).on ids s = s) ∨
      ((s.phase i).isLeaving = true ∧ ∃ processes,
        (∀ t, processes.get? t = if t = ids i then none else s.processes.get? t) ∧
          (WorkerStep.unregister i).on ids s =
            { s.enter i .cleaning with processes := processes }) ∨
      ((s.phase i).isLeaving = true ∧ (ids i).hashable ≠ true ∧
        (WorkerStep.unregister i).on ids s = s.enter i .left) := by
  by_cases hphase : (s.phase i).isLeaving = true
  · rcases unregisterWorker_cases (ids i) s.processes with
      ⟨hhash, after, hafter, hget⟩ | ⟨hhash, herror⟩
    · exact Or.inr (Or.inl ⟨hphase, after, hget,
        by simp only [WorkerStep.on, if_pos hphase, hafter]⟩)
    · exact Or.inr (Or.inr ⟨hphase, hhash,
        by simp only [WorkerStep.on, if_pos hphase, herror]⟩)
  · exact Or.inl ⟨hphase, if_neg hphase⟩

theorem finish_cases (ids : ℕ → TaskId) (s : WorkerState) (i : ℕ) :
    (WorkerStep.finish i).on ids s = s ∨
      (s.phase i = .registered ∧ (WorkerStep.finish i).on ids s = s.enter i (.leaving true)) := by
  by_cases hphase : s.phase i = .registered
  · exact Or.inr ⟨hphase, if_pos hphase⟩
  · exact Or.inl (if_neg hphase)

theorem cleanup_cases (ids : ℕ → TaskId) (s : WorkerState) (i : ℕ) :
    (WorkerStep.cleanup i).on ids s = s ∨
      (s.phase i = .cleaning ∧ (WorkerStep.cleanup i).on ids s =
        { s.enter i .left with
          processes := (cleanupZombieProcesses s.running s.processes).2 }) := by
  by_cases hphase : s.phase i = .cleaning
  · exact Or.inr ⟨hphase, if_pos hphase⟩
  · exact Or.inl (if_neg hphase)

/-- A step of a call that enters nothing under its id, and leaves the entries of others. -/
theorem Owned.of_entries (hs : Owned ids s) {phase : WorkerPhase} {processes : WorkerProcesses}
    (running : ℕ → Bool)
    (hentry : ∀ t process, processes.get? t = some process →
      (process = i ∧ t = ids i ∧ phase.enlisted = true) ∨
        (s.processes.get? t = some process ∧
          (process = i → phase.enlisted = (s.phase i).enlisted)))
    (hhash : phase.enlisted = true → (ids i).hashable = true) :
    Owned ids ⟨processes, running, Function.update s.phase i phase⟩ := by
  constructor
  · intro t process hget
    show t = ids process ∧ (Function.update s.phase i phase process).enlisted = true
    rw [enlisted_update]
    rcases hentry t process hget with ⟨rfl, ht, henlisted⟩ | ⟨hold, hsame⟩
    · exact ⟨ht, by rw [if_pos rfl, henlisted]⟩
    · obtain ⟨ht, henlisted⟩ := hs.owner t process hold
      refine ⟨ht, ?_⟩
      split_ifs with hi
      · rw [hsame hi, ← hi, henlisted]
      · exact henlisted
  · intro j hj
    change (Function.update s.phase i phase j).enlisted = true at hj
    rw [enlisted_update] at hj
    split_ifs at hj with hi
    · rw [hi]
      exact hhash hj
    · exact hs.hashable j hj

/-- **Every step keeps the invariant.** -/
theorem Owned.on (hs : Owned ids s) (step : WorkerStep) : Owned ids (step.on ids s) := by
  cases step with
  | spawn i succeeds =>
      rcases spawn_cases ids s i succeeds with hon | ⟨hphase, hon⟩ | ⟨hphase, hon⟩
      · rwa [hon]
      · rw [hon]
        exact hs.of_entries _ (fun t process hget => Or.inr ⟨hget, fun _ => by rw [hphase]; rfl⟩)
          fun h => by cases h
      · rw [hon]
        exact hs.of_entries _ (fun t process hget => Or.inr ⟨hget, fun _ => by rw [hphase]; rfl⟩)
          fun h => by cases h
  | register i =>
      rcases register_cases ids s i with
        ⟨-, hon⟩ | ⟨hphase, hhash, processes, hget, hon⟩ | ⟨hphase, -, hon⟩
      · rwa [hon]
      · rw [hon]
        refine hs.of_entries _ (fun t process hentry => ?_) fun _ => hhash
        rw [hget] at hentry
        split_ifs at hentry with ht
        · exact Or.inl ⟨(Option.some.inj hentry).symm, ht, rfl⟩
        · refine Or.inr ⟨hentry, fun hi => ?_⟩
          -- a call that has not registered has no entry
          have henlisted := (hs.owner t process hentry).2
          rw [hi, hphase] at henlisted
          cases henlisted
      · rw [hon]
        exact hs.of_entries _ (fun t process hget => Or.inr ⟨hget, fun _ => by rw [hphase]; rfl⟩)
          fun h => by cases h
  | exit process => exact ⟨hs.owner, hs.hashable⟩
  | finish i =>
      rcases finish_cases ids s i with hon | ⟨hphase, hon⟩
      · rwa [hon]
      · rw [hon]
        exact hs.of_entries _ (fun t process hget => Or.inr ⟨hget, fun _ => by rw [hphase]; rfl⟩)
          fun _ => hs.hashable i (by rw [hphase]; rfl)
  | unregister i =>
      rcases unregister_cases ids s i with
        ⟨-, hon⟩ | ⟨-, processes, hget, hon⟩ | ⟨-, hhash, hon⟩
      · rwa [hon]
      · rw [hon]
        refine hs.of_entries _ (fun t process hentry => ?_) fun h => by cases h
        rw [hget] at hentry
        split_ifs at hentry with ht
        refine Or.inr ⟨hentry, fun hi => absurd ?_ ht⟩
        rw [(hs.owner t process hentry).1, hi]
      · rw [hon]
        refine hs.of_entries _ (fun t process hentry => Or.inr ⟨hentry, fun _ => ?_⟩)
          fun h => by cases h
        exact (Bool.eq_false_of_not_eq_true fun h => hhash (hs.hashable i h)).symm
  | cleanup i =>
      rcases cleanup_cases ids s i with hon | ⟨hphase, hon⟩
      · rwa [hon]
      · rw [hon]
        refine hs.of_entries _ (fun t process hentry => Or.inr ⟨?_, fun _ => by rw [hphase]; rfl⟩)
          fun h => by cases h
        rw [get?_cleanupZombieProcesses] at hentry
        exact (Option.filter_eq_some_iff.mp hentry).1

/-! ### What a step must leave alone -/

theorem sparesOthers_of_same (hon : step.on ids s = s) : step.SparesOthers ids s := by
  intro i _ t process hget _ _
  rw [hon]
  exact hget

theorem sparesOthers_of_ne (hunregister : ∀ i, step ≠ .unregister i)
    (hcleanup : ∀ i, step ≠ .cleanup i) : step.SparesOthers ids s := by
  rintro i (heq | heq)
  · exact absurd heq (hunregister i)
  · exact absurd heq (hcleanup i)

/-- A step that changes neither the entries nor which registered calls are running. -/
theorem Findable.of_frame (h : Findable ids s) {s' : WorkerState}
    (hcalls : ∀ i, (s'.phase i).enlisted = true → s'.running i = true →
      (s.phase i).enlisted = true ∧ s.running i = true)
    (hentries : ∀ t process, s.processes.get? t = some process → s.running process = true →
      s'.processes.get? t = some process ∧ s'.running process = true) : Findable ids s' := by
  intro i hi hrun
  obtain ⟨hi', hrun'⟩ := hcalls i hi hrun
  obtain ⟨process, hget, hlive⟩ := h i hi' hrun'
  exact ⟨process, hentries _ process hget hlive⟩

/-- A call that goes on and does not become registered. -/
theorem Findable.of_enter (h : Findable ids s) {phase : WorkerPhase}
    (hphase : phase.enlisted = true → (s.phase i).enlisted = true) :
    Findable ids (s.enter i phase) := by
  refine h.of_frame (fun j hj hrun => ⟨?_, hrun⟩) fun t process hget hrun => ⟨hget, hrun⟩
  change (Function.update s.phase i phase j).enlisted = true at hj
  rw [enlisted_update] at hj
  split_ifs at hj with hji
  · exact hji ▸ hphase hj
  · exact hj

theorem findable_exit_iff (hs : Owned ids s) (h : Findable ids s) (process : ℕ) :
    Findable ids ((WorkerStep.exit process).on ids s) ↔
      (WorkerStep.exit process).Alone ids s := by
  have hrunning : ∀ j, ((WorkerStep.exit process).on ids s).running j = true ↔
      j ≠ process ∧ s.running j = true := by
    intro j
    show Function.update s.running process false j = true ↔ _
    by_cases hj : j = process
    · simp [hj]
    · simp [hj]
  constructor
  · rintro hfind hentry ⟨j, hne, hid, hj, hrun⟩
    obtain ⟨found, hget, hlive⟩ := hfind j hj ((hrunning j).mpr ⟨hne, hrun⟩)
    rw [hid] at hget
    obtain rfl := Option.some.inj (hentry.symm.trans hget)
    exact ((hrunning _).mp hlive).1 rfl
  · intro halone i hi hrun
    obtain ⟨hne, hrun'⟩ := (hrunning i).mp hrun
    obtain ⟨found, hget, hlive⟩ := h i hi hrun'
    refine ⟨found, hget, (hrunning found).mpr ⟨?_, hlive⟩⟩
    rintro rfl
    have hid := (hs.owner _ _ hget).1
    exact halone (hid ▸ hget) ⟨i, hne, hid, hi, hrun'⟩

theorem findable_register_iff {processes : WorkerProcesses} (h : Findable ids s)
    (hphase : s.phase i = .spawned)
    (hget : ∀ t, processes.get? t = if t = ids i then some i else s.processes.get? t) :
    Findable ids { s.enter i .registered with processes := processes } ↔
      (WorkerStep.register i).Alone ids s := by
  have henlisted : ∀ j, j ≠ i →
      (Function.update s.phase i .registered j).enlisted = (s.phase j).enlisted :=
    fun j hj => (enlisted_update j).trans (if_neg hj)
  constructor
  · rintro hfind - hdead ⟨j, hne, hid, hj, hrun⟩
    obtain ⟨found, hfound, hlive⟩ := hfind j ((henlisted j hne).trans hj) hrun
    change processes.get? (ids j) = some found at hfound
    rw [hget, if_pos hid] at hfound
    obtain rfl := Option.some.inj hfound
    exact absurd (hlive.symm.trans hdead) (by decide)
  · intro halone j hj hrun
    show ∃ process, processes.get? (ids j) = some process ∧ s.running process = true
    rw [hget]
    by_cases hid : ids j = ids i
    · rw [if_pos hid]
      refine ⟨i, rfl, ?_⟩
      by_cases hji : j = i
      · exact hji ▸ hrun
      · by_contra hdead
        exact halone hphase (Bool.eq_false_of_not_eq_true hdead)
          ⟨j, hji, hid, (henlisted j hji).symm.trans hj, hrun⟩
    · rw [if_neg hid]
      have hji : j ≠ i := fun heq => hid (congrArg ids heq)
      exact h j ((henlisted j hji).symm.trans hj) hrun

/-- **Unregistering**: the other calls are spared and stay cancelable exactly if there is no twin. -/
theorem findable_unregister_iff {processes : WorkerProcesses} (hs : Owned ids s)
    (h : Findable ids s) (hphase : (s.phase i).isLeaving = true)
    (hget : ∀ t, processes.get? t = if t = ids i then none else s.processes.get? t)
    (hon : (WorkerStep.unregister i).on ids s =
      { s.enter i .cleaning with processes := processes }) :
    ((WorkerStep.unregister i).SparesOthers ids s ∧
        Findable ids ((WorkerStep.unregister i).on ids s)) ↔
      (WorkerStep.unregister i).Alone ids s := by
  have hentries : ∀ t, ((WorkerStep.unregister i).on ids s).processes.get? t =
      if t = ids i then none else s.processes.get? t := by
    rw [hon]
    exact hget
  have hphases : ∀ j, (((WorkerStep.unregister i).on ids s).phase j).enlisted =
      if j = i then false else (s.phase j).enlisted := by
    rw [hon]
    exact enlisted_update
  have hrunning : ((WorkerStep.unregister i).on ids s).running = s.running := by
    rw [hon]
    rfl
  constructor
  · rintro ⟨-, hfind⟩ - ⟨j, hne, hid, hj, hrun⟩
    obtain ⟨found, hfound, -⟩ := hfind j (by rwa [hphases, if_neg hne]) (by rwa [hrunning])
    rw [hentries, if_pos hid] at hfound
    cases hfound
  · intro halone
    have hnone := halone hphase
    constructor
    · intro i' heq t process hentry hne hrun
      obtain rfl : i = i' := by
        rcases heq with heq | heq
        · exact WorkerStep.unregister.inj heq
        · cases heq
      rw [hentries, if_neg]
      · exact hentry
      · rintro rfl
        exact hnone (hasTwin_of_entry hs hentry hne hrun)
    · intro j hj hrun
      rw [hphases] at hj
      rw [hrunning] at hrun ⊢
      split_ifs at hj with hji
      rw [hentries, if_neg fun hid => hnone ⟨j, hji, hid, hj, hrun⟩]
      exact h j hj hrun

/-- **One step**: the calls stay cancelable, and others are spared, exactly if it is alone. -/
theorem staysCancelable_on_iff (hs : Owned ids s) (h : Cancelable ids s) (step : WorkerStep) :
    (step.SparesOthers ids s ∧ Cancelable ids (step.on ids s)) ↔ step.Alone ids s := by
  rw [cancelable_iff hs] at h
  rw [cancelable_iff (hs.on step)]
  -- the steps that touch no entry of a running process
  have hkeeps : (∀ i, step ≠ .unregister i) → (∀ i, step ≠ .cleanup i) → step.Alone ids s →
      Findable ids (step.on ids s) →
      ((step.SparesOthers ids s ∧ Findable ids (step.on ids s)) ↔ step.Alone ids s) :=
    fun hunregister hcleanup halone hfind =>
      iff_of_true ⟨sparesOthers_of_ne hunregister hcleanup, hfind⟩ halone
  cases step with
  | spawn i succeeds =>
      refine hkeeps (fun _ heq => by cases heq) (fun _ heq => by cases heq) trivial ?_
      rcases spawn_cases ids s i succeeds with hon | ⟨-, hon⟩ | ⟨-, hon⟩
      · rwa [hon]
      · rw [hon]
        refine h.of_frame (fun j hj hrun => ?_) fun t process hget hrun => ⟨hget, ?_⟩
        · change (Function.update s.phase i .spawned j).enlisted = true at hj
          rw [enlisted_update] at hj
          split_ifs at hj with hji
          · cases hj
          · exact ⟨hj, (Function.update_of_ne hji true s.running).symm.trans hrun⟩
        · show Function.update s.running i true process = true
          by_cases hi : process = i
          · rw [hi, Function.update_self]
          · rwa [Function.update_of_ne hi]
      · rw [hon]
        exact h.of_enter fun h => by cases h
  | register i =>
      rcases register_cases ids s i with
        ⟨hphase, hon⟩ | ⟨hphase, -, processes, hget, hon⟩ | ⟨hphase, hhash, hon⟩
      · exact hkeeps (fun _ heq => by cases heq) (fun _ heq => by cases heq)
          (fun heq => absurd heq hphase) (by rwa [hon])
      · rw [hon]
        exact (and_iff_right (sparesOthers_of_ne (fun _ heq => by cases heq)
          fun _ heq => by cases heq)).trans (findable_register_iff h hphase hget)
      · refine hkeeps (fun _ heq => by cases heq) (fun _ heq => by cases heq) ?_ ?_
        · rintro - - ⟨j, -, hid, hj, -⟩
          exact hhash (hid ▸ hs.hashable j hj)
        · rw [hon]
          exact h.of_enter fun h => by cases h
  | exit process =>
      exact (and_iff_right (sparesOthers_of_ne (fun _ heq => by cases heq)
        fun _ heq => by cases heq)).trans (findable_exit_iff hs h process)
  | finish i =>
      refine hkeeps (fun _ heq => by cases heq) (fun _ heq => by cases heq) trivial ?_
      rcases finish_cases ids s i with hon | ⟨hphase, hon⟩
      · rwa [hon]
      · rw [hon]
        exact h.of_enter fun _ => by rw [hphase]; rfl
  | unregister i =>
      rcases unregister_cases ids s i with
        ⟨hphase, hon⟩ | ⟨hphase, processes, hget, hon⟩ | ⟨-, hhash, hon⟩
      · exact iff_of_true ⟨sparesOthers_of_same hon, by rwa [hon]⟩ fun heq => absurd heq hphase
      · exact findable_unregister_iff hs h hphase hget hon
      · refine iff_of_true ⟨fun i' heq t process hget _ _ => ?_, ?_⟩ ?_
        · rw [hon]
          exact hget
        · rw [hon]
          exact h.of_enter fun h => by cases h
        · rintro - ⟨j, -, hid, hj, -⟩
          exact hhash (hid ▸ hs.hashable j hj)
  | cleanup i =>
      have hentries : ∀ t process, s.processes.get? t = some process → s.running process = true →
          ((WorkerStep.cleanup i).on ids s).processes.get? t = some process := by
        intro t process hget hrun
        rcases cleanup_cases ids s i with hon | ⟨-, hon⟩
        · rwa [hon]
        · rw [hon]
          exact (get?_cleanupZombieProcesses s.running s.processes t).trans
            (by rw [hget, Option.filter_some, if_pos hrun])
      refine iff_of_true ⟨fun i' _ t process hget _ hrun => hentries t process hget hrun, ?_⟩ trivial
      rcases cleanup_cases ids s i with hon | ⟨-, hon⟩
      · rwa [hon]
      · have hcalls : Findable ids (s.enter i .left) := h.of_enter fun h => by cases h
        intro j hj hrun
        rw [hon] at hj hrun
        obtain ⟨process, hget, hlive⟩ := hcalls j hj hrun
        refine ⟨process, hentries _ process hget hlive, ?_⟩
        rw [hon]
        exact hlive

end Steps

/-- **The worker of every registered call can be canceled throughout a run, and no call's cleanup
removes the running process of another, exactly if every step is alone.** -/
theorem staysCancelable_iff (ids : ℕ → TaskId) (steps : List WorkerStep) :
    (Sequential.Each (WorkerStep.on ids) (WorkerStep.SparesOthers ids) steps .init ∧
        Sequential.Always (WorkerStep.on ids) (Cancelable ids) steps .init) ↔
      Sequential.Each (WorkerStep.on ids) (WorkerStep.Alone ids) steps .init :=
  Sequential.each_and_always_iff (J := Owned ids) (fun step _ hs _ => hs.on step)
    (fun step _ hs _ h => staysCancelable_on_iff hs h step) Owned.init
    (fun _ h => by cases h) (Sequential.each_true ..)

/-- **Two calls of one task id.**  The worker of the second one exits, and while that call cleans up,
the worker of the first one is running and cannot be canceled any more. -/
theorem twin_unregistered :
    let steps : List WorkerStep := [.spawn 0 true, .register 0, .spawn 1 true, .register 1, .exit 1,
      .finish 1, .unregister 1]
    let last := Sequential.run (WorkerStep.on fun _ => .str "t") steps .init
    (last.phase 0).enlisted = true ∧ last.running 0 = true ∧
      cancelWorker last.running (.str "t") last.processes = .ok none ∧
      ¬ (Sequential.Each (WorkerStep.on fun _ => .str "t")
            (WorkerStep.SparesOthers fun _ => .str "t") steps .init ∧
          Sequential.Always (WorkerStep.on fun _ => .str "t")
            (Cancelable fun _ => .str "t") steps .init) := by
  refine ⟨by decide, by decide, by decide, fun h => ?_⟩
  have hlast := Sequential.always_iff.mp h.2 _ [] (List.append_nil _).symm
  obtain ⟨process, hfound, -⟩ := hlast 0 (by decide) (by decide)
  have hnone := hfound.symm.trans (show _ = .ok none by decide)
  cases hnone

end HermesA2A
