import HermesA2A.Lib.Prog
import Mathlib.Logic.Relation
import Mathlib.Data.List.Basic
import Mathlib.Data.List.Induction

/-!
# Interleaving programs over a shared state

A `Machine` says what each operation does to a shared state and which program a
*call* runs.  A configuration is the shared state, the threads started so far
(each with its call and what is left of its program) and the **trace**: every
operation performed, with its thread and its answer, oldest first.

`Machine.Step ok` is one step of the interleaving semantics: start a call, let
the environment move, or let some thread perform its next operation.  `ok` is a
condition on the operations performed, so `Machine.Reaches ok` are the runs
whose every operation meets it; `fun _ _ _ => True` gives all runs.

The rules this module is for:

* `Reaches.meets` — every thread meets, in any interleaving, what its program
  meets alone (`Prog.Meets`);
* `Reaches.event_pre` — the same, read off an event of the trace;
* `Reaches.invariant` — an invariant of trace and shared state, proved one
  operation at a time;
* `Reaches.relies` — an invariant of the shared state that the threads keep together,
  each relying on what it says about the answers; `Reaches.relies_recorded` — the same
  where both are about what the run has recorded;
* `Reaches.config_invariant` — the same for whole configurations, where it
  matters which threads have ended;
* `ends_of_steps` — an ended thread stays as it is;
* `Reaches.along` — what the operations alone determine can be read off the trace;
* `Reaches.conserves` — what is put in is taken out, or still there;
* `steps_of_play` — a schedule that executes is a run.
-/

universe u v w x y z

variable {Op : Type u} {Res : Op → Type v} {α : Type w} {σ : Type x} {ε : Type y} {ι : Type z}

/-- What the operations do (`none`: blocked), how the environment can move, and
the program each call runs. -/
structure Machine (Op : Type u) (Res : Op → Type v) (σ : Type x) (ε : Type y) (ι : Type z)
    (α : Type w) where
  exec : (o : Op) → σ → Option (Res o × σ)
  env : ε → σ → σ
  prog : ι → Prog Op Res α

namespace Machine

/-- A configuration of the interleaving semantics. -/
structure Config (Op : Type u) (Res : Op → Type v) (σ : Type x) (ι : Type z) (α : Type w) where
  shared : σ
  /-- The threads, by starting order: the call, and what is left of its program. -/
  threads : List (ι × Prog Op Res α)
  /-- Every operation performed, oldest first. -/
  trace : List (ℕ × Act Op Res)

/-- The operations one thread performs in a trace. -/
def historyOf (i : ℕ) (trace : List (ℕ × Act Op Res)) : List (Act Op Res) :=
  (trace.filter fun e => e.1 = i).map Prod.snd

@[simp] theorem historyOf_nil (i : ℕ) : historyOf i ([] : List (ℕ × Act Op Res)) = [] := rfl

@[simp] theorem historyOf_snoc_self (i : ℕ) (a : Act Op Res) (trace : List (ℕ × Act Op Res)) :
    historyOf i (trace ++ [(i, a)]) = historyOf i trace ++ [a] := by
  simp [historyOf]

theorem historyOf_snoc_of_ne {i j : ℕ} (hne : j ≠ i) (a : Act Op Res)
    (trace : List (ℕ × Act Op Res)) : historyOf i (trace ++ [(j, a)]) = historyOf i trace := by
  simp [historyOf, hne]

@[simp] theorem mem_historyOf {i : ℕ} {a : Act Op Res} {trace : List (ℕ × Act Op Res)} :
    a ∈ historyOf i trace ↔ (i, a) ∈ trace := by
  simp only [historyOf, List.mem_map, List.mem_filter, decide_eq_true_eq]
  constructor
  · rintro ⟨⟨j, b⟩, ⟨hmem, rfl⟩, rfl⟩; exact hmem
  · intro hmem; exact ⟨(i, a), ⟨hmem, rfl⟩, rfl⟩

theorem historyOf_eq_nil {i : ℕ} {trace : List (ℕ × Act Op Res)}
    (h : ∀ a, (i, a) ∉ trace) : historyOf i trace = [] := by
  rw [List.eq_nil_iff_forall_not_mem]
  intro a ha
  exact h a (mem_historyOf.mp ha)

/-- Where an event stands in a thread's history, it stands in the trace. -/
theorem split_of_historyOf {i : ℕ} {a : Act Op Res} {h₁ h₂ : List (Act Op Res)} :
    ∀ {trace : List (ℕ × Act Op Res)}, historyOf i trace = h₁ ++ a :: h₂ →
      ∃ tr₁ tr₂, trace = tr₁ ++ (i, a) :: tr₂ ∧ historyOf i tr₁ = h₁ := by
  intro trace h
  obtain ⟨l₁, l₂, hfilter, hl₁, hl₂⟩ := List.map_eq_append_iff.mp h
  obtain ⟨⟨j, b⟩, l₂, rfl, hb, -⟩ := List.map_eq_cons_iff.mp hl₂
  obtain rfl : b = a := hb
  obtain ⟨tr₁, rest, rfl, htr₁, hrest⟩ := List.filter_eq_append_iff.mp hfilter
  obtain ⟨between, tr₂, rfl, hbetween, hj, -⟩ := List.filter_eq_cons_iff.mp hrest
  obtain rfl : j = i := of_decide_eq_true hj
  refine ⟨tr₁ ++ between, tr₂, by simp, ?_⟩
  rw [historyOf, List.filter_append, htr₁, List.filter_eq_nil_iff.mpr hbetween,
    List.append_nil, hl₁]

/-- What is read off events that are all of one thread, is read off its history. -/
theorem flatMap_historyOf {β : Type*} {f : Act Op Res → List β} {i : ℕ} :
    ∀ {trace : List (ℕ × Act Op Res)}, (∀ e ∈ trace, f e.2 ≠ [] → e.1 = i) →
      (trace.map Prod.snd).flatMap f = (historyOf i trace).flatMap f := by
  intro trace
  induction trace with
  | nil => exact fun _ => rfl
  | cons e trace ih =>
      intro h
      obtain ⟨hhead, htail⟩ := List.forall_mem_cons.mp h
      rw [List.map_cons, List.flatMap_cons, ih htail]
      by_cases hi : e.1 = i
      · simp [historyOf, hi]
      · rw [not_ne_iff.mp (mt hhead hi)]
        simp [historyOf, hi]

namespace Config

/-- The history of one thread. -/
def history (c : Config Op Res σ ι α) (i : ℕ) : List (Act Op Res) := historyOf i c.trace

/-- Thread `i` runs the call `x`. -/
def Calls (c : Config Op Res σ ι α) (i : ℕ) (x : ι) : Prop :=
  ∃ p, c.threads[i]? = some (x, p)

/-- Thread `i`, running the call `x`, has ended with `a`. -/
def Ends (c : Config Op Res σ ι α) (i : ℕ) (x : ι) (a : α) : Prop :=
  c.threads[i]? = some (x, .ret a)

/-- What thread `i` has ended with. -/
def outcome? (c : Config Op Res σ ι α) (i : ℕ) : Option α :=
  match c.threads[i]? with
  | some (_, .ret a) => some a
  | _ => none

theorem Calls.ends {c : Config Op Res σ ι α} {i : ℕ} {x : ι} {a : α} (hcall : c.Calls i x)
    (h : c.outcome? i = some a) : c.Ends i x a := by
  obtain ⟨p, hp⟩ := hcall
  unfold outcome? at h
  rw [hp] at h
  cases p with
  | ret b =>
      obtain rfl := Option.some.inj h
      exact hp
  | step o k => cases h

/-- Thread `i` has ended. -/
def Ended (c : Config Op Res σ ι α) (i : ℕ) : Prop := ∃ x a, c.Ends i x a

theorem ended_of_outcome? {c : Config Op Res σ ι α} {i : ℕ} {a : α} (h : c.outcome? i = some a) :
    c.Ended i := by
  unfold outcome? at h
  split at h
  · rename_i x b heq
    exact ⟨x, b, heq⟩
  · cases h

/-- Has every thread ended? -/
def allEnded (c : Config Op Res σ ι α) : Bool :=
  c.threads.all fun y =>
    match y.2 with
    | .ret _ => true
    | .step .. => false

theorem ended_of_allEnded {c : Config Op Res σ ι α} (h : c.allEnded = true) {i : ℕ} {x : ι}
    (hcall : c.Calls i x) : c.Ended i := by
  obtain ⟨p, hp⟩ := hcall
  have hended := List.all_eq_true.mp h _ (List.mem_of_getElem? hp)
  cases p with
  | ret a => exact ⟨x, a, hp⟩
  | step o k => cases hended

/-- The configuration after one more call. -/
abbrev called (c : Config Op Res σ ι α) (x : ι) (p : Prog Op Res α) : Config Op Res σ ι α :=
  { c with threads := c.threads ++ [(x, p)] }

/-- The configuration after thread `i` has performed `o`. -/
abbrev acted (c : Config Op Res σ ι α) (i : ℕ) (x : ι) (o : Op) (r : Res o) (p : Prog Op Res α)
    (s' : σ) : Config Op Res σ ι α :=
  { shared := s'
    threads := c.threads.set i (x, p)
    trace := c.trace ++ [(i, ⟨o, r⟩)] }

end Config

variable (M : Machine Op Res σ ε ι α)

/-- A condition on the operations of a run. -/
abbrev Guard (Op : Type u) (Res : Op → Type v) (σ : Type x) (ι : Type z) (α : Type w) :=
  Config Op Res σ ι α → ℕ → Op → Prop

/-- One step of the interleaving semantics. -/
inductive Step (ok : Guard Op Res σ ι α) : Config Op Res σ ι α → Config Op Res σ ι α → Prop
  | call (c : Config Op Res σ ι α) (x : ι) :
      Step ok c (c.called x (M.prog x))
  | env (c : Config Op Res σ ι α) (e : ε) : Step ok c { c with shared := M.env e c.shared }
  | act {c : Config Op Res σ ι α} {i : ℕ} {x : ι} {o : Op} {k : Res o → Prog Op Res α} {r : Res o}
      {s' : σ} (thread : c.threads[i]? = some (x, .step o k)) (guard : ok c i o)
      (exec : M.exec o c.shared = some (r, s')) :
      Step ok c (c.acted i x o r (k r) s')

/-- No call has been started. -/
def start (s : σ) : Config Op Res σ ι α := ⟨s, [], []⟩

/-- The configurations of the runs from `s` whose operations all meet `ok`. -/
def Reaches (ok : Guard Op Res σ ι α) (s : σ) (c : Config Op Res σ ι α) : Prop :=
  Relation.ReflTransGen (M.Step ok) (start s) c

variable {M} {ok ok' : Guard Op Res σ ι α} {s₀ : σ} {c c' : Config Op Res σ ι α}

theorem Step.mono (h : ∀ c i o, ok c i o → ok' c i o) (hstep : M.Step ok c c') :
    M.Step ok' c c' := by
  cases hstep with
  | call x => exact .call c x
  | env e => exact .env c e
  | act thread guard exec => exact .act thread (h _ _ _ guard) exec

theorem Reaches.mono (h : ∀ c i o, ok c i o → ok' c i o) (hc : M.Reaches ok s₀ c) :
    M.Reaches ok' s₀ c := by
  induction hc with
  | refl => exact .refl
  | tail _ hstep ih => exact .tail ih (hstep.mono h)

/-! ## Threads -/

/-- Only started threads leave events. -/
theorem Reaches.lt_length (hc : M.Reaches ok s₀ c) :
    ∀ {i : ℕ} {a : Act Op Res}, (i, a) ∈ c.trace → i < c.threads.length := by
  induction hc with
  | refl => intro i a h; cases h
  | tail _ hstep ih =>
      intro i a h
      cases hstep with
      | call x =>
          have := ih h
          rw [List.length_append]
          omega
      | env => exact ih h
      | act thread _ _ =>
          rw [List.length_set]
          rcases List.mem_append.mp h with h | h
          · exact ih h
          · obtain ⟨rfl, -⟩ := Prod.mk.inj (List.mem_singleton.mp h)
            exact (List.getElem?_eq_some_iff.mp thread).1

/-- **A thread meets in every interleaving what its program meets alone.** -/
theorem Reaches.meets {pre : ι → List (Act Op Res) → Op → Prop}
    {post : ι → List (Act Op Res) → α → Prop}
    (hmeets : ∀ x, (M.prog x).Meets (pre x) (post x) []) (hc : M.Reaches ok s₀ c) :
    ∀ {i : ℕ} {x : ι} {p : Prog Op Res α}, c.threads[i]? = some (x, p) →
      p.Meets (pre x) (post x) (c.history i) := by
  induction hc with
  | refl => intro i x p h; simp [start] at h
  | @tail b _ hreach hstep ih =>
      intro i x p h
      cases hstep with
      | env => exact ih h
      | call y =>
          rcases Nat.lt_or_ge i b.threads.length with hlt | hge
          · rw [List.getElem?_append_left hlt] at h
            exact ih h
          · -- the new thread: nothing in the trace can be its
            have hnew : b.history i = [] := by
              refine historyOf_eq_nil fun a ha => ?_
              exact absurd (Reaches.lt_length hreach ha) (by omega)
            rw [List.getElem?_append_right hge] at h
            have hpair : (y, M.prog y) = (x, p) := by
              have hmem := List.mem_of_getElem? h
              exact (List.mem_singleton.mp hmem).symm
            obtain ⟨rfl, rfl⟩ := Prod.mk.inj hpair
            change (M.prog y).Meets _ _ (b.history i)
            rw [hnew]
            exact hmeets y
      | @act j y o k r s' thread guard exec =>
          by_cases hij : j = i
          · subst hij
            have hlt : j < b.threads.length := (List.getElem?_eq_some_iff.mp thread).1
            rw [List.getElem?_set_self hlt] at h
            obtain ⟨rfl, rfl⟩ := Prod.mk.inj (Option.some.inj h)
            have := (ih thread).2 r
            simpa [Config.history] using this
          · -- the operation of another thread is not in this one's history
            rw [List.getElem?_set_ne hij] at h
            have := ih h
            simpa [Config.history, historyOf_snoc_of_ne hij] using this

/-- What the programs yield, the threads have done when they end. -/
theorem Reaches.yields {good : (o : Op) → Res o → Prop}
    {pre : ι → List (Act Op Res) → Op → Prop} {ends : ι → List (Act Op Res) → α → Prop}
    (hprog : ∀ x, (M.prog x).Yields good (pre x) (ends x)) (hc : M.Reaches ok s₀ c) {i : ℕ}
    {x : ι} {a : α} (hends : c.Ends i x a) (hgood : ∀ e ∈ c.history i, good e.op e.res) :
    ends x (c.history i) a :=
  hc.meets (fun x => (hprog x).meets) hends hgood

/-- The same of the operation that a thread performs next. -/
theorem Reaches.yields_next {good : (o : Op) → Res o → Prop}
    {pre : ι → List (Act Op Res) → Op → Prop} {ends : ι → List (Act Op Res) → α → Prop}
    (hprog : ∀ x, (M.prog x).Yields good (pre x) (ends x)) (hc : M.Reaches ok s₀ c) {i : ℕ}
    {x : ι} {o : Op} {k : Res o → Prog Op Res α} (hthread : c.threads[i]? = some (x, .step o k))
    (hgood : ∀ e ∈ c.history i, good e.op e.res) : pre x (c.history i) o :=
  (hc.meets (fun x => (hprog x).meets) hthread).1 hgood

/-- Every event's thread is there, with the call it was started with. -/
theorem Step.calls (hstep : M.Step ok c c') {i : ℕ} {x : ι} (h : c.Calls i x) : c'.Calls i x := by
  obtain ⟨p, hp⟩ := h
  cases hstep with
  | call y =>
      exact ⟨p, by rw [List.getElem?_append_left (List.getElem?_eq_some_iff.mp hp).1]; exact hp⟩
  | env => exact ⟨p, hp⟩
  | @act j y o k r s' thread guard exec =>
      by_cases hij : j = i
      · subst hij
        have hlt : j < c.threads.length := (List.getElem?_eq_some_iff.mp thread).1
        obtain ⟨rfl, -⟩ := Prod.mk.inj (Option.some.inj (hp.symm.trans thread))
        exact ⟨k r, by rw [List.getElem?_set_self hlt]⟩
      · exact ⟨p, by rw [List.getElem?_set_ne hij]; exact hp⟩

theorem calls_of_steps (hsteps : Relation.ReflTransGen (M.Step ok) c c') {i : ℕ} {x : ι}
    (h : c.Calls i x) : c'.Calls i x := by
  induction hsteps with
  | refl => exact h
  | tail _ hstep ih => exact hstep.calls ih

/-- A thread that has ended stays as it is. -/
theorem Step.ends (hstep : M.Step ok c c') {i : ℕ} {x : ι} {a : α} (h : c.Ends i x a) :
    c'.Ends i x a ∧ c'.history i = c.history i := by
  cases hstep with
  | call y =>
      refine ⟨?_, rfl⟩
      change (c.threads ++ _)[i]? = _
      rw [List.getElem?_append_left (List.getElem?_eq_some_iff.mp h).1]
      exact h
  | env => exact ⟨h, rfl⟩
  | @act j y o k r s' thread guard exec =>
      have hij : j ≠ i := by
        rintro rfl
        have := (Prod.mk.inj (Option.some.inj (h.symm.trans thread))).2
        cases this
      refine ⟨?_, historyOf_snoc_of_ne hij _ _⟩
      change (c.threads.set j _)[i]? = _
      rw [List.getElem?_set_ne hij]
      exact h

theorem Step.ended (hstep : M.Step ok c c') {i : ℕ} (h : c.Ended i) : c'.Ended i := by
  obtain ⟨x, a, h⟩ := h
  exact ⟨x, a, (hstep.ends h).1⟩

theorem ends_of_steps (hsteps : Relation.ReflTransGen (M.Step ok) c c') {i : ℕ} {x : ι} {a : α}
    (h : c.Ends i x a) : c'.Ends i x a ∧ c'.history i = c.history i := by
  induction hsteps with
  | refl => exact ⟨h, rfl⟩
  | tail _ hstep ih =>
      obtain ⟨hends, hhist⟩ := hstep.ends ih.1
      exact ⟨hends, hhist.trans ih.2⟩

/-- The trace only grows. -/
theorem Step.trace_prefix (hstep : M.Step ok c c') : c.trace <+: c'.trace := by
  cases hstep with
  | call => exact List.prefix_rfl
  | env => exact List.prefix_rfl
  | act => exact List.prefix_append _ _

/-! ## Events and invariants -/

/-- **Every event was a step**: the configuration it was performed in, the thread's
program there, the guard it met and what it answered. -/
theorem Reaches.event (hc : M.Reaches ok s₀ c) :
    ∀ {tr₁ tr₂ : List (ℕ × Act Op Res)} {i : ℕ} {a : Act Op Res},
      c.trace = tr₁ ++ (i, a) :: tr₂ →
        ∃ (b : Config Op Res σ ι α) (x : ι) (k : Res a.op → Prog Op Res α) (s' : σ),
          M.Reaches ok s₀ b ∧ b.trace = tr₁ ∧ b.threads[i]? = some (x, .step a.op k) ∧
            ok b i a.op ∧ M.exec a.op b.shared = some (a.res, s') ∧
              Relation.ReflTransGen (M.Step ok) b c := by
  induction hc with
  | refl => intro tr₁ tr₂ i a h; simp [start] at h
  | @tail b d hreach hstep ih =>
      intro tr₁ tr₂ i a h
      by_cases hold : ∃ tr₂', b.trace = tr₁ ++ (i, a) :: tr₂'
      · obtain ⟨tr₂', hold⟩ := hold
        obtain ⟨b', x, k, s', hb, htr, hthread, hok, hexec, hsteps⟩ := ih hold
        exact ⟨b', x, k, s', hb, htr, hthread, hok, hexec, hsteps.tail hstep⟩
      · -- the event is the one this step adds
        have hstep' := hstep
        cases hstep with
        | call y => exact absurd ⟨tr₂, h⟩ hold
        | env => exact absurd ⟨tr₂, h⟩ hold
        | @act j y o k r s' thread guard exec =>
            rcases List.eq_nil_or_concat tr₂ with rfl | ⟨tr₂, e, rfl⟩
            · obtain ⟨htr, hev⟩ := List.append_inj' h rfl
              obtain ⟨rfl, rfl⟩ := Prod.mk.inj (List.singleton_inj.mp hev)
              exact ⟨b, y, k, s', hreach, htr, thread, guard, exec, .single hstep'⟩
            · have h' : b.trace ++ [(j, ⟨o, r⟩)] = (tr₁ ++ (i, a) :: tr₂) ++ [e] := by
                simpa using h
              exact absurd ⟨tr₂, (List.append_inj' h' rfl).1⟩ hold

/-- **The precondition of an event**: what its thread's program guarantees about
the operation, given what the thread had done before. -/
theorem Reaches.event_pre {pre : ι → List (Act Op Res) → Op → Prop}
    {post : ι → List (Act Op Res) → α → Prop}
    (hmeets : ∀ x, (M.prog x).Meets (pre x) (post x) []) (hc : M.Reaches ok s₀ c)
    {tr₁ tr₂ : List (ℕ × Act Op Res)} {i : ℕ} {a : Act Op Res}
    (h : c.trace = tr₁ ++ (i, a) :: tr₂) : ∃ x, c.Calls i x ∧ pre x (historyOf i tr₁) a.op := by
  obtain ⟨b, x, k, s', hb, rfl, hthread, -, -, hsteps⟩ := hc.event h
  exact ⟨x, calls_of_steps hsteps ⟨_, hthread⟩, (hb.meets hmeets hthread).1⟩

/-- **Invariants.**  A property of trace and shared state holds throughout every
run if it holds at the start, survives the environment, and survives each single
operation; the step may use that the configuration before it was reached, that
the operation met the guard, and what the acting thread's call is. -/
theorem Reaches.invariant {I : List (ℕ × Act Op Res) → σ → Prop} (hstart : I [] s₀)
    (henv : ∀ tr s e, I tr s → I tr (M.env e s))
    (hact : ∀ (c : Config Op Res σ ι α) (i : ℕ) (x : ι) (o : Op) (k : Res o → Prog Op Res α)
      (r : Res o) (s' : σ), M.Reaches ok s₀ c → I c.trace c.shared →
      c.threads[i]? = some (x, .step o k) → ok c i o → M.exec o c.shared = some (r, s') →
      I (c.trace ++ [(i, ⟨o, r⟩)]) s')
    (hc : M.Reaches ok s₀ c) : I c.trace c.shared := by
  induction hc with
  | refl => exact hstart
  | tail hreach hstep ih =>
      cases hstep with
      | call => exact ih
      | env e => exact henv _ _ e ih
      | act thread guard exec => exact hact _ _ _ _ _ _ _ hreach ih thread guard exec

/-- Invariants of whole configurations. -/
theorem Reaches.config_invariant {I : Config Op Res σ ι α → Prop} (hstart : I (start s₀))
    (hcall : ∀ c x, M.Reaches ok s₀ c → I c → I (c.called x (M.prog x)))
    (henv : ∀ c e, M.Reaches ok s₀ c → I c → I { c with shared := M.env e c.shared })
    (hact : ∀ (c : Config Op Res σ ι α) (i : ℕ) (x : ι) (o : Op) (k : Res o → Prog Op Res α)
      (r : Res o) (s' : σ), M.Reaches ok s₀ c → I c → c.threads[i]? = some (x, .step o k) →
      ok c i o → M.exec o c.shared = some (r, s') → I (c.acted i x o r (k r) s'))
    (hc : M.Reaches ok s₀ c) : I c := by
  induction hc with
  | refl => exact hstart
  | tail hreach hstep ih =>
      cases hstep with
      | call x => exact hcall _ x hreach ih
      | env e => exact henv _ e hreach ih
      | act thread guard exec => exact hact _ _ _ _ _ _ _ hreach ih thread guard exec

/-- What every operation keeps is kept along a run. -/
theorem kept_of_steps {I : σ → Prop} (henv : ∀ e s, I s → I (M.env e s))
    (hexec : ∀ o s r s', I s → M.exec o s = some (r, s') → I s')
    (hsteps : Relation.ReflTransGen (M.Step ok) c c') (h : I c.shared) : I c'.shared := by
  induction hsteps with
  | refl => exact h
  | tail _ hstep ih =>
      cases hstep with
      | call => exact ih
      | env e => exact henv e _ ih
      | act thread guard exec => exact hexec _ _ _ _ ih exec

section Relies

variable {good : (o : Op) → Res o → Prop} {allowed : ι → Op → Prop} {ends : ι → α → Prop}
  {I : σ → Prop}

/-- **An invariant that the threads keep together, along what has been recorded.**  Where it
holds, answers are good; as long as answers are good, each thread performs only operations
that keep it.  Then it holds throughout, and every thread goes on as it should.  Both may
depend on a record of the run, as long as the record has all of its events. -/
theorem Reaches.relies_recorded (recorded : Act Op Res → Prop) (hstart : I s₀)
    (henv : ∀ e s, I s → I (M.env e s))
    (hexec : ∀ x o s r s', I s → allowed x o → recorded ⟨o, r⟩ → M.exec o s = some (r, s') →
      I s' ∧ good o r)
    (hprog : ∀ x, (M.prog x).Relies good (allowed x) (ends x)) (hc : M.Reaches ok s₀ c)
    (hrecorded : ∀ e ∈ c.trace, recorded e.2) :
    I c.shared ∧ ∀ {i : ℕ} {x : ι} {p : Prog Op Res α}, c.threads[i]? = some (x, p) →
      p.Relies good (allowed x) (ends x) := by
  induction hc with
  | refl => exact ⟨hstart, fun h => by simp [start] at h⟩
  | @tail b _ hreach hstep ih =>
      have ih := ih fun e he => hrecorded e (hstep.trace_prefix.subset he)
      cases hstep with
      | env e => exact ⟨henv e _ ih.1, ih.2⟩
      | call y =>
          refine ⟨ih.1, fun {i x p} h => ?_⟩
          rcases Nat.lt_or_ge i b.threads.length with hlt | hge
          · rw [List.getElem?_append_left hlt] at h
            exact ih.2 h
          · rw [List.getElem?_append_right hge] at h
            obtain ⟨rfl, rfl⟩ := Prod.mk.inj (List.mem_singleton.mp (List.mem_of_getElem? h))
            exact hprog x
      | @act j y o k r s' thread guard exec =>
          have hthread := ih.2 thread
          have hnew := hrecorded (j, ⟨o, r⟩) (List.mem_append_right _ (List.mem_singleton.mpr rfl))
          have hkept := hexec y o b.shared r s' ih.1 hthread.1 hnew exec
          refine ⟨hkept.1, fun {i x p} h => ?_⟩
          by_cases hij : j = i
          · subst hij
            rw [List.getElem?_set_self (List.getElem?_eq_some_iff.mp thread).1] at h
            obtain ⟨rfl, rfl⟩ := Prod.mk.inj (Option.some.inj h)
            exact hthread.2 r hkept.2
          · rw [List.getElem?_set_ne hij] at h
            exact ih.2 h

/-- **An invariant that the threads keep together**, whatever has been recorded. -/
theorem Reaches.relies (hstart : I s₀) (henv : ∀ e s, I s → I (M.env e s))
    (hexec : ∀ x o s r s', I s → allowed x o → M.exec o s = some (r, s') → I s' ∧ good o r)
    (hprog : ∀ x, (M.prog x).Relies good (allowed x) (ends x)) (hc : M.Reaches ok s₀ c) :
    I c.shared ∧ ∀ {i : ℕ} {x : ι} {p : Prog Op Res α}, c.threads[i]? = some (x, p) →
      p.Relies good (allowed x) (ends x) :=
  hc.relies_recorded (fun _ => True) hstart henv
    (fun x o s r s' hI hallowed _ hstep => hexec x o s r s' hI hallowed hstep) hprog
    fun _ _ => trivial

/-- Every event was allowed, and its answer good. -/
theorem Reaches.relies_event (hstart : I s₀) (henv : ∀ e s, I s → I (M.env e s))
    (hexec : ∀ x o s r s', I s → allowed x o → M.exec o s = some (r, s') → I s' ∧ good o r)
    (hprog : ∀ x, (M.prog x).Relies good (allowed x) (ends x)) (hc : M.Reaches ok s₀ c)
    {i : ℕ} {a : Act Op Res} (h : (i, a) ∈ c.trace) :
    ∃ x, c.Calls i x ∧ allowed x a.op ∧ good a.op a.res := by
  obtain ⟨tr₁, tr₂, htrace⟩ := List.append_of_mem h
  obtain ⟨b, x, k, s', hb, -, hthread, -, hexec', hsteps⟩ := hc.event htrace
  obtain ⟨hI, hthreads⟩ := hb.relies hstart henv hexec hprog
  have hallowed := (hthreads hthread).1
  exact ⟨x, calls_of_steps hsteps ⟨_, hthread⟩, hallowed,
    (hexec x a.op b.shared a.res s' hI hallowed hexec').2⟩

/-- A thread runs one call. -/
theorem Config.Calls.unique {i : ℕ} {x y : ι} (h : c.Calls i x) (h' : c.Calls i y) : x = y := by
  obtain ⟨p, hp⟩ := h
  obtain ⟨q, hq⟩ := h'
  exact (Prod.mk.inj (Option.some.inj (hp.symm.trans hq))).1

/-- What one program may do whatever it is answered, its threads do only. -/
theorem Reaches.allowed_of_calls {x : ι} {allowed : Op → Prop}
    (hprog : (M.prog x).Relies (fun _ _ => True) allowed fun _ => True) (hc : M.Reaches ok s₀ c)
    {i : ℕ} {a : Act Op Res} (hcalls : c.Calls i x) (h : (i, a) ∈ c.trace) : allowed a.op := by
  have hall : ∀ y, (M.prog y).Relies (fun _ _ => True) (fun o => y = x → allowed o)
      fun _ => True := by
    intro y
    by_cases hxy : y = x
    · subst hxy
      exact hprog.allow fun o ho _ => ho
    · exact (Prog.relies_trivial _).allow fun o _ heq => absurd heq hxy
  obtain ⟨y, hy, hallowed, -⟩ := hc.relies_event (I := fun _ => True) trivial
    (fun _ _ h => h) (fun _ _ _ _ _ h _ _ => ⟨h, trivial⟩) hall h
  exact hallowed (hy.unique hcalls)

/-- What one program meets, its threads meet wherever they stand. -/
theorem Reaches.meets_of_calls {x : ι} {pre : List (Act Op Res) → Op → Prop}
    {post : List (Act Op Res) → α → Prop} (hprog : (M.prog x).Meets pre post [])
    (hc : M.Reaches ok s₀ c) {i : ℕ} {p : Prog Op Res α} (h : c.threads[i]? = some (x, p)) :
    p.Meets pre post (c.history i) := by
  have hall : ∀ y, (M.prog y).Meets (fun h o => y = x → pre h o)
      (fun h a => y = x → post h a) [] := by
    intro y
    by_cases hxy : y = x
    · subst hxy
      exact hprog.mono (fun _ _ h _ => h) fun _ _ h _ => h
    · refine (Prog.meets_trivial _ _).mono (fun _ _ _ heq => ?_) fun _ _ _ heq => ?_
      · exact absurd heq hxy
      · exact absurd heq hxy
  exact (hc.meets hall h).mono (fun _ _ h => h rfl) fun _ _ h => h rfl

end Relies

/-! ## What the trace says about the state -/

section Along

variable {β : Type*}

/-- What the operations of a trace make of a value, `f` being what one does to it. -/
def along (f : Op → β → β) (b : β) (trace : List (ℕ × Act Op Res)) : β :=
  trace.foldl (fun b e => f e.2.op b) b

@[simp] theorem along_nil (f : Op → β → β) (b : β) :
    along f b ([] : List (ℕ × Act Op Res)) = b := rfl

@[simp] theorem along_snoc (f : Op → β → β) (b : β) (trace : List (ℕ × Act Op Res))
    (e : ℕ × Act Op Res) : along f b (trace ++ [e]) = f e.2.op (along f b trace) := by
  simp [along]

/-- A part of the state that only the operations change, each on its own, can be
read off the trace. -/
theorem Reaches.along {p : σ → β} {f : Op → β → β}
    (henv : ∀ e s, p (M.env e s) = p s)
    (hexec : ∀ o s r s', M.exec o s = some (r, s') → p s' = f o (p s))
    (hc : M.Reaches ok s₀ c) : p c.shared = along f (p s₀) c.trace := by
  refine hc.invariant (I := fun tr s => p s = Machine.along f (p s₀) tr) rfl ?_ ?_
  · intro tr s e h
    rw [henv, h]
  · intro b i x o k r s' _ h _ _ hstep
    rw [along_snoc, hexec o b.shared r s' hstep, h]

/-- **Conservation.**  What has been put into a place has been taken out of it, in the same
order, or is still there, if that is so of every single operation. -/
theorem Reaches.conserves (held : σ → List β) {put taken : Act Op Res → List β}
    (hstart : held s₀ = []) (henv : ∀ e s, held (M.env e s) = held s)
    (hact : ∀ c i o r s', ok c i o → M.exec o c.shared = some (r, s') →
      held c.shared ++ put ⟨o, r⟩ = taken ⟨o, r⟩ ++ held s') (hc : M.Reaches ok s₀ c) :
    (c.trace.map Prod.snd).flatMap put = (c.trace.map Prod.snd).flatMap taken ++ held c.shared := by
  refine hc.invariant (I := fun tr s =>
    (tr.map Prod.snd).flatMap put = (tr.map Prod.snd).flatMap taken ++ held s) ?_ ?_ ?_
  · rw [hstart]
    rfl
  · intro tr s e h
    rw [henv, h]
  · intro b i x o k r s' _ h _ hok hstep
    simp only [List.map_append, List.map_cons, List.map_nil, List.flatMap_append,
      List.flatMap_singleton]
    rw [h, List.append_assoc, hact b i o r s' hok hstep, List.append_assoc]

end Along

/-! ## Schedules -/

/-- A scheduling decision. -/
inductive Move (ε : Type y) (ι : Type z)
  | call (x : ι)
  | env (e : ε)
  | act (i : ℕ)

variable (M) in
/-- Carry out one scheduling decision, if `test` allows the operation and it is
not blocked. -/
def move (test : Config Op Res σ ι α → ℕ → Op → Bool) (c : Config Op Res σ ι α) :
    Move ε ι → Option (Config Op Res σ ι α)
  | .call x => some { c with threads := c.threads ++ [(x, M.prog x)] }
  | .env e => some { c with shared := M.env e c.shared }
  | .act i =>
      match c.threads[i]? with
      | some (x, .step o k) =>
          if test c i o then
            (M.exec o c.shared).map fun p =>
              { shared := p.2
                threads := c.threads.set i (x, k p.1)
                trace := c.trace ++ [(i, ⟨o, p.1⟩)] }
          else none
      | _ => none

variable (M) in
/-- Carry out a schedule. -/
def play (test : Config Op Res σ ι α → ℕ → Op → Bool) :
    List (Move ε ι) → Config Op Res σ ι α → Option (Config Op Res σ ι α)
  | [], c => some c
  | m :: ms, c => (M.move test c m).bind (play test ms)

theorem step_of_move {test : Config Op Res σ ι α → ℕ → Op → Bool}
    (htest : ∀ c i o, test c i o = true → ok c i o) {m : Move ε ι}
    (h : M.move test c m = some c') : M.Step ok c c' := by
  cases m with
  | call x => obtain rfl := Option.some.inj h; exact .call c x
  | env e => obtain rfl := Option.some.inj h; exact .env c e
  | act i =>
      simp only [move] at h
      split at h
      · rename_i x o k thread
        split at h
        · rename_i hok
          obtain ⟨⟨r, s'⟩, hexec, rfl⟩ := Option.map_eq_some_iff.mp h
          exact .act thread (htest c i o hok) hexec
        · cases h
      · cases h

/-- A schedule that executes is a run. -/
theorem steps_of_play {test : Config Op Res σ ι α → ℕ → Op → Bool}
    (htest : ∀ c i o, test c i o = true → ok c i o) :
    ∀ {ms : List (Move ε ι)} {c : Config Op Res σ ι α}, M.play test ms c = some c' →
      Relation.ReflTransGen (M.Step ok) c c' := by
  intro ms
  induction ms with
  | nil => intro c h; obtain rfl := Option.some.inj h; exact .refl
  | cons m ms ih =>
      intro c h
      obtain ⟨b, hmove, hplay⟩ := Option.bind_eq_some_iff.mp h
      exact .head (step_of_move htest hmove) (ih hplay)

/-- To show that something is reached, run a schedule. -/
theorem exists_of_play {test : Config Op Res σ ι α → ℕ → Op → Bool}
    (htest : ∀ c i o, test c i o = true → ok c i o) {ms : List (Move ε ι)}
    {p : Config Op Res σ ι α → Bool} (h : (M.play test ms c).any p = true) :
    ∃ c', Relation.ReflTransGen (M.Step ok) c c' ∧ p c' = true := by
  obtain ⟨c', hplay, hp⟩ := (Option.any_eq_true _ _).mp h
  exact ⟨c', steps_of_play htest hplay, hp⟩

variable (M) in
/-- The configuration in which these calls have been started and nothing more. -/
def started (s : σ) (calls : List ι) : Config Op Res σ ι α where
  shared := s
  threads := calls.map fun x => (x, M.prog x)
  trace := []

theorem reaches_started (calls : List ι) : M.Reaches ok s₀ (M.started s₀ calls) := by
  induction calls using List.reverseRecOn with
  | nil => exact .refl
  | append_singleton calls x ih =>
      have heq : M.started s₀ (calls ++ [x]) = (M.started s₀ calls).called x (M.prog x) := by
        simp [started]
      rw [heq]
      exact .tail ih (.call _ x)

/-- A schedule of started calls is a run in which they are the first threads. -/
theorem exists_of_play_started {test : Config Op Res σ ι α → ℕ → Op → Bool}
    (htest : ∀ c i o, test c i o = true → ok c i o) {ms : List (Move ε ι)} {calls : List ι}
    {p : Config Op Res σ ι α → Bool} (h : (M.play test ms (M.started s₀ calls)).any p = true) :
    ∃ c, M.Reaches ok s₀ c ∧ (∀ i x, calls[i]? = some x → c.Calls i x) ∧ p c = true := by
  obtain ⟨c, hsteps, hp⟩ := exists_of_play htest h
  refine ⟨c, (reaches_started calls).trans hsteps, fun i x hx => ?_, hp⟩
  refine calls_of_steps hsteps ⟨M.prog x, ?_⟩
  rw [started, List.getElem?_map, hx]
  rfl

end Machine
