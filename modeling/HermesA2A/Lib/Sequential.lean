import Mathlib.Data.List.Basic

/-!
# Sequences of operations

A deterministic step function and the states it goes through.  `run` is the state
after a sequence of operations, `Always I` says that `I` holds in every state on
the way, `Each ok` that every operation meets `ok` in the state it is applied to.

* `run_invariant`, `always_of_each` — an invariant, and one that relies on a condition
  on the operations; `run_simulation` — a relation between two systems.
* `always_iff_each` — where one step keeps `I` exactly when it meets `ok`, a run
  stays in `I` exactly when all its steps meet `ok`; `each_and_always_iff` is the same for
  runs of `allowed` operations that also have to do something.
* `always_iff` — the same in terms of the places in the sequence.
* `run_account` — what the steps of a run come to; `latch_iff` — a flag that is set and reset.
-/

namespace Sequential

variable {ι σ : Type*} {step : ι → σ → σ}

/-- The state after a sequence of operations. -/
def run (step : ι → σ → σ) (ops : List ι) (s : σ) : σ := ops.foldl (fun s o => step o s) s

@[simp] theorem run_nil (s : σ) : run step [] s = s := rfl

@[simp] theorem run_cons (o : ι) (ops : List ι) (s : σ) :
    run step (o :: ops) s = run step ops (step o s) := rfl

theorem run_append (ops ops' : List ι) (s : σ) :
    run step (ops ++ ops') s = run step ops' (run step ops s) := List.foldl_append ..

/-- `I` holds in every state of the run, its first and its last included. -/
def Always (step : ι → σ → σ) (I : σ → Prop) : List ι → σ → Prop
  | [], s => I s
  | o :: ops, s => I s ∧ Always step I ops (step o s)

/-- Every operation meets `ok` in the state it is applied to. -/
def Each (step : ι → σ → σ) (ok : ι → σ → Prop) : List ι → σ → Prop
  | [], _ => True
  | o :: ops, s => ok o s ∧ Each step ok ops (step o s)

section Places

variable {I : σ → Prop} {ok : ι → σ → Prop}

theorem Always.start {ops : List ι} {s : σ} (h : Always step I ops s) : I s := by
  cases ops with
  | nil => exact h
  | cons o ops => exact h.1

theorem always_append {ops ops' : List ι} {s : σ} :
    Always step I (ops ++ ops') s ↔
      Always step I ops s ∧ Always step I ops' (run step ops s) := by
  induction ops generalizing s with
  | nil => exact ⟨fun h => ⟨h.start, h⟩, And.right⟩
  | cons o ops ih => simp only [List.cons_append, Always, ih, run_cons, and_assoc]

/-- `Always`, state by state. -/
theorem always_iff {ops : List ι} {s : σ} :
    Always step I ops s ↔ ∀ before after, ops = before ++ after → I (run step before s) := by
  constructor
  · rintro h before after rfl
    exact (always_append.mp h).2.start
  · induction ops generalizing s with
    | nil => exact fun h => h [] [] rfl
    | cons o ops ih =>
        intro h
        refine ⟨h [] (o :: ops) rfl, ih fun before after heq => ?_⟩
        exact h (o :: before) after (by rw [heq]; rfl)

end Places

section Invariants

variable {I J : σ → Prop} {ok : ι → σ → Prop}

/-- **The rule of invariants.** -/
theorem run_invariant (hstep : ∀ o s, I s → I (step o s)) (ops : List ι) {s : σ} (hs : I s) :
    I (run step ops s) := by
  induction ops generalizing s with
  | nil => exact hs
  | cons o ops ih => exact ih (hstep o s hs)

/-- The same for operations that meet a condition of their own. -/
theorem run_invariant_of_mem {allowed : ι → Prop} (hstep : ∀ o s, allowed o → I s → I (step o s))
    {ops : List ι} (hops : ∀ o ∈ ops, allowed o) {s : σ} (hs : I s) : I (run step ops s) := by
  induction ops generalizing s with
  | nil => exact hs
  | cons o ops ih =>
      exact ih (fun o' ho' => hops o' (List.mem_cons_of_mem _ ho'))
        (hstep o s (hops o List.mem_cons_self) hs)

/-- **The rule of simulation**: two systems that stay related at each step. -/
theorem run_simulation {τ : Type*} {step' : ι → τ → τ} {R : σ → τ → Prop}
    (hstep : ∀ o s t, R s t → R (step o s) (step' o t)) (ops : List ι) {s : σ} {t : τ}
    (h : R s t) : R (run step ops s) (run step' ops t) := by
  induction ops generalizing s t with
  | nil => exact h
  | cons o ops ih => exact ih (hstep o s t h)

/-- A run stays in `I` if its steps meet a condition that keeps `I`. -/
theorem always_of_each (hstep : ∀ o s, I s → ok o s → I (step o s)) {ops : List ι} {s : σ}
    (hs : I s) (hok : Each step ok ops s) : Always step I ops s := by
  induction ops generalizing s with
  | nil => exact hs
  | cons o ops ih => exact ⟨hs, ih (hstep o s hs hok.1) hok.2⟩

/-- What the steps of a run come to, all together. -/
def tally (step : ι → σ → σ) (amount : ι → σ → ℕ) : List ι → σ → ℕ
  | [], _ => 0
  | o :: ops, s => amount o s + tally step amount ops (step o s)

@[simp] theorem tally_zero (ops : List ι) (s : σ) : tally step (fun _ _ => 0) ops s = 0 := by
  induction ops generalizing s with
  | nil => rfl
  | cons o ops ih => rw [tally, ih]

/-- **The rule of accounts**: what is left of it all is what there was and what came in, less
what went out. -/
theorem run_account (left : σ → ℕ) (gained spent : ι → σ → ℕ)
    (hI : ∀ o s, I s → I (step o s))
    (hstep : ∀ o s, I s → left (step o s) + spent o s = left s + gained o s) (ops : List ι) {s : σ}
    (hs : I s) :
    left (run step ops s) + tally step spent ops s = left s + tally step gained ops s := by
  induction ops generalizing s with
  | nil => rfl
  | cons o ops ih =>
      have hone := hstep o s hs
      have hrest := ih (hI o s hs)
      rw [run_cons, tally, tally]
      omega

/-- **The rule of latches**: a flag that some steps set and others reset is up if and only if it has
been set and not been reset since. -/
theorem latch_iff (flag : σ → Prop) (set reset : ι → σ → Prop) (hI : ∀ o s, I s → I (step o s))
    (hstep : ∀ o s, I s → (flag (step o s) ↔ set o s ∨ (flag s ∧ ¬ reset o s))) (ops : List ι) {s : σ}
    (hs : I s) :
    flag (run step ops s) ↔
      (∃ before o after, ops = before ++ o :: after ∧ set o (run step before s) ∧
          Each step (fun o s => ¬ reset o s) after (step o (run step before s))) ∨
        (flag s ∧ Each step (fun o s => ¬ reset o s) ops s) := by
  induction ops generalizing s with
  | nil =>
      refine ⟨fun h => Or.inr ⟨h, trivial⟩, ?_⟩
      rintro (⟨before, o, after, heq, -⟩ | ⟨h, -⟩)
      · exact absurd heq (by simp)
      · exact h
  | cons o ops ih =>
      rw [run_cons, ih (hI o s hs), hstep o s hs]
      constructor
      · rintro (⟨before, o', after, rfl, hset, hafter⟩ | ⟨hset | ⟨hflag, hreset⟩, hrest⟩)
        · exact Or.inl ⟨o :: before, o', after, rfl, hset, hafter⟩
        · exact Or.inl ⟨[], o, ops, rfl, hset, hrest⟩
        · exact Or.inr ⟨hflag, hreset, hrest⟩
      · rintro (⟨before, o', after, heq, hset, hafter⟩ | ⟨hflag, hreset, hrest⟩)
        · cases before with
          | nil =>
              obtain ⟨rfl, rfl⟩ := List.cons.inj heq
              exact Or.inr ⟨Or.inl hset, hafter⟩
          | cons o'' before =>
              obtain ⟨rfl, rfl⟩ := List.cons.inj heq
              exact Or.inl ⟨before, o', after, rfl, hset, hafter⟩
        · exact Or.inr ⟨Or.inr ⟨hflag, hreset⟩, hrest⟩

/-- What every step meets. -/
theorem each_of_forall (h : ∀ o s, ok o s) (ops : List ι) (s : σ) : Each step ok ops s := by
  induction ops generalizing s with
  | nil => trivial
  | cons o ops ih => exact ⟨h o s, ih (step o s)⟩

/-- A condition on the operations alone. -/
theorem each_const {ok : ι → Prop} {ops : List ι} {s : σ} :
    Each step (fun o _ => ok o) ops s ↔ ∀ o ∈ ops, ok o := by
  induction ops generalizing s with
  | nil => simp [Each]
  | cons o ops ih => simp [Each, ih]

/-- The steps of a run that stays in `I` meet what a step that stays there must meet. -/
theorem each_of_always (hstep : ∀ o s, I s → I (step o s) → ok o s) {ops : List ι} {s : σ}
    (h : Always step I ops s) : Each step ok ops s := by
  induction ops generalizing s with
  | nil => trivial
  | cons o ops ih => exact ⟨hstep o s h.1 h.2.start, ih h.2⟩

/-- **Where a step does what it should and keeps `I` exactly when it meets `ok`**, a run
whose steps all do what they should and that never leaves `I` is one whose steps all meet
`ok`.  `J` is an invariant of the runs whose operations are `allowed`. -/
theorem each_and_always_iff {allowed done : ι → σ → Prop}
    (hJ : ∀ o s, J s → allowed o s → J (step o s))
    (hstep : ∀ o s, J s → allowed o s → I s → ((done o s ∧ I (step o s)) ↔ ok o s))
    {ops : List ι} {s : σ} (hs : J s) (hI : I s) (hallowed : Each step allowed ops s) :
    (Each step done ops s ∧ Always step I ops s) ↔ Each step ok ops s := by
  induction ops generalizing s with
  | nil => exact iff_of_true ⟨trivial, hI⟩ trivial
  | cons o ops ih =>
      have hnext := hJ o s hs hallowed.1
      constructor
      · rintro ⟨⟨hdone, hrest⟩, -, halways⟩
        refine ⟨(hstep o s hs hallowed.1 hI).mp ⟨hdone, halways.start⟩, ?_⟩
        exact (ih hnext halways.start hallowed.2).mp ⟨hrest, halways⟩
      · rintro ⟨hok, hrest⟩
        obtain ⟨hdone, hI'⟩ := (hstep o s hs hallowed.1 hI).mpr hok
        obtain ⟨hdones, halways⟩ := (ih hnext hI' hallowed.2).mpr hrest
        exact ⟨⟨hdone, hdones⟩, hI, halways⟩

theorem each_true (ops : List ι) (s : σ) : Each step (fun _ _ => True) ops s :=
  each_of_forall (fun _ _ => trivial) ops s

/-- **Where a step keeps `I` exactly when it meets `ok`**, a run never leaves `I`
exactly when all its steps meet `ok`.  `J` is an invariant that always holds. -/
theorem always_iff_each (hJ : ∀ o s, J s → J (step o s))
    (hstep : ∀ o s, J s → I s → (I (step o s) ↔ ok o s)) {ops : List ι} {s : σ}
    (hs : J s) (hI : I s) : Always step I ops s ↔ Each step ok ops s := by
  have hiff : (Each step (fun _ _ => True) ops s ∧ Always step I ops s) ↔ Each step ok ops s :=
    each_and_always_iff (fun o s hs _ => hJ o s hs)
      (fun o s hs _ hI => (and_iff_right trivial).trans (hstep o s hs hI)) hs hI
      (each_true ops s)
  exact (and_iff_right (each_true ops s)).symm.trans hiff

end Invariants

/-- `Each` is decidable where its condition is. -/
instance decidableEach {ok : ι → σ → Prop} [∀ o s, Decidable (ok o s)] :
    ∀ ops s, Decidable (Each step ok ops s)
  | [], _ => inferInstanceAs (Decidable True)
  | o :: ops, s =>
      @instDecidableAnd _ _ (inferInstanceAs (Decidable (ok o s))) (decidableEach ops (step o s))

end Sequential
