import HermesA2A.Lib.Machine
import Mathlib.Data.Int.Notation

/-!
# How long a program can wait

Some operations have to wait for a time to come, and some tell what time it is.  `Timing` says
so of each operation: how long it can be put off, and what its answer says about the clock.

`Prog.Within T budget seen` says of a program that knows the clock to have come to `seen` that
its waiting, summed up, is no more than `budget`.  Nothing is assumed about the answers, so the
statement survives any interleaving (`Reaches.within`).  What it is for is `ends_alone`: in
whatever configuration the other threads have left, a thread can be brought to its end by its
own steps, while no more time passes than that.

* `Prog.Within.bind_relies`, `Prog.Within.expand` — the rules.
* `Timing.Times` — what the machine has to do with it.
-/

universe u v w x y z

variable {Op : Type u} {Res : Op → Type v} {α : Type w}

/-- How long an operation can be put off, whatever the others do. -/
inductive Delay
  | atOnce
  | upTo (deadline : ℤ)
  | unbounded

/-- The delays of the operations, and what they say about the clock. -/
structure Timing (Op : Type u) (Res : Op → Type v) where
  delay : Op → Delay
  /-- The time that is read. -/
  reads : (o : Op) → Res o → Option ℤ
  /-- A time that has come once the operation is performed. -/
  passed : Op → Option ℤ

namespace Timing

variable (T : Timing Op Res) (o : Op) (r : Res o) {seen seen' : ℤ}

/-- Can the answer be given, the clock having come to `seen`? -/
def Fits (seen : ℤ) : Prop := ∀ time, T.reads o r = some time → seen ≤ time

/-- What is known of the clock after the answer. -/
def seenAfter (seen : ℤ) : ℤ :=
  max (max seen ((T.reads o r).getD seen)) ((T.passed o).getD seen)

theorem seen_le_seenAfter : seen ≤ T.seenAfter o r seen :=
  Int.le_trans (Int.le_max_left ..) (Int.le_max_left ..)

theorem seenAfter_mono (h : seen ≤ seen') : T.seenAfter o r seen ≤ T.seenAfter o r seen' := by
  unfold seenAfter
  cases T.reads o r <;> cases T.passed o <;> simp only [Option.getD_none, Option.getD_some] <;>
    omega

end Timing

namespace Prog

/-- **The program waits no longer than `budget`**, when it knows the clock to have come to
`seen`. -/
def Within (T : Timing Op Res) : Prog Op Res α → ℕ → ℤ → Prop
  | ret _, _, _ => True
  | step o k, budget, seen =>
      match T.delay o with
      | .atOnce => ∀ r, T.Fits o r seen → (k r).Within T budget (T.seenAfter o r seen)
      | .upTo d => d ≤ seen + budget ∧ ∀ r, T.Fits o r seen →
          (k r).Within T (budget - (d - seen).toNat) (T.seenAfter o r seen)
      | .unbounded => False

section Rules

variable {T : Timing Op Res} {budget : ℕ} {seen : ℤ} {o : Op} {k : Res o → Prog Op Res α}

theorem within_step_atOnce (ho : T.delay o = .atOnce) : (step o k).Within T budget seen ↔
    ∀ r, T.Fits o r seen → (k r).Within T budget (T.seenAfter o r seen) := by
  rw [Within, ho]

theorem within_step_upTo {d : ℤ} (ho : T.delay o = .upTo d) :
    (step o k).Within T budget seen ↔ d ≤ seen + budget ∧ ∀ r, T.Fits o r seen →
      (k r).Within T (budget - (d - seen).toNat) (T.seenAfter o r seen) := by
  rw [Within, ho]

theorem not_within_step_unbounded (ho : T.delay o = .unbounded) :
    ¬ (step o k).Within T budget seen := by
  rw [Within, ho]
  exact id

/-- More time, and a later clock, can only help. -/
theorem Within.mono : ∀ {p : Prog Op Res α} {budget budget' : ℕ} {seen seen' : ℤ},
    p.Within T budget seen → budget ≤ budget' → seen ≤ seen' → p.Within T budget' seen' := by
  intro p
  induction p with
  | ret a => exact fun _ _ _ => trivial
  | step o k ih =>
      intro budget budget' seen seen' h hbudget hseen
      have hfits : ∀ {r}, T.Fits o r seen' → T.Fits o r seen := fun hr time htime =>
        Int.le_trans hseen (hr time htime)
      cases ho : T.delay o with
      | atOnce =>
          rw [within_step_atOnce ho] at h ⊢
          exact fun r hr => ih r (h r (hfits hr)) hbudget (T.seenAfter_mono o r hseen)
      | upTo d =>
          rw [within_step_upTo ho] at h ⊢
          exact ⟨by omega, fun r hr =>
            ih r (h.2 r (hfits hr)) (by omega) (T.seenAfter_mono o r hseen)⟩
      | unbounded => exact absurd h (not_within_step_unbounded ho)

variable {β : Type w} {budget' : ℕ} {f : α → Prog Op Res β}

/-- What follows knows what the program has ended with. -/
theorem Within.bind_relies {ends : α → Prop} : ∀ {p : Prog Op Res α} {budget : ℕ} {seen : ℤ},
    p.Within T budget seen → p.Relies (fun _ _ => True) (fun _ => True) ends →
      (∀ a seen', ends a → seen ≤ seen' → (f a).Within T budget' seen') →
        (p >>= f).Within T (budget + budget') seen := by
  intro p
  induction p with
  | ret a =>
      exact fun _ hends hf =>
        (hf a _ hends (Int.le_refl _)).mono (Nat.le_add_left ..) (Int.le_refl _)
  | step o k ih =>
      intro budget seen h hends hf
      have hrest : ∀ r {budget : ℕ}, (k r).Within T budget (T.seenAfter o r seen) →
          (k r >>= f).Within T (budget + budget') (T.seenAfter o r seen) := fun r _ hk =>
        ih r hk (hends.2 r trivial) fun a seen' ha hseen =>
          hf a seen' ha (Int.le_trans (T.seen_le_seenAfter o r) hseen)
      rw [step_bind]
      cases ho : T.delay o with
      | atOnce =>
          rw [within_step_atOnce ho] at h ⊢
          exact fun r hr => hrest r (h r hr)
      | upTo d =>
          rw [within_step_upTo ho] at h ⊢
          exact ⟨by omega, fun r hr => (hrest r (h.2 r hr)).mono (by omega) (Int.le_refl _)⟩
      | unbounded => exact absurd h (not_within_step_unbounded ho)

theorem Within.bind {p : Prog Op Res α} {budget : ℕ} {seen : ℤ} (h : p.Within T budget seen)
    (hf : ∀ a seen', seen ≤ seen' → (f a).Within T budget' seen') :
    (p >>= f).Within T (budget + budget') seen :=
  h.bind_relies (relies_trivial p) fun a seen' _ => hf a seen'

/-- After a program that does not wait. -/
theorem Within.bind_prompt {p : Prog Op Res α} (hp : p.Within T 0 seen)
    (hf : ∀ a seen', seen ≤ seen' → (f a).Within T budget' seen') :
    (p >>= f).Within T budget' seen :=
  (hp.bind hf).mono (Nat.le_of_eq (Nat.zero_add _)) (Int.le_refl _)

end Rules

section Expand

universe u'

variable {Op' : Type u'} {Res : Op → Type w} {Res' : Op' → Type w} {T : Timing Op Res}
  {T' : Timing Op' Res'}

/-- Each operation is carried out by a program that waits no longer, and learns as much. -/
theorem Within.expand {f : (o : Op) → Prog Op' Res' (Res o)}
    (hf : ∀ o (k : Res o → Prog Op' Res' α) (k' : Res o → Prog Op Res α) (budget : ℕ) (seen : ℤ),
      (step o k').Within T budget seen →
        (∀ r budget seen, (k' r).Within T budget seen → (k r).Within T' budget seen) →
          ((f o).bind k).Within T' budget seen) :
    ∀ {p : Prog Op Res α} {budget : ℕ} {seen : ℤ}, p.Within T budget seen →
      (p.expand f).Within T' budget seen := by
  intro p
  induction p with
  | ret a => exact fun _ => trivial
  | step o k ih => exact fun h => hf o _ k _ _ h fun r _ _ => ih r

end Expand

end Prog

/-! ## In a machine -/

variable {σ : Type x} {ε : Type y} {ι : Type z}

/-- What a timing has to do with a machine that has a clock. -/
structure Timing.Times (T : Timing Op Res) (M : Machine Op Res σ ε ι α) (clock : σ → ℤ)
    (advance : ℕ → ε) : Prop where
  at_once {o : Op} (s : σ) : T.delay o = .atOnce → ∃ r s', M.exec o s = some (r, s')
  in_time {o : Op} {d : ℤ} {s : σ} : T.delay o = .upTo d → d ≤ clock s →
    ∃ r s', M.exec o s = some (r, s')
  /-- No operation takes time. -/
  timeless {o : Op} {s s' : σ} {r : Res o} : M.exec o s = some (r, s') → clock s' = clock s
  reads {o : Op} {s s' : σ} {r : Res o} {time : ℤ} : M.exec o s = some (r, s') →
    T.reads o r = some time → time = clock s
  passed {o : Op} {s s' : σ} {r : Res o} {time : ℤ} : M.exec o s = some (r, s') →
    T.passed o = some time → time ≤ clock s
  advanced (d : ℕ) (s : σ) : clock (M.env (advance d) s) = clock s + d
  /-- The clock does not go back. -/
  forward (e : ε) (s : σ) : clock s ≤ clock (M.env e s)

namespace Machine

variable {M : Machine Op Res σ ε ι α} {T : Timing Op Res} {clock : σ → ℤ} {advance : ℕ → ε}
  {ok : Guard Op Res σ ι α} {s₀ : σ} {c : Config Op Res σ ι α}

theorem fits (hT : T.Times M clock advance) {o : Op} {s s' : σ} {r : Res o}
    (h : M.exec o s = some (r, s')) : T.Fits o r (clock s) := fun _ htime =>
  Int.le_of_eq (hT.reads h htime).symm

theorem seenAfter_le (hT : T.Times M clock advance) {o : Op} {s s' : σ} {r : Res o}
    (h : M.exec o s = some (r, s')) : T.seenAfter o r (clock s) ≤ clock s' := by
  rw [hT.timeless h]
  have hreads : (T.reads o r).getD (clock s) ≤ clock s := by
    cases htime : T.reads o r with
    | none => exact Int.le_refl _
    | some time => exact Int.le_of_eq (hT.reads h htime)
  have hpassed : (T.passed o).getD (clock s) ≤ clock s := by
    cases htime : T.passed o with
    | none => exact Int.le_refl _
    | some time => exact hT.passed h htime
  exact Int.max_le.mpr ⟨Int.max_le.mpr ⟨Int.le_refl _, hreads⟩, hpassed⟩

/-- **In any interleaving a thread waits no longer than its program.** -/
theorem Reaches.within (hT : T.Times M clock advance) {x : ι} {budget : ℕ}
    (hprog : ∀ seen, (M.prog x).Within T budget seen) (hc : M.Reaches ok s₀ c) :
    ∀ {i : ℕ} {p : Prog Op Res α}, c.threads[i]? = some (x, p) →
      p.Within T budget (clock c.shared) := by
  induction hc with
  | refl => intro i p h; simp [start] at h
  | @tail b _ _ hstep ih =>
      intro i p h
      cases hstep with
      | env e => exact (ih h).mono (Nat.le_refl _) (hT.forward e _)
      | call y =>
          rcases Nat.lt_or_ge i b.threads.length with hlt | hge
          · rw [List.getElem?_append_left hlt] at h
            exact ih h
          · rw [List.getElem?_append_right hge] at h
            have hpair := List.mem_singleton.mp (List.mem_of_getElem? h)
            obtain ⟨rfl, rfl⟩ := Prod.mk.inj hpair
            exact hprog _
      | @act j y o k r s' thread guard exec =>
          change p.Within T budget (clock s')
          by_cases hij : j = i
          · subst hij
            have hlt : j < b.threads.length := (List.getElem?_eq_some_iff.mp thread).1
            rw [List.getElem?_set_self hlt] at h
            obtain ⟨rfl, rfl⟩ := Prod.mk.inj (Option.some.inj h)
            have hstep := ih thread
            have hfits := fits hT exec
            have hseen := seenAfter_le hT exec
            cases ho : T.delay o with
            | atOnce =>
                exact ((Prog.within_step_atOnce ho).mp hstep r hfits).mono (Nat.le_refl _) hseen
            | upTo d =>
                exact (((Prog.within_step_upTo ho).mp hstep).2 r hfits).mono (Nat.sub_le ..) hseen
            | unbounded => exact absurd hstep (Prog.not_within_step_unbounded ho)
          · rw [List.getElem?_set_ne hij] at h
            rw [hT.timeless exec]
            exact ih h

/-- Only thread `i` acts. -/
abbrev Alone (i : ℕ) : Guard Op Res σ ι α := fun _ j _ => j = i

/-- **A thread can be brought to its end alone**: no other thread has to act for it, and no more
time has to pass than its program waits. -/
theorem ends_alone (hT : T.Times M clock advance) {i : ℕ} {x : ι} {p : Prog Op Res α} :
    ∀ {budget : ℕ} {c : Config Op Res σ ι α}, c.threads[i]? = some (x, p) →
      p.Within T budget (clock c.shared) →
        ∃ c' a, Relation.ReflTransGen (M.Step (Alone i)) c c' ∧ c'.Ends i x a ∧
          clock c'.shared ≤ clock c.shared + budget := by
  induction p with
  | ret a => exact fun hthread _ => ⟨_, a, .refl, hthread, by omega⟩
  | step o k ih =>
      intro budget c hthread h
      have hlt : i < c.threads.length := (List.getElem?_eq_some_iff.mp hthread).1
      have hself : ∀ r : Res o, (c.threads.set i (x, k r))[i]? = some (x, k r) := fun r =>
        List.getElem?_set_self hlt
      cases ho : T.delay o with
      | atOnce =>
          obtain ⟨r, s', hexec⟩ := hT.at_once c.shared ho
          have hk := ((Prog.within_step_atOnce ho).mp h r (fits hT hexec)).mono (Nat.le_refl _)
            (seenAfter_le hT hexec)
          obtain ⟨c', a, hsteps, hends, htime⟩ :=
            ih r (c := c.acted i x o r (k r) s') (hself r) hk
          refine ⟨c', a, .head (.act hthread rfl hexec) hsteps, hends, ?_⟩
          rw [← hT.timeless hexec]
          exact htime
      | upTo d =>
          -- first the clock comes to the deadline
          obtain ⟨hin, -⟩ := (Prog.within_step_upTo ho).mp h
          let late : Config Op Res σ ι α :=
            { c with shared := M.env (advance (d - clock c.shared).toNat) c.shared }
          have hlate : clock late.shared = clock c.shared + (d - clock c.shared).toNat :=
            hT.advanced ..
          obtain ⟨r, s', hexec⟩ := hT.in_time ho (s := late.shared) (by omega)
          have hk : (k r).Within T (budget - (d - clock c.shared).toNat) (clock s') := by
            have hfits : T.Fits o r (clock c.shared) := fun time htime =>
              Int.le_trans (by omega) (fits hT hexec time htime)
            refine (((Prog.within_step_upTo ho).mp h).2 r hfits).mono (Nat.le_refl _) ?_
            exact Int.le_trans (T.seenAfter_mono o r (by omega)) (seenAfter_le hT hexec)
          obtain ⟨c', a, hsteps, hends, htime⟩ :=
            ih r (c := late.acted i x o r (k r) s') (hself r) hk
          refine ⟨c', a, .head (.env c _) (.head (.act hthread rfl hexec) hsteps), hends, ?_⟩
          have hclock := hT.timeless hexec
          change _ ≤ clock s' + _ at htime
          omega
      | unbounded => exact absurd h (Prog.not_within_step_unbounded ho)

/-- What thread `i` does alone leaves the other threads as they are. -/
theorem threads_of_alone {i j : ℕ} (hij : j ≠ i) {c' : Config Op Res σ ι α} {y : ι}
    {p : Prog Op Res α} (hsteps : Relation.ReflTransGen (M.Step (Alone i)) c c')
    (h : c.threads[j]? = some (y, p)) : c'.threads[j]? = some (y, p) := by
  induction hsteps with
  | refl => exact h
  | tail _ hstep ih =>
      cases hstep with
      | env e => exact ih
      | call z =>
          rw [List.getElem?_append_left (List.getElem?_eq_some_iff.mp ih).1]
          exact ih
      | act thread guard exec =>
          obtain rfl := guard
          rw [List.getElem?_set_ne (Ne.symm hij)]
          exact ih

end Machine
