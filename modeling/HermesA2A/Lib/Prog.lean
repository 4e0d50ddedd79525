import Mathlib.Tactic.Common

/-!
# Programs over atomic operations

`Prog Op Res α` is a program that performs operations `o : Op` one after the
other, each answered by a value of `Res o`, and ends with a value of `α`.  It
says nothing about what an operation does: that is the business of whoever runs
it (`Machine.exec`), possibly with the operations of other programs in between.

What a program does on its own is a statement about its **history**, the list of
operations it has performed with the answers it was given.  `Prog.Meets pre post`
is that statement: whenever the program performs `o` after the history `h`, then
`pre h o`; and when it ends with `a` after `h`, then `post h a`.  Nothing is
assumed about the answers, so the statement survives any interleaving.

`Prog.Relies good pre post` forgets the history and assumes something: as long as every
answer is `good`, every operation meets `pre` and the end meets `post`.  It is what
programs owe to an invariant that they keep together (`Machine.Reaches.relies`).

`Prog.Yields good pre ends` has both: as long as every answer is `good`, every operation
meets `pre` and the end meets `ends`, each together with the history up to there.  The
history is the program's own, so statements about its parts are put together by appending.

A program can be carried out by programs over other operations, one for each of its own
(`Prog.expand`); all kinds of statement go through.
-/

universe u v w

/-- A sequential program over atomic operations. -/
inductive Prog (Op : Type u) (Res : Op → Type v) (α : Type w) : Type (max u v w)
  /-- The program has ended. -/
  | ret (a : α)
  /-- Perform `o`, continue with the answer. -/
  | step (o : Op) (k : Res o → Prog Op Res α)

/-- One performed operation with the answer it was given. -/
structure Act (Op : Type u) (Res : Op → Type v) where
  op : Op
  res : Res op

namespace Prog

variable {Op : Type u} {Res : Op → Type v} {α β : Type w}

/-- Sequential composition. -/
def bind : Prog Op Res α → (α → Prog Op Res β) → Prog Op Res β
  | ret a, f => f a
  | step o k, f => step o fun r => (k r).bind f

instance : Monad (Prog Op Res) where
  pure := ret
  bind := bind

@[simp] theorem pure_eq_ret (a : α) : (pure a : Prog Op Res α) = ret a := rfl

@[simp] theorem ret_bind (a : α) (f : α → Prog Op Res β) : (ret a >>= f) = f a := rfl

@[simp] theorem step_bind (o : Op) (k : Res o → Prog Op Res α) (f : α → Prog Op Res β) :
    (step o k >>= f) = step o fun r => k r >>= f := rfl

/-- Perform one operation and return its answer. -/
def perform {Res : Op → Type w} (o : Op) : Prog Op Res (Res o) := step o ret

@[simp] theorem perform_bind {Res : Op → Type w} (o : Op) (f : Res o → Prog Op Res β) :
    (perform o >>= f) = step o f := rfl

/-! ## Programs that are left alone -/

/-- Run the program with nothing in between; `none` if it has to wait. -/
def alone {σ : Type*} (exec : (o : Op) → σ → Option (Res o × σ)) :
    Prog Op Res α → σ → Option (α × σ)
  | ret a, s => some (a, s)
  | step o k, s => (exec o s).bind fun r => (k r.1).alone exec r.2

theorem alone_bind {σ : Type*} (exec : (o : Op) → σ → Option (Res o × σ)) (p : Prog Op Res α)
    (f : α → Prog Op Res β) (s : σ) :
    (p >>= f).alone exec s = (p.alone exec s).bind fun r => (f r.1).alone exec r.2 := by
  induction p generalizing s with
  | ret a => rfl
  | step o k ih =>
      show (exec o s).bind (fun r => (k r.1 >>= f).alone exec r.2) =
        ((exec o s).bind fun r => (k r.1).alone exec r.2).bind _
      rw [Option.bind_assoc]
      congr 1
      funext r
      exact ih r.1 r.2

/-- Execute an operation, and write down what was done. -/
def recording {σ : Type*} (exec : (o : Op) → σ → Option (Res o × σ)) (o : Op)
    (s : σ × List (Act Op Res)) : Option (Res o × σ × List (Act Op Res)) :=
  (exec o s.1).map fun r => (r.1, r.2, s.2 ++ [⟨o, r.1⟩])

/-! ## Histories -/

/-- `pre` holds of every operation the program performs, `post` of the value it
ends with, each together with the history up to there. -/
def Meets (pre : List (Act Op Res) → Op → Prop) (post : List (Act Op Res) → α → Prop) :
    Prog Op Res α → List (Act Op Res) → Prop
  | ret a, h => post h a
  | step o k, h => pre h o ∧ ∀ r, (k r).Meets pre post (h ++ [⟨o, r⟩])

variable {pre pre' : List (Act Op Res) → Op → Prop} {post post' : List (Act Op Res) → α → Prop}

@[simp] theorem meets_ret {a : α} {h : List (Act Op Res)} :
    (ret a : Prog Op Res α).Meets pre post h ↔ post h a := Iff.rfl

@[simp] theorem meets_step {o : Op} {k : Res o → Prog Op Res α} {h : List (Act Op Res)} :
    (step o k).Meets pre post h ↔
      pre h o ∧ ∀ r, (k r).Meets pre post (h ++ [⟨o, r⟩]) := Iff.rfl

/-- Every program meets the empty contract. -/
theorem meets_trivial : ∀ (p : Prog Op Res α) (h : List (Act Op Res)),
    p.Meets (fun _ _ => True) (fun _ _ => True) h := by
  intro p
  induction p with
  | ret a => exact fun _ => trivial
  | step o k ih => exact fun h => ⟨trivial, fun r => ih r (h ++ [⟨o, r⟩])⟩

/-- The rule of consequence. -/
theorem Meets.mono (hpre : ∀ h o, pre h o → pre' h o) (hpost : ∀ h a, post h a → post' h a) :
    ∀ {p : Prog Op Res α} {h : List (Act Op Res)}, p.Meets pre post h → p.Meets pre' post' h := by
  intro p
  induction p with
  | ret a => intro h hp; exact hpost h a hp
  | step o k ih => intro h hp; exact ⟨hpre h o hp.1, fun r => ih r (hp.2 r)⟩

/-- The rule of sequential composition: `mid` is what holds between the two. -/
theorem Meets.bind {mid : List (Act Op Res) → α → Prop}
    {post : List (Act Op Res) → β → Prop} {f : α → Prog Op Res β} :
    ∀ {p : Prog Op Res α} {h : List (Act Op Res)}, p.Meets pre mid h →
      (∀ h a, mid h a → (f a).Meets pre post h) → (p >>= f).Meets pre post h := by
  intro p
  induction p with
  | ret a => intro h hp hf; exact hf h a hp
  | step o k ih => intro h hp hf; exact ⟨hp.1, fun r => ih r (hp.2 r) hf⟩

/-! ## Programs that rely on good answers -/

/-- `pre` holds of every operation the program performs and `post` of the value it ends
with, as long as every answer it gets is good. -/
def Relies (good : (o : Op) → Res o → Prop) (pre : Op → Prop) (post : α → Prop) :
    Prog Op Res α → Prop
  | ret a => post a
  | step o k => pre o ∧ ∀ r, good o r → (k r).Relies good pre post

section Relies

variable {good : (o : Op) → Res o → Prop} {allowed : Op → Prop} {ends ends' : α → Prop}

@[simp] theorem relies_ret {a : α} :
    (ret a : Prog Op Res α).Relies good allowed ends ↔ ends a := Iff.rfl

@[simp] theorem relies_step {o : Op} {k : Res o → Prog Op Res α} :
    (step o k).Relies good allowed ends ↔
      allowed o ∧ ∀ r, good o r → (k r).Relies good allowed ends := Iff.rfl

theorem Relies.mono (hends : ∀ a, ends a → ends' a) :
    ∀ {p : Prog Op Res α}, p.Relies good allowed ends → p.Relies good allowed ends' := by
  intro p
  induction p with
  | ret a => exact hends a
  | step o k ih => exact fun hp => ⟨hp.1, fun r hr => ih r (hp.2 r hr)⟩

theorem Relies.allow {allowed' : Op → Prop} (h : ∀ o, allowed o → allowed' o) :
    ∀ {p : Prog Op Res α}, p.Relies good allowed ends → p.Relies good allowed' ends := by
  intro p
  induction p with
  | ret a => exact id
  | step o k ih => exact fun hp => ⟨h o hp.1, fun r hr => ih r (hp.2 r hr)⟩

/-- Better answers are good as well. -/
theorem Relies.relax {good' : (o : Op) → Res o → Prop} (h : ∀ o r, good' o r → good o r) :
    ∀ {p : Prog Op Res α}, p.Relies good allowed ends → p.Relies good' allowed ends := by
  intro p
  induction p with
  | ret a => exact id
  | step o k ih => exact fun hp => ⟨hp.1, fun r hr => ih r (hp.2 r (h o r hr))⟩

/-- Every program keeps the empty contract. -/
theorem relies_trivial (p : Prog Op Res α) : p.Relies good (fun _ => True) fun _ => True := by
  induction p with
  | ret a => exact trivial
  | step o k ih => exact ⟨trivial, fun r _ => ih r⟩

theorem Relies.bind {mid : α → Prop} {ends : β → Prop} {f : α → Prog Op Res β} :
    ∀ {p : Prog Op Res α}, p.Relies good allowed mid →
      (∀ a, mid a → (f a).Relies good allowed ends) → (p >>= f).Relies good allowed ends := by
  intro p
  induction p with
  | ret a => exact fun hp hf => hf a hp
  | step o k ih => exact fun hp hf => ⟨hp.1, fun r hr => ih r (hp.2 r hr) hf⟩

/-- A contract about histories that does not need them. -/
theorem Meets.relies (hpre : ∀ h o, pre h o → allowed o) (hpost : ∀ h a, post h a → ends a) :
    ∀ {p : Prog Op Res α} {h : List (Act Op Res)}, p.Meets pre post h →
      p.Relies good allowed ends := by
  intro p
  induction p with
  | ret a => exact fun {h} hp => hpost h a hp
  | step o k ih => exact fun {h} hp => ⟨hpre h o hp.1, fun r _ => ih r (hp.2 r)⟩

end Relies

/-! ## Programs and what they leave behind -/

/-- As long as the program gets good answers, `pre` holds of every operation it performs and
`ends` of its value, each with what it has done until then. -/
def Yields (good : (o : Op) → Res o → Prop) :
    Prog Op Res α → (List (Act Op Res) → Op → Prop) → (List (Act Op Res) → α → Prop) → Prop
  | ret a, _, ends => ends [] a
  | step o k, pre, ends => pre [] o ∧ ∀ r, good o r →
      (k r).Yields good (fun h => pre (⟨o, r⟩ :: h)) fun h => ends (⟨o, r⟩ :: h)

section Yields

variable {good : (o : Op) → Res o → Prop} {ends ends' : List (Act Op Res) → α → Prop}

@[simp] theorem yields_ret {a : α} :
    (ret a : Prog Op Res α).Yields good pre ends ↔ ends [] a := Iff.rfl

@[simp] theorem yields_step {o : Op} {k : Res o → Prog Op Res α} :
    (step o k).Yields good pre ends ↔ pre [] o ∧ ∀ r, good o r →
      (k r).Yields good (fun h => pre (⟨o, r⟩ :: h)) fun h => ends (⟨o, r⟩ :: h) := Iff.rfl

theorem Yields.mono (hpre : ∀ h o, pre h o → pre' h o) (hends : ∀ h a, ends h a → ends' h a) :
    ∀ {p : Prog Op Res α}, p.Yields good pre ends → p.Yields good pre' ends' := by
  intro p
  induction p generalizing pre pre' ends ends' with
  | ret a => exact hends [] a
  | step o k ih =>
      refine fun hp => ⟨hpre [] o hp.1, fun r hr => ?_⟩
      exact ih r (fun h => hpre (⟨o, r⟩ :: h)) (fun h => hends (⟨o, r⟩ :: h)) (hp.2 r hr)

/-- A second statement about the end. -/
theorem Yields.and : ∀ {p : Prog Op Res α}, p.Yields good pre ends → p.Yields good pre' ends' →
    p.Yields good pre fun h a => ends h a ∧ ends' h a := by
  intro p
  induction p generalizing pre pre' ends ends' with
  | ret a => exact And.intro
  | step o k ih => exact fun hp hp' => ⟨hp.1, fun r hr => ih r (hp.2 r hr) (hp'.2 r hr)⟩

/-- What every operation meets, the whole history has met. -/
theorem Yields.performed {allowed : Op → Prop} :
    ∀ {p : Prog Op Res α}, p.Yields good (fun _ o => allowed o) ends →
      p.Yields good (fun _ o => allowed o) fun h a => ends h a ∧ ∀ e ∈ h, allowed e.op := by
  intro p
  induction p generalizing ends with
  | ret a => exact fun hp => ⟨hp, by simp⟩
  | step o k ih =>
      refine fun hp => ⟨hp.1, fun r hr => (ih r (hp.2 r hr)).mono (fun _ _ => id) ?_⟩
      exact fun h a hend => ⟨hend.1, List.forall_mem_cons.mpr ⟨hp.1, hend.2⟩⟩

/-- The rule of sequential composition: the histories are appended. -/
theorem Yields.bind {mid : List (Act Op Res) → α → Prop} {ends : List (Act Op Res) → β → Prop}
    {f : α → Prog Op Res β} :
    ∀ {p : Prog Op Res α}, p.Yields good pre mid →
      (∀ h a, mid h a → (f a).Yields good (fun h' => pre (h ++ h')) fun h' => ends (h ++ h')) →
        (p >>= f).Yields good pre ends := by
  intro p
  induction p generalizing pre mid ends with
  | ret a => exact fun hp hf => hf [] a hp
  | step o k ih =>
      exact fun hp hf => ⟨hp.1, fun r hr => ih r (hp.2 r hr) fun h a => hf (⟨o, r⟩ :: h) a⟩

/-- What a program relies on and what it may do, it leaves behind. -/
theorem Relies.yields {allowed : Op → Prop} {ends : α → Prop} :
    ∀ {p : Prog Op Res α}, p.Relies good allowed ends →
      p.Yields good (fun _ o => allowed o)
        fun h a => (∀ e ∈ h, allowed e.op ∧ good e.op e.res) ∧ ends a := by
  intro p
  induction p with
  | ret a => exact fun hp => ⟨by simp, hp⟩
  | step o k ih =>
      refine fun hp => ⟨hp.1, fun r hr => ?_⟩
      refine (ih r (hp.2 r hr)).mono (fun _ _ => id) fun h a hend => ⟨?_, hend.2⟩
      rw [List.forall_mem_cons]
      exact ⟨⟨hp.1, hr⟩, hend.1⟩

theorem yields_trivial (p : Prog Op Res α) :
    p.Yields good (fun _ _ => True) fun _ _ => True :=
  (relies_trivial p).yields.mono (fun _ _ _ => trivial) fun _ _ _ => trivial

/-- A contract about whole histories. -/
theorem Meets.yields : ∀ {p : Prog Op Res α} {h : List (Act Op Res)}, p.Meets pre post h →
    p.Yields good (fun h' => pre (h ++ h')) fun h' => post (h ++ h') := by
  intro p
  induction p with
  | ret a =>
      intro h hp
      change post (h ++ []) a
      rwa [List.append_nil]
  | step o k ih =>
      intro h hp
      refine ⟨?_, fun r _ => (ih r (hp.2 r)).mono (fun h' o hpre => ?_) fun h' a hend => ?_⟩
      · simpa using hp.1
      · rwa [List.append_assoc] at hpre
      · rwa [List.append_assoc] at hend

/-- A history is only added to. -/
theorem meets_append : ∀ (p : Prog Op Res α) (h : List (Act Op Res)),
    p.Meets (fun h' _ => h <+: h') (fun h' _ => h <+: h') h := by
  intro p
  induction p with
  | ret a => exact fun h => List.prefix_rfl
  | step o k ih =>
      refine fun h => ⟨List.prefix_rfl, fun r => ?_⟩
      have hlonger : ∀ {h'}, h ++ [⟨o, r⟩] <+: h' → h <+: h' := (List.prefix_append _ _).trans
      exact (ih r _).mono (fun _ _ => hlonger) fun _ _ => hlonger

/-- What a program yields it meets, as far as the answers are good. -/
theorem Yields.meets : ∀ {p : Prog Op Res α} {h : List (Act Op Res)},
    p.Yields good (fun h' => pre (h ++ h')) (fun h' => ends (h ++ h')) →
      p.Meets (fun h' o => (∀ e ∈ h', good e.op e.res) → pre h' o)
        (fun h' a => (∀ e ∈ h', good e.op e.res) → ends h' a) h := by
  intro p
  induction p with
  | ret a =>
      intro h hp _
      simpa using hp
  | step o k ih =>
      refine fun {h} hp => ⟨fun _ => by simpa using hp.1, fun r => ?_⟩
      by_cases hr : good o r
      · refine ih r ((hp.2 r hr).mono (fun h' o hpre => ?_) fun h' a hend => ?_)
        · rwa [List.append_assoc]
        · rwa [List.append_assoc]
      · -- nothing is claimed after a bad answer
        have hbad : ∀ {h'}, h ++ [⟨o, r⟩] <+: h' → ¬ ∀ e ∈ h', good e.op e.res :=
          fun hlonger hgood => hr (hgood ⟨o, r⟩ (hlonger.subset (by simp)))
        exact (meets_append (k r) _).mono (fun h' o hlonger hgood => absurd hgood (hbad hlonger))
          fun h' a hlonger hgood => absurd hgood (hbad hlonger)

end Yields

/-! ## Programs that can fail -/

section Failing

variable {ε : Type w} {mid : List (Act Op Res) → Except ε α → Prop}
  {post : List (Act Op Res) → Except ε β → Prop}

/-- Sequential composition of programs that can fail: a failure of the first is one
of the whole. -/
theorem Meets.bind_except {p : ExceptT ε (Prog Op Res) α} {f : α → ExceptT ε (Prog Op Res) β}
    {h : List (Act Op Res)} (hp : p.run.Meets pre mid h)
    (hok : ∀ h a, mid h (.ok a) → (f a).run.Meets pre post h)
    (herror : ∀ h e, mid h (.error e) → post h (.error e)) : (p >>= f).run.Meets pre post h := by
  refine Meets.bind hp fun h result hmid => ?_
  cases result with
  | error e => exact herror h e hmid
  | ok a => exact hok h a hmid

theorem Relies.bind_except {good : (o : Op) → Res o → Prop} {allowed : Op → Prop}
    {mid : Except ε α → Prop} {ends : Except ε β → Prop} {p : ExceptT ε (Prog Op Res) α}
    {f : α → ExceptT ε (Prog Op Res) β} (hp : p.run.Relies good allowed mid)
    (hok : ∀ a, mid (.ok a) → (f a).run.Relies good allowed ends)
    (herror : ∀ e, mid (.error e) → ends (.error e)) : (p >>= f).run.Relies good allowed ends := by
  refine Relies.bind hp fun result hmid => ?_
  cases result with
  | error e => exact herror e hmid
  | ok a => exact hok a hmid

theorem Yields.bind_except {good : (o : Op) → Res o → Prop}
    {pre : List (Act Op Res) → Op → Prop}
    {p : ExceptT ε (Prog Op Res) α} {f : α → ExceptT ε (Prog Op Res) β}
    (hp : p.run.Yields good pre mid)
    (hok : ∀ h a, mid h (.ok a) →
      (f a).run.Yields good (fun h' => pre (h ++ h')) fun h' => post (h ++ h'))
    (herror : ∀ h e, mid h (.error e) → post h (.error e)) :
    (p >>= f).run.Yields good pre post := by
  refine Yields.bind hp fun h result hmid => ?_
  cases result with
  | error e =>
      change post (h ++ []) (.error e)
      rw [List.append_nil]
      exact herror h e hmid
  | ok a => exact hok h a hmid

end Failing

end Prog

/-! ## Expanding operations -/

namespace Prog

universe u'

variable {Op : Type u} {Res : Op → Type w} {Op' : Type u'} {Res' : Op' → Type w} {α : Type w}

/-- Perform each operation by a program over other operations. -/
def expand (f : (o : Op) → Prog Op' Res' (Res o)) : Prog Op Res α → Prog Op' Res' α
  | ret a => ret a
  | step o k => (f o).bind fun r => (k r).expand f

/-- **An expanded program meets what the program meets**, its history being read off
the longer one by `erase`. -/
theorem Meets.expand {f : (o : Op) → Prog Op' Res' (Res o)}
    {pre : List (Act Op Res) → Op → Prop} {post : List (Act Op Res) → α → Prop}
    {pre' : List (Act Op' Res') → Op' → Prop} (erase : List (Act Op' Res') → List (Act Op Res))
    (hf : ∀ h o, pre (erase h) o →
      (f o).Meets pre' (fun h' r => erase h' = erase h ++ [⟨o, r⟩]) h) :
    ∀ {p : Prog Op Res α} {h : List (Act Op' Res')}, p.Meets pre post (erase h) →
      (p.expand f).Meets pre' (fun h a => post (erase h) a) h := by
  intro p
  induction p with
  | ret a => intro h hp; exact hp
  | step o k ih =>
      intro h hp
      refine (hf h o hp.1).bind fun h' r herase => ih r ?_
      rw [herase]
      exact hp.2 r

theorem Relies.expand {f : (o : Op) → Prog Op' Res' (Res o)} {good : (o : Op) → Res o → Prop}
    {allowed : Op → Prop} {ends : α → Prop} {good' : (o : Op') → Res' o → Prop}
    {allowed' : Op' → Prop} (hf : ∀ o, allowed o → (f o).Relies good' allowed' (good o)) :
    ∀ {p : Prog Op Res α}, p.Relies good allowed ends →
      (p.expand f).Relies good' allowed' ends := by
  intro p
  induction p with
  | ret a => exact id
  | step o k ih => exact fun hp => (hf o hp.1).bind fun r hr => ih r (hp.2 r hr)

/-- An expanded program yields what the program yields, its history being what `erase`
finds in the longer one. -/
theorem Yields.expand {f : (o : Op) → Prog Op' Res' (Res o)} {good : (o : Op) → Res o → Prop}
    {good' : (o : Op') → Res' o → Prop} (erase : Act Op' Res' → Option (Act Op Res))
    (hf : ∀ o, (f o).Yields good' (fun _ _ => True)
      fun h r => good o r ∧ h.filterMap erase = [⟨o, r⟩]) :
    ∀ {p : Prog Op Res α} {ends : List (Act Op Res) → α → Prop},
      p.Yields good (fun _ _ => True) ends →
        (p.expand f).Yields good' (fun _ _ => True) fun h => ends (h.filterMap erase) := by
  intro p
  induction p with
  | ret a => exact fun hp => hp
  | step o k ih =>
      refine fun hp => (hf o).bind fun h r hmid => ?_
      obtain ⟨hgood, herase⟩ := hmid
      refine (ih r (hp.2 r hgood)).mono (fun _ _ => id) fun h' a hend => ?_
      rwa [List.filterMap_append, herase]

end Prog
