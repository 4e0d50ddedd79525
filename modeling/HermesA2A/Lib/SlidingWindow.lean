import Mathlib.Algebra.Order.Group.Defs
import Mathlib.Algebra.Order.Group.Unbundled.Basic
import Mathlib.Data.List.Basic
import Mathlib.Order.Lattice

/-!
# Sliding windows

A limiter that keeps the times of what it granted, oldest first.  A call forgets the
times that have left the window, and is granted if fewer than `limit` remain.

What has been forgotten is forgotten for good, so what is kept says nothing about the
whole past.  It says all there is to say about the windows still to come: from the last
window on, what is kept and what was ever granted have the same times (`Keeps`).

* `consume_iff` — a call is granted exactly if fewer than `limit` were granted in the
  window that ends with it.
* `countP_granted_le` — no interval of the window's length contains more than `limit`
  granted calls, wherever it begins.
-/

namespace SlidingWindow

/-! ### Sorted times -/

section Sorted

variable {K : Type*} [LinearOrder K]

/-- How many of the times lie in the closed interval from `a` to `b`. -/
def countIn (a b : K) (times : List K) : ℤ := times.countP fun s => a ≤ s ∧ s ≤ b

theorem countIn_append (a b : K) (times times' : List K) :
    countIn a b (times ++ times') = countIn a b times + countIn a b times' := by
  simp [countIn, List.countP_append]

/-- In a sorted list, what is dropped is what is too small. -/
theorem dropWhile_lt_eq_filter {times : List K} (h : times.Pairwise (· ≤ ·)) (c : K) :
    times.dropWhile (· < c) = times.filter (c ≤ ·) := by
  induction times with
  | nil => rfl
  | cons s times ih =>
      obtain ⟨hle, hrest⟩ := List.pairwise_cons.mp h
      by_cases hs : s < c
      · rw [List.dropWhile_cons_of_pos (by simpa using hs),
          List.filter_cons_of_neg (by simpa using hs), ih hrest]
      · have hall : ∀ x ∈ s :: times, c ≤ x :=
          List.forall_mem_cons.mpr ⟨not_lt.mp hs, fun x hx => (not_lt.mp hs).trans (hle x hx)⟩
        rw [List.dropWhile_cons_of_neg (by simpa using hs), List.filter_eq_self.mpr]
        simpa using hall

end Sorted

/-! ### The limiter -/

variable {K : Type*} [AddCommGroup K] [LinearOrder K]

/-- A call at the time `now`: is it granted, and what is kept? -/
def consume (width : K) (limit : ℤ) (now : K) (kept : List K) : Bool × List K :=
  let kept := kept.dropWhile (· < now - width)
  if (kept.length : ℤ) ≥ limit then (false, kept) else (true, kept ++ [now])

/-- The times of the calls that are granted. -/
def granted (width : K) (limit : ℤ) : List K → List K → List K
  | _, [] => []
  | kept, now :: times =>
      if (consume width limit now kept).1 then
        now :: granted width limit (consume width limit now kept).2 times
      else granted width limit (consume width limit now kept).2 times

/-- What is kept after a sequence of calls. -/
def keptAfter (width : K) (limit : ℤ) (kept times : List K) : List K :=
  times.foldl (fun kept now => (consume width limit now kept).2) kept

/-- **What is kept of what was granted.**  `past` is what was granted up to the time `t`, in
order.  The kept times are some of it, and all of it from the last window on. -/
structure Keeps (width : K) (limit : ℤ) (t : K) (past kept : List K) : Prop where
  sorted : past.Pairwise (· ≤ ·)
  until_now : ∀ s ∈ past, s ≤ t
  some_of : kept.Sublist past
  all_recent : ∀ c, t - width ≤ c → kept.filter (c ≤ ·) = past.filter (c ≤ ·)
  bounded : ∀ a, countIn a (a + width) past ≤ max limit 0

section Invariant

variable {width t now : K} {limit : ℤ} {past kept times : List K}

theorem keeps_nil : Keeps width limit t [] [] where
  sorted := List.Pairwise.nil
  until_now _ h := absurd h List.not_mem_nil
  some_of := List.Sublist.refl _
  all_recent _ _ := rfl
  bounded _ := le_max_right _ _

theorem Keeps.mono [IsOrderedAddMonoid K] (h : Keeps width limit t past kept) (hle : t ≤ now) :
    Keeps width limit now past kept :=
  { h with
    until_now := fun s hs => (h.until_now s hs).trans hle
    all_recent := fun c hc => h.all_recent c ((sub_le_sub_right hle width).trans hc) }

/-- What a call finds when it has dropped what left the window. -/
theorem Keeps.dropWhile_eq (h : Keeps width limit now past kept) :
    kept.dropWhile (· < now - width) = past.filter (now - width ≤ ·) := by
  rw [dropWhile_lt_eq_filter (h.sorted.sublist h.some_of)]
  exact h.all_recent _ le_rfl

/-- So it counts what was granted in the window that ends now. -/
theorem Keeps.length_dropWhile (h : Keeps width limit now past kept) :
    ((kept.dropWhile (· < now - width)).length : ℤ) = countIn (now - width) now past := by
  rw [h.dropWhile_eq, ← List.countP_eq_length_filter, countIn]
  congr 1
  refine List.countP_congr fun s hs => ?_
  simp [h.until_now s hs]

/-- **One call**, granted exactly if there is room in the window that ends with it. -/
theorem Keeps.consume_iff (h : Keeps width limit now past kept) :
    (consume width limit now kept).1 = true ↔ countIn (now - width) now past < limit := by
  unfold consume
  dsimp only
  rw [h.length_dropWhile]
  split_ifs with hfull
  · simpa using hfull
  · simpa using hfull

/-- What a call drops was too old for it, and is for all later ones. -/
theorem Keeps.filter_dropWhile (h : Keeps width limit now past kept) {c : K}
    (hc : now - width ≤ c) :
    (kept.dropWhile (· < now - width)).filter (c ≤ ·) = past.filter (c ≤ ·) := by
  rw [h.dropWhile_eq, List.filter_filter]
  refine List.filter_congr fun s _ => ?_
  by_cases hs : c ≤ s
  · simp [hs, hc.trans hs]
  · simp [hs]

variable [IsOrderedAddMonoid K]

/-- A granted call does not overfill an interval: what lies in an interval with it lies in
the window that ends with it. -/
theorem Keeps.countIn_grant (h : Keeps width limit now past kept)
    (hroom : countIn (now - width) now past < limit) (a : K) :
    countIn a (a + width) (past ++ [now]) ≤ max limit 0 := by
  rw [countIn_append]
  by_cases hin : a ≤ now ∧ now ≤ a + width
  · have hsubset : countIn a (a + width) past ≤ countIn (now - width) now past := by
      refine Int.ofNat_le.mpr (List.countP_mono_left fun s hs hsa => ?_)
      simp only [decide_eq_true_eq] at hsa ⊢
      exact ⟨(sub_le_iff_le_add.mpr hin.2).trans hsa.1, h.until_now s hs⟩
    have hone : countIn a (a + width) [now] = 1 := by simp [countIn, hin]
    omega
  · have hnone : countIn a (a + width) [now] = 0 := by simpa [countIn] using hin
    have hbounded := h.bounded a
    omega

/-- **What a call leaves.** -/
theorem Keeps.after_call (h : Keeps width limit now past kept) :
    Keeps width limit now
      (past ++ if (consume width limit now kept).1 then [now] else [])
      (consume width limit now kept).2 := by
  have hsub : (kept.dropWhile (· < now - width)).Sublist past :=
    (List.dropWhile_sublist _).trans h.some_of
  by_cases hfull : ((kept.dropWhile (· < now - width)).length : ℤ) ≥ limit
  · have heq : consume width limit now kept = (false, kept.dropWhile (· < now - width)) :=
      if_pos hfull
    simp only [heq, Bool.false_eq_true, if_false, List.append_nil]
    exact { h with some_of := hsub, all_recent := fun c hc => h.filter_dropWhile hc }
  · have heq : consume width limit now kept =
        (true, kept.dropWhile (· < now - width) ++ [now]) := if_neg hfull
    have hroom : countIn (now - width) now past < limit := h.consume_iff.mp (by rw [heq])
    simp only [heq, if_true]
    exact
      { sorted := List.pairwise_append.mpr
          ⟨h.sorted, List.pairwise_singleton _ _, by simpa using h.until_now⟩
        until_now := by simpa [or_imp, forall_and] using h.until_now
        some_of := hsub.append_right _
        all_recent := fun c hc => by
          rw [List.filter_append, List.filter_append, h.filter_dropWhile hc]
        bounded := h.countIn_grant hroom }

/-- **A sequence of calls** in the order of their times. -/
theorem Keeps.run (h : Keeps width limit t past kept) (hsorted : times.Pairwise (· ≤ ·))
    (hfrom : ∀ s ∈ times, t ≤ s) (hto : ∀ s ∈ times, s ≤ now) (hle : t ≤ now) :
    Keeps width limit now (past ++ granted width limit kept times)
      (keptAfter width limit kept times) := by
  induction times generalizing t past kept with
  | nil => simpa [granted, keptAfter] using h.mono hle
  | cons s times ih =>
      obtain ⟨hlater, hsorted⟩ := List.pairwise_cons.mp hsorted
      have hstep := (h.mono (hfrom s List.mem_cons_self)).after_call
      have hrest := ih hstep hsorted hlater (fun x hx => hto x (List.mem_cons_of_mem s hx))
        (hto s List.mem_cons_self)
      rw [granted, keptAfter, List.foldl_cons]
      split_ifs at hrest ⊢ with hok
      · rwa [List.append_assoc] at hrest
      · rwa [List.append_nil] at hrest

end Invariant

section Runs

variable [IsOrderedAddMonoid K] {width : K} {limit : ℤ} {times before after : List K} {now : K}

/-- After any calls up to now, a limiter that began with nothing keeps what it must. -/
theorem keeps_before (hsorted : times.Pairwise (· ≤ ·)) (hto : ∀ s ∈ times, s ≤ now) :
    Keeps width limit now (granted width limit [] times) (keptAfter width limit [] times) := by
  cases times with
  | nil => exact keeps_nil
  | cons t times =>
      have hlater := (List.pairwise_cons.mp hsorted).1
      exact (keeps_nil (t := t)).run hsorted (List.forall_mem_cons.mpr ⟨le_rfl, hlater⟩) hto
        (hto t List.mem_cons_self)

/-- **A call is granted exactly if there is room in the window that ends with it.** -/
theorem consume_iff (hsorted : (before ++ now :: after).Pairwise (· ≤ ·)) :
    (consume width limit now (keptAfter width limit [] before)).1 = true ↔
      countIn (now - width) now (granted width limit [] before) < limit := by
  obtain ⟨hbefore, -, hle⟩ := List.pairwise_append.mp hsorted
  exact (keeps_before hbefore fun s hs => hle s hs now List.mem_cons_self).consume_iff

/-- **No interval of the window's length contains more than the limit.** -/
theorem countIn_granted_le (hsorted : times.Pairwise (· ≤ ·)) (a : K) :
    countIn a (a + width) (granted width limit [] times) ≤ max limit 0 := by
  rcases List.eq_nil_or_concat times with rfl | ⟨init, last, rfl⟩
  · exact le_max_right _ _
  · have hto : ∀ s ∈ init.concat last, s ≤ last := by
      rw [List.concat_eq_append] at hsorted ⊢
      simpa [or_imp, forall_and] using (List.pairwise_append.mp hsorted).2.2
    exact (keeps_before hsorted hto).bounded a

end Runs

end SlidingWindow
