import Mathlib.Data.List.Perm.Subperm
import Mathlib.Order.Lattice

/-!
# Pages of a list, newest first

A list in descending order of a key is read page by page, by an offset.  The place of an
element is the number of elements newer than it.  So an element is on the page that covers
its place, and where elements only come in, newer ones or not, no place goes down.

* `mem_page` — an element is on the page that covers its place.
* `newer_le_of_subperm` — places only go up.
* `page_append_drop` — a page and what comes after it.
-/

universe u v

namespace Paging

variable {α : Type u} {β : Type v} [LinearOrder β]

/-- The number of elements newer than a key. -/
def newer (key : α → β) (l : List α) (b : β) : ℕ := l.countP fun y => b < key y

/-- In descending order. -/
def Descending (key : α → β) (l : List α) : Prop := l.Pairwise fun x y => key y < key x

/-- One page. -/
def page (l : List α) (offset size : ℕ) : List α := (l.drop offset).take size

theorem page_append_drop (l : List α) (offset size : ℕ) :
    page l offset size ++ l.drop (offset + size) = l.drop offset := by
  rw [page, ← List.drop_drop, List.take_append_drop]

theorem page_eq_drop {l : List α} {offset size : ℕ} (h : l.length ≤ offset + size) :
    page l offset size = l.drop offset := by
  rw [page, List.take_of_length_le]
  rw [List.length_drop]
  omega

variable {key : α → β} {l l' : List α}

theorem newer_lt_length {x : α} (hx : x ∈ l) : newer key l (key x) < l.length := by
  refine Nat.lt_of_le_of_ne List.countP_le_length fun heq => ?_
  have hall := List.countP_eq_length.mp heq x hx
  exact absurd (of_decide_eq_true hall) (lt_irrefl _)

/-- Where elements come in, places only go up. -/
theorem newer_le_of_subperm (h : l.Subperm l') (b : β) : newer key l b ≤ newer key l' b :=
  h.countP_le _

/-- The place of an element of a descending list. -/
theorem newer_eq_length {before after : List α} {x : α}
    (h : Descending key (before ++ x :: after)) :
    newer key (before ++ x :: after) (key x) = before.length := by
  obtain ⟨-, hafter, hbefore⟩ := List.pairwise_append.mp h
  have hfirst : before.countP (fun y => key x < key y) = before.length := by
    rw [List.countP_eq_length]
    exact fun y hy => decide_eq_true (hbefore y hy x List.mem_cons_self)
  have hlast : after.countP (fun y => key x < key y) = 0 := by
    rw [List.countP_eq_zero]
    exact fun y hy => by simpa using ((List.pairwise_cons.mp hafter).1 y hy).le
  rw [newer, List.countP_append, List.countP_cons, hfirst, hlast]
  simp

/-- **An element is on the page that covers its place.** -/
theorem mem_page {x : α} {offset size : ℕ} (h : Descending key l) (hx : x ∈ l)
    (hlow : offset ≤ newer key l (key x)) (hhigh : newer key l (key x) < offset + size) :
    x ∈ page l offset size := by
  obtain ⟨before, after, rfl⟩ := List.append_of_mem hx
  rw [newer_eq_length h] at hlow hhigh
  have hdrop : (before ++ x :: after).drop offset = before.drop offset ++ x :: after :=
    List.drop_append_of_le_length hlow
  rw [page, hdrop, List.take_append]
  refine List.mem_append_right _ ?_
  have hpos : size - (before.drop offset).length = size - (before.drop offset).length - 1 + 1 := by
    rw [List.length_drop]
    omega
  rw [hpos, List.take_succ_cons]
  exact List.mem_cons_self

end Paging
