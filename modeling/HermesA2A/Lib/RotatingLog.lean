import Mathlib.Data.List.Basic
import Mathlib.Data.Nat.Basic
import Mathlib.Tactic.SplitIfs

/-!
# Rotating logs

A log in two parts.  Entries are appended to the current part; when it has grown beyond a limit
it takes the place of the old one.  The old part can also be given up first, and the rotation
then break off.

* `Log.Retains` — what is kept is the end of the history, and more than the limit of it if there
  was more.
* `Log.Bounded` — neither part is larger than the limit and one entry.

An entry is written as a record, which a terminator ends, and the writing can break off as well.

* `Piece` — an entry, and how much of its record was written.
* `intact` — the entries that are whole, and do not come right after one that is not.
* `intact_sublist`, `split_of_whole` — their records are found; and nothing else is, if every
  entry is whole.
-/

namespace RotatingLog

variable {α : Type*}

/-- The two parts. -/
structure Log (α : Type*) where
  old : List α
  current : List α

/-- The size of some entries. -/
def total (size : α → ℕ) : List α → ℕ
  | [] => 0
  | a :: entries => size a + total size entries

@[simp] theorem total_nil (size : α → ℕ) : total size [] = 0 := rfl

@[simp] theorem total_cons (size : α → ℕ) (a : α) (entries : List α) :
    total size (a :: entries) = size a + total size entries := rfl

@[simp] theorem total_append (size : α → ℕ) (entries entries' : List α) :
    total size (entries ++ entries') = total size entries + total size entries' := by
  induction entries with
  | nil => exact (Nat.zero_add _).symm
  | cons a entries ih => rw [List.cons_append, total_cons, total_cons, ih, Nat.add_assoc]

namespace Log

/-- Nothing is logged yet. -/
def empty : Log α := ⟨[], []⟩

/-- Everything that is kept. -/
def entries (l : Log α) : List α := l.old ++ l.current

/-- An entry is added. -/
def append (l : Log α) (a : α) : Log α := { l with current := l.current ++ [a] }

/-- The old part is given up. -/
def discard (l : Log α) : Log α := { l with old := [] }

/-- The current part takes its place. -/
def rotate (l : Log α) : Log α := ⟨l.current, []⟩

/-- **The log keeps the end of a history**, and more than `limit` of it if anything of it is
lost. -/
def Retains (size : α → ℕ) (limit : ℕ) (history : List α) (l : Log α) : Prop :=
  ∃ lost, history = lost ++ l.entries ∧
    (lost ≠ [] → limit < total size l.old ∨ limit < total size l.current)

/-- **Neither part is larger than** `limit` **and one entry**. -/
structure Bounded (size : α → ℕ) (limit longest : ℕ) (l : Log α) : Prop where
  old : total size l.old ≤ limit + longest
  current : total size l.current ≤ limit + longest

section Steps

variable {size : α → ℕ} {limit longest : ℕ} {history : List α} {l : Log α}

theorem retains_empty : (empty : Log α).Retains size limit [] :=
  ⟨[], rfl, fun h => absurd rfl h⟩

theorem Retains.append (h : l.Retains size limit history) (a : α) :
    (l.append a).Retains size limit (history ++ [a]) := by
  obtain ⟨lost, rfl, hlost⟩ := h
  refine ⟨lost, ?_, fun hne => (hlost hne).imp_right fun hlt => ?_⟩
  · unfold Log.append entries
    simp only [List.append_assoc]
  · change limit < total size (l.current ++ [a])
    rw [total_append]
    exact Nat.lt_add_right _ hlt

/-- The old part may be lost once the current one is large enough. -/
theorem Retains.discard (h : l.Retains size limit history) (hlt : limit < total size l.current) :
    l.discard.Retains size limit history := by
  obtain ⟨lost, rfl, -⟩ := h
  exact ⟨lost ++ l.old, (List.append_assoc ..).symm, fun _ => Or.inr hlt⟩

theorem Retains.rotate (h : l.Retains size limit history) (hlt : limit < total size l.current) :
    l.rotate.Retains size limit history := by
  obtain ⟨lost, rfl, -⟩ := h
  refine ⟨lost ++ l.old, ?_, fun _ => Or.inl hlt⟩
  unfold Log.rotate entries
  rw [List.append_nil, List.append_assoc]

theorem bounded_empty : (empty : Log α).Bounded size limit longest := ⟨Nat.zero_le _, Nat.zero_le _⟩

theorem Bounded.rotate (h : l.Bounded size limit longest) : l.rotate.Bounded size limit longest :=
  ⟨h.current, Nat.zero_le _⟩

/-- An entry may be added to a part that has not grown beyond the limit. -/
theorem Bounded.append (h : l.Bounded size limit longest) (hle : total size l.current ≤ limit)
    {a : α} (ha : size a ≤ longest) : (l.append a).Bounded size limit longest := by
  refine ⟨h.old, ?_⟩
  change total size (l.current ++ [a]) ≤ _
  rw [total_append, total_cons, total_nil, Nat.add_zero]
  exact Nat.add_le_add hle ha

end Steps

end Log

/-! ### Records -/

section Records

variable {σ : Type*} (stop : σ) (record : α → List σ)

/-- An entry, and how much of its record was written. -/
structure Piece (α : Type*) where
  entry : α
  count : ℕ

namespace Piece

/-- What was written. -/
def written (p : Piece α) : List σ := (record p.entry ++ [stop]).take p.count

/-- The record was written to its end. -/
def whole (p : Piece α) : Prop := (record p.entry).length < p.count

instance (p : Piece α) : Decidable (p.whole record) := inferInstanceAs (Decidable (_ < _))

variable {stop record} {p : Piece α}

theorem written_of_whole (h : p.whole record) : p.written stop record = record p.entry ++ [stop] := by
  refine List.take_of_length_le ?_
  rw [List.length_append]
  exact h

theorem written_of_not_whole (h : ¬ p.whole record) :
    p.written stop record = (record p.entry).take p.count :=
  List.take_append_of_le_length (Nat.le_of_not_lt h)

end Piece

/-- **The entries that are whole and begin a record**: nothing that was cut off stands before
them. -/
def intact (fresh : Bool) : List (Piece α) → List α
  | [] => []
  | p :: pieces =>
      if p.whole record then
        if fresh then p.entry :: intact true pieces else intact true pieces
      else intact (fresh && (p.written stop record).isEmpty) pieces

/-- They are entries. -/
theorem intact_sublist_entries (fresh : Bool) (pieces : List (Piece α)) :
    (intact stop record fresh pieces).Sublist (pieces.map Piece.entry) := by
  induction pieces generalizing fresh with
  | nil => exact List.nil_sublist _
  | cons p pieces ih =>
      rw [intact, List.map_cons]
      split_ifs
      · exact (ih true).cons_cons _
      · exact (ih true).cons _
      · exact (ih _).cons _

variable [DecidableEq σ]

/-- The records of a text, the first of which has begun already.  The last one need not have come
to its end. -/
def split (begun : List σ) : List σ → List (List σ)
  | [] => if begun = [] then [] else [begun]
  | c :: text => if c = stop then begun :: split [] text else split (begun ++ [c]) text

variable {stop record}

/-- What has no terminator belongs to the record that has begun. -/
theorem split_append {text : List σ} (h : stop ∉ text) (begun rest : List σ) :
    split stop begun (text ++ rest) = split stop (begun ++ text) rest := by
  induction text generalizing begun with
  | nil => rw [List.nil_append, List.append_nil]
  | cons c text ih =>
      obtain ⟨hc, htext⟩ := not_or.mp fun hmem => h (List.mem_cons.mpr hmem)
      rw [List.cons_append, split, if_neg fun heq => hc heq.symm, ih htext, List.append_assoc,
        List.singleton_append]

theorem split_record {text : List σ} (h : stop ∉ text) (begun rest : List σ) :
    split stop begun (text ++ [stop] ++ rest) = (begun ++ text) :: split stop [] rest := by
  rw [List.append_assoc, split_append h, List.singleton_append, split, if_pos rfl]

variable {pieces : List (Piece α)} (hfree : ∀ p ∈ pieces, stop ∉ record p.entry)

include hfree

/-- **What is intact is found**, in order. -/
theorem intact_sublist (begun : List σ) :
    ((intact stop record begun.isEmpty pieces).map record).Sublist
      (split stop begun (pieces.flatMap (Piece.written stop record))) := by
  induction pieces generalizing begun with
  | nil => exact List.nil_sublist _
  | cons p pieces ih =>
      have hp := hfree p List.mem_cons_self
      have ih := ih fun q hq => hfree q (List.mem_cons_of_mem p hq)
      rw [List.flatMap_cons, intact]
      by_cases hwhole : p.whole record
      · rw [if_pos hwhole, Piece.written_of_whole hwhole, split_record hp]
        cases begun with
        | nil => exact (ih []).cons_cons _
        | cons c begun => exact (ih []).cons _
      · have htake : stop ∉ (record p.entry).take p.count := fun hmem => hp (List.mem_of_mem_take hmem)
        have hempty : (begun ++ p.written stop record).isEmpty =
            (begun.isEmpty && (p.written stop record).isEmpty) := by
          cases begun <;> rfl
        rw [if_neg hwhole, ← hempty, Piece.written_of_not_whole hwhole, split_append htake]
        exact ih _

/-- **If every entry is whole, they are what is found.** -/
theorem split_of_whole (hwhole : ∀ p ∈ pieces, p.whole record) :
    split stop [] (pieces.flatMap (Piece.written stop record)) =
      pieces.map fun p => record p.entry := by
  induction pieces with
  | nil => rfl
  | cons p pieces ih =>
      rw [List.flatMap_cons, Piece.written_of_whole (hwhole p List.mem_cons_self),
        split_record (hfree p List.mem_cons_self), List.map_cons, List.nil_append,
        ih (fun q hq => hfree q (List.mem_cons_of_mem p hq))
          fun q hq => hwhole q (List.mem_cons_of_mem p hq)]

end Records

end RotatingLog
