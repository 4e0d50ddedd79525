import HermesA2A.Lib.Text
import Mathlib.Data.List.Basic
import Mathlib.Data.List.TakeWhile

/-!
# Paths

File paths as lists of components, joined the way Python's `pathlib` does it and resolved
without a look at the file system: `.` stays, `..` goes up, and goes nowhere from the root.

* `Proper` — a component that names an entry of the directory it stands in.
* `inside_join_iff` — a file in a directory that is given by a text without slashes is just
  two levels below the base exactly if the text is a proper component.
-/

namespace Paths

/-- A component of a path. -/
abbrev Component := List Char

/-- The components of a text; `pathlib` drops the empty ones and the single dots. -/
def parts (text : List Char) : List Component :=
  (text.splitOn '/').filter (· ∉ [[], ['.']])

/-- `base / segment` -/
def join (base : List Component) (segment : List Char) : List Component :=
  if segment.head? = some '/' then parts segment else base ++ parts segment

/-- One step of a walk from the root. -/
def climb (reached : List Component) (c : Component) : List Component :=
  if c = ['.', '.'] then reached.dropLast
  else if c = [] ∨ c = ['.'] then reached
  else reached ++ [c]

/-- Where a path from the root leads. -/
def resolve (path : List Component) : List Component := path.foldl climb []

/-- **A proper component** is the name of an entry, and neither the directory itself nor the
one above. -/
structure Proper (c : Component) : Prop where
  ne_nil : c ≠ []
  ne_dot : c ≠ ['.']
  ne_dots : c ≠ ['.', '.']
  no_slash : '/' ∉ c

/-- A file directly inside a directory directly inside the base. -/
def Inside (base path : List Component) : Prop :=
  ∃ directory file, Proper directory ∧ Proper file ∧
    resolve path = resolve base ++ [directory, file]

variable {base path : List Component} {c name file : Component}

theorem parts_of_no_slash (h : '/' ∉ name) :
    parts name = if name ∈ [[], ['.']] then [] else [name] := by
  unfold parts
  rw [List.splitOn_eq_singleton h]
  by_cases hmem : name ∈ ([[], ['.']] : List Component)
  · rw [if_pos hmem, List.filter_cons_of_neg (by simpa only [decide_eq_true_eq, not_not] using hmem)]
    rfl
  · rw [if_neg hmem, List.filter_cons_of_pos (by simpa only [decide_eq_true_eq] using hmem)]
    rfl

theorem join_of_no_slash (h : '/' ∉ name) :
    join base name = base ++ if name ∈ [[], ['.']] then [] else [name] := by
  have hhead : name.head? ≠ some '/' := fun heq => h (List.mem_of_mem_head? heq)
  rw [join, if_neg hhead, parts_of_no_slash h]

theorem resolve_append_singleton (path : List Component) (c : Component) :
    resolve (path ++ [c]) = climb (resolve path) c := by
  rw [resolve, List.foldl_append]
  rfl

theorem Proper.join_eq (h : Proper c) : join base c = base ++ [c] := by
  rw [join_of_no_slash h.no_slash, if_neg]
  simp [h.ne_nil, h.ne_dot]

theorem Proper.climb_eq (h : Proper c) : climb path c = path ++ [c] := by
  rw [climb, if_neg h.ne_dots, if_neg (not_or.mpr ⟨h.ne_nil, h.ne_dot⟩)]

/-- **When a file is inside.**  A directory that is no proper component leaves the file in the
base, or above. -/
theorem inside_join_iff (hfile : Proper file) (hname : '/' ∉ name) :
    Inside base (join (join base name) file) ↔ name ∉ [[], ['.'], ['.', '.']] := by
  rw [hfile.join_eq]
  unfold Inside
  rw [resolve_append_singleton, hfile.climb_eq, join_of_no_slash hname]
  by_cases hhere : name ∈ ([[], ['.']] : List Component)
  · rw [if_pos hhere, List.append_nil]
    refine iff_of_false ?_ fun hnot => hnot (List.mem_append_left [['.', '.']] hhere)
    rintro ⟨directory, file', -, -, heq⟩
    simpa using congrArg List.length heq
  · rw [if_neg hhere, resolve_append_singleton]
    by_cases habove : name = ['.', '.']
    · subst habove
      refine iff_of_false ?_ (by simp)
      rintro ⟨directory, file', -, -, heq⟩
      have hlength := congrArg List.length heq
      simp only [climb, if_true, List.length_append, List.length_dropLast, List.length_cons,
        List.length_nil] at hlength
      omega
    · have hproper : Proper name :=
        { ne_nil := fun h => hhere (by simp [h])
          ne_dot := fun h => hhere (by simp [h])
          ne_dots := habove
          no_slash := hname }
      rw [hproper.climb_eq]
      refine iff_of_true ⟨name, file, hproper, hfile, by simp⟩ ?_
      simp [hproper.ne_nil, hproper.ne_dot, hproper.ne_dots]

end Paths
