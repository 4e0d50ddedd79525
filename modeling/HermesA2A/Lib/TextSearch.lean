import Mathlib.Data.List.Infix

/-!
# Searching in a text

Python's `str.find`, `str.rfind` and `str.replace(…, 1)`.  An index is the length of what
stands before it, so a search returns what stands before the occurrence and what stands
after it.

* `First` — where a pattern first occurs; `find?_eq_some_iff`, `first_iff` — the search is right.
* `infix_intercalate_iff`, `of_mem_splitOn` — joined and split texts.
* `find?_append`, `rfind?_append` — where a text was put together and the pattern occurs
  nowhere else, the search finds the place.
-/

namespace Text

variable {α : Type*} [DecidableEq α]

/-- `text.find(pattern)`: what stands before the first occurrence and what stands after. -/
def find? (pattern : List α) : List α → Option (List α × List α)
  | [] => if pattern = [] then some ([], []) else none
  | c :: text =>
      if pattern.isPrefixOf (c :: text) then some ([], (c :: text).drop pattern.length)
      else (find? pattern text).map fun (before, after) => (c :: before, after)

/-- `text.rfind(pattern)`: the same of the last occurrence. -/
def rfind? (pattern : List α) : List α → Option (List α × List α)
  | [] => if pattern = [] then some ([], []) else none
  | c :: text =>
      match rfind? pattern text with
      | some (before, after) => some (c :: before, after)
      | none =>
          if pattern.isPrefixOf (c :: text) then some ([], (c :: text).drop pattern.length)
          else none

/-- `text.replace(old, new, 1)` -/
def replaceOnce (old new text : List α) : List α :=
  match find? old text with
  | some (before, after) => before ++ new ++ after
  | none => text

/-- The pattern occurs after `before`, and does not begin earlier. -/
def First (pattern text before : List α) : Prop :=
  before ++ pattern <+: text ∧
    ∀ before', before' ++ pattern <+: text → before.length ≤ before'.length

section Find

variable {pattern text before after : List α}

/-- **The first occurrence.** -/
theorem find?_eq_some_iff : find? pattern text = some (before, after) ↔
    text = before ++ pattern ++ after ∧
      ∀ before' after', text = before' ++ pattern ++ after' → before.length ≤ before'.length := by
  induction text generalizing before after with
  | nil =>
      rw [find?]
      constructor
      · intro h
        split_ifs at h with hnil
        obtain ⟨rfl, rfl⟩ := Prod.mk.inj (Option.some.inj h)
        exact ⟨by simp [hnil], fun _ _ _ => Nat.zero_le _⟩
      · rintro ⟨h, -⟩
        obtain ⟨hfront, rfl⟩ := List.append_eq_nil_iff.mp h.symm
        obtain ⟨rfl, rfl⟩ := List.append_eq_nil_iff.mp hfront
        rfl
  | cons c text ih =>
      rw [find?]
      split_ifs with hstart
      · obtain ⟨rest, hrest⟩ := List.isPrefixOf_iff_prefix.mp hstart
        rw [← hrest, List.drop_left]
        constructor
        · intro h
          obtain ⟨rfl, rfl⟩ := Prod.mk.inj (Option.some.inj h)
          exact ⟨rfl, fun _ _ _ => Nat.zero_le _⟩
        · rintro ⟨h, hleast⟩
          obtain rfl := List.length_eq_zero_iff.mp (Nat.le_zero.mp (hleast [] rest rfl))
          rw [List.append_cancel_left h]
      · rw [Option.map_eq_some_iff]
        constructor
        · rintro ⟨⟨before', after'⟩, hfind, heq⟩
          obtain ⟨rfl, rfl⟩ := Prod.mk.inj heq
          obtain ⟨rfl, hleast⟩ := ih.mp hfind
          refine ⟨rfl, fun b a h => ?_⟩
          cases b with
          | nil => exact absurd (List.isPrefixOf_iff_prefix.mpr ⟨a, h.symm⟩) hstart
          | cons d b => exact Nat.succ_le_succ (hleast b a (List.cons.inj h).2)
        · rintro ⟨h, hleast⟩
          cases before with
          | nil => exact absurd (List.isPrefixOf_iff_prefix.mpr ⟨after, h.symm⟩) hstart
          | cons d before =>
              obtain ⟨rfl, htail⟩ := List.cons.inj h
              refine ⟨(before, after), ih.mpr ⟨htail, fun b a hb => ?_⟩, rfl⟩
              exact Nat.le_of_succ_le_succ (hleast (c :: b) a (by rw [hb]; rfl))

theorem first_iff : First pattern text before ↔ ∃ after, find? pattern text = some (before, after) := by
  simp only [find?_eq_some_iff]
  constructor
  · rintro ⟨⟨after, h⟩, hleast⟩
    exact ⟨after, h.symm, fun before' after' heq => hleast before' ⟨after', heq.symm⟩⟩
  · rintro ⟨after, rfl, hleast⟩
    exact ⟨⟨after, rfl⟩, fun before' ⟨after', heq⟩ => hleast before' after' heq.symm⟩

theorem find?_eq_none_iff : find? pattern text = none ↔ ¬ pattern <:+: text := by
  induction text with
  | nil => simp [find?]
  | cons c text ih =>
      rw [find?, List.infix_cons_iff]
      split_ifs with hstart
      · simp [List.isPrefixOf_iff_prefix.mp hstart]
      · rw [List.isPrefixOf_iff_prefix] at hstart
        simp [ih, hstart]

theorem rfind?_eq_none_iff : rfind? pattern text = none ↔ ¬ pattern <:+: text := by
  induction text with
  | nil => simp [rfind?]
  | cons c text ih =>
      rw [rfind?, List.infix_cons_iff, ← List.isPrefixOf_iff_prefix]
      cases hrest : rfind? pattern text with
      | some found =>
          have hin : pattern <:+: text := not_not.mp fun hno => by simp [ih.mpr hno] at hrest
          simp [hin]
      | none =>
          have hno := ih.mp hrest
          dsimp only
          split_ifs with hstart <;> simp [hstart, hno]

theorem eq_of_rfind? (h : rfind? pattern text = some (before, after)) :
    text = before ++ pattern ++ after := by
  induction text generalizing before after with
  | nil =>
      rw [rfind?] at h
      split_ifs at h with hnil
      obtain ⟨rfl, rfl⟩ := Prod.mk.inj (Option.some.inj h)
      simp [hnil]
  | cons c text ih =>
      rw [rfind?] at h
      cases hrest : rfind? pattern text with
      | some found =>
          rw [hrest] at h
          obtain ⟨rfl, rfl⟩ := Prod.mk.inj (Option.some.inj h)
          simp [ih hrest]
      | none =>
          rw [hrest] at h
          dsimp only at h
          split_ifs at h with hstart
          obtain ⟨rest, hrest⟩ := List.isPrefixOf_iff_prefix.mp hstart
          obtain ⟨rfl, rfl⟩ := Prod.mk.inj (Option.some.inj h)
          rw [← hrest, List.drop_left, List.nil_append]

/-- **Found from the front**: the pattern does not begin earlier. -/
theorem find?_append (h : ¬ pattern <:+: before ++ pattern.dropLast) :
    find? pattern (before ++ pattern ++ after) = some (before, after) := by
  refine find?_eq_some_iff.mpr ⟨rfl, fun before' after' heq => ?_⟩
  by_contra hlt
  -- an earlier occurrence ends before the pattern does
  obtain ⟨x, hx⟩ : before' ++ pattern <+: before ++ pattern.dropLast := by
    have hstarts : before' ++ pattern <+: before ++ pattern ++ after := ⟨after', heq.symm⟩
    refine List.prefix_of_prefix_length_le hstarts ?_ ?_
    · rw [List.append_assoc]
      refine (List.prefix_append_right_inj before).mpr ?_
      exact (List.dropLast_prefix pattern).trans (List.prefix_append _ _)
    · simp only [List.length_append, List.length_dropLast]
      omega
  exact h ⟨before', x, hx⟩

/-- **Found from the back**: the pattern does not begin later. -/
theorem rfind?_append (hne : pattern ≠ []) (h : ¬ pattern <:+: pattern.tail ++ after) :
    rfind? pattern (before ++ pattern ++ after) = some (before, after) := by
  induction before with
  | nil =>
      obtain ⟨c, rest, rfl⟩ := List.exists_cons_of_ne_nil hne
      have hstart : (c :: rest).isPrefixOf (c :: (rest ++ after)) = true :=
        List.isPrefixOf_iff_prefix.mpr ⟨after, rfl⟩
      have hnone : rfind? (c :: rest) (rest ++ after) = none := rfind?_eq_none_iff.mpr h
      rw [List.nil_append, List.cons_append, rfind?, hnone]
      dsimp only
      rw [if_pos hstart, ← List.cons_append, List.drop_left]
  | cons c before ih => rw [List.cons_append, List.cons_append, rfind?, ih]

/-- What comes after an occurrence does not matter to the search from the front. -/
theorem find?_append_right {rest : List α} (h : find? pattern text = some (before, after)) :
    find? pattern (text ++ rest) = some (before, after ++ rest) := by
  obtain ⟨rfl, hleast⟩ := find?_eq_some_iff.mp h
  refine find?_eq_some_iff.mpr ⟨by simp, fun before' after' heq => ?_⟩
  by_contra hlt
  obtain ⟨x, hx⟩ : before' ++ pattern <+: before ++ pattern ++ after := by
    have hstarts : before' ++ pattern <+: before ++ pattern ++ after ++ rest :=
      ⟨after', heq.symm⟩
    refine List.prefix_of_prefix_length_le hstarts ⟨rest, rfl⟩ ?_
    simp only [List.length_append]
    omega
  exact hlt (hleast before' x hx.symm)

/-- What comes before an occurrence does not matter to the search from the back. -/
theorem rfind?_append_left {first : List α} (h : rfind? pattern text = some (before, after)) :
    rfind? pattern (first ++ text) = some (first ++ before, after) := by
  induction first with
  | nil => exact h
  | cons c first ih => rw [List.cons_append, rfind?, ih, List.cons_append]

theorem replaceOnce_of_not_infix {new : List α} (h : ¬ pattern <:+: text) :
    replaceOnce pattern new text = text := by
  rw [replaceOnce, find?_eq_none_iff.mpr h]

theorem replaceOnce_self : replaceOnce pattern pattern text = text := by
  unfold replaceOnce
  split
  · rename_i before after hfind
    exact (find?_eq_some_iff.mp hfind).1.symm
  · rfl

theorem replaceOnce_append {new : List α} (h : ¬ pattern <:+: before ++ pattern.dropLast) :
    replaceOnce pattern new (before ++ pattern ++ after) = before ++ new ++ after := by
  rw [replaceOnce, find?_append h]

end Find

/-! ### Where a pattern cannot occur -/

section Infix

omit [DecidableEq α]

variable {pattern x y : List α} {c : α}

/-- A pattern does not reach over a character that is not in it. -/
theorem infix_or_of_notMem (hc : c ∉ pattern) (h : pattern <:+: x ++ c :: y) :
    pattern <:+: x ∨ pattern <:+: y := by
  obtain ⟨u, v, huv⟩ := h
  rcases List.append_eq_append_iff.mp huv with ⟨z, rfl, -⟩ | ⟨z, hz, hy⟩
  · exact Or.inl ⟨u, z, rfl⟩
  · rcases List.append_eq_append_iff.mp hz with ⟨w, rfl, hw⟩ | ⟨w, hw, rfl⟩
    · cases z with
      | nil => exact Or.inl ⟨u, [], by simpa using hz⟩
      | cons d z =>
          -- the character is the first after `x`
          obtain ⟨rfl, -⟩ := List.cons.inj hy
          exact absurd (by rw [hw]; simp) hc
    · cases w with
      | nil =>
          cases pattern with
          | nil => exact Or.inl (List.nil_infix)
          | cons d pattern =>
              obtain ⟨rfl, -⟩ := List.cons.inj hy
              exact absurd List.mem_cons_self hc
      | cons d w =>
          obtain ⟨rfl, hrest⟩ := List.cons.inj hy
          exact Or.inr ⟨w, v, hrest.symm⟩

/-- A pattern does not begin among characters without its first. -/
theorem infix_of_head_notMem (hc : c ∉ x) (h : c :: pattern <:+: x ++ y) : c :: pattern <:+: y := by
  induction x with
  | nil => exact h
  | cons d x ih =>
      obtain ⟨hd, hx⟩ := not_or.mp (mt List.mem_cons.mpr hc)
      rcases List.infix_cons_iff.mp h with hstart | hin
      · exact absurd (List.cons_prefix_cons.mp hstart).1 hd
      · exact ih hx hin

/-- A pattern does not end among characters without its last. -/
theorem infix_of_last_notMem (hc : c ∉ y) (h : pattern ++ [c] <:+: x ++ y) :
    pattern ++ [c] <:+: x := by
  rw [← List.reverse_infix, List.reverse_append] at h ⊢
  rw [List.reverse_append] at h
  exact infix_of_head_notMem (by simpa using hc) h

/-- A pattern that does not repeat its first character does not begin in a text and end in the
pattern that follows, short of its last character. -/
theorem infix_of_append_dropLast (hc : c ∉ pattern)
    (h : c :: pattern <:+: x ++ (c :: pattern).dropLast) : c :: pattern <:+: x := by
  obtain ⟨u, v, huv⟩ := h
  rw [List.append_assoc] at huv
  have hlength : (c :: pattern).dropLast.length = pattern.length := by simp
  rcases List.append_eq_append_iff.mp huv with ⟨z, rfl, hz⟩ | ⟨z, rfl, hz⟩
  · -- the occurrence begins in the text
    rcases List.append_eq_append_iff.mp hz with ⟨w, rfl, -⟩ | ⟨w, hw, hrest⟩
    · exact ⟨u, w, by simp⟩
    · cases z with
      | nil =>
          have hlong := congrArg List.length (hw.trans (List.nil_append w))
          have hshort := congrArg List.length hrest
          rw [List.length_append] at hshort
          simp only [List.length_cons] at hlong
          omega
      | cons d z =>
          obtain ⟨rfl, htail⟩ := List.cons.inj hw
          cases w with
          | nil => exact ⟨u, [], by rw [htail]; simp⟩
          | cons e w =>
              -- the character would come again
              cases pattern with
              | nil => cases hrest
              | cons p ps =>
                  rw [List.dropLast_cons_cons] at hrest
                  obtain ⟨rfl, -⟩ := List.cons.inj hrest
                  exact absurd (by rw [htail]; simp) hc
  · have hlong := congrArg List.length hz
    simp only [List.length_append, List.length_cons] at hlong
    omega

/-- A pattern occurs in joined parts where it occurs in one of them, if the separator is not in
it. -/
theorem infix_intercalate_iff (hc : c ∉ pattern) (hne : pattern ≠ []) {parts : List (List α)} :
    pattern <:+: [c].intercalate parts ↔ ∃ part ∈ parts, pattern <:+: part := by
  induction parts with
  | nil => simpa [List.intercalate] using hne
  | cons part rest ih =>
      cases rest with
      | nil => simp [List.intercalate]
      | cons next rest =>
          have hjoin : [c].intercalate (part :: next :: rest) =
              part ++ c :: [c].intercalate (next :: rest) := by simp [List.intercalate]
          rw [hjoin]
          constructor
          · intro h
            rcases infix_or_of_notMem hc h with hpart | hrest
            · exact ⟨part, List.mem_cons_self, hpart⟩
            · obtain ⟨found, hmem, hin⟩ := ih.mp hrest
              exact ⟨found, List.mem_cons_of_mem _ hmem, hin⟩
          · rintro ⟨found, hmem, hin⟩
            rcases List.mem_cons.mp hmem with rfl | hmem
            · exact hin.trans (List.prefix_append _ _).isInfix
            · have hrest := ih.mpr ⟨found, hmem, hin⟩
              exact hrest.trans ((List.suffix_cons _ _).trans (List.suffix_append _ _)).isInfix

end Infix

/-! ### Splitting -/

section Split

variable {c : α} {text part : List α}

/-- A part of a split is made of characters of the text, and the separator is not in it. -/
theorem of_mem_splitOn (h : part ∈ text.splitOn c) : c ∉ part ∧ part ⊆ text := by
  induction text generalizing part with
  | nil =>
      obtain rfl := List.mem_singleton.mp h
      exact ⟨List.not_mem_nil, List.nil_subset _⟩
  | cons d text ih =>
      rw [List.splitOn_cons_eq_if_modifyHead] at h
      split_ifs at h with hd
      · rcases List.mem_cons.mp h with rfl | h
        · exact ⟨List.not_mem_nil, List.nil_subset _⟩
        · exact ⟨(ih h).1, List.subset_cons_of_subset d (ih h).2⟩
      · obtain ⟨first, rest, hsplit⟩ := List.exists_cons_of_ne_nil (List.splitOn_ne_nil c text)
        rw [hsplit, List.modifyHead_cons] at h
        rw [hsplit] at ih
        rcases List.mem_cons.mp h with rfl | h
        · obtain ⟨hnot, hsub⟩ := ih List.mem_cons_self
          refine ⟨fun hmem => ?_, List.cons_subset_cons d hsub⟩
          rcases List.mem_cons.mp hmem with rfl | hmem
          · exact hd (beq_self_eq_true _)
          · exact hnot hmem
        · obtain ⟨hnot, hsub⟩ := ih (List.mem_cons_of_mem _ h)
          exact ⟨hnot, List.subset_cons_of_subset d hsub⟩

end Split

end Text
