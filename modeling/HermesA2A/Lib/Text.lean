import Mathlib.Data.List.DropRight

/-!
# Text

Python's `str.strip()` and `str.join`, on character lists and on strings.

`strip` removes leading and trailing white space.  A text is `Stripped` when it
neither begins nor ends with white space; stripping gives such a text
(`stripped_strip`) and leaves it alone (`strip_eq_self`).

`infix_append_append_iff` says where a text can occur in a text that was put together, and
`forall_mem_of_all` is for the characters of a given text.
-/

namespace Text

/-- Texts are equal when they are found equal character by character. -/
instance lawfulBEqText : LawfulBEq (List Char) := inferInstance

/-- What is tested for each character of a given text, one after the other: `decide` for all of
them can try every character there is. -/
theorem forall_mem_of_all {p : Char → Prop} [DecidablePred p] {text : List Char}
    (h : text.all (fun c => decide (p c)) = true) : ∀ c ∈ text, p c :=
  fun c hc => of_decide_eq_true (List.all_eq_true.mp h c hc)

/-- White space as `str.isspace` and the regular-expression class `\s` have it. -/
def isSpace (c : Char) : Bool :=
  (0x09 ≤ c.toNat && c.toNat ≤ 0x0D) || (0x1C ≤ c.toNat && c.toNat ≤ 0x20) ||
    c.toNat == 0x85 || c.toNat == 0xA0 || c.toNat == 0x1680 ||
    (0x2000 ≤ c.toNat && c.toNat ≤ 0x200A) || c.toNat == 0x2028 || c.toNat == 0x2029 ||
    c.toNat == 0x202F || c.toNat == 0x205F || c.toNat == 0x3000

/-- Remove white space at both ends. -/
def strip (t : List Char) : List Char := (t.dropWhile isSpace).rdropWhile isSpace

/-- No white space at either end. -/
structure Stripped (t : List Char) : Prop where
  head : ∀ c ∈ t.head?, isSpace c = false
  last : ∀ c ∈ t.getLast?, isSpace c = false

theorem strip_infix (t : List Char) : strip t <:+: t :=
  (List.rdropWhile_prefix _ _).isInfix.trans (List.dropWhile_suffix _).isInfix

theorem stripped_strip (t : List Char) : Stripped (strip t) where
  head := by
    intro c hc
    -- the head of a prefix of `dropWhile` is the head of `dropWhile`
    have hpre : strip t <+: t.dropWhile isSpace := List.rdropWhile_prefix _ _
    obtain ⟨s, hs⟩ := hpre
    have hhead : (t.dropWhile isSpace).head? = some c := by
      rw [← hs, List.head?_append, Option.mem_def.mp hc]
      rfl
    have hne : t.dropWhile isSpace ≠ [] := by
      rintro h
      rw [h] at hhead
      cases hhead
    have := List.dropWhile_get_zero_not isSpace t (List.length_pos_iff.mpr hne)
    rw [List.head?_eq_getElem?, List.getElem?_eq_getElem (List.length_pos_iff.mpr hne)] at hhead
    obtain rfl := Option.some.inj hhead
    simpa using this
  last := by
    intro c hc
    have hne : strip t ≠ [] := by
      rintro h
      rw [h] at hc
      cases hc
    rw [Option.mem_def, List.getLast?_eq_some_getLast hne] at hc
    obtain rfl := Option.some.inj hc
    exact Bool.eq_false_iff.mpr (List.rdropWhile_last_not isSpace _ hne)

theorem strip_eq_self {t : List Char} (h : Stripped t) : strip t = t := by
  have hfront : t.dropWhile isSpace = t := by
    cases t with
    | nil => rfl
    | cons c t => rw [List.dropWhile_cons, h.head c rfl]; rfl
  rw [strip, hfront]
  exact List.rdropWhile_eq_self_iff.mpr fun hne => by
    simpa using h.last _ (List.getLast?_eq_getLast_of_ne_nil hne)

/-- Joining two stripped texts, the first and the last not empty, gives one. -/
theorem Stripped.append {s t : List Char} (hs : Stripped s) (ht : Stripped t) (hsne : s ≠ [])
    (htne : t ≠ []) (m : List Char) : Stripped (s ++ m ++ t) where
  head := by
    intro c hc
    obtain ⟨d, s, rfl⟩ := List.exists_cons_of_ne_nil hsne
    exact hs.head c (by simpa using hc)
  last := by
    intro c hc
    rw [List.getLast?_append_of_ne_nil _ htne] at hc
    exact ht.last c hc

/-! ### Where a text occurs -/

section Occurs

variable {α : Type*} {text before middle after : List α}

/-- The text occurs in the whole, but not inside the middle: it touches a part beside it. -/
def Beside (text before middle after : List α) : Prop :=
  ∃ u v, u ++ text ++ v = before ++ middle ++ after ∧
    (u.length < before.length ∨ v.length < after.length)

/-- **A text that occurs in three parts** occurs inside the middle one or beside it. -/
theorem infix_append_append_iff :
    text <:+: before ++ middle ++ after ↔
      text <:+: middle ∨ Beside text before middle after := by
  constructor
  · rintro ⟨u, v, h⟩
    by_cases hbeside : u.length < before.length ∨ v.length < after.length
    · exact Or.inr ⟨u, v, h, hbeside⟩
    · -- nothing of it lies outside: what comes before covers the first part, and what comes
      -- after the last
      refine Or.inl ?_
      obtain ⟨hu, hv⟩ := not_or.mp hbeside
      have hfirst : before <+: before ++ middle ++ after := by
        rw [List.append_assoc]
        exact List.prefix_append _ _
      have hpre : u <+: before ++ middle ++ after := ⟨text ++ v, by rw [← h, List.append_assoc]⟩
      have hsuf : v <:+ before ++ middle ++ after := ⟨_, h⟩
      obtain ⟨u', rfl⟩ := List.prefix_of_prefix_length_le hfirst hpre (Nat.not_lt.mp hu)
      obtain ⟨v', rfl⟩ :=
        List.suffix_of_suffix_length_le (List.suffix_append _ _) hsuf (Nat.not_lt.mp hv)
      refine ⟨u', v', ?_⟩
      have hcancel : before ++ (u' ++ text ++ v') ++ after = before ++ middle ++ after := by
        rw [← h]
        simp
      exact List.append_cancel_left (List.append_cancel_right hcancel)
  · rintro (h | ⟨u, v, h, -⟩)
    · exact h.trans (List.infix_append before middle after)
    · exact ⟨u, v, h⟩

end Occurs

end Text

namespace String

/-- `s.strip()`. -/
def strip (s : String) : String := String.ofList (Text.strip s.toList)

/-- No white space at either end. -/
def Stripped (s : String) : Prop := Text.Stripped s.toList

theorem strip_eq_self {s : String} (h : s.Stripped) : s.strip = s := by
  rw [strip, Text.strip_eq_self h, String.ofList_toList]

/-- Joining two non-empty stripped texts gives one. -/
theorem Stripped.append {s t : String} (hs : s.Stripped) (ht : t.Stripped) (hsne : s ≠ "")
    (htne : t ≠ "") (m : String) : (s ++ m ++ t).Stripped := by
  rw [Stripped, String.toList_append, String.toList_append]
  apply Text.Stripped.append hs ht
  · exact fun h => hsne (String.toList_eq_nil_iff.mp h)
  · exact fun h => htne (String.toList_eq_nil_iff.mp h)

end String
