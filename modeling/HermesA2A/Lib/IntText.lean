import HermesA2A.Lib.Text

/-!
# Integers in decimal

Python's `int(text)`: white space around, a sign, and digits, which may be grouped by single
underscores.  The decimal digits of all scripts are digits.

The interpreter's limit on the number of digits (4300, unless it is set otherwise) is left
out.

* `int?` — the number, if the text is one.
* `int?_toDigits` — what was written in decimal is read.
-/

namespace IntText

/-- The zeros of the scripts that have decimal digits; the other nine digits follow. -/
def zeros : List ℕ :=
  [0x30, 0x660, 0x6F0, 0x7C0, 0x966, 0x9E6, 0xA66, 0xAE6, 0xB66, 0xBE6, 0xC66, 0xCE6, 0xD66,
    0xDE6, 0xE50, 0xED0, 0xF20, 0x1040, 0x1090, 0x17E0, 0x1810, 0x1946, 0x19D0, 0x1A80, 0x1A90,
    0x1B50, 0x1BB0, 0x1C40, 0x1C50, 0xA620, 0xA8D0, 0xA900, 0xA9D0, 0xA9F0, 0xAA50, 0xABF0,
    0xFF10, 0x104A0, 0x10D30, 0x11066, 0x110F0, 0x11136, 0x111D0, 0x112F0, 0x11450, 0x114D0,
    0x11650, 0x116C0, 0x11730, 0x118E0, 0x11950, 0x11C50, 0x11D50, 0x11DA0, 0x16A60, 0x16AC0,
    0x16B50, 0x1D7CE, 0x1D7D8, 0x1D7E2, 0x1D7EC, 0x1D7F6, 0x1E140, 0x1E2F0, 0x1E950, 0x1FBF0]

/-- The value of a decimal digit, in any script. -/
def decimal? (c : Char) : Option ℕ :=
  (zeros.find? fun z => z ≤ c.toNat ∧ c.toNat < z + 10).map (c.toNat - ·)

/-- A character as the parser sees it: ASCII as it is, other white space as a space, other
digits as digits, and the rest as something that is no part of a number. -/
def toAscii (c : Char) : Char :=
  if c.toNat < 127 then c
  else if Text.isSpace c then ' '
  else
    match decimal? c with
    | some d => d.digitChar
    | none => '?'

/-- The white space of C. -/
def isSpace (c : Char) : Bool := c = ' ' || (9 ≤ c.toNat && c.toNat ≤ 13)

/-- Digits, in groups with an underscore between them. -/
def natural? (cs : List Char) : Option ℕ :=
  let groups := cs.splitOn '_'
  if groups.all fun g => !g.isEmpty && g.all Char.isDigit then
    some (Nat.ofDigitChars 10 groups.flatten 0)
  else none

/-- Digits after a sign, or without one. -/
def signed? : List Char → Option ℤ
  | [] => none
  | c :: cs =>
      if c = '+' then (natural? cs).map Int.ofNat
      else if c = '-' then (natural? cs).map fun n => -Int.ofNat n
      else (natural? (c :: cs)).map Int.ofNat

/-- `int(text)` -/
def int? (text : List Char) : Option ℤ :=
  signed? (((text.map toAscii).dropWhile isSpace).rdropWhile isSpace)

example : int? " -1_000\n".toList = some (-1000) := by decide +kernel

/-! ### The round trip -/

/-- A digit is read as it is: it is no white space and no sign. -/
theorem read_digit {c : Char} (h : c.isDigit = true) :
    toAscii c = c ∧ isSpace c = false ∧ c ≠ '+' ∧ c ≠ '-' := by
  obtain ⟨hlow, hhigh⟩ := Char.isDigit_iff_toNat.mp h
  have hlow : 48 ≤ c.toNat := hlow
  have hhigh : c.toNat ≤ 57 := hhigh
  refine ⟨if_pos (by omega), ?_, ?_, ?_⟩
  · have hne : c ≠ ' ' := by
      rintro rfl
      exact absurd hlow (by decide)
    have hno : ¬c.toNat ≤ 13 := by omega
    simp [isSpace, hne, hno]
  · rintro rfl
    exact absurd hlow (by decide)
  · rintro rfl
    exact absurd hlow (by decide)

/-- Digits are left as they are by what is done to a text before it is read. -/
theorem trim_digits {digits : List Char} (h : ∀ c ∈ digits, c.isDigit = true) :
    ((digits.map toAscii).dropWhile isSpace).rdropWhile isSpace = digits := by
  have hmap : digits.map toAscii = digits :=
    (List.map_congr_left fun c hc => (read_digit (h c hc)).1).trans (List.map_id _)
  have hdrop : digits.dropWhile isSpace = digits := by
    rw [List.dropWhile_eq_self_iff]
    intro hlen
    rw [(read_digit (h _ (List.getElem_mem hlen))).2.1]
    exact Bool.false_ne_true
  have hrdrop : digits.rdropWhile isSpace = digits := by
    rw [List.rdropWhile_eq_self_iff]
    intro hne
    rw [(read_digit (h _ (List.getLast_mem hne))).2.1]
    exact Bool.false_ne_true
  rw [hmap, hdrop, hrdrop]

/-- **What was written in decimal is read.** -/
theorem int?_toDigits (n : ℕ) : int? (Nat.toDigits 10 n) = some (n : ℤ) := by
  have hdigit : ∀ c ∈ Nat.toDigits 10 n, c.isDigit = true := fun c hc =>
    Nat.isDigit_of_mem_toDigits (by decide) (by decide) hc
  have hvalue : Nat.ofDigitChars 10 (Nat.toDigits 10 n) 0 = n :=
    Nat.ofDigitChars_toDigits (by decide) (by decide)
  have hsplit : (Nat.toDigits 10 n).splitOn '_' = [Nat.toDigits 10 n] :=
    List.splitOn_eq_singleton Nat.underscore_not_in_toDigits
  have hpos : 0 < (Nat.toDigits 10 n).length := Nat.length_toDigits_pos
  generalize Nat.toDigits 10 n = digits at *
  have hnatural : natural? digits = some n := by
    have hall : digits.all Char.isDigit = true := List.all_eq_true.mpr hdigit
    have hne : digits.isEmpty = false :=
      List.isEmpty_eq_false_iff.mpr (List.ne_nil_of_length_pos hpos)
    simp [natural?, hsplit, hall, hne, hvalue]
  rw [int?, trim_digits hdigit]
  cases digits with
  | nil => cases hpos
  | cons c cs =>
      obtain ⟨-, -, hplus, hminus⟩ := read_digit (hdigit c List.mem_cons_self)
      rw [signed?, if_neg hplus, if_neg hminus, hnatural]
      rfl

end IntText
