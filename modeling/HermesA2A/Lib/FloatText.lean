import HermesA2A.Lib.Binary64
import HermesA2A.Lib.IntText

/-!
# Floats in decimal

Python's `float(text)`: white space around, a sign, and `inf`, `infinity`, `nan` or a decimal
number, with digits that may be grouped by single underscores and an exponent.  The number is
rounded once; one that is too large is an infinity.

* `float?`: the number, if the text is one.
* `float?_toDigits`: what was written in decimal is read, and rounded.
-/

namespace FloatText

/-- The text without the underscores between its digits.  The character before is `before`. -/
def ungroup? (before : Char) : List Char → Option (List Char)
  | [] => if before = '_' then none else some []
  | c :: cs =>
      if c = '_' then if before.isDigit then ungroup? c cs else none
      else if before = '_' ∧ ¬c.isDigit then none
      else (ungroup? c cs).map (c :: ·)

/-- A sign, and the rest. -/
def sign : List Char → Bool × List Char
  | [] => (false, [])
  | c :: cs => if c = '-' then (true, cs) else if c = '+' then (false, cs) else (false, c :: cs)

/-- What stands for an infinity, or for no number. -/
def special? (negative : Bool) (cs : List Char) : Option Double :=
  let word := cs.map Char.toLower
  if word = "inf".toList ∨ word = "infinity".toList then some (.inf negative)
  else if word = "nan".toList then some .nan
  else none

/-- The exponent that ends a decimal number. -/
def exponent? : List Char → Option ℤ
  | [] => some 0
  | c :: cs =>
      let (negative, digits) := sign cs
      if (c = 'e' ∨ c = 'E') ∧ digits ≠ [] ∧ digits.all Char.isDigit then
        let n : ℤ := Nat.ofDigitChars 10 digits 0
        some (if negative then -n else n)
      else none

/-- A decimal number without a sign. -/
def decimal? (cs : List Char) : Option ℚ :=
  let (whole, rest) := cs.span Char.isDigit
  let (behind, rest) :=
    match rest with
    | [] => ([], [])
    | c :: rest => if c = '.' then rest.span Char.isDigit else ([], c :: rest)
  if whole ++ behind = [] then none
  else
    (exponent? rest).map fun e =>
      (Nat.ofDigitChars 10 (whole ++ behind) 0 : ℚ) * 10 ^ (e - (behind.length : ℤ))

/-- `float(text)` -/
def float? (text : List Char) : Option Double :=
  let text := ((text.map IntText.toAscii).dropWhile IntText.isSpace).rdropWhile IntText.isSpace
  (ungroup? ' ' text).bind fun text =>
    let (negative, rest) := sign text
    match special? negative rest with
    | some x => some x
    | none => (decimal? rest).map fun q => .round (if negative then -q else q)

example : float? " -1_0.25e1\n".toList = some (.round (-205 / 2)) := by decide +kernel

example : float? "1__0".toList = none ∧ float? ".".toList = none ∧ float? "1e".toList = none := by
  decide +kernel

/-! ### Natural numbers -/

theorem ungroup?_digits {cs : List Char} (h : ∀ c ∈ cs, c.isDigit = true) {before : Char}
    (hbefore : before ≠ '_') : ungroup? before cs = some cs := by
  induction cs generalizing before with
  | nil => exact if_neg hbefore
  | cons c cs ih =>
      have hdigit := h c List.mem_cons_self
      have hc : c ≠ '_' := by
        rintro rfl
        exact absurd hdigit (by decide)
      rw [ungroup?, if_neg hc, if_neg (fun hno => hbefore hno.1),
        ih (fun d hd => h d (List.mem_cons_of_mem c hd)) hc]
      rfl

/-- No word starts with a digit. -/
theorem special?_digit {negative : Bool} {c : Char} {cs : List Char} (h : c.isDigit = true) :
    special? negative (c :: cs) = none := by
  have hword {d : Char} {ds : List Char} (hd : d.isAlpha = true) :
      (c :: cs).map Char.toLower ≠ d :: ds := by
    intro heq
    have hall : ∀ n : Fin 128, (Char.ofNat n).isDigit = true →
        (Char.ofNat n).toLower.isAlpha = false := by decide +kernel
    have hascii : c.toNat < 128 := by
      have hnine : c.toNat ≤ 57 := (Char.isDigit_iff_toNat.mp h).2
      omega
    have hletter := hall ⟨c.toNat, hascii⟩
    rw [Char.ofNat_toNat, (List.cons.inj heq).1, hd] at hletter
    exact Bool.noConfusion (hletter h)
  have hinf : ¬((c :: cs).map Char.toLower = "inf".toList ∨
      (c :: cs).map Char.toLower = "infinity".toList) :=
    not_or.mpr ⟨hword (by decide), hword (by decide)⟩
  have hnan : (c :: cs).map Char.toLower ≠ "nan".toList := hword (by decide)
  unfold special?
  rw [if_neg hinf, if_neg hnan]

theorem decimal?_digits {cs : List Char} (h : ∀ c ∈ cs, c.isDigit = true) (hne : cs ≠ []) :
    decimal? cs = some (Nat.ofDigitChars 10 cs 0 : ℚ) := by
  have htake : cs.takeWhile Char.isDigit = cs := List.takeWhile_eq_self_iff.mpr h
  have hdrop : cs.dropWhile Char.isDigit = [] := List.dropWhile_eq_nil_iff.mpr h
  simp [decimal?, exponent?, htake, hdrop, hne]

/-- **What was written in decimal is read**, as the number of the format next to it. -/
theorem float?_toDigits (n : ℕ) : float? (Nat.toDigits 10 n) = some (.round n) := by
  have hdigit : ∀ c ∈ Nat.toDigits 10 n, c.isDigit = true := fun c hc =>
    Nat.isDigit_of_mem_toDigits (by decide) (by decide) hc
  have hvalue : Nat.ofDigitChars 10 (Nat.toDigits 10 n) 0 = n :=
    Nat.ofDigitChars_toDigits (by decide) (by decide)
  have hpos : 0 < (Nat.toDigits 10 n).length := Nat.length_toDigits_pos
  generalize Nat.toDigits 10 n = digits at *
  have hdecimal := decimal?_digits hdigit (List.ne_nil_of_length_pos hpos)
  rw [hvalue] at hdecimal
  unfold float?
  dsimp only
  rw [IntText.trim_digits hdigit, ungroup?_digits hdigit (by decide), Option.bind_some]
  cases digits with
  | nil => cases hpos
  | cons c cs =>
      obtain ⟨-, -, hplus, hminus⟩ := IntText.read_digit (hdigit c List.mem_cons_self)
      rw [sign, if_neg hminus, if_neg hplus]
      dsimp only
      rw [special?_digit (hdigit c List.mem_cons_self), hdecimal]
      rfl

end FloatText
