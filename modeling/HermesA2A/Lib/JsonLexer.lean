import Mathlib.Data.List.TakeWhile
import Mathlib.Tactic.IntervalCases

/-!
# Texts and numbers of JSON

How texts and integers are written in JSON, and how texts and numbers are read: as Python's
`json` does it, with all characters but those below 32, the quotation mark and the backslash
written as they are.

* `scanText_escaped` — a text that was written is read.
* `scanNumber_append` — a number is read up to its end, whatever follows after it.
* `scanNumber_intText`, `intOf_intText` — an integer that was written is read.
* `printable_escape`, `printable_scanNumber` — neither has a control character.
-/

namespace JsonLexer

/-! ### Texts -/

/-- A digit of an escape. -/
def hexDigit (n : ℕ) : Char := n.digitChar

/-- A character inside of quotation marks. -/
def escape (c : Char) : List Char :=
  if c = '"' then "\\\"".toList
  else if c = '\\' then "\\\\".toList
  else if c = '\n' then "\\n".toList
  else if c = '\r' then "\\r".toList
  else if c = '\t' then "\\t".toList
  else if c.toNat = 0x0C then "\\f".toList
  else if c.toNat = 0x08 then "\\b".toList
  else if c.toNat < 0x20 then "\\u00".toList ++ [hexDigit (c.toNat / 16), hexDigit (c.toNat % 16)]
  else [c]

/-- The value of a digit of an escape. -/
def hexValue (c : Char) : Option ℕ :=
  if '0' ≤ c ∧ c ≤ '9' then some (c.toNat - 0x30)
  else if 'a' ≤ c ∧ c ≤ 'f' then some (c.toNat - 0x61 + 10)
  else if 'A' ≤ c ∧ c ≤ 'F' then some (c.toNat - 0x41 + 10)
  else none

/-- The value of four of them. -/
def hexValue4 (a b c d : Char) : Option ℕ := do
  return (((← hexValue a) * 16 + (← hexValue b)) * 16 + (← hexValue c)) * 16 + (← hexValue d)

/-- What a backslash and a character stand for. -/
def unescape (c : Char) : Option Char :=
  if c = '"' ∨ c = '\\' ∨ c = '/' then some c
  else if c = 'b' then some (Char.ofNat 0x08)
  else if c = 'f' then some (Char.ofNat 0x0C)
  else if c = 'n' then some '\n'
  else if c = 'r' then some '\r'
  else if c = 't' then some '\t'
  else none

/-- A text up to its quotation mark, and what follows.  An escape for one half of a surrogate
pair stands for no character. -/
def scanText : List Char → Option (List Char × List Char)
  | [] => none
  | '"' :: rest => some ([], rest)
  | '\\' :: 'u' :: a :: b :: c :: d :: rest =>
      match hexValue4 a b c d with
      | none => none
      | some n =>
          if 0xD800 ≤ n ∧ n < 0xDC00 then
            match rest with
            | '\\' :: 'u' :: a :: b :: c :: d :: rest =>
                match hexValue4 a b c d with
                | none => none
                | some m =>
                    if 0xDC00 ≤ m ∧ m < 0xE000 then
                      (scanText rest).map fun (text, rest) =>
                        (Char.ofNat (0x10000 + (n - 0xD800) * 0x400 + (m - 0xDC00)) :: text, rest)
                    else none
            | _ => none
          else if 0xDC00 ≤ n ∧ n < 0xE000 then none
          else (scanText rest).map fun (text, rest) => (Char.ofNat n :: text, rest)
  | '\\' :: c :: rest =>
      match unescape c with
      | none => none
      | some c => (scanText rest).map fun (text, rest) => (c :: text, rest)
  | c :: rest =>
      if c = '\\' ∨ c.toNat < 0x20 then none
      else (scanText rest).map fun (text, rest) => (c :: text, rest)

/-- Four digits that are no half of a surrogate pair. -/
theorem scanText_unicode {a b c d : Char} {n : ℕ} (h : hexValue4 a b c d = some n)
    (hn : n < 0xD800) (rest : List Char) :
    scanText ('\\' :: 'u' :: a :: b :: c :: d :: rest) =
      (scanText rest).map fun (text, rest) => (Char.ofNat n :: text, rest) := by
  rw [scanText, h]
  dsimp only
  rw [if_neg fun h => absurd h.1 (by omega), if_neg fun h => absurd h.1 (by omega)]

/-- The control characters. -/
theorem scanText_escape_control {n : ℕ} (h : n < 0x20) (rest : List Char) :
    scanText (escape (Char.ofNat n) ++ rest) =
      (scanText rest).map fun (text, rest) => (Char.ofNat n :: text, rest) := by
  have hescape : ∀ n < 0x20, n ∈ [8, 9, 10, 12, 13] ∨
      escape (Char.ofNat n) = "\\u00".toList ++ [hexDigit (n / 16), hexDigit (n % 16)] ∧
        hexValue4 '0' '0' (hexDigit (n / 16)) (hexDigit (n % 16)) = some n := by decide
  rcases hescape n h with hshort | ⟨hlong, hvalue⟩
  · simp only [List.mem_cons, List.not_mem_nil, or_false] at hshort
    rcases hshort with rfl | rfl | rfl | rfl | rfl <;> rfl
  · rw [hlong]
    exact scanText_unicode hvalue (by omega) rest

/-- A character that needs no escape is read as it is. -/
theorem scanText_cons {c : Char} (hcontrol : ¬ c.toNat < 0x20) (hquote : c ≠ '"')
    (hbackslash : c ≠ '\\') (rest : List Char) :
    scanText (c :: rest) = (scanText rest).map fun (text, rest) => (c :: text, rest) := by
  rw [scanText]
  · rw [if_neg (not_or.mpr ⟨hbackslash, hcontrol⟩)]
  · exact hquote
  · rintro a b c' d rest' rfl
    exact absurd rfl hbackslash
  · rintro c' rest' rfl
    exact absurd rfl hbackslash

theorem scanText_escape (c : Char) (rest : List Char) :
    scanText (escape c ++ rest) = (scanText rest).map fun (text, rest) => (c :: text, rest) := by
  by_cases hcontrol : c.toNat < 0x20
  · have hread := scanText_escape_control hcontrol rest
    rwa [Char.ofNat_toNat] at hread
  · by_cases hquote : c = '"'
    · subst hquote
      rfl
    · by_cases hbackslash : c = '\\'
      · subst hbackslash
        rfl
      · have hplain : escape c = [c] := by
          have hne : ∀ d : Char, d.toNat < 0x20 → c ≠ d := by
            rintro d hd rfl
            exact hcontrol hd
          have hform : c.toNat ≠ 0x0C := fun h => hcontrol (by omega)
          have hback : c.toNat ≠ 0x08 := fun h => hcontrol (by omega)
          simp [escape, hquote, hbackslash, hne '\n' (by decide), hne '\r' (by decide),
            hne '\t' (by decide), hform, hback, hcontrol]
        rw [hplain]
        exact scanText_cons hcontrol hquote hbackslash rest

/-- **A text that was written is read**, up to its quotation mark. -/
theorem scanText_escaped (text rest : List Char) :
    scanText (text.flatMap escape ++ '"' :: rest) = some (text, rest) := by
  induction text with
  | nil => rfl
  | cons c text ih => rw [List.flatMap_cons, List.append_assoc, scanText_escape, ih]; rfl

/-! ### Numbers -/

/-- The digits at the beginning of a text, and what follows. -/
def scanDigits (text : List Char) : List Char × List Char :=
  (text.takeWhile Char.isDigit, text.dropWhile Char.isDigit)

/-- `0|[1-9]\d*` -/
def scanWhole : List Char → Option (List Char × List Char)
  | [] => none
  | c :: rest =>
      if c = '0' then some ([c], rest)
      else if c.isDigit then some (c :: (scanDigits rest).1, (scanDigits rest).2)
      else none

/-- `\d+`, after what has been read, or nothing. -/
def scanMore (read text : List Char) : Option (List Char × List Char) :=
  if (scanDigits text).1 = [] then none else some (read ++ (scanDigits text).1, (scanDigits text).2)

/-- `(\.\d+)?` -/
def scanFraction (text : List Char) : List Char × List Char :=
  ((if text.head? = some '.' then scanMore ['.'] text.tail else none)).getD ([], text)

/-- `([eE][-+]?\d+)?` -/
def scanExponent (text : List Char) : List Char × List Char :=
  (match text with
  | [] => none
  | e :: rest =>
      if e = 'e' ∨ e = 'E' then
        if rest.head? = some '-' ∨ rest.head? = some '+' then scanMore (e :: rest.take 1) rest.tail
        else scanMore [e] rest
      else none).getD ([], text)

/-- A number after its sign, whether it is a float, and what follows. -/
def scanUnsigned (sign text : List Char) : Option ((List Char × Bool) × List Char) :=
  (scanWhole text).map fun (whole, text) =>
    let (fraction, text) := scanFraction text
    let (exponent, text) := scanExponent text
    ((sign ++ whole ++ fraction ++ exponent, fraction ≠ [] ∨ exponent ≠ []), text)

/-- A number. -/
def scanNumber (text : List Char) : Option ((List Char × Bool) × List Char) :=
  if text.head? = some '-' then scanUnsigned ['-'] text.tail else scanUnsigned [] text

/-- `int(token)` -/
def intOf : List Char → ℤ
  | '-' :: digits => -(Nat.ofDigitChars 10 digits 0 : ℕ)
  | digits => (Nat.ofDigitChars 10 digits 0 : ℕ)

/-- `int.__repr__` -/
def intText : ℤ → List Char
  | .ofNat n => Nat.toDigits 10 n
  | .negSucc n => '-' :: Nat.toDigits 10 (n + 1)

/-- No number goes on here. -/
def Ends (rest : List Char) : Prop :=
  ∀ c ∈ rest.head?, c.isDigit = false ∧ c ≠ '.' ∧ c ≠ 'e' ∧ c ≠ 'E' ∧ c ≠ '-' ∧ c ≠ '+'

section Number

variable {rest : List Char} (hends : Ends rest)

include hends

theorem scanDigits_append (text : List Char) :
    scanDigits (text ++ rest) = ((scanDigits text).1, (scanDigits text).2 ++ rest) := by
  unfold scanDigits
  induction text with
  | nil =>
      cases rest with
      | nil => rfl
      | cons c rest =>
          have hc : c.isDigit = false := (hends c rfl).1
          simp [hc]
  | cons c text ih =>
      obtain ⟨htake, hdrop⟩ := Prod.mk.inj ih
      by_cases hc : c.isDigit = true
      · simp [hc, htake, hdrop]
      · simp [hc]

theorem scanWhole_append {text : List Char} (hne : text ≠ []) : scanWhole (text ++ rest) =
    (scanWhole text).map fun (whole, after) => (whole, after ++ rest) := by
  cases text with
  | nil => exact absurd rfl hne
  | cons c text =>
      rw [List.cons_append, scanWhole, scanWhole, scanDigits_append hends]
      split_ifs <;> rfl

theorem scanMore_append (read text : List Char) : scanMore read (text ++ rest) =
    (scanMore read text).map fun (digits, after) => (digits, after ++ rest) := by
  unfold scanMore
  rw [scanDigits_append hends]
  split_ifs <;> rfl

/-- What may be there, or not, is read up to its end. -/
theorem getD_scanMore_append (read text whole : List Char) :
    (scanMore read (text ++ rest)).getD ([], whole ++ rest) =
      (((scanMore read text).getD ([], whole)).1,
        ((scanMore read text).getD ([], whole)).2 ++ rest) := by
  rw [scanMore_append hends]
  cases scanMore read text <;> rfl

theorem scanFraction_append (text : List Char) :
    scanFraction (text ++ rest) = ((scanFraction text).1, (scanFraction text).2 ++ rest) := by
  unfold scanFraction
  cases text with
  | nil =>
      have hdot : rest.head? ≠ some '.' := fun h => (hends _ h).2.1 rfl
      rw [List.nil_append, if_neg hdot]
      rfl
  | cons c text =>
      by_cases hc : c = '.'
      · subst hc
        exact getD_scanMore_append hends ['.'] text ('.' :: text)
      · rw [if_neg (by simpa using hc), if_neg (by simpa using hc)]
        rfl

theorem scanExponent_append (text : List Char) :
    scanExponent (text ++ rest) = ((scanExponent text).1, (scanExponent text).2 ++ rest) := by
  unfold scanExponent
  cases text with
  | nil =>
      cases rest with
      | nil => rfl
      | cons c rest =>
          obtain ⟨-, -, he, hE, -⟩ := hends c rfl
          rw [List.nil_append]
          dsimp only
          rw [if_neg (not_or.mpr ⟨he, hE⟩)]
          rfl
  | cons e text =>
      rw [List.cons_append]
      dsimp only
      by_cases he : e = 'e' ∨ e = 'E'
      · rw [if_pos he, if_pos he]
        cases text with
        | nil =>
            have hsign : ¬ (rest.head? = some '-' ∨ rest.head? = some '+') := by
              rintro (h | h)
              · exact (hends _ h).2.2.2.2.1 rfl
              · exact (hends _ h).2.2.2.2.2 rfl
            rw [List.nil_append, if_neg hsign]
            exact getD_scanMore_append hends [e] [] [e]
        | cons c text =>
            by_cases hsign : c = '-' ∨ c = '+'
            · rw [if_pos (by simpa using hsign), if_pos (by simpa using hsign)]
              exact getD_scanMore_append hends [e, c] text (e :: c :: text)
            · rw [if_neg (by simpa using hsign), if_neg (by simpa using hsign)]
              exact getD_scanMore_append hends [e] (c :: text) (e :: c :: text)
      · rw [if_neg he, if_neg he]
        rfl

theorem scanUnsigned_append (sign : List Char) {text : List Char} (hne : text ≠ []) :
    scanUnsigned sign (text ++ rest) =
      (scanUnsigned sign text).map fun (number, after) => (number, after ++ rest) := by
  unfold scanUnsigned
  rw [scanWhole_append hends hne]
  cases scanWhole text with
  | none => rfl
  | some found =>
      simp only [Option.map_some, scanFraction_append hends, scanExponent_append hends]

/-- **A number is read up to its end**, whatever follows after it. -/
theorem scanNumber_append {text : List Char} {number : List Char × Bool} {after : List Char}
    (h : scanNumber text = some (number, after)) :
    scanNumber (text ++ rest) = some (number, after ++ rest) := by
  unfold scanNumber at h ⊢
  cases text with
  | nil => cases h
  | cons c text =>
      rw [List.cons_append, List.head?_cons, List.tail_cons] at *
      split_ifs at h ⊢ with hsign
      · have hne : text ≠ [] := by
          rintro rfl
          cases h
        rw [scanUnsigned_append hends _ hne, h]
        rfl
      · rw [← List.cons_append, scanUnsigned_append hends _ (List.cons_ne_nil c text), h]
        rfl

end Number

/-! ### The characters -/

/-- No control character. -/
def Printable (text : List Char) : Prop := ∀ c ∈ text, 0x20 ≤ c.toNat

theorem Printable.append {s t : List Char} (hs : Printable s) (ht : Printable t) :
    Printable (s ++ t) := fun c hc => (List.mem_append.mp hc).elim (hs c) (ht c)

theorem Printable.cons {c : Char} {t : List Char} (hc : 0x20 ≤ c.toNat) (ht : Printable t) :
    Printable (c :: t) := fun d hd => (List.mem_cons.mp hd).elim (fun h => h ▸ hc) (ht d)

theorem printable_of_all {text : List Char} (h : text.all (0x20 ≤ ·.toNat) = true) :
    Printable text := fun c hc => of_decide_eq_true (List.all_eq_true.mp h c hc)

/-- No control character is left inside of quotation marks. -/
theorem printable_escape (c : Char) : Printable (escape c) := by
  have hdigit : ∀ n < 16, 0x20 ≤ (hexDigit n).toNat := by decide
  unfold escape
  split_ifs with _ _ _ _ _ _ _ hcontrol
  · exact printable_of_all (by decide)
  · exact printable_of_all (by decide)
  · exact printable_of_all (by decide)
  · exact printable_of_all (by decide)
  · exact printable_of_all (by decide)
  · exact printable_of_all (by decide)
  · exact printable_of_all (by decide)
  · refine (printable_of_all (by decide)).append ?_
    have hhigh := hdigit (c.toNat / 16) (by omega)
    have hlow := hdigit (c.toNat % 16) (by omega)
    exact Printable.cons hhigh (Printable.cons hlow fun _ h => absurd h List.not_mem_nil)
  · exact Printable.cons (Nat.not_lt.mp hcontrol) fun _ h => absurd h List.not_mem_nil

theorem printable_of_isDigit {text : List Char} (h : ∀ c ∈ text, c.isDigit = true) :
    Printable text := by
  intro c hc
  have hdigit := h c hc
  unfold Char.isDigit at hdigit
  rw [Bool.and_eq_true, decide_eq_true_eq, decide_eq_true_eq] at hdigit
  have hle : (48 : UInt32).toNat ≤ c.val.toNat := hdigit.1
  have hval : c.toNat = c.val.toNat := rfl
  have h48 : (48 : UInt32).toNat = 48 := rfl
  omega

theorem printable_scanDigits (text : List Char) : Printable (scanDigits text).1 :=
  printable_of_isDigit fun _ hc => List.mem_takeWhile_imp hc

theorem printable_scanMore {read text : List Char} (hread : Printable read) (whole : List Char) :
    Printable ((scanMore read text).getD ([], whole)).1 := by
  unfold scanMore
  split_ifs
  · exact fun _ h => absurd h List.not_mem_nil
  · exact hread.append (printable_scanDigits text)

theorem printable_scanFraction (text : List Char) : Printable (scanFraction text).1 := by
  unfold scanFraction
  split_ifs
  · exact printable_scanMore (printable_of_all (by decide)) text
  · exact fun _ h => absurd h List.not_mem_nil

theorem printable_scanExponent (text : List Char) : Printable (scanExponent text).1 := by
  unfold scanExponent
  split
  · exact fun _ h => absurd h List.not_mem_nil
  · rename_i e rest
    split_ifs with he hsign
    · have hread : Printable (e :: rest.take 1) := by
        refine Printable.cons (by rcases he with rfl | rfl <;> decide) ?_
        cases rest with
        | nil => exact fun _ h => absurd h List.not_mem_nil
        | cons d rest =>
            simp only [List.head?_cons, Option.some.injEq] at hsign
            refine Printable.cons ?_ fun _ h => absurd h List.not_mem_nil
            rcases hsign with rfl | rfl <;> decide
      exact printable_scanMore hread _
    · refine printable_scanMore (Printable.cons ?_ fun _ h => absurd h List.not_mem_nil) _
      rcases he with rfl | rfl <;> decide
    · exact fun _ h => absurd h List.not_mem_nil

/-- **The token of a number** has no control character. -/
theorem printable_scanNumber {text token rest : List Char} {isFloat : Bool}
    (h : scanNumber text = some ((token, isFloat), rest)) : Printable token := by
  have hunsigned : ∀ {sign text}, Printable sign →
      scanUnsigned sign text = some ((token, isFloat), rest) → Printable token := by
    intro sign text hsign h
    unfold scanUnsigned at h
    obtain ⟨⟨whole, after⟩, hwhole, heq⟩ := Option.map_eq_some_iff.mp h
    have htoken := congrArg (fun found : (List Char × Bool) × List Char => found.1.1) heq
    dsimp only at htoken
    rw [← htoken]
    have hprinted : Printable whole := by
      unfold scanWhole at hwhole
      split at hwhole
      · cases hwhole
      · rename_i c text
        split_ifs at hwhole with hzero hdigit
        · obtain rfl := (Prod.mk.inj (Option.some.inj hwhole)).1
          exact Printable.cons (by rw [hzero]; decide) fun _ h => absurd h List.not_mem_nil
        · obtain rfl := (Prod.mk.inj (Option.some.inj hwhole)).1
          have hc : Printable [c] := printable_of_isDigit fun d hd => by
            rw [List.mem_singleton.mp hd]
            exact hdigit
          exact hc.append (printable_scanDigits text)
    exact ((hsign.append hprinted).append (printable_scanFraction _)).append
      (printable_scanExponent _)
  unfold scanNumber at h
  split_ifs at h
  · exact hunsigned (printable_of_all (by decide)) h
  · exact hunsigned (fun _ h => absurd h List.not_mem_nil) h

/-- A positive number does not begin with a zero. -/
theorem exists_toDigits_eq_cons {n : ℕ} (h : 0 < n) :
    ∃ c digits, Nat.toDigits 10 n = c :: digits ∧ c ≠ '0' := by
  induction n using Nat.strong_induction_on with
  | _ n ih =>
      by_cases hlow : n < 10
      · refine ⟨n.digitChar, [], Nat.toDigits_of_lt_base hlow, ?_⟩
        interval_cases n <;> decide
      · obtain ⟨c, digits, hdigits, hc⟩ := ih (n / 10) (by omega) (by omega)
        rw [Nat.toDigits_of_base_le (by decide) (not_lt.mp hlow), hdigits]
        exact ⟨c, _, rfl, hc⟩

theorem scanUnsigned_toDigits (sign : List Char) (n : ℕ) :
    scanUnsigned sign (Nat.toDigits 10 n) = some ((sign ++ Nat.toDigits 10 n, false), []) := by
  have hwhole : scanWhole (Nat.toDigits 10 n) = some (Nat.toDigits 10 n, []) := by
    have hdigit : ∀ c ∈ Nat.toDigits 10 n, c.isDigit = true := fun c hc =>
      Nat.isDigit_of_mem_toDigits (by decide) (by decide) hc
    rcases Nat.eq_zero_or_pos n with rfl | hpos
    · rfl
    · obtain ⟨c, digits, hdigits, hc⟩ := exists_toDigits_eq_cons hpos
      rw [hdigits] at hdigit ⊢
      have htail : ∀ d ∈ digits, d.isDigit = true := fun d hd =>
        hdigit d (List.mem_cons_of_mem c hd)
      rw [scanWhole, if_neg hc, if_pos (hdigit c List.mem_cons_self), scanDigits,
        List.takeWhile_eq_self_iff.mpr htail, List.dropWhile_eq_nil_iff.mpr htail]
  unfold scanUnsigned
  rw [hwhole]
  simp [scanFraction, scanExponent]

/-- **An integer that was written is read** as one. -/
theorem scanNumber_intText (n : ℤ) : scanNumber (intText n) = some ((intText n, false), []) := by
  cases n with
  | ofNat n =>
      have hsign : (Nat.toDigits 10 n).head? ≠ some '-' := by
        intro h
        have hdigit := Nat.isDigit_of_mem_toDigits (by decide) (by decide)
          (List.mem_of_mem_head? h)
        exact absurd hdigit (by decide)
      rw [intText, scanNumber, if_neg hsign]
      exact scanUnsigned_toDigits [] n
  | negSucc n => exact scanUnsigned_toDigits ['-'] (n + 1)

theorem intOf_intText (n : ℤ) : intOf (intText n) = n := by
  cases n with
  | ofNat n =>
      have hvalue : Nat.ofDigitChars 10 (Nat.toDigits 10 n) 0 = n := Nat.ofDigitChars_ten_toDigits
      rw [intText, intOf]
      · rw [hvalue]
        rfl
      · rintro digits hdigits
        have hminus : '-' ∈ Nat.toDigits 10 n := by
          rw [hdigits]
          exact List.mem_cons_self
        have hdigit := Nat.isDigit_of_mem_toDigits (by decide) (by decide) hminus
        exact absurd hdigit (by decide)
  | negSucc n =>
      have hvalue : Nat.ofDigitChars 10 (Nat.toDigits 10 (n + 1)) 0 = n + 1 :=
        Nat.ofDigitChars_ten_toDigits
      rw [intText, intOf, hvalue]
      rfl

end JsonLexer
