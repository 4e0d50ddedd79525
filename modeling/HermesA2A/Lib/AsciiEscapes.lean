import HermesA2A.Lib.JsonLexer

/-!
# Escapes for all that is not ASCII

A text of JSON can be written in ASCII: a character beyond it becomes an escape of four digits,
or two of them, one for each half of a surrogate pair.

* `scanText_toAscii` — a text in quotation marks is read as before.
* `scanNumber_toAscii` — and so is a number.
-/

namespace JsonLexer

/-! ### Writing -/

/-- The escape of a number with four digits. -/
def unicodeEscape (n : ℕ) : List Char :=
  "\\u".toList ++
    [hexDigit (n / 0x1000), hexDigit (n / 0x100 % 16), hexDigit (n / 16 % 16), hexDigit (n % 16)]

/-- A character, or its escape if it is not ASCII. -/
def asciiEscape (c : Char) : List Char :=
  if c.toNat < 0x7F then [c]
  else if c.toNat < 0x10000 then unicodeEscape c.toNat
  else unicodeEscape (0xD800 + (c.toNat - 0x10000) / 0x400) ++
    unicodeEscape (0xDC00 + (c.toNat - 0x10000) % 0x400)

/-- A text in ASCII. -/
def toAscii (text : List Char) : List Char := text.flatMap asciiEscape

@[simp] theorem toAscii_nil : toAscii [] = [] := rfl

theorem toAscii_cons (c : Char) (text : List Char) :
    toAscii (c :: text) = asciiEscape c ++ toAscii text := rfl

@[simp] theorem toAscii_append (text text' : List Char) :
    toAscii (text ++ text') = toAscii text ++ toAscii text' := List.flatMap_append ..

/-- ASCII is left as it is. -/
theorem toAscii_cons_of_lt {c : Char} (h : c.toNat < 0x7F) (text : List Char) :
    toAscii (c :: text) = c :: toAscii text := by
  rw [toAscii_cons, asciiEscape, if_pos h]
  rfl

/-- Everything else begins with a backslash. -/
theorem exists_toAscii_cons {c : Char} (h : ¬c.toNat < 0x7F) (text : List Char) :
    ∃ rest, toAscii (c :: text) = '\\' :: rest := by
  rw [toAscii_cons, asciiEscape, if_neg h]
  split_ifs
  · exact ⟨_, rfl⟩
  · exact ⟨_, rfl⟩

theorem toAscii_eq_self {text : List Char} (h : ∀ c ∈ text, c.toNat < 0x7F) :
    toAscii text = text := by
  induction text with
  | nil => rfl
  | cons c text ih =>
      rw [toAscii_cons_of_lt (h c List.mem_cons_self),
        ih fun d hd => h d (List.mem_cons_of_mem _ hd)]

theorem lt_of_mem_unicodeEscape {n : ℕ} (hn : n < 0x10000) {c : Char}
    (hc : c ∈ unicodeEscape n) : 0x20 ≤ c.toNat ∧ c.toNat < 0x7F := by
  have hdigit : ∀ n < 16, 0x20 ≤ (hexDigit n).toNat ∧ (hexDigit n).toNat < 0x7F := by decide
  unfold unicodeEscape at hc
  rcases List.mem_append.mp hc with hc | hc
  · have hword : "\\u".toList = ['\\', 'u'] := rfl
    rw [hword] at hc
    simp only [List.mem_cons, List.not_mem_nil, or_false] at hc
    rcases hc with rfl | rfl <;> decide
  · simp only [List.mem_cons, List.not_mem_nil, or_false] at hc
    rcases hc with rfl | rfl | rfl | rfl <;> exact hdigit _ (by omega)

/-- A code point, which is no half of a surrogate pair. -/
theorem toNat_cases (c : Char) : c.toNat < 0xD800 ∨ 0xDFFF < c.toNat ∧ c.toNat < 0x110000 :=
  c.valid

/-- **What is written is ASCII**, and has a control character only if the text has one. -/
theorem lt_of_mem_toAscii {text : List Char} (h : Printable text) {c : Char}
    (hc : c ∈ toAscii text) : 0x20 ≤ c.toNat ∧ c.toNat < 0x7F := by
  obtain ⟨d, hd, hmem⟩ := List.mem_flatMap.mp hc
  unfold asciiEscape at hmem
  split_ifs at hmem with hlow hbmp
  · rw [List.mem_singleton.mp hmem]
    exact ⟨h d hd, hlow⟩
  · exact lt_of_mem_unicodeEscape hbmp hmem
  · have hvalid := toNat_cases d
    rcases List.mem_append.mp hmem with hmem | hmem
    · exact lt_of_mem_unicodeEscape (by omega) hmem
    · exact lt_of_mem_unicodeEscape (by omega) hmem

/-! ### Reading texts -/

theorem hexValue4_digits {n : ℕ} (hn : n < 0x10000) :
    hexValue4 (hexDigit (n / 0x1000)) (hexDigit (n / 0x100 % 16)) (hexDigit (n / 16 % 16))
      (hexDigit (n % 16)) = some n := by
  have hvalue : ∀ k < 16, hexValue (hexDigit k) = some k := by decide
  unfold hexValue4
  rw [hvalue _ (by omega), hvalue _ (by omega), hvalue _ (by omega), hvalue _ (by omega)]
  have hsum : ((n / 0x1000 * 16 + n / 0x100 % 16) * 16 + n / 16 % 16) * 16 + n % 16 = n := by omega
  exact congrArg some hsum

/-- Four digits that are no half of a surrogate pair. -/
theorem scanText_scalar {a b c d : Char} {n : ℕ} (h : hexValue4 a b c d = some n)
    (hn : n < 0xD800 ∨ 0xE000 ≤ n) (rest : List Char) :
    scanText ('\\' :: 'u' :: a :: b :: c :: d :: rest) =
      (scanText rest).map fun (text, rest) => (Char.ofNat n :: text, rest) := by
  rw [scanText, h]
  dsimp only
  rw [if_neg fun h => absurd h (by omega), if_neg fun h => absurd h (by omega)]

/-- Two halves of a surrogate pair. -/
theorem scanText_pair {a b c d a' b' c' d' : Char} {n m : ℕ} (h : hexValue4 a b c d = some n)
    (hn : 0xD800 ≤ n ∧ n < 0xDC00) (h' : hexValue4 a' b' c' d' = some m)
    (hm : 0xDC00 ≤ m ∧ m < 0xE000) (rest : List Char) :
    scanText ('\\' :: 'u' :: a :: b :: c :: d :: '\\' :: 'u' :: a' :: b' :: c' :: d' :: rest) =
      (scanText rest).map fun (text, rest) =>
        (Char.ofNat (0x10000 + (n - 0xD800) * 0x400 + (m - 0xDC00)) :: text, rest) := by
  rw [scanText, h]
  dsimp only
  rw [if_pos hn]
  simp only [h', if_pos hm]

/-- **A character that is not ASCII is read from its escapes.** -/
theorem scanText_asciiEscape {c : Char} (h : ¬c.toNat < 0x7F) (rest : List Char) :
    scanText (asciiEscape c ++ rest) = (scanText rest).map fun (text, rest) => (c :: text, rest) := by
  have hvalid := toNat_cases c
  unfold asciiEscape
  rw [if_neg h]
  split_ifs with hbmp
  · have hread := scanText_scalar (hexValue4_digits hbmp) (by omega) rest
    rwa [Char.ofNat_toNat] at hread
  · -- the two halves, and what they make together
    obtain ⟨hi, hhi⟩ : ∃ n, n = 0xD800 + (c.toNat - 0x10000) / 0x400 := ⟨_, rfl⟩
    obtain ⟨lo, hlo⟩ : ∃ n, n = 0xDC00 + (c.toNat - 0x10000) % 0x400 := ⟨_, rfl⟩
    rw [← hhi, ← hlo]
    have hhigh : 0xD800 ≤ hi ∧ hi < 0xDC00 := by omega
    have hlow : 0xDC00 ≤ lo ∧ lo < 0xE000 := by omega
    have hread := scanText_pair (hexValue4_digits (by omega)) hhigh (hexValue4_digits (by omega))
      hlow rest
    have hcode : 0x10000 + (hi - 0xD800) * 0x400 + (lo - 0xDC00) = c.toNat := by omega
    rw [hcode, Char.ofNat_toNat] at hread
    exact hread

/-- The digits of an escape are ASCII. -/
theorem lt_of_hexValue {c : Char} {n : ℕ} (h : hexValue c = some n) : c.toNat < 0x7F := by
  have hle : ∀ d : Char, c ≤ d → d.toNat < 0x7F → c.toNat < 0x7F := by
    intro d hcd hd
    have hval : c.toNat ≤ d.toNat := hcd
    omega
  unfold hexValue at h
  split_ifs at h with hdigit hsmall hlarge
  · exact hle '9' hdigit.2 (by decide)
  · exact hle 'f' hsmall.2 (by decide)
  · exact hle 'F' hlarge.2 (by decide)

theorem lt_of_hexValue4 {a b c d : Char} {n : ℕ} (h : hexValue4 a b c d = some n) :
    a.toNat < 0x7F ∧ b.toNat < 0x7F ∧ c.toNat < 0x7F ∧ d.toNat < 0x7F := by
  unfold hexValue4 at h
  obtain ⟨w, ha, h⟩ := Option.bind_eq_some_iff.mp h
  obtain ⟨x, hb, h⟩ := Option.bind_eq_some_iff.mp h
  obtain ⟨y, hc, h⟩ := Option.bind_eq_some_iff.mp h
  obtain ⟨z, hd, h⟩ := Option.bind_eq_some_iff.mp h
  exact ⟨lt_of_hexValue ha, lt_of_hexValue hb, lt_of_hexValue hc, lt_of_hexValue hd⟩

theorem toAscii_hex {a b c d : Char} {n : ℕ} (h : hexValue4 a b c d = some n) (text : List Char) :
    toAscii ('\\' :: 'u' :: a :: b :: c :: d :: text) =
      '\\' :: 'u' :: a :: b :: c :: d :: toAscii text := by
  obtain ⟨ha, hb, hc, hd⟩ := lt_of_hexValue4 h
  rw [toAscii_cons_of_lt (by decide), toAscii_cons_of_lt (by decide), toAscii_cons_of_lt ha,
    toAscii_cons_of_lt hb, toAscii_cons_of_lt hc, toAscii_cons_of_lt hd]

theorem lt_of_unescape {c d : Char} (h : unescape c = some d) : c.toNat < 0x7F := by
  unfold unescape at h
  split_ifs at h with hself
  · rcases hself with rfl | rfl | rfl <;> decide
  all_goals
    rename_i heq
    rw [heq]
    decide

/-- **A text up to its quotation mark is read as before.** -/
theorem scanText_toAscii {text s rest : List Char} (h : scanText text = some (s, rest)) :
    scanText (toAscii text) = some (s, toAscii rest) := by
  fun_induction scanText text generalizing s rest with
  | case1 => cases h
  | case2 rest' =>
      obtain ⟨rfl, rfl⟩ := Prod.mk.inj (Option.some.inj h)
      rw [toAscii_cons_of_lt (by decide), scanText]
  | case3 a b c d rest' hhex => cases h
  | case4 a b c d n hhex hn a' b' c' d' rest' hhex' => cases h
  | case5 a b c d n hhex hn a' b' c' d' rest' m hhex' hm ih =>
      obtain ⟨⟨s', rest''⟩, hs, heq⟩ := Option.map_eq_some_iff.mp h
      obtain ⟨rfl, rfl⟩ := Prod.mk.inj heq
      rw [toAscii_hex hhex, toAscii_hex hhex', scanText_pair hhex hn hhex' hm, ih hs]
      rfl
  | case6 a b c d n hhex hn a' b' c' d' rest' m hhex' hm => cases h
  | case7 a b c d rest' n hhex hn hno => cases h
  | case8 a b c d rest' n hhex hn hno => cases h
  | case9 a b c d rest' n hhex hn hno ih =>
      obtain ⟨⟨s', rest''⟩, hs, heq⟩ := Option.map_eq_some_iff.mp h
      obtain ⟨rfl, rfl⟩ := Prod.mk.inj heq
      rw [toAscii_hex hhex, scanText_scalar hhex (by omega), ih hs]
      rfl
  | case10 c rest' hu hesc => cases h
  | case11 c rest' hu d hesc ih =>
      obtain ⟨⟨s', rest''⟩, hs, heq⟩ := Option.map_eq_some_iff.mp h
      obtain ⟨rfl, rfl⟩ := Prod.mk.inj heq
      have hc : c ≠ 'u' := by
        rintro rfl
        cases hesc
      rw [toAscii_cons_of_lt (by decide), toAscii_cons_of_lt (lt_of_unescape hesc), scanText]
      · rw [hesc]
        dsimp only
        rw [ih hs]
        rfl
      · exact fun _ _ _ _ _ heq _ => hc heq
  | case12 c rest' hquote hu hback hbad => cases h
  | case13 c rest' hquote hu hback hok ih =>
      obtain ⟨⟨s', rest''⟩, hs, heq⟩ := Option.map_eq_some_iff.mp h
      obtain ⟨rfl, rfl⟩ := Prod.mk.inj heq
      by_cases hascii : c.toNat < 0x7F
      · rw [toAscii_cons_of_lt hascii, scanText_cons (fun h => hok (Or.inr h)) hquote
          fun h => hok (Or.inl h), ih hs]
        rfl
      · rw [toAscii_cons, scanText_asciiEscape hascii, ih hs]
        rfl

/-! ### Reading numbers -/

/-- A digit is ASCII. -/
theorem lt_of_isDigit {c : Char} (h : c.isDigit = true) : c.toNat < 0x7F := by
  unfold Char.isDigit at h
  rw [Bool.and_eq_true, decide_eq_true_eq, decide_eq_true_eq] at h
  have hle : c.val.toNat ≤ (57 : UInt32).toNat := h.2
  have hval : c.toNat = c.val.toNat := rfl
  have h57 : (57 : UInt32).toNat = 57 := rfl
  omega

/-- The first character is ASCII and stays, or becomes a backslash. -/
theorem toAscii_cases (text : List Char) :
    text = [] ∨ ∃ c rest, text = c :: rest ∧
      (toAscii text = c :: toAscii rest ∨ ¬c.toNat < 0x7F ∧ ∃ rest', toAscii text = '\\' :: rest') := by
  cases text with
  | nil => exact Or.inl rfl
  | cons c text =>
      refine Or.inr ⟨c, text, rfl, ?_⟩
      by_cases h : c.toNat < 0x7F
      · exact Or.inl (toAscii_cons_of_lt h text)
      · exact Or.inr ⟨h, exists_toAscii_cons h text⟩

/-- What is tested of the first character is as before, if it is false of a backslash and of all
that is not ASCII. -/
theorem head?_toAscii_iff {d : Char} (hd : d.toNat < 0x7F) (hbackslash : d ≠ '\\')
    (text : List Char) : (toAscii text).head? = some d ↔ text.head? = some d := by
  rcases toAscii_cases text with rfl | ⟨c, rest, rfl, htext | ⟨hc, rest', htext⟩⟩
  · rfl
  · rw [htext]
    rfl
  · rw [htext]
    constructor
    · exact fun h => absurd (Option.some.inj h).symm hbackslash
    · rintro h
      obtain rfl := Option.some.inj h
      exact absurd hd hc

/-- A character in ASCII that is no backslash has been there before. -/
theorem exists_of_toAscii_cons {d : Char} (hd : d.toNat < 0x7F) (hbackslash : d ≠ '\\')
    {text rest : List Char} (h : toAscii text = d :: rest) :
    ∃ rest', text = d :: rest' ∧ rest = toAscii rest' := by
  have hhead : text.head? = some d := by
    rw [← head?_toAscii_iff hd hbackslash, h]
    rfl
  cases text with
  | nil => cases hhead
  | cons c text =>
      obtain rfl := Option.some.inj hhead
      rw [toAscii_cons_of_lt hd] at h
      exact ⟨text, rfl, (List.cons.inj h).2.symm⟩

theorem scanDigits_toAscii (text : List Char) :
    scanDigits (toAscii text) = ((scanDigits text).1, toAscii (scanDigits text).2) := by
  unfold scanDigits
  induction text with
  | nil => rfl
  | cons c text ih =>
      obtain ⟨htake, hdrop⟩ := Prod.mk.inj ih
      by_cases hdigit : c.isDigit = true
      · rw [toAscii_cons_of_lt (lt_of_isDigit hdigit)]
        simp [hdigit, htake, hdrop]
      · by_cases hc : c.toNat < 0x7F
        · rw [toAscii_cons_of_lt hc]
          simp [hdigit, toAscii_cons_of_lt hc]
        · obtain ⟨rest, htext⟩ := exists_toAscii_cons hc text
          simp [hdigit, htext]

theorem scanWhole_toAscii (text : List Char) : scanWhole (toAscii text) =
    (scanWhole text).map fun (whole, rest) => (whole, toAscii rest) := by
  rcases toAscii_cases text with rfl | ⟨c, rest, rfl, htext | ⟨hc, rest', htext⟩⟩
  · rfl
  · rw [htext, scanWhole, scanWhole, scanDigits_toAscii]
    split_ifs <;> rfl
  · have hzero : c ≠ '0' := by
      rintro rfl
      exact hc (by decide)
    have hdigit : ¬c.isDigit = true := fun h => hc (lt_of_isDigit h)
    rw [htext, scanWhole, scanWhole, if_neg hzero, if_neg hdigit]
    rfl

theorem scanMore_toAscii (read text : List Char) : scanMore read (toAscii text) =
    (scanMore read text).map fun (digits, rest) => (digits, toAscii rest) := by
  unfold scanMore
  rw [scanDigits_toAscii]
  split_ifs <;> rfl

/-- What may be there, or not, is read as before. -/
theorem getD_scanMore_toAscii (read text whole : List Char) :
    (scanMore read (toAscii text)).getD ([], toAscii whole) =
      (((scanMore read text).getD ([], whole)).1,
        toAscii ((scanMore read text).getD ([], whole)).2) := by
  rw [scanMore_toAscii]
  cases scanMore read text <;> rfl

theorem scanFraction_toAscii (text : List Char) :
    scanFraction (toAscii text) = ((scanFraction text).1, toAscii (scanFraction text).2) := by
  unfold scanFraction
  cases text with
  | nil => rfl
  | cons c text =>
      by_cases hc : c = '.'
      · subst hc
        rw [toAscii_cons_of_lt (by decide)]
        have hread := getD_scanMore_toAscii ['.'] text ('.' :: text)
        rwa [toAscii_cons_of_lt (by decide)] at hread
      · have hdot : (toAscii (c :: text)).head? ≠ some '.' := fun h =>
          hc (Option.some.inj ((head?_toAscii_iff (by decide) (by decide) (c :: text)).mp h))
        rw [if_neg hdot, if_neg (by simpa using hc)]
        rfl

theorem scanExponent_toAscii (text : List Char) :
    scanExponent (toAscii text) = ((scanExponent text).1, toAscii (scanExponent text).2) := by
  unfold scanExponent
  rcases toAscii_cases text with rfl | ⟨e, rest, rfl, htext | ⟨he, rest', htext⟩⟩
  · rfl
  · rw [htext]
    dsimp only
    by_cases hexp : e = 'e' ∨ e = 'E'
    · rw [if_pos hexp, if_pos hexp]
      have hsign : ((toAscii rest).head? = some '-' ∨ (toAscii rest).head? = some '+') ↔
          (rest.head? = some '-' ∨ rest.head? = some '+') :=
        or_congr (head?_toAscii_iff (by decide) (by decide) rest)
          (head?_toAscii_iff (by decide) (by decide) rest)
      by_cases hs : rest.head? = some '-' ∨ rest.head? = some '+'
      · rw [if_pos hs, if_pos (hsign.mpr hs)]
        cases rest with
        | nil => simp at hs
        | cons c rest =>
            have hc : c.toNat < 0x7F := by
              simp only [List.head?_cons, Option.some.injEq] at hs
              rcases hs with rfl | rfl <;> decide
            have hread := getD_scanMore_toAscii [e, c] rest (e :: c :: rest)
            rw [htext] at hread
            rw [toAscii_cons_of_lt hc] at hread ⊢
            exact hread
      · rw [if_neg hs, if_neg fun h => hs (hsign.mp h)]
        have hread := getD_scanMore_toAscii [e] rest (e :: rest)
        rwa [htext] at hread
    · rw [if_neg hexp, if_neg hexp]
      exact congrArg (Prod.mk []) htext.symm
  · have hexp : ¬(e = 'e' ∨ e = 'E') := by
      rintro (rfl | rfl) <;> exact he (by decide)
    rw [htext]
    dsimp only
    rw [if_neg hexp, if_neg (by decide)]
    exact congrArg (Prod.mk []) htext.symm

theorem scanUnsigned_toAscii (sign text : List Char) : scanUnsigned sign (toAscii text) =
    (scanUnsigned sign text).map fun (number, rest) => (number, toAscii rest) := by
  unfold scanUnsigned
  rw [scanWhole_toAscii]
  cases scanWhole text with
  | none => rfl
  | some found => simp only [Option.map_some, scanFraction_toAscii, scanExponent_toAscii]

/-- **A number is read as before.** -/
theorem scanNumber_toAscii (text : List Char) : scanNumber (toAscii text) =
    (scanNumber text).map fun (number, rest) => (number, toAscii rest) := by
  unfold scanNumber
  have hsign := head?_toAscii_iff (d := '-') (by decide) (by decide) text
  by_cases hs : text.head? = some '-'
  · rw [if_pos hs, if_pos (hsign.mpr hs)]
    cases text with
    | nil => cases hs
    | cons c text =>
        obtain rfl := Option.some.inj hs
        rw [toAscii_cons_of_lt (by decide)]
        exact scanUnsigned_toAscii ['-'] text
  · rw [if_neg hs, if_neg fun h => hs (hsign.mp h)]
    exact scanUnsigned_toAscii [] text

end JsonLexer
