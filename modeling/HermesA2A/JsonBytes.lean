import Mathlib.Data.List.Find
import HermesA2A.Lib.AsciiEscapes
import HermesA2A.Signatures

/-!
# JSON values and their bytes

`json.dumps` writes a value in ASCII, unless it is told not to.  `json.loads` takes bytes as well
as a text, and guesses their encoding by the zeros and the mark at the beginning.

* `loads_toAscii` — a text is read as before when all that is not ASCII is escaped.
* `loads_dumpsAscii` — the text of a value is read as the value.
* `loadsBytes_dumpsAscii`, `loadsBytes_dumpsUtf8` — and so are its bytes, in both ways of writing
  it: the encoding is guessed right.
-/

namespace HermesA2A

open JsonLexer

namespace Json

/-- `json.dumps(j)`: characters that are not ASCII are in texts only. -/
def dumpsAscii (j : Json) : String := String.ofList (toAscii j.write)

/-- `json.dumps(j, ensure_ascii=False)` -/
def dumpsUtf8 (j : Json) : String := String.ofList j.write

/-! ### Escapes -/

theorem skipSpace_toAscii (text : List Char) : skipSpace (toAscii text) = toAscii (skipSpace text) := by
  have hblank : ∀ c ∈ " \t\n\r".toList, c.toNat < 0x7F := Text.forall_mem_of_all (by decide)
  induction text with
  | nil => rfl
  | cons c text ih =>
      by_cases hc : c ∈ " \t\n\r".toList
      · have hskip : ∀ text : List Char, skipSpace (c :: text) = skipSpace text := fun text =>
          List.dropWhile_cons_of_pos (List.contains_iff_mem.mpr hc)
        rw [toAscii_cons_of_lt (hblank c hc), hskip, hskip, ih]
      · rw [skipSpace_cons hc]
        by_cases hascii : c.toNat < 0x7F
        · rw [toAscii_cons_of_lt hascii, skipSpace_cons hc]
        · obtain ⟨rest, htext⟩ := exists_toAscii_cons hascii text
          rw [htext, skipSpace_cons (by decide)]

section Scan

variable {F : FloatReader}

/-- A word in ASCII is found as before. -/
theorem isPrefixOf_toAscii {w : List Char} (hw : ∀ c ∈ w, c.toNat < 0x7F ∧ c ≠ '\\')
    (text : List Char) : w.isPrefixOf (toAscii text) = w.isPrefixOf text := by
  induction w generalizing text with
  | nil => simp
  | cons d w ih =>
      obtain ⟨hd, hbackslash⟩ := hw d List.mem_cons_self
      rcases toAscii_cases text with rfl | ⟨c, rest, rfl, htext | ⟨hc, rest', htext⟩⟩
      · rfl
      · rw [htext, List.isPrefixOf, List.isPrefixOf, ih fun c hc => hw c (List.mem_cons_of_mem _ hc)]
      · have hne : d ≠ c := by
          rintro rfl
          exact hc hd
        rw [htext, List.isPrefixOf, List.isPrefixOf, beq_eq_false_iff_ne.mpr hbackslash,
          beq_eq_false_iff_ne.mpr hne, Bool.false_and, Bool.false_and]

theorem scanAtom_toAscii {text rest : List Char} {v : Json} (h : scanAtom F text = some (v, rest)) :
    scanAtom F (toAscii text) = some (v, toAscii rest) := by
  have hwords : ∀ w ∈ WORDS, ∀ c ∈ w.1.toList, c.toNat < 0x7F ∧ c ≠ '\\' := by
    intro w hw
    simp only [WORDS, List.mem_cons, List.not_mem_nil, or_false] at hw
    rcases hw with rfl | rfl | rfl | rfl | rfl | rfl <;> exact Text.forall_mem_of_all (by decide)
  unfold scanAtom at h ⊢
  rw [scanNumber_toAscii]
  cases hnumber : scanNumber text with
  | some found =>
      rw [hnumber] at h
      obtain ⟨rfl, rfl⟩ := Prod.mk.inj (Option.some.inj h)
      rfl
  | none =>
      rw [hnumber] at h
      dsimp only at h ⊢
      obtain ⟨w, hfind, heq⟩ := Option.map_eq_some_iff.mp h
      obtain ⟨rfl, rfl⟩ := Prod.mk.inj heq
      have hsame : (WORDS.find? fun w => w.1.toList.isPrefixOf (toAscii text)) = some w := by
        rw [← hfind]
        exact List.find?_congr fun w hw => isPrefixOf_toAscii (hwords w hw) text
      have hascii : toAscii w.1.toList = w.1.toList :=
        toAscii_eq_self fun c hc => (hwords w (List.mem_of_find?_eq_some hfind) c hc).1
      have hbegins : w.1.toList.isPrefixOf text = true :=
        @List.find?_some _ (fun w : String × Json => w.1.toList.isPrefixOf text) _ _ hfind
      obtain ⟨after, rfl⟩ := List.isPrefixOf_iff_prefix.mp hbegins
      have hdrop : ∀ after : List Char, (w.1.toList ++ after).drop w.1.length = after := fun after =>
        List.drop_left' String.length_toList
      rw [Option.map_none]
      dsimp only
      rw [hsame, Option.map_some, toAscii_append, hascii, hdrop, hdrop]

/-- What begins no text, no array and no object does not begin with it in ASCII either. -/
theorem head?_toAscii_of_atom {text : List Char} (h : ∀ c ∈ text.head?, c ∉ "\"[\x7b".toList) :
    ∀ c ∈ (toAscii text).head?, c ∉ "\"[\x7b".toList := by
  rcases toAscii_cases text with rfl | ⟨c, rest, rfl, htext | ⟨hc, rest', htext⟩⟩
  · exact h
  · rw [htext]
    exact h
  · rw [htext]
    rintro d hd
    obtain rfl := Option.some.inj hd
    decide

/-- What `scan` finds in a text, `scan'` finds in the text in ASCII. -/
def FindsInAscii {α : Type} (scan scan' : List Char → Option (α × List Char)) : Prop :=
  ∀ text a rest, scan text = some (a, rest) → scan' (toAscii text) = some (a, toAscii rest)

section Step

variable {fuel fuel' : ℕ}

/-- A value, if its parts are read as before. -/
theorem scanValue_step (hitems : FindsInAscii (scanItems F fuel) (scanItems F fuel'))
    (hfields : FindsInAscii (scanFields F fuel) (scanFields F fuel')) :
    FindsInAscii (scanValue F (fuel + 1)) (scanValue F (fuel' + 1)) := by
  intro text v rest h
  by_cases hhead : ∀ c ∈ text.head?, c ∉ "\"[\x7b".toList
  · rw [scanValue_atom hhead] at h
    rw [scanValue_atom (head?_toAscii_of_atom hhead)]
    exact scanAtom_toAscii h
  push Not at hhead
  obtain ⟨c, hc, hmem⟩ := hhead
  obtain ⟨inner, rfl⟩ : ∃ inner, text = c :: inner := ⟨text.tail, (List.cons_head?_tail hc).symm⟩
  have hchars : "\"[\x7b".toList = ['"', '[', '\x7b'] := rfl
  rw [hchars] at hmem
  simp only [List.mem_cons, List.not_mem_nil, or_false] at hmem
  rcases hmem with rfl | rfl | rfl
  · rw [scanValue] at h
    obtain ⟨⟨s, rest'⟩, hs, heq⟩ := Option.map_eq_some_iff.mp h
    obtain ⟨rfl, rfl⟩ := Prod.mk.inj heq
    rw [toAscii_cons_of_lt (by decide), scanValue, scanText_toAscii hs]
    rfl
  · rw [scanValue] at h
    rw [toAscii_cons_of_lt (by decide), scanValue, skipSpace_toAscii]
    split at h
    · rename_i rest' heq
      obtain ⟨rfl, rfl⟩ := Prod.mk.inj (Option.some.inj h)
      rw [heq, toAscii_cons_of_lt (by decide)]
      rfl
    · rename_i hno
      obtain ⟨⟨xs, rest'⟩, hxs, heq⟩ := Option.map_eq_some_iff.mp h
      obtain ⟨rfl, rfl⟩ := Prod.mk.inj heq
      split
      · rename_i after heq
        obtain ⟨rest'', heq, -⟩ := exists_of_toAscii_cons (by decide) (by decide) heq
        exact absurd heq (hno rest'')
      · rw [hitems _ _ _ hxs]
        rfl
  · rw [scanValue] at h
    rw [toAscii_cons_of_lt (by decide), scanValue, skipSpace_toAscii]
    split at h
    · rename_i rest' heq
      obtain ⟨rfl, rfl⟩ := Prod.mk.inj (Option.some.inj h)
      rw [heq, toAscii_cons_of_lt (by decide)]
      rfl
    · rename_i hno
      obtain ⟨⟨pairs, rest'⟩, hpairs, heq⟩ := Option.map_eq_some_iff.mp h
      obtain ⟨rfl, rfl⟩ := Prod.mk.inj heq
      split
      · rename_i after heq
        obtain ⟨rest'', heq, -⟩ := exists_of_toAscii_cons (by decide) (by decide) heq
        exact absurd heq (hno rest'')
      · rw [hfields _ _ _ hpairs]
        rfl

/-- The items of an array. -/
theorem scanItems_step (hvalue : FindsInAscii (scanValue F fuel) (scanValue F fuel'))
    (hitems : FindsInAscii (scanItems F fuel) (scanItems F fuel')) :
    FindsInAscii (scanItems F (fuel + 1)) (scanItems F (fuel' + 1)) := by
  intro text xs rest h
  rw [scanItems] at h ⊢
  cases hx : scanValue F fuel text with
  | none =>
      rw [hx] at h
      cases h
  | some found =>
      obtain ⟨x, rest'⟩ := found
      rw [hx] at h
      rw [hvalue _ _ _ hx]
      dsimp only at h ⊢
      rw [skipSpace_toAscii]
      split at h
      · rename_i rest'' heq
        obtain ⟨rfl, rfl⟩ := Prod.mk.inj (Option.some.inj h)
        rw [heq, toAscii_cons_of_lt (by decide)]
        rfl
      · rename_i rest'' heq
        obtain ⟨⟨xs', after⟩, hxs, heq'⟩ := Option.map_eq_some_iff.mp h
        obtain ⟨rfl, rfl⟩ := Prod.mk.inj heq'
        have hrest := hitems _ _ _ hxs
        rw [← skipSpace_toAscii] at hrest
        rw [heq, toAscii_cons_of_lt (by decide)]
        change (scanItems F fuel' (skipSpace (toAscii rest''))).map _ = _
        rw [hrest]
        rfl
      · cases h

/-- A member, after its key and a colon. -/
theorem scanFields_colon {text key rest after : List Char}
    (hkey : scanText text = some (key, rest)) (hcolon : skipSpace rest = ':' :: after) :
    scanFields F (fuel + 1) ('"' :: text) =
      match scanValue F fuel (skipSpace after) with
      | none => none
      | some (v, rest) =>
          match skipSpace rest with
          | '\x7d' :: rest => some ([(String.ofList key, v)], rest)
          | ',' :: rest =>
              (scanFields F fuel (skipSpace rest)).map fun (pairs, rest) =>
                ((String.ofList key, v) :: pairs, rest)
          | _ => none := by
  rw [scanFields, hkey]
  dsimp only
  rw [hcolon]
  rfl

/-- The members of an object. -/
theorem scanFields_step (hvalue : FindsInAscii (scanValue F fuel) (scanValue F fuel'))
    (hfields : FindsInAscii (scanFields F fuel) (scanFields F fuel')) :
    FindsInAscii (scanFields F (fuel + 1)) (scanFields F (fuel' + 1)) := by
  intro text pairs rest h
  -- a key in quotation marks, and a colon
  obtain ⟨inner, key, rest', after, rfl, hkey, hcolon⟩ : ∃ inner key rest' after,
      text = '"' :: inner ∧ scanText inner = some (key, rest') ∧ skipSpace rest' = ':' :: after := by
    unfold scanFields at h
    split at h
    · cases h
    · rename_i inner _
      split at h
      · cases h
      · rename_i key rest' hkey
        split at h
        · rename_i after hcolon
          exact ⟨inner, key, rest', after, rfl, hkey, hcolon⟩
        · cases h
    · cases h
  have hcolon' : skipSpace (toAscii rest') = ':' :: toAscii after := by
    rw [skipSpace_toAscii, hcolon, toAscii_cons_of_lt (by decide)]
  rw [scanFields_colon hkey hcolon] at h
  rw [toAscii_cons_of_lt (by decide), scanFields_colon (scanText_toAscii hkey) hcolon',
    skipSpace_toAscii]
  cases hv : scanValue F fuel (skipSpace after) with
  | none =>
      rw [hv] at h
      cases h
  | some found =>
      obtain ⟨v, rest₂⟩ := found
      rw [hv] at h
      rw [hvalue _ _ _ hv]
      dsimp only at h ⊢
      rw [skipSpace_toAscii]
      split at h
      · rename_i after' heq
        obtain ⟨rfl, rfl⟩ := Prod.mk.inj (Option.some.inj h)
        rw [heq, toAscii_cons_of_lt (by decide)]
        rfl
      · rename_i after' heq
        obtain ⟨⟨pairs', rest₃⟩, hpairs, heq'⟩ := Option.map_eq_some_iff.mp h
        obtain ⟨rfl, rfl⟩ := Prod.mk.inj heq'
        have hrest := hfields _ _ _ hpairs
        rw [← skipSpace_toAscii] at hrest
        rw [heq, toAscii_cons_of_lt (by decide)]
        change (scanFields F fuel' (skipSpace (toAscii after'))).map _ = _
        rw [hrest]
        rfl
      · cases h

end Step

/-- **A text is read as before**, with as much fuel or more. -/
theorem scan_toAscii (fuel : ℕ) : ∀ fuel' ≥ fuel,
    FindsInAscii (scanValue F fuel) (scanValue F fuel') ∧
    FindsInAscii (scanItems F fuel) (scanItems F fuel') ∧
    FindsInAscii (scanFields F fuel) (scanFields F fuel') := by
  induction fuel with
  | zero =>
      refine fun fuel' _ => ⟨fun text v rest h => ?_, fun text xs rest h => ?_,
        fun text pairs rest h => ?_⟩
      · cases h
      · cases h
      · cases text with
        | nil => cases h
        | cons c text => cases h
  | succ fuel ih =>
      rintro (_ | fuel') hle
      · exact absurd hle (Nat.not_succ_le_zero fuel)
      obtain ⟨hvalue, hitems, hfields⟩ := ih fuel' (Nat.le_of_succ_le_succ hle)
      exact ⟨scanValue_step hitems hfields, scanItems_step hvalue hitems,
        scanFields_step hvalue hfields⟩

/-- **A text is read as before** when all that is not ASCII is escaped. -/
theorem loads_toAscii {text : List Char} {v : Json} (h : loads F text = some v) :
    loads F (toAscii text) = some v := by
  have hlength : text.length ≤ (toAscii text).length := by
    clear h
    induction text with
    | nil => exact Nat.le_refl 0
    | cons c text ih =>
        have hc : 1 ≤ (asciiEscape c).length := by
          unfold asciiEscape
          split_ifs <;> simp [unicodeEscape]
        rw [toAscii_cons, List.length_append, List.length_cons]
        omega
  unfold loads at h ⊢
  rw [skipSpace_toAscii]
  cases hscan : scanValue F (2 * text.length + 1) (skipSpace text) with
  | none =>
      rw [hscan] at h
      cases h
  | some found =>
      obtain ⟨v', rest⟩ := found
      rw [hscan] at h
      dsimp only at h
      split_ifs at h with hrest
      obtain rfl := Option.some.inj h
      have hread := (scan_toAscii (F := F) (2 * text.length + 1)
        (2 * (toAscii text).length + 1) (by omega)).1 _ _ _ hscan
      rw [hread]
      dsimp only
      rw [skipSpace_toAscii, hrest, toAscii_nil, if_pos rfl]

/-- **The text of a value in ASCII is read as the value.** -/
theorem loads_dumpsAscii {v : Json} (h : v.WellFormed F) : loads F v.dumpsAscii.toList = some v := by
  rw [dumpsAscii, String.toList_ofList]
  exact loads_toAscii (loads_write h)

end Scan

/-! ### Bytes -/

/-- The encodings that `json.loads` knows. -/
inductive Encoding
  | utf8
  | utf8Sig
  | utf16
  | utf16Be
  | utf16Le
  | utf32
  | utf32Be
  | utf32Le
  deriving DecidableEq

/-- `json.detect_encoding` -/
def detectEncoding (b : List UInt8) : Encoding :=
  if [0x00, 0x00, 0xFE, 0xFF].isPrefixOf b ∨ [0xFF, 0xFE, 0x00, 0x00].isPrefixOf b then .utf32
  else if [0xFE, 0xFF].isPrefixOf b ∨ [0xFF, 0xFE].isPrefixOf b then .utf16
  else if [0xEF, 0xBB, 0xBF].isPrefixOf b then .utf8Sig
  else
    match b with
    | b₀ :: b₁ :: b₂ :: b₃ :: _ =>
        if b₀ = 0 then if b₁ ≠ 0 then .utf16Be else .utf32Be
        else if b₁ = 0 then if b₂ ≠ 0 ∨ b₃ ≠ 0 then .utf16Le else .utf32Le
        else .utf8
    | [b₀, b₁] => if b₀ = 0 then .utf16Be else if b₁ = 0 then .utf16Le else .utf8
    | _ => .utf8

/-- Bytes that are not UTF-8, as a text, if they are one in their encoding. -/
abbrev WideDecoder := Encoding → ByteArray → Option (List Char)

/-- `json.loads(data)` for bytes. -/
def loadsBytes (F : FloatReader) (decode : WideDecoder) (data : ByteArray) : Option Json :=
  match detectEncoding data.data.toList with
  | .utf8 => parseBody F data
  | encoding => (decode encoding data).bind (loads F)

/-- Bytes without a zero that begin with ASCII are taken for UTF-8. -/
theorem detectEncoding_eq {b : List UInt8} (hzero : ∀ x ∈ b, x ≠ 0)
    (hhead : ∀ x ∈ b.head?, x.toNat < 0x80) : detectEncoding b = .utf8 := by
  have hmark : ∀ (x : UInt8) (mark : List UInt8), x = 0 ∨ 0x80 ≤ x.toNat →
      (x :: mark).isPrefixOf b = false := by
    intro x mark hx
    cases b with
    | nil => rfl
    | cons y b =>
        have hne : x ≠ y := by
          rintro rfl
          rcases hx with rfl | hx
          · exact hzero 0 List.mem_cons_self rfl
          · exact absurd (hhead x rfl) (Nat.not_lt.mpr hx)
        rw [List.isPrefixOf, beq_eq_false_iff_ne.mpr hne, Bool.false_and]
  unfold detectEncoding
  rw [hmark _ _ (Or.inl rfl), hmark 0xFF _ (Or.inr (by decide)), hmark 0xFE _ (Or.inr (by decide)),
    hmark 0xFF _ (Or.inr (by decide)), hmark 0xEF _ (Or.inr (by decide))]
  simp only [Bool.false_eq_true, or_self, if_false]
  split
  · rename_i b₀ b₁ b₂ b₃ rest
    rw [if_neg (hzero b₀ (by simp)), if_neg (hzero b₁ (by simp))]
  · rename_i b₀ b₁
    rw [if_neg (hzero b₀ (by simp)), if_neg (hzero b₁ (by simp))]
  · rfl

/-- A character that is no control character has none among its bytes. -/
theorem le_of_mem_utf8EncodeChar {c : Char} (hc : 0x20 ≤ c.toNat) {x : UInt8}
    (hx : x ∈ String.utf8EncodeChar c) : 0x20 ≤ x.toNat := by
  have hlow : 0x20 ≤ c.val.toNat := hc
  have hbyte : ∀ n : ℕ, 0x20 ≤ n % 256 → 0x20 ≤ (UInt8.ofNat n).toNat := by
    intro n hn
    rw [UInt8.toNat_ofNat']
    exact hn
  unfold String.utf8EncodeChar at hx
  dsimp only at hx
  split_ifs at hx with h₁ h₂ h₃
  · obtain rfl := List.mem_singleton.mp hx
    exact hbyte _ (by omega)
  · simp only [List.mem_cons, List.not_mem_nil, or_false] at hx
    rcases hx with rfl | rfl <;> exact hbyte _ (by omega)
  · simp only [List.mem_cons, List.not_mem_nil, or_false] at hx
    rcases hx with rfl | rfl | rfl <;> exact hbyte _ (by omega)
  · simp only [List.mem_cons, List.not_mem_nil, or_false] at hx
    rcases hx with rfl | rfl | rfl | rfl <;> exact hbyte _ (by omega)

/-- The bytes of a text. -/
theorem toList_data_toUTF8 (text : List Char) :
    (String.ofList text).toUTF8.data.toList = text.flatMap String.utf8EncodeChar := by
  change (String.ofList text).toByteArray.data.toList = _
  rw [String.toByteArray_ofList, List.utf8Encode, List.toList_data_toByteArray]

/-- **The bytes of a text without control characters that begins with ASCII are read as the
text.** -/
theorem loadsBytes_toUTF8 {F : FloatReader} (decode : WideDecoder) {text : List Char}
    (h : Printable text) (hhead : ∀ c ∈ text.head?, c.toNat < 0x7F) :
    loadsBytes F decode (String.ofList text).toUTF8 = loads F text := by
  have hdetect : detectEncoding (String.ofList text).toUTF8.data.toList = .utf8 := by
    rw [toList_data_toUTF8]
    refine detectEncoding_eq (fun x hx => ?_) fun x hx => ?_
    · obtain ⟨c, hc, hmem⟩ := List.mem_flatMap.mp hx
      rintro rfl
      exact absurd (le_of_mem_utf8EncodeChar (h c hc) hmem) (by decide)
    · cases text with
      | nil => cases hx
      | cons c text =>
          have hc : c.toNat < 0x7F := hhead c rfl
          have hval : c.val.toNat ≤ 0x7f := Nat.le_of_lt hc
          have hsingle : String.utf8EncodeChar c = [UInt8.ofNat c.val.toNat] := by
            unfold String.utf8EncodeChar
            exact if_pos hval
          rw [List.flatMap_cons, hsingle] at hx
          obtain rfl := Option.some.inj hx
          rw [UInt8.toNat_ofNat']
          omega
  have hdecode : String.fromUTF8? (String.ofList text).toUTF8 = some (String.ofList text) :=
    dif_pos (String.ofList text).isValidUTF8
  rw [loadsBytes, hdetect]
  dsimp only
  rw [parseBody, hdecode, Option.bind_some, String.toList_ofList]

section Bytes

variable {F : FloatReader} {v : Json} (h : v.WellFormed F) (decode : WideDecoder)

include h

/-- The text of a value begins with ASCII. -/
theorem head_write : ∀ c ∈ v.write.head?, c.toNat < 0x7F := by
  have hatom : ∀ {v : Json}, IsAtom F v → ∀ c ∈ v.write.head?, c.toNat < 0x7F := by
    intro v hv c hc
    rcases hv.cases_text with ⟨token, isFloat, htext, hscan, -⟩ | ⟨w, hw, htext, -⟩
    · rw [htext] at hc
      obtain ⟨d, after, rfl, hd⟩ := exists_head_of_scanNumber hscan
      obtain rfl := Option.some.inj hc
      rcases hd with hd | rfl
      · exact lt_of_isDigit hd
      · decide
    · rw [htext] at hc
      simp only [WORDS, List.mem_cons, List.not_mem_nil, or_false] at hw
      rcases hw with rfl | rfl | rfl | rfl | rfl | rfl <;>
        (obtain rfl := Option.some.inj hc; decide)
  have hcons : ∀ {d : Char} {rest : List Char}, d.toNat < 0x7F → v.write = d :: rest →
      ∀ c ∈ v.write.head?, c.toNat < 0x7F := by
    intro d rest hd htext c hc
    rw [htext] at hc
    obtain rfl := Option.some.inj hc
    exact hd
  cases v with
  | null => exact hatom .null
  | bool b => exact hatom (.bool b)
  | int n => exact hatom (.int n)
  | float r => exact hatom (.float h)
  | str s => exact hcons (d := '"') (by decide) (by rw [write, quoted])
  | arr xs =>
      cases xs with
      | nil => exact hcons (d := '[') (by decide) (by rw [write]; rfl)
      | cons x xs => exact hcons (d := '[') (by decide) (by rw [write])
  | obj fs =>
      cases fs with
      | nil => exact hcons (d := '\x7b') (by decide) (by rw [write]; rfl)
      | cons e fs => exact hcons (d := '\x7b') (by decide) (by rw [write])

/-- **The bytes of a value are read as the value**, if it is written in ASCII. -/
theorem loadsBytes_dumpsAscii : loadsBytes F decode v.dumpsAscii.toUTF8 = some v := by
  have hascii : ∀ c ∈ toAscii v.write, 0x20 ≤ c.toNat ∧ c.toNat < 0x7F := fun c hc =>
    lt_of_mem_toAscii (printable_write h) hc
  rw [dumpsAscii, loadsBytes_toUTF8 decode (fun c hc => (hascii c hc).1)
    fun c hc => (hascii c (List.mem_of_mem_head? hc)).2]
  exact loads_toAscii (loads_write h)

/-- And if it is not. -/
theorem loadsBytes_dumpsUtf8 : loadsBytes F decode v.dumpsUtf8.toUTF8 = some v := by
  rw [dumpsUtf8, loadsBytes_toUTF8 decode (printable_write h) (head_write h), loads_write h]

/-- The same by `data.decode()`. -/
theorem parseBody_dumpsUtf8 : parseBody F v.dumpsUtf8.toUTF8 = some v := by
  have hdecode : String.fromUTF8? v.dumpsUtf8.toUTF8 = some v.dumpsUtf8 :=
    dif_pos v.dumpsUtf8.isValidUTF8
  rw [parseBody, hdecode, Option.bind_some, dumpsUtf8, String.toList_ofList, loads_write h]

end Bytes

end Json

end HermesA2A
