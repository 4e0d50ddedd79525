import HermesA2A.Json
import HermesA2A.Lib.JsonLexer
import HermesA2A.Lib.Text

/-!
# JSON values and their texts

`json.dumps(…, sort_keys=True, ensure_ascii=False)` and `json.loads`.  A float is known by its
`repr`, and what the float of a text is shown as is a parameter (`FloatReader`).

* `Json.WellFormed` — what a Python value has: dictionaries with distinct keys, and floats that
  are read as they are shown.
* `loads_write` — the text of a value is read as the value.
* `printable_write` — the text of a value is in one line.
* `sortKeys_sortKeys` — sorted keys stay as they are.
* `Json.Same` — the same value, whatever the order of the keys; `sortKeys_eq_of_same` — sorting
  the keys makes it the same text.
-/

namespace HermesA2A

open JsonLexer

/-- `repr(float(text))` -/
abbrev FloatReader := List Char → String

namespace Json

/-! ### Writing -/

/-- A float, by its `repr`. -/
def floatText (r : String) : List Char :=
  if r = "nan" then "NaN".toList
  else if r = "inf" then "Infinity".toList
  else if r = "-inf" then "-Infinity".toList
  else r.toList

/-- A text in its quotation marks. -/
def quoted (s : String) : List Char := '"' :: (s.toList.flatMap escape ++ ['"'])

mutual

/-- `json.dumps(j, ensure_ascii=False)` -/
def write : Json → List Char
  | null => "null".toList
  | bool b => if b then "true".toList else "false".toList
  | int n => intText n
  | float r => floatText r
  | str s => quoted s
  | arr [] => "[]".toList
  | arr (x :: xs) => '[' :: (write x ++ writeItems xs ++ [']'])
  | obj [] => "\x7b\x7d".toList
  | obj ((k, v) :: fs) =>
      '\x7b' :: (quoted k ++ ": ".toList ++ write v ++ writeFields fs ++ ['\x7d'])

/-- The items after the first one. -/
def writeItems : List Json → List Char
  | [] => []
  | x :: xs => ", ".toList ++ write x ++ writeItems xs

/-- The members after the first one. -/
def writeFields : List (String × Json) → List Char
  | [] => []
  | (k, v) :: fs => ", ".toList ++ quoted k ++ ": ".toList ++ write v ++ writeFields fs

end

/-! ### Reading -/

/-- Leave out white space. -/
def skipSpace (text : List Char) : List Char := text.dropWhile fun c => " \t\n\r".toList.contains c

/-- The words, and what they stand for. -/
def WORDS : List (String × Json) :=
  [("null", null), ("true", bool true), ("false", bool false), ("NaN", float "nan"),
    ("Infinity", float "inf"), ("-Infinity", float "-inf")]

/-- A number or a word. -/
def scanAtom (F : FloatReader) (text : List Char) : Option (Json × List Char) :=
  match scanNumber text with
  | some ((token, isFloat), rest) =>
      some (if isFloat then float (F token) else int (intOf token), rest)
  | none =>
      (WORDS.find? fun w => w.1.toList.isPrefixOf text).map fun w => (w.2, text.drop w.1.length)

/-- `dict(pairs)` -/
def toDict (pairs : List (String × Json)) : List (String × Json) :=
  pairs.foldl (fun fields e => setField e.1 e.2 fields) []

mutual

/-- A value at the beginning of a text, and what follows. -/
def scanValue (F : FloatReader) : ℕ → List Char → Option (Json × List Char)
  | 0, _ => none
  | fuel + 1, text =>
      match text with
      | '"' :: rest => (scanText rest).map fun (s, rest) => (str (String.ofList s), rest)
      | '[' :: rest =>
          match skipSpace rest with
          | ']' :: rest => some (arr [], rest)
          | text => (scanItems F fuel text).map fun (xs, rest) => (arr xs, rest)
      | '\x7b' :: rest =>
          match skipSpace rest with
          | '\x7d' :: rest => some (obj [], rest)
          | text => (scanFields F fuel text).map fun (pairs, rest) => (obj (toDict pairs), rest)
      | text => scanAtom F text

/-- The items of an array, up to its end. -/
def scanItems (F : FloatReader) : ℕ → List Char → Option (List Json × List Char)
  | 0, _ => none
  | fuel + 1, text =>
      match scanValue F fuel text with
      | none => none
      | some (x, rest) =>
          match skipSpace rest with
          | ']' :: rest => some ([x], rest)
          | ',' :: rest =>
              (scanItems F fuel (skipSpace rest)).map fun (xs, rest) => (x :: xs, rest)
          | _ => none

/-- The members of an object, up to its end. -/
def scanFields (F : FloatReader) : ℕ → List Char → Option (List (String × Json) × List Char)
  | 0, _ => none
  | fuel + 1, '"' :: text =>
      match scanText text with
      | none => none
      | some (key, rest) =>
          match skipSpace rest with
          | ':' :: rest =>
              match scanValue F fuel (skipSpace rest) with
              | none => none
              | some (v, rest) =>
                  match skipSpace rest with
                  | '\x7d' :: rest => some ([(String.ofList key, v)], rest)
                  | ',' :: rest =>
                      (scanFields F fuel (skipSpace rest)).map fun (pairs, rest) =>
                        ((String.ofList key, v) :: pairs, rest)
                  | _ => none
          | _ => none
  | _, _ => none

end

/-- `json.loads`: every level of a value takes up two characters at least. -/
def loads (F : FloatReader) (text : List Char) : Option Json :=
  match scanValue F (2 * text.length + 1) (skipSpace text) with
  | some (v, rest) => if skipSpace rest = [] then some v else none
  | none => none

example : loads String.ofList " \x7b\"a\" : [1, -2.5e3, null]\x7d".toList =
    some (obj [("a", arr [int 1, float "-2.5e3", null])]) := by decide +kernel

/-! ### Well-formed values -/

/-- The `repr` of a float: a number that is no integer and is read as it is shown, or one of
the three that are no numbers. -/
def FloatRepr (F : FloatReader) (r : String) : Prop :=
  r ∈ ["nan", "inf", "-inf"] ∨
    scanNumber r.toList = some ((r.toList, true), []) ∧ F r.toList = r

mutual

/-- **A Python value**: every float is a `repr`, and every dictionary has its keys once. -/
def WellFormed (F : FloatReader) : Json → Prop
  | float r => FloatRepr F r
  | arr xs => WellFormedItems F xs
  | obj fs => (fs.map Prod.fst).Nodup ∧ WellFormedFields F fs
  | _ => True

/-- All items are well formed. -/
def WellFormedItems (F : FloatReader) : List Json → Prop
  | [] => True
  | x :: xs => WellFormed F x ∧ WellFormedItems F xs

/-- All values of an object are well formed. -/
def WellFormedFields (F : FloatReader) : List (String × Json) → Prop
  | [] => True
  | (_, v) :: fs => WellFormed F v ∧ WellFormedFields F fs

end

/-! ### What was written is read -/

section Atoms

variable {F : FloatReader} {rest : List Char}

theorem skipSpace_cons {c : Char} (hc : c ∉ " \t\n\r".toList) (text : List Char) :
    skipSpace (c :: text) = c :: text := by
  have hno : " \t\n\r".toList.contains c = false := by
    rw [Bool.eq_false_iff, ne_eq, List.contains_iff_mem]
    exact hc
  rw [skipSpace, List.dropWhile_cons_of_neg]
  rw [hno]
  exact Bool.false_ne_true

/-- After a value there is nothing that a number could go on with. -/
theorem ends_cons {c : Char} (hc : c ∈ [',', ']', '\x7d']) (text : List Char) :
    Ends (c :: text) := by
  intro d hd
  obtain rfl := Option.some.inj hd
  simp only [List.mem_cons, List.not_mem_nil, or_false] at hc
  rcases hc with rfl | rfl | rfl <;> decide

/-- A number begins with a digit or a minus sign. -/
theorem exists_head_of_scanNumber {text : List Char} {found : (List Char × Bool) × List Char}
    (h : scanNumber text = some found) :
    ∃ c after, text = c :: after ∧ (c.isDigit = true ∨ c = '-') := by
  cases text with
  | nil => cases h
  | cons c after =>
      refine ⟨c, after, rfl, ?_⟩
      by_contra hno
      obtain ⟨hdigit, hminus⟩ := not_or.mp hno
      have hzero : c ≠ '0' := by
        rintro rfl
        exact hdigit rfl
      rw [scanNumber, if_neg (by simpa using hminus), scanUnsigned, scanWhole, if_neg hzero,
        if_neg hdigit] at h
      cases h

theorem scanAtom_of_number {text token : List Char} {isFloat : Bool}
    (h : scanNumber text = some ((token, isFloat), [])) (hends : Ends rest) :
    scanAtom F (text ++ rest) =
      some (if isFloat then float (F token) else int (intOf token), rest) := by
  rw [scanAtom, scanNumber_append hends h, List.nil_append]

theorem scanAtom_word {w : String × Json} (hw : w ∈ WORDS) :
    scanAtom F (w.1.toList ++ rest) = some (w.2, rest) := by
  simp only [WORDS, List.mem_cons, List.not_mem_nil, or_false] at hw
  rcases hw with rfl | rfl | rfl | rfl | rfl | rfl <;> rfl

/-- What begins no text, no array and no object is an atom. -/
theorem scanValue_atom {text : List Char} (hhead : ∀ c ∈ text.head?, c ∉ "\"[\x7b".toList)
    (fuel : ℕ) : scanValue F (fuel + 1) text = scanAtom F text := by
  rw [scanValue]
  · rintro rest rfl
    exact absurd (by decide) (hhead _ rfl)
  · rintro rest rfl
    exact absurd (by decide) (hhead _ rfl)
  · rintro rest rfl
    exact absurd (by decide) (hhead _ rfl)

/-- The first character of an atom: a letter, a digit or a minus sign. -/
def AtomHead (text : List Char) : Prop :=
  ∃ c after, text = c :: after ∧ c ∉ " \t\n\r]\"[\x7b".toList

theorem atomHead_of_scanNumber {text : List Char} {found : (List Char × Bool) × List Char}
    (h : scanNumber text = some found) : AtomHead text := by
  obtain ⟨c, after, rfl, hc⟩ := exists_head_of_scanNumber h
  refine ⟨c, after, rfl, fun hmem => ?_⟩
  have hnone : ∀ d ∈ " \t\n\r]\"[\x7b".toList, d.isDigit = false ∧ d ≠ '-' :=
    Text.forall_mem_of_all (by decide)
  obtain ⟨hdigit, hminus⟩ := hnone c hmem
  rcases hc with hc | hc
  · rw [hdigit] at hc
    cases hc
  · exact hminus hc

/-- **Atoms**: what neither is a text nor has parts. -/
inductive IsAtom (F : FloatReader) : Json → Prop
  | null : IsAtom F null
  | bool (b : Bool) : IsAtom F (bool b)
  | int (n : ℤ) : IsAtom F (int n)
  | float {r : String} (h : FloatRepr F r) : IsAtom F (float r)

/-- An atom is a number or a word. -/
theorem IsAtom.cases_text {v : Json} (h : IsAtom F v) :
    (∃ token isFloat, write v = token ∧ scanNumber token = some ((token, isFloat), []) ∧
      (if isFloat then Json.float (F token) else Json.int (intOf token)) = v) ∨
    ∃ w ∈ WORDS, write v = w.1.toList ∧ w.2 = v := by
  cases h with
  | null => exact Or.inr ⟨("null", .null), by decide, rfl, rfl⟩
  | bool b =>
      cases b with
      | true => exact Or.inr ⟨("true", .bool true), by decide, rfl, rfl⟩
      | false => exact Or.inr ⟨("false", .bool false), by decide, rfl, rfl⟩
  | int n =>
      refine Or.inl ⟨intText n, false, by rw [write], scanNumber_intText n, ?_⟩
      rw [if_neg Bool.false_ne_true, intOf_intText]
  | @float r h =>
      rcases h with hword | ⟨hscan, hread⟩
      · simp only [List.mem_cons, List.not_mem_nil, or_false] at hword
        rcases hword with rfl | rfl | rfl
        · exact Or.inr ⟨("NaN", .float "nan"), by decide, by decide, rfl⟩
        · exact Or.inr ⟨("Infinity", .float "inf"), by decide, by decide, rfl⟩
        · exact Or.inr ⟨("-Infinity", .float "-inf"), by decide, by decide, rfl⟩
      · refine Or.inl ⟨r.toList, true, ?_, hscan, by rw [if_pos rfl, hread]⟩
        have hne : ∀ word ∈ ["nan", "inf", "-inf"], r ≠ word := by
          rintro word hword rfl
          simp only [List.mem_cons, List.not_mem_nil, or_false] at hword
          rcases hword with rfl | rfl | rfl <;> cases hscan
        rw [write, floatText, if_neg (hne _ (by decide)), if_neg (hne _ (by decide)),
          if_neg (hne _ (by decide))]

theorem IsAtom.head {v : Json} (h : IsAtom F v) : AtomHead (write v) := by
  rcases h.cases_text with ⟨token, isFloat, htext, hscan, -⟩ | ⟨w, hw, htext, -⟩
  · rw [htext]
    exact atomHead_of_scanNumber hscan
  · rw [htext]
    simp only [WORDS, List.mem_cons, List.not_mem_nil, or_false] at hw
    rcases hw with rfl | rfl | rfl | rfl | rfl | rfl <;> exact ⟨_, _, rfl, by decide⟩

/-- **An atom that was written is read.** -/
theorem IsAtom.scanValue_write {v : Json} (h : IsAtom F v) (hends : Ends rest) (fuel : ℕ) :
    scanValue F (fuel + 1) (write v ++ rest) = some (v, rest) := by
  rw [scanValue_atom]
  · rcases h.cases_text with ⟨token, isFloat, htext, hscan, hvalue⟩ | ⟨w, hw, htext, hvalue⟩
    · rw [htext, scanAtom_of_number hscan hends, hvalue]
    · rw [htext, scanAtom_word hw, hvalue]
  · obtain ⟨c, after, htext, hc⟩ := h.head
    rw [htext]
    intro d hd
    obtain rfl := Option.some.inj hd
    exact fun hmem => hc (List.mem_of_mem_drop (i := 5) hmem)

end Atoms

section Values

variable {F : FloatReader}

/-- The text of a value does not begin with white space or a closing bracket. -/
theorem write_head : ∀ {v : Json}, WellFormed F v →
    ∃ c after, write v = c :: after ∧ c ∉ " \t\n\r]".toList := by
  have hatom : ∀ {v : Json}, IsAtom F v →
      ∃ c after, write v = c :: after ∧ c ∉ " \t\n\r]".toList := by
    intro v h
    obtain ⟨c, after, htext, hc⟩ := h.head
    exact ⟨c, after, htext, fun hmem => hc (List.mem_of_mem_take (i := 5) hmem)⟩
  intro v h
  cases v with
  | null => exact hatom .null
  | bool b => exact hatom (.bool b)
  | int n => exact hatom (.int n)
  | float r => exact hatom (.float h)
  | str s => exact ⟨_, _, by rw [write, quoted], by decide⟩
  | arr xs =>
      cases xs with
      | nil => exact ⟨'[', _, by rw [write]; rfl, by decide⟩
      | cons x xs => exact ⟨'[', _, by rw [write], by decide⟩
  | obj fs =>
      cases fs with
      | nil => exact ⟨'\x7b', _, by rw [write]; rfl, by decide⟩
      | cons e fs => exact ⟨'\x7b', _, by rw [write], by decide⟩

/-- A value is not skipped. -/
theorem skipSpace_write {v : Json} (h : WellFormed F v) (rest : List Char) :
    skipSpace (write v ++ rest) = write v ++ rest := by
  obtain ⟨c, after, htext, hc⟩ := write_head h
  rw [htext]
  exact skipSpace_cons (fun hmem => hc (List.mem_of_mem_take (i := 4) hmem)) _

theorem scanText_quoted (s : String) (rest : List Char) :
    ∃ after, quoted s ++ rest = '"' :: after ∧ scanText after = some (s.toList, rest) := by
  refine ⟨s.toList.flatMap escape ++ '"' :: rest, ?_, scanText_escaped _ _⟩
  simp [quoted]

theorem skipSpace_space_write {v : Json} (h : WellFormed F v) (rest : List Char) :
    skipSpace (' ' :: (write v ++ rest)) = write v ++ rest := skipSpace_write h rest

theorem write_ne_close {v : Json} (h : WellFormed F v) {rest after : List Char} :
    write v ++ rest ≠ ']' :: after := by
  obtain ⟨c, text, htext, hc⟩ := write_head h
  rw [htext]
  intro heq
  obtain rfl := (List.cons.inj heq).1
  exact hc (by decide)

/-- A new key comes last. -/
theorem setField_of_notMem {key : String} {fields : List (String × Json)}
    (h : key ∉ fields.map Prod.fst) (v : Json) : setField key v fields = fields ++ [(key, v)] := by
  induction fields with
  | nil => rfl
  | cons e fields ih =>
      rw [List.map_cons, List.mem_cons, not_or] at h
      rw [setField, if_neg (Ne.symm h.1), ih h.2, List.cons_append]

/-- Distinct keys stay in their order. -/
theorem toDict_eq_self {pairs : List (String × Json)} (h : (pairs.map Prod.fst).Nodup) :
    toDict pairs = pairs := by
  induction pairs using List.reverseRecOn with
  | nil => rfl
  | append_singleton pairs e ih =>
      rw [List.map_append, List.map_singleton, List.nodup_append] at h
      have hlast : toDict (pairs ++ [e]) = setField e.1 e.2 (toDict pairs) :=
        List.foldl_concat _ _ _ _
      have hnew : e.1 ∉ pairs.map Prod.fst := fun hmem =>
        h.2.2 _ hmem _ (List.mem_singleton_self _) rfl
      rw [hlast, ih h.1, setField_of_notMem hnew]

theorem skipSpace_space_quoted (s : String) (rest : List Char) :
    skipSpace (' ' :: (quoted s ++ rest)) = quoted s ++ rest := rfl

/-- A member, after its key. -/
theorem scanFields_cons {fuel : ℕ} {text key rest : List Char}
    (hscan : scanText text = some (key, ':' :: rest)) :
    scanFields F (fuel + 1) ('"' :: text) =
      match scanValue F fuel (skipSpace rest) with
      | none => none
      | some (v, rest) =>
          match skipSpace rest with
          | '\x7d' :: rest => some ([(String.ofList key, v)], rest)
          | ',' :: rest =>
              (scanFields F fuel (skipSpace rest)).map fun (pairs, rest) =>
                ((String.ofList key, v) :: pairs, rest)
          | _ => none := by
  rw [scanFields, hscan]
  dsimp only
  rw [skipSpace_cons (by decide)]
  rfl

mutual

/-- **A value that was written is read.** -/
theorem scanValue_write : ∀ {v : Json}, WellFormed F v → ∀ (rest : List Char) (fuel : ℕ),
    Ends rest → 2 * (write v ++ rest).length < fuel →
      scanValue F fuel (write v ++ rest) = some (v, rest)
  | v, h, rest, 0, _, hfuel => absurd hfuel (Nat.not_lt_zero _)
  | null, _, rest, fuel + 1, hends, _ => IsAtom.null.scanValue_write hends fuel
  | bool b, _, rest, fuel + 1, hends, _ => (IsAtom.bool b).scanValue_write hends fuel
  | int n, _, rest, fuel + 1, hends, _ => (IsAtom.int n).scanValue_write hends fuel
  | float r, h, rest, fuel + 1, hends, _ => (IsAtom.float h).scanValue_write hends fuel
  | str s, _, rest, fuel + 1, _, _ => by
      obtain ⟨after, htext, hscan⟩ := scanText_quoted s rest
      rw [write, htext, scanValue, hscan, Option.map_some]
      dsimp only
      rw [String.ofList_toList]
  | arr [], _, rest, fuel + 1, _, _ => by
      rw [write]
      rfl
  | arr (x :: xs), h, rest, fuel + 1, _, hfuel => by
      obtain ⟨hx, hxs⟩ := h
      have htext : write (arr (x :: xs)) ++ rest =
          '[' :: (write x ++ writeItems xs ++ ']' :: rest) := by
        rw [write]
        simp
      rw [htext, List.length_cons] at hfuel
      have hitems := scanItems_write hx hxs rest fuel (by omega)
      rw [List.append_assoc] at hitems
      rw [htext, scanValue, List.append_assoc, skipSpace_write hx]
      split
      · rename_i hclose
        exact absurd hclose (write_ne_close hx)
      · rw [hitems]
        rfl
  | obj [], _, rest, fuel + 1, _, _ => by
      rw [write]
      rfl
  | obj ((k, v) :: fs), h, rest, fuel + 1, _, hfuel => by
      obtain ⟨hnodup, hv, hfs⟩ := h
      have htext : write (obj ((k, v) :: fs)) ++ rest =
          '\x7b' :: (quoted k ++ ':' :: ' ' :: (write v ++ writeFields fs ++ '\x7d' :: rest)) := by
        rw [write]
        simp
      rw [htext, List.length_cons] at hfuel
      have hfields := scanFields_write k hv hfs rest fuel (by omega)
      obtain ⟨after, hquoted, -⟩ :=
        scanText_quoted k (':' :: ' ' :: (write v ++ writeFields fs ++ '\x7d' :: rest))
      rw [hquoted] at hfields
      rw [htext, scanValue, hquoted, skipSpace_cons (by decide)]
      change (scanFields F fuel ('"' :: after)).map (fun found =>
        (obj (toDict found.1), found.2)) = _
      rw [hfields, Option.map_some, toDict_eq_self hnodup]

/-- And so are the items of an array. -/
theorem scanItems_write : ∀ {x : Json} {xs : List Json}, WellFormed F x → WellFormedItems F xs →
    ∀ (rest : List Char) (fuel : ℕ),
      2 * (write x ++ writeItems xs ++ ']' :: rest).length + 1 < fuel →
        scanItems F fuel (write x ++ writeItems xs ++ ']' :: rest) = some (x :: xs, rest)
  | x, xs, _, _, rest, 0, hfuel => absurd hfuel (Nat.not_lt_zero _)
  | x, [], hx, _, rest, fuel + 1, hfuel => by
      rw [writeItems, List.append_nil] at hfuel ⊢
      rw [scanItems, scanValue_write hx _ _ (ends_cons (by decide) rest) (by omega)]
      dsimp only
      rw [skipSpace_cons (by decide)]
      rfl
  | x, y :: ys, hx, hys, rest, fuel + 1, hfuel => by
      obtain ⟨hy, hys⟩ := hys
      have htext : write x ++ writeItems (y :: ys) ++ ']' :: rest =
          write x ++ ',' :: ' ' :: (write y ++ writeItems ys ++ ']' :: rest) := by
        rw [writeItems]
        simp
      rw [htext] at hfuel ⊢
      have hvalue := scanValue_write hx _ fuel (ends_cons (c := ',') (by decide)
        (' ' :: (write y ++ writeItems ys ++ ']' :: rest))) (by omega)
      rw [List.length_append, List.length_cons, List.length_cons] at hfuel
      have hitems := scanItems_write hy hys rest fuel (by omega)
      rw [scanItems, hvalue]
      dsimp only
      rw [skipSpace_cons (by decide)]
      change (scanItems F fuel (skipSpace (' ' :: (write y ++ writeItems ys ++ ']' :: rest)))).map
        (fun found => (x :: found.1, found.2)) = _
      rw [List.append_assoc, skipSpace_space_write hy, ← List.append_assoc, hitems]
      rfl

/-- And the members of an object. -/
theorem scanFields_write : ∀ (k : String) {v : Json} {fs : List (String × Json)},
    WellFormed F v → WellFormedFields F fs → ∀ (rest : List Char) (fuel : ℕ),
      2 * (quoted k ++ ':' :: ' ' :: (write v ++ writeFields fs ++ '\x7d' :: rest)).length + 1 <
          fuel →
        scanFields F fuel
            (quoted k ++ ':' :: ' ' :: (write v ++ writeFields fs ++ '\x7d' :: rest)) =
          some ((k, v) :: fs, rest)
  | k, v, fs, _, _, rest, 0, hfuel => absurd hfuel (Nat.not_lt_zero _)
  | k, v, [], hv, _, rest, fuel + 1, hfuel => by
      rw [writeFields, List.append_nil] at hfuel ⊢
      obtain ⟨after, hquoted, hscan⟩ := scanText_quoted k (':' :: ' ' :: (write v ++ '\x7d' :: rest))
      rw [List.length_append, List.length_cons, List.length_cons] at hfuel
      have hvalue := scanValue_write hv _ fuel (ends_cons (c := '\x7d') (by decide) rest) (by omega)
      rw [hquoted, scanFields_cons hscan, skipSpace_space_write hv, hvalue]
      dsimp only
      rw [skipSpace_cons (by decide), String.ofList_toList]
      rfl
  | k, v, (l, w) :: fs, hv, hfs, rest, fuel + 1, hfuel => by
      obtain ⟨hw, hfs⟩ := hfs
      have htext : write v ++ writeFields ((l, w) :: fs) ++ '\x7d' :: rest =
          write v ++ ',' :: ' ' ::
            (quoted l ++ ':' :: ' ' :: (write w ++ writeFields fs ++ '\x7d' :: rest)) := by
        rw [writeFields]
        simp
      rw [htext] at hfuel ⊢
      obtain ⟨after, hquoted, hscan⟩ := scanText_quoted k (':' :: ' ' :: (write v ++ ',' :: ' ' ::
        (quoted l ++ ':' :: ' ' :: (write w ++ writeFields fs ++ '\x7d' :: rest))))
      rw [List.length_append, List.length_cons, List.length_cons] at hfuel
      have hvalue := scanValue_write hv _ fuel (ends_cons (c := ',') (by decide) (' ' ::
        (quoted l ++ ':' :: ' ' :: (write w ++ writeFields fs ++ '\x7d' :: rest)))) (by omega)
      rw [List.length_append, List.length_cons, List.length_cons] at hfuel
      have hfields := scanFields_write l hw hfs rest fuel (by omega)
      rw [hquoted, scanFields_cons hscan, skipSpace_space_write hv, hvalue]
      dsimp only
      rw [skipSpace_cons (by decide), String.ofList_toList]
      change (scanFields F fuel (skipSpace (' ' :: (quoted l ++ ':' :: ' ' ::
        (write w ++ writeFields fs ++ '\x7d' :: rest))))).map
          (fun found => ((k, v) :: found.1, found.2)) = _
      rw [skipSpace_space_quoted, hfields]
      rfl

end

/-- **The text of a value is read as the value.** -/
theorem loads_write {v : Json} (h : WellFormed F v) : loads F (write v) = some v := by
  have hskip := skipSpace_write h []
  have hvalue := scanValue_write h [] (2 * (write v).length + 1) nofun
  rw [List.append_nil] at hskip hvalue
  rw [loads, hskip, hvalue (Nat.lt_succ_self _)]
  rfl

theorem printable_quoted (s : String) : Printable (quoted s) := by
  have htext : Printable (s.toList.flatMap escape) := by
    intro c hc
    obtain ⟨d, -, hd⟩ := List.mem_flatMap.mp hc
    exact printable_escape d c hd
  exact Printable.cons (by decide) (htext.append (printable_of_all (by decide)))

theorem IsAtom.printable_write {v : Json} (h : IsAtom F v) : Printable (write v) := by
  rcases h.cases_text with ⟨token, isFloat, htext, hscan, -⟩ | ⟨w, hw, htext, -⟩
  · rw [htext]
    exact printable_scanNumber hscan
  · rw [htext]
    simp only [WORDS, List.mem_cons, List.not_mem_nil, or_false] at hw
    rcases hw with rfl | rfl | rfl | rfl | rfl | rfl <;> exact printable_of_all (by decide)

mutual

/-- **The text of a value has no control character.** -/
theorem printable_write : ∀ {v : Json}, WellFormed F v → Printable (write v)
  | null, _ => (IsAtom.null : IsAtom F null).printable_write
  | bool b, _ => (IsAtom.bool b : IsAtom F (bool b)).printable_write
  | int n, _ => (IsAtom.int n : IsAtom F (int n)).printable_write
  | float r, h => (IsAtom.float h).printable_write
  | str s, _ => by
      rw [write]
      exact printable_quoted s
  | arr [], _ => by
      rw [write]
      exact printable_of_all (by decide)
  | arr (x :: xs), h => by
      rw [write]
      exact Printable.cons (by decide) (((printable_write h.1).append
        (printable_writeItems h.2)).append (printable_of_all (by decide)))
  | obj [], _ => by
      rw [write]
      exact printable_of_all (by decide)
  | obj ((k, v) :: fs), h => by
      rw [write]
      exact Printable.cons (by decide) (((((printable_quoted k).append
        (printable_of_all (by decide))).append (printable_write h.2.1)).append
          (printable_writeFields h.2.2)).append (printable_of_all (by decide)))

/-- And so are the items of an array. -/
theorem printable_writeItems : ∀ {xs : List Json}, WellFormedItems F xs →
    Printable (writeItems xs)
  | [], _ => by
      rw [writeItems]
      exact fun _ h => absurd h List.not_mem_nil
  | x :: xs, h => by
      rw [writeItems]
      exact ((printable_of_all (by decide)).append (printable_write h.1)).append
        (printable_writeItems h.2)

/-- And the members of an object. -/
theorem printable_writeFields : ∀ {fs : List (String × Json)}, WellFormedFields F fs →
    Printable (writeFields fs)
  | [], _ => by
      rw [writeFields]
      exact fun _ h => absurd h List.not_mem_nil
  | (k, v) :: fs, h => by
      rw [writeFields]
      exact ((((printable_of_all (by decide)).append (printable_quoted k)).append
        (printable_of_all (by decide))).append (printable_write h.1)).append
          (printable_writeFields h.2)

end

end Values

/-! ### Sorted keys -/

section Sorted

variable {F : FloatReader}

instance : Std.Total keyLe := ⟨fun e f => String.le_total e.1 f.1⟩

instance : IsTrans (String × Json) keyLe := ⟨fun _ _ _ => String.le_trans⟩

/-- The members, each with its value sorted. -/
def sortValues (fs : List (String × Json)) : List (String × Json) :=
  fs.map fun e => (e.1, sortKeys e.2)

theorem sortFields_eq (fs : List (String × Json)) :
    sortFields fs = (sortValues fs).insertionSort keyLe := by
  induction fs with
  | nil => rfl
  | cons e fs ih =>
      obtain ⟨k, v⟩ := e
      rw [sortFields, ih]
      rfl

theorem sortFields_perm (fs : List (String × Json)) : (sortFields fs).Perm (sortValues fs) := by
  rw [sortFields_eq]
  exact List.perm_insertionSort keyLe _

theorem pairwise_sortFields (fs : List (String × Json)) : (sortFields fs).Pairwise keyLe := by
  rw [sortFields_eq]
  exact List.pairwise_insertionSort keyLe _

theorem keys_sortValues (fs : List (String × Json)) :
    (sortValues fs).map Prod.fst = fs.map Prod.fst := by
  rw [sortValues, List.map_map]
  rfl

/-- Sorted members with sorted values stay as they are. -/
theorem sortFields_eq_self {fs : List (String × Json)} (hsorted : fs.Pairwise keyLe)
    (hvalues : ∀ e ∈ fs, sortKeys e.2 = e.2) : sortFields fs = fs := by
  have hsame : sortValues fs = fs := by
    conv_rhs => rw [← List.map_id fs]
    exact List.map_congr_left fun e he => Prod.ext rfl (hvalues e he)
  rw [sortFields_eq, hsame, hsorted.insertionSort_eq]

mutual

/-- **Sorted keys stay as they are.** -/
theorem sortKeys_sortKeys : ∀ v : Json, sortKeys (sortKeys v) = sortKeys v
  | null => rfl
  | bool _ => rfl
  | int _ => rfl
  | float _ => rfl
  | str _ => rfl
  | arr xs => by rw [sortKeys, sortKeys, sortItems_sortItems]
  | obj fs => by
      rw [sortKeys, sortKeys, sortFields_eq_self (pairwise_sortFields fs)]
      intro e he
      obtain ⟨f, hf, rfl⟩ := List.mem_map.mp ((sortFields_perm fs).mem_iff.mp he)
      exact sortKeys_sortKeys_of_mem fs f hf

theorem sortItems_sortItems : ∀ xs : List Json, sortItems (sortItems xs) = sortItems xs
  | [] => rfl
  | x :: xs => by rw [sortItems, sortItems, sortKeys_sortKeys, sortItems_sortItems]

theorem sortKeys_sortKeys_of_mem : ∀ fs : List (String × Json),
    ∀ e ∈ fs, sortKeys (sortKeys e.2) = sortKeys e.2
  | [], _, he => absurd he List.not_mem_nil
  | (_, v) :: fs, e, he => by
      rcases List.mem_cons.mp he with rfl | he
      · exact sortKeys_sortKeys v
      · exact sortKeys_sortKeys_of_mem fs e he

end

theorem wellFormedFields_iff {fs : List (String × Json)} :
    WellFormedFields F fs ↔ ∀ e ∈ fs, WellFormed F e.2 := by
  induction fs with
  | nil => simp [WellFormedFields]
  | cons e fs ih => rw [WellFormedFields, ih, List.forall_mem_cons]

mutual

/-- A value with sorted keys is as well formed. -/
theorem WellFormed.sortKeys : ∀ {v : Json}, WellFormed F v → WellFormed F v.sortKeys
  | null, h => h
  | bool _, h => h
  | int _, h => h
  | float _, h => h
  | str _, h => h
  | arr _, h => WellFormedItems.sortItems h
  | obj fs, h => by
      refine ⟨?_, wellFormedFields_iff.mpr fun e he => ?_⟩
      · rw [((sortFields_perm fs).map Prod.fst).nodup_iff, keys_sortValues]
        exact h.1
      · obtain ⟨f, hf, rfl⟩ := List.mem_map.mp ((sortFields_perm fs).mem_iff.mp he)
        exact WellFormedFields.sortKeys_of_mem h.2 f hf

theorem WellFormedItems.sortItems : ∀ {xs : List Json}, WellFormedItems F xs →
    WellFormedItems F (Json.sortItems xs)
  | [], _ => trivial
  | _ :: _, h => ⟨h.1.sortKeys, WellFormedItems.sortItems h.2⟩

theorem WellFormedFields.sortKeys_of_mem : ∀ {fs : List (String × Json)},
    WellFormedFields F fs → ∀ e ∈ fs, WellFormed F e.2.sortKeys
  | [], _, _, he => absurd he List.not_mem_nil
  | (_, v) :: fs, h, e, he => by
      rcases List.mem_cons.mp he with rfl | he
      · exact h.1.sortKeys
      · exact WellFormedFields.sortKeys_of_mem h.2 e he

end

end Sorted

/-! ### The same value -/

mutual

/-- **The same value**: dictionaries have the same keys and the same values under them, in
whatever order. -/
def Same : Json → Json → Prop
  | arr xs, arr ys => SameItems xs ys
  | obj fs, obj gs => fs.length = gs.length ∧ SameFields fs gs
  | v, w => v = w

/-- The same items, in the same order. -/
def SameItems : List Json → List Json → Prop
  | [], [] => True
  | x :: xs, y :: ys => Same x y ∧ SameItems xs ys
  | _, _ => False

/-- Every key has the same value in the other dictionary. -/
def SameFields : List (String × Json) → List (String × Json) → Prop
  | [], _ => True
  | (k, v) :: fs, gs => (∃ w, gs.lookup k = some w ∧ Same v w) ∧ SameFields fs gs

end

section Same

variable {F : FloatReader}

/-- Dictionaries of the same size, the one with distinct keys that the other one has, are
permutations of each other. -/
theorem sortFields_eq_of_subset {fs gs : List (String × Json)} (hnodup : (fs.map Prod.fst).Nodup)
    (hnodup' : (gs.map Prod.fst).Nodup) (hlength : fs.length = gs.length)
    (hsubset : ∀ e ∈ fs, ∃ f ∈ gs, e.1 = f.1 ∧ sortKeys e.2 = sortKeys f.2) :
    sortFields fs = sortFields gs := by
  have hperm : (sortValues fs).Perm (sortValues gs) := by
    have hsub : sortValues fs ⊆ sortValues gs := by
      intro e he
      obtain ⟨e, hmem, rfl⟩ := List.mem_map.mp he
      obtain ⟨f, hf, hkey, hvalue⟩ := hsubset e hmem
      exact List.mem_map.mpr ⟨f, hf, by rw [hkey, hvalue]⟩
    have hdistinct : (sortValues fs).Nodup := by
      refine List.Nodup.of_map Prod.fst ?_
      rwa [keys_sortValues]
    refine (List.subperm_of_subset hdistinct hsub).perm_of_length_le ?_
    rw [sortValues, sortValues, List.length_map, List.length_map, hlength]
  rw [sortFields_eq, sortFields_eq]
  refine List.Perm.eq_of_pairwise ?_ (List.pairwise_insertionSort keyLe _)
    (List.pairwise_insertionSort keyLe _) ?_
  · -- two members with one key are the same member
    intro e f he hf hle hge
    rw [List.mem_insertionSort] at he hf
    have hkey : e.1 = f.1 := String.le_antisymm hle hge
    have hkeys : ((sortValues gs).map Prod.fst).Nodup := by rwa [keys_sortValues]
    exact List.inj_on_of_nodup_map hkeys (hperm.subset he) hf hkey
  · exact (List.perm_insertionSort keyLe _).trans
      (hperm.trans (List.perm_insertionSort keyLe _).symm)

mutual

/-- **The same value has the same text**, once its keys are sorted. -/
theorem sortKeys_eq_of_same : ∀ {v w : Json}, WellFormed F v → WellFormed F w → Same v w →
    sortKeys v = sortKeys w
  | arr xs, arr ys, hv, hw, h => by
      rw [sortKeys, sortKeys, sortItems_eq_of_same hv hw h]
  | obj fs, obj gs, hv, hw, h => by
      rw [sortKeys, sortKeys, sortFields_eq_of_subset hv.1 hw.1 h.1
        (exists_of_sameFields hv.2 hw.2 h.2)]
  | null, w, _, _, h => by cases w <;> cases h; rfl
  | bool _, w, _, _, h => by cases w <;> cases h; rfl
  | int _, w, _, _, h => by cases w <;> cases h; rfl
  | float _, w, _, _, h => by cases w <;> cases h; rfl
  | str _, w, _, _, h => by cases w <;> cases h; rfl

theorem sortItems_eq_of_same : ∀ {xs ys : List Json}, WellFormedItems F xs →
    WellFormedItems F ys → SameItems xs ys → sortItems xs = sortItems ys
  | [], [], _, _, _ => rfl
  | x :: xs, y :: ys, hx, hy, h => by
      rw [sortItems, sortItems, sortKeys_eq_of_same hx.1 hy.1 h.1,
        sortItems_eq_of_same hx.2 hy.2 h.2]

theorem exists_of_sameFields : ∀ {fs gs : List (String × Json)}, WellFormedFields F fs →
    WellFormedFields F gs → SameFields fs gs →
      ∀ e ∈ fs, ∃ f ∈ gs, e.1 = f.1 ∧ sortKeys e.2 = sortKeys f.2
  | [], _, _, _, _, _, he => absurd he List.not_mem_nil
  | (k, v) :: fs, gs, hfs, hgs, h, e, he => by
      rcases List.mem_cons.mp he with rfl | he
      · obtain ⟨w, hlookup, hsame⟩ := h.1
        have hmem := mem_of_lookup hlookup
        have hw : WellFormed F w := wellFormedFields_iff.mp hgs (k, w) hmem
        exact ⟨(k, w), hmem, rfl, sortKeys_eq_of_same hfs.1 hw hsame⟩
      · exact exists_of_sameFields hfs.2 hgs h.2 e he

end

end Same

end Json

end HermesA2A
