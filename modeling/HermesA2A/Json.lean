import Mathlib.Data.List.Sort
import Mathlib.Data.String.Basic

/-!
# JSON values, as the handlers read them

A request body is whatever `json.loads` returned, and the handlers read it
without a schema: `dict.get` on a value that is no dictionary raises, a falsy
value is replaced by a default, a list where a text is expected fails later or
not at all.  `Json` keeps those distinctions, and the operations below are the
Python ones, an exception being an `Except PyError`.

An object is its list of members in insertion order.  `json.loads` never
produces one key twice; nothing here needs that, since reading and assigning a
key both take its first member.  Numbers that Python calls equal (`1`, `1.0`,
`True`) are different values here.

`sortKeys` is the normalisation of `json.dumps(…, sort_keys=True)`;
`lookup_sortFields` says it does not change what a key stands for.
-/

namespace HermesA2A

/-- The exceptions of ill-typed values, conversions, arithmetic and dictionaries. -/
inductive PyError
  | attributeError
  | keyError
  | osError
  | overflowError
  | typeError
  | valueError
  | zeroDivisionError
  deriving DecidableEq, Repr

/-- An `Except` computation that succeeds succeeds in each of its steps. -/
theorem exists_of_bind_ok {ε α β : Type} {x : Except ε α} {f : α → Except ε β} {b : β}
    (h : x >>= f = .ok b) : ∃ a, x = .ok a ∧ f a = .ok b := by
  cases x with
  | error e => cases h
  | ok a => exact ⟨a, rfl, h⟩

/-- … and goes on with the result of the first one. -/
theorem bind_of_ok {ε α β : Type} {x : Except ε α} {a : α} {f : α → Except ε β} (h : x = .ok a) :
    (x >>= f) = f a := by
  rw [h]
  rfl

/-- A parsed JSON value.  A float is known by its `repr`. -/
inductive Json
  | null
  | bool (b : Bool)
  | int (n : ℤ)
  | float (repr : String)
  | str (s : String)
  | arr (items : List Json)
  | obj (fields : List (String × Json))

namespace Json

/-! ### Equality -/

mutual

/-- Structural equality. -/
def beq : Json → Json → Bool
  | null, null => true
  | bool a, bool b => a == b
  | int m, int n => m == n
  | float r, float s => r == s
  | str s, str t => s == t
  | arr xs, arr ys => beqItems xs ys
  | obj fs, obj gs => beqFields fs gs
  | _, _ => false

/-- Structural equality of the items of two arrays. -/
def beqItems : List Json → List Json → Bool
  | [], [] => true
  | x :: xs, y :: ys => beq x y && beqItems xs ys
  | _, _ => false

/-- Structural equality of the members of two objects. -/
def beqFields : List (String × Json) → List (String × Json) → Bool
  | [], [] => true
  | (k, x) :: fs, (l, y) :: gs => k == l && beq x y && beqFields fs gs
  | _, _ => false

end

mutual

theorem beq_iff : ∀ {x y : Json}, beq x y = true ↔ x = y
  | null, y => by cases y <;> simp [beq]
  | bool a, y => by cases y <;> simp [beq]
  | int m, y => by cases y <;> simp [beq]
  | float r, y => by cases y <;> simp [beq]
  | str s, y => by cases y <;> simp [beq]
  | arr xs, y => by cases y <;> simp [beq, beqItems_iff]
  | obj fs, y => by cases y <;> simp [beq, beqFields_iff]

theorem beqItems_iff : ∀ {xs ys : List Json}, beqItems xs ys = true ↔ xs = ys
  | [], ys => by cases ys <;> simp [beqItems]
  | x :: xs, ys => by cases ys <;> simp [beqItems, beq_iff, beqItems_iff]

theorem beqFields_iff : ∀ {fs gs : List (String × Json)}, beqFields fs gs = true ↔ fs = gs
  | [], gs => by cases gs <;> simp [beqFields]
  | (k, x) :: fs, gs => by
      cases gs with
      | nil => simp [beqFields]
      | cons g gs => simp [beqFields, beq_iff, beqFields_iff, Prod.ext_iff]

end

instance : DecidableEq Json := fun _ _ => decidable_of_iff _ beq_iff

instance : Inhabited Json := ⟨null⟩

/-! ### Dictionaries -/

/-- The value under a key, if `j` is a dictionary that has it. -/
def field? : Json → String → Option Json
  | obj fields, key => fields.lookup key
  | _, _ => none

/-- `j.get(key, default)`. -/
def get (j : Json) (key : String) (default : Json) : Except PyError Json :=
  match j with
  | obj fields => .ok ((fields.lookup key).getD default)
  | _ => .error .attributeError

/-- The members after `fields[key] = v`: in place, or at the end. -/
def setField (key : String) (v : Json) : List (String × Json) → List (String × Json)
  | [] => [(key, v)]
  | e :: fields => if e.1 = key then (key, v) :: fields else e :: setField key v fields

/-- `j[key] = v`. -/
def set (j : Json) (key : String) (v : Json) : Except PyError Json :=
  match j with
  | obj fields => .ok (obj (setField key v fields))
  | _ => .error .typeError

@[simp] theorem field?_obj (fields : List (String × Json)) (key : String) :
    (obj fields).field? key = fields.lookup key := rfl

@[simp] theorem get_obj (fields : List (String × Json)) (key : String) (default : Json) :
    (obj fields).get key default = .ok ((fields.lookup key).getD default) := rfl

@[simp] theorem set_obj (fields : List (String × Json)) (key : String) (v : Json) :
    (obj fields).set key v = .ok (obj (setField key v fields)) := rfl

theorem lookup_cons_eq (k : String) (e : String × Json) (fields : List (String × Json)) :
    (e :: fields).lookup k = if k = e.1 then some e.2 else fields.lookup k := by
  rw [List.lookup_cons]
  split_ifs with h
  · simp [h]
  · simp [beq_eq_false_iff_ne.mpr h]

theorem lookup_setField (key : String) (v : Json) (k : String) (fields : List (String × Json)) :
    (setField key v fields).lookup k = if k = key then some v else fields.lookup k := by
  induction fields with
  | nil => rw [setField, lookup_cons_eq]
  | cons e fields ih =>
      rw [setField]
      split
      · rename_i he
        subst he
        simp only [lookup_cons_eq]
        split_ifs <;> rfl
      · rename_i he
        simp only [lookup_cons_eq, ih]
        by_cases hk : k = e.1
        · subst hk
          simp [he]
        · simp [hk]

@[simp] theorem lookup_setField_self (key : String) (v : Json) (fields : List (String × Json)) :
    (setField key v fields).lookup key = some v := by
  simp [lookup_setField]

/-- The last assignment to a key counts. -/
theorem setField_setField (key : String) (v w : Json) (fields : List (String × Json)) :
    setField key v (setField key w fields) = setField key v fields := by
  induction fields with
  | nil => simp [setField]
  | cons e fields ih =>
      by_cases h : e.1 = key
      · simp [setField, h]
      · simp [setField, h, ih]

theorem mem_of_lookup {k : String} {v : Json} {fields : List (String × Json)}
    (h : fields.lookup k = some v) : (k, v) ∈ fields := by
  induction fields with
  | nil => cases h
  | cons e fields ih =>
      rw [lookup_cons_eq] at h
      split_ifs at h with hk
      · obtain rfl := Option.some.inj h
        rw [hk]
        exact List.mem_cons_self
      · exact List.mem_cons_of_mem e (ih h)

/-! ### Truth, iteration, membership -/

/-- `bool(j)`. -/
def truthy : Json → Bool
  | null => false
  | bool b => b
  | int n => n != 0
  | float r => r != "0.0" && r != "-0.0"
  | str s => s != ""
  | arr xs => !xs.isEmpty
  | obj fs => !fs.isEmpty

/-- `a or b`. -/
def orElse (a b : Json) : Json := if a.truthy then a else b

theorem orElse_of_truthy {a : Json} (h : a.truthy = true) (b : Json) : a.orElse b = a :=
  if_pos h

theorem orElse_of_falsy {a : Json} (h : a.truthy = false) (b : Json) : a.orElse b = b :=
  if_neg (Bool.eq_false_iff.mp h)

/-- What stands in for a value is truthy if it is truthy itself. -/
theorem truthy_orElse {b : Json} (h : b.truthy = true) (a : Json) :
    (a.orElse b).truthy = true := by
  cases ha : a.truthy with
  | true => rwa [orElse_of_truthy ha]
  | false => rwa [orElse_of_falsy ha]

@[simp] theorem orElse_self (a : Json) : a.orElse a = a := ite_self a

/-- Falling back a second time changes nothing. -/
@[simp] theorem orElse_orElse_self (a b : Json) : (a.orElse b).orElse b = a.orElse b := by
  cases h : a.truthy with
  | true => rw [orElse_of_truthy h, orElse_of_truthy h]
  | false => rw [orElse_of_falsy h, orElse_self]

/-- `isinstance(j, dict)`. -/
def isDict : Json → Bool
  | obj _ => true
  | _ => false

/-- Can the value be a dictionary key? -/
def hashable : Json → Bool
  | arr _ => false
  | obj _ => false
  | _ => true

/-- What `for x in j` runs through: the items of a list, the keys of a
dictionary, the characters of a text. -/
def iterate : Json → Except PyError (List Json)
  | arr xs => .ok xs
  | obj fs => .ok (fs.map fun e => str e.1)
  | str s => .ok (s.toList.map fun c => str (String.singleton c))
  | _ => .error .typeError

/-- `text in s`, for two texts. -/
def isSubstring (text s : String) : Bool :=
  s.toList.tails.any (text.toList.isPrefixOf ·)

/-- `text in j`: a key, an item, a substring. -/
def contains (text : String) : Json → Except PyError Bool
  | obj fs => .ok (fs.lookup text).isSome
  | arr xs => .ok (xs.contains (str text))
  | str s => .ok (isSubstring text s)
  | _ => .error .typeError

/-- A text, or the failure of `"…".join` on anything else. -/
def asText : Json → Except PyError String
  | str s => .ok s
  | _ => .error .typeError

/-- `f"{j}"` for a value that can be a dictionary key; no other is ever shown. -/
def display : Json → String
  | null => "None"
  | bool b => if b then "True" else "False"
  | int n => toString n
  | float r => r
  | str s => s
  | _ => ""

/-! ### Key order -/

/-- The order `sort_keys` puts the members in. -/
def keyLe (e f : String × Json) : Prop := e.1 ≤ f.1

instance : DecidableRel keyLe := fun e f => inferInstanceAs (Decidable (e.1 ≤ f.1))

mutual

/-- Every dictionary inside the value in key order. -/
def sortKeys : Json → Json
  | arr xs => arr (sortItems xs)
  | obj fs => obj (sortFields fs)
  | j => j

/-- `sortKeys` of every item. -/
def sortItems : List Json → List Json
  | [] => []
  | x :: xs => sortKeys x :: sortItems xs

/-- The members in key order, each with its value sorted. -/
def sortFields : List (String × Json) → List (String × Json)
  | [] => []
  | (k, v) :: fs => (sortFields fs).orderedInsert keyLe (k, sortKeys v)

end

private theorem lookup_orderedInsert (e : String × Json) (k : String)
    (fields : List (String × Json)) :
    (fields.orderedInsert keyLe e).lookup k = (e :: fields).lookup k := by
  induction fields with
  | nil => rfl
  | cons f fields ih =>
      rw [List.orderedInsert_cons]
      split
      · rfl
      · rename_i hle
        -- `e` only moves behind members with another key
        have hne : e.1 ≠ f.1 := fun h => hle (le_of_eq h)
        simp only [lookup_cons_eq, ih]
        by_cases hk : k = e.1
        · subst hk
          simp [hne]
        · simp [hk]

/-- Sorting the keys sorts the values and changes nothing else about a lookup. -/
theorem lookup_sortFields (k : String) (fields : List (String × Json)) :
    (sortFields fields).lookup k = (fields.lookup k).map sortKeys := by
  induction fields with
  | nil => rfl
  | cons e fields ih =>
      obtain ⟨l, v⟩ := e
      rw [sortFields, lookup_orderedInsert, lookup_cons_eq, lookup_cons_eq, ih]
      split_ifs <;> rfl

mutual

/-- `json.dumps(j, ensure_ascii=False)`, for texts that need no escape. -/
def dumps : Json → String
  | null => "null"
  | bool b => if b then "true" else "false"
  | int n => toString n
  | float r => r
  | str s => "\"" ++ s ++ "\""
  | arr xs => "[" ++ String.intercalate ", " (dumpsItems xs) ++ "]"
  | obj fs => "\x7b" ++ String.intercalate ", " (dumpsFields fs) ++ "\x7d"

/-- `dumps` of every item. -/
def dumpsItems : List Json → List String
  | [] => []
  | x :: xs => dumps x :: dumpsItems xs

/-- `dumps` of every member. -/
def dumpsFields : List (String × Json) → List String
  | [] => []
  | (k, v) :: fs => ("\"" ++ k ++ "\": " ++ dumps v) :: dumpsFields fs

end

theorem field?_sortKeys (j : Json) (k : String) :
    j.sortKeys.field? k = (j.field? k).map sortKeys := by
  cases j with
  | obj fields => exact lookup_sortFields k fields
  | _ => rfl

end Json

end HermesA2A
