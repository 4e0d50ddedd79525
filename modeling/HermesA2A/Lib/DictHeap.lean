import HermesA2A.Lib.OrderedDict
import Mathlib.Logic.Function.Basic

/-!
# Dictionaries that are shared

A dictionary is an object: several places can hold one and the same, and an assignment
through one of them is seen through all.  A heap has the dictionaries by address, and a
value is the address of one or something else.

* `Closed` — no reference leads to a free address, and the dictionaries there are empty.
* `Edits` — what a program has assigned to: nothing is changed at the other places, nothing
  is removed, and no dictionary comes into reach.
* `Edits.truthy`, `Edits.truthy_eq` — a value stays true as long as nothing is removed, and
  false as long as nothing is assigned to it.
-/

universe u v

namespace DictHeap

/-- A value: the address of a dictionary, or one that is no dictionary. -/
inductive Value (α : Type v)
  | leaf (a : α)
  | dict (address : ℕ)

/-- The address of a dictionary. -/
def Value.address? {α : Type v} : Value α → Option ℕ
  | .leaf _ => none
  | .dict a => some a

/-- The dictionaries by address, and the first address that is free. -/
structure Heap (κ : Type u) (α : Type v) where
  cells : ℕ → OrderedDict κ (Value α)
  next : ℕ

variable {κ : Type u} {α : Type v}

namespace Heap

/-- Put a dictionary at an address. -/
def put (h : Heap κ α) (a : ℕ) (d : OrderedDict κ (Value α)) : Heap κ α :=
  { h with cells := Function.update h.cells a d }

@[simp] theorem next_put (h : Heap κ α) (a : ℕ) (d : OrderedDict κ (Value α)) :
    (h.put a d).next = h.next := rfl

/-- Is the dictionary empty? -/
def isEmpty (h : Heap κ α) (a : ℕ) : Bool := (h.cells a).entries.isEmpty

/-- `bool(v)`, for a value that may be missing. -/
def truthy (t : α → Bool) (h : Heap κ α) : Option (Value α) → Bool
  | none => false
  | some (.leaf a) => t a
  | some (.dict a) => !h.isEmpty a

variable [DecidableEq κ]

/-- The value of a dictionary under a key. -/
def get (h : Heap κ α) (a : ℕ) (k : κ) : Option (Value α) := (h.cells a).get? k

/-- Assign to a key of a dictionary. -/
def set (h : Heap κ α) (a : ℕ) (k : κ) (v : Value α) : Heap κ α := h.put a ((h.cells a).set k v)

/-- The dictionary that a key holds. -/
def dictAt (h : Heap κ α) (a : ℕ) (k : κ) : Option ℕ := (h.get a k).bind Value.address?

section Access

variable {h : Heap κ α} {a b : ℕ} {k l : κ} {v : Value α} {d : OrderedDict κ (Value α)}

@[simp] theorem next_set : (h.set a k v).next = h.next := rfl

theorem get_put : (h.put a d).get b l = if b = a then d.get? l else h.get b l := by
  change (Function.update h.cells a d b).get? l = _
  by_cases hb : b = a
  · subst hb
    rw [if_pos rfl, Function.update_self]
  · rw [if_neg hb, Function.update_of_ne hb]
    rfl

/-- What an assignment does to a lookup. -/
theorem get_set : (h.set a k v).get b l = if b = a ∧ l = k then some v else h.get b l := by
  rw [set, get_put]
  by_cases hb : b = a
  · subst hb
    rw [if_pos rfl, OrderedDict.get?_set]
    simp only [true_and]
    rfl
  · rw [if_neg hb, if_neg fun hboth => hb hboth.1]

theorem get_set_self : (h.set a k v).get a k = some v := by
  rw [get_set, if_pos ⟨rfl, rfl⟩]

theorem get_set_of_ne (hne : ¬ (b = a ∧ l = k)) : (h.set a k v).get b l = h.get b l := by
  rw [get_set, if_neg hne]

theorem isEmpty_iff : h.isEmpty a = true ↔ ∀ k, h.get a k = none := by
  unfold isEmpty get
  rw [List.isEmpty_iff]
  constructor
  · intro hnil k
    rw [OrderedDict.get?_eq_none_iff]
    change k ∉ (h.cells a).entries.map Prod.fst
    rw [hnil]
    exact List.not_mem_nil
  · intro hnone
    rw [List.eq_nil_iff_forall_not_mem]
    intro e he
    have hsome := OrderedDict.get?_eq_some_iff.mpr he
    rw [hnone] at hsome
    cases hsome

theorem isEmpty_eq_false_of_get (hv : h.get a k = some v) : h.isEmpty a = false := by
  rw [← Bool.not_eq_true, isEmpty_iff]
  intro hnone
  rw [hnone] at hv
  cases hv

/-- A dictionary with a member is true. -/
theorem truthy_of_get {t : α → Bool} (hv : h.get a k = some v) :
    h.truthy t (some (.dict a)) = true := by
  change (!h.isEmpty a) = true
  rw [isEmpty_eq_false_of_get hv]
  rfl

theorem dictAt_eq_some : h.dictAt a k = some b ↔ h.get a k = some (.dict b) := by
  unfold dictAt
  rw [Option.bind_eq_some_iff]
  constructor
  · rintro ⟨v, hv, hb⟩
    cases v with
    | leaf => cases hb
    | dict c =>
        obtain rfl := Option.some.inj hb
        exact hv
  · exact fun hv => ⟨_, hv, rfl⟩

theorem dictAt_congr {h' : Heap κ α} (heq : h'.get b l = h.get a k) : h'.dictAt b l = h.dictAt a k := by
  unfold dictAt
  rw [heq]

end Access

/-! ### References -/

/-- Every dictionary that a dictionary holds is one of these. -/
def Refers (p : ℕ → Prop) (h : Heap κ α) : Prop :=
  ∀ ⦃a k b⦄, h.get a k = some (.dict b) → p b

/-- **A heap is closed**: what is referred to is allocated, and what is not allocated is
empty. -/
structure Closed (h : Heap κ α) : Prop where
  refs : h.Refers (· < h.next)
  unused : ∀ {a}, h.next ≤ a → ∀ k, h.get a k = none

theorem Refers.dictAt {p : ℕ → Prop} {h : Heap κ α} {a b : ℕ} {k : κ} (hp : h.Refers p)
    (hb : h.dictAt a k = some b) : p b :=
  hp (dictAt_eq_some.mp hb)

/-! ### What a program has written -/

/-- **A program has written** to these places only, has removed nothing, and refers to no
other dictionaries than before. -/
structure Edits (p : ℕ → Prop) (F : ℕ → κ → Prop) (h h' : Heap κ α) : Prop where
  next : h'.next = h.next
  kept : ∀ {a k}, ¬ F a k → h'.get a k = h.get a k
  grows : ∀ {a k v}, h.get a k = some v → ∃ v', h'.get a k = some v'
  refs : h.Refers p → h'.Refers p

section Edits

variable {p : ℕ → Prop} {F G : ℕ → κ → Prop} {h h' h'' : Heap κ α} {a b : ℕ} {k : κ}
  {v : Value α} {d : OrderedDict κ (Value α)} {t : α → Bool} {x : Option (Value α)}

theorem Edits.refl (p : ℕ → Prop) (F : ℕ → κ → Prop) (h : Heap κ α) : Edits p F h h :=
  ⟨rfl, fun _ => rfl, fun hv => ⟨_, hv⟩, id⟩

theorem Edits.trans (he : Edits p F h h') (he' : Edits p F h' h'') : Edits p F h h'' where
  next := he'.next.trans he.next
  kept hF := (he'.kept hF).trans (he.kept hF)
  grows hv := by
    obtain ⟨v', hv'⟩ := he.grows hv
    exact he'.grows hv'
  refs hp := he'.refs (he.refs hp)

theorem Edits.mono (he : Edits p F h h') (hFG : ∀ a k, F a k → G a k) : Edits p G h h' :=
  ⟨he.next, fun hG => he.kept fun hF => hG (hFG _ _ hF), he.grows, he.refs⟩

/-- What was written, whatever it refers to. -/
theorem Edits.places (he : Edits p F h h') : Edits (fun _ => True) F h h' :=
  ⟨he.next, he.kept, he.grows, fun _ _ _ _ _ => trivial⟩

theorem edits_set (hF : F a k) (hv : h.Refers p → ∀ b, v = .dict b → p b) :
    Edits p F h (h.set a k v) where
  next := rfl
  kept {b l} hnot := get_set_of_ne fun ⟨hb, hl⟩ => hnot (hb ▸ hl ▸ hF)
  grows {b l w} hw := by
    rw [get_set]
    split_ifs
    · exact ⟨v, rfl⟩
    · exact ⟨w, hw⟩
  refs hp := by
    intro a' k' b hget
    rw [get_set] at hget
    split_ifs at hget
    · exact hv hp b (Option.some.inj hget)
    · exact hp hget

theorem edits_set_dict (hF : F a k) (hb : p b) : Edits p F h (h.set a k (.dict b)) :=
  edits_set hF fun _ c hc => by
    obtain rfl := Value.dict.inj hc
    exact hb

/-- A new dictionary, where there was none. -/
theorem edits_put (hempty : ∀ k, h.get a k = none) (hF : ∀ {k v}, d.get? k = some v → F a k)
    (hd : h.Refers p → ∀ k b, d.get? k = some (.dict b) → p b) : Edits p F h (h.put a d) where
  next := rfl
  kept {b l} hnot := by
    rw [get_put]
    split_ifs with hb
    · subst hb
      rw [hempty]
      cases hget : d.get? l with
      | none => rfl
      | some w => exact absurd (hF hget) hnot
    · rfl
  grows {b l w} hw := by
    rw [get_put]
    split_ifs with hb
    · rw [hb, hempty] at hw
      cases hw
    · exact ⟨w, hw⟩
  refs hp := by
    intro a' k' b hget
    rw [get_put] at hget
    split_ifs at hget
    · exact hd hp k' b hget
    · exact hp hget

theorem Edits.isEmpty_eq_false (he : Edits p F h h') (hne : h.isEmpty a = false) :
    h'.isEmpty a = false := by
  rw [← Bool.not_eq_true, isEmpty_iff] at hne
  push Not at hne
  obtain ⟨k, hk⟩ := hne
  obtain ⟨v, hv⟩ := Option.ne_none_iff_exists'.mp hk
  obtain ⟨v', hv'⟩ := he.grows hv
  exact isEmpty_eq_false_of_get hv'

theorem isEmpty_congr (heq : ∀ k, h'.get b k = h.get a k) : h'.isEmpty b = h.isEmpty a := by
  rw [Bool.eq_iff_iff, isEmpty_iff, isEmpty_iff]
  exact forall_congr' fun k => by rw [heq k]

omit [DecidableEq κ] in
/-- The truth of a value depends on the dictionary that it is. -/
theorem truthy_congr (heq : ∀ a, x = some (.dict a) → h'.isEmpty a = h.isEmpty a) :
    h'.truthy t x = h.truthy t x := by
  unfold truthy
  split
  · rfl
  · rfl
  · rw [heq _ rfl]

/-- **What is true stays true.** -/
theorem Edits.truthy (he : Edits p F h h') (htrue : h.truthy t x = true) :
    h'.truthy t x = true := by
  unfold Heap.truthy at htrue ⊢
  split at htrue
  · cases htrue
  · exact htrue
  · rw [Bool.not_eq_true'] at htrue ⊢
    exact he.isEmpty_eq_false htrue

/-- **What is false stays false**, unless it is a dictionary that was written to. -/
theorem Edits.truthy_eq (he : Edits p F h h') (hnot : ∀ a, x = some (.dict a) → ∀ k, ¬ F a k) :
    h'.truthy t x = h.truthy t x :=
  truthy_congr fun a ha => isEmpty_congr fun k => he.kept (hnot a ha k)

end Edits

end Heap

end DictHeap
