import Mathlib.Data.List.Nodup
import Mathlib.Data.List.Lookmap
import Mathlib.Logic.Function.Iterate

/-!
# Insertion-ordered dictionaries

A dictionary that remembers the order in which its keys were first inserted:
overwriting a key keeps its place, a removed and re-inserted key goes to the
end.  This is the contract of Python's `dict` and `collections.OrderedDict`.

The entry list carries the proof that no key occurs twice, so a lookup result
and membership in the entry list are the same thing (`get?_eq_some_iff`); every
other law is read off from that.

* `get?`, `set`, `erase`, `popFirst` — the operations.
* `get?_set`, `get?_erase`, `get?_popFirst` — what each does to a lookup.
-/

universe u v

/-- A finite map with an insertion order.  The second field is what makes the
entry list a map. -/
structure OrderedDict (κ : Type u) (ν : Type v) where
  /-- The entries, oldest first. -/
  entries : List (κ × ν)
  /-- No key occurs twice. -/
  nodup_keys : (entries.map Prod.fst).Nodup

namespace OrderedDict

variable {κ : Type u} {ν : Type v}

/-- The dictionary with no entry. -/
def empty : OrderedDict κ ν := ⟨[], List.nodup_nil⟩

/-- The keys, in insertion order. -/
def keys (d : OrderedDict κ ν) : List κ := d.entries.map Prod.fst

/-- The values, in insertion order of their keys. -/
def values (d : OrderedDict κ ν) : List ν := d.entries.map Prod.snd

/-- The number of entries. -/
def length (d : OrderedDict κ ν) : ℕ := d.entries.length

/-- Drop the oldest entry, if there is one (`popitem(last=False)`). -/
def popFirst (d : OrderedDict κ ν) : OrderedDict κ ν where
  entries := d.entries.tail
  nodup_keys := by
    rw [List.map_tail]
    exact d.nodup_keys.sublist (List.tail_sublist _)

@[simp] theorem length_popFirst (d : OrderedDict κ ν) :
    d.popFirst.length = d.length - 1 := List.length_tail

/-- The oldest keys go first. -/
theorem keys_iterate_popFirst (n : ℕ) (d : OrderedDict κ ν) :
    (popFirst^[n] d).keys = d.keys.drop n := by
  induction n generalizing d with
  | zero => rfl
  | succ n ih =>
      rw [Function.iterate_succ_apply, ih]
      show (d.entries.tail.map Prod.fst).drop n = (d.entries.map Prod.fst).drop (n + 1)
      rw [List.map_tail, List.drop_tail]

theorem length_iterate_popFirst (n : ℕ) (d : OrderedDict κ ν) :
    (popFirst^[n] d).length = d.length - n := by
  induction n generalizing d with
  | zero => rfl
  | succ n ih =>
      rw [Function.iterate_succ_apply, ih, length_popFirst]
      omega

theorem mem_values_iff {d : OrderedDict κ ν} {v : ν} :
    v ∈ d.values ↔ ∃ k, (k, v) ∈ d.entries := by
  simp [values]

section Lookup

variable [DecidableEq κ]

/-- The value stored under a key. -/
def get? (d : OrderedDict κ ν) (k : κ) : Option ν := d.entries.lookup k

instance : Membership κ (OrderedDict κ ν) := ⟨fun d k => k ∈ d.keys⟩

instance (d : OrderedDict κ ν) (k : κ) : Decidable (k ∈ d) :=
  inferInstanceAs (Decidable (k ∈ d.keys))

/-- Overwrite the value of a present key in place. -/
def overwrite (k : κ) (v : ν) (entries : List (κ × ν)) : List (κ × ν) :=
  entries.map fun e => if e.1 = k then (k, v) else e

theorem map_fst_overwrite (k : κ) (v : ν) (entries : List (κ × ν)) :
    (overwrite k v entries).map Prod.fst = entries.map Prod.fst := by
  rw [overwrite, List.map_map]
  refine List.map_congr_left fun e _ => ?_
  by_cases h : e.1 = k <;> simp [h]

/-- `d[k] = v`: in place when the key is present, at the end when it is new. -/
def set (d : OrderedDict κ ν) (k : κ) (v : ν) : OrderedDict κ ν :=
  if h : k ∈ d then
    ⟨overwrite k v d.entries, by rw [map_fst_overwrite]; exact d.nodup_keys⟩
  else
    ⟨d.entries ++ [(k, v)], by
      rw [List.map_append, List.nodup_append]
      refine ⟨d.nodup_keys, List.nodup_singleton _, ?_⟩
      intro a ha b hb hab
      have hbk : b = k := by simpa using hb
      subst hab hbk
      exact h ha⟩

/-- `d.pop(k, None)`: remove a key if it is present. -/
def erase (d : OrderedDict κ ν) (k : κ) : OrderedDict κ ν where
  entries := d.entries.filter fun e => e.1 ≠ k
  nodup_keys := d.nodup_keys.sublist ((List.filter_sublist).map Prod.fst)

/-! ### Lookup and membership -/

private theorem lookup_of_mem :
    ∀ {entries : List (κ × ν)}, (entries.map Prod.fst).Nodup →
      ∀ {k : κ} {v : ν}, (k, v) ∈ entries → entries.lookup k = some v := by
  intro entries
  induction entries with
  | nil => intro _ k v h; cases h
  | cons e rest ih =>
      intro hnodup k v hmem
      rw [List.map_cons, List.nodup_cons] at hnodup
      rcases List.mem_cons.mp hmem with rfl | hrest
      · simp
      · have hne : k ≠ e.1 := by
          rintro rfl
          exact hnodup.1 (List.mem_map.mpr ⟨_, hrest, rfl⟩)
        have hbeq : (k == e.1) = false := by simpa using hne
        rw [List.lookup_cons, hbeq]
        exact ih hnodup.2 hrest

private theorem mem_of_lookup :
    ∀ {entries : List (κ × ν)} {k : κ} {v : ν},
      entries.lookup k = some v → (k, v) ∈ entries := by
  intro entries
  induction entries with
  | nil => intro k v h; cases h
  | cons e rest ih =>
      intro k v h
      rw [List.lookup_cons] at h
      by_cases hk : k = e.1
      · subst hk
        have hv : e.2 = v := by simpa using h
        exact List.mem_cons.mpr (Or.inl (by rw [← hv]))
      · have hbeq : (k == e.1) = false := by simpa using hk
        rw [hbeq] at h
        exact List.mem_cons_of_mem _ (ih h)

/-- A lookup result is an entry, and the only one under its key. -/
theorem get?_eq_some_iff {d : OrderedDict κ ν} {k : κ} {v : ν} :
    d.get? k = some v ↔ (k, v) ∈ d.entries :=
  ⟨mem_of_lookup, lookup_of_mem d.nodup_keys⟩

theorem mem_iff_exists {d : OrderedDict κ ν} {k : κ} :
    k ∈ d ↔ ∃ v, d.get? k = some v := by
  simp only [get?_eq_some_iff]
  change k ∈ d.entries.map Prod.fst ↔ _
  simp

theorem mem_of_get? {d : OrderedDict κ ν} {k : κ} {v : ν} (h : d.get? k = some v) :
    k ∈ d := mem_iff_exists.mpr ⟨v, h⟩

theorem get?_eq_none_iff {d : OrderedDict κ ν} {k : κ} : d.get? k = none ↔ k ∉ d := by
  rw [mem_iff_exists, Option.eq_none_iff_forall_ne_some]
  push Not
  rfl

theorem mem_values_iff_get? {d : OrderedDict κ ν} {v : ν} :
    v ∈ d.values ↔ ∃ k, d.get? k = some v := by
  simp only [mem_values_iff, get?_eq_some_iff]

/-- Looking up the keys of some entries gives their values. -/
theorem filterMap_get?_map_fst {d : OrderedDict κ ν} {entries : List (κ × ν)}
    (h : ∀ e ∈ entries, e ∈ d.entries) :
    (entries.map Prod.fst).filterMap d.get? = entries.map Prod.snd := by
  rw [List.filterMap_map, ← List.filterMap_eq_map]
  exact List.filterMap_congr fun e he => get?_eq_some_iff.mpr (h e he)

@[simp] theorem get?_empty (k : κ) : (empty : OrderedDict κ ν).get? k = none := rfl

omit [DecidableEq κ] in
@[simp] theorem notMem_empty (k : κ) : k ∉ (empty : OrderedDict κ ν) := List.not_mem_nil

/-! ### The operations, seen by a lookup -/

private theorem get?_ext {d d' : OrderedDict κ ν} {k k' : κ}
    (h : ∀ v, (k, v) ∈ d.entries ↔ (k', v) ∈ d'.entries) : d.get? k = d'.get? k' :=
  Option.ext fun v => by rw [get?_eq_some_iff, get?_eq_some_iff, h]

@[simp] theorem get?_set_self (d : OrderedDict κ ν) (k : κ) (v : ν) :
    (d.set k v).get? k = some v := by
  rw [get?_eq_some_iff]
  unfold set
  split
  · rename_i h
    obtain ⟨w, hw⟩ := mem_iff_exists.mp h
    exact List.mem_map.mpr ⟨(k, w), get?_eq_some_iff.mp hw, by simp⟩
  · simp

theorem get?_set_of_ne (d : OrderedDict κ ν) {k k' : κ} (v : ν) (hne : k' ≠ k) :
    (d.set k v).get? k' = d.get? k' := by
  refine get?_ext fun w => ?_
  unfold set
  split
  · simp only [overwrite, List.mem_map]
    constructor
    · rintro ⟨e, he, heq⟩
      by_cases hk : e.1 = k
      · rw [if_pos hk] at heq
        exact absurd (congrArg Prod.fst heq).symm hne
      · rw [if_neg hk] at heq
        exact heq ▸ he
    · intro hw
      exact ⟨(k', w), hw, by simp [hne]⟩
  · simp [hne]

/-- What an assignment does to a lookup. -/
theorem get?_set (d : OrderedDict κ ν) (k k' : κ) (v : ν) :
    (d.set k v).get? k' = if k' = k then some v else d.get? k' := by
  by_cases h : k' = k
  · subst h; simp
  · rw [if_neg h, get?_set_of_ne d v h]

@[simp] theorem get?_erase_self (d : OrderedDict κ ν) (k : κ) :
    (d.erase k).get? k = none := by
  rw [Option.eq_none_iff_forall_ne_some]
  intro v hv
  have := get?_eq_some_iff.mp hv
  simp [erase] at this

theorem get?_erase_of_ne (d : OrderedDict κ ν) {k k' : κ} (hne : k' ≠ k) :
    (d.erase k).get? k' = d.get? k' := by
  refine get?_ext fun w => ?_
  simp [erase, hne]

/-- What a removal does to a lookup. -/
theorem get?_erase (d : OrderedDict κ ν) (k k' : κ) :
    (d.erase k).get? k' = if k' = k then none else d.get? k' := by
  by_cases h : k' = k
  · subst h; simp
  · rw [if_neg h, get?_erase_of_ne d h]

/-- Removing several keys. -/
theorem get?_foldl_erase (d : OrderedDict κ ν) (entries : List (κ × ν)) (k : κ) :
    (entries.foldl (fun d e => d.erase e.1) d).get? k =
      if k ∈ entries.map Prod.fst then none else d.get? k := by
  induction entries generalizing d with
  | nil => rfl
  | cons e entries ih =>
      rw [List.foldl_cons, ih, get?_erase]
      by_cases hk : k = e.1
      · simp [hk]
      · simp only [List.map_cons, List.mem_cons, hk, false_or, if_false]

/-- Removing the entries of some kind. -/
theorem get?_eraseAll (d : OrderedDict κ ν) (p : κ × ν → Bool) (k : κ) :
    ((d.entries.filter p).foldl (fun d e => d.erase e.1) d).get? k =
      (d.get? k).filter fun v => !p (k, v) := by
  rw [get?_foldl_erase]
  cases hget : d.get? k with
  | none => rw [ite_self, Option.filter_none]
  | some v =>
      have hmem : k ∈ (d.entries.filter p).map Prod.fst ↔ p (k, v) = true := by
        constructor
        · intro hk
          obtain ⟨⟨k', w⟩, he, rfl⟩ := List.mem_map.mp hk
          obtain ⟨hin, hp⟩ := List.mem_filter.mp he
          rw [get?_eq_some_iff.mpr hin] at hget
          rwa [← Option.some.inj hget]
        · intro hp
          exact List.mem_map.mpr ⟨_, List.mem_filter.mpr ⟨get?_eq_some_iff.mp hget, hp⟩, rfl⟩
      by_cases hp : p (k, v) = true
      · rw [if_pos (hmem.mpr hp), Option.filter_some, if_neg (by simp [hp])]
      · rw [if_neg (mt hmem.mp hp), Option.filter_some, if_pos (by simp [hp])]

/-- Dropping the oldest entry invents nothing. -/
theorem get?_of_get?_popFirst {d : OrderedDict κ ν} {k : κ} {v : ν}
    (h : d.popFirst.get? k = some v) : d.get? k = some v :=
  get?_eq_some_iff.mpr (List.mem_of_mem_tail (get?_eq_some_iff.mp h))

@[simp] theorem mem_set_iff {d : OrderedDict κ ν} {k k' : κ} {v : ν} :
    k' ∈ d.set k v ↔ k' = k ∨ k' ∈ d := by
  simp only [mem_iff_exists, get?_set]
  by_cases h : k' = k <;> simp [h]

@[simp] theorem mem_erase_iff {d : OrderedDict κ ν} {k k' : κ} :
    k' ∈ d.erase k ↔ k' ≠ k ∧ k' ∈ d := by
  simp only [mem_iff_exists, get?_erase]
  by_cases h : k' = k <;> simp [h]

/-- A new key adds one entry. -/
theorem length_set_of_notMem {d : OrderedDict κ ν} {k : κ} (v : ν) (h : k ∉ d) :
    (d.set k v).length = d.length + 1 := by
  simp [set, h, length]

/-- A new key goes to the end. -/
theorem entries_set_of_notMem {d : OrderedDict κ ν} {k : κ} (v : ν) (h : k ∉ d) :
    (d.set k v).entries = d.entries ++ [(k, v)] := by
  simp [set, h]

theorem keys_set_of_notMem {d : OrderedDict κ ν} {k : κ} (v : ν) (h : k ∉ d) :
    (d.set k v).keys = d.keys ++ [k] := by
  simp [keys, entries_set_of_notMem v h]

/-- A present key keeps its place. -/
theorem keys_set_of_mem {d : OrderedDict κ ν} {k : κ} (v : ν) (h : k ∈ d) :
    (d.set k v).keys = d.keys := by
  simp [set, h, keys, map_fst_overwrite]

theorem length_set_of_mem {d : OrderedDict κ ν} {k : κ} (v : ν) (h : k ∈ d) :
    (d.set k v).length = d.length := by
  simp [set, h, length, overwrite]

/-- An assignment adds at most one entry. -/
theorem length_set_le (d : OrderedDict κ ν) (k : κ) (v : ν) :
    (d.set k v).length ≤ d.length + 1 := by
  unfold set length
  split <;> simp [overwrite]

theorem keys_erase (d : OrderedDict κ ν) (k : κ) : (d.erase k).keys = d.keys.filter (· ≠ k) := by
  simp only [keys, erase, List.filter_map]
  rfl

theorem erase_of_notMem {d : OrderedDict κ ν} {k : κ} (h : k ∉ d) : d.erase k = d := by
  have hentries : (d.entries.filter fun e => e.1 ≠ k) = d.entries := by
    rw [List.filter_eq_self]
    intro e he
    exact decide_eq_true fun heq => h (heq ▸ List.mem_map_of_mem he)
  cases d
  simp only [erase, hentries]

/-- The value of a present key comes on top of those that stay when the key is removed. -/
theorem values_perm_erase {d : OrderedDict κ ν} {k : κ} {v : ν} (h : d.get? k = some v) :
    d.values.Perm (v :: (d.erase k).values) := by
  have hmem : (k, v) ∈ d.entries := get?_eq_some_iff.mp h
  obtain ⟨before, after, hentries⟩ := List.append_of_mem hmem
  have hkeys := d.nodup_keys
  rw [hentries, List.map_append, List.map_cons] at hkeys
  obtain ⟨-, hafter, hdisjoint⟩ := List.nodup_append.mp hkeys
  have hkeep : ∀ e ∈ before ++ after, decide (e.1 ≠ k) = true := by
    intro e he
    refine decide_eq_true fun heq => ?_
    rcases List.mem_append.mp he with hb | ha
    · exact hdisjoint e.1 (List.mem_map_of_mem hb) k List.mem_cons_self heq
    · exact (List.nodup_cons.mp hafter).1 (List.mem_map.mpr ⟨e, ha, heq⟩)
  have herase : (d.erase k).entries = before ++ after := by
    show d.entries.filter (fun e => e.1 ≠ k) = _
    rw [hentries, List.filter_append, List.filter_cons_of_neg (by simp), ← List.filter_append,
      List.filter_eq_self.mpr hkeep]
  rw [values, values, herase, hentries, List.map_append, List.map_cons, List.map_append]
  exact List.perm_middle

/-- The removal of a present key removes one entry. -/
theorem length_erase_of_mem {d : OrderedDict κ ν} {k : κ} (h : k ∈ d) :
    (d.erase k).length + 1 = d.length := by
  have hlen : ∀ d : OrderedDict κ ν, d.length = d.keys.length := fun d => (List.length_map _).symm
  have hmem : k ∈ d.keys := h
  have hpos := List.length_pos_of_mem hmem
  have hkeys : (d.erase k).keys = d.keys.erase k := by
    have hnodup : d.keys.Nodup := d.nodup_keys
    rw [keys_erase, hnodup.erase_eq_filter k]
    exact List.filter_congr fun a _ => by by_cases h : a = k <;> simp [h]
  rw [hlen, hlen, hkeys, List.length_erase_of_mem hmem]
  omega

end Lookup

end OrderedDict
