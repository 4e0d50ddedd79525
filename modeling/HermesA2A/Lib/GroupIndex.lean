import HermesA2A.Lib.OrderedDict
import Mathlib.Data.List.Perm.Subperm

/-!
# An index by groups

Items are kept in a dictionary, and each belongs to a group.  A second dictionary, the
index, lists under each group the keys of its items.  A program that keeps both updates
one after the other; nothing but the program holds them together.

* `Coherent` — the index lists what there is.  `Coherent.file`, `Coherent.update` and
  `Removed.coherent` say which updates of the two dictionaries keep it.
* `removed_foldl` — items that are removed one by one.
* `Tidy` — no group is listed without a key.  Then the index does not leak
  (`Coherent.leakproof_iff_tidy`); `Removed.tidy_iff` says which removals keep it so.
-/

universe u v w

namespace GroupIndex

variable {κ : Type u} {γ : Type v} {ν : Type w} [DecidableEq γ]

/-- The keys listed under a group. -/
def listed (index : OrderedDict γ (List κ)) (g : γ) : List κ := (index.get? g).getD []

/-- The keys of a group's items, in the order of their insertion. -/
def members (group : ν → γ) (items : OrderedDict κ ν) (g : γ) : List κ :=
  (items.entries.filter fun e => group e.2 = g).map Prod.fst

/-- **The index is coherent**: it lists the items of each group, each one once. -/
def Coherent (group : ν → γ) (items : OrderedDict κ ν) (index : OrderedDict γ (List κ)) : Prop :=
  ∀ g, listed index g = members group items g

/-- One more key under a group. -/
def file (index : OrderedDict γ (List κ)) (g : γ) (k : κ) : OrderedDict γ (List κ) :=
  index.set g (listed index g ++ [k])

/-- **A removal**: of the items, and of the keys listed, those stay that `keep` says. -/
structure Removed (keep : κ → Bool) (items items' : OrderedDict κ ν)
    (index index' : OrderedDict γ (List κ)) : Prop where
  entries : items'.entries = items.entries.filter fun e => keep e.1
  index : ∀ g, index'.get? g = (index.get? g).map (List.filter keep)

/-! ### The items of a group -/

section Members

variable {group : ν → γ} {items : OrderedDict κ ν} {g : γ} {k : κ} {v v' : ν}

theorem nodup_members (group : ν → γ) (items : OrderedDict κ ν) (g : γ) :
    (members group items g).Nodup :=
  items.nodup_keys.sublist (List.filter_sublist.map Prod.fst)

variable [DecidableEq κ]

theorem mem_members_iff :
    k ∈ members group items g ↔ ∃ v, items.get? k = some v ∧ group v = g := by
  simp [members, OrderedDict.get?_eq_some_iff]

theorem members_set_of_notMem (v : ν) (h : k ∉ items) :
    members group (items.set k v) g =
      members group items g ++ if group v = g then [k] else [] := by
  rw [members, OrderedDict.entries_set_of_notMem v h, List.filter_append, List.map_append]
  by_cases hg : group v = g
  · simp [members, hg]
  · simp [members, hg]

/-- A new value of the same group. -/
theorem members_set_of_mem (hget : items.get? k = some v) (hgroup : group v' = group v) :
    members group (items.set k v') g = members group items g := by
  have hset : (items.set k v').entries = OrderedDict.overwrite k v' items.entries := by
    rw [OrderedDict.set, dif_pos (OrderedDict.mem_of_get? hget)]
  have hsame : ∀ e ∈ items.entries,
      decide (group (if e.1 = k then (k, v') else e).2 = g) = decide (group e.2 = g) := by
    intro e he
    by_cases hk : e.1 = k
    · have hv : e.2 = v := by
        have := OrderedDict.get?_eq_some_iff.mpr he
        rw [hk, hget] at this
        exact (Option.some.inj this).symm
      rw [if_pos hk, hv, ← hgroup]
    · rw [if_neg hk]
  have hfilter : items.entries.filter ((fun e => decide (group e.2 = g)) ∘
        fun e => if e.1 = k then (k, v') else e) =
      items.entries.filter fun e => group e.2 = g := List.filter_congr hsame
  rw [members, hset, OrderedDict.overwrite, List.filter_map, List.map_map, hfilter, members]
  refine List.map_congr_left fun e _ => ?_
  by_cases hk : e.1 = k
  · simp [hk]
  · simp [hk]

end Members

/-! ### Filing and updating -/

section Coherence

variable {group : ν → γ} {items : OrderedDict κ ν} {index : OrderedDict γ (List κ)}
  {g g' : γ} {k : κ} {v v' : ν}

theorem get?_file :
    (file index g k).get? g' =
      if g' = g then some (listed index g ++ [k]) else index.get? g' :=
  OrderedDict.get?_set ..

theorem listed_file :
    listed (file index g k) g' = listed index g' ++ if g = g' then [k] else [] := by
  rw [listed, get?_file]
  by_cases h : g' = g
  · subst h
    rw [if_pos rfl, if_pos rfl, Option.getD_some]
  · rw [if_neg h, if_neg (Ne.symm h), List.append_nil, listed]

theorem coherent_empty (group : ν → γ) :
    Coherent group (.empty : OrderedDict κ ν) (.empty : OrderedDict γ (List κ)) :=
  fun _ => rfl

theorem Coherent.nodup_listed (h : Coherent group items index) (g : γ) :
    (listed index g).Nodup := by
  rw [h g]
  exact nodup_members ..

variable [DecidableEq κ]

/-- A new item is filed under its group. -/
theorem Coherent.file (h : Coherent group items index) (v : ν) (hnew : k ∉ items) :
    Coherent group (items.set k v) (file index (group v) k) := by
  intro g
  rw [listed_file, h g, members_set_of_notMem v hnew]

/-- An item changes, and not its group. -/
theorem Coherent.update (h : Coherent group items index) (hget : items.get? k = some v)
    (hgroup : group v' = group v) : Coherent group (items.set k v') index := by
  intro g
  rw [h g, members_set_of_mem hget hgroup]

theorem Coherent.mem_listed_iff (h : Coherent group items index) :
    k ∈ listed index g ↔ ∃ v, items.get? k = some v ∧ group v = g := by
  rw [h g, mem_members_iff]

end Coherence

/-! ### Removing -/

section Removing

variable {group : ν → γ} {keep keep' : κ → Bool} {items items' items'' : OrderedDict κ ν}
  {index index' index'' : OrderedDict γ (List κ)} {g : γ} {k : κ} {v : ν}

theorem Removed.congr (h : Removed keep items items' index index') (heq : ∀ k, keep k = keep' k) :
    Removed keep' items items' index index' := by
  rw [← funext heq]
  exact h

/-- Nothing is removed. -/
theorem Removed.refl (items : OrderedDict κ ν) (index : OrderedDict γ (List κ)) :
    Removed (fun _ => true) items items index index where
  entries := (List.filter_true _).symm
  index g := by
    have hid : List.filter (fun _ : κ => true) = id := funext List.filter_true
    rw [hid, Option.map_id_fun, id]

/-- Two removals, one after the other. -/
theorem Removed.trans (h : Removed keep items items' index index')
    (h' : Removed keep' items' items'' index' index'') :
    Removed (fun k => keep k && keep' k) items items'' index index'' where
  entries := by
    rw [h'.entries, h.entries, List.filter_filter]
    exact List.filter_congr fun e _ => Bool.and_comm ..
  index g := by
    rw [h'.index, h.index, Option.map_map]
    refine Option.map_congr fun ids _ => ?_
    rw [Function.comp, List.filter_filter]
    exact List.filter_congr fun k _ => Bool.and_comm ..

theorem Removed.members (h : Removed keep items items' index index') :
    members group items' g = (members group items g).filter keep := by
  rw [GroupIndex.members, h.entries, GroupIndex.members, List.filter_map, List.filter_filter,
    List.filter_filter]
  congr 1
  exact List.filter_congr fun e _ => Bool.and_comm ..

theorem Removed.listed (h : Removed keep items items' index index') :
    listed index' g = (listed index g).filter keep := by
  rw [GroupIndex.listed, h.index, GroupIndex.listed]
  cases index.get? g with
  | none => rfl
  | some ids => rfl

/-- A removal keeps the index coherent. -/
theorem Removed.coherent (h : Removed keep items items' index index')
    (hc : Coherent group items index) : Coherent group items' index' := by
  intro g
  rw [h.listed, hc g, h.members]

variable [DecidableEq κ]

theorem Removed.get? (h : Removed keep items items' index index') (k : κ) :
    items'.get? k = (items.get? k).filter fun _ => keep k := by
  refine Option.ext fun v => ?_
  rw [OrderedDict.get?_eq_some_iff, h.entries, List.mem_filter, ← OrderedDict.get?_eq_some_iff,
    Option.filter_eq_some_iff]

/-- One item is removed, and its key from under its group. -/
theorem removed_erase (hc : Coherent group items index) (hget : items.get? k = some v)
    (hindex : ∀ g, index'.get? g =
      if g = group v then (index.get? g).map (·.erase k) else index.get? g) :
    Removed (fun k' => k' ≠ k) items (items.erase k) index index' where
  entries := rfl
  index g := by
    have hids : ∀ ids, index.get? g = some ids → ids = GroupIndex.members group items g := by
      intro ids h
      rw [← hc g, GroupIndex.listed, h, Option.getD_some]
    rw [hindex]
    cases h : index.get? g with
    | none =>
        rw [Option.map_none, Option.map_none]
        exact ite_self none
    | some ids =>
        have hnodup : ids.Nodup := hids ids h ▸ nodup_members ..
        split_ifs with hg
        · rw [Option.map_some, Option.map_some, hnodup.erase_eq_filter]
          congr 1
          exact List.filter_congr fun a _ => by by_cases h : a = k <;> simp [h]
        · have hno : k ∉ ids := by
            rw [hids ids h, mem_members_iff]
            rintro ⟨v', hv', rfl⟩
            rw [hget] at hv'
            exact hg (congrArg group (Option.some.inj hv').symm)
          rw [Option.map_some, List.filter_eq_self.mpr]
          exact fun a ha => decide_eq_true fun heq => hno (heq ▸ ha)

/-- **Items removed one by one.**  `step` removes the item of a list's element from a
state that has the two dictionaries. -/
theorem removed_foldl {σ α : Type*} (items : σ → OrderedDict κ ν)
    (index : σ → OrderedDict γ (List κ)) {step : σ → α → σ} (key : α → κ) (item : α → ν)
    (hstep : ∀ s a, Coherent group (items s) (index s) → (items s).get? (key a) = some (item a) →
      Removed (fun k => k ≠ key a) (items s) (items (step s a)) (index s) (index (step s a)))
    (as : List α) (hnodup : (as.map key).Nodup) (s : σ)
    (hc : Coherent group (items s) (index s))
    (has : ∀ a ∈ as, (items s).get? (key a) = some (item a)) :
    Removed (fun k => k ∉ as.map key) (items s) (items (as.foldl step s)) (index s)
      (index (as.foldl step s)) := by
  induction as generalizing s with
  | nil => exact (Removed.refl _ _).congr fun k => (decide_eq_true List.not_mem_nil).symm
  | cons a as ih =>
      obtain ⟨hnotMem, hnodup⟩ := List.nodup_cons.mp hnodup
      have hfirst := hstep s a hc (has a List.mem_cons_self)
      have hrest : ∀ a' ∈ as, (items (step s a)).get? (key a') = some (item a') := by
        intro a' ha'
        have hne : key a' ≠ key a := fun heq => hnotMem (heq ▸ List.mem_map_of_mem ha')
        rw [hfirst.get?, has a' (List.mem_cons_of_mem _ ha'), Option.filter_some,
          if_pos (decide_eq_true hne)]
      refine (hfirst.trans (ih hnodup _ (hfirst.coherent hc) hrest)).congr fun k => ?_
      simp [List.mem_cons, not_or]

end Removing

/-! ### Empty entries -/

section Entries

variable {group : ν → γ} {keep : κ → Bool} {items items' : OrderedDict κ ν}
  {index index' : OrderedDict γ (List κ)} {g : γ} {k : κ}

/-- No group is listed without a key. -/
def Tidy (index : OrderedDict γ (List κ)) : Prop := ∀ g ∈ index, listed index g ≠ []

theorem mem_of_listed (h : listed index g ≠ []) : g ∈ index := by
  rw [OrderedDict.mem_iff_exists]
  cases hget : index.get? g with
  | none => exact absurd (by rw [listed, hget]; rfl) h
  | some ids => exact ⟨ids, rfl⟩

/-- In a tidy index there are no more groups than items. -/
theorem Coherent.length_le [DecidableEq κ] (hc : Coherent group items index) (h : Tidy index) :
    index.length ≤ items.length := by
  have hsub : index.keys ⊆ items.values.map group := by
    intro g hg
    obtain ⟨k, hk⟩ := List.exists_mem_of_ne_nil _ (h g hg)
    obtain ⟨v, hv, rfl⟩ := hc.mem_listed_iff.mp hk
    exact List.mem_map_of_mem (OrderedDict.mem_values_iff_get?.mpr ⟨k, hv⟩)
  have hnodup : index.keys.Nodup := index.nodup_keys
  calc index.length = index.keys.length := (List.length_map _).symm
    _ ≤ (items.values.map group).length := (hnodup.subperm hsub).length_le
    _ = items.length := by rw [List.length_map, OrderedDict.values, List.length_map]; rfl

/-- **The index does not leak**: there are no more groups in it than items, and each group
in it has an item. -/
structure Leakproof [DecidableEq κ] (group : ν → γ) (items : OrderedDict κ ν)
    (index : OrderedDict γ (List κ)) : Prop where
  length_le : index.length ≤ items.length
  inhabited : ∀ g ∈ index, ∃ k v, items.get? k = some v ∧ group v = g

/-- A coherent index does not leak exactly if it is tidy. -/
theorem Coherent.leakproof_iff_tidy [DecidableEq κ] (hc : Coherent group items index) :
    Leakproof group items index ↔ Tidy index := by
  constructor
  · intro h g hg
    obtain ⟨k, hk⟩ := h.inhabited g hg
    exact List.ne_nil_of_mem (hc.mem_listed_iff.mpr hk)
  · intro h
    refine ⟨hc.length_le h, fun g hg => ?_⟩
    obtain ⟨k, hk⟩ := List.exists_mem_of_ne_nil _ (h g hg)
    exact ⟨k, hc.mem_listed_iff.mp hk⟩

theorem Removed.mem_iff (h : Removed keep items items' index index') : g ∈ index' ↔ g ∈ index := by
  rw [OrderedDict.mem_iff_exists, OrderedDict.mem_iff_exists, h.index]
  cases index.get? g with
  | none => simp
  | some ids => simp

/-- **What a removal leaves under a group** is no empty entry exactly when an item of
the group stays, if there was one. -/
theorem Removed.tidy_at_iff (h : Removed keep items items' index index')
    (hc : Coherent group items index) (hindex : Tidy index) :
    (g ∈ index' → GroupIndex.listed index' g ≠ []) ↔
      ((∃ k, k ∈ GroupIndex.members group items g) →
        ∃ k ∈ GroupIndex.members group items g, keep k = true) := by
  have hmem : g ∈ index' ↔ ∃ k, k ∈ GroupIndex.members group items g := by
    rw [h.mem_iff, ← hc g]
    constructor
    · exact fun hg => List.exists_mem_of_ne_nil _ (hindex g hg)
    · exact fun ⟨k, hk⟩ => mem_of_listed (List.ne_nil_of_mem hk)
  rw [hmem, h.listed, hc g]
  refine imp_congr_right fun _ => ?_
  constructor
  · intro hne
    obtain ⟨k, hk⟩ := List.exists_mem_of_ne_nil _ hne
    exact ⟨k, List.mem_filter.mp hk⟩
  · rintro ⟨k, hk, hkeep⟩
    exact List.ne_nil_of_mem (List.mem_filter.mpr ⟨hk, hkeep⟩)

/-- **A removal leaves no empty entry** exactly when each group keeps an item. -/
theorem Removed.tidy_iff [DecidableEq κ] (h : Removed keep items items' index index')
    (hc : Coherent group items index) (hindex : Tidy index) :
    Tidy index' ↔ ∀ k v, items.get? k = some v →
      ∃ k' v', items.get? k' = some v' ∧ group v' = group v ∧ keep k' = true := by
  have hat : Tidy index' ↔ ∀ g, (∃ k, k ∈ GroupIndex.members group items g) →
      ∃ k ∈ GroupIndex.members group items g, keep k = true :=
    forall_congr' fun g => h.tidy_at_iff hc hindex
  rw [hat]
  constructor
  · intro hall k v hget
    obtain ⟨k', hk', hkeep⟩ := hall (group v) ⟨k, mem_members_iff.mpr ⟨v, hget, rfl⟩⟩
    obtain ⟨v', hv', hgroup⟩ := mem_members_iff.mp hk'
    exact ⟨k', v', hv', hgroup, hkeep⟩
  · rintro hall g ⟨k, hk⟩
    obtain ⟨v, hget, rfl⟩ := mem_members_iff.mp hk
    obtain ⟨k', v', hv', hgroup, hkeep⟩ := hall k v hget
    exact ⟨k', mem_members_iff.mpr ⟨v', hv', hgroup⟩, hkeep⟩

/-- One item is removed. -/
theorem Removed.tidy_erase_iff [DecidableEq κ] {v : ν}
    (h : Removed (fun k' => k' ≠ k) items items' index index') (hc : Coherent group items index)
    (hindex : Tidy index) (hget : items.get? k = some v) :
    Tidy index' ↔ ∃ k' v', items.get? k' = some v' ∧ group v' = group v ∧ k' ≠ k := by
  rw [h.tidy_iff hc hindex]
  constructor
  · intro hall
    obtain ⟨k', v', hget', hgroup, hkeep⟩ := hall k v hget
    exact ⟨k', v', hget', hgroup, of_decide_eq_true hkeep⟩
  · rintro ⟨k', v', hget', hgroup, hne⟩ k'' v'' hget''
    by_cases hk : k'' = k
    · rw [hk, hget] at hget''
      exact ⟨k', v', hget', Option.some.inj hget'' ▸ hgroup, decide_eq_true hne⟩
    · exact ⟨k'', v'', hget'', rfl, decide_eq_true hk⟩

/-- A key filed under a group makes up for its entry alone. -/
theorem tidy_file_iff :
    Tidy (file index g k) ↔ ∀ g', g' ≠ g → g' ∈ index → listed index g' ≠ [] := by
  refine forall_congr' fun g' => ?_
  have hmem : g' ∈ file index g k ↔ g' = g ∨ g' ∈ index := OrderedDict.mem_set_iff
  rw [hmem, listed_file]
  by_cases h : g' = g
  · simp [h]
  · simp [h, Ne.symm h]

end Entries

end GroupIndex
