import HermesA2A.Lib.OrderedDict
import HermesA2A.Payloads

/-!
# The idempotency store

`IdempotencyStore`: a key is remembered with the task it started, a hash of the
request it came with, and the result, until it expires.  Each operation reads the
clock under the store's lock, so the clock reading is an argument.

The payload hash is `digest` of the request with its keys sorted; `digest` stands
for `json.dumps` followed by the truncated SHA-256.
-/

namespace HermesA2A

/-- `_IDEM_TTL_SECONDS` -/
def IDEM_TTL_SECONDS : Time := 24 * 3600

/-- An entry of the store. -/
structure IdempotencyEntry where
  taskId : TaskId
  payloadHash : String
  result : Json
  expiresAt : Time
  deriving DecidableEq

/-- `_payload_hash` -/
def payloadHash (digest : Json → String) (payload : Json) : String := digest payload.sortKeys

/-- `IdempotencyStore._store` -/
abbrev IdempotencyStore := OrderedDict Json IdempotencyEntry

namespace IdempotencyStore

/-- The entry under a key, unless it has expired. -/
def live? (now : Time) (key : Json) (store : IdempotencyStore) : Option IdempotencyEntry :=
  (OrderedDict.get? store key).filter fun entry => ¬ now > entry.expiresAt

/-- `del self._store[key]` for an entry found expired. -/
def dropExpired (now : Time) (key : Json) (store : IdempotencyStore) : IdempotencyStore :=
  match OrderedDict.get? store key with
  | some entry => if now > entry.expiresAt then OrderedDict.erase store key else store
  | none => store

/-- `get` -/
def get (now : Time) (key : Json) (store : IdempotencyStore) :
    Except PyError (Option (TaskId × Json)) × IdempotencyStore :=
  if key.hashable then
    (.ok ((store.live? now key).map fun entry => (entry.taskId, entry.result)),
      store.dropExpired now key)
  else (.error .typeError, store)

/-- `check_conflict`, whose second component no caller reads: is the key in use
with another payload? -/
def checkConflict (digest : Json → String) (now : Time) (key payload : Json)
    (store : IdempotencyStore) : Except PyError Bool × IdempotencyStore :=
  if key.hashable then
    (.ok <|
      match store.live? now key with
      | some entry => payloadHash digest payload != entry.payloadHash
      | none => false,
      store.dropExpired now key)
  else (.error .typeError, store)

/-- `set`, of a store that keeps its entries for `ttl`. -/
def setFor (ttl : Time) (digest : Json → String) (now : Time) (key : Json) (taskId : TaskId)
    (payload result : Json) (store : IdempotencyStore) : IdempotencyStore :=
  OrderedDict.set store key ⟨taskId, payloadHash digest payload, result, now + ttl⟩

/-- `set` -/
def set (digest : Json → String) (now : Time) (key : Json) (taskId : TaskId)
    (payload result : Json) (store : IdempotencyStore) : IdempotencyStore :=
  OrderedDict.set store key
    ⟨taskId, payloadHash digest payload, result, now + IDEM_TTL_SECONDS⟩

/-- `evict_expired` -/
def evictExpired (now : Time) (store : IdempotencyStore) : IdempotencyStore :=
  (store.entries.filter fun e => now > e.2.expiresAt).foldl
    (fun s e => OrderedDict.erase s e.1) store

/-- The package's store keeps its entries for a day. -/
theorem set_eq_setFor : set = setFor IDEM_TTL_SECONDS := rfl

/-! ### What stays in the store -/

variable {now : Time} {key k : Json} {store : IdempotencyStore} {entry : IdempotencyEntry}

theorem live?_eq_some_iff :
    store.live? now key = some entry ↔
      OrderedDict.get? store key = some entry ∧ now ≤ entry.expiresAt := by
  simp [live?, Option.filter_eq_some_iff]

/-- Dropping an expired entry invents nothing. -/
theorem get?_of_dropExpired (h : OrderedDict.get? (store.dropExpired now k) key = some entry) :
    OrderedDict.get? store key = some entry := by
  unfold dropExpired at h
  split at h
  · split at h
    · rw [OrderedDict.get?_erase] at h
      split at h
      · cases h
      · exact h
    · exact h
  · exact h

/-- An entry that has not expired is not dropped. -/
theorem get?_dropExpired_of_le (h : OrderedDict.get? store key = some entry)
    (hle : now ≤ entry.expiresAt) :
    OrderedDict.get? (store.dropExpired now k) key = some entry := by
  unfold dropExpired
  split
  · rename_i e he
    split
    · rename_i hlt
      rw [OrderedDict.get?_erase_of_ne]
      · exact h
      · rintro rfl
        obtain rfl := Option.some.inj (h.symm.trans he)
        exact absurd hle (not_le.mpr hlt)
    · exact h
  · exact h

/-- Looking for one key drops no other. -/
theorem get?_dropExpired_of_ne (hne : key ≠ k) :
    OrderedDict.get? (store.dropExpired now k) key = OrderedDict.get? store key := by
  unfold dropExpired
  split
  · split
    · exact OrderedDict.get?_erase_of_ne _ hne
    · rfl
  · rfl

/-- Deleting what has expired does not show later. -/
theorem live?_dropExpired {later : Time} (hle : now ≤ later) :
    (store.dropExpired now k).live? later key = store.live? later key := by
  ext entry
  rw [live?_eq_some_iff, live?_eq_some_iff]
  constructor
  · rintro ⟨h, hlive⟩
    exact ⟨get?_of_dropExpired h, hlive⟩
  · rintro ⟨h, hlive⟩
    exact ⟨get?_dropExpired_of_le h (hle.trans hlive), hlive⟩

/-- A lookup with a live entry finds it. -/
theorem get_of_live (hkey : key.hashable = true) (h : store.live? now key = some entry) :
    (store.get now key).1 = .ok (some (entry.taskId, entry.result)) := by
  unfold get
  rw [if_pos hkey, h]
  rfl

/-- A conflict is a live entry of another payload. -/
theorem checkConflict_fst (digest : Json → String) (payload : Json)
    (hkey : key.hashable = true) :
    (store.checkConflict digest now key payload).1 =
      .ok ((store.live? now key).any fun entry =>
        payloadHash digest payload != entry.payloadHash) := by
  unfold checkConflict
  rw [if_pos hkey]
  cases store.live? now key with
  | none => rfl
  | some entry => rfl

/-- With a live entry, another payload is a conflict. -/
theorem checkConflict_of_live (digest : Json → String) (payload : Json)
    (hkey : key.hashable = true) (h : store.live? now key = some entry) :
    (store.checkConflict digest now key payload).1 =
      .ok (payloadHash digest payload != entry.payloadHash) := by
  rw [checkConflict_fst digest payload hkey, h]
  rfl

/-- Only a hashable key is looked up. -/
theorem hashable_of_checkConflict {digest : Json → String} {payload : Json} {b : Bool}
    (h : (store.checkConflict digest now key payload).1 = .ok b) : key.hashable = true := by
  unfold checkConflict at h
  split at h
  · assumption
  · cases h

/-- A sweep removes what has expired and nothing else. -/
theorem get?_evictExpired :
    OrderedDict.get? (store.evictExpired now) key = store.live? now key := by
  refine (OrderedDict.get?_eraseAll store (fun e => now > e.2.expiresAt) key).trans ?_
  simp only [live?, decide_not]

/-- Nor does a sweep show. -/
theorem live?_evictExpired {later : Time} (hle : now ≤ later) :
    (store.evictExpired now).live? later key = store.live? later key := by
  ext entry
  rw [live?_eq_some_iff, live?_eq_some_iff, get?_evictExpired, live?_eq_some_iff]
  constructor
  · rintro ⟨⟨h, -⟩, hlive⟩
    exact ⟨h, hlive⟩
  · rintro ⟨h, hlive⟩
    exact ⟨⟨h, hle.trans hlive⟩, hlive⟩

end IdempotencyStore

end HermesA2A
