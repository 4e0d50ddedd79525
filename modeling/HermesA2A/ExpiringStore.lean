import HermesA2A.Lib.FloatText
import HermesA2A.Lib.Sequential
import HermesA2A.Persistence

/-!
# The idempotency store as a map that forgets

`get`, `check_conflict` and `evict_expired` all delete what they find expired, each in
its own way.  None of the deletions shows: the store answers as a map would that never
deletes anything, and that looks at the age of the latest `set` only when it is asked
(`expected`).

The relation that carries the proof is `Represents`: from now on, what is live under a
key is what the latest `set` has put there.  It speaks of later times only, which is why
an entry that has expired may be deleted or not, and why the clock must not run back.

Keys are any values, and are compared as a dictionary of Python compares them (`Json.asKey`); one
that is a list or a dictionary makes every call raise, and then nothing is stored.  The payloads
are those that can be encoded: with a lone surrogate in a text there is no hash, `set` raises
before it stores anything, and so does `check_conflict` if it finds a live entry.
-/

namespace HermesA2A

/-- The value as a key of a dictionary: `1`, `1.0` and `True` are one key. -/
def Json.asKey : Json → Json
  | .bool b => .int b.toNat
  | .float repr =>
      match FloatText.float? repr.toList with
      | some (.finite q _) => if q.den = 1 then .int q.num else .float repr
      | _ => .float repr
  | key => key

@[simp] theorem Json.hashable_asKey (key : Json) : key.asKey.hashable = key.hashable := by
  unfold asKey
  split
  · rfl
  · split
    · split_ifs <;> rfl
    · rfl
  · rfl

example : (Json.float "1.0").asKey = (Json.bool true).asKey := by decide +kernel

/-- A call of the store, with the reading of the clock under its lock. -/
inductive IdemCall
  | set (now : Time) (key : Json) (taskId : TaskId) (payload result : Json)
  | get (now : Time) (key : Json)
  | checkConflict (now : Time) (key payload : Json)
  | evictExpired (now : Time)

/-- What a call answers. -/
inductive IdemAnswer
  | found (entry : Except PyError (Option (TaskId × Json)))
  | conflict (isConflict : Except PyError Bool)
  | stored (outcome : Except PyError Unit)
  | done

namespace IdemCall

/-- The reading of the clock. -/
def now : IdemCall → Time
  | set now _ _ _ _ => now
  | get now _ => now
  | checkConflict now _ _ => now
  | evictExpired now => now

/-- Is it a sweep? -/
def isSweep : IdemCall → Bool
  | evictExpired _ => true
  | _ => false

variable (ttl : Time) (digest : Json → String)

/-- What a call does to the store. -/
def on : IdemCall → IdempotencyStore → IdempotencyStore
  | set now key taskId payload result, s =>
      if key.hashable then
        IdempotencyStore.setFor ttl digest now key.asKey taskId payload result s
      else s
  | get now key, s => (IdempotencyStore.get now key.asKey s).2
  | checkConflict now key payload, s =>
      (IdempotencyStore.checkConflict digest now key.asKey payload s).2
  | evictExpired now, s => IdempotencyStore.evictExpired now s

/-- What a call answers. -/
def answer : IdemCall → IdempotencyStore → IdemAnswer
  | set _ key _ _ _, _ => .stored (if key.hashable then .ok () else .error .typeError)
  | get now key, s => .found (IdempotencyStore.get now key.asKey s).1
  | checkConflict now key payload, s =>
      .conflict (IdempotencyStore.checkConflict digest now key.asKey payload s).1
  | evictExpired _, _ => .done

end IdemCall

/-! ### The map -/

/-- What a `set` has put under a key. -/
structure Deposit where
  taskId : TaskId
  payload : Json
  result : Json
  /-- When it was put there. -/
  time : Time

/-- What the latest `set` has put under a key, whenever that was. -/
def latest (key : Json) (calls : List IdemCall) : Option Deposit :=
  calls.foldl (fun d call =>
    match call with
    | .set now key' taskId payload result =>
        if key'.asKey = key.asKey then some ⟨taskId, payload, result, now⟩ else d
    | _ => d) none

/-- The latest deposit, unless it has expired. -/
def liveDeposit (ttl now : Time) (key : Json) (calls : List IdemCall) : Option Deposit :=
  (latest key calls).filter fun d => now ≤ d.time + ttl

/-- An answer that takes a key. -/
def Json.keyed {α : Type} (key : Json) (a : α) : Except PyError α :=
  if key.hashable then .ok a else .error .typeError

/-- **What a call is to answer** after other calls. -/
def expected (ttl : Time) (digest : Json → String) (before : List IdemCall) :
    IdemCall → IdemAnswer
  | .get now key =>
      .found (key.keyed ((liveDeposit ttl now key before).map fun d => (d.taskId, d.result)))
  | .checkConflict now key payload =>
      .conflict (key.keyed ((liveDeposit ttl now key before).any fun d =>
        payloadHash digest payload != payloadHash digest d.payload))
  | .set _ key _ _ _ => .stored (key.keyed ())
  | .evictExpired _ => .done

/-! ### The store represents the map -/

namespace IdempotencyStore

variable {now later : Time} {key k : Json} {s : IdempotencyStore}

/-- What a look-up deletes does not show. -/
theorem live?_get (hle : now ≤ later) : (s.get now k).2.live? later key = s.live? later key := by
  unfold get
  split_ifs
  · exact live?_dropExpired hle
  · rfl

theorem live?_checkConflict (digest : Json → String) (payload : Json) (hle : now ≤ later) :
    (s.checkConflict digest now k payload).2.live? later key = s.live? later key := by
  unfold checkConflict
  split_ifs
  · exact live?_dropExpired hle
  · rfl

end IdempotencyStore

/-- The entry that the store keeps of a deposit. -/
def Deposit.entry (ttl : Time) (digest : Json → String) (d : Deposit) : IdempotencyEntry :=
  ⟨d.taskId, payloadHash digest d.payload, d.result, d.time + ttl⟩

/-- From `t` on, what is live in the store is what is live of the latest deposits. -/
def Represents (ttl : Time) (digest : Json → String) (t : Time) (s : IdempotencyStore)
    (calls : List IdemCall) : Prop :=
  ∀ (key : Json) now, key.hashable = true → t ≤ now →
    s.live? now key.asKey = (liveDeposit ttl now key calls).map (Deposit.entry ttl digest)

section Represents

variable {ttl : Time} {digest : Json → String} {t : Time} {s : IdempotencyStore}
  {calls : List IdemCall} {call : IdemCall}

theorem latest_snoc_set (key key' : Json) (now : Time) (taskId : TaskId) (payload result : Json) :
    latest key (calls ++ [.set now key' taskId payload result]) =
      if key'.asKey = key.asKey then some ⟨taskId, payload, result, now⟩ else latest key calls :=
  List.foldl_append ..

/-- Only a `set` deposits anything. -/
theorem latest_snoc (key : Json)
    (h : ∀ now key' taskId payload result, call ≠ .set now key' taskId payload result) :
    latest key (calls ++ [call]) = latest key calls := by
  unfold latest
  rw [List.foldl_append]
  cases call with
  | set now key' taskId payload result => exact absurd rfl (h now key' taskId payload result)
  | get now key' => rfl
  | checkConflict now key' payload => rfl
  | evictExpired now => rfl

theorem represents_empty (ttl : Time) (digest : Json → String) (t : Time) :
    Represents ttl digest t .empty [] := fun _ _ _ _ => rfl

/-- **A call keeps the representation**, whether it deletes anything or not. -/
theorem Represents.step (h : Represents ttl digest t s calls) (hle : t ≤ call.now) :
    Represents ttl digest call.now (call.on ttl digest s) (calls ++ [call]) := by
  intro key now hhashable hnow
  have hold := h key now hhashable (hle.trans hnow)
  unfold liveDeposit at hold ⊢
  cases call with
  | set time key' taskId payload result =>
      rw [latest_snoc_set, IdemCall.on]
      by_cases hkey : key'.asKey = key.asKey
      · have hhashable' : key'.hashable = true := by
          rw [← Json.hashable_asKey, hkey, Json.hashable_asKey, hhashable]
        rw [if_pos hhashable', if_pos hkey, hkey, IdempotencyStore.live?,
          IdempotencyStore.setFor, OrderedDict.get?_set, if_pos rfl, Option.filter_some,
          Option.filter_some]
        simp only [not_lt, decide_eq_true_eq, gt_iff_lt]
        split_ifs <;> rfl
      -- under another key, nothing has changed
      · rw [if_neg hkey]
        split_ifs
        · rw [IdempotencyStore.live?, IdempotencyStore.setFor, OrderedDict.get?_set,
            if_neg (Ne.symm hkey)]
          exact hold
        · exact hold
  | get time key' =>
      rw [latest_snoc key (by simp)]
      exact (IdempotencyStore.live?_get hnow).trans hold
  | checkConflict time key' payload =>
      rw [latest_snoc key (by simp)]
      exact (IdempotencyStore.live?_checkConflict digest payload hnow).trans hold
  | evictExpired time =>
      rw [latest_snoc key (by simp)]
      exact (IdempotencyStore.live?_evictExpired hnow).trans hold

/-- **What represents the map answers like it.** -/
theorem Represents.answer_eq (h : Represents ttl digest t s calls) (hle : t ≤ call.now) :
    call.answer digest s = expected ttl digest calls call := by
  cases call with
  | set now key taskId payload result => rfl
  | get now key =>
      simp only [IdemCall.answer, expected, IdempotencyStore.get, Json.keyed, Json.hashable_asKey]
      split_ifs with hhashable
      · rw [h key now hhashable hle, Option.map_map]
        rfl
      · rfl
  | checkConflict now key payload =>
      simp only [IdemCall.answer, expected, Json.keyed]
      by_cases hhashable : key.hashable = true
      · have hkey : key.asKey.hashable = true := by rw [Json.hashable_asKey, hhashable]
        rw [if_pos hhashable, IdempotencyStore.checkConflict_fst digest payload hkey,
          h key now hhashable hle, Option.any_map]
        rfl
      · have hkey : ¬ key.asKey.hashable = true := by rwa [Json.hashable_asKey]
        rw [if_neg hhashable, IdempotencyStore.checkConflict, if_neg hkey]
  | evictExpired now => rfl

/-- Along a run, the store represents the map. -/
theorem Represents.run {rest : List IdemCall} (h : Represents ttl digest t s calls)
    (hclock : (rest.map IdemCall.now).Pairwise (· ≤ ·)) (hfrom : ∀ c ∈ rest, t ≤ c.now)
    {after : Time} (hafter : ∀ c ∈ rest, c.now ≤ after) (hle : t ≤ after) :
    Represents ttl digest after (Sequential.run (IdemCall.on ttl digest) rest s)
      (calls ++ rest) := by
  induction rest generalizing t s calls with
  | nil =>
      rw [List.append_nil]
      exact fun key now hhashable hnow => h key now hhashable (hle.trans hnow)
  | cons c rest ih =>
      obtain ⟨hlater, hclock⟩ := List.pairwise_cons.mp hclock
      have hstep := h.step (hfrom c List.mem_cons_self)
      have hrest := ih hstep hclock (fun d hd => hlater _ (List.mem_map_of_mem hd))
        (fun d hd => hafter d (List.mem_cons_of_mem _ hd)) (hafter c List.mem_cons_self)
      rw [List.append_assoc] at hrest
      exact hrest

end Represents

/-- A sweep deposits nothing. -/
theorem latest_filter (key : Json) (before : List IdemCall) :
    latest key (before.filter fun c => !c.isSweep) = latest key before := by
  unfold latest
  generalize (none : Option Deposit) = d
  induction before generalizing d with
  | nil => rfl
  | cons c before ih =>
      cases c with
      | evictExpired now => exact ih d
      | set now key' taskId payload result => exact ih _
      | get now key' => exact ih d
      | checkConflict now key' payload => exact ih d

/-- What a call is to answer does not depend on sweeps. -/
theorem expected_filter (ttl : Time) (digest : Json → String) (before : List IdemCall)
    (call : IdemCall) :
    expected ttl digest (before.filter fun c => !c.isSweep) call =
      expected ttl digest before call := by
  cases call with
  | set now key taskId payload result => rfl
  | get now key => simp only [expected, liveDeposit, latest_filter]
  | checkConflict now key payload => simp only [expected, liveDeposit, latest_filter]
  | evictExpired now => rfl

section Answers

variable (ttl : Time) (digest : Json → String) {before after : List IdemCall} {call : IdemCall}

/-- In a run whose clock does not run back, every call answers as expected. -/
theorem answer_run (hclock : ((before ++ call :: after).map IdemCall.now).Pairwise (· ≤ ·)) :
    call.answer digest (Sequential.run (IdemCall.on ttl digest) before .empty) =
      expected ttl digest before call := by
  rw [List.map_append, List.map_cons, List.pairwise_append] at hclock
  obtain ⟨hbefore, -, hcall⟩ := hclock
  obtain ⟨t, ht, hle⟩ : ∃ t, (∀ c ∈ before, t ≤ c.now) ∧ t ≤ call.now := by
    cases before with
    | nil => exact ⟨call.now, fun _ h => absurd h List.not_mem_nil, le_rfl⟩
    | cons c before =>
        refine ⟨c.now, List.forall_mem_cons.mpr ⟨le_rfl, fun d hd => ?_⟩, ?_⟩
        · exact (List.pairwise_cons.mp hbefore).1 _ (List.mem_map_of_mem hd)
        · exact hcall _ List.mem_cons_self _ List.mem_cons_self
  have hrep := (represents_empty ttl digest t).run hbefore ht
    (fun c hc => hcall _ (List.mem_map_of_mem hc) _ List.mem_cons_self) hle
  exact hrep.answer_eq le_rfl

end Answers

/-- **The store refines a map with expiry.**  With a clock that does not run back, every
call answers what the latest `set` of its key and the time since then say, and it would
answer the same if nothing had been swept before. -/
theorem store_expires (ttl : Time) (digest : Json → String) (calls : List IdemCall)
    (hclock : (calls.map IdemCall.now).Pairwise (· ≤ ·)) (before : List IdemCall)
    (call : IdemCall) (after : List IdemCall) (hcalls : calls = before ++ call :: after) :
    call.answer digest (Sequential.run (IdemCall.on ttl digest) before .empty) =
        expected ttl digest before call ∧
      call.answer digest (Sequential.run (IdemCall.on ttl digest)
          (before.filter fun c => !c.isSweep) .empty) =
        call.answer digest (Sequential.run (IdemCall.on ttl digest) before .empty) := by
  subst hcalls
  have hanswer := answer_run ttl digest hclock
  refine ⟨hanswer, ?_⟩
  have hclock' : (((before.filter fun c => !c.isSweep) ++ call :: after).map
      IdemCall.now).Pairwise (· ≤ ·) :=
    hclock.sublist ((List.filter_sublist.append (List.Sublist.refl _)).map _)
  rw [hanswer, ← expected_filter]
  exact answer_run ttl digest hclock'

/-- A deposit is found in its last moment, here under a key that equals its own. -/
theorem store_expires_at_end :
    IdemCall.answer Json.display (.get 10 (.bool true))
        (Sequential.run (IdemCall.on 10 Json.display)
          [.set 0 (.int 1) (.str "a") .null (.str "done"), .evictExpired 10] .empty) =
      .found (.ok (some (.str "a", .str "done"))) :=
  (store_expires 10 Json.display
    [.set 0 (.int 1) (.str "a") .null (.str "done"), .evictExpired 10, .get 10 (.bool true)]
    (by decide) [.set 0 (.int 1) (.str "a") .null (.str "done"), .evictExpired 10]
    (.get 10 (.bool true)) [] rfl).1

end HermesA2A
