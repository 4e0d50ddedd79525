import HermesA2A.Lib.OrderedDict
import HermesA2A.Lib.Sequential
import HermesA2A.Lib.TokenBucket
import Mathlib.Data.Finset.Card
import Mathlib.Data.List.MinMax

/-!
# The rate limiter

`RateLimiter`: a token bucket for each client id, in a table with a cap.  `allow`
makes room in a full table before it adds a client, by forgetting the bucket that was
filled longest ago; `_cleanup_sweep` forgets the buckets nobody has used for twice the
time it takes to fill one.

Tokens and clock readings are rational numbers.  `time.monotonic` is read before the
lock is taken, so a reading is an argument, and the order of the operations is the
order in which they take the lock.
-/

namespace HermesA2A

open TokenBucket

/-- `RateLimitConfig`, with the fields the limiter reads. -/
structure RateLimitConfig where
  enabled : Bool
  requestsPerWindow : ℤ
  windowSeconds : ℤ
  burstMultiplier : ℚ
  maxEntries : ℤ

namespace RateLimitConfig

variable (cfg : RateLimitConfig)

/-- `max_tokens` -/
def maxTokens : ℚ := cfg.requestsPerWindow * cfg.burstMultiplier

/-- `refill_rate` -/
def refillRate : ℚ := cfg.requestsPerWindow / cfg.windowSeconds

/-- `retry_after` -/
def retryAfter : ℤ := Int.tdiv cfg.windowSeconds cfg.requestsPerWindow + 1

/-- `burst_duration` -/
def burstDuration : ℚ := cfg.requestsPerWindow * cfg.burstMultiplier / cfg.refillRate

/-- One of the divisions is by zero. -/
def dividesByZero : Bool := cfg.windowSeconds = 0 ∨ cfg.requestsPerWindow = 0

/-- The buckets of this configuration. -/
def params : Params ℚ := ⟨cfg.maxTokens, cfg.refillRate⟩

/-- Twenty requests at once, ten a minute, for up to three clients. -/
def sample : RateLimitConfig := ⟨true, 10, 60, 2, 3⟩

end RateLimitConfig

/-- `ZeroDivisionError` -/
inductive LimiterError
  | zeroDivision
  deriving DecidableEq

/-- `RateLimiter` -/
structure RateLimiter where
  buckets : OrderedDict String (Bucket ℚ)
  requestsAllowed : ℕ
  requestsBlocked : ℕ

namespace RateLimiter

/-- `RateLimiter(config)` -/
def new : RateLimiter := ⟨.empty, 0, 0⟩

/-- The key that `_evict_oldest` deletes. -/
def oldest? (l : RateLimiter) : Option String :=
  (l.buckets.entries.argmin fun e => e.2.lastRefill).map Prod.fst

/-- `_evict_oldest` -/
def evictOldest (l : RateLimiter) : RateLimiter :=
  match l.oldest? with
  | none => l
  | some key => { l with buckets := l.buckets.erase key }

/-- Does a call of this client have to make room? -/
def full (cfg : RateLimitConfig) (client : String) (l : RateLimiter) : Bool :=
  client ∉ l.buckets ∧ (l.buckets.length : ℤ) ≥ cfg.maxEntries

/-- Make room, if need be. -/
def makeRoom (cfg : RateLimitConfig) (client : String) (l : RateLimiter) : RateLimiter :=
  if l.full cfg client then l.evictOldest else l

/-- `allow` -/
def allow (cfg : RateLimitConfig) (client : String) (cost now : ℚ) (l : RateLimiter) :
    Except LimiterError (Bool × ℤ) × RateLimiter :=
  if ¬ cfg.enabled then (.ok (true, 0), { l with requestsAllowed := l.requestsAllowed + 1 })
  else if cfg.dividesByZero then (.error .zeroDivision, l)
  else
    let l := l.makeRoom cfg client
    match l.buckets.get? client with
    | none =>
        (.ok (true, 0),
          { l with
            buckets := l.buckets.set client ⟨cfg.maxTokens - cost, now⟩
            requestsAllowed := l.requestsAllowed + 1 })
    | some bucket =>
        let elapsed := now - bucket.lastRefill
        let tokens := min cfg.maxTokens (bucket.tokens + elapsed * cfg.refillRate)
        if tokens ≥ cost then
          (.ok (true, 0),
            { l with
              buckets := l.buckets.set client ⟨tokens - cost, now⟩
              requestsAllowed := l.requestsAllowed + 1 })
        else
          (.ok (false, cfg.retryAfter),
            { l with
              buckets := l.buckets.set client ⟨tokens, now⟩
              requestsBlocked := l.requestsBlocked + 1 })

/-- `_cleanup_sweep` -/
def cleanupSweep (cfg : RateLimitConfig) (now : ℚ) (l : RateLimiter) : RateLimiter :=
  if cfg.dividesByZero then l
  else
    let threshold := now - cfg.burstDuration * 2
    let stale := l.buckets.entries.filter fun e => e.2.lastRefill < threshold
    { l with buckets := stale.foldl (fun buckets e => buckets.erase e.1) l.buckets }

/-! ### What the operations do to one client's bucket -/

section Lookup

variable {cfg : RateLimitConfig} {client x : String} {cost now : ℚ} {l : RateLimiter}

/-- What `allow` answers to a request that a bucket grants or not. -/
def verdict (cfg : RateLimitConfig) (granted : Bool) : Except LimiterError (Bool × ℤ) :=
  .ok (if granted then (true, 0) else (false, cfg.retryAfter))

/-- **A call of `allow` is a request to the client's bucket**, after room was made. -/
theorem allow_eq (henabled : cfg.enabled = true) (hzero : cfg.dividesByZero = false) :
    (l.allow cfg client cost now).1 =
        verdict cfg (request cfg.params ((l.makeRoom cfg client).buckets.get? client) now cost).1 ∧
      (l.allow cfg client cost now).2.buckets =
        (l.makeRoom cfg client).buckets.set client
          (request cfg.params ((l.makeRoom cfg client).buckets.get? client) now cost).2 := by
  unfold allow
  rw [if_neg (by simp [henabled]), if_neg (by simp [hzero])]
  dsimp only
  cases (l.makeRoom cfg client).buckets.get? client with
  | none => exact ⟨rfl, rfl⟩
  | some bucket =>
      have hlevel : min cfg.maxTokens
          (bucket.tokens + (now - bucket.lastRefill) * cfg.refillRate) =
            bucket.level cfg.params now := rfl
      simp only [request, hlevel, ge_iff_le]
      split_ifs
      · exact ⟨rfl, rfl⟩
      · exact ⟨rfl, rfl⟩

theorem makeRoom_of_not_full (h : l.full cfg client = false) : l.makeRoom cfg client = l := by
  rw [makeRoom, h]
  rfl

/-- Making room takes away one bucket at most, and never the caller's. -/
theorem get?_makeRoom : (l.makeRoom cfg client).buckets.get? x =
    if l.full cfg client = true ∧ l.oldest? = some x then none else l.buckets.get? x := by
  unfold makeRoom
  by_cases hfull : l.full cfg client = true
  · rw [if_pos hfull]
    unfold evictOldest
    split
    · rename_i hnone
      rw [hnone, if_neg (by simp)]
    · rename_i key hkey
      rw [hkey, OrderedDict.get?_erase]
      simp only [hfull, true_and, Option.some.injEq, eq_comm]
  · rw [if_neg hfull, if_neg (fun h => hfull h.1)]

theorem get?_makeRoom_self : (l.makeRoom cfg client).buckets.get? client =
    l.buckets.get? client := by
  rw [get?_makeRoom]
  split_ifs with h
  · have hmem : client ∉ l.buckets := by
      have hfull := h.1
      simp only [full, Bool.decide_and, Bool.and_eq_true, decide_eq_true_eq] at hfull
      exact hfull.1
    exact (OrderedDict.get?_eq_none_iff.mpr hmem).symm
  · rfl

/-- **What `allow` answers** is up to the caller's bucket. -/
theorem allow_answer (henabled : cfg.enabled = true) (hzero : cfg.dividesByZero = false) :
    (l.allow cfg client cost now).1 =
      verdict cfg (request cfg.params (l.buckets.get? client) now cost).1 := by
  rw [(allow_eq henabled hzero).1, get?_makeRoom_self]

/-- What `allow` does to the bucket of any client. -/
theorem get?_allow (henabled : cfg.enabled = true) (hzero : cfg.dividesByZero = false) :
    (l.allow cfg client cost now).2.buckets.get? x =
      if x = client then some (request cfg.params (l.buckets.get? client) now cost).2
      else (l.makeRoom cfg client).buckets.get? x := by
  rw [(allow_eq henabled hzero).2, OrderedDict.get?_set, get?_makeRoom_self]

/-- Where there is room for the caller, nobody else's bucket changes. -/
theorem get?_allow_of_not_full (henabled : cfg.enabled = true) (hzero : cfg.dividesByZero = false)
    (hroom : l.full cfg client = false) :
    (l.allow cfg client cost now).2.buckets.get? x =
      if x = client then some (request cfg.params (l.buckets.get? client) now cost).2
      else l.buckets.get? x := by
  rw [get?_allow henabled hzero, makeRoom_of_not_full hroom]

/-- A sweep forgets the buckets that were filled before the threshold. -/
theorem get?_cleanupSweep (hzero : cfg.dividesByZero = false) :
    (l.cleanupSweep cfg now).buckets.get? x =
      (l.buckets.get? x).filter fun b =>
        !decide (b.lastRefill < now - cfg.burstDuration * 2) := by
  unfold cleanupSweep
  rw [if_neg (by simp [hzero])]
  exact OrderedDict.get?_eraseAll ..

/-- Nobody gets a bucket but the caller. -/
theorem mem_allow (h : x ∈ (l.allow cfg client cost now).2.buckets) :
    x = client ∨ x ∈ l.buckets := by
  by_cases henabled : cfg.enabled = true
  · by_cases hzero : cfg.dividesByZero = true
    · rw [allow, if_neg (by simp [henabled]), if_pos hzero] at h
      exact Or.inr h
    · obtain ⟨b, hb⟩ := OrderedDict.mem_iff_exists.mp h
      rw [get?_allow henabled (Bool.eq_false_iff.mpr hzero), get?_makeRoom] at hb
      split_ifs at hb with hx
      · exact Or.inl hx
      · exact Or.inr (OrderedDict.mem_of_get? hb)
  · rw [allow, if_pos henabled] at h
    exact Or.inr h

/-- There is room for a client, if there is for all that may have a bucket. -/
theorem not_full_of_known {clients : Finset String} (hknown : ∀ x ∈ l.buckets, x ∈ clients)
    (hclient : client ∈ clients) (hfew : (clients.card : ℤ) ≤ cfg.maxEntries) :
    l.full cfg client = false := by
  by_cases hmem : client ∈ l.buckets
  · simp [full, hmem]
  · have hlt : l.buckets.keys.toFinset.card < clients.card := by
      apply Finset.card_lt_card
      refine ⟨fun x hx => hknown x (List.mem_toFinset.mp hx), fun hsub => hmem ?_⟩
      exact List.mem_toFinset.mp (hsub hclient)
    have hlen : l.buckets.keys.toFinset.card = l.buckets.length :=
      (List.toFinset_card_of_nodup l.buckets.nodup_keys).trans (List.length_map _)
    have hroom : ¬ (l.buckets.length : ℤ) ≥ cfg.maxEntries := by omega
    simp [full, hroom]

end Lookup

end RateLimiter

/-! ### Runs -/

/-- What the server and the cleanup thread do to the limiter. -/
inductive LimiterCall
  | allow (client : String) (cost now : ℚ)
  | sweep (now : ℚ)
  deriving DecidableEq

namespace LimiterCall

/-- What a call does. -/
def on (cfg : RateLimitConfig) : LimiterCall → RateLimiter → RateLimiter
  | allow client cost now, l => (l.allow cfg client cost now).2
  | sweep now, l => l.cleanupSweep cfg now

/-- The reading of the clock. -/
def now : LimiterCall → ℚ
  | allow _ _ now => now
  | sweep now => now

/-- Whose request it is. -/
def client? : LimiterCall → Option String
  | allow client _ _ => some client
  | sweep _ => none

end LimiterCall

/-- An answer of `allow`: to whom, when, and what. -/
structure LimiterAnswer where
  client : String
  now : ℚ
  result : Except LimiterError (Bool × ℤ)

/-- Was the request allowed? -/
def LimiterAnswer.allowed (a : LimiterAnswer) : Bool :=
  match a.result with
  | .ok (allowed, _) => allowed
  | .error _ => false

/-- The answers of a run. -/
def answers (cfg : RateLimitConfig) : List LimiterCall → RateLimiter → List LimiterAnswer
  | [], _ => []
  | .allow client cost now :: calls, l =>
      ⟨client, now, (l.allow cfg client cost now).1⟩ ::
        answers cfg calls (l.allow cfg client cost now).2
  | .sweep now :: calls, l => answers cfg calls (l.cleanupSweep cfg now)

end HermesA2A
