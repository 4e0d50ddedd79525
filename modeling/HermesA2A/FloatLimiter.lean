import HermesA2A.Lib.OrderedDict
import HermesA2A.Lib.Sequential
import HermesA2A.Json
import HermesA2A.RateSettings

/-!
# The rate limiter, with its exceptions

`RateLimiter` computes with rational numbers what the limiter grants.  Here the limiter
computes with the floats Python has, and so whatever can raise in `allow` and in
`_cleanup_sweep` does: the conversion of an integer that is too large, a division by zero, a
key that is not there.

* `allow_returns_iff`: a call of `allow` returns exactly if the requests and the window of the
  settings are neither zero nor too large for a float (`RateSettings.Workable`).
* `cleanupSweep_returns`: then a sweep returns too; the rate, which it divides by, is not
  rounded to zero.
* `limiter_total_iff`: so much the settings must meet, and no more, for all calls of all runs
  to return.

`allow` and `_cleanup_sweep` raise before they take the lock, if at all, and leave the table as
it is.
-/

namespace HermesA2A

open Sequential

/-! ### Python's arithmetic -/

/-- `a / b` for integers: the quotient, rounded once. -/
def trueDiv (a b : ℤ) : Except PyError Double :=
  if b = 0 then .error .zeroDivisionError
  else
    match Double.round (a / b) with
    | .inf _ => .error .overflowError
    | x => .ok x

/-- `x / y` for floats -/
def floatDiv (x y : Double) : Except PyError Double :=
  match x.div? y with
  | some z => .ok z
  | none => .error .zeroDivisionError

/-- `min(x, y)` -/
def pyMin (x y : Double) : Double := if y.lt x then y else x

/-! ### The limiter -/

/-- A bucket: `tokens` and `last_refill`. -/
structure FloatBucket where
  tokens : Double
  lastRefill : Double

/-- `RateLimiter` -/
structure FloatLimiter where
  buckets : OrderedDict String FloatBucket
  requestsAllowed : ℕ
  requestsBlocked : ℕ

/-- What `allow` computes from the settings before it takes the lock. -/
structure Quota where
  maxTokens : Double
  refillRate : Double
  retryAfter : ℤ

namespace RateSettings

variable (cfg : RateSettings)

/-- `max_tokens`, `refill_rate` and `retry_after` -/
def quota : Except PyError Quota := do
  let maxTokens := (← floatOf cfg.requestsPerWindow).mul cfg.burstMultiplier
  let refillRate ← floatDiv (← floatOf cfg.requestsPerWindow) (← floatOf cfg.windowSeconds)
  let retryAfter := (← intOf (← trueDiv cfg.windowSeconds cfg.requestsPerWindow)) + 1
  return ⟨maxTokens, refillRate, retryAfter⟩

/-- `burst_duration` -/
def burstDuration : Except PyError Double := do
  let capacity := (← floatOf cfg.requestsPerWindow).mul cfg.burstMultiplier
  floatDiv capacity (← trueDiv cfg.requestsPerWindow cfg.windowSeconds)

/-- The requests and the window are neither zero nor too large for a float. -/
structure Workable : Prop where
  requests_ne : cfg.requestsPerWindow ≠ 0
  window_ne : cfg.windowSeconds ≠ 0
  requests_lt : |cfg.requestsPerWindow| < Double.overflowBound
  window_lt : |cfg.windowSeconds| < Double.overflowBound

end RateSettings

namespace FloatLimiter

/-- `RateLimiter(config)` -/
def new : FloatLimiter := ⟨.empty, 0, 0⟩

/-- `del buckets[key]` -/
def delete (buckets : OrderedDict String FloatBucket) (key : String) :
    Except PyError (OrderedDict String FloatBucket) :=
  if key ∈ buckets then .ok (buckets.erase key) else .error .keyError

/-- `del buckets[key]` for each of the keys -/
def deleteAll (buckets : OrderedDict String FloatBucket) :
    List String → Except PyError (OrderedDict String FloatBucket)
  | [] => .ok buckets
  | key :: keys => do deleteAll (← delete buckets key) keys

/-- `min(buckets.keys(), key=…)`: the first with the smallest `last_refill`. -/
def oldestKey (first : String × FloatBucket) (others : List (String × FloatBucket)) : String :=
  (others.foldl (fun oldest e => if e.2.lastRefill.lt oldest.2.lastRefill then e else oldest)
    first).1

/-- `_evict_oldest` -/
def evictOldest (l : FloatLimiter) : Except PyError FloatLimiter :=
  match l.buckets.entries with
  | [] => .ok l
  | first :: others => do
      return { l with buckets := ← delete l.buckets (oldestKey first others) }

/-- Make room, if need be. -/
def makeRoom (cfg : RateSettings) (client : String) (l : FloatLimiter) :
    Except PyError FloatLimiter :=
  if client ∉ l.buckets ∧ (l.buckets.length : ℤ) ≥ cfg.maxEntries then l.evictOldest else .ok l

/-- What `allow` does under the lock. -/
def serve (cfg : RateSettings) (quota : Quota) (client : String) (cost now : Double)
    (l : FloatLimiter) : Except PyError ((Bool × ℤ) × FloatLimiter) := do
  let l ← l.makeRoom cfg client
  match l.buckets.get? client with
  | none =>
      return ((true, 0),
        { l with
          buckets := l.buckets.set client ⟨quota.maxTokens.sub cost, now⟩
          requestsAllowed := l.requestsAllowed + 1 })
  | some bucket =>
      let elapsed := now.sub bucket.lastRefill
      let tokens := pyMin quota.maxTokens (bucket.tokens.add (elapsed.mul quota.refillRate))
      if cost.le tokens then
        return ((true, 0),
          { l with
            buckets := l.buckets.set client ⟨tokens.sub cost, now⟩
            requestsAllowed := l.requestsAllowed + 1 })
      else
        return ((false, quota.retryAfter),
          { l with
            buckets := l.buckets.set client ⟨tokens, now⟩
            requestsBlocked := l.requestsBlocked + 1 })

/-- `allow` -/
def allow (cfg : RateSettings) (client : String) (cost now : Double) (l : FloatLimiter) :
    Except PyError ((Bool × ℤ) × FloatLimiter) :=
  if ¬cfg.enabled then .ok ((true, 0), { l with requestsAllowed := l.requestsAllowed + 1 })
  else do serve cfg (← cfg.quota) client cost now l

/-- `_cleanup_sweep` -/
def cleanupSweep (cfg : RateSettings) (now : Double) (l : FloatLimiter) :
    Except PyError FloatLimiter := do
  let threshold := now.sub ((← cfg.burstDuration).mul (.round 2))
  let stale := (l.buckets.entries.filter fun e => e.2.lastRefill.lt threshold).map Prod.fst
  return { l with buckets := ← deleteAll l.buckets stale }

end FloatLimiter

/-- A computation returns if its steps do. -/
theorem exists_bind_ok {α β : Type} {x : Except PyError α} {f : α → Except PyError β} {a : α}
    (hx : x = .ok a) (hf : ∃ b, f a = .ok b) : ∃ b, x >>= f = .ok b := by
  rw [hx]
  exact hf

/-! ### What the arithmetic does -/

section Arithmetic

variable {a b n : ℤ}

theorem abs_intCast_lt_iff : |(n : ℚ)| < Double.overflowBound ↔ |n| < Double.overflowBound := by
  rw [← Int.cast_abs, Int.cast_lt]

/-- **An integer is converted exactly if it is not too large.** -/
theorem floatOf_returns_iff : (∃ x, floatOf n = .ok x) ↔ |n| < Double.overflowBound := by
  rw [← abs_intCast_lt_iff]
  constructor
  · rintro ⟨x, hx⟩
    by_contra hlarge
    rw [floatOf, Double.round_eq_inf_iff.mpr (not_lt.mp hlarge)] at hx
    cases hx
  · intro hsmall
    obtain ⟨hrep, hround⟩ := Double.round_of_lt hsmall
    rw [floatOf, hround]
    exact ⟨_, rfl⟩

theorem eq_of_floatOf {x : Double} (h : floatOf n = .ok x) : x = .round n := by
  unfold floatOf at h
  split at h
  · cases h
  · exact (Except.ok.inj h).symm

/-- An integer is rounded to zero only if it is zero. -/
theorem isZero_round_intCast : (Double.round n).isZero = true ↔ n = 0 := by
  rw [Double.isZero_round_iff]
  constructor
  · intro hsmall
    by_contra hne
    have hone : (1 : ℚ) ≤ |(n : ℚ)| := by
      exact_mod_cast Int.one_le_abs hne
    have hlt : (2 : ℚ) ^ (-1075 : ℤ) < 1 := zpow_lt_one_of_neg₀ (by norm_num) (by norm_num)
    linarith
  · rintro rfl
    rw [Int.cast_zero, abs_zero]
    exact (zpow_pos (by norm_num) _).le

/-- A division of floats raises exactly if it is by zero. -/
theorem floatDiv_returns_iff {x y : Double} : (∃ z, floatDiv x y = .ok z) ↔ y.isZero = false := by
  unfold floatDiv Double.div?
  cases y.isZero with
  | false => exact iff_of_true ⟨_, rfl⟩ rfl
  | true => exact iff_of_false (fun ⟨_, h⟩ => nomatch h) Bool.noConfusion

/-- The quotient of an integer that is not too large is a number. -/
theorem trueDiv_of_lt (hb : b ≠ 0) (ha : |a| < Double.overflowBound) :
    ∃ hrep, trueDiv a b = .ok (.finite (Binary64.nearest (a / b)) hrep) ∧
      Double.round (a / b) = .finite (Binary64.nearest (a / b)) hrep := by
  have hquotient : |(a / b : ℚ)| < Double.overflowBound := by
    have hone : (1 : ℚ) ≤ |(b : ℚ)| := by
      exact_mod_cast Int.one_le_abs hb
    rw [abs_div]
    exact (div_le_self (abs_nonneg _) hone).trans_lt (abs_intCast_lt_iff.mpr ha)
  obtain ⟨hrep, hround⟩ := Double.round_of_lt hquotient
  refine ⟨hrep, ?_, hround⟩
  rw [trueDiv, if_neg hb, hround]

theorem ne_of_trueDiv {x : Double} (h : trueDiv a b = .ok x) : b ≠ 0 := by
  rintro rfl
  rw [trueDiv, if_pos rfl] at h
  cases h

end Arithmetic

/-! ### The settings -/

namespace RateSettings

variable {cfg : RateSettings}

/-- **What `allow` computes before it takes the lock is defined** exactly for workable
settings. -/
theorem quota_returns_iff : (∃ quota, cfg.quota = .ok quota) ↔ cfg.Workable := by
  constructor
  · rintro ⟨quota, h⟩
    unfold RateSettings.quota at h
    obtain ⟨requests, hrequests, h⟩ := exists_of_bind_ok h
    obtain ⟨dividend, -, h⟩ := exists_of_bind_ok h
    obtain ⟨window, hwindow, h⟩ := exists_of_bind_ok h
    obtain ⟨rate, hrate, h⟩ := exists_of_bind_ok h
    obtain ⟨quotient, hquotient, -⟩ := exists_of_bind_ok h
    have hzero := floatDiv_returns_iff.mp ⟨rate, hrate⟩
    rw [eq_of_floatOf hwindow] at hzero
    refine ⟨ne_of_trueDiv hquotient, ?_, floatOf_returns_iff.mp ⟨_, hrequests⟩,
      floatOf_returns_iff.mp ⟨_, hwindow⟩⟩
    intro hw
    rw [isZero_round_intCast.mpr hw] at hzero
    cases hzero
  · intro hwork
    obtain ⟨requests, hrequests⟩ := floatOf_returns_iff.mpr hwork.requests_lt
    obtain ⟨window, hwindow⟩ := floatOf_returns_iff.mpr hwork.window_lt
    have hzero : window.isZero = false := by
      rw [eq_of_floatOf hwindow, Bool.eq_false_iff]
      exact fun h => hwork.window_ne (isZero_round_intCast.mp h)
    obtain ⟨rate, hrate⟩ := (floatDiv_returns_iff (x := requests)).mpr hzero
    obtain ⟨hrep, hquotient, -⟩ := trueDiv_of_lt hwork.requests_ne hwork.window_lt
    refine exists_bind_ok hrequests (exists_bind_ok hrequests (exists_bind_ok hwindow ?_))
    exact exists_bind_ok hrate (exists_bind_ok hquotient ⟨_, rfl⟩)

/-- The rate of workable settings is not rounded to zero. -/
theorem Workable.rate_ne_zero (h : cfg.Workable) :
    (Double.round (cfg.requestsPerWindow / cfg.windowSeconds)).isZero = false := by
  rw [Bool.eq_false_iff, ne_eq, Double.isZero_round_iff, abs_div, not_le]
  have hpos : (0 : ℚ) < |(cfg.windowSeconds : ℚ)| := by
    rw [abs_pos, Int.cast_ne_zero]
    exact h.window_ne
  have hone : (1 : ℚ) ≤ |(cfg.requestsPerWindow : ℚ)| := by
    exact_mod_cast Int.one_le_abs h.requests_ne
  have hbound : |(cfg.windowSeconds : ℚ)| < 2 ^ (1024 : ℤ) := by
    refine (abs_intCast_lt_iff.mpr h.window_lt).trans_le ?_
    rw [Double.overflowBound_cast]
    exact sub_le_self _ (zpow_pos (by norm_num) _).le
  have hsplit : (2 : ℚ) ^ (-1075 : ℤ) * 2 ^ (1024 : ℤ) < 1 := by
    rw [← zpow_add₀ (by norm_num)]
    exact zpow_lt_one_of_neg₀ (by norm_num) (by norm_num)
  rw [lt_div_iff₀ hpos]
  calc
    (2 : ℚ) ^ (-1075 : ℤ) * |(cfg.windowSeconds : ℚ)| ≤ 2 ^ (-1075 : ℤ) * 2 ^ (1024 : ℤ) :=
      mul_le_mul_of_nonneg_left hbound.le (zpow_pos (by norm_num) _).le
    _ < 1 := hsplit
    _ ≤ |(cfg.requestsPerWindow : ℚ)| := hone

/-- **What `_cleanup_sweep` computes before it takes the lock is defined** for workable
settings. -/
theorem Workable.burstDuration_returns (h : cfg.Workable) :
    ∃ duration, cfg.burstDuration = .ok duration := by
  obtain ⟨requests, hrequests⟩ := floatOf_returns_iff.mpr h.requests_lt
  obtain ⟨hrep, hquotient, hround⟩ := trueDiv_of_lt h.window_ne h.requests_lt
  have hzero := h.rate_ne_zero
  rw [hround] at hzero
  obtain ⟨duration, hduration⟩ :=
    (floatDiv_returns_iff (x := requests.mul cfg.burstMultiplier)).mpr hzero
  exact exists_bind_ok hrequests (exists_bind_ok hquotient ⟨duration, hduration⟩)

end RateSettings

/-! ### The table -/

namespace FloatLimiter

variable {cfg : RateSettings} {client : String} {cost now : Double} {l : FloatLimiter}

/-- Keys that are in the table can all be deleted, if no key is there twice. -/
theorem deleteAll_returns {keys : List String} {buckets : OrderedDict String FloatBucket}
    (hmem : ∀ key ∈ keys, key ∈ buckets) (hnodup : keys.Nodup) :
    ∃ left, deleteAll buckets keys = .ok left := by
  induction keys generalizing buckets with
  | nil => exact ⟨buckets, rfl⟩
  | cons key keys ih =>
      obtain ⟨hkey, hrest⟩ := List.nodup_cons.mp hnodup
      have hdelete : delete buckets key = .ok (buckets.erase key) :=
        if_pos (hmem key List.mem_cons_self)
      refine exists_bind_ok hdelete (ih (fun other hother => ?_) hrest)
      rw [OrderedDict.mem_erase_iff]
      refine ⟨?_, hmem other (List.mem_cons_of_mem key hother)⟩
      rintro rfl
      exact hkey hother

/-- The bucket that was filled longest ago is one of the table. -/
theorem oldestKey_mem (first : String × FloatBucket) (others : List (String × FloatBucket)) :
    oldestKey first others ∈ (first :: others).map Prod.fst := by
  unfold oldestKey
  apply List.mem_map_of_mem
  induction others generalizing first with
  | nil => exact List.mem_cons_self
  | cons e others ih =>
      rw [List.foldl_cons]
      split_ifs with h
      · exact List.mem_cons_of_mem first (ih e)
      · rcases List.mem_cons.mp (ih first) with heq | hmem
        · rw [heq]
          exact List.mem_cons_self
        · exact List.mem_cons_of_mem first (List.mem_cons_of_mem e hmem)

theorem evictOldest_returns : ∃ l', l.evictOldest = .ok l' := by
  unfold evictOldest
  cases hentries : l.buckets.entries with
  | nil => exact ⟨l, rfl⟩
  | cons first others =>
      have hmem : oldestKey first others ∈ l.buckets := by
        have hkey := oldestKey_mem first others
        rw [← hentries] at hkey
        exact hkey
      have hdelete : delete l.buckets (oldestKey first others) =
          .ok (l.buckets.erase (oldestKey first others)) := if_pos hmem
      exact exists_bind_ok hdelete ⟨_, rfl⟩

/-- Nothing that is done under the lock raises. -/
theorem serve_returns (quota : Quota) :
    ∃ answer, l.serve cfg quota client cost now = .ok answer := by
  have hroom : ∃ l', l.makeRoom cfg client = .ok l' := by
    unfold makeRoom
    split_ifs
    · exact evictOldest_returns
    · exact ⟨l, rfl⟩
  obtain ⟨room, hroom⟩ := hroom
  refine exists_bind_ok hroom ?_
  cases room.buckets.get? client with
  | none => exact ⟨_, rfl⟩
  | some bucket =>
      dsimp only
      split_ifs
      · exact ⟨_, rfl⟩
      · exact ⟨_, rfl⟩

/-- **A call of `allow` returns exactly if the settings are workable**, unless the limiter is
off. -/
theorem allow_returns_iff (henabled : cfg.enabled = true) :
    (∃ answer, l.allow cfg client cost now = .ok answer) ↔ cfg.Workable := by
  rw [← RateSettings.quota_returns_iff]
  unfold allow
  rw [if_neg (not_not_intro henabled)]
  constructor
  · rintro ⟨answer, h⟩
    obtain ⟨quota, hquota, -⟩ := exists_of_bind_ok h
    exact ⟨quota, hquota⟩
  · rintro ⟨quota, hquota⟩
    exact exists_bind_ok hquota (serve_returns quota)

/-- **A sweep returns**, if the settings are workable. -/
theorem cleanupSweep_returns (h : cfg.Workable) : ∃ l', l.cleanupSweep cfg now = .ok l' := by
  obtain ⟨duration, hduration⟩ := h.burstDuration_returns
  refine exists_bind_ok hduration ?_
  -- the keys to delete are keys of the table, each once
  have hstale (p : String × FloatBucket → Bool) :
      ∃ left, deleteAll l.buckets ((l.buckets.entries.filter p).map Prod.fst) = .ok left := by
    have hsub : ((l.buckets.entries.filter p).map Prod.fst).Sublist l.buckets.keys :=
      List.filter_sublist.map Prod.fst
    exact deleteAll_returns (fun key hkey => hsub.subset hkey) (l.buckets.nodup_keys.sublist hsub)
  obtain ⟨left, hleft⟩ := hstale fun e =>
    e.2.lastRefill.lt (now.sub (duration.mul (.round 2)))
  exact exists_bind_ok hleft ⟨_, rfl⟩

end FloatLimiter

/-! ### Runs -/

/-- What the server and the cleanup thread do to the limiter. -/
inductive FloatCall
  | allow (client : String) (cost now : Double)
  | sweep (now : Double)

namespace FloatCall

/-- What a call does; one that raises changes nothing. -/
def on (cfg : RateSettings) : FloatCall → FloatLimiter → FloatLimiter
  | allow client cost now, l =>
      match l.allow cfg client cost now with
      | .ok answer => answer.2
      | .error _ => l
  | sweep now, l =>
      match l.cleanupSweep cfg now with
      | .ok l => l
      | .error _ => l

/-- A call returns. -/
def Returns (cfg : RateSettings) : FloatCall → FloatLimiter → Prop
  | allow client cost now, l => ∃ answer, l.allow cfg client cost now = .ok answer
  | sweep now, l => ∃ l', l.cleanupSweep cfg now = .ok l'

end FloatCall

/-- Workable settings make every call return, in every state. -/
theorem returns_of_workable {cfg : RateSettings} (henabled : cfg.enabled = true)
    (h : cfg.Workable) (call : FloatCall) (l : FloatLimiter) : call.Returns cfg l := by
  cases call with
  | allow client cost now => exact (FloatLimiter.allow_returns_iff henabled).mpr h
  | sweep now => exact FloatLimiter.cleanupSweep_returns h

/-- **The limiter is total exactly for workable settings**: all calls of all runs return if the
requests and the window are neither zero nor too large for a float, and otherwise the first
request raises.  The burst, the interval and the cap may be anything. -/
theorem limiter_total_iff {cfg : RateSettings} (henabled : cfg.enabled = true) :
    (∀ calls, Each (FloatCall.on cfg) (FloatCall.Returns cfg) calls .new) ↔ cfg.Workable := by
  constructor
  · intro h
    have hfirst := (h [.allow "client" (.round 1) (.round 0)]).1
    exact (FloatLimiter.allow_returns_iff henabled).mp hfirst
  · intro h calls
    generalize FloatLimiter.new = l
    induction calls generalizing l with
    | nil => trivial
    | cons call calls ih => exact ⟨returns_of_workable henabled h call l, ih _⟩

/-- With the default settings, switched on, two requests and a sweep return. -/
theorem limiter_total_sample :
    Each (FloatCall.on .sample) (FloatCall.Returns .sample)
      [.allow "a" (.round 1) (.round 0), .allow "a" (.round 1) (.round 5), .sweep (.round 900)]
      .new := by
  have hwork : RateSettings.sample.Workable :=
    ⟨by decide, by decide, by decide +kernel, by decide +kernel⟩
  have hiff : (∀ calls, Each (FloatCall.on .sample) (FloatCall.Returns .sample) calls .new) ↔
      RateSettings.sample.Workable := limiter_total_iff rfl
  exact hiff.mpr hwork _

/-- An environment that switches the limiter on and allows no requests. -/
def noRequests (name : String) : Option String :=
  if name = "A2A_RATE_LIMIT_ENABLED" then some "1"
  else if name = "A2A_RATE_LIMIT_REQUESTS" then some "0"
  else none

/-- **Zero requests are accepted, and then every request raises.** -/
theorem limiter_divides_by_zero :
    loadRateLimitConfigFromEnv noRequests = .ok { RateSettings.sample with requestsPerWindow := 0 } ∧
      (FloatLimiter.new.allow { RateSettings.sample with requestsPerWindow := 0 } "a" (.round 1)
        (.round 0)).map Prod.fst = .error .zeroDivisionError ∧
      ¬ Each (FloatCall.on { RateSettings.sample with requestsPerWindow := 0 })
        (FloatCall.Returns { RateSettings.sample with requestsPerWindow := 0 })
        [.allow "a" (.round 1) (.round 0)] .new := by
  have hraises : (FloatLimiter.new.allow { RateSettings.sample with requestsPerWindow := 0 } "a"
      (.round 1) (.round 0)).map Prod.fst = .error .zeroDivisionError := by decide +kernel
  refine ⟨by decide +kernel, hraises, ?_⟩
  rintro ⟨⟨answer, h⟩, -⟩
  rw [h] at hraises
  cases hraises

end HermesA2A
