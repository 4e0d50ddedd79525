import HermesA2A.RateBudget

/-!
# The advertised delay

A refused client is told to come back after `retry_after` seconds, the quotient of the
window and the number of requests, truncated, plus one.  The delay does not depend on how
empty the bucket is, and it need not: in that time a whole token comes in, and a bucket is
never in debt.

`time.monotonic` is read before the lock is taken, so a call may find a bucket that was
filled at a later reading than its own.  The delay therefore counts from the latest reading
so far, that is, from no later than the answer; where the readings come in the order of
the lock it is the client's own reading.

* `retryAfter_suffices`: who waits as long as told is allowed, whatever the other clients,
  the evictions and the sweeps did in between.
-/

namespace HermesA2A

open TokenBucket RateLimiter

variable {cfg : RateLimitConfig} {client : String} {now t : ℚ} {l : RateLimiter}

/-- In the advertised delay, a token comes in. -/
theorem RateLimitConfig.Sound.one_le_retryAfter_mul (hcfg : cfg.Sound) :
    1 ≤ (cfg.retryAfter : ℚ) * cfg.params.rate := by
  have hrequests : (0 : ℚ) < cfg.requestsPerWindow := Int.cast_pos.mpr hcfg.requests
  have hwindow : (0 : ℚ) < cfg.windowSeconds := Int.cast_pos.mpr hcfg.window
  have hquotient : cfg.windowSeconds < cfg.retryAfter * cfg.requestsPerWindow := by
    unfold RateLimitConfig.retryAfter
    rw [Int.tdiv_eq_ediv_of_nonneg hcfg.window.le]
    exact Int.lt_ediv_add_one_mul_self _ hcfg.requests
  have hlt : (cfg.windowSeconds : ℚ) < cfg.retryAfter * cfg.requestsPerWindow := by
    exact_mod_cast hquotient
  show 1 ≤ (cfg.retryAfter : ℚ) * (cfg.requestsPerWindow / cfg.windowSeconds)
  rw [← mul_div_assoc, le_div_iff₀ hwindow, one_mul]
  exact hlt.le

/-- Other clients, evictions and sweeps take a client's bucket away or leave it as it is. -/
theorem get?_on_of_other (hcfg : cfg.Sound) {call : LimiterCall}
    (hother : call.client? ≠ some client) :
    (call.on cfg l).buckets.get? client = none ∨
      (call.on cfg l).buckets.get? client = l.buckets.get? client := by
  cases call with
  | allow x cost now =>
      have hne : client ≠ x := fun h => hother (congrArg some h.symm)
      simp only [LimiterCall.on]
      rw [get?_allow hcfg.enabled hcfg.dividesByZero_eq, if_neg hne, get?_makeRoom]
      split_ifs
      · exact Or.inl rfl
      · exact Or.inr rfl
  | sweep now =>
      simp only [LimiterCall.on]
      rw [get?_cleanupSweep hcfg.dividesByZero_eq]
      cases l.buckets.get? client with
      | none => exact Or.inl rfl
      | some b =>
          rw [Option.filter_some]
          split_ifs
          · exact Or.inr rfl
          · exact Or.inl rfl

/-- By the time `t`, the client has no debt. -/
def Solvent (cfg : RateLimitConfig) (client : String) (t : ℚ) (l : RateLimiter) : Prop :=
  0 ≤ available cfg.params (l.buckets.get? client) t

theorem solvent_of_none (hcfg : cfg.Sound) (h : l.buckets.get? client = none) :
    Solvent cfg client t l := by
  unfold Solvent
  rw [h]
  exact zero_le_one.trans hcfg.capacity

theorem Solvent.other (hcfg : cfg.Sound) {call : LimiterCall} (h : Solvent cfg client t l)
    (hother : call.client? ≠ some client) : Solvent cfg client t (call.on cfg l) := by
  rcases get?_on_of_other (l := l) hcfg hother with hnone | hsame
  · exact solvent_of_none hcfg hnone
  · unfold Solvent
    rw [hsame]
    exact h

theorem Solvent.allow (hcfg : cfg.Sound) (h : Solvent cfg client t l) (hnow : now ≤ t) :
    Solvent cfg client t (l.allow cfg client 1 now).2 := by
  unfold Solvent
  rw [get?_allow hcfg.enabled hcfg.dividesByZero_eq, if_pos rfl]
  exact available_request_nonneg hcfg.rate_pos.le hcfg.capacity hnow h

/-- **A client is out of debt by its latest reading**, in any run in which its requests cost
one token each. -/
theorem Solvent.run (hcfg : cfg.Sound) {calls : List LimiterCall} (h : Solvent cfg client t l)
    (hown : ∀ cost now, .allow client cost now ∈ calls → cost = 1 ∧ now ≤ t) :
    Solvent cfg client t (Sequential.run (LimiterCall.on cfg) calls l) := by
  induction calls generalizing l with
  | nil => exact h
  | cons call calls ih =>
      refine ih ?_ fun cost now hmem => hown cost now (List.mem_cons_of_mem _ hmem)
      by_cases hother : call.client? = some client
      · cases call with
        | allow x cost now =>
            obtain rfl : x = client := Option.some.inj hother
            obtain ⟨rfl, hnow⟩ := hown cost now List.mem_cons_self
            exact h.allow hcfg hnow
        | sweep now => simp [LimiterCall.client?] at hother
      · exact h.other hcfg hother

/-- **Retry-After is sufficient.**  The client was refused at the reading `now`, and none of
its earlier calls read the clock after `t`.  A request `s` seconds after that is allowed. -/
theorem retryAfter_suffices (hcfg : cfg.Sound) {before between : List LimiterCall}
    {later : ℚ} {s : ℤ} (hnow : now ≤ t)
    (hbefore : ∀ cost now, .allow client cost now ∈ before → cost = 1 ∧ now ≤ t)
    (hrefused : ((Sequential.run (LimiterCall.on cfg) before .new).allow cfg client 1 now).1 =
      .ok (false, s))
    (hbetween : ∀ call ∈ between, call.client? ≠ some client) (hlater : t + s ≤ later) :
    ((Sequential.run (LimiterCall.on cfg) (before ++ .allow client 1 now :: between)
      .new).allow cfg client 1 later).1 = .ok (true, 0) := by
  obtain rfl : cfg.retryAfter = s := by
    rw [allow_answer hcfg.enabled hcfg.dividesByZero_eq] at hrefused
    unfold verdict at hrefused
    split_ifs at hrefused
    · simp at hrefused
    · simpa using hrefused
  have hsolvent : Solvent cfg client t (Sequential.run (LimiterCall.on cfg)
      (before ++ .allow client 1 now :: between) .new) := by
    refine (solvent_of_none hcfg rfl).run hcfg fun cost n hmem => ?_
    rcases List.mem_append.mp hmem with hmem | hmem
    · exact hbefore cost n hmem
    · rcases List.mem_cons.mp hmem with heq | hmem
      · obtain ⟨-, rfl, rfl⟩ := LimiterCall.allow.inj heq
        exact ⟨rfl, hnow⟩
      · exact absurd rfl (hbetween _ hmem)
  have htoken := hcfg.one_le_retryAfter_mul
  have hwait : 1 ≤ (later - t) * cfg.params.rate :=
    htoken.trans (mul_le_mul_of_nonneg_right (by linarith) hcfg.rate_pos.le)
  have hle : t ≤ later := by
    have hpos : 0 < (later - t) * cfg.params.rate := zero_lt_one.trans_le hwait
    linarith [pos_of_mul_pos_left hpos hcfg.rate_pos.le]
  rw [allow_answer hcfg.enabled hcfg.dividesByZero_eq,
    request_of_wait hcfg.rate_pos.le hcfg.capacity hsolvent hle hwait]
  rfl

/-- One request a minute, no bursts. -/
def RateLimitConfig.oneAMinute : RateLimitConfig := ⟨true, 1, 60, 1, 3⟩

/-- Refused after a second, the client is told to wait 61 seconds, and does so while another
client comes and a sweep runs. -/
theorem retryAfter_suffices_waited :
    ((Sequential.run (LimiterCall.on .oneAMinute) [.allow "a" 1 0] .new).allow
        .oneAMinute "a" 1 1).1 = .ok (false, 61) ∧
      ((Sequential.run (LimiterCall.on .oneAMinute)
        ([.allow "a" 1 0] ++ .allow "a" 1 1 :: [.allow "b" 1 10, .sweep 20]) .new).allow
          .oneAMinute "a" 1 62).1 = .ok (true, 0) := by
  have hcfg : RateLimitConfig.oneAMinute.Sound :=
    { enabled := rfl
      requests := by decide
      window := by decide
      capacity := by norm_num [RateLimitConfig.maxTokens, RateLimitConfig.oneAMinute] }
  have hrefused : ((Sequential.run (LimiterCall.on .oneAMinute) [.allow "a" 1 0] .new).allow
      .oneAMinute "a" 1 1).1 = .ok (false, 61) := by decide +kernel
  refine ⟨hrefused, retryAfter_suffices hcfg (t := 1) le_rfl ?_ hrefused ?_ (by norm_num)⟩
  · intro cost now hmem
    obtain ⟨-, rfl, rfl⟩ := LimiterCall.allow.inj (List.mem_singleton.mp hmem)
    exact ⟨rfl, zero_le_one⟩
  · simp [LimiterCall.client?]

end HermesA2A
