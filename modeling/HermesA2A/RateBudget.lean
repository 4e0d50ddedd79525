import HermesA2A.RateLimiter
import Mathlib.Tactic.FieldSimp

/-!
# The budget of a client

A sweep deletes buckets, and a client whose bucket is gone starts with a full one.  It
deletes only what would have been full by then: the staleness threshold is twice the
time that an empty bucket needs.  So a limiter is, for its clients, what is `available`
to each of them from now on (`Alike`), and no sweep changes that.

* `Paced` — unit costs, a clock that does not run back, and no more clients than
  entries.
* `answers_congr` — alike limiters give the same answers, whether they are swept or not.
* `budget_kept` — the budget of every client in every interval, the bounds of every
  bucket, and the harmlessness of every sweep.
-/

namespace HermesA2A

open TokenBucket RateLimiter

/-- A configuration that is enabled and lets a client make a request. -/
structure RateLimitConfig.Sound (cfg : RateLimitConfig) : Prop where
  enabled : cfg.enabled = true
  requests : 0 < cfg.requestsPerWindow
  window : 0 < cfg.windowSeconds
  capacity : 1 ≤ cfg.maxTokens

/-- Requests of cost 1, by no more clients than there are entries, and readings in the
order in which the lock is taken. -/
structure Paced (cfg : RateLimitConfig) (calls : List LimiterCall) : Prop where
  unit : ∀ client cost now, .allow client cost now ∈ calls → cost = 1
  ordered : (calls.map LimiterCall.now).Pairwise (· ≤ ·)
  few : ((calls.filterMap LimiterCall.client?).toFinset.card : ℤ) ≤ cfg.maxEntries

/-- When a client was allowed. -/
def allowedTimes (client : String) (run : List LimiterAnswer) : List ℚ :=
  (run.filter fun answer => answer.client = client ∧ answer.allowed).map LimiterAnswer.now

/-- How often a client was allowed from `a` on, for a time `d`. -/
def allowedIn (client : String) (a d : ℚ) (run : List LimiterAnswer) : ℕ :=
  (allowedTimes client run).countP fun s => a ≤ s ∧ s ≤ a + d

/-! ### What a configuration makes of time -/

section Sound

variable {cfg : RateLimitConfig} (hcfg : cfg.Sound)

include hcfg

theorem RateLimitConfig.Sound.rate_pos : 0 < cfg.params.rate := by
  have hrequests : (0 : ℚ) < cfg.requestsPerWindow := Int.cast_pos.mpr hcfg.requests
  have hwindow : (0 : ℚ) < cfg.windowSeconds := Int.cast_pos.mpr hcfg.window
  exact div_pos hrequests hwindow

theorem RateLimitConfig.Sound.dividesByZero_eq : cfg.dividesByZero = false := by
  have hwindow := hcfg.window.ne'
  have hrequests := hcfg.requests.ne'
  simp [RateLimitConfig.dividesByZero, hwindow, hrequests]

/-- In the burst duration, an empty bucket is filled. -/
theorem RateLimitConfig.Sound.burst_fills : cfg.burstDuration * cfg.params.rate = cfg.maxTokens :=
  div_mul_cancel₀ _ hcfg.rate_pos.ne'

/-- **What a sweep deletes would be full.** -/
theorem RateLimitConfig.Sound.level_of_stale {b : Bucket ℚ} {now : ℚ} (hb : b.Sound cfg.params)
    (hstale : b.lastRefill < now - cfg.burstDuration * 2) :
    b.level cfg.params now = cfg.maxTokens := by
  have hrate := hcfg.rate_pos
  have hlong : cfg.burstDuration * 2 * cfg.params.rate ≤
      (now - b.lastRefill) * cfg.params.rate :=
    mul_le_mul_of_nonneg_right (by linarith) hrate.le
  have hfills := hcfg.burst_fills
  have hcapacity := hcfg.capacity
  have hnonneg := hb.nonneg
  refine min_eq_left ?_
  show cfg.maxTokens ≤ _
  linarith

end Sound

/-! ### The invariant -/

/-- Every bucket is sound, was filled by `t`, and belongs to one of `clients`. -/
structure Kept (cfg : RateLimitConfig) (clients : Finset String) (t : ℚ) (l : RateLimiter) :
    Prop where
  ready : ∀ client, Ready cfg.params (l.buckets.get? client) t
  known : ∀ client ∈ l.buckets, client ∈ clients

section Invariant

variable {cfg : RateLimitConfig} {clients : Finset String} {t now : ℚ} {client : String}
  {l : RateLimiter}

theorem kept_new : Kept cfg clients t .new :=
  ⟨fun _ _ h => (nomatch h), fun _ h => absurd h (OrderedDict.notMem_empty _)⟩

theorem Kept.mono (h : Kept cfg clients t l) (hle : t ≤ now) : Kept cfg clients now l :=
  ⟨fun client => (h.ready client).mono hle, h.known⟩

theorem Kept.not_full (h : Kept cfg clients t l) (hclient : client ∈ clients)
    (hfew : (clients.card : ℤ) ≤ cfg.maxEntries) : l.full cfg client = false :=
  not_full_of_known h.known hclient hfew

variable (hcfg : cfg.Sound)

include hcfg

/-- `allow` keeps the invariant. -/
theorem Kept.allow (h : Kept cfg clients t l) (hle : t ≤ now) (hclient : client ∈ clients)
    (hfew : (clients.card : ℤ) ≤ cfg.maxEntries) :
    Kept cfg clients now (l.allow cfg client 1 now).2 := by
  refine ⟨fun x => ?_, fun x hx => ?_⟩
  · rw [get?_allow_of_not_full hcfg.enabled hcfg.dividesByZero_eq (h.not_full hclient hfew)]
    split_ifs with hx
    · exact (request_spec hcfg.rate_pos.le zero_le_one hcfg.capacity
        ((h.ready client).mono hle)).1
    · exact (h.ready x).mono hle
  · rcases mem_allow hx with rfl | hx
    · exact hclient
    · exact h.known x hx

/-- A sweep keeps the invariant. -/
theorem Kept.sweep (h : Kept cfg clients t l) : Kept cfg clients t (l.cleanupSweep cfg now) := by
  have hget : ∀ {x b}, (l.cleanupSweep cfg now).buckets.get? x = some b →
      l.buckets.get? x = some b := fun hb => by
    rw [get?_cleanupSweep hcfg.dividesByZero_eq] at hb
    exact (Option.filter_eq_some_iff.mp hb).1
  refine ⟨fun x b hb => h.ready x b (hget hb), fun x hx => ?_⟩
  obtain ⟨b, hb⟩ := OrderedDict.mem_iff_exists.mp hx
  exact h.known x (OrderedDict.mem_of_get? (hget hb))

end Invariant

/-! ### What a sweep leaves unchanged -/

/-- From `t` on, both limiters have the same tokens for every client. -/
def Alike (cfg : RateLimitConfig) (t : ℚ) (l l' : RateLimiter) : Prop :=
  ∀ client now, t ≤ now →
    available cfg.params (l.buckets.get? client) now =
      available cfg.params (l'.buckets.get? client) now

section Alike

variable {cfg : RateLimitConfig} {clients : Finset String} {t now : ℚ} {client : String}
  {l l' : RateLimiter} (hcfg : cfg.Sound)

include hcfg

/-- A sweep takes no tokens away and brings none in. -/
theorem alike_sweep (h : Kept cfg clients t l) :
    Alike cfg now (l.cleanupSweep cfg now) l := by
  intro client later hlater
  rw [get?_cleanupSweep hcfg.dividesByZero_eq]
  cases hget : l.buckets.get? client with
  | none => rfl
  | some b =>
      rw [Option.filter_some]
      split_ifs with hkept
      · rfl
      · have hstale : b.lastRefill < now - cfg.burstDuration * 2 := by
          simpa only [Bool.not_eq_true', decide_eq_false_iff_not, not_not] using hkept
        have hfull := hcfg.level_of_stale (h.ready client b hget).1 hstale
        exact (level_eq_capacity_of_le hcfg.rate_pos.le hlater hfull).symm

/-- **Alike limiters answer alike**, and stay alike. -/
theorem Alike.allow (halike : Alike cfg t l l') (hle : t ≤ now)
    (hroom : l.full cfg client = false) (hroom' : l'.full cfg client = false) :
    (l.allow cfg client 1 now).1 = (l'.allow cfg client 1 now).1 ∧
      Alike cfg now (l.allow cfg client 1 now).2 (l'.allow cfg client 1 now).2 := by
  have hsame : request cfg.params (l.buckets.get? client) now 1 =
      request cfg.params (l'.buckets.get? client) now 1 :=
    request_congr hcfg.capacity (halike client now hle)
  constructor
  · rw [allow_answer hcfg.enabled hcfg.dividesByZero_eq,
      allow_answer hcfg.enabled hcfg.dividesByZero_eq, hsame]
  · intro x later hlater
    rw [get?_allow_of_not_full hcfg.enabled hcfg.dividesByZero_eq hroom,
      get?_allow_of_not_full hcfg.enabled hcfg.dividesByZero_eq hroom', hsame]
    split_ifs
    · rfl
    · exact halike x later (hle.trans hlater)

end Alike

/-! ### Whole runs -/

/-- The rest of a paced run, from the time `t` on, by some of `clients`. -/
structure PacedFrom (clients : Finset String) (t : ℚ) (calls : List LimiterCall) : Prop where
  unit : ∀ client cost now, .allow client cost now ∈ calls → cost = 1
  ordered : (calls.map LimiterCall.now).Pairwise (· ≤ ·)
  later : ∀ call ∈ calls, t ≤ call.now
  known : ∀ call ∈ calls, ∀ client ∈ call.client?, client ∈ clients

/-- The requests of a run. -/
def withoutSweeps (calls : List LimiterCall) : List LimiterCall :=
  calls.filter fun call => call.client?.isSome

section Runs

variable {cfg : RateLimitConfig} {clients : Finset String} {t : ℚ} {calls : List LimiterCall}
  {call : LimiterCall} {l l' : RateLimiter}

theorem PacedFrom.tail (h : PacedFrom clients t (call :: calls)) :
    PacedFrom clients call.now calls where
  unit client cost now hmem := h.unit client cost now (List.mem_cons_of_mem _ hmem)
  ordered := (List.pairwise_cons.mp h.ordered).2
  later _ hc := (List.pairwise_cons.mp h.ordered).1 _ (List.mem_map_of_mem hc)
  known c hc := h.known c (List.mem_cons_of_mem _ hc)

/-- From any place on, the run is paced. -/
theorem PacedFrom.suffix {before after : List LimiterCall}
    (h : PacedFrom clients t (before ++ call :: after)) : PacedFrom clients call.now after := by
  induction before generalizing t with
  | nil => exact h.tail
  | cons b before ih => exact ih h.tail

theorem Paced.from_start (h : Paced cfg calls) :
    ∃ t, PacedFrom (calls.filterMap LimiterCall.client?).toFinset t calls := by
  obtain ⟨t, ht⟩ : ∃ t, ∀ call ∈ calls, t ≤ call.now := by
    cases calls with
    | nil => exact ⟨0, fun _ h => absurd h List.not_mem_nil⟩
    | cons call calls =>
        refine ⟨call.now, List.forall_mem_cons.mpr ⟨le_rfl, fun c hc => ?_⟩⟩
        exact (List.pairwise_cons.mp h.ordered).1 _ (List.mem_map_of_mem hc)
  refine ⟨t, h.unit, h.ordered, ht, fun call hcall client hclient => ?_⟩
  exact List.mem_toFinset.mpr (List.mem_filterMap.mpr ⟨call, hcall, hclient⟩)

variable (hcfg : cfg.Sound) (hfew : (clients.card : ℤ) ≤ cfg.maxEntries)

include hcfg hfew

/-- What a call does to the invariant. -/
theorem Kept.on (hl : Kept cfg clients t l) (h : PacedFrom clients t (call :: calls)) :
    Kept cfg clients call.now (call.on cfg l) := by
  have hle : t ≤ call.now := h.later call List.mem_cons_self
  cases call with
  | allow client cost now =>
      obtain rfl := h.unit client cost now List.mem_cons_self
      exact hl.allow hcfg hle (h.known _ List.mem_cons_self client rfl) hfew
  | sweep now => exact (hl.mono hle).sweep hcfg

/-- The invariant holds all the way, and `t` is the last reading. -/
theorem kept_run {after : List LimiterCall} (hl : Kept cfg clients t l)
    (h : PacedFrom clients t (calls ++ call :: after)) :
    Kept cfg clients call.now (Sequential.run (LimiterCall.on cfg) calls l) := by
  induction calls generalizing t l with
  | nil => exact hl.mono (h.later call List.mem_cons_self)
  | cons c calls ih => exact ih (hl.on hcfg hfew h) h.tail

theorem always_kept (hl : Kept cfg clients t l) (h : PacedFrom clients t calls) :
    Sequential.Always (LimiterCall.on cfg) (fun l => ∃ t, Kept cfg clients t l) calls l := by
  induction calls generalizing t l with
  | nil => exact ⟨t, hl⟩
  | cons call calls ih => exact ⟨⟨t, hl⟩, ih (hl.on hcfg hfew h) h.tail⟩

/-- **The answers are those to the requests alone**, given by any limiter that is alike. -/
theorem answers_congr (hl : Kept cfg clients t l) (hl' : Kept cfg clients t l')
    (halike : Alike cfg t l l') (h : PacedFrom clients t calls) :
    answers cfg calls l = answers cfg (withoutSweeps calls) l' := by
  induction calls generalizing t l l' with
  | nil => rfl
  | cons call calls ih =>
      cases call with
      | allow client cost now =>
          obtain rfl := h.unit client cost now List.mem_cons_self
          have hnow : t ≤ now := h.later _ List.mem_cons_self
          have hclient := h.known _ List.mem_cons_self client rfl
          obtain ⟨hanswer, halike⟩ := halike.allow hcfg hnow (hl.not_full hclient hfew)
            (hl'.not_full hclient hfew)
          have hrest := ih (hl.on hcfg hfew h) (hl'.on hcfg hfew h) halike h.tail
          show (_ :: answers cfg calls _ : List LimiterAnswer) = _ :: answers cfg _ _
          rw [hanswer]
          exact congrArg _ hrest
      | sweep now =>
          have hnow : t ≤ now := h.later _ List.mem_cons_self
          refine ih (hl.on hcfg hfew h) (hl'.mono hnow) (fun x later hlater => ?_) h.tail
          exact (alike_sweep hcfg hl x later hlater).trans (halike x later (hnow.trans hlater))

/-- **A sweep changes no later answer.** -/
theorem answers_after_sweep {before after : List LimiterCall} {now : ℚ}
    (hl : Kept cfg clients t l) (h : PacedFrom clients t (before ++ .sweep now :: after)) :
    answers cfg after ((Sequential.run (LimiterCall.on cfg) before l).cleanupSweep cfg now) =
      answers cfg after (Sequential.run (LimiterCall.on cfg) before l) := by
  have hbefore : Kept cfg clients now (Sequential.run (LimiterCall.on cfg) before l) :=
    kept_run hcfg hfew hl h
  have hafter : PacedFrom clients now after := h.suffix
  rw [answers_congr hcfg hfew (hbefore.sweep hcfg) hbefore
      (alike_sweep hcfg hbefore) hafter,
    answers_congr hcfg hfew hbefore hbefore (fun _ _ _ => rfl) hafter]

end Runs

/-! ### The budget -/

/-- When a client makes its requests. -/
def requestTimes (client : String) (calls : List LimiterCall) : List ℚ :=
  (calls.filter fun call => call.client? = some client).map LimiterCall.now

theorem allowedTimes_cons (client : String) (a : LimiterAnswer) (run : List LimiterAnswer) :
    allowedTimes client (a :: run) =
      if a.client = client ∧ a.allowed = true then a.now :: allowedTimes client run
      else allowedTimes client run := by
  unfold allowedTimes
  rw [List.filter_cons]
  simp only [decide_eq_true_eq]
  split_ifs <;> rfl

theorem requestTimes_allow (client x : String) (cost now : ℚ) (calls : List LimiterCall) :
    requestTimes client (.allow x cost now :: calls) =
      if x = client then now :: requestTimes client calls else requestTimes client calls := by
  unfold requestTimes
  rw [List.filter_cons]
  simp only [LimiterCall.client?, Option.some.injEq, decide_eq_true_eq]
  split_ifs <;> rfl

section Budget

variable {cfg : RateLimitConfig} {clients : Finset String} {t : ℚ} {calls : List LimiterCall}
  {l : RateLimiter} (hcfg : cfg.Sound) (hfew : (clients.card : ℤ) ≤ cfg.maxEntries)

include hcfg hfew

/-- **A client is served as by a bucket of its own**, one that is never deleted. -/
theorem allowedTimes_answers (client : String) {o : Option (Bucket ℚ)} (hl : Kept cfg clients t l)
    (halike : ∀ now, t ≤ now →
      available cfg.params (l.buckets.get? client) now = available cfg.params o now)
    (h : PacedFrom clients t calls) :
    allowedTimes client (answers cfg calls l) =
      granted cfg.params 1 o (requestTimes client calls) := by
  induction calls generalizing t l o with
  | nil => rfl
  | cons call calls ih =>
      have hl' := hl.on hcfg hfew h
      cases call with
      | allow x cost now =>
          obtain rfl := h.unit x cost now List.mem_cons_self
          have hnow : t ≤ now := h.later _ List.mem_cons_self
          have hroom := hl.not_full (h.known _ List.mem_cons_self x rfl) hfew
          have hanswer : (l.allow cfg x 1 now).1 =
              verdict cfg (request cfg.params (l.buckets.get? x) now 1).1 :=
            allow_answer hcfg.enabled hcfg.dividesByZero_eq
          have hget : ∀ y, (l.allow cfg x 1 now).2.buckets.get? y =
              if y = x then some (request cfg.params (l.buckets.get? x) now 1).2
              else l.buckets.get? y := fun y =>
            get?_allow_of_not_full hcfg.enabled hcfg.dividesByZero_eq hroom
          show allowedTimes client (_ :: answers cfg calls (l.allow cfg x 1 now).2) = _
          rw [allowedTimes_cons, requestTimes_allow]
          by_cases hx : x = client
          -- its own request: the bucket apart is charged as the one in the table
          · subst hx
            have hsame := request_congr hcfg.capacity (halike now hnow)
            rw [hsame] at hanswer hget
            have hrest := ih (o := some (request cfg.params o now 1).2) hl' (fun later _ => by
              show available _ ((l.allow cfg x 1 now).2.buckets.get? x) later = _
              rw [hget, if_pos rfl]) h.tail
            have hallowed : (⟨x, now, (l.allow cfg x 1 now).1⟩ : LimiterAnswer).allowed =
                (request cfg.params o now 1).1 := by
              unfold LimiterAnswer.allowed verdict at *
              rw [hanswer]
              cases (request cfg.params o now 1).1 <;> rfl
            rw [hallowed, if_pos rfl, granted]
            by_cases hok : (request cfg.params o now 1).1 = true
            · rw [if_pos ⟨rfl, hok⟩, if_pos hok]
              exact congrArg _ hrest
            · rw [if_neg (fun h => hok h.2), if_neg hok]
              exact hrest
          -- somebody else's: there is room for both, so nothing is evicted
          · rw [if_neg (fun h => hx h.1), if_neg hx]
            refine ih hl' (fun later hlater => ?_) h.tail
            show available _ ((l.allow cfg x 1 now).2.buckets.get? client) later = _
            rw [hget, if_neg (Ne.symm hx)]
            exact halike later (hnow.trans hlater)
      | sweep now =>
          have hnow : t ≤ now := h.later _ List.mem_cons_self
          refine ih hl' (fun later hlater => ?_) h.tail
          exact (alike_sweep hcfg hl client later hlater).trans
            (halike later (hnow.trans hlater))

end Budget

/-- **No client exceeds its budget.**  In a paced run, every client is allowed at most
`B + d * r / w` requests in every interval of length `d`, every bucket holds between 0 and
`B` tokens all the way, and no sweep changes what is answered after it. -/
theorem budget_kept {cfg : RateLimitConfig} (hcfg : cfg.Sound) {calls : List LimiterCall}
    (h : Paced cfg calls) :
    (∀ client a d, 0 ≤ d → (allowedIn client a d (answers cfg calls .new) : ℚ) ≤
        cfg.maxTokens + d * cfg.refillRate) ∧
      Sequential.Always (LimiterCall.on cfg)
        (fun l => ∀ client, ∀ b ∈ l.buckets.get? client,
          0 ≤ b.tokens ∧ b.tokens ≤ cfg.maxTokens) calls .new ∧
      ∀ before now after, calls = before ++ .sweep now :: after →
        answers cfg after ((Sequential.run (LimiterCall.on cfg) before .new).cleanupSweep cfg now) =
          answers cfg after (Sequential.run (LimiterCall.on cfg) before .new) := by
  obtain ⟨t, hfrom⟩ := h.from_start
  refine ⟨fun client a d hd => ?_, ?_, ?_⟩
  · have hserved := allowedTimes_answers hcfg h.few client (o := none) kept_new
      (fun _ _ => rfl) hfrom
    have hsorted : (requestTimes client calls).Pairwise (· ≤ ·) :=
      h.ordered.sublist ((List.filter_sublist).map _)
    have hbudget := cost_mul_countP_le (p := cfg.params) (o := none) (a := a)
      hcfg.rate_pos.le zero_le_one hcfg.capacity hd hsorted (fun _ _ _ hb => nomatch hb)
    rw [one_mul, ← hserved] at hbudget
    exact hbudget
  · refine (Sequential.always_iff).mpr fun before after heq client b hb => ?_
    obtain ⟨s, hkept⟩ := (Sequential.always_iff).mp
      (always_kept hcfg h.few kept_new hfrom) before after heq
    exact ⟨(hkept.ready client b hb).1.nonneg, (hkept.ready client b hb).1.le_capacity⟩
  · rintro before now after rfl
    exact answers_after_sweep hcfg h.few kept_new hfrom

theorem RateLimitConfig.sample_sound : RateLimitConfig.sample.Sound where
  enabled := rfl
  requests := by decide
  window := by decide
  capacity := by norm_num [RateLimitConfig.maxTokens, RateLimitConfig.sample]

/-- It is so for a client that comes back after its bucket was swept away. -/
theorem budget_kept_swept :
    Paced .sample [.allow "a" 1 0, .sweep 1000, .allow "a" 1 1000] ∧
      (allowedIn "a" 0 5
          (answers .sample [.allow "a" 1 0, .sweep 1000, .allow "a" 1 1000] .new) : ℚ) ≤
        RateLimitConfig.sample.maxTokens + 5 * RateLimitConfig.sample.refillRate := by
  have hpaced : Paced .sample [.allow "a" 1 0, .sweep 1000, .allow "a" 1 1000] :=
    { unit := by
        rintro client cost now h
        simp only [List.mem_cons, LimiterCall.allow.injEq, reduceCtorEq, List.not_mem_nil,
          or_false, false_or] at h
        rcases h with ⟨-, rfl, -⟩ | ⟨-, rfl, -⟩ <;> rfl
      ordered := by norm_num [LimiterCall.now]
      few := by decide }
  exact ⟨hpaced, (budget_kept RateLimitConfig.sample_sound hpaced).1 "a" 0 5 (by norm_num)⟩

end HermesA2A
