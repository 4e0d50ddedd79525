import Mathlib.Algebra.Order.Field.Basic
import Mathlib.Tactic.Linarith
import Mathlib.Tactic.Ring

/-!
# Token buckets

A bucket holds up to `capacity` tokens and fills at `rate` tokens per unit of time.
It is filled when it is looked at: `level` is what there is at a later time, and a
request takes its cost out of that, or leaves it as it is.

A client that has no bucket yet is given a full one.  So the absence of a bucket and a
full bucket are the same thing, as long as a full bucket suffices for the request
(`request_eq`): what is observable is `available`, the number of tokens at a time.

* `request_congr` — equal tokens, equal outcome and equal bucket.
* `cost_mul_countP_le` — **the budget**: in a time interval of length `d`, no more is
  granted than `capacity + d * rate`.
* `request_of_wait` — **waiting pays**: a client that waits as long as its cost takes to
  come in is granted, also where the clock was read out of order before.
-/

namespace TokenBucket

/-- How far a bucket fills, and how fast. -/
structure Params (K : Type*) where
  capacity : K
  rate : K

/-- A bucket, as it was left when it was last filled. -/
structure Bucket (K : Type*) where
  tokens : K
  lastRefill : K
  deriving DecidableEq

variable {K : Type*} [Field K] [LinearOrder K]

/-- The tokens of a bucket at a time. -/
def Bucket.level (p : Params K) (b : Bucket K) (now : K) : K :=
  min p.capacity (b.tokens + (now - b.lastRefill) * p.rate)

/-- The tokens there are to take from. -/
def available (p : Params K) (o : Option (Bucket K)) (now : K) : K :=
  match o with
  | none => p.capacity
  | some b => b.level p now

/-- A request: is it granted, and which bucket does it leave? -/
def request (p : Params K) (o : Option (Bucket K)) (now cost : K) : Bool × Bucket K :=
  match o with
  | none => (true, ⟨p.capacity - cost, now⟩)
  | some b =>
      if cost ≤ b.level p now then (true, ⟨b.level p now - cost, now⟩)
      else (false, ⟨b.level p now, now⟩)

/-- The times at which requests of one cost are granted. -/
def granted (p : Params K) (cost : K) : Option (Bucket K) → List K → List K
  | _, [] => []
  | o, now :: times =>
      if (request p o now cost).1 then
        now :: granted p cost (some (request p o now cost).2) times
      else granted p cost (some (request p o now cost).2) times

/-! ### What a request depends on -/

section Request

variable {p : Params K} {o o' : Option (Bucket K)} {b : Bucket K} {now cost : K}

/-- A request that a full bucket suffices for sees the tokens, and not whether there is a
bucket. -/
theorem request_eq (hcost : cost ≤ p.capacity) :
    request p o now cost =
      if cost ≤ available p o now then (true, ⟨available p o now - cost, now⟩)
      else (false, ⟨available p o now, now⟩) := by
  cases o with
  | none => exact (if_pos hcost).symm
  | some b => rfl

/-- **Equal tokens, equal outcome.** -/
theorem request_congr (hcost : cost ≤ p.capacity)
    (h : available p o now = available p o' now) :
    request p o now cost = request p o' now cost := by
  rw [request_eq hcost, request_eq hcost, h]

@[simp] theorem lastRefill_request : (request p o now cost).2.lastRefill = now := by
  unfold request
  split
  · rfl
  · split_ifs <;> rfl

/-- Only what was asked for is granted. -/
theorem granted_sublist (p : Params K) (cost : K) (o : Option (Bucket K)) (times : List K) :
    (granted p cost o times).Sublist times := by
  induction times generalizing o with
  | nil => exact List.Sublist.refl _
  | cons now times ih =>
      rw [granted]
      split_ifs
      · exact (ih _).cons_cons now
      · exact (ih _).cons now

/-- Nothing is granted before the first request. -/
theorem countP_granted_eq_zero {times : List K} {e : K} (h : ∀ s ∈ times, e < s) :
    (granted p cost o times).countP (· ≤ e) = 0 := by
  rw [List.countP_eq_zero]
  intro s hs
  simpa using h s ((granted_sublist p cost o times).subset hs)

end Request

/-! ### Filling -/

/-- A bucket with no debt, and no more than it can hold. -/
structure Bucket.Sound (p : Params K) (b : Bucket K) : Prop where
  nonneg : 0 ≤ b.tokens
  le_capacity : b.tokens ≤ p.capacity

/-- What there is of a client's bucket is sound, and was filled by `t`. -/
def Ready (p : Params K) (o : Option (Bucket K)) (t : K) : Prop :=
  ∀ b ∈ o, b.Sound p ∧ b.lastRefill ≤ t

section Filling

variable {p : Params K} {o : Option (Bucket K)} {b : Bucket K} {s t now cost : K}

theorem level_self (hle : b.tokens ≤ p.capacity) : b.level p b.lastRefill = b.tokens := by
  unfold Bucket.level
  rw [sub_self, zero_mul, add_zero, min_eq_right hle]

theorem level_le_capacity : b.level p now ≤ p.capacity := min_le_left _ _

theorem available_le_capacity : available p o now ≤ p.capacity := by
  cases o with
  | none => exact le_rfl
  | some b => exact level_le_capacity

theorem Ready.mono (h : Ready p o s) (hle : s ≤ t) : Ready p o t :=
  fun b hb => ⟨(h b hb).1, (h b hb).2.trans hle⟩

variable [IsStrictOrderedRing K]

theorem tokens_le_level (hrate : 0 ≤ p.rate) (hb : b.Sound p) (h : b.lastRefill ≤ now) :
    b.tokens ≤ b.level p now := by
  have hfill : 0 ≤ (now - b.lastRefill) * p.rate := mul_nonneg (sub_nonneg.mpr h) hrate
  exact le_min hb.le_capacity (by linarith)

theorem level_nonneg (hrate : 0 ≤ p.rate) (hb : b.Sound p) (h : b.lastRefill ≤ now) :
    0 ≤ b.level p now := hb.nonneg.trans (tokens_le_level hrate hb h)

/-- In a stretch of time, no more comes in than the rate allows. -/
theorem level_le_add (hrate : 0 ≤ p.rate) (h : s ≤ t) :
    b.level p t ≤ b.level p s + (t - s) * p.rate := by
  have hfill : 0 ≤ (t - s) * p.rate := mul_nonneg (sub_nonneg.mpr h) hrate
  have hsplit : b.tokens + (t - b.lastRefill) * p.rate =
      b.tokens + (s - b.lastRefill) * p.rate + (t - s) * p.rate := by ring
  unfold Bucket.level
  rw [hsplit, ← min_add_add_right]
  exact min_le_min_right _ (by linarith)

/-- A bucket that is full stays full until it is taken from. -/
theorem level_eq_capacity_of_le (hrate : 0 ≤ p.rate) (h : s ≤ t)
    (hfull : b.level p s = p.capacity) : b.level p t = p.capacity := by
  have hmono : (s - b.lastRefill) * p.rate ≤ (t - b.lastRefill) * p.rate :=
    mul_le_mul_of_nonneg_right (by linarith) hrate
  have henough : p.capacity ≤ b.tokens + (s - b.lastRefill) * p.rate := min_eq_left_iff.mp hfull
  exact min_eq_left (by linarith)

theorem available_le_add (hrate : 0 ≤ p.rate) (h : s ≤ t) :
    available p o t ≤ available p o s + (t - s) * p.rate := by
  cases o with
  | none => exact le_add_of_nonneg_right (mul_nonneg (sub_nonneg.mpr h) hrate)
  | some b => exact level_le_add hrate h

end Filling

/-! ### The budget -/

section Budget

variable [IsStrictOrderedRing K] {p : Params K} {o : Option (Bucket K)} {cost : K}

theorem Ready.available_nonneg {t : K} (hrate : 0 ≤ p.rate) (hcapacity : 0 ≤ p.capacity)
    (h : Ready p o t) : 0 ≤ available p o t := by
  cases o with
  | none => exact hcapacity
  | some b => exact level_nonneg hrate (h b rfl).1 (h b rfl).2

/-- **A request leaves a sound bucket**, and takes out of it what it is granted. -/
theorem request_spec {now : K} (hrate : 0 ≤ p.rate) (hcost : 0 ≤ cost)
    (hcapacity : cost ≤ p.capacity) (h : Ready p o now) :
    Ready p (some (request p o now cost).2) now ∧
      (request p o now cost).2.tokens =
        available p o now - if (request p o now cost).1 then cost else 0 := by
  have hnonneg := h.available_nonneg hrate (hcost.trans hcapacity)
  have hle : available p o now ≤ p.capacity := available_le_capacity
  rw [request_eq hcapacity]
  by_cases hgranted : cost ≤ available p o now
  · simp only [if_pos hgranted, if_true]
    refine ⟨?_, trivial⟩
    rintro b ⟨⟩
    exact ⟨⟨sub_nonneg.mpr hgranted, by dsimp only; linarith⟩, le_rfl⟩
  · simp only [if_neg hgranted, Bool.false_eq_true, if_false, sub_zero]
    refine ⟨?_, trivial⟩
    rintro b ⟨⟩
    exact ⟨⟨hnonneg, hle⟩, le_rfl⟩

/-- What a request leaves is there at the time of the request. -/
theorem available_request {now : K} (hrate : 0 ≤ p.rate) (hcost : 0 ≤ cost)
    (hcapacity : cost ≤ p.capacity) (h : Ready p o now) :
    available p (some (request p o now cost).2) now =
      available p o now - if (request p o now cost).1 then cost else 0 := by
  obtain ⟨hready, htokens⟩ := request_spec hrate hcost hcapacity h
  have hself := level_self (hready _ rfl).1.le_capacity
  rw [lastRefill_request] at hself
  rw [← htokens]
  exact hself

/-- The potential argument: what is granted up to `e` comes out of what there was at `t`
and what has come in since. -/
theorem cost_mul_countP_le_available (hrate : 0 ≤ p.rate) (hcost : 0 ≤ cost)
    (hcapacity : cost ≤ p.capacity) {times : List K} {t e : K} (hte : t ≤ e)
    (hsorted : times.Pairwise (· ≤ ·)) (hfrom : ∀ s ∈ times, t ≤ s) (h : Ready p o t) :
    cost * ((granted p cost o times).countP (· ≤ e) : K) ≤ available p o t + (e - t) * p.rate := by
  induction times generalizing o t with
  | nil =>
      have hnonneg := h.available_nonneg hrate (hcost.trans hcapacity)
      have hfill : 0 ≤ (e - t) * p.rate := mul_nonneg (sub_nonneg.mpr hte) hrate
      simp only [granted, List.countP_nil, Nat.cast_zero, mul_zero]
      linarith
  | cons now times ih =>
      obtain ⟨hlater, hsorted⟩ := List.pairwise_cons.mp hsorted
      have hnow : t ≤ now := hfrom now List.mem_cons_self
      have hready := h.mono hnow
      have hstep := available_request hrate hcost hcapacity hready
      obtain ⟨hready', -⟩ := request_spec hrate hcost hcapacity hready
      have hin : available p o now ≤ available p o t + (now - t) * p.rate :=
        available_le_add hrate hnow
      by_cases hend : now ≤ e
      · have hrest := ih hend hsorted hlater hready'
        rw [hstep] at hrest
        rw [granted]
        split_ifs at hrest ⊢ with hok
        · rw [List.countP_cons_of_pos (by simpa using hend), Nat.cast_add, Nat.cast_one]
          linarith
        · linarith
      · -- nothing that comes later counts
        have hzero : (granted p cost o (now :: times)).countP (· ≤ e) = 0 :=
          countP_granted_eq_zero <| List.forall_mem_cons.mpr
            ⟨not_le.mp hend, fun s hs => (not_le.mp hend).trans_le (hlater s hs)⟩
        have hnonneg := h.available_nonneg hrate (hcost.trans hcapacity)
        have hfill : 0 ≤ (e - t) * p.rate := mul_nonneg (sub_nonneg.mpr hte) hrate
        rw [hzero, Nat.cast_zero, mul_zero]
        linarith

/-- **The budget.** -/
theorem cost_mul_countP_le (hrate : 0 ≤ p.rate) (hcost : 0 ≤ cost) (hcapacity : cost ≤ p.capacity)
    {times : List K} {a d : K} (hd : 0 ≤ d) (hsorted : times.Pairwise (· ≤ ·))
    (h : ∀ s ∈ times, Ready p o s) :
    cost * ((granted p cost o times).countP fun s => a ≤ s ∧ s ≤ a + d : K) ≤
      p.capacity + d * p.rate := by
  induction times generalizing o with
  | nil =>
      have hfill : 0 ≤ d * p.rate := mul_nonneg hd hrate
      simp only [granted, List.countP_nil, Nat.cast_zero, mul_zero]
      linarith
  | cons now times ih =>
      obtain ⟨hlater, hsorted'⟩ := List.pairwise_cons.mp hsorted
      have hready : Ready p o now := h now List.mem_cons_self
      obtain ⟨hready', -⟩ := request_spec hrate hcost hcapacity hready
      by_cases hstart : now < a
      · -- the interval has not begun
        have hrest := ih (o := some (request p o now cost).2) hsorted'
          fun s hs => hready'.mono (hlater s hs)
        rw [granted]
        split_ifs
        · rw [List.countP_cons_of_neg (by simp [not_le.mpr hstart])]
          exact hrest
        · exact hrest
      · -- the interval has begun: what there is now, and what comes in until its end
        have hsub : (granted p cost o (now :: times)).countP (fun s => a ≤ s ∧ s ≤ a + d) ≤
            (granted p cost o (now :: times)).countP (· ≤ a + d) :=
          List.countP_mono_left fun s _ hs => by
            simp only [decide_eq_true_eq] at hs ⊢
            exact hs.2
        have hcount : (((granted p cost o (now :: times)).countP
            (fun s => a ≤ s ∧ s ≤ a + d) : ℕ) : K) ≤
              ((granted p cost o (now :: times)).countP (· ≤ a + d) : ℕ) :=
          Nat.cast_le.mpr hsub
        have hmul := mul_le_mul_of_nonneg_left hcount hcost
        by_cases hend : now ≤ a + d
        · have hall : ∀ s ∈ now :: times, now ≤ s := List.forall_mem_cons.mpr ⟨le_rfl, hlater⟩
          have hpotential := cost_mul_countP_le_available hrate hcost hcapacity hend hsorted hall
            hready
          have hcap : available p o now ≤ p.capacity := available_le_capacity
          have hshort : (a + d - now) * p.rate ≤ d * p.rate :=
            mul_le_mul_of_nonneg_right (by linarith) hrate
          linarith
        · have hzero : (granted p cost o (now :: times)).countP (· ≤ a + d) = 0 :=
            countP_granted_eq_zero <| List.forall_mem_cons.mpr
              ⟨not_le.mp hend, fun s hs => (not_le.mp hend).trans_le (hlater s hs)⟩
          have hfill : 0 ≤ d * p.rate := mul_nonneg hd hrate
          rw [hzero, Nat.cast_zero, mul_zero] at hmul
          linarith

end Budget

/-! ### Waiting -/

section Waiting

variable [IsStrictOrderedRing K] {p : Params K} {o : Option (Bucket K)} {b : Bucket K}
  {now t later cost : K}

/-- What a bucket is filled to now makes no difference to what it holds later. -/
theorem level_level (hrate : 0 ≤ p.rate) (h : now ≤ t) :
    (⟨b.level p now, now⟩ : Bucket K).level p t = b.level p t := by
  have hfill : 0 ≤ (t - now) * p.rate := mul_nonneg (sub_nonneg.mpr h) hrate
  have hsplit : b.tokens + (t - b.lastRefill) * p.rate =
      b.tokens + (now - b.lastRefill) * p.rate + (t - now) * p.rate := by ring
  show min p.capacity (min p.capacity (b.tokens + (now - b.lastRefill) * p.rate) +
    (t - now) * p.rate) = min p.capacity (b.tokens + (t - b.lastRefill) * p.rate)
  rw [hsplit, ← min_add_add_right, ← min_assoc, min_eq_left (le_add_of_nonneg_right hfill)]

/-- **No debt at the latest reading.**  A request may be dated back, and find the bucket in
debt then; at a time that is not before any reading it is not. -/
theorem available_request_nonneg (hrate : 0 ≤ p.rate) (hcapacity : cost ≤ p.capacity)
    (hnow : now ≤ t) (h : 0 ≤ available p o t) :
    0 ≤ available p (some (request p o now cost).2) t := by
  have hfill : 0 ≤ (t - now) * p.rate := mul_nonneg (sub_nonneg.mpr hnow) hrate
  have hcap : 0 ≤ p.capacity := h.trans available_le_capacity
  have hcharged : ∀ x : K, cost ≤ x → 0 ≤ (⟨x - cost, now⟩ : Bucket K).level p t :=
    fun x hx => le_min hcap (add_nonneg (sub_nonneg.mpr hx) hfill)
  cases o with
  | none => exact hcharged _ hcapacity
  | some b =>
      unfold request
      dsimp only
      split_ifs with hgranted
      · exact hcharged _ hgranted
      · exact h.trans_eq (level_level hrate hnow).symm

/-- What has come in since. -/
theorem min_add_le_available (hrate : 0 ≤ p.rate) (h : t ≤ later) :
    min p.capacity (available p o t + (later - t) * p.rate) ≤ available p o later := by
  have hfill : 0 ≤ (later - t) * p.rate := mul_nonneg (sub_nonneg.mpr h) hrate
  cases o with
  | none => exact min_le_left _ _
  | some b =>
      have hsplit : b.tokens + (later - b.lastRefill) * p.rate =
          b.tokens + (t - b.lastRefill) * p.rate + (later - t) * p.rate := by ring
      refine le_min (min_le_left _ _) ((min_le_right _ _).trans ?_)
      rw [hsplit]
      exact add_le_add_left (min_le_right _ _) _

/-- **Waiting pays.** -/
theorem request_of_wait (hrate : 0 ≤ p.rate) (hcapacity : cost ≤ p.capacity)
    (h : 0 ≤ available p o t) (hle : t ≤ later) (hwait : cost ≤ (later - t) * p.rate) :
    (request p o later cost).1 = true := by
  have henough : cost ≤ available p o later :=
    (le_min hcapacity (by linarith)).trans (min_add_le_available hrate hle)
  rw [request_eq hcapacity, if_pos henough]

end Waiting

end TokenBucket
