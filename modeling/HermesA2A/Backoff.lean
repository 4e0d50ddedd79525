import HermesA2A.Json
import HermesA2A.Lib.Retry
import HermesA2A.RateSettings

/-!
# Doubling delays

Between two attempts the code sleeps for `base * 2 ** attempt` seconds.  It is Python that can
refuse: the product of a float and an integer that no float can hold raises, and `time.sleep`
raises for what is negative, not a number, or more nanoseconds than 63 bits can count.

* `eq_doubled`: what is slept is the base, doubled for every attempt.
* `value_doubled`: and it is so exactly, since nothing is rounded where nothing overflows.
-/

namespace HermesA2A

/-- An `int` or a `float`. -/
inductive PyNumber
  | int (n : ℤ)
  | float (x : Double)
  deriving DecidableEq

instance : Inhabited PyNumber := ⟨.int 0⟩

namespace PyNumber

/-- The number, unless it is infinite or none. -/
def value? : PyNumber → Option ℚ
  | int n => some n
  | float (.finite q _) => some q
  | float _ => none

/-- `base * 2 ** attempt`, as if `2 ** attempt` were a float. -/
def doubled : PyNumber → ℕ → PyNumber
  | int n, attempt => int (n * 2 ^ attempt)
  | float x, attempt => float (x.mul (.round (2 ^ attempt)))

end PyNumber

/-- `base * (2 ** attempt)` -/
def backoff (base : PyNumber) (attempt : ℕ) : Except PyError PyNumber :=
  match base with
  | .int n => .ok (.int (n * 2 ^ attempt))
  | .float x => do
      let factor ← floatOf (2 ^ attempt)
      return .float (x.mul factor)

/-- The nanoseconds of a time in seconds, rounded away from zero. -/
def nanoseconds : PyNumber → Except PyError ℤ
  | .int n => .ok (n * 10 ^ 9)
  | .float x =>
      match x.mul (.round (10 ^ 9)) with
      | .finite q _ => .ok (if 0 ≤ q then ⌈q⌉ else ⌊q⌋)
      | .inf _ => .error .overflowError
      | .nan => .error .valueError

/-- `time.sleep`: what it raises. -/
def sleepFor (seconds : PyNumber) : Except PyError Unit := do
  let ns ← nanoseconds seconds
  if ns < -2 ^ 63 ∨ 2 ^ 63 ≤ ns then throw .overflowError
  else if ns < 0 then throw .valueError

/-- The delay after a failed attempt, when it was slept. -/
def pauseAfter (base : PyNumber) (attempt : ℕ) : Except PyError PyNumber := do
  let delay ← backoff base attempt
  sleepFor delay
  return delay

/-! ### What is slept -/

section Pause

variable {base d : PyNumber} {attempt : ℕ}

theorem eq_doubled_of_backoff (h : backoff base attempt = .ok d) : d = base.doubled attempt := by
  cases base with
  | int n => exact (Except.ok.inj h).symm
  | float x =>
      obtain ⟨factor, hfactor, hd⟩ := exists_of_bind_ok h
      obtain rfl := Except.ok.inj hd
      unfold floatOf at hfactor
      push_cast at hfactor
      split at hfactor
      · cases hfactor
      · rw [← Except.ok.inj hfactor]
        rfl

/-- **A delay is the base, doubled for every attempt.** -/
theorem eq_doubled (h : pauseAfter base attempt = .ok d) : d = base.doubled attempt := by
  obtain ⟨delay, hdelay, h⟩ := exists_of_bind_ok h
  obtain ⟨-, -, hd⟩ := exists_of_bind_ok h
  obtain rfl := Except.ok.inj hd
  exact eq_doubled_of_backoff hdelay

/-- A float that is slept is a number. -/
theorem exists_of_sleepFor {x : Double} (h : sleepFor (.float x) = .ok ()) :
    ∃ q hq, x = .finite q hq := by
  obtain ⟨ns, hns, -⟩ := exists_of_bind_ok h
  unfold nanoseconds at hns
  dsimp only at hns
  split at hns
  · rename_i q hq hproduct
    exact Double.exists_of_mul_eq_finite hproduct
  · cases hns
  · cases hns

/-- The power of two is a float. -/
theorem lt_of_floatOf_two_pow {factor : Double} (h : floatOf (2 ^ attempt) = .ok factor) :
    attempt < 1024 := by
  by_contra hlarge
  have hle : (2 : ℚ) ^ (1024 : ℕ) ≤ 2 ^ attempt :=
    pow_le_pow_right₀ (by norm_num) (not_lt.mp hlarge)
  have hbound : (Double.overflowBound : ℚ) ≤ |((2 ^ attempt : ℤ) : ℚ)| := by
    rw [Double.overflowBound_cast, Int.cast_pow, Int.cast_ofNat, abs_of_pos (by positivity)]
    exact (sub_le_self _ (zpow_pos (by norm_num) 970).le).trans hle
  unfold floatOf at h
  rw [Double.round_eq_inf_iff.mpr hbound] at h
  cases h

/-- **It is so exactly**: the delay is as many seconds as the base, times the power of two. -/
theorem value_doubled (h : pauseAfter base attempt = .ok d) :
    ∃ q, base.value? = some q ∧ d.value? = some (q * 2 ^ attempt) := by
  have hd := eq_doubled h
  obtain ⟨delay, hdelay, h⟩ := exists_of_bind_ok h
  obtain ⟨⟨⟩, hsleep, hslept⟩ := exists_of_bind_ok h
  obtain rfl := Except.ok.inj hslept
  cases base with
  | int n =>
      refine ⟨n, rfl, ?_⟩
      rw [hd]
      simp [PyNumber.doubled, PyNumber.value?]
  | float x =>
      obtain ⟨factor, hfactor, -⟩ := exists_of_bind_ok hdelay
      rw [hd] at hsleep ⊢
      obtain ⟨r, hr, hproduct⟩ := exists_of_sleepFor hsleep
      obtain ⟨q, hq, rfl, rfl⟩ := Double.mul_two_pow (lt_of_floatOf_two_pow hfactor) hproduct
      exact ⟨q, rfl, by rw [PyNumber.doubled, hproduct]; rfl⟩

end Pause

end HermesA2A
