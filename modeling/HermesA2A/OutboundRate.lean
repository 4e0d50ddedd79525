import HermesA2A.Lib.SlidingWindow
import Mathlib.Algebra.Order.Ring.Rat
import Mathlib.Tactic.NormNum

/-!
# The limit on outbound calls

`_consume_rate_limit` is asked before each call of a tool that talks to another agent.  It
keeps the times of the calls it granted in `_call_timestamps`, under a lock, and is a
sliding window in the sense of `Lib/SlidingWindow`.

* `consumeRateLimit_exact`: a call is granted exactly if fewer than the limit were granted
  in the window before it, and so no window whatever contains more than that.

The window and the limit are read from the environment once.  Nothing checks them, so the
limit may be negative; then nothing is granted.
-/

namespace HermesA2A

/-- `while _call_timestamps and _call_timestamps[0] < bound: popleft()` -/
def popExpired (bound : ℚ) : List ℚ → List ℚ
  | [] => []
  | t :: ts => if t < bound then popExpired bound ts else t :: ts

theorem popExpired_eq_dropWhile (bound : ℚ) (ts : List ℚ) :
    popExpired bound ts = ts.dropWhile (· < bound) := by
  induction ts with
  | nil => rfl
  | cons t ts ih =>
      simp only [popExpired, List.dropWhile_cons, decide_eq_true_eq, ih]

/-- `_consume_rate_limit`, for `_RATE_LIMIT_WINDOW` and `_RATE_LIMIT_MAX_CALLS`. -/
def consumeRateLimit (window : ℚ) (maxCalls : ℤ) (now : ℚ) (callTimestamps : List ℚ) :
    Bool × List ℚ :=
  let callTimestamps := popExpired (now - window) callTimestamps
  if (callTimestamps.length : ℤ) ≥ maxCalls then (false, callTimestamps)
  else (true, callTimestamps ++ [now])

/-- `_call_timestamps` after calls at these times, in a fresh process. -/
def callTimestamps (window : ℚ) (maxCalls : ℤ) (times : List ℚ) : List ℚ :=
  times.foldl (fun kept now => (consumeRateLimit window maxCalls now kept).2) []

/-- The times of the calls granted, of those made at `times` in a fresh process. -/
def grantedCalls (window : ℚ) (maxCalls : ℤ) (times : List ℚ) : List ℚ :=
  go [] times
where
  go : List ℚ → List ℚ → List ℚ
    | _, [] => []
    | kept, now :: times =>
        if (consumeRateLimit window maxCalls now kept).1 then
          now :: go (consumeRateLimit window maxCalls now kept).2 times
        else go (consumeRateLimit window maxCalls now kept).2 times

/-! ### A sliding window -/

theorem consumeRateLimit_eq (window : ℚ) (maxCalls : ℤ) (now : ℚ) (kept : List ℚ) :
    consumeRateLimit window maxCalls now kept =
      SlidingWindow.consume window maxCalls now kept := by
  unfold consumeRateLimit SlidingWindow.consume
  rw [popExpired_eq_dropWhile]

theorem callTimestamps_eq (window : ℚ) (maxCalls : ℤ) (times : List ℚ) :
    callTimestamps window maxCalls times = SlidingWindow.keptAfter window maxCalls [] times := by
  unfold callTimestamps SlidingWindow.keptAfter
  simp only [consumeRateLimit_eq]

theorem grantedCalls_eq (window : ℚ) (maxCalls : ℤ) (times : List ℚ) :
    grantedCalls window maxCalls times = SlidingWindow.granted window maxCalls [] times := by
  have hgo : ∀ kept, grantedCalls.go window maxCalls kept times =
      SlidingWindow.granted window maxCalls kept times := by
    induction times with
    | nil => intro kept; rfl
    | cons now times ih =>
        intro kept
        simp only [grantedCalls.go, SlidingWindow.granted, consumeRateLimit_eq, ih]
  exact hgo []

/-- **The outbound limiter is an exact sliding window.**  A limit below zero is met by
granting nothing. -/
theorem consumeRateLimit_exact (window : ℚ) (maxCalls : ℤ) {times : List ℚ}
    (hsorted : times.Pairwise (· ≤ ·)) :
    (∀ before now after, times = before ++ now :: after →
      ((consumeRateLimit window maxCalls now (callTimestamps window maxCalls before)).1 = true ↔
        ((grantedCalls window maxCalls before).countP fun s => now - window ≤ s ∧ s ≤ now : ℤ) <
          maxCalls)) ∧
      ∀ a, ((grantedCalls window maxCalls times).countP fun s => a ≤ s ∧ s ≤ a + window : ℤ) ≤
        max maxCalls 0 := by
  constructor
  · rintro before now after rfl
    rw [consumeRateLimit_eq, callTimestamps_eq, grantedCalls_eq]
    exact SlidingWindow.consume_iff hsorted
  · intro a
    rw [grantedCalls_eq]
    exact SlidingWindow.countIn_granted_le hsorted a

/-- Two calls a minute: the third is granted when the first has left the window. -/
theorem consumeRateLimit_exact_two :
    [(0 : ℚ), 30, 60, 61].Pairwise (· ≤ ·) ∧
      ((consumeRateLimit 60 2 61 (callTimestamps 60 2 [0, 30, 60])).1 = true ↔
        ((grantedCalls 60 2 [0, 30, 60]).countP fun s => 61 - 60 ≤ s ∧ s ≤ 61 : ℤ) < 2) := by
  have hsorted : [(0 : ℚ), 30, 60, 61].Pairwise (· ≤ ·) := by norm_num
  exact ⟨hsorted, (consumeRateLimit_exact 60 2 hsorted).1 [0, 30, 60] 61 [] rfl⟩

end HermesA2A
