import Mathlib.Data.Int.Log
import Mathlib.Data.Rat.Floor
import Mathlib.Data.Sign.Basic
import Mathlib.Tactic.Linarith
import Mathlib.Tactic.NormNum
import Mathlib.Tactic.Positivity

/-!
# Binary64

Floating-point numbers of double precision and their arithmetic: the exact result, rounded to
the nearest number of the format, and to the one with an even last digit when two are equally
near.

* `le_roundEven_iff`: what is rounded up to an integer.
* `two_pow_le_magnitude_iff` and `round_eq_inf_iff`: what is too large, namely what is at
  least halfway between the largest number of the format and the power of two after it.
* `magnitude_eq_zero_iff` and `round_eq_zero_iff`: what is too small, namely what is at most
  half the smallest positive number.

The two zeros are not told apart.  They compare equal, so nothing can be observed of the sign
of a zero but through division by it, which `div?` refuses, as a language does that raises.
-/

namespace Binary64

/-! ### Rounding to an integer -/

/-- The nearest integer, the even one of two. -/
def roundEven (x : ℚ) : ℤ :=
  if Int.fract x < 1 / 2 ∨ Int.fract x = 1 / 2 ∧ ⌊x⌋ % 2 = 0 then ⌊x⌋ else ⌊x⌋ + 1

theorem floor_le_roundEven (x : ℚ) : ⌊x⌋ ≤ roundEven x := by
  unfold roundEven
  split_ifs <;> omega

theorem roundEven_le_floor_add_one (x : ℚ) : roundEven x ≤ ⌊x⌋ + 1 := by
  unfold roundEven
  split_ifs <;> omega

/-- **What is rounded up to an integer**: what is less than a half below it, and what is a
half below it, if it is even. -/
theorem le_roundEven_iff {x : ℚ} {n : ℤ} :
    n ≤ roundEven x ↔ (n : ℚ) - 1 / 2 < x ∨ x = n - 1 / 2 ∧ n % 2 = 0 := by
  have hlow : (⌊x⌋ : ℚ) ≤ x := Int.floor_le x
  have hhigh : x < ⌊x⌋ + 1 := Int.lt_floor_add_one x
  rcases lt_trichotomy n (⌊x⌋ + 1) with hlt | rfl | hgt
  · have hn : (n : ℚ) ≤ ⌊x⌋ := by exact_mod_cast Int.lt_add_one_iff.mp hlt
    have hle : n ≤ roundEven x := le_trans (by omega) (floor_le_roundEven x)
    exact iff_of_true hle (Or.inl (by linarith))
  · -- the integer above: the case that the fraction decides
    have hfract : Int.fract x = x - ⌊x⌋ := rfl
    push_cast
    unfold roundEven
    rw [hfract]
    split_ifs with h
    · refine iff_of_false (by omega) ?_
      rintro (hlt | ⟨heq, heven⟩)
      · rcases h with h | h
        · linarith
        · linarith [h.1]
      · rcases h with h | h
        · linarith
        · omega
    · refine iff_of_true le_rfl ?_
      push Not at h
      rcases h.1.lt_or_eq with hlt | heq
      · exact Or.inl (by linarith)
      · have hodd := h.2 heq.symm
        exact Or.inr ⟨by linarith, by omega⟩
  · have hn : (⌊x⌋ : ℚ) + 2 ≤ n := by exact_mod_cast (by omega : ⌊x⌋ + 2 ≤ n)
    refine iff_of_false ?_ ?_
    · have hle := roundEven_le_floor_add_one x
      omega
    · rintro (hlt | ⟨heq, -⟩)
      · linarith
      · linarith

theorem roundEven_nonneg {x : ℚ} (hx : 0 ≤ x) : 0 ≤ roundEven x :=
  (Int.floor_nonneg.mpr hx).trans (floor_le_roundEven x)

theorem roundEven_le_of_lt {x : ℚ} {n : ℤ} (h : x < n) : roundEven x ≤ n :=
  (roundEven_le_floor_add_one x).trans (Int.floor_lt.mpr h)

theorem le_roundEven_of_le {x : ℚ} {n : ℤ} (h : (n : ℚ) ≤ x) : n ≤ roundEven x :=
  (Int.le_floor.mpr h).trans (floor_le_roundEven x)

/-- A number that is rounded to zero is at most a half. -/
theorem roundEven_eq_zero_iff {x : ℚ} (hx : 0 ≤ x) : roundEven x = 0 ↔ x ≤ 1 / 2 := by
  have hnonneg := roundEven_nonneg hx
  have hone : 1 ≤ roundEven x ↔ 1 / 2 < x := by
    rw [le_roundEven_iff]
    norm_num
  rw [← not_lt, ← hone]
  omega

/-! ### Rounding to a number of the format, without a largest one -/

/-- The exponent of the last digit of the numbers around `a`: they have 53 digits, and none
after the 1074th behind the point. -/
def lastPlace (a : ℚ) : ℤ := max (Int.log 2 a - 52) (-1074)

/-- What a number that is not negative is rounded to. -/
def magnitude (a : ℚ) : ℚ := roundEven (a / 2 ^ lastPlace a) * 2 ^ lastPlace a

section Magnitude

variable {a : ℚ}

private theorem two_zpow_pos (e : ℤ) : (0 : ℚ) < 2 ^ e := zpow_pos (by norm_num) e

private theorem two_zpow_le {e f : ℤ} (h : e ≤ f) : (2 : ℚ) ^ e ≤ 2 ^ f :=
  zpow_le_zpow_right₀ (by norm_num) h

private theorem two_zpow_add (e f : ℤ) : (2 : ℚ) ^ (e + f) = 2 ^ e * 2 ^ f :=
  zpow_add₀ (by norm_num) e f

theorem two_zpow_log_le (ha : 0 < a) : (2 : ℚ) ^ Int.log 2 a ≤ a := by
  exact_mod_cast Int.zpow_log_le_self (b := 2) (by norm_num) ha

theorem lt_two_zpow_log (a : ℚ) : a < (2 : ℚ) ^ (Int.log 2 a + 1) := by
  exact_mod_cast Int.lt_zpow_succ_log_self (b := 2) (by norm_num) a

theorem magnitude_nonneg (ha : 0 ≤ a) : 0 ≤ magnitude a := by
  have hdigits : 0 ≤ roundEven (a / 2 ^ lastPlace a) :=
    roundEven_nonneg (div_nonneg ha (two_zpow_pos _).le)
  exact mul_nonneg (by exact_mod_cast hdigits) (two_zpow_pos _).le

/-- The digits of a number are those of an integer of 53 digits at most. -/
theorem roundEven_le_two_pow (a : ℚ) : roundEven (a / 2 ^ lastPlace a) ≤ 2 ^ 53 := by
  apply roundEven_le_of_lt
  rw [div_lt_iff₀ (two_zpow_pos _)]
  calc
    a < 2 ^ (Int.log 2 a + 1) := lt_two_zpow_log a
    _ ≤ 2 ^ (53 + lastPlace a) := two_zpow_le (by unfold lastPlace; omega)
    _ = 2 ^ (53 : ℤ) * 2 ^ lastPlace a := two_zpow_add _ _
    _ = ((2 ^ 53 : ℤ) : ℚ) * 2 ^ lastPlace a := by norm_num

theorem magnitude_le (a : ℚ) : magnitude a ≤ 2 ^ (53 + lastPlace a) := by
  have hdigits : (roundEven (a / 2 ^ lastPlace a) : ℚ) ≤ 2 ^ (53 : ℤ) := by
    exact_mod_cast roundEven_le_two_pow a
  rw [two_zpow_add]
  exact mul_le_mul_of_nonneg_right hdigits (two_zpow_pos _).le

/-- Numbers that are not too small are rounded to 53 digits. -/
theorem le_magnitude (ha : 0 < a) (hlarge : -1022 ≤ Int.log 2 a) :
    2 ^ Int.log 2 a ≤ magnitude a := by
  have hplace : Int.log 2 a = 52 + lastPlace a := by
    unfold lastPlace
    omega
  have hdigits : (2 ^ 52 : ℤ) ≤ roundEven (a / 2 ^ lastPlace a) := by
    apply le_roundEven_of_le
    rw [le_div_iff₀ (two_zpow_pos _)]
    calc
      ((2 ^ 52 : ℤ) : ℚ) * 2 ^ lastPlace a = 2 ^ (52 : ℤ) * 2 ^ lastPlace a := by norm_num
      _ = 2 ^ Int.log 2 a := by rw [← two_zpow_add, ← hplace]
      _ ≤ a := two_zpow_log_le ha
  have hcast : (2 : ℚ) ^ (52 : ℤ) ≤ roundEven (a / 2 ^ lastPlace a) := by
    exact_mod_cast hdigits
  calc
    (2 : ℚ) ^ Int.log 2 a = 2 ^ (52 : ℤ) * 2 ^ lastPlace a := by rw [← two_zpow_add, ← hplace]
    _ ≤ magnitude a := mul_le_mul_of_nonneg_right hcast (two_zpow_pos _).le

/-- **What is too large for the format.** -/
theorem two_pow_le_magnitude_iff (ha : 0 ≤ a) :
    2 ^ (1024 : ℤ) ≤ magnitude a ↔ 2 ^ (1024 : ℤ) - 2 ^ (970 : ℤ) ≤ a := by
  have htop : (2 : ℚ) ^ (1024 : ℤ) = 2 ^ (53 : ℤ) * 2 ^ (971 : ℤ) := two_zpow_add 53 971
  have hhalf : (2 : ℚ) ^ (971 : ℤ) = 2 ^ (1 : ℤ) * 2 ^ (970 : ℤ) := two_zpow_add 1 970
  have hnext := lt_two_zpow_log a
  rcases lt_trichotomy (Int.log 2 a) 1023 with hlow | hlog | hhigh
  · -- below 2 ^ 1023 nothing gets as far as 2 ^ 1024
    refine iff_of_false (not_le.mpr ?_) (not_le.mpr ?_)
    · calc
        magnitude a ≤ 2 ^ (53 + lastPlace a) := magnitude_le a
        _ ≤ 2 ^ (1023 : ℤ) := two_zpow_le (by unfold lastPlace; omega)
        _ < 2 ^ (1024 : ℤ) := zpow_lt_zpow_right₀ (by norm_num) (by norm_num)
    · have hbelow : a < 2 ^ (1023 : ℤ) := hnext.trans_le (two_zpow_le (by omega))
      have hdouble : (2 : ℚ) ^ (1024 : ℤ) = 2 ^ (1 : ℤ) * 2 ^ (1023 : ℤ) := two_zpow_add 1 1023
      rw [zpow_one, two_mul] at hdouble
      calc
        a < 2 ^ (1023 : ℤ) := hbelow
        _ = 2 ^ (1024 : ℤ) - 2 ^ (1023 : ℤ) := by rw [hdouble, add_sub_cancel_right]
        _ ≤ 2 ^ (1024 : ℤ) - 2 ^ (970 : ℤ) := sub_le_sub_left (two_zpow_le (by norm_num)) _
  · -- the last digit stands at 2 ^ 971, and 2 ^ 53 is even
    have hplace : lastPlace a = 971 := by
      unfold lastPlace
      omega
    have hdigits : 2 ^ (1024 : ℤ) ≤ magnitude a ↔
        (2 ^ 53 : ℤ) ≤ roundEven (a / 2 ^ lastPlace a) := by
      rw [magnitude, hplace, htop, mul_le_mul_iff_left₀ (two_zpow_pos _)]
      norm_cast
    rw [hdigits, le_roundEven_iff, hplace, lt_div_iff₀ (two_zpow_pos _),
      div_eq_iff (two_zpow_pos _).ne', le_iff_lt_or_eq]
    have hbound : (((2 ^ 53 : ℤ) : ℚ) - 1 / 2) * 2 ^ (971 : ℤ) =
        2 ^ (1024 : ℤ) - 2 ^ (970 : ℤ) := by
      rw [htop, hhalf]
      generalize (2 : ℚ) ^ (970 : ℤ) = half
      norm_num
      ring
    rw [hbound, and_iff_left (by norm_num : (2 ^ 53 : ℤ) % 2 = 0), eq_comm (a := a)]
  · have hpos : 0 < a := by
      rcases ha.lt_or_eq with hpos | rfl
      · exact hpos
      · rw [Int.log_zero_right] at hhigh
        omega
    have habove : (2 : ℚ) ^ (1024 : ℤ) ≤ 2 ^ Int.log 2 a := two_zpow_le (by omega)
    refine iff_of_true (habove.trans (le_magnitude hpos (by omega))) ?_
    exact (sub_le_self _ (two_zpow_pos 970).le).trans (habove.trans (two_zpow_log_le hpos))

/-- **What is too small for the format.** -/
theorem magnitude_eq_zero_iff (ha : 0 ≤ a) : magnitude a = 0 ↔ a ≤ 2 ^ (-1075 : ℤ) := by
  rcases ha.lt_or_eq with hpos | rfl
  swap
  · refine iff_of_true ?_ (two_zpow_pos _).le
    simp [magnitude, roundEven]
  rcases lt_or_ge (Int.log 2 a) (-1022) with hsmall | hlarge
  · have hplace : lastPlace a = -1074 := by
      unfold lastPlace
      omega
    have hhalf : (2 : ℚ) ^ (-1074 : ℤ) = 2 ^ (1 : ℤ) * 2 ^ (-1075 : ℤ) := by
      rw [← two_zpow_add]
      rfl
    rw [magnitude, mul_eq_zero, or_iff_left (two_zpow_pos _).ne', Int.cast_eq_zero,
      roundEven_eq_zero_iff (div_nonneg ha (two_zpow_pos _).le), hplace,
      div_le_iff₀ (two_zpow_pos _), hhalf, zpow_one, ← mul_assoc]
    norm_num
  · have hlow : (2 : ℚ) ^ (-1075 : ℤ) < 2 ^ Int.log 2 a :=
      zpow_lt_zpow_right₀ (by norm_num) (by omega)
    refine iff_of_false ?_ (not_le.mpr (hlow.trans_le (two_zpow_log_le hpos)))
    exact ((two_zpow_pos _).trans_le (le_magnitude hpos hlarge)).ne'

end Magnitude

/-- The number that `q` is rounded to, however large. -/
def nearest (q : ℚ) : ℚ := if q < 0 then -magnitude (-q) else magnitude q

theorem abs_nearest (q : ℚ) : |nearest q| = magnitude |q| := by
  unfold nearest
  split_ifs with h
  · rw [abs_neg, abs_of_neg h, abs_of_nonneg (magnitude_nonneg (neg_pos.mpr h).le)]
  · rw [abs_of_nonneg (not_lt.mp h), abs_of_nonneg (magnitude_nonneg (not_lt.mp h))]

/-- The numbers of the format: of 53 digits, none after the 1074th behind the point, and
below `2 ^ 1024`. -/
def Representable (q : ℚ) : Prop :=
  |q| < 2 ^ (1024 : ℤ) ∧ ∃ m e : ℤ, |m| ≤ 2 ^ 53 ∧ -1074 ≤ e ∧ q = m * 2 ^ e

theorem Representable.neg {q : ℚ} (h : Representable q) : Representable (-q) := by
  obtain ⟨hbelow, m, e, hm, he, rfl⟩ := h
  exact ⟨by rwa [abs_neg], -m, e, by rwa [abs_neg], he, by rw [Int.cast_neg, neg_mul]⟩

theorem representable_nearest {q : ℚ} (h : |nearest q| < 2 ^ (1024 : ℤ)) :
    Representable (nearest q) := by
  refine ⟨h, ?_⟩
  have hdigits (a : ℚ) (ha : 0 ≤ a) : |roundEven (a / 2 ^ lastPlace a)| ≤ 2 ^ 53 := by
    rw [abs_of_nonneg (roundEven_nonneg (div_nonneg ha (two_zpow_pos _).le))]
    exact roundEven_le_two_pow a
  unfold nearest
  split_ifs with hq
  · refine ⟨-roundEven (-q / 2 ^ lastPlace (-q)), lastPlace (-q), ?_, le_max_right _ _, ?_⟩
    · rw [abs_neg]
      exact hdigits (-q) (by linarith)
    · rw [magnitude, Int.cast_neg, neg_mul]
  · exact ⟨_, _, hdigits q (not_lt.mp hq), le_max_right _ _, rfl⟩

theorem roundEven_intCast (n : ℤ) : roundEven n = n := by
  unfold roundEven
  rw [if_pos (Or.inl (by simp)), Int.floor_intCast]

/-- What has few digits enough has its last one in the last place or before. -/
theorem exists_digits {m e : ℤ} (hm : 0 < m) (hdigits : m ≤ 2 ^ 53) (he : -1074 ≤ e) :
    ∃ n : ℤ, (m : ℚ) * 2 ^ e = n * 2 ^ lastPlace (m * 2 ^ e) := by
  have hpos : (0 : ℚ) < m * 2 ^ e := mul_pos (by exact_mod_cast hm) (two_zpow_pos e)
  have hle : (m : ℚ) * 2 ^ e ≤ 2 ^ (53 + e) := by
    rw [two_zpow_add]
    exact mul_le_mul_of_nonneg_right (by exact_mod_cast hdigits) (two_zpow_pos e).le
  have hlog : Int.log 2 ((m : ℚ) * 2 ^ e) ≤ 53 + e := by
    have hlow := (two_zpow_log_le hpos).trans hle
    exact (zpow_le_zpow_iff_right₀ (by norm_num : (1 : ℚ) < 2)).mp hlow
  rcases le_or_gt (lastPlace ((m : ℚ) * 2 ^ e)) e with hplace | hplace
  · -- the last place is at the last digit or after it
    refine ⟨m * 2 ^ (e - lastPlace ((m : ℚ) * 2 ^ e)).toNat, ?_⟩
    have hexp : ((e - lastPlace ((m : ℚ) * 2 ^ e)).toNat : ℤ) =
        e - lastPlace ((m : ℚ) * 2 ^ e) := Int.toNat_of_nonneg (by omega)
    push_cast
    rw [← zpow_natCast, hexp, mul_assoc, ← two_zpow_add]
    congr 2
    omega
  · -- there are too many digits for it, so the number is a power of two
    have hlast : lastPlace ((m : ℚ) * 2 ^ e) = e + 1 ∧
        Int.log 2 ((m : ℚ) * 2 ^ e) = 53 + e := by
      unfold lastPlace at hplace ⊢
      omega
    have hge : (2 : ℚ) ^ (53 + e) ≤ m * 2 ^ e := by
      rw [← hlast.2]
      exact two_zpow_log_le hpos
    have heq : (m : ℚ) * 2 ^ e = 2 ^ (53 + e) := le_antisymm hle hge
    have hexp : 53 + e = 52 + (e + 1) := by ring
    refine ⟨2 ^ 52, ?_⟩
    rw [hlast.1, heq, hexp, two_zpow_add]
    norm_num

/-- **A number of the format is not rounded.** -/
theorem nearest_of_representable {q : ℚ} (h : Representable q) : nearest q = q := by
  have hmagnitude (m e : ℤ) (hm : 0 < m) (hdigits : m ≤ 2 ^ 53) (he : -1074 ≤ e) :
      magnitude (m * 2 ^ e) = m * 2 ^ e := by
    obtain ⟨n, hn⟩ := exists_digits hm hdigits he
    have hdiv : (m : ℚ) * 2 ^ e / 2 ^ lastPlace (m * 2 ^ e) = n := by
      rw [div_eq_iff (two_zpow_pos _).ne']
      exact hn
    rw [magnitude, hdiv, roundEven_intCast, ← hn]
  obtain ⟨-, m, e, hm, he, rfl⟩ := h
  unfold nearest
  rcases lt_trichotomy m 0 with hneg | rfl | hpos
  · have hlt : (m : ℚ) * 2 ^ e < 0 :=
      mul_neg_of_neg_of_pos (by exact_mod_cast hneg) (two_zpow_pos e)
    have hopposite := hmagnitude (-m) e (by omega) ((neg_le_abs m).trans hm) he
    rw [Int.cast_neg, neg_mul] at hopposite
    rw [if_pos hlt, hopposite, neg_neg]
  · rw [Int.cast_zero, zero_mul, if_neg (lt_irrefl _),
      (magnitude_eq_zero_iff le_rfl).mpr (two_zpow_pos _).le]
  · have hnot : ¬ (m : ℚ) * 2 ^ e < 0 :=
      not_lt.mpr (mul_pos (by exact_mod_cast hpos) (two_zpow_pos e)).le
    rw [if_neg hnot, hmagnitude m e hpos ((le_abs_self m).trans hm) he]

end Binary64

/-! ### The data and their arithmetic -/

open Binary64

/-- A datum of the format. -/
inductive Double
  | finite (q : ℚ) (h : Representable q)
  | inf (negative : Bool)
  | nan
  deriving DecidableEq

namespace Double

/-- A rational number, rounded. -/
@[irreducible] def round (q : ℚ) : Double :=
  if h : |nearest q| < 2 ^ (1024 : ℤ) then finite (nearest q) (representable_nearest h)
  else inf (q < 0)

/-- What is rounded to an infinity is at least this far from zero. -/
def overflowBound : ℤ := 2 ^ 1024 - 2 ^ 970

/-- Is it a zero? -/
def isZero : Double → Bool
  | finite q _ => q = 0
  | inf _ => false
  | nan => false

/-- Is it below zero? -/
def isNegative : Double → Bool
  | finite q _ => q < 0
  | inf negative => negative
  | nan => false

def neg : Double → Double
  | finite q h => finite (-q) h.neg
  | inf negative => inf !negative
  | nan => nan

def add : Double → Double → Double
  | finite q _, finite r _ => round (q + r)
  | inf s, inf t => if s = t then inf s else nan
  | inf s, finite _ _ => inf s
  | finite _ _, inf t => inf t
  | nan, _ => nan
  | _, nan => nan

def sub (x y : Double) : Double := x.add y.neg

def mul : Double → Double → Double
  | finite q _, finite r _ => round (q * r)
  | nan, _ => nan
  | _, nan => nan
  | x, y => if x.isZero ∨ y.isZero then nan else inf (x.isNegative != y.isNegative)

/-- The quotient, unless the divisor is zero. -/
def div? (x y : Double) : Option Double :=
  if y.isZero then none
  else
    some <|
      match x, y with
      | finite q _, finite r _ => round (q / r)
      | finite _ _, inf _ => round 0
      | inf _, finite _ _ => inf (x.isNegative != y.isNegative)
      | _, _ => nan

def lt : Double → Double → Bool
  | finite q _, finite r _ => q < r
  | inf s, inf t => s && !t
  | inf s, finite _ _ => s
  | finite _ _, inf t => !t
  | nan, _ => false
  | _, nan => false

def le : Double → Double → Bool
  | finite q _, finite r _ => q ≤ r
  | inf s, inf t => s || !t
  | inf s, finite _ _ => s
  | finite _ _, inf t => !t
  | nan, _ => false
  | _, nan => false

example : mul (round (1 / 10)) (round 3) = round (3 / 10 + 1 / 2 ^ 54) := by decide +kernel

section Round

variable {q : ℚ}

theorem overflowBound_cast :
    ((overflowBound : ℤ) : ℚ) = 2 ^ (1024 : ℤ) - 2 ^ (970 : ℤ) := by
  unfold overflowBound
  rw [Int.cast_sub, Int.cast_pow, Int.cast_pow, Int.cast_ofNat, zpow_ofNat, zpow_ofNat]

/-- **What is too large for the format is rounded to an infinity**, and nothing else is. -/
theorem round_eq_inf_iff : round q = inf (q < 0) ↔ overflowBound ≤ |q| := by
  rw [overflowBound_cast, ← two_pow_le_magnitude_iff (abs_nonneg q), ← abs_nearest]
  unfold round
  split_ifs with h
  · exact iff_of_false nofun (not_le.mpr h)
  · exact iff_of_true rfl (not_lt.mp h)

/-- What is not too large is rounded to a number. -/
theorem round_of_lt (h : |q| < overflowBound) : ∃ hrep, round q = finite (nearest q) hrep := by
  rw [overflowBound_cast, ← not_le, ← two_pow_le_magnitude_iff (abs_nonneg q), ← abs_nearest,
    not_le] at h
  refine ⟨representable_nearest h, ?_⟩
  unfold round
  exact dif_pos h

/-- **What is too small for the format is rounded to zero**, and nothing else is. -/
theorem isZero_round_iff : (round q).isZero = true ↔ |q| ≤ 2 ^ (-1075 : ℤ) := by
  rw [← magnitude_eq_zero_iff (abs_nonneg q), ← abs_nearest, abs_eq_zero]
  unfold round
  split_ifs with h
  · simp [isZero]
  · refine iff_of_false nofun fun hzero => h ?_
    rw [hzero, abs_zero]
    exact zpow_pos (by norm_num) 1024

/-- **A number of the format is itself.** -/
theorem round_of_representable (h : Representable q) : round q = finite q h := by
  have hnearest := nearest_of_representable h
  unfold round
  rw [dif_pos (by rw [hnearest]; exact h.1)]
  congr

theorem lt_of_round_eq_finite {r : ℚ} {hr : Representable r} (h : round q = finite r hr) :
    |q| < 2 ^ (1024 : ℤ) ∧ nearest q = r := by
  refine ⟨?_, ?_⟩
  · by_contra hlarge
    have hbound : (overflowBound : ℚ) ≤ |q| := by
      rw [overflowBound_cast]
      exact (sub_le_self _ (zpow_pos (by norm_num) 970).le).trans (not_lt.mp hlarge)
    rw [round_eq_inf_iff.mpr hbound] at h
    cases h
  · unfold round at h
    split_ifs at h
    exact (Double.finite.inj h)

theorem representable_two_pow {a : ℕ} (ha : a < 1024) : Representable (2 ^ a) := by
  refine ⟨?_, 1, a, by norm_num, by omega, by rw [Int.cast_one, one_mul, zpow_natCast]⟩
  rw [abs_of_pos (by positivity), ← zpow_natCast]
  exact zpow_lt_zpow_right₀ (by norm_num) (by exact_mod_cast ha)

/-- A product with an infinity or with what is no number is no finite number. -/
theorem exists_of_mul_eq_finite {x y : Double} {r : ℚ} {hr : Representable r}
    (h : x.mul y = finite r hr) : ∃ q hq, x = finite q hq := by
  cases x with
  | finite q hq => exact ⟨q, hq, rfl⟩
  | nan => cases y <;> cases h
  | inf negative =>
      cases y with
      | nan => cases h
      | _ =>
          unfold mul at h
          dsimp only at h
          split_ifs at h

/-- **Doubling is exact** where it does not overflow. -/
theorem mul_two_pow {x : Double} {a : ℕ} {r : ℚ} {hr : Representable r} (ha : a < 1024)
    (h : x.mul (round (2 ^ a)) = finite r hr) : ∃ q hq, x = finite q hq ∧ r = q * 2 ^ a := by
  obtain ⟨q, hq, rfl⟩ := exists_of_mul_eq_finite h
  rw [round_of_representable (representable_two_pow ha)] at h
  obtain ⟨hsmall, hnearest⟩ := lt_of_round_eq_finite h
  obtain ⟨-, m, e, hm, he, rfl⟩ := id hq
  refine ⟨_, hq, rfl, ?_⟩
  rw [← hnearest]
  apply nearest_of_representable
  refine ⟨hsmall, m, e + a, hm, by omega, ?_⟩
  rw [mul_assoc, ← zpow_natCast, zpow_add₀ (by norm_num)]

end Round

end Double
