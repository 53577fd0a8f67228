import Mathlib.Algebra.Order.Field.Power
import Mathlib.Algebra.Order.Field.Rat
import Mathlib.Data.Rat.Cast.Order
import Mathlib.Tactic.Linarith
import Mathlib.Tactic.Positivity
import Mathlib.Tactic.Ring
import Mathlib.Tactic.Zify
import SwiftScribe.Double.Basic

/-!
# Rounding to doubles

A natural number becomes the double nearest to it. The doubles from a power of two on are multiples of
one unit, so the nearest of them is found by rounding a quotient to the nearest natural number.

* `Double.roundDiv_nearest`: **no multiple of the divisor is nearer to the dividend** than the rounded
  quotient, and of two that are equally near it is the even one.
* `Double.exists_multiple`: the doubles from a power of two on are multiples of their unit.
* `Double.nearest_ofNat`: the double of a natural number below `2 ^ 64` is the nearest one.
-/

namespace SwiftScribe.Double

/-! ## Rounded quotients -/

/-- A rounded quotient is off by half the divisor at most, and it is even if it is off by that much. -/
theorem roundDiv_error (num : ℕ) {den : ℕ} (hden : 0 < den) :
    ∃ error : ℤ, (roundDiv num den : ℤ) * den = num + error ∧ 2 * |error| ≤ den ∧
      (2 * |error| = den → Even (roundDiv num den)) := by
  have hnum : (den : ℤ) * (num / den : ℕ) + (num % den : ℕ) = num := by
    exact_mod_cast Nat.div_add_mod num den
  have hrest : num % den < den := Nat.mod_lt num hden
  unfold roundDiv
  simp only
  set quotient := num / den
  set rest := num % den
  split
  · rename_i hbelow
    have habs : |(-rest : ℤ)| = rest := by rw [abs_neg, Nat.abs_cast]
    refine ⟨-rest, ?_, ?_, ?_⟩
    · linarith
    · rw [habs]; omega
    · rw [habs]; omega
  · split
    · rename_i habove
      have habs : |((den - rest : ℕ) : ℤ)| = (den - rest : ℕ) := Nat.abs_cast _
      refine ⟨(den - rest : ℕ), ?_, ?_, ?_⟩
      · push_cast [Nat.le_of_lt hrest]
        linarith
      · rw [habs]; omega
      · rw [habs]; omega
    · rename_i hbelow habove
      have htie : 2 * rest = den := by omega
      rcases Nat.even_or_odd quotient with heven | hodd
      · have habs : |(-rest : ℤ)| = rest := by rw [abs_neg, Nat.abs_cast]
        have hmod : quotient % 2 = 0 := Nat.even_iff.1 heven
        refine ⟨-rest, ?_, ?_, fun _ => ?_⟩
        · rw [hmod]
          push_cast
          linarith
        · rw [habs]; omega
        · rw [hmod]
          exact heven
      · have hmod : quotient % 2 = 1 := Nat.odd_iff.1 hodd
        refine ⟨rest, ?_, ?_, fun _ => ?_⟩
        · have htie' : (2 : ℤ) * rest = den := by exact_mod_cast htie
          rw [hmod]
          push_cast
          linarith
        · rw [Nat.abs_cast]; omega
        · rw [hmod]
          exact hodd.add_one

/-- **No multiple of the divisor is nearer to the dividend** than the rounded quotient; if another one
is as near, the rounded quotient is even. -/
theorem roundDiv_nearest (num : ℕ) {den : ℕ} (hden : 0 < den) (k : ℤ) :
    |(roundDiv num den : ℤ) * den - num| ≤ |k * den - num| ∧
      (|k * den - num| = |(roundDiv num den : ℤ) * den - num| →
        k = roundDiv num den ∨ Even (roundDiv num den)) := by
  obtain ⟨error, herror, hhalf, htie⟩ := roundDiv_error num hden
  have hoff : (roundDiv num den : ℤ) * den - num = error := by linarith
  rw [hoff]
  by_cases hk : k = roundDiv num den
  · rw [hk, hoff]
    exact ⟨le_refl _, fun _ => .inl rfl⟩
  · -- another multiple is off by a whole divisor more or less
    have hapart : (den : ℤ) ≤ |k * den - num| + |error| := by
      have hone : 1 ≤ |k - roundDiv num den| := Int.one_le_abs (sub_ne_zero.2 hk)
      calc
        (den : ℤ) = 1 * den := (one_mul _).symm
        _ ≤ |k - roundDiv num den| * den := by gcongr
        _ = |(k - roundDiv num den) * den| := by rw [abs_mul, Nat.abs_cast]
        _ = |(k * den - num) - error| := by rw [← hoff]; ring_nf
        _ ≤ |k * den - num| + |error| := abs_sub _ _
    refine ⟨by linarith, fun hsame => .inr (htie ?_)⟩
    linarith

/-! ## Doubles as numbers -/

/-- Whether the bit pattern stands for a number, neither infinite nor undefined. -/
def Finite (x : Double) : Prop := x.magnitude < 2047 * fractions

/-- **The number that a double stands for.** -/
def toRat (x : Double) : ℚ := (if x.negative then -1 else 1) * x.significand * 2 ^ x.exponent

/-- **A double is the nearest one** to a number. Of two that are equally near it is the one with an even
significand. -/
structure Nearest (x : Double) (q : ℚ) : Prop where
  finite : x.Finite
  near : ∀ y : Double, y.Finite → |x.toRat - q| ≤ |y.toRat - q|
  even : ∀ y : Double, y.Finite → |y.toRat - q| = |x.toRat - q| →
    y.toRat = x.toRat ∨ Even x.significand

theorem bits_ofMagnitude {m : ℕ} (h : m < signPlace) : (ofMagnitude false m).bits.toNat = m := by
  have hm : m < 2 ^ 64 := by
    have : signPlace < 2 ^ 64 := by decide
    omega
  exact UInt64.toNat_ofNat_of_lt' hm

theorem negative_ofMagnitude {m : ℕ} (h : m < signPlace) : (ofMagnitude false m).negative = false := by
  rw [negative, bits_ofMagnitude h, Nat.div_eq_of_lt h]
  rfl

theorem magnitude_ofMagnitude {m : ℕ} (h : m < signPlace) : (ofMagnitude false m).magnitude = m := by
  rw [magnitude, bits_ofMagnitude h, Nat.mod_eq_of_lt h]

/-- **A pattern put together from an exponent and a significand.** A significand that has been rounded
up to the next power of two runs over into the exponent, and stands for the same number. -/
theorem ofMagnitude_spec {place units : ℕ} (hplace : place < 2045) (hlow : fractions ≤ units)
    (hhigh : units ≤ 2 * fractions) :
    (ofMagnitude false (place * fractions + units)).Finite ∧
      (ofMagnitude false (place * fractions + units)).toRat = units * 2 ^ ((place : ℤ) - 1074) ∧
      (Even units → Even (ofMagnitude false (place * fractions + units)).significand) := by
  have hfinite : place * fractions + units < 2047 * fractions := by unfold fractions at *; omega
  have hm : place * fractions + units < signPlace := by unfold fractions signPlace at *; omega
  have hmagnitude := magnitude_ofMagnitude hm
  have hnegative := negative_ofMagnitude hm
  set x := ofMagnitude false (place * fractions + units)
  have hx : x.Finite := by
    rw [Finite, hmagnitude]
    exact hfinite
  rcases Nat.lt_or_eq_of_le hhigh with hbelow | hover
  · have hdiv : x.magnitude / fractions = place + 1 := by
      rw [hmagnitude]
      unfold fractions at *
      omega
    have hsignificand : x.significand = units := by
      rw [significand, hdiv, if_neg (Nat.succ_ne_zero _), hmagnitude]
      unfold fractions at *
      omega
    have hexponent : x.exponent = (place : ℤ) - 1074 := by
      rw [exponent, hdiv]
      omega
    refine ⟨hx, ?_, fun h => hsignificand ▸ h⟩
    rw [toRat, hnegative, hsignificand, hexponent]
    simp
  · have hdiv : x.magnitude / fractions = place + 2 := by
      rw [hmagnitude]
      unfold fractions at *
      omega
    have hsignificand : x.significand = fractions := by
      rw [significand, hdiv, if_neg (Nat.succ_ne_zero _), hmagnitude]
      unfold fractions at *
      omega
    have hexponent : x.exponent = ((place : ℤ) - 1074) + 1 := by
      rw [exponent, hdiv]
      omega
    refine ⟨hx, ?_, fun _ => hsignificand ▸ by decide⟩
    rw [toRat, hnegative, hsignificand, hexponent, hover, zpow_add_one₀ (by norm_num)]
    push_cast
    ring

theorem significand_lt (x : Double) : x.significand < 2 * fractions := by
  unfold significand
  split
  · unfold fractions at *
    omega
  · have hmod : x.magnitude % fractions < fractions := Nat.mod_lt _ (by decide)
    omega

/-- **The doubles from a power of two on are multiples of a unit.** -/
theorem exists_multiple {x : Double} {place : ℤ} (h : 2 ^ (place + 52) ≤ x.toRat) :
    ∃ k : ℤ, x.toRat = k * 2 ^ place := by
  have hpos : (0 : ℚ) < x.toRat := lt_of_lt_of_le (by positivity) h
  have hnegative : x.negative = false := by
    by_contra hne
    have hsign : x.toRat = -(x.significand * 2 ^ x.exponent) := by
      rw [toRat, if_pos (by simpa using hne)]
      ring
    have hle : (0 : ℚ) ≤ x.significand * 2 ^ x.exponent := by positivity
    linarith
  have hvalue : x.toRat = x.significand * 2 ^ x.exponent := by
    rw [toRat, hnegative]
    simp
  have hbound : (x.significand : ℚ) < 2 ^ (53 : ℤ) := by
    have hlt := significand_lt x
    have hcast : ((2 * fractions : ℕ) : ℚ) = 2 ^ (53 : ℤ) := by norm_num
    rw [← hcast]
    exact_mod_cast hlt
  have hplace : place ≤ x.exponent := by
    have hpow : (2 : ℚ) ^ (place + 52) < 2 ^ (53 + x.exponent) := by
      calc
        (2 : ℚ) ^ (place + 52) ≤ x.significand * 2 ^ x.exponent := hvalue ▸ h
        _ < 2 ^ (53 : ℤ) * 2 ^ x.exponent := by gcongr
        _ = 2 ^ (53 + x.exponent) := (zpow_add₀ (by norm_num) _ _).symm
    have := (zpow_lt_zpow_iff_right₀ (by norm_num : (1 : ℚ) < 2)).1 hpow
    omega
  obtain ⟨shift, hshift⟩ := Int.eq_ofNat_of_zero_le (Int.sub_nonneg.2 hplace)
  have hexponent : x.exponent = shift + place := by omega
  refine ⟨x.significand * 2 ^ shift, ?_⟩
  rw [hvalue, hexponent, zpow_add₀ (by norm_num)]
  push_cast
  rw [zpow_natCast]
  ring

/-! ## Natural numbers -/

theorem toRat_zero : (zero false).toRat = 0 := by
  have hsignificand : (zero false).significand = 0 := rfl
  rw [toRat, hsignificand]
  simp

section Whole

variable {n : ℕ}

/-- The unit of the last of 53 bits, from the leading bit of a natural number on. -/
def unitOf (n : ℕ) : ℚ := 2 ^ ((n.log2 : ℤ) - 52)

/-- How many of these units a natural number is rounded to. -/
def wholeUnits (n : ℕ) : ℕ := roundDiv (n * 2 ^ (52 - n.log2)) (2 ^ (n.log2 - 52))

/-- In these units, a natural number has 53 bits. -/
theorem bits_bounds (hn : n ≠ 0) :
    fractions * 2 ^ (n.log2 - 52) ≤ n * 2 ^ (52 - n.log2) ∧
      n * 2 ^ (52 - n.log2) < 2 * fractions * 2 ^ (n.log2 - 52) := by
  have hlow : 2 ^ n.log2 ≤ n := Nat.log2_self_le hn
  have hhigh : n < 2 ^ (n.log2 + 1) := Nat.lt_log2_self
  have hunit : fractions * 2 ^ (n.log2 - 52) = 2 ^ n.log2 * 2 ^ (52 - n.log2) := by
    have hsum : 52 + (n.log2 - 52) = n.log2 + (52 - n.log2) := by omega
    calc
      fractions * 2 ^ (n.log2 - 52) = 2 ^ 52 * 2 ^ (n.log2 - 52) := rfl
      _ = 2 ^ n.log2 * 2 ^ (52 - n.log2) := by rw [← Nat.pow_add, hsum, Nat.pow_add]
  constructor
  · rw [hunit]
    exact Nat.mul_le_mul_right _ hlow
  · rw [Nat.mul_assoc, hunit, ← Nat.mul_assoc, ← Nat.pow_succ']
    exact Nat.mul_lt_mul_of_pos_right hhigh (Nat.two_pow_pos _)

/-- Rounded, it has 53 bits, or is the next power of two. -/
theorem wholeUnits_bounds (hn : n ≠ 0) : fractions ≤ wholeUnits n ∧ wholeUnits n ≤ 2 * fractions := by
  obtain ⟨hlow, hhigh⟩ := bits_bounds hn
  have hpos : 0 < 2 ^ (n.log2 - 52) := Nat.two_pow_pos _
  obtain ⟨error, herror, hhalf, -⟩ := roundDiv_error (n * 2 ^ (52 - n.log2)) hpos
  obtain ⟨hbelow, habove⟩ := abs_le.1 (show |error| ≤ |error| from le_refl _)
  unfold wholeUnits
  set num := n * 2 ^ (52 - n.log2)
  set den := 2 ^ (n.log2 - 52)
  constructor
  · by_contra hlt
    have hnext : ((roundDiv num den : ℤ) + 1) * den ≤ fractions * den := by
      gcongr
      omega
    zify at hlow hpos
    push_cast at hnext
    linarith
  · by_contra hlt
    have hnext : ((2 * fractions : ℕ) + 1 : ℤ) * den ≤ roundDiv num den * den := by
      gcongr
      omega
    zify at hhigh hpos
    push_cast at hnext
    linarith

/-- The pattern of a natural number: the place of its leading bit, and its units. -/
theorem ofNat_eq (hn : n ≠ 0) (hlog : n.log2 ≤ 63) :
    ofNat n = ofMagnitude false ((n.log2 + 1022) * fractions + wholeUnits n) := by
  have hguess : max ((n.log2 : ℤ) - (Nat.log2 1 : ℕ) - 53) (-1074) = n.log2 - 53 := by
    have hone : Nat.log2 1 = 0 := rfl
    omega
  -- the quotient has a bit more than was guessed, since nothing is lost by a divisor of one
  have habove : 2 * fractions * 1 * twoTo ((n.log2 : ℤ) - 53).toNat ≤
      n * twoTo (-((n.log2 : ℤ) - 53)).toNat := by
    have hlow : 2 ^ n.log2 ≤ n := Nat.log2_self_le hn
    have hup : ((n.log2 : ℤ) - 53).toNat = n.log2 - 53 := by omega
    have hdown : (-((n.log2 : ℤ) - 53)).toNat = 53 - n.log2 := by omega
    have hsum : 53 + (n.log2 - 53) = n.log2 + (53 - n.log2) := by omega
    rw [hup, hdown]
    calc
      2 * fractions * 1 * twoTo (n.log2 - 53) = 2 ^ 53 * 2 ^ (n.log2 - 53) := rfl
      _ = 2 ^ n.log2 * 2 ^ (53 - n.log2) := by rw [← Nat.pow_add, hsum, Nat.pow_add]
      _ ≤ n * 2 ^ (53 - n.log2) := Nat.mul_le_mul_right _ hlow
  have hdown : (-((n.log2 : ℤ) - 53 + 1)).toNat = 52 - n.log2 := by omega
  have hup : ((n.log2 : ℤ) - 53 + 1).toNat = n.log2 - 52 := by omega
  have hplace : ((n.log2 : ℤ) - 53 + 1 + 1074).toNat = n.log2 + 1022 := by omega
  have hrange : (n.log2 + 1022) * fractions + wholeUnits n < 2047 * fractions := by
    have hunits := (wholeUnits_bounds hn).2
    unfold fractions at *
    omega
  have hunits : roundDiv (n * twoTo (52 - n.log2)) (1 * twoTo (n.log2 - 52)) = wholeUnits n := by
    rw [Nat.one_mul]
    rfl
  unfold ofNat ofRatio?
  simp only [if_neg hn, hguess, if_pos habove, hdown, hup, hplace, hunits, if_pos hrange,
    Option.getD_some]

theorem ofNat_spec (hn : n ≠ 0) (hlog : n.log2 ≤ 63) :
    (ofNat n).Finite ∧ (ofNat n).toRat = wholeUnits n * unitOf n ∧
      (Even (wholeUnits n) → Even (ofNat n).significand) := by
  obtain ⟨hlow, hhigh⟩ := wholeUnits_bounds hn
  have hplace : ((n.log2 + 1022 : ℕ) : ℤ) - 1074 = n.log2 - 52 := by omega
  have hspec := @ofMagnitude_spec (n.log2 + 1022) (wholeUnits n) (by omega) hlow hhigh
  rwa [← ofNat_eq hn hlog, hplace] at hspec

/-- Distances from a multiple of the unit are distances of whole numbers. -/
theorem distance_eq (n : ℕ) (k : ℤ) :
    |k * unitOf n - n| = (|k * (2 ^ (n.log2 - 52) : ℕ) - (n * 2 ^ (52 - n.log2) : ℕ)| : ℤ) /
      2 ^ (52 - n.log2) := by
  have hunit : unitOf n * 2 ^ (52 - n.log2) = 2 ^ (n.log2 - 52) := by
    have hsum : (n.log2 : ℤ) - 52 + (52 - n.log2 : ℕ) = (n.log2 - 52 : ℕ) := by omega
    rw [unitOf, ← zpow_natCast, ← zpow_add₀ (by norm_num), hsum, zpow_natCast]
  have hpow : (0 : ℚ) < 2 ^ (52 - n.log2) := by positivity
  rw [eq_div_iff (ne_of_gt hpow), ← abs_of_pos hpow, ← abs_mul]
  push_cast
  rw [sub_mul, mul_assoc, hunit]

/-- No multiple of the unit is nearer; if another one is as near, the significand is even. -/
theorem ofNat_near_multiple (hn : n ≠ 0) (hlog : n.log2 ≤ 63) (k : ℤ) :
    |(ofNat n).toRat - n| ≤ |k * unitOf n - n| ∧
      (|k * unitOf n - n| = |(ofNat n).toRat - n| →
        k * unitOf n = (ofNat n).toRat ∨ Even (ofNat n).significand) := by
  obtain ⟨-, hvalue, heven⟩ := ofNat_spec hn hlog
  obtain ⟨hnear, htie⟩ :=
    roundDiv_nearest (n * 2 ^ (52 - n.log2)) (Nat.two_pow_pos (n.log2 - 52)) k
  have hpow : (0 : ℚ) < 2 ^ (52 - n.log2) := by positivity
  have hwhole := distance_eq n (wholeUnits n)
  rw [Int.cast_natCast, ← hvalue] at hwhole
  rw [hwhole, distance_eq n k]
  constructor
  · rw [div_le_div_iff_of_pos_right hpow]
    exact_mod_cast hnear
  · intro hsame
    rw [div_left_inj' (ne_of_gt hpow)] at hsame
    rcases htie (by exact_mod_cast hsame) with hk | hunits
    · left
      rw [hk, hvalue]
      rfl
    · exact .inr (heven hunits)

/-- What is below the leading bit of the number is farther from it. -/
theorem ofNat_near_below (hn : n ≠ 0) (hlog : n.log2 ≤ 63) {q : ℚ} (hq : q < 2 ^ (n.log2 : ℤ)) :
    |(ofNat n).toRat - n| < |q - n| := by
  have hleading : ((fractions : ℤ) : ℚ) * unitOf n = 2 ^ (n.log2 : ℤ) := by
    have hfractions : ((fractions : ℤ) : ℚ) = 2 ^ (52 : ℤ) := by norm_num
    have hsum : 52 + ((n.log2 : ℤ) - 52) = n.log2 := by omega
    rw [hfractions, unitOf, ← zpow_add₀ (by norm_num), hsum]
  have hle : (2 : ℚ) ^ (n.log2 : ℤ) ≤ n := by
    rw [zpow_natCast]
    exact_mod_cast Nat.log2_self_le hn
  have hbit := (ofNat_near_multiple hn hlog fractions).1
  rw [hleading, abs_of_nonpos (sub_nonpos.2 hle)] at hbit
  rw [abs_of_neg (sub_neg.2 (lt_of_lt_of_le hq hle))]
  linarith

end Whole

/-- **A natural number below `2 ^ 64` becomes the double nearest to it.** -/
theorem nearest_ofNat {n : ℕ} (h : n < 2 ^ 64) : (ofNat n).Nearest n := by
  rcases Nat.eq_zero_or_pos n with rfl | hpos
  · have hzero : (ofNat 0).toRat = 0 := toRat_zero
    refine ⟨by unfold Finite; decide, ?_, ?_⟩
    · intro y _
      rw [hzero]
      simp
    · intro y _ hsame
      rw [hzero] at hsame ⊢
      left
      simpa using hsame
  · have hn : n ≠ 0 := Nat.pos_iff_ne_zero.1 hpos
    have hlog : n.log2 ≤ 63 := Nat.le_of_lt_succ ((Nat.log2_lt hn).2 h)
    have hcases (y : Double) : y.toRat < 2 ^ (n.log2 : ℤ) ∨ ∃ k : ℤ, y.toRat = k * unitOf n := by
      rcases lt_or_ge y.toRat (2 ^ (n.log2 : ℤ)) with hy | hy
      · exact .inl hy
      · refine .inr (exists_multiple ?_)
        rwa [sub_add_cancel]
    refine ⟨(ofNat_spec hn hlog).1, fun y _ => ?_, fun y _ hsame => ?_⟩
    · rcases hcases y with hy | ⟨k, hk⟩
      · exact le_of_lt (ofNat_near_below hn hlog hy)
      · rw [hk]
        exact (ofNat_near_multiple hn hlog k).1
    · rcases hcases y with hy | ⟨k, hk⟩
      · exact absurd hsame (ne_of_gt (ofNat_near_below hn hlog hy))
      · rw [hk] at hsame ⊢
        exact (ofNat_near_multiple hn hlog k).2 hsame

end SwiftScribe.Double
