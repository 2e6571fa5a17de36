import KvServer.Numeral.Binary64
import Mathlib.Algebra.Order.Field.Power
import Mathlib.Data.Rat.Cast.Order
import Mathlib.Order.Monotone.Basic
import Mathlib.Tactic.NormNum
import Mathlib.Tactic.Linarith
import Mathlib.Tactic.Positivity
import Mathlib.Tactic.Ring

/-!
# What double-precision numbers stand for

A finite number stands for a significand times a power of two. The order of the bits is the order of these
values, and of the quotients that decide whether a cycle goes on two are known for every count.

* `Binary64.value?`, the rational number behind the bits
* `le_iff_value_le`: the order on bits is the order on values
* `between_iff`: the numbers from zero to one
* `quotient_zero_left` and `quotient_self`: a share of nothing is zero, and all of it is one
-/

namespace KvServer.Binary64

/-! ## Values -/

/-- What a finite magnitude stands for: so many units, each a power of two. -/
def valueOf (magnitude : Nat) : ℚ :=
  significandOf magnitude * (2 : ℚ) ^ (scaleOf magnitude - 1075 : ℤ)

/-- The rational number that a number stands for. The infinities and the NaNs stand for none. -/
def value? (x : Binary64) : Option ℚ :=
  if x.magnitude < infinity then
    some (if x.isNegative then -valueOf x.magnitude else valueOf x.magnitude)
  else none

theorem significandOf_of_lt {m : Nat} (below : m < leadingBit) : significandOf m = m :=
  if_neg (Nat.not_le.2 below)

theorem significandOf_of_le {m : Nat} (above : leadingBit ≤ m) :
    significandOf m = leadingBit + m % leadingBit :=
  if_pos above

/-- The next magnitude adds a unit, or begins the next power of two behind the last significand. -/
theorem next_cases (m : Nat) :
    (significandOf (m + 1) = significandOf m + 1 ∧ scaleOf (m + 1) = scaleOf m) ∨
      (significandOf m + 1 = 2 * leadingBit ∧ significandOf (m + 1) = leadingBit ∧
        scaleOf (m + 1) = scaleOf m + 1) := by
  rcases Nat.lt_trichotomy (m + 1) leadingBit with below | atLeading | above
  · left
    refine ⟨by rw [significandOf_of_lt below, significandOf_of_lt (Nat.lt_of_succ_lt below)], ?_⟩
    unfold leadingBit at below
    simp only [scaleOf, leadingBit]
    omega
  · left
    rw [significandOf_of_le atLeading.ge, significandOf_of_lt (Nat.lt_of_succ_le atLeading.le)]
    simp only [scaleOf, leadingBit] at *
    omega
  · rw [significandOf_of_le above.le, significandOf_of_le (Nat.le_of_lt_succ above)]
    simp only [scaleOf, leadingBit] at *
    omega

theorem valueOf_strictMono : StrictMono valueOf := by
  refine strictMono_nat_of_lt_succ fun m => ?_
  have unit : (0 : ℚ) < 2 ^ (scaleOf m - 1075 : ℤ) := by positivity
  rcases next_cases m with ⟨significand, scale⟩ | ⟨last, significand, scale⟩
  · rw [valueOf, valueOf, significand, scale]
    push_cast
    linarith
  · -- The unit doubles, so the leading bit alone is worth one old unit more than the last significand.
    have last : (significandOf m : ℚ) + 1 = 2 * leadingBit := mod_cast last
    have doubled : (2 : ℚ) ^ (scaleOf (m + 1) - 1075 : ℤ) = 2 ^ (scaleOf m - 1075 : ℤ) * 2 := by
      rw [scale, ← zpow_add_one₀ two_ne_zero]
      congr 1
      push_cast
      ring
    calc valueOf m = significandOf m * 2 ^ (scaleOf m - 1075 : ℤ) := rfl
      _ < (significandOf m + 1) * 2 ^ (scaleOf m - 1075 : ℤ) := by linarith
      _ = leadingBit * (2 ^ (scaleOf m - 1075 : ℤ) * 2) := by rw [last]; ring
      _ = valueOf (m + 1) := by rw [valueOf, significand, doubled]

theorem valueOf_zero : valueOf 0 = 0 := by
  simp [valueOf, significandOf, leadingBit]

theorem valueOf_nonneg (m : Nat) : 0 ≤ valueOf m := by
  rw [← valueOf_zero]
  exact valueOf_strictMono.monotone m.zero_le

/-! ## Order -/

/-- The value at a place in the order of all numbers. -/
def valueAt (rank : Int) : ℚ :=
  if rank < 0 then -valueOf rank.natAbs else valueOf rank.natAbs

theorem value?_eq_some_iff {x : Binary64} {t : ℚ} :
    x.value? = some t ↔ x.magnitude < infinity ∧ valueAt x.rank = t := by
  have place : valueAt x.rank = if x.isNegative then -valueOf x.magnitude else valueOf x.magnitude := by
    unfold valueAt rank
    by_cases negative : x.isNegative = true
    · -- A zero with a sign stands at the place of zero.
      rcases Nat.eq_zero_or_pos x.magnitude with nothing | positive
      · simp [negative, nothing, valueOf_zero]
      · simp [negative, positive]
    · simp [negative]
  simp [value?, place]

theorem valueAt_lt_valueAt {a b : Int} (less : a < b) : valueAt a < valueAt b := by
  unfold valueAt
  split
  next negative =>
    split
    next =>
      exact neg_lt_neg (valueOf_strictMono (by omega))
    next =>
      have positive : 0 < valueOf a.natAbs := valueOf_zero ▸ valueOf_strictMono (by omega)
      linarith [valueOf_nonneg b.natAbs]
  next =>
    rw [if_neg (by omega)]
    exact valueOf_strictMono (by omega)

theorem isNaN_of_finite {x : Binary64} (finite : x.magnitude < infinity) : x.isNaN = false := by
  simpa [isNaN] using finite.le

/-- Finite numbers are in the order of their values. -/
theorem le_iff_value_le {x y : Binary64} {s t : ℚ} (left : x.value? = some s)
    (right : y.value? = some t) : x ≤ y ↔ s ≤ t := by
  obtain ⟨finite, rfl⟩ := value?_eq_some_iff.1 left
  obtain ⟨finite', rfl⟩ := value?_eq_some_iff.1 right
  have ordered : StrictMono valueAt := fun _ _ => valueAt_lt_valueAt
  rw [le_iff, ordered.le_iff_le]
  simp [isNaN_of_finite finite, isNaN_of_finite finite']

theorem value?_zero : zero.value? = some 0 :=
  value?_eq_some_iff.2 ⟨by decide, valueOf_zero⟩

theorem value?_one : one.value? = some 1 := by
  refine value?_eq_some_iff.2 ⟨by decide, ?_⟩
  have place : one.rank = 0x3FF0000000000000 := by decide
  rw [place]
  norm_num [valueAt, valueOf, significandOf, scaleOf, leadingBit]

/-- The numbers from zero to one are those that stand for a fraction; the zero with a sign stands for the
fraction zero. -/
theorem between_iff (x : Binary64) :
    zero ≤ x ∧ x ≤ one ↔ ∃ t, x.value? = some t ∧ 0 ≤ t ∧ t ≤ 1 := by
  constructor
  · rintro ⟨low, high⟩
    have place : zero.rank = 0 ∧ one.rank = 0x3FF0000000000000 := by decide
    have finite : x.magnitude < infinity := by
      have atLeast := low.2.2
      have atMost := high.2.2
      rw [place.1] at atLeast
      rw [place.2] at atMost
      unfold infinity
      cases negative : x.isNegative <;> simp only [rank, negative] at atLeast atMost <;> omega
    have value := value?_eq_some_iff.2 ⟨finite, rfl⟩
    exact ⟨_, value, (le_iff_value_le value?_zero value).1 low,
      (le_iff_value_le value value?_one).1 high⟩
  · rintro ⟨t, value, low, high⟩
    exact ⟨(le_iff_value_le value?_zero value).2 low, (le_iff_value_le value value?_one).2 high⟩

/-! ## Quotients of counts -/

theorem magnitude_ofMagnitude {m : Nat} (small : m ≤ infinity) :
    (ofMagnitude false m).magnitude = m := by
  have word : (UInt64.ofNat m).toNat = m :=
    UInt64.toNat_ofNat_of_lt (by unfold infinity at small; simp only [UInt64.size]; omega)
  simp only [ofMagnitude, magnitude, Bool.false_eq_true, if_false, word, signBit]
  unfold infinity at small
  omega

theorem binaryExponent_self {k : Nat} : binaryExponent k k = 0 := by
  simp [binaryExponent]

theorem ofRatio_self {k : Nat} (positive : 0 < k) : ofRatio false k k = one := by
  have shifted : k <<< 52 = k * leadingBit := Nat.shiftLeft_eq ..
  have rounded : roundHalfEven (k * leadingBit) k = leadingBit := by
    simp [roundHalfEven, Nat.mul_div_cancel_left _ positive, Nat.mul_mod_right, positive]
  have magnitude : magnitudeOfRatio k k = 0x3FF0000000000000 := by
    simp [magnitudeOfRatio, binaryExponent_self, shifted, rounded]
    decide
  rw [ofRatio, if_neg positive.ne', magnitude]
  rfl

theorem magnitudeOfRatio_pos (n : Nat) : 0 < magnitudeOfRatio n 1 := by
  -- A count is no fraction, so its unit lies far above the least there is.
  have exponent : -1 ≤ binaryExponent n 1 := by
    have one : Nat.log2 1 = 0 := by decide
    unfold binaryExponent
    dsimp only
    split <;> omega
  simp only [magnitudeOfRatio, infinity, leadingBit]
  omega

theorem magnitudeOfRatio_le (num den : Nat) : magnitudeOfRatio num den ≤ infinity :=
  Nat.min_le_left ..

theorem significandOf_pos {m : Nat} (positive : 0 < m) : 0 < significandOf m := by
  unfold significandOf leadingBit
  split <;> omega

theorem ratio_fst (x : Binary64) :
    x.ratio.1 = significandOf x.magnitude <<< (scaleOf x.magnitude - 1075) :=
  rfl

theorem ratio_snd_pos (x : Binary64) : 0 < x.ratio.2 :=
  Nat.shiftLeft_pos_iff.2 Nat.one_pos

theorem ratio_ofNat_pos {n : Nat} (positive : 0 < n) : 0 < (ofNat n).ratio.1 := by
  have magnitude : (ofNat n).magnitude = magnitudeOfRatio n 1 := by
    rw [ofNat, ofRatio, if_neg positive.ne', magnitude_ofMagnitude (magnitudeOfRatio_le n 1)]
  rw [ratio_fst, magnitude]
  exact Nat.shiftLeft_pos_iff.2 (significandOf_pos (magnitudeOfRatio_pos n))

theorem ratio_ofNat_zero : (ofNat 0).ratio.1 = 0 := by
  have magnitude : (ofNat 0).magnitude = 0 := by
    rw [ofNat, ofRatio, if_pos rfl, magnitude_ofMagnitude (Nat.zero_le _)]
  have nothing : significandOf 0 = 0 := significandOf_of_lt (by norm_num [leadingBit])
  rw [ratio_fst, magnitude, nothing, Nat.zero_shiftLeft]

theorem quotient_zero_left (whole : Nat) : quotient 0 whole = zero := by
  rw [quotient, ratio_ofNat_zero, Nat.zero_mul]
  rfl

theorem quotient_self {n : Nat} (positive : 0 < n) : quotient n n = one := by
  rw [quotient, Nat.mul_comm (ofNat n).ratio.2]
  exact ofRatio_self (Nat.mul_pos (ratio_ofNat_pos positive) (ratio_snd_pos _))

end KvServer.Binary64
