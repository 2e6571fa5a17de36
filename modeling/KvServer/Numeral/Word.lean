/-!
# Arithmetic on 64-bit words

Sums that are refused or held at the border instead of wrapping, each stated through the integers.
-/

namespace KvServer.Word

/-- The sum of two integers, if it fits into 64 bits. -/
def checkedAdd? (a b : Int64) : Option Int64 :=
  let sum := a.toInt + b.toInt
  if Int64.minValue.toInt ≤ sum ∧ sum ≤ Int64.maxValue.toInt then some (Int64.ofInt sum)
  else none

theorem toInt_ofInt_of_mem {n : Int} (low : Int64.minValue.toInt ≤ n)
    (high : n ≤ Int64.maxValue.toInt) : (Int64.ofInt n).toInt = n := by
  rw [Int64.toInt_minValue] at low
  rw [Int64.toInt_maxValue] at high
  exact Int64.toInt_ofInt_of_le (by omega) (by omega)

theorem checkedAdd?_eq_some_iff {a b c : Int64} :
    checkedAdd? a b = some c ↔ c.toInt = a.toInt + b.toInt := by
  simp only [checkedAdd?]
  split
  next inside =>
    rw [Option.some_inj]
    constructor
    · rintro rfl
      exact toInt_ofInt_of_mem inside.1 inside.2
    · intro sum
      rw [← sum, Int64.ofInt_toInt]
  next outside =>
    refine iff_of_false nofun fun sum => outside ?_
    rw [← sum]
    exact ⟨Int64.minValue_le_toInt c, Int64.toInt_le c⟩

theorem checkedAdd?_one (n : Int64) :
    checkedAdd? n 1 = if n = Int64.maxValue then none else some (n + 1) := by
  split
  next top => subst top; decide
  next below =>
    have atMost := Int64.toInt_le n
    have atLeast := Int64.minValue_le_toInt n
    have notTop : n.toInt ≠ Int64.maxValue.toInt := fun same => below (Int64.toInt_inj.1 same)
    rw [Int64.toInt_maxValue] at atMost notTop
    rw [Int64.toInt_minValue] at atLeast
    have one : (1 : Int64).toInt = 1 := rfl
    rw [checkedAdd?_eq_some_iff, Int64.toInt_add, one]
    exact Int.bmod_eq_of_le (by omega) (by omega)

/-- The sum of two numbers, held at the largest number. -/
def saturatingAdd (a b : UInt64) : UInt64 :=
  UInt64.ofNat (min (a.toNat + b.toNat) (UInt64.size - 1))

theorem toNat_saturatingAdd (a b : UInt64) :
    (saturatingAdd a b).toNat = min (a.toNat + b.toNat) (UInt64.size - 1) :=
  UInt64.toNat_ofNat_of_lt (by simp only [UInt64.size]; omega)

/-- The difference of two numbers, held at zero. -/
def saturatingSub (a b : UInt64) : UInt64 :=
  UInt64.ofNat (a.toNat - b.toNat)

theorem toNat_saturatingSub (a b : UInt64) :
    (saturatingSub a b).toNat = a.toNat - b.toNat :=
  UInt64.toNat_ofNat_of_lt (Nat.lt_of_le_of_lt (Nat.sub_le ..) a.toNat_lt)

/-- A number as an integer, held at the largest integer. -/
def clampedInt (n : UInt64) : Int64 :=
  if n.toNat ≤ Int64.maxValue.toInt.toNat then Int64.ofInt n.toNat else Int64.maxValue

theorem clampedInt_eq (n : UInt64) :
    clampedInt n = Int64.ofNat (min n.toNat 9223372036854775807) := by
  have top : Int64.maxValue.toInt.toNat = 9223372036854775807 := rfl
  unfold clampedInt
  rw [top]
  split
  next small => rw [Nat.min_eq_left small]; rfl
  next large => rw [Nat.min_eq_right (by omega)]; rfl

end KvServer.Word
