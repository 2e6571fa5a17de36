/-!
# Double-precision numbers

A number is kept as its 64 bits, so that order and rounding are exact statements about integers.

* `rank` places every number on one integer line, on which the two zeros coincide; `≤` compares
  ranks and holds of no pair with a NaN.
* `ofRatio` rounds a fraction to the nearest number, a tie to the even one.
* `quotient` divides two counts, each of which is rounded before.
* `ofScientific` rounds a decimal significand and exponent of any size.
-/

namespace KvServer

/-- A double-precision number, given by its bits. -/
structure Binary64 where
  bits : UInt64
  deriving DecidableEq, Repr

namespace Binary64

/-- The value of the sign bit, the highest of all. -/
def signBit : Nat := 0x8000000000000000

/-- The leading bit of a significand of 53 bits, which is left out of the representation. The
exponent begins where it would stand. -/
def leadingBit : Nat := 0x10000000000000

def magnitude (x : Binary64) : Nat :=
  x.bits.toNat % signBit

def isNegative (x : Binary64) : Bool :=
  signBit ≤ x.bits.toNat

/-- The magnitude of the infinities; the NaNs lie above it, the finite numbers below. -/
def infinity : Nat :=
  0x7FF0000000000000

def isNaN (x : Binary64) : Bool :=
  infinity < x.magnitude

/-- The place of a number in the order of all numbers. -/
def rank (x : Binary64) : Int :=
  if x.isNegative then -x.magnitude else x.magnitude

instance : LE Binary64 where
  le x y := x.isNaN = false ∧ y.isNaN = false ∧ x.rank ≤ y.rank

theorem le_iff (x y : Binary64) :
    x ≤ y ↔ x.isNaN = false ∧ y.isNaN = false ∧ x.rank ≤ y.rank :=
  Iff.rfl

instance (x y : Binary64) : Decidable (x ≤ y) :=
  decidable_of_iff' _ (le_iff x y)

def ofMagnitude (negative : Bool) (magnitude : Nat) : Binary64 :=
  ⟨UInt64.ofNat (if negative then signBit + magnitude else magnitude)⟩

def zero : Binary64 := ⟨0⟩

def one : Binary64 := ⟨0x3FF0000000000000⟩

/-- A fraction rounded to an integer, a tie to the even one. -/
def roundHalfEven (num den : Nat) : Nat :=
  let quotient := num / den
  let twice := 2 * (num % den)
  if twice < den ∨ (twice = den ∧ quotient % 2 = 0) then quotient else quotient + 1

/-- The exponent of the largest power of two that is at most the fraction `num / den`. -/
def binaryExponent (num den : Nat) : Int :=
  let e : Int := (num.log2 : Int) - den.log2
  if den <<< e.toNat ≤ num <<< (-e).toNat then e else e - 1

/-- The magnitude nearest to the positive fraction `num / den`. The significand is rounded to a
multiple of `2 ^ q`, where `q` leaves it 53 bits or is the least exponent there is; a significand
that rounds up to the next power of two carries into the exponent. -/
def magnitudeOfRatio (num den : Nat) : Nat :=
  let q : Int := max (binaryExponent num den - 52) (-1074)
  let significand := roundHalfEven (num <<< (-q).toNat) (den <<< q.toNat)
  min infinity ((q + 1074).toNat * leadingBit + significand)

/-- The number nearest to the fraction `num / den` with the given sign. -/
def ofRatio (negative : Bool) (num den : Nat) : Binary64 :=
  ofMagnitude negative (if num = 0 then 0 else magnitudeOfRatio num den)

/-- The number nearest to a count. -/
def ofNat (n : Nat) : Binary64 :=
  ofRatio false n 1

/-- The significand of a finite magnitude. Below the leading bit there is none to leave out. -/
def significandOf (magnitude : Nat) : Nat :=
  if leadingBit ≤ magnitude then leadingBit + magnitude % leadingBit else magnitude

/-- The exponent of the unit of that significand, raised by 1075. -/
def scaleOf (magnitude : Nat) : Nat :=
  max (magnitude / leadingBit) 1

/-- The magnitude of a finite number as a fraction. -/
def ratio (x : Binary64) : Nat × Nat :=
  let scale := scaleOf x.magnitude
  (significandOf x.magnitude <<< (scale - 1075), 1 <<< (1075 - scale))

/-- The quotient of two counts, which become numbers first. -/
def quotient (part whole : Nat) : Binary64 :=
  let dividend := (ofNat part).ratio
  let divisor := (ofNat whole).ratio
  ofRatio false (dividend.1 * divisor.2) (dividend.2 * divisor.1)

/-- The number nearest to `significand * 10 ^ exponent`, where the significand has at most `places`
digits. An exponent that alone decides for infinity or zero is never expanded. -/
def ofScientific (negative : Bool) (significand places : Nat) (exponent : Int) : Binary64 :=
  if significand = 0 ∨ exponent + places < -330 then ofMagnitude negative 0
  else if 310 < exponent then ofMagnitude negative infinity
  else ofRatio negative (significand * Nat.pow 10 exponent.toNat) (Nat.pow 10 (-exponent).toNat)

end Binary64

end KvServer
