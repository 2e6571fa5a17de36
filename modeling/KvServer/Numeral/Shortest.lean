import KvServer.Numeral.Binary64

/-!
# The shortest text of a number

A finite number is written with the fewest decimal digits that lie closer to it than to any other
number, and of those the nearest; a tie between two goes up. The notation is positional throughout,
and an integer has no point.

* `Interval` holds the reals that round to a number.
* `shortest?` finds the coarsest power of ten with a multiple in the interval, and that multiple.
* `text` writes the result, and the words for infinity and NaN.
-/

namespace KvServer.Shortest

/-- The reals that round to `significand * 2 ^ exponent`. They reach half a unit up, and half a unit
down unless the gap below is the narrower one; the ends belong to it if the significand is even. -/
structure Interval where
  significand : Nat
  exponent : Int
  narrowBelow : Bool

/-- The interval of a finite magnitude. -/
def Interval.ofMagnitude (magnitude : Nat) : Interval :=
  let biased : Nat := magnitude / Binary64.leadingBit
  let fraction : Nat := magnitude % Binary64.leadingBit
  if biased = 0 then ⟨fraction, -1074, false⟩
  else ⟨Binary64.leadingBit + fraction, (biased : Int) - 1075, fraction = 0 ∧ 1 < biased⟩

/-- The unit of the significand, measured in multiples of `10 ^ t`, as a fraction. -/
def Interval.unit (i : Interval) (t : Int) : Nat × Nat :=
  (Nat.pow 10 (-t).toNat <<< i.exponent.toNat, Nat.pow 10 t.toNat <<< (-i.exponent).toNat)

/-- Says whether `k * 10 ^ t` lies in the interval. Both sides are counted in quarters of a unit. -/
def Interval.contains (i : Interval) (k : Nat) (t : Int) : Bool :=
  let (num, den) := i.unit t
  let point := 4 * k * den
  let low := (4 * i.significand - if i.narrowBelow then 1 else 2) * num
  let high := (4 * i.significand + 2) * num
  if i.significand % 2 = 0 then low ≤ point && point ≤ high else low < point && point < high

/-- The multiple of `10 ^ t` in the interval that is nearest to its number. -/
def Interval.nearest? (i : Interval) (t : Int) : Option Nat :=
  let (num, den) := i.unit t
  let below := i.significand * num / den
  let twice := 2 * (i.significand * num % den)
  match i.contains below t, i.contains (below + 1) t with
  | true, true => some (if twice < den then below else below + 1)
  | true, false => some below
  | false, true => some (below + 1)
  | false, false => none

/-- The coarsest multiple of a power of ten in the interval. No number is as large as `10 ^ 309`, and
every interval is at least as wide as `10 ^ -324`. -/
def shortest? (i : Interval) : Option (Nat × Int) :=
  (List.range 634).findSome? fun (step : Nat) =>
    let t : Int := 309 - (step : Int)
    (i.nearest? t).map (·, t)

/-- The positional text of `k * 10 ^ t`. -/
def positional (k : Nat) (t : Int) : List Char :=
  let digits := Nat.toDigits 10 k
  let zeros := fun n => List.replicate n '0'
  if 0 ≤ t then digits ++ zeros t.toNat
  else
    let places := (-t).toNat
    let padded := zeros (places + 1 - digits.length) ++ digits
    padded.take (padded.length - places) ++ '.' :: padded.drop (padded.length - places)

/-- The text of a magnitude. -/
def magnitudeText (magnitude : Nat) : List Char :=
  if magnitude = 0 then ['0']
  else if magnitude = Binary64.infinity then "inf".toList
  else match shortest? (.ofMagnitude magnitude) with
    | some (k, t) => positional k t
    | none => []

/-- The text of a number. -/
def text (x : Binary64) : String :=
  if x.isNaN then "NaN"
  else String.ofList ((if x.isNegative then ['-'] else []) ++ magnitudeText x.magnitude)

end KvServer.Shortest
