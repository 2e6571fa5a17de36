import KvServer.Numeral.Binary64

/-!
# Reading numbers in scientific notation

A number is an optional sign and either one of the words `inf`, `infinity` and `nan` in any case, or
digits with an optional point and an optional exponent. At least one digit stands before or after
the point, and at least one in the exponent. The value is the nearest double-precision number.
-/

namespace KvServer.Scientific

/-- Splits off a leading sign and says whether it was `-`. -/
def sign : List Char → Bool × List Char
  | '-' :: rest => (true, rest)
  | '+' :: rest => (false, rest)
  | rest => (false, rest)

/-- Splits off the leading digits. -/
def spanDigits (s : List Char) : List Char × List Char :=
  s.span Char.isDigit

/-- The value of digits. -/
def value (digits : List Char) : Nat :=
  digits.foldl (fun n c => 10 * n + (c.toNat - '0'.toNat)) 0

/-- The digits behind a leading point, and what follows them. -/
def fraction : List Char → List Char × List Char
  | '.' :: rest => spanDigits rest
  | rest => ([], rest)

/-- Reads an exponent that ends the text; no text at all is the exponent zero. -/
def exponent? : List Char → Option Int
  | [] => some 0
  | mark :: rest =>
    let (negative, rest) := sign rest
    let (digits, rest) := spanDigits rest
    if (mark = 'e' ∨ mark = 'E') ∧ digits ≠ [] ∧ rest = [] then
      some (if negative then -value digits else value digits)
    else none

def unsigned? (negative : Bool) (s : List Char) : Option Binary64 :=
  let word := s.map Char.toLower
  if word = "inf".toList ∨ word = "infinity".toList then
    some (.ofMagnitude negative Binary64.infinity)
  else if word = "nan".toList then
    some (.ofMagnitude negative (Binary64.infinity + Binary64.leadingBit / 2))
  else
    let (whole, rest) := spanDigits s
    let (part, rest) := fraction rest
    let digits := whole ++ part
    if digits = [] then none
    else (exponent? rest).map fun exponent =>
      .ofScientific negative (value digits) digits.length (exponent - part.length)

def read? (text : String) : Option Binary64 :=
  let (negative, rest) := sign text.toList
  unsigned? negative rest

end KvServer.Scientific
