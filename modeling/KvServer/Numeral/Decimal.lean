import KvServer.Text.Utf8

/-!
# Integer text

One decimal notation serves lengths, arguments, stored counters and options.

* `natural` reads digits up to a limit and stops at the first digit that passes it.
* `int64` reads an optional sign and digits as a 64-bit integer, `unsigned` does so without `-`.
* `length?` reads a length, which takes no `+`.
* `digits` and `ofInt` write the canonical text: no leading zero and no sign but `-`.
-/

namespace KvServer.Decimal

/-- Why a text is no integer of the type asked for. -/
inductive Fault where
  | empty
  | invalidDigit
  | tooLarge
  | tooSmall
  deriving DecidableEq, Repr

def Fault.message : Fault → String
  | .empty => "cannot parse integer from empty string"
  | .invalidDigit => "invalid digit found in string"
  | .tooLarge => "number too large to fit in target type"
  | .tooSmall => "number too small to fit in target type"

def digit? (b : UInt8) : Option Nat :=
  if 48 ≤ b ∧ b ≤ 57 then some (b.toNat - 48) else none

/-- Reads digits behind the value `read` so far. The first byte that is no digit, or that takes the
value past the limit, decides. -/
def readDigits (limit : Nat) (beyond : Fault) (read : Nat) : Bytes → Except Fault Nat
  | [] => .ok read
  | b :: rest =>
    match digit? b with
    | none => .error .invalidDigit
    | some d =>
      if limit < 10 * read + d then .error beyond
      else readDigits limit beyond (10 * read + d) rest

/-- Reads one or more digits whose value is at most `limit`. -/
def natural (limit : Nat) (beyond : Fault) (s : Bytes) : Except Fault Nat :=
  if s = [] then .error .invalidDigit else readDigits limit beyond 0 s

def plus : UInt8 := 43

def minus : UInt8 := 45

/-- Reads an optional sign and digits as a 64-bit integer. -/
def int64 : Bytes → Except Fault Int64
  | [] => .error .empty
  | b :: rest =>
    if b = minus then
      (natural Int64.minValue.toInt.natAbs .tooSmall rest).map fun n => Int64.ofInt (-n)
    else
      (natural Int64.maxValue.toInt.natAbs .tooLarge (if b = plus then rest else b :: rest)).map
        fun n => Int64.ofInt n

/-- Reads an optional `+` and digits as a 64-bit integer without sign. -/
def unsigned : Bytes → Except Fault UInt64
  | [] => .error .empty
  | b :: rest =>
    (natural (UInt64.size - 1) .tooLarge (if b = plus then rest else b :: rest)).map UInt64.ofNat

/-- The 64-bit integer that a text denotes. -/
def int64? (s : Bytes) : Option Int64 :=
  (int64 s).toOption

/-- The length that a text denotes: an integer written without `+`. -/
def length? (s : Bytes) : Option Int64 :=
  if s.head? = some plus then none else int64? s

/-- The decimal digits of a number, without leading zeros. -/
def digits (n : Nat) : Bytes :=
  if n < 10 then [48 + n.toUInt8] else digits (n / 10) ++ [48 + (n % 10).toUInt8]

/-- The canonical text of an integer. -/
def ofInt (n : Int) : Bytes :=
  if n < 0 then minus :: digits n.natAbs else digits n.natAbs

end KvServer.Decimal
