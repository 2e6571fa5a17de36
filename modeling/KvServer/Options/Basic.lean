import KvServer.Expiry.Policy
import KvServer.Numeral.Decimal
import KvServer.Numeral.Scientific
import KvServer.Numeral.Shortest

/-!
# Options

What the server can be told on its command line: where to listen, how to expire keys, how much to
log. This module defines:

* `Options`, with its standard values
* `OptionName`, the options that take a value
* `ValueFault`, the reasons to refuse a value, with their wording
* `Options.assign`, which reads the value of one option
-/

namespace KvServer

structure Options where
  host : String
  port : UInt16
  policy : Policy
  logLevel : String
  deriving DecidableEq, Repr

namespace Options

/-- The settings of a server that is told nothing. -/
def standard : Options :=
  ⟨"127.0.0.1", 6379, .standard, "info"⟩

def version : String := "0.1.0"

def bindAddress (options : Options) : String :=
  options.host ++ ":" ++ toString options.port.toNat

end Options

/-- An option that takes a value. -/
inductive OptionName where
  | host
  | port
  | expiryInterval
  | expirySampleSize
  | expiryThreshold
  | logLevel
  deriving DecidableEq, Repr

namespace OptionName

def text : OptionName → String
  | .host => "host"
  | .port => "port"
  | .expiryInterval => "expiry-interval-ms"
  | .expirySampleSize => "expiry-sample-size"
  | .expiryThreshold => "expiry-threshold"
  | .logLevel => "log-level"

def all : List OptionName :=
  [.host, .port, .expiryInterval, .expirySampleSize, .expiryThreshold, .logLevel]

def ofText? (text : String) : Option OptionName :=
  all.find? (·.text == text)

def ofLetter? (letter : Char) : Option OptionName :=
  if letter = 'p' then some .port else none

end OptionName

/-! ## Values -/

/-- The numbers that an option takes: those between two bounds, or all from one number on. -/
inductive ValueRange where
  | between (first last : Nat)
  | startingAt (first : Nat)
  deriving DecidableEq, Repr

/-- The notation of a range: `..=` stands before a bound of the option, `..` before the largest
number there is. -/
def ValueRange.text : ValueRange → String
  | .between first last => toString first ++ "..=" ++ toString last
  | .startingAt first => toString first ++ ".." ++ toString (UInt64.size - 1)

inductive ValueFault where
  | notAnInteger (fault : Decimal.Fault)
  | outOfRange (value : Int) (range : ValueRange)
  | notANumber (text : String)
  | notAFraction (value : Binary64)
  deriving DecidableEq, Repr

def ValueFault.message : ValueFault → String
  | .notAnInteger fault => fault.message
  | .outOfRange value range => toString value ++ " is not in " ++ range.text
  | .notANumber text => "'" ++ text ++ "' is not a number"
  | .notAFraction value => Shortest.text value ++ " is not between 0 and 1"

namespace Options

def readPort (text : String) : Except ValueFault UInt16 :=
  match Decimal.int64 (Utf8.encode text) with
  | .error fault => .error (.notAnInteger fault)
  | .ok n =>
    if 0 ≤ n.toInt ∧ n.toInt < UInt16.size then .ok (UInt16.ofNat n.toInt.toNat)
    else .error (.outOfRange n.toInt (.between 0 (UInt16.size - 1)))

def readCount (text : String) : Except ValueFault UInt64 :=
  (Decimal.unsigned (Utf8.encode text)).mapError .notAnInteger

def readInterval (text : String) : Except ValueFault UInt64 :=
  match readCount text with
  | .error fault => .error fault
  | .ok n => if n = 0 then .error (.outOfRange 0 (.startingAt 1)) else .ok n

def readFraction (text : String) : Except ValueFault Binary64 :=
  match Scientific.read? text with
  | none => .error (.notANumber text)
  | some x => if .zero ≤ x ∧ x ≤ .one then .ok x else .error (.notAFraction x)

def assign (options : Options) (name : OptionName) (text : String) : Except ValueFault Options :=
  match name with
  | .host => .ok { options with host := text }
  | .logLevel => .ok { options with logLevel := text }
  | .port => (readPort text).map fun port => { options with port }
  | .expiryInterval => (readInterval text).map fun interval =>
    { options with policy := { options.policy with interval } }
  | .expirySampleSize => (readCount text).map fun sampleSize =>
    { options with policy := { options.policy with sampleSize } }
  | .expiryThreshold => (readFraction text).map fun threshold =>
    { options with policy := { options.policy with threshold } }

end Options

end KvServer
