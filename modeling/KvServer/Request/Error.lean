import KvServer.Numeral.Decimal
import KvServer.Tag
import KvServer.Text.Quoted
import KvServer.Transport.Failure

/-!
# Request errors

What can end the reading of a request: the stream closed between requests or inside one, the bytes
form no request, or the transport broke.
-/

namespace KvServer

/-- How the bytes of a request violate its framing. -/
inductive FramingFault where
  | emptyLine
  | lineTooLong
  | missingTerminator
  deriving DecidableEq, Repr

def FramingFault.message : FramingFault → String
  | .emptyLine => "empty prefix line"
  | .lineTooLong => "prefix line too long"
  | .missingTerminator => "bulk string missing trailing CRLF"

inductive RequestError where
  /-- The stream ended before the first byte of a request. -/
  | closed
  /-- The stream ended inside a request. -/
  | unexpectedEnd
  | unexpectedTag (expected : Tag) (found : UInt8)
  | invalidInteger (digits : Bytes)
  | invalidBulkLength (length : Int64)
  | invalidArrayLength (count : Int64)
  | nullArgument
  | framing (fault : FramingFault)
  | tooLarge (size limit : Nat)
  | transport (failure : Failure)
  deriving DecidableEq, Repr

namespace RequestError

def hexByte (b : UInt8) : String :=
  String.ofList [Nat.digitChar (b.toNat / 16), Nat.digitChar (b.toNat % 16)]

/-- The wording of an error. Text from the peer is quoted. -/
def message : RequestError → String
  | .closed => "connection closed"
  | .unexpectedEnd => "unexpected end of stream"
  | .unexpectedTag expected found =>
    "expected '" ++ expected.char.toString ++ "' prefix, got 0x" ++ hexByte found
  | .invalidInteger digits => "invalid integer: " ++ Quoted.quote (Utf8.lossy digits)
  | .invalidBulkLength length => "invalid bulk string length: " ++ toString length.toInt
  | .invalidArrayLength count => "invalid array length: " ++ toString count.toInt
  | .nullArgument => "null bulk string is not a valid command argument"
  | .framing fault => "protocol error: " ++ fault.message
  | .tooLarge size limit =>
    "message too large: " ++ toString size ++ " (max: " ++ toString limit ++ ")"
  | .transport failure => "I/O error: " ++ failure.message

/-- Says whether the peer went away rather than sending something that is no request. -/
def isDisconnect : RequestError → Bool
  | .closed | .unexpectedEnd => true
  | _ => false

end RequestError

end KvServer
