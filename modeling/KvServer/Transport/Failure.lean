/-!
# Transport failures

The ways in which a transport can break while bytes are read from it or written to it.
-/

namespace KvServer

inductive Failure where
  | connectionReset
  | brokenPipe
  | connectionAborted
  | unexpectedEof
  | timedOut
  | permissionDenied
  | other (description : String)
  deriving DecidableEq, Repr

namespace Failure

def message : Failure → String
  | .connectionReset => "connection reset"
  | .brokenPipe => "broken pipe"
  | .connectionAborted => "connection aborted"
  | .unexpectedEof => "unexpected end of file"
  | .timedOut => "timed out"
  | .permissionDenied => "permission denied"
  | .other description => description

/-- Says whether the failure means that the peer is gone. -/
def isReset : Failure → Bool
  | .connectionReset | .brokenPipe | .connectionAborted => true
  | _ => false

end Failure

end KvServer
