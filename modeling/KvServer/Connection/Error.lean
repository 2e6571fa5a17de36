import KvServer.Request.Error

/-!
# Connection errors

A connection ends without an error only if the client closes it between two requests.
-/

namespace KvServer

/-- Why a connection was given up. -/
inductive ConnectionError where
  | transport (failure : Failure)
  | request (error : RequestError)
  deriving DecidableEq, Repr

namespace ConnectionError

def message : ConnectionError → String
  | .transport failure => "I/O error: " ++ failure.message
  | .request error => "Protocol error: " ++ error.message

/-- Says whether the client went away rather than misbehaving. -/
def isDisconnect : ConnectionError → Bool
  | .transport failure => failure.isReset
  | .request (.transport failure) => failure.isReset
  | .request error => error.isDisconnect

end ConnectionError

end KvServer
