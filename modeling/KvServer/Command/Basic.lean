import KvServer.Numeral.Decimal
import KvServer.Reply

/-!
# Commands

A request is a command if its first argument names one, in letters of any case, and the others are
what that command takes. This module defines:

* `CommandName` and `Command`
* `CommandError`, the reasons to refuse a request, with their wording
* `Command.ofArguments`, which reads a command

Of several faults the first in this order is reported: no arguments, an unknown name, a wrong number
of arguments, a time that is no integer, a negative time.
-/

namespace KvServer

/-! ## Names -/

inductive CommandName where
  | ping
  | get
  | set
  | incr
  | expire
  | ttl
  deriving DecidableEq, Repr

namespace CommandName

/-- A name in lower case. -/
def text : CommandName → String
  | .ping => "ping"
  | .get => "get"
  | .set => "set"
  | .incr => "incr"
  | .expire => "expire"
  | .ttl => "ttl"

def all : List CommandName :=
  [.ping, .get, .set, .incr, .expire, .ttl]

theorem mem_all (name : CommandName) : name ∈ all := by
  cases name <;> decide

/-- The name that some bytes spell, in letters of any case. -/
def ofBytes? (bytes : Bytes) : Option CommandName :=
  all.find? fun name => bytes.lowered == Utf8.encode name.text

end CommandName

/-! ## Errors -/

/-- Why a request was refused. The connection stays open. -/
inductive CommandError where
  | empty
  | unknown (name : Bytes)
  | wrongArity (name : CommandName)
  | notAnInteger
  | overflow
  | invalidExpireTime
  deriving DecidableEq, Repr

namespace CommandError

def message : CommandError → String
  | .empty => "ERR empty command"
  | .unknown name => "ERR unknown command '" ++ Utf8.lossy name ++ "'"
  | .wrongArity name => "ERR wrong number of arguments for '" ++ name.text ++ "' command"
  | .notAnInteger => "ERR value is not an integer or out of range"
  | .overflow => "ERR increment or decrement would overflow"
  | .invalidExpireTime => "ERR invalid expire time in '" ++ CommandName.expire.text ++ "' command"

/-- The reply that tells a client about a refusal. -/
def reply (error : CommandError) : Reply :=
  .error error.message

end CommandError

/-! ## Commands -/

/-- A command whose arguments have been checked. -/
inductive Command where
  | ping (message? : Option Bytes)
  | get (key : Bytes)
  | set (key value : Bytes)
  | incr (key : Bytes)
  | expire (key : Bytes) (seconds : UInt64)
  | ttl (key : Bytes)
  deriving DecidableEq, Repr

namespace Command

def name : Command → CommandName
  | .ping _ => .ping
  | .get _ => .get
  | .set _ _ => .set
  | .incr _ => .incr
  | .expire _ _ => .expire
  | .ttl _ => .ttl

def key? : Command → Option Bytes
  | .ping _ => none
  | .get key | .set key _ | .incr key | .expire key _ | .ttl key => some key

/-- Reads a number of seconds, which is not negative. -/
def seconds (text : Bytes) : Except CommandError UInt64 :=
  match Decimal.int64? text with
  | none => .error .notAnInteger
  | some n => if n < 0 then .error .invalidExpireTime else .ok (UInt64.ofNat n.toInt.toNat)

/-- Reads what follows the name of a command. -/
def ofName : CommandName → List Bytes → Except CommandError Command
  | .ping, [] => .ok (.ping none)
  | .ping, [message] => .ok (.ping (some message))
  | .get, [key] => .ok (.get key)
  | .set, [key, value] => .ok (.set key value)
  | .incr, [key] => .ok (.incr key)
  | .expire, [key, text] => (seconds text).map (.expire key)
  | .ttl, [key] => .ok (.ttl key)
  | name, _ => .error (.wrongArity name)

def ofArguments : List Bytes → Except CommandError Command
  | [] => .error .empty
  | first :: rest =>
    match CommandName.ofBytes? first with
    | none => .error (.unknown first)
    | some name => ofName name rest

end Command

end KvServer
