import KvServer.Command.Basic
import KvServer.Expiry.Passive

/-!
# Executing commands

What each command does to a store is a script. Every command that uses an existing key first drops
the key if it has expired; a write replaces the whole entry and has no need to. This module defines:

* `Command.script`, the accesses of each command and its outcome
* `Command.apply`, a command at one moment
* `execute`, the same for the arguments of a request
* `answer`, the reply that a client gets to a request
-/

namespace KvServer

/-- What becomes of a request: a reply, or a refusal. -/
abbrev Outcome := Except CommandError Reply

/-- The refusal of a command whose increment was refused. -/
def CommandError.ofIncrement : IncrementError → CommandError
  | .notAnInteger => .notAnInteger
  | .overflow => .overflow

namespace Command

/-- The integer that tells how long a key has still to live: -2 without the key, -1 without a
deadline, else the seconds, held at the largest integer. -/
def timeLeftCode : Store.TimeLeft → Int64
  | .missing => -2
  | .unlimited => -1
  | .seconds left => Word.clampedInt left

/-- The accesses of a command, and its outcome. -/
def script : Command → Script Outcome
  | .ping none => pure (.ok .pong)
  | .ping (some message) => pure (.ok (.bulk message))
  | .get key => do
    let _ ← dropIfExpired key
    match ← Script.perform (.getLive key) with
    | some value => pure (.ok (.bulk value))
    | none => pure (.ok .null)
  | .set key value => do
    let _ ← Script.perform (.set key value)
    pure (.ok .ok)
  | .incr key => do
    let _ ← dropIfExpired key
    match ← Script.perform (.incrementBy key 1) with
    | .ok sum => pure (.ok (.integer sum))
    | .error error => pure (.error (.ofIncrement error))
  | .expire key seconds => do
    let _ ← dropIfExpired key
    let found ← Script.perform (.expireIn key seconds)
    pure (.ok (.integer (if found then 1 else 0)))
  | .ttl key => do
    let _ ← dropIfExpired key
    let left ← Script.perform (.timeLeft key)
    pure (.ok (.integer (timeLeftCode left)))

/-- Runs a command at one moment. -/
def apply (command : Command) (now : Instant) (store : Store) : Outcome × Store :=
  command.script.run now store

end Command

/-- Runs the command that a request asks for, at one moment. -/
def execute (arguments : List Bytes) (now : Instant) (store : Store) : Outcome × Store :=
  match Command.ofArguments arguments with
  | .error error => (.error error, store)
  | .ok command => command.apply now store

def Outcome.reply : Outcome → Reply
  | .ok reply => reply
  | .error error => error.reply

end KvServer
