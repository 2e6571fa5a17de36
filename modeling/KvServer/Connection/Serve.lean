import KvServer.Command.Execute
import KvServer.Connection.Error
import KvServer.Connection.Stats
import KvServer.Request.Reader

/-!
# Serving a connection

A connection is read, executed and answered request by request. A refused command is answered with an
error and the connection goes on; bytes that are no request end it, since nothing behind them can be
trusted, and so does a reply that cannot be sent. To execute a request always comes to an outcome, so there
is no reply for one that breaks off in the middle. This module defines:

* `Sending`, how the replies of a connection fare on their way to the client
* `Connection`, the state between two requests
* `Connection.respond`, which executes and answers one request
* `Connection.serve`, which does so until the stream ends or fails, or a reply cannot be sent
* `Store.serve`, a whole connection from its opening to its closing
-/

namespace KvServer

/-- How a reply fails to be sent: some bytes of it have gone out when the transport breaks. -/
structure SendFailure where
  count : Nat
  failure : Failure
  deriving DecidableEq, Repr

/-- For each reply of a connection, how it fails to be sent, if it does. -/
abbrev Sending := (reply : Nat) → Option SendFailure

/-- Every reply is sent. -/
def Sending.whole : Sending :=
  fun _ => none

/-- A connection between two requests: what is still to be read, the store it works on, the
statistics it adds to, and the bytes sent so far. -/
structure Connection where
  reader : Reader
  store : Store
  stats : ConnectionStats
  sent : Array UInt8

/-- What is left of a connection: the bytes sent, the error that ended it, the store and the
statistics. -/
structure Served where
  sent : Bytes
  error? : Option ConnectionError
  store : Store
  stats : ConnectionStats

namespace Connection

/-- Executes a request and counts it. The reply is still to be sent. -/
def answer (connection : Connection) (now : Instant) (arguments : List Bytes) : Reply × Connection :=
  let (outcome, store) := execute arguments now connection.store
  let reply := outcome.reply
  (reply, { connection with store := store, stats := connection.stats.answered reply.isError })

def send (connection : Connection) (reply : Reply) : Connection :=
  let wire := reply.encode
  { connection with
    stats := connection.stats.wrote wire.length
    sent := connection.sent ++ wire }

def respond (connection : Connection) (now : Instant) (arguments : List Bytes) : Connection :=
  let (reply, connection) := connection.answer now arguments
  connection.send reply

def finish (connection : Connection) (error? : Option ConnectionError) : Served :=
  ⟨connection.sent.toList, error?, connection.store, connection.stats.closed⟩

/-- Executes a request and gives up on sending the reply. The bytes that have gone out are not counted. -/
def breakOff (connection : Connection) (now : Instant) (arguments : List Bytes)
    (broken : SendFailure) : Served :=
  let (reply, connection) := connection.answer now arguments
  { connection with sent := connection.sent ++ reply.encode.take broken.count }.finish
    (some (.transport broken.failure))

/-- The error that a connection ends with when no further request can be read. -/
def errorOf? : RequestError → Option ConnectionError
  | .closed => none
  | error => some (.request error)

/-- Answers requests, each at its own reading of the clock, until none can be read any more or a reply
cannot be sent. -/
def serve (connection : Connection) (readings : Nat → Instant) (sending : Sending) : Served :=
  match _ : connection.reader.request with
  | .error error _ => connection.finish (errorOf? error)
  | .ok arguments rest =>
    let connection := { connection with reader := rest }
    match sending 0 with
    | some broken => connection.breakOff (readings 0) arguments broken
    | none =>
      (connection.respond (readings 0) arguments).serve (fun served => readings (served + 1))
        fun served => sending (served + 1)
termination_by connection.reader.size
decreasing_by exact Reader.progressive_request _ _ _ ‹_›

end Connection

/-- Serves one connection on a store: opens it, answers its requests as far as the replies can be sent, and
closes it. -/
def Store.serveSending (store : Store) (stats : ConnectionStats) (source : Source)
    (readings : Nat → Instant) (sending : Sending) : Served :=
  Connection.serve ⟨.ofSource source, store, stats.opened, #[]⟩ readings sending

/-- Serves one connection on a store, with a client that takes every reply. -/
def Store.serve (store : Store) (stats : ConnectionStats) (source : Source)
    (readings : Nat → Instant) : Served :=
  store.serveSending stats source readings .whole

end KvServer
