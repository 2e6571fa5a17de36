import KvServer.Connection.Serve
import KvServer.Expiry.Cycle
import KvServer.Expiry.Schedule
import KvServer.Time.Clock

/-!
# Servers

A server is a store with a policy for expiry, a clock, and statistics. Active expiry can be started
and stopped; while it runs, cycles are due at equal intervals of the timer, and each sees the wall
clock of its moment. A cycle takes no time, so nothing comes between its passes, and it is never asked
to stop. What would be logged is left out, here and elsewhere. This module defines:

* `Server`, `Server.start` and `Server.stop`
* `Server.elapse`, which lets time pass and tells which cycles ran, and `Server.advance`, which does the
  same without telling
* `Server.execute`, `Server.serve` and the like, which run a script or a connection at the time the
  wall clock tells
-/

namespace KvServer

/-- Why active expiry was not started. -/
inductive StartError where
  | alreadyRunning
  deriving DecidableEq, Repr

def StartError.message : StartError → String
  | .alreadyRunning => "active expiry is already running"

/-- A cycle of active expiry: its moment of the timer, and what the wall clock tells then. -/
structure Cycle where
  moment : Nat
  now : Instant
  deriving DecidableEq, Repr

/-- A server. Active expiry sleeps until the moment of the timer in `wake?`, if it is running. -/
structure Server where
  store : Store
  policy : Policy
  clock : Clock
  wake? : Option Nat
  stats : ConnectionStats

namespace Server

def new (policy : Policy) (clock : Clock) : Server :=
  ⟨.empty, policy, clock, none, .zero⟩

def now (server : Server) : Instant :=
  server.clock.now

/-- What the wall clock will tell at a moment of the timer, if nobody sets it. -/
def nowAt (server : Server) (moment : Nat) : Instant :=
  (server.clock.advance (moment - server.clock.timer)).now

/-! ## Active expiry -/

def isRunning (server : Server) : Bool :=
  server.wake?.isSome

/-- The server when active expiry begins its first sleep. -/
def launched (server : Server) : Server :=
  { server with wake? := some (server.clock.timer + server.policy.interval.toNat) }

/-- Starts active expiry, with the first cycle one interval from now. -/
def start (server : Server) : Except StartError Server :=
  if server.isRunning then .error .alreadyRunning else .ok server.launched

/-- Stops active expiry. It is asleep then, and leaves without another cycle. -/
def stop (server : Server) : Server :=
  { server with wake? := none }

/-- Runs the cycle of a moment of the timer, at the wall clock of that moment. -/
def cycleAt (samplers : Nat → Sampler) (server : Server) (moment : Nat) (store : Store) :
    Cycle × Store :=
  let now := server.nowAt moment
  (⟨moment, now⟩, (store.expire server.policy (samplers moment) .never now).2)

/-- Lets time pass and runs a cycle whenever active expiry wakes up. Tells which cycles ran. -/
def elapse (samplers : Nat → Sampler) (server : Server) (ms : Nat) : List Cycle × Server :=
  let clock := server.clock.advance ms
  match server.wake? with
  | none => ([], { server with clock })
  | some wake =>
    let (cycles, wake, store) := Schedule.runUntil server.policy.interval.toNat
      (server.cycleAt samplers) clock.timer wake server.store
    (cycles, { server with store, clock, wake? := some wake })

def advance (samplers : Nat → Sampler) (server : Server) (ms : Nat) : Server :=
  (server.elapse samplers ms).2

/-- Runs a cycle on demand. -/
def expire (server : Server) (sampler : Sampler) : CycleReport × Server :=
  let (report, store) := server.store.expire server.policy sampler .never server.now
  (report, { server with store })

/-! ## Clients -/

def run (server : Server) (script : Script α) : α × Server :=
  let (result, store) := script.run server.now server.store
  (result, { server with store })

def execute (server : Server) (arguments : List Bytes) : Outcome × Server :=
  let (outcome, store) := KvServer.execute arguments server.now server.store
  (outcome, { server with store })

def serve (server : Server) (source : Source) : Served × Server :=
  let served := server.store.serve server.stats source fun _ => server.now
  (served, { server with store := served.store, stats := served.stats })

end Server

end KvServer
