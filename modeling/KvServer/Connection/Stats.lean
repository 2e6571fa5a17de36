/-!
# Connection statistics

Counters over all connections of a server, which wrap at 64 bits.
-/

namespace KvServer

/-- How many connections were accepted and are active, how many requests were answered and how many
of them with an error, and how many bytes were written. -/
structure ConnectionStats where
  accepted : UInt64
  active : UInt64
  processed : UInt64
  errors : UInt64
  written : UInt64
  deriving DecidableEq, Repr

namespace ConnectionStats

def zero : ConnectionStats :=
  ⟨0, 0, 0, 0, 0⟩

def opened (stats : ConnectionStats) : ConnectionStats :=
  { stats with accepted := stats.accepted + 1, active := stats.active + 1 }

def closed (stats : ConnectionStats) : ConnectionStats :=
  { stats with active := stats.active - 1 }

/-- A request was answered, with an error or without. -/
def answered (stats : ConnectionStats) (failed : Bool) : ConnectionStats :=
  { stats with
    processed := stats.processed + 1
    errors := if failed then stats.errors + 1 else stats.errors }

def wrote (stats : ConnectionStats) (count : Nat) : ConnectionStats :=
  { stats with written := stats.written + UInt64.ofNat count }

end ConnectionStats

end KvServer
