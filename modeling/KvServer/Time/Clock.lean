import KvServer.Time.Instant

/-!
# Clocks

A server lives by two clocks in milliseconds. The wall clock tells the time and may be set, backwards
too; the timer only runs on, and paces what is done at intervals.
-/

namespace KvServer

/-- The wall clock, counted from the start of 1970, and the timer. -/
structure Clock where
  wall : Int
  timer : Nat
  deriving DecidableEq, Repr

namespace Clock

def ofSeconds (seconds : Int) : Clock :=
  ⟨seconds * 1000, 0⟩

/-- The time of day: whole seconds, rounded down, and the start of 1970 for any time before it. -/
def now (clock : Clock) : Instant :=
  UInt64.ofNat (clock.wall / 1000).toNat

def set (clock : Clock) (seconds : Int) : Clock :=
  { clock with wall := seconds * 1000 }

/-- Lets time pass on both clocks. -/
def advance (clock : Clock) (ms : Nat) : Clock :=
  ⟨clock.wall + ms, clock.timer + ms⟩

@[simp] theorem advance_zero (clock : Clock) : clock.advance 0 = clock := by
  simp [advance]

theorem advance_advance (clock : Clock) (a b : Nat) :
    (clock.advance a).advance b = clock.advance (a + b) := by
  simp [advance, Int.add_assoc, Nat.add_assoc]

end Clock

end KvServer
