/-!
# Schedules

Active expiry sleeps for an interval, does its work and sleeps again. The work takes no time, so the next
sleep begins at the moment at which the last one was over.

The loop waits for the signal to stop along with the end of its sleep, and whichever comes first, it looks
at the signal before it works. As the work takes no time, a stop always finds the loop asleep; it leaves at
once then and does not work any more, so all there is to a loop is until when it sleeps. Work that breaks
off in the middle is over, and the loop goes on with whatever that has left behind: nothing here depends on
how the work ends.
-/

namespace KvServer.Schedule

/-- Lets a loop that sleeps until `wake` go on up to a moment, the moment itself included. Whenever a sleep
is over it works and makes a note of that. Yields the notes, until when the loop sleeps then, and what it
has made of the state. An interval of nothing is never over. -/
def runUntil {σ ε : Type} (interval : Nat) (work : (moment : Nat) → σ → ε × σ) (upTo wake : Nat)
    (state : σ) : List ε × Nat × σ :=
  if interval = 0 ∨ upTo < wake then ([], wake, state)
  else
    let (note, state) := work wake state
    let (notes, wake, state) := runUntil interval work upTo (wake + interval) state
    (note :: notes, wake, state)
termination_by upTo + 1 - wake

end KvServer.Schedule
