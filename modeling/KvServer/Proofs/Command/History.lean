import KvServer.Command.Execute
import KvServer.Expiry.Cycle

/-!
# Histories

A run is a list of what happens, each at its own reading of the clock, and its history is what the
clients learn from it: the outcome of every call, kept together with the state behind the call.

* `history` runs calls alone, on a state of any kind, and `stateBehind` is the state in which it ends
* `Event.history` runs calls, checks of keys and cycles of active expiry on a store
-/

namespace KvServer

/-- The arguments of a request and the reading of the clock at which it is executed. -/
structure Call where
  now : Instant
  arguments : List Bytes

/-- What a call led to. -/
structure Effect (σ : Type) where
  now : Instant
  outcome : Outcome
  state : σ

/-- The effects of calls made one after the other. -/
def history {σ : Type} (execute : List Bytes → Instant → σ → Outcome × σ) :
    List Call → σ → List (Effect σ)
  | [], _ => []
  | call :: calls, state =>
    let (outcome, after) := execute call.arguments call.now state
    ⟨call.now, outcome, after⟩ :: history execute calls after

/-- The state in which effects that began in a state have ended. -/
def stateBehind {σ : Type} (state : σ) (effects : List (Effect σ)) : σ :=
  effects.foldl (fun _ effect => effect.state) state

theorem length_history {σ : Type} (execute : List Bytes → Instant → σ → Outcome × σ)
    (calls : List Call) (state : σ) : (history execute calls state).length = calls.length := by
  induction calls generalizing state with
  | nil => rfl
  | cons call calls ih => exact congrArg (· + 1) (ih _)

/-- What can happen to a store. -/
inductive Event where
  | request (call : Call)
  | check (now : Instant) (key : Bytes)
  | cycle (now : Instant) (policy : Policy) (sampler : Sampler) (stop : StopSignal)

namespace Event

def now : Event → Instant
  | .request call => call.now
  | .check now _ => now
  | .cycle now _ _ _ => now

def call? : Event → Option Call
  | .request call => some call
  | _ => none

/-- The effects of the calls among events that happen one after the other. -/
def history : List Event → Store → List (Effect Store)
  | [], _ => []
  | .request call :: events, store =>
    let (outcome, after) := execute call.arguments call.now store
    ⟨call.now, outcome, after⟩ :: history events after
  | .check now key :: events, store => history events ((dropIfExpired key).run now store).2
  | .cycle now policy sampler stop :: events, store =>
    history events (store.expire policy sampler stop now).2

end Event

end KvServer
