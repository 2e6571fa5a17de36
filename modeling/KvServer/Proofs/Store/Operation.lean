import KvServer.Store.Basic

/-!
# Runs of operations

The operations of a store on a key, as data, so that a run of them is a list.

* `Operation` and `Operation.Answer`, what is asked of a store and what it answers
* `Operation.perform`, an operation on a store
* `Operation.run`, operations one after the other, on a store or on whatever stands in for one
-/

namespace KvServer

inductive Operation where
  | get (key : Bytes)
  | getLive (key : Bytes) (now : Instant)
  | find? (key : Bytes)
  | contains (key : Bytes)
  | deadline? (key : Bytes)
  | set (key value : Bytes)
  | delete (key : Bytes)
  | setDeadline (key : Bytes) (deadline : Instant)
  | removeIfExpired (key : Bytes) (now : Instant)
  | incrementBy (key : Bytes) (delta : Int64)
  deriving DecidableEq, Repr

namespace Operation

def key : Operation → Bytes
  | .get key | .getLive key _ | .find? key | .contains key | .deadline? key | .set key _
  | .delete key | .setDeadline key _ | .removeIfExpired key _ | .incrementBy key _ => key

inductive Answer where
  | value (value? : Option Bytes)
  | entry (held? : Option Entry)
  | deadline (deadline? : Option Instant)
  | flag (flag : Bool)
  | sum (sum : Except IncrementError Int64)

def perform : Operation → Store → Answer × Store
  | .get key, store => (store.get key).map .value id
  | .getLive key now, store => (store.getLive key now).map .value id
  | .find? key, store => (.entry (store.find? key), store)
  | .contains key, store => (.flag (store.contains key), store)
  | .deadline? key, store => (.deadline (store.deadline? key), store)
  | .set key value, store => (store.set key value).map .flag id
  | .delete key, store => (store.delete key).map .flag id
  | .setDeadline key deadline, store => (store.setDeadline key deadline).map .flag id
  | .removeIfExpired key now, store => (store.removeIfExpired key now).map .flag id
  | .incrementBy key delta, store => (store.incrementBy key delta).map .sum id

/-- The answers to operations made one after the other, and the state behind them. -/
def run {σ : Type} (perform : Operation → σ → Answer × σ) : List Operation → σ → List Answer × σ
  | [], state => ([], state)
  | operation :: later, state =>
    let (answer, after) := perform operation state
    let (answers, behind) := run perform later after
    (answer :: answers, behind)

end Operation

end KvServer
