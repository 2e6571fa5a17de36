import KvServer.Store.Basic

/-!
# Scripts

Several parties use one store: clients with their commands, and the expiry of keys. What each of
them does is a script, a sequence of accesses to the store in which every access takes effect as a
whole, sees one reading of the clock, and may depend on the answers before it. This module defines:

* `Access` and `Access.perform`, the single accesses
* `Script`, with its `Monad` structure
* `Script.run`, which performs all accesses of a script at one reading of the clock, and
  `Script.runAt`, where the clock moves on between them
* `Script.step`, which performs the next access only, so that scripts can take turns
-/

namespace KvServer

/-- One access to a store. -/
inductive Access where
  /-- Looks up the deadline of a key. -/
  | deadline? (key : Bytes)
  /-- Takes a key out if it has expired. -/
  | removeIfExpired (key : Bytes)
  /-- Reads the value of a key that has not expired. -/
  | getLive (key : Bytes)
  /-- Looks up how long a key has still to live. -/
  | timeLeft (key : Bytes)
  /-- Stores a value without deadline. -/
  | set (key value : Bytes)
  /-- Gives a key a deadline some seconds from now. -/
  | expireIn (key : Bytes) (seconds : UInt64)
  /-- Adds to the integer under a key. -/
  | incrementBy (key : Bytes) (delta : Int64)
  /-- Lists all keys. -/
  | keys
  deriving DecidableEq, Repr

namespace Access

abbrev Answer : Access → Type
  | .deadline? _ => Option Instant
  | .removeIfExpired _ => Bool
  | .getLive _ => Option Bytes
  | .timeLeft _ => Store.TimeLeft
  | .set _ _ => Bool
  | .expireIn _ _ => Bool
  | .incrementBy _ _ => Except IncrementError Int64
  | .keys => List Bytes

/-- The answer and the effect of an access at a reading of the clock. -/
def perform (now : Instant) : (access : Access) → Store → access.Answer × Store
  | .deadline? key, store => (store.deadline? key, store)
  | .removeIfExpired key, store => store.removeIfExpired key now
  | .getLive key, store => store.getLive key now
  | .timeLeft key, store => (store.timeLeft key now, store)
  | .set key value, store => store.set key value
  | .expireIn key seconds, store => store.setDeadline key (now.after seconds)
  | .incrementBy key delta, store => store.incrementBy key delta
  | .keys, store => (store.keys, store)

end Access

/-- A sequence of accesses, each of which may depend on the answers before it, and its result. -/
inductive Script (α : Type) where
  | done (result : α)
  | ask (access : Access) (next : access.Answer → Script α)

namespace Script

def bind : Script α → (α → Script β) → Script β
  | .done result, follow => follow result
  | .ask access next, follow => .ask access fun answer => (next answer).bind follow

instance : Monad Script where
  pure := .done
  bind := bind

def perform (access : Access) : Script access.Answer :=
  .ask access .done

/-- Performs all accesses at one reading of the clock. -/
def run (now : Instant) : Script α → Store → α × Store
  | .done result, store => (result, store)
  | .ask access next, store =>
    let (answer, store) := access.perform now store
    (next answer).run now store

/-- Performs all accesses, each at a reading of its own. -/
def runAt (readings : Nat → Instant) : Script α → Store → α × Store
  | .done result, store => (result, store)
  | .ask access next, store =>
    let (answer, store) := access.perform (readings 0) store
    (next answer).runAt (fun i => readings (i + 1)) store

/-- Performs the next access, if one is left. -/
def step (now : Instant) : Script α → Store → Script α × Store
  | .done result, store => (.done result, store)
  | .ask access next, store =>
    let (answer, store) := access.perform now store
    (next answer, store)

@[simp] theorem run_pure (now : Instant) (result : α) (store : Store) :
    (pure result : Script α).run now store = (result, store) :=
  rfl

@[simp] theorem run_perform (now : Instant) (access : Access) (store : Store) :
    (perform access).run now store = access.perform now store :=
  rfl

@[simp] theorem run_bind (now : Instant) (script : Script α) (follow : α → Script β)
    (store : Store) :
    (script >>= follow).run now store =
      (follow (script.run now store).1).run now (script.run now store).2 := by
  change (script.bind follow).run now store = _
  induction script generalizing store with
  | done result => rfl
  | ask access next ih => exact ih _ _

@[simp] theorem runAt_pure (readings : Nat → Instant) (result : α) (store : Store) :
    (pure result : Script α).runAt readings store = (result, store) :=
  rfl

@[simp] theorem runAt_perform_bind (readings : Nat → Instant) (access : Access)
    (follow : access.Answer → Script α) (store : Store) :
    (perform access >>= follow).runAt readings store =
      (follow (access.perform (readings 0) store).1).runAt (fun i => readings (i + 1))
        (access.perform (readings 0) store).2 :=
  rfl

theorem runAt_const (now : Instant) (script : Script α) (store : Store) :
    script.runAt (fun _ => now) store = script.run now store := by
  induction script generalizing store with
  | done => rfl
  | ask access next ih => exact ih _ _

/-- The second of two scripts sees the readings that the first has left over. -/
theorem runAt_bind (readings : Nat → Instant) (script : Script α) (follow : α → Script β)
    (store : Store) :
    ∃ seen, (script >>= follow).runAt readings store =
      (follow (script.runAt readings store).1).runAt (fun i => readings (i + seen))
        (script.runAt readings store).2 := by
  change ∃ seen, (script.bind follow).runAt readings store = _
  induction script generalizing readings store with
  | done result => exact ⟨0, rfl⟩
  | ask access next ih =>
    obtain ⟨seen, goesOn⟩ := ih (access.perform (readings 0) store).1 (fun i => readings (i + 1))
      (access.perform (readings 0) store).2
    exact ⟨seen + 1, goesOn⟩

/-- A step changes nothing about where a run ends, if both read the same clock. -/
theorem run_step (now : Instant) (script : Script α) (store : Store) :
    (script.step now store).1.run now (script.step now store).2 = script.run now store := by
  cases script <;> rfl

end Script

end KvServer
