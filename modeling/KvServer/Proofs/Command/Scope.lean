import KvServer.Command.Execute
import KvServer.Expiry.Cycle
import KvServer.Proofs.Store.Script

/-!
# What commands and cycles touch

A command makes a few accesses, all of them on the key that it names; only `SET`, `INCR` and `EXPIRE`
replace an entry there. Cycles of active expiry list the keys and check some of them, and replace none.
-/

namespace KvServer

open Script (Only)

theorem only_dropIfExpired {allowed : Access → Prop} {key : Bytes} (lookup : allowed (.deadline? key))
    (removal : allowed (.removeIfExpired key)) : Only allowed (dropIfExpired key) := by
  refine (Only.perform lookup).bind fun found => ?_
  cases found with
  | none => exact .pure false
  | some deadline => exact .perform removal

theorem only_dropExpiredFrom {allowed : Access → Prop} (lookups : ∀ key, allowed (.deadline? key))
    (removals : ∀ key, allowed (.removeIfExpired key)) (dropped : Nat) (keys : List Bytes) :
    Only allowed (dropExpiredFrom dropped keys) := by
  induction keys generalizing dropped with
  | nil => exact .pure dropped
  | cons key keys ih => exact (only_dropIfExpired (lookups key) (removals key)).bind fun _ => ih _

theorem only_cycleFrom {allowed : Access → Prop} (listing : allowed .keys)
    (lookups : ∀ key, allowed (.deadline? key)) (removals : ∀ key, allowed (.removeIfExpired key))
    (policy : Policy) (sampler : Sampler) (stop : StopSignal) (passes dropped limit : Nat) :
    Only allowed (policy.cycleFrom sampler stop passes dropped limit) := by
  induction limit generalizing passes dropped with
  | zero => exact .pure _
  | succ limit ih =>
    refine (Only.perform listing).bind fun keys => ?_
    dsimp only
    split
    next => exact .pure _
    next =>
      refine (only_dropExpiredFrom lookups removals 0 _).bind fun gone => ?_
      split
      next => exact .pure _
      next =>
        split
        next => exact .pure _
        next => exact ih _ _

namespace Command

/-- The accesses that a command can make. -/
def accesses : Command → List Access
  | .ping _ => []
  | .get key => [.deadline? key, .removeIfExpired key, .getLive key]
  | .set key value => [.set key value]
  | .incr key => [.deadline? key, .removeIfExpired key, .incrementBy key 1]
  | .expire key seconds => [.deadline? key, .removeIfExpired key, .expireIn key seconds]
  | .ttl key => [.deadline? key, .removeIfExpired key, .timeLeft key]

/-- The key whose entry a command replaces, whatever the moment. -/
def written? : Command → Option Bytes
  | .set key _ | .incr key | .expire key _ => some key
  | .ping _ | .get _ | .ttl _ => none

variable {command : Command} {access : Access} {key : Bytes}

theorem only_script (command : Command) : Only (· ∈ command.accesses) command.script := by
  cases command with
  | ping message? => cases message? <;> exact .pure _
  | set key value =>
    exact (Only.perform (by simp [accesses])).bind fun _ => .pure _
  | get key =>
    refine (only_dropIfExpired (by simp [accesses]) (by simp [accesses])).bind fun _ => ?_
    refine (Only.perform (by simp [accesses])).bind fun value => ?_
    cases value <;> exact .pure _
  | incr key =>
    refine (only_dropIfExpired (by simp [accesses]) (by simp [accesses])).bind fun _ => ?_
    refine (Only.perform (by simp [accesses])).bind fun sum => ?_
    cases sum <;> exact .pure _
  | expire key seconds =>
    refine (only_dropIfExpired (by simp [accesses]) (by simp [accesses])).bind fun _ => ?_
    exact (Only.perform (by simp [accesses])).bind fun _ => .pure _
  | ttl key =>
    refine (only_dropIfExpired (by simp [accesses]) (by simp [accesses])).bind fun _ => ?_
    exact (Only.perform (by simp [accesses])).bind fun _ => .pure _

/-- A command names the key that its accesses name. -/
theorem exists_key_of_mem_accesses (made : access ∈ command.accesses) :
    ∃ key, access.key? = some key ∧ command.key? = some key := by
  revert made
  cases command <;> simp +contextual [accesses, Access.key?, key?, or_imp]

theorem written?_of_mem_accesses (made : access ∈ command.accesses)
    (written : access.written? = some key) : command.written? = some key := by
  revert made written
  cases command <;> simp +contextual [accesses, Access.written?, Command.written?, or_imp]

end Command

end KvServer
