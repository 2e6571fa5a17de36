import KvServer.Proofs.Expiry.Lifetime
import KvServer.Proofs.Store.World

/-!
# Clients and cycles as parties

The tasks of a server as scripts: requests, checks and cycles, which can take turns at every access.

* `Task.script` and `Result`, a task and what it ends with
* `World.start`, where each party has a task and nobody has begun
* `Task.only_script`: which accesses a task makes
* `meets_dropIfExpired`: what a check promises
-/

namespace KvServer

open Script (Meets Only)

/-- What a task ends with. -/
inductive Result where
  | outcome (outcome : Outcome)
  | checked (gone : Bool)
  | cycled (report : CycleReport)

namespace Task

/-- The command of a task, if it is a request for one. -/
def command? : Task → Option Command
  | .request arguments => (Command.ofArguments arguments).toOption
  | .check _ | .cycle _ _ _ => none

/-- The accesses of a task, and its result. A cycle makes at most `limit` passes. -/
def script (limit : Nat) : Task → Script Result
  | .request arguments =>
    match Command.ofArguments arguments with
    | .error error => pure (.outcome (.error error))
    | .ok command => do return .outcome (← command.script)
  | .check key => do return .checked (← dropIfExpired key)
  | .cycle policy sampler stop => do return .cycled (← policy.cycle sampler stop limit)

end Task

/-- Each party has a task, and nobody has begun. -/
def World.start {ι : Type} (limit : Nat) (tasks : ι → Task) (store : Store) : World ι Result :=
  ⟨store, fun party => (tasks party).script limit⟩

/-! ## The accesses of a task -/

theorem Task.only_script {allowed : Access → Prop} {task : Task} (listing : allowed .keys)
    (lookups : ∀ key, allowed (.deadline? key)) (removals : ∀ key, allowed (.removeIfExpired key))
    (others : ∀ command access, task.command? = some command → access ∈ command.accesses →
      allowed access)
    (limit : Nat) : Only allowed (task.script limit) := by
  cases task with
  | request arguments =>
    cases read : Command.ofArguments arguments with
    | error error =>
      simp only [script, read]
      exact .pure _
    | ok command =>
      simp only [script, read]
      have asked : (Task.request arguments).command? = some command := by
        simp [command?, read, Except.toOption]
      exact (command.only_script.imp (others command · asked)).bind fun _ => .pure _
  | check key => exact (only_dropIfExpired (lookups key) (removals key)).bind fun _ => .pure _
  | cycle policy sampler stop =>
    exact (only_cycleFrom listing lookups removals policy sampler stop 0 0 limit).bind fun _ => .pure _

theorem Task.script_of_command {task : Task} {command : Command}
    (asked : task.command? = some command) (limit : Nat) :
    task.script limit = command.script >>= fun outcome => pure (.outcome outcome) := by
  cases task with
  | request arguments =>
    cases read : Command.ofArguments arguments with
    | error error => simp [command?, read, Except.toOption] at asked
    | ok command' =>
      obtain rfl : command' = command := by simpa [command?, read, Except.toOption] using asked
      simp only [script, read]
  | check | cycle => cases asked

/-! ## Checks -/

/-- A check looks a deadline up, and tries the removal where there is one. -/
theorem meets_dropIfExpired {allows : List Act → Access → Prop} {fits : List Act → Bool → Prop}
    {made : List Act} {key : Bytes} (lookup : allows made (.deadline? key))
    (removal : ∀ now before, allows (made ++ [⟨now, .deadline? key, before⟩]) (.removeIfExpired key))
    (spared : ∀ now before, before.deadline? key = none →
      fits (made ++ [⟨now, .deadline? key, before⟩]) false)
    (tried : ∀ now before now' before', fits
      (made ++ [⟨now, .deadline? key, before⟩] ++ [⟨now', .removeIfExpired key, before'⟩])
      (before'.removeIfExpired key now').1) :
    Meets ⟨allows, fits⟩ made (dropIfExpired key) := by
  refine Meets.perform_bind lookup fun now before => ?_
  split
  next looked => exact .pure (spared now before looked)
  next => exact .perform (removal now before) (tried now before)

end KvServer
