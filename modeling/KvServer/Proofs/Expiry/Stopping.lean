import KvServer.Proofs.Command.Party
import Mathlib.Data.List.Count

/-!
# Stopping a cycle

A cycle that is asked to stop finishes the pass that it makes and begins no other, whatever its threshold is,
however many keys have expired, and whatever happens to the store in between. So whoever stops active expiry
waits for one pass at most.

* `passesBegun`, the passes that some acts have begun
* `Contract.stopsBehind`, what a cycle promises that is asked to stop, and `Policy.meets_cycleFrom_of_stop`:
  that it does
* `World.cycle_stops`: it keeps the promise among other parties
-/

namespace KvServer

open Script (Meets)

/-- How many passes some acts have begun: every pass begins by listing the keys. -/
def passesBegun (made : List Act) : Nat :=
  made.countP (·.access = .keys)

theorem passesBegun_append_singleton (made : List Act) (act : Act) :
    passesBegun (made ++ [act]) = passesBegun made + if act.access = .keys then 1 else 0 := by
  simp [passesBegun, List.countP_append, List.countP_singleton]

theorem passesBegun_append_of_ne {access : Access} (other : access ≠ .keys) (made : List Act)
    (now : Instant) (before : Store) :
    passesBegun (made ++ [⟨now, access, before⟩]) = passesBegun made := by
  rw [passesBegun_append_singleton, if_neg other, Nat.add_zero]

/-- What a cycle promises that is asked to stop in pass number `pass`, counted from zero: to begin none
behind it, and to come to an end by itself. -/
def Contract.stopsBehind (pass : Nat) : Contract CycleReport where
  allows made access := access = .keys → passesBegun made ≤ pass
  fits made report := report.passes = passesBegun made ∧ report.ending ≠ .passesUsedUp

section Checks

variable {allows : List Act → Access → Prop} {made : List Act}

/-- To drop keys begins no pass. -/
theorem meets_dropIfExpired_of_begun (checks : ∀ made access, access ≠ .keys → allows made access)
    (key : Bytes) : Meets ⟨allows, fun made' _ => passesBegun made' = passesBegun made⟩ made
      (dropIfExpired key) := by
  have looked (now : Instant) (before : Store) :
      passesBegun (made ++ [⟨now, .deadline? key, before⟩]) = passesBegun made :=
    passesBegun_append_of_ne (by nofun) made now before
  refine meets_dropIfExpired (checks _ _ nofun) (fun _ _ => checks _ _ nofun)
    (fun now before _ => looked now before) fun now before now' before' => ?_
  rw [passesBegun_append_of_ne (by nofun), looked]

theorem meets_dropExpiredFrom_of_begun (checks : ∀ made access, access ≠ .keys → allows made access)
    (dropped : Nat) (keys : List Bytes) :
    Meets ⟨allows, fun made' _ => passesBegun made' = passesBegun made⟩ made
      (dropExpiredFrom dropped keys) := by
  induction keys generalizing dropped made with
  | nil => exact .pure rfl
  | cons key keys ih =>
    refine (meets_dropIfExpired_of_begun checks key).bind fun made' gone same => ?_
    rw [← same]
    exact ih _

end Checks

theorem Policy.meets_cycleFrom_of_stop {policy : Policy} {sampler : Sampler} {stop : StopSignal}
    {pass passes limit : Nat} {made : List Act} (requested : stop pass = true)
    (begun : passesBegun made = passes) (ahead : passes ≤ pass) (enough : pass < passes + limit)
    (dropped : Nat) :
    Meets (.stopsBehind pass) made (policy.cycleFrom sampler stop passes dropped limit) := by
  have checks : ∀ made access, access ≠ .keys →
      (Contract.stopsBehind pass).allows made access := fun _ _ other same => absurd same other
  induction limit generalizing passes dropped made with
  | zero => omega
  | succ limit ih =>
    refine Meets.perform_bind (fun _ => begun ▸ ahead) fun now before => ?_
    have listed : passesBegun (made ++ [⟨now, .keys, before⟩]) = passes + 1 := by
      rw [passesBegun_append_singleton, begun, if_pos rfl]
    dsimp only
    split
    next => exact .pure ⟨listed.symm, nofun⟩
    next =>
      refine (meets_dropExpiredFrom_of_begun checks 0 _).bind fun made' gone same => ?_
      rw [listed] at same
      split
      next => exact .pure ⟨same.symm, nofun⟩
      next =>
        split
        next => exact .pure ⟨same.symm, nofun⟩
        next unstopped =>
          -- The signal has not come yet, so its pass is still ahead.
          have later : passes ≠ pass := fun same => unstopped (same ▸ requested)
          exact ih same (by omega) (by omega) _

/-- The promise of a cycle, handed on to its task. -/
def Contract.taskStopsBehind (pass : Nat) : Contract Result where
  allows := (Contract.stopsBehind pass).allows
  fits made result := ∃ report, result = .cycled report ∧ (Contract.stopsBehind pass).fits made report

namespace World

variable {ι : Type} [DecidableEq ι] {party : ι} {pass : Nat}

theorem passesBegun_le_advance {world : World ι Result} {steps : List (Step ι)} {step : Step ι}
    {next : step.access.Answer → Script Result} (asks : world.scripts step.party = .ask step.access next)
    (meets : (world.scripts party).Meets (.taskStopsBehind pass) (actsOf party steps))
    (few : passesBegun (actsOf party steps) ≤ pass + 1) :
    passesBegun (actsOf party (steps ++ [step])) ≤ pass + 1 := by
  rw [congrFun (actsOf_append_singleton steps step) party]
  by_cases own : step.party = party
  · subst own
    rw [asks] at meets
    rw [Function.update_self, passesBegun_append_singleton]
    split
    next listing => exact Nat.succ_le_succ (meets.allowed listing)
    next => exact few
  · rwa [Function.update_of_ne (Ne.symm own)]

/-- Of a cycle that is asked to stop in one of its passes, no later pass is begun, whatever the others do,
and it ends by itself. -/
theorem cycle_stops {limit : Nat} {tasks : ι → Task} {policy : Policy} {sampler : Sampler}
    {stop : StopSignal} (cycling : tasks party = .cycle policy sampler stop)
    (requested : stop pass = true) (enough : pass < limit) (store : Store) (moves : List (Move ι)) :
    let start := World.start limit tasks store
    let begun := passesBegun (actsOf party (start.steps moves))
    begun ≤ pass + 1 ∧
      ∀ result, (start.run moves).scripts party = .done result →
        ∃ report, result = .cycled report ∧ report.passes = begun ∧ report.ending ≠ .passesUsedUp := by
  intro start begun
  have promised : (start.scripts party).Meets (.taskStopsBehind pass) [] := by
    change ((tasks party).script limit).Meets (.taskStopsBehind pass) []
    rw [cycling]
    have cycle := @Policy.meets_cycleFrom_of_stop policy sampler stop pass 0 limit [] requested rfl
      (Nat.zero_le _) (by omega) 0
    exact cycle.bind fun made report fits => .pure ⟨report, rfl, fits⟩
  have kept : begun ≤ pass + 1 ∧ ((start.run moves).scripts party).Meets (.taskStopsBehind pass)
      (actsOf party (start.steps moves)) := by
    refine run_induction (motive := fun steps world => passesBegun (actsOf party steps) ≤ pass + 1 ∧
      (world.scripts party).Meets (.taskStopsBehind pass) (actsOf party steps))
      ⟨Nat.zero_le _, promised⟩ ?_ moves
    rintro steps world step next ⟨few, meets⟩ - asks
    exact ⟨passesBegun_le_advance asks meets few, meets_advance_actsOf asks meets⟩
  refine ⟨kept.1, fun result done => ?_⟩
  have meets := kept.2
  rw [done] at meets
  exact meets.fits

end World

end KvServer
