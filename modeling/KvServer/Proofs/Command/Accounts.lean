import KvServer.Proofs.Command.Party
import KvServer.Proofs.Store.Ledger
import Mathlib.Data.List.Count

/-!
# The statistics of whole runs

Clients, checks and cycles take turns with calls to the store itself, and everything that is done to the
store is written down with the party that did it. The statistics are the sums of that, and what each party
adds is settled by its task.

* `Access.operation?`, an access as an operation, and `Act.deeds`
* `Task.gets`, `Task.sets` and `Result.dropped?`, what a task adds to the statistics
* `Task.meets_account`: that it does, whatever the others do in between
* `Action`, a call or a move, and `World.log`
* `World.ledger_balances`
-/

namespace KvServer

open Script (Meets)

/-! ## Acts in the ledger -/

/-- An access as an operation, where the statistics tell of it. -/
def Access.operation? (now : Instant) : Access → Option Operation
  | .deadline? key => some (.deadline? key)
  | .removeIfExpired key => some (.removeIfExpired key now)
  | .getLive key => some (.getLive key now)
  | .set key value => some (.set key value)
  | .expireIn key seconds => some (.setDeadline key (now.after seconds))
  | .incrementBy key delta => some (.incrementBy key delta)
  | .timeLeft _ | .keys => none

namespace Act

def deeds (act : Act) : List Deed :=
  ((act.access.operation? act.now).map (·.deeds act.before)).getD []

theorem balances_after {act : Act} {ledger : List Deed} (balances : act.before.Balances ledger) :
    act.after.Balances (ledger ++ act.deeds) := by
  obtain ⟨now, access, before⟩ := act
  cases access with
  | timeLeft | keys =>
    have nothing : ledger ++ [] = ledger := List.append_nil ledger
    exact nothing.symm ▸ balances
  | deadline? key => exact balances.perform (.deadline? key)
  | removeIfExpired key => exact balances.perform (.removeIfExpired key now)
  | getLive key => exact balances.perform (.getLive key now)
  | set key value => exact balances.perform (.set key value)
  | expireIn key seconds => exact balances.perform (.setDeadline key (now.after seconds))
  | incrementBy key delta => exact balances.perform (.incrementBy key delta)

/-- No party deletes a key. -/
theorem deletes_nothing (act : Act) :
    act.deeds.count .delete = 0 ∧ act.deeds.count .deleted = 0 := by
  obtain ⟨now, access, before⟩ := act
  cases access <;>
    simp only [deeds, Access.operation?, Option.map_some, Option.map_none, Option.getD_some,
      Option.getD_none, Operation.deeds] <;>
    repeat' split
  all_goals exact ⟨rfl, rfl⟩

end Act

/-- How often some acts did a deed. -/
def spent (made : List Act) (deed : Deed) : Nat :=
  (made.flatMap Act.deeds).count deed

theorem spent_append_singleton (made : List Act) (act : Act) (deed : Deed) :
    spent (made ++ [act]) deed = spent made deed + act.deeds.count deed := by
  simp [spent]

theorem spent_of_never {deed : Deed} (never : ∀ act : Act, act.deeds.count deed = 0)
    (made : List Act) : spent made deed = 0 := by
  induction made with
  | nil => rfl
  | cons act made ih =>
    have first := never act
    simp only [spent, List.flatMap_cons, List.count_append] at ih ⊢
    rw [first, ih]

/-! ## What a task adds -/

/-- How many values a command reads. -/
def Command.gets : Command → Nat
  | .get _ => 1
  | _ => 0

/-- How many values a command stores. -/
def Command.sets : Command → Nat
  | .set _ _ => 1
  | _ => 0

namespace Task

def gets (task : Task) : Nat :=
  (task.command?.map Command.gets).getD 0

def sets (task : Task) : Nat :=
  (task.command?.map Command.sets).getD 0

end Task

/-- How many keys a check or a cycle says it has dropped. -/
def Result.dropped? : Result → Option Nat
  | .outcome _ => none
  | .checked gone => some (if gone then 1 else 0)
  | .cycled report => some report.dropped

/-- A task reads and stores no more values than it should, and in the end has read and stored as many, and
dropped as many keys as it says. -/
def Contract.account (task : Task) : Contract Result where
  allows made access := ∀ now before,
    spent (made ++ [⟨now, access, before⟩]) .get ≤ task.gets ∧
      spent (made ++ [⟨now, access, before⟩]) .set ≤ task.sets
  fits made result := spent made .get = task.gets ∧ spent made .set = task.sets ∧
    ∀ dropped, result.dropped? = some dropped → spent made .expired = dropped

/-- Says that some acts have read and stored nothing, and dropped some keys. -/
structure Idle (dropped : Nat) (made : List Act) : Prop where
  get : spent made .get = 0
  set : spent made .set = 0
  expired : spent made .expired = dropped

theorem idle_nil : Idle 0 [] :=
  ⟨rfl, rfl, rfl⟩

namespace Idle

variable {dropped : Nat} {made : List Act} {act : Act}

theorem append_of_nil (idle : Idle dropped made) (nothing : act.deeds = []) :
    Idle dropped (made ++ [act]) := by
  refine ⟨?_, ?_, ?_⟩ <;> rw [spent_append_singleton, nothing]
  exacts [idle.get, idle.set, idle.expired]

theorem append_removal (idle : Idle dropped made) (now : Instant) (key : Bytes) (before : Store) :
    Idle (dropped + if (before.removeIfExpired key now).1 then 1 else 0)
      (made ++ [⟨now, .removeIfExpired key, before⟩]) := by
  have deeds : Act.deeds ⟨now, .removeIfExpired key, before⟩ =
      if (before.removeIfExpired key now).1 then [.expired] else [] := rfl
  refine ⟨?_, ?_, ?_⟩ <;> rw [spent_append_singleton, deeds]
  · rw [idle.get]
    split <;> rfl
  · rw [idle.set]
    split <;> rfl
  · rw [idle.expired]
    split <;> rfl

variable {task : Task}

theorem allows {access : Access} (idle : ∀ now before, ∃ dropped,
    Idle dropped (made ++ [⟨now, access, before⟩])) : (Contract.account task).allows made access := by
  intro now before
  obtain ⟨dropped, idle⟩ := idle now before
  rw [idle.get, idle.set]
  exact ⟨Nat.zero_le _, Nat.zero_le _⟩

theorem meets_dropIfExpired (idle : Idle dropped made) (key : Bytes) :
    Meets ⟨(Contract.account task).allows,
      fun made gone => Idle (dropped + if gone then 1 else 0) made⟩ made (dropIfExpired key) := by
  refine KvServer.meets_dropIfExpired ?_ (fun now before => ?_) (fun now before _ => ?_)
    fun now before now' before' => ?_
  · exact allows fun now before => ⟨dropped, idle.append_of_nil rfl⟩
  · exact allows fun now' before' => ⟨_, (idle.append_of_nil rfl).append_removal now' key before'⟩
  · exact idle.append_of_nil rfl
  · exact (idle.append_of_nil rfl).append_removal now' key before'

theorem meets_dropExpiredFrom {base : Nat} (idle : Idle (base + dropped) made) (keys : List Bytes) :
    Meets ⟨(Contract.account task).allows, fun made total => Idle (base + total) made⟩ made
      (dropExpiredFrom dropped keys) := by
  induction keys generalizing dropped made with
  | nil => exact .pure idle
  | cons key keys ih =>
    refine (idle.meets_dropIfExpired key).bind fun made gone idle => ?_
    cases gone with
    | false => exact ih idle
    | true => exact ih idle

theorem meets_cycleFrom (idle : Idle dropped made) (policy : Policy) (sampler : Sampler)
    (stop : StopSignal) (passes limit : Nat) :
    Meets ⟨(Contract.account task).allows, fun made report => Idle report.dropped made⟩ made
      (policy.cycleFrom sampler stop passes dropped limit) := by
  induction limit generalizing passes dropped made with
  | zero => exact .pure idle
  | succ limit ih =>
    have listed (now : Instant) (before : Store) : Idle dropped (made ++ [⟨now, .keys, before⟩]) :=
      idle.append_of_nil rfl
    refine Meets.perform_bind (allows fun now before => ⟨dropped, listed now before⟩)
      fun now before => ?_
    dsimp only
    split
    next => exact .pure (listed now before)
    next =>
      -- What earlier passes have dropped stays apart from what this one drops, which is nothing yet.
      have fresh : Idle (dropped + 0) (made ++ [⟨now, .keys, before⟩]) := listed now before
      refine (fresh.meets_dropExpiredFrom _).bind fun made gone idle => ?_
      split
      next => exact .pure idle
      next =>
        split
        next => exact .pure idle
        next => exact ih idle _

end Idle

namespace Command

variable {task : Task}

/-- The last access of a command is the one that reads or stores a value. -/
theorem meets_last {access : Access} {follow : access.Answer → Script Outcome} {dropped : Nat}
    {made : List Act} (idle : Idle dropped made)
    (gets : ∀ now before, (Act.deeds ⟨now, access, before⟩).count .get = task.gets)
    (sets : ∀ now before, (Act.deeds ⟨now, access, before⟩).count .set = task.sets)
    (ends : ∀ answer, ∃ outcome, follow answer = pure outcome) :
    Meets ⟨(Contract.account task).allows, fun made (_ : Outcome) =>
      spent made .get = task.gets ∧ spent made .set = task.sets⟩ made
      (Script.perform access >>= follow) := by
  have behind (now : Instant) (before : Store) :
      spent (made ++ [⟨now, access, before⟩]) .get = task.gets ∧
        spent (made ++ [⟨now, access, before⟩]) .set = task.sets := by
    rw [spent_append_singleton, spent_append_singleton, idle.get, idle.set, gets, sets, Nat.zero_add,
      Nat.zero_add]
    exact ⟨rfl, rfl⟩
  refine Meets.perform_bind (fun now before => ?_) fun now before => ?_
  · exact ⟨Nat.le_of_eq (behind now before).1, Nat.le_of_eq (behind now before).2⟩
  · obtain ⟨outcome, done⟩ := ends (access.perform now before).1
    rw [done]
    exact .pure (behind now before)

theorem meets_account {command : Command} (asked : task.command? = some command) :
    Meets ⟨(Contract.account task).allows, fun made (_ : Outcome) =>
      spent made .get = task.gets ∧ spent made .set = task.sets⟩ [] command.script := by
  have gets : task.gets = command.gets := by
    rw [Task.gets, asked]
    rfl
  have sets : task.sets = command.sets := by
    rw [Task.sets, asked]
    rfl
  cases command with
  | ping message? => cases message? <;> exact .pure ⟨gets.symm, sets.symm⟩
  | set key value =>
    exact meets_last idle_nil
      (fun _ before => ((Operation.set key value).count_get_deeds before).trans gets.symm)
      (fun _ before => ((Operation.set key value).count_set_deeds before).trans sets.symm)
      fun _ => ⟨_, rfl⟩
  | get key =>
    refine (idle_nil.meets_dropIfExpired key).bind fun made gone idle => ?_
    refine meets_last idle (fun _ _ => gets.symm) (fun _ _ => sets.symm) fun answer => ?_
    cases answer <;> exact ⟨_, rfl⟩
  | ttl key =>
    refine (idle_nil.meets_dropIfExpired key).bind fun made gone idle => ?_
    exact meets_last idle (fun _ _ => gets.symm) (fun _ _ => sets.symm) fun _ => ⟨_, rfl⟩
  | expire key seconds =>
    refine (idle_nil.meets_dropIfExpired key).bind fun made gone idle => ?_
    exact meets_last idle (fun _ _ => gets.symm) (fun _ _ => sets.symm) fun _ => ⟨_, rfl⟩
  | incr key =>
    refine (idle_nil.meets_dropIfExpired key).bind fun made gone idle => ?_
    refine meets_last idle
      (fun _ before => ((Operation.incrementBy key 1).count_get_deeds before).trans gets.symm)
      (fun _ before => ((Operation.incrementBy key 1).count_set_deeds before).trans sets.symm)
      fun answer => ?_
    cases answer <;> exact ⟨_, rfl⟩

end Command

theorem Task.meets_account (task : Task) (limit : Nat) : (task.script limit).Meets (.account task) [] := by
  cases asked : task.command? with
  | some command =>
    rw [script_of_command asked]
    refine (Command.meets_account asked).bind fun made outcome ⟨gets, sets⟩ => ?_
    exact .pure ⟨gets, sets, fun dropped same => by cases same⟩
  | none =>
    have nothing : task.gets = 0 ∧ task.sets = 0 := by simp [gets, sets, asked]
    cases task with
    | request arguments =>
      cases read : Command.ofArguments arguments with
      | error error =>
        simp only [script, read]
        exact .pure ⟨nothing.1.symm, nothing.2.symm, fun dropped same => by cases same⟩
      | ok command => simp [command?, read, Except.toOption] at asked
    | check key =>
      refine (idle_nil.meets_dropIfExpired key).bind fun made gone idle => ?_
      refine .pure ⟨idle.get.trans nothing.1.symm, idle.set.trans nothing.2.symm, fun dropped same => ?_⟩
      cases same
      rw [idle.expired, Nat.zero_add]
    | cycle policy sampler stop =>
      refine (idle_nil.meets_cycleFrom policy sampler stop 0 limit).bind fun made report idle => ?_
      refine .pure ⟨idle.get.trans nothing.1.symm, idle.set.trans nothing.2.symm, fun dropped same => ?_⟩
      cases same
      exact idle.expired

/-! ## Runs -/

/-- A call to the store itself, or a move of a party. -/
inductive Action (ι : Type) where
  | call (operation : Operation)
  | move (move : Move ι)

namespace World

variable {ι ρ : Type} [DecidableEq ι]

def perform (world : World ι ρ) : Action ι → World ι ρ
  | .call operation => { world with store := (operation.perform world.store).2 }
  | .move move => world.move move

/-- What is written down of an action: the deeds, and the party that did them if there was one. -/
def entries (world : World ι ρ) : Action ι → List (Option ι × Deed)
  | .call operation => (operation.deeds world.store).map (none, ·)
  | .move move =>
    match world.step? move with
    | none => []
    | some step => step.deeds.map (some step.party, ·)

def after (world : World ι ρ) (actions : List (Action ι)) : World ι ρ :=
  actions.foldl perform world

def log (world : World ι ρ) : List (Action ι) → List (Option ι × Deed)
  | [] => []
  | action :: actions => world.entries action ++ (world.perform action).log actions

/-- What holds at the start, and is kept by every call and by every access of a party, holds behind every
run. -/
theorem log_induction {world : World ι ρ} {motive : List (Option ι × Deed) → World ι ρ → Prop}
    (start : motive [] world)
    (call : ∀ (log : List (Option ι × Deed)) (world : World ι ρ) (operation : Operation),
      motive log world → motive (log ++ (operation.deeds world.store).map (none, ·))
        { world with store := (operation.perform world.store).2 })
    (access : ∀ (log : List (Option ι × Deed)) (world : World ι ρ) (step : Step ι)
      (next : step.access.Answer → Script ρ), motive log world → step.before = world.store →
      world.scripts step.party = .ask step.access next →
      motive (log ++ step.deeds.map (some step.party, ·)) (world.advance step next))
    (actions : List (Action ι)) : motive (world.log actions) (world.after actions) := by
  suffices behind : ∀ earlier world, motive earlier world →
      motive (earlier ++ world.log actions) (world.after actions) from behind [] world start
  induction actions with
  | nil => simp [log, after]
  | cons action actions ih =>
    intro earlier world reached
    rw [log, after, List.foldl_cons, ← List.append_assoc]
    refine ih _ _ ?_
    cases action with
    | call operation => exact call earlier world operation reached
    | move move =>
      rcases world.move_cases move with ⟨idle, same⟩ | ⟨step, next, made, found, -, asks, moved⟩
      · simpa only [entries, perform, idle, same, List.append_nil] using reached
      · simp only [entries, perform, made, moved]
        exact access earlier world step next reached found asks

end World

theorem count_map_none {ι : Type} [DecidableEq ι] (deeds : List Deed) (party : ι) (deed : Deed) :
    (deeds.map fun own => ((none, own) : Option ι × Deed)).count (some party, deed) = 0 := by
  simp [List.count_eq_zero]

theorem count_map_some {ι : Type} [DecidableEq ι] (deeds : List Deed) (own party : ι) (deed : Deed) :
    (deeds.map (some own, ·)).count (some party, deed) =
      if own = party then deeds.count deed else 0 := by
  split
  next same =>
    subst same
    exact List.count_map_of_injective deeds (some own, ·) (fun _ _ same => (Prod.mk.inj same).2) deed
  next apart => simp [List.count_eq_zero, apart]

/-- Says that a log agrees with the store, and that some acts of the parties are the ones in the log and
keep their accounts. -/
structure Audited {ι : Type} [DecidableEq ι] (tasks : ι → Task) (log : List (Option ι × Deed))
    (world : World ι Result) (made : ι → List Act) : Prop where
  balances : world.store.Balances (log.map Prod.snd)
  counts : ∀ party deed, log.count (some party, deed) = spent (made party) deed
  meets : ∀ party, (world.scripts party).Meets (.account (tasks party)) (made party)
  within : ∀ party,
    spent (made party) .get ≤ (tasks party).gets ∧ spent (made party) .set ≤ (tasks party).sets

theorem exists_audited {ι : Type} [DecidableEq ι] (limit : Nat) (tasks : ι → Task)
    (actions : List (Action ι)) :
    ∃ made, Audited tasks ((World.start limit tasks .empty).log actions)
      ((World.start limit tasks .empty).after actions) made := by
  refine World.log_induction (motive := fun log world => ∃ made, Audited tasks log world made)
    ?_ ?_ ?_ actions
  · refine ⟨fun _ => [], Store.balances_empty, fun _ _ => rfl, fun party => ?_, fun party => ?_⟩
    · exact (tasks party).meets_account limit
    · exact ⟨Nat.zero_le _, Nat.zero_le _⟩
  -- A call belongs to no party, so the ledger grows and no account does.
  · rintro log world operation ⟨made, audited⟩
    refine ⟨made, ?_, fun party deed => ?_, audited.meets, audited.within⟩
    · simpa [Function.comp_def] using audited.balances.perform operation
    · rw [List.count_append, audited.counts, count_map_none, Nat.add_zero]
  -- An access goes to the ledger and to the account of its party, within what that party may spend.
  · rintro log world step next ⟨made, audited⟩ found asks
    have meets := audited.meets step.party
    rw [asks] at meets
    refine ⟨_, ?_, fun party deed => ?_,
      fun party => World.meets_advance asks (audited.meets party), fun party => ?_⟩
    · have balances := audited.balances
      rw [← found] at balances
      simpa [Function.comp_def] using Act.balances_after balances
    · rw [List.count_append, audited.counts, count_map_some]
      by_cases own : step.party = party
      · subst own
        rw [if_pos rfl, Function.update_self, spent_append_singleton]
      · rw [if_neg own, Function.update_of_ne (Ne.symm own), Nat.add_zero]
    · by_cases own : step.party = party
      · subst own
        rw [Function.update_self]
        exact meets.allowed step.now step.before
      · rw [Function.update_of_ne (Ne.symm own)]
        exact audited.within party

/-- On a new store, at any point of any run: the keys are those that were created and have not gone since,
by a deletion or by expiry, and the counters are those of the calls, wherever they come from. A party reads
or stores a value if that is its task, deletes nothing, and drops as many keys as it says. -/
theorem World.ledger_balances {ι : Type} [DecidableEq ι] (limit : Nat) (tasks : ι → Task)
    (actions : List (Action ι)) :
    let start := World.start limit tasks .empty
    let world := start.after actions
    let total (deed : Deed) := ((start.log actions).map Prod.snd).count deed
    world.store.size + total .deleted + total .expired = total .created + total .counted ∧
      UInt64.ofNat world.store.size + .ofNat (total .deleted) + world.store.counters.expired =
        .ofNat (total .created) + .ofNat (total .counted) ∧
      world.store.counters =
        ⟨.ofNat (total .get), .ofNat (total .set), .ofNat (total .delete), .ofNat (total .expired)⟩ ∧
      ∀ party,
        let own (deed : Deed) := (start.log actions).count (some party, deed)
        own .get ≤ (tasks party).gets ∧ own .set ≤ (tasks party).sets ∧
          own .delete = 0 ∧ own .deleted = 0 ∧
          ∀ result, world.scripts party = .done result →
            own .get = (tasks party).gets ∧ own .set = (tasks party).sets ∧
              ∀ dropped, result.dropped? = some dropped → own .expired = dropped := by
  intro start world total
  obtain ⟨made, audited⟩ := exists_audited limit tasks actions
  have keys : world.store.size + total .deleted + total .expired = total .created + total .counted :=
    audited.balances.keys
  have counters : world.store.counters = .ofDeeds ((start.log actions).map Prod.snd) :=
    audited.balances.counters
  refine ⟨keys, ?_, counters, fun party => ?_⟩
  · have expired : world.store.counters.expired = .ofNat (total .expired) := by
      rw [counters]
      rfl
    rw [expired, ← UInt64.ofNat_add, ← UInt64.ofNat_add, ← UInt64.ofNat_add, keys]
  · intro own
    have spends (deed : Deed) : own deed = spent (made party) deed := audited.counts party deed
    simp only [spends]
    refine ⟨(audited.within party).1, (audited.within party).2,
      spent_of_never (fun act => act.deletes_nothing.1) _,
      spent_of_never (fun act => act.deletes_nothing.2) _, fun result done => ?_⟩
    have meets : (world.scripts party).Meets (.account (tasks party)) (made party) :=
      audited.meets party
    rw [done] at meets
    exact meets.fits

/-- A client that reads `k`, a check of it, and a client that counts `n`. -/
def mixedTasks (party : Fin 3) : Task :=
  match party with
  | 0 => .request [Utf8.encode "GET", Utf8.encode "k"]
  | 1 => .check (Utf8.encode "k")
  | 2 => .request [Utf8.encode "INCR", Utf8.encode "n"]

/-- They take turns on a key that lives until 100, and one key is deleted twice. -/
def mixedActions : List (Action (Fin 3)) :=
  [.call (.set (Utf8.encode "k") (Utf8.encode "7")), .call (.setDeadline (Utf8.encode "k") 100),
    .move ⟨1, 100⟩, .move ⟨0, 99⟩, .move ⟨1, 100⟩, .move ⟨0, 99⟩, .move ⟨0, 99⟩,
    .move ⟨2, 5⟩, .move ⟨2, 5⟩, .call (.delete (Utf8.encode "n")), .call (.delete (Utf8.encode "n"))]

theorem World.ledger_balances_mixedTasks :
    let start := World.start 1 mixedTasks .empty
    let world := start.after mixedActions
    world.store.size = 0 ∧ world.store.counters = ⟨1, 1, 2, 1⟩ ∧
      world.scripts 0 = .done (.outcome (.ok .null)) ∧ (start.log mixedActions).count (some 0, .get) = 1 ∧
      world.scripts 1 = .done (.checked true) ∧
      (start.log mixedActions).count (some 1, .expired) = 1 := by
  intro start world
  obtain ⟨keys, -, counters, parties⟩ := World.ledger_balances 1 mixedTasks mixedActions
  have log : start.log mixedActions =
      [(none, .set), (none, .created), (some 1, .expired), (some 0, .get), (some 2, .counted),
        (none, .delete), (none, .deleted), (none, .delete)] := by
    decide +kernel
  have read : world.scripts 0 = .done (.outcome (.ok .null)) := rfl
  have checked : world.scripts 1 = .done (.checked true) := rfl
  dsimp only at keys counters
  rw [log] at keys counters
  have keys : world.store.size + 1 + 1 = 1 + 1 := keys
  refine ⟨by omega, counters, read, ?_, checked, ?_⟩
  · exact ((parties 0).2.2.2.2 _ read).1
  · exact ((parties 1).2.2.2.2 _ checked).2.2 1 rfl

end KvServer
