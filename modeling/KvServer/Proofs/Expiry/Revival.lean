import KvServer.Proofs.Command.Party

/-!
# Keys past their deadline

A read decides in one access whether the key is alive. `EXPIRE` and `INCR` do not: they first check the key
and then build on the entry that they find, so a deadline that passes in between is overlooked, and the
entry is alive again. No other command can do that, and neither can these two if their check comes after
the deadline.

* `Act.Clears`, a check after which an expired key is known to be gone
* `Contract.checksFirst`: nobody builds on an entry before checking it
* `Dead`: how a key fares behind its deadline
* `dead_until_refilled`, and `revived_by_stale_check`, where the check is too early
-/

namespace KvServer

open Script (Meets Only)

/-- The key on whose entry an access builds. -/
def Access.renewed? : Access → Option Bytes
  | .expireIn key _ | .incrementBy key _ => some key
  | _ => none

theorem Access.renewed_of_unfilled {access : Access} {key : Bytes} (written : access.written? = some key)
    (unfilled : access.refilled? ≠ some key) : access.renewed? = some key := by
  cases access with
  | expireIn => exact written
  | set | incrementBy => exact absurd written unfilled
  | _ => cases written

theorem Access.find?_perform_of_untouched {access : Access} {key : Bytes}
    (unwritten : access.written? ≠ some key) (unremoved : access ≠ .removeIfExpired key) (now : Instant)
    (store : Store) : (access.perform now store).2.find? key = store.find? key := by
  by_cases named : access.key? = some key
  · cases access with
    | keys => cases named
    | deadline? | getLive | timeLeft => rfl
    | set | expireIn | incrementBy => exact absurd named unwritten
    | removeIfExpired other =>
      cases named
      exact absurd rfl unremoved
  · exact find?_perform_of_ne named now store

/-- Says that an act removes a key if it has expired, or finds that it has no deadline. -/
def Act.Clears (act : Act) (key : Bytes) : Prop :=
  act.access = .removeIfExpired key ∨
    act.access = .deadline? key ∧ act.before.deadline? key = none

/-- Whoever builds on the entry under a key has checked the key before. -/
def Contract.checksFirst (key : Bytes) : Contract Result where
  allows made access := access.renewed? = some key → ∃ act ∈ made, act.Clears key
  fits _ _ := True

namespace Command

variable (key : Bytes)

theorem meets_check {made : List Act} (other : Bytes) :
    Meets ⟨(Contract.checksFirst key).allows, fun made (_ : Bool) => ∃ act ∈ made, act.Clears other⟩
      made (dropIfExpired other) := by
  refine meets_dropIfExpired nofun (fun _ _ => nofun) (fun now before absent => ?_)
    fun now before now' before' => ?_
  · exact ⟨⟨now, .deadline? other, before⟩, by simp, .inr ⟨rfl, absent⟩⟩
  · exact ⟨⟨now', .removeIfExpired other, before'⟩, by simp, .inl rfl⟩

theorem meets_checksFirst (command : Command) :
    Meets ⟨(Contract.checksFirst key).allows, fun _ (_ : Outcome) => True⟩ [] command.script := by
  cases command with
  | ping message? => cases message? <;> exact .pure trivial
  | set other value => exact Meets.perform_bind nofun fun _ _ => .pure trivial
  | get other =>
    refine (meets_check key other).bind fun made gone checked => ?_
    refine Meets.perform_bind nofun fun now before => ?_
    split <;> exact .pure trivial
  | ttl other =>
    refine (meets_check key other).bind fun made gone checked => ?_
    exact Meets.perform_bind nofun fun now before => .pure trivial
  | expire other seconds =>
    refine (meets_check key other).bind fun made gone checked => ?_
    refine Meets.perform_bind (fun renewed => ?_) fun now before => .pure trivial
    cases renewed
    exact checked
  | incr other =>
    refine (meets_check key other).bind fun made gone checked => ?_
    refine Meets.perform_bind (fun renewed => ?_) fun now before => ?_
    · cases renewed
      exact checked
    · split <;> exact .pure trivial

end Command

theorem Task.meets_checksFirst (task : Task) (limit : Nat) (key : Bytes) :
    (task.script limit).Meets (.checksFirst key) [] := by
  cases asked : task.command? with
  | some command =>
    rw [script_of_command asked]
    exact (command.meets_checksFirst key).bind fun _ _ _ => .pure trivial
  | none =>
    -- Checks and cycles build on nothing.
    have only : Only (fun access => access.renewed? ≠ some key) (task.script limit) :=
      only_script nofun (fun _ => nofun) (fun _ => nofun)
        (fun command access asked' => by simp [asked] at asked') limit
    exact (only.meets []).imp (fun _ _ other renewed => absurd renewed other) fun _ _ _ => trivial

/-! ## Behind the deadline -/

section Behind

variable {ι : Type} [DecidableEq ι] {key : Bytes} {entry : Entry} {deadline : Instant}

/-- How a key fares when its deadline has passed and nobody has put another entry there: it holds the same
entry until somebody checks it. -/
structure Dead (key : Bytes) (entry : Entry) (steps : List (Step ι)) (world : World ι Result) :
    Prop where
  meets : ∀ party, (world.scripts party).Meets (.checksFirst key) (actsOf party steps)
  held : world.store.find? key = none ∨ world.store.find? key = some entry
  cleared : ∀ step ∈ steps, step.toAct.Clears key → world.store.find? key = none

namespace Dead

variable {steps : List (Step ι)} {world : World ι Result} {step : Step ι}
  {next : step.access.Answer → Script Result}

/-- Whoever builds on the entry finds none. -/
theorem absent_of_renewed (dead : Dead key entry steps world)
    (asks : world.scripts step.party = .ask step.access next)
    (renewed : step.access.renewed? = some key) : world.store.find? key = none := by
  have meets := dead.meets step.party
  rw [asks] at meets
  obtain ⟨act, acted, clears⟩ := meets.allowed renewed
  obtain ⟨earlier, member, -, rfl⟩ := mem_actsOf_iff.1 acted
  exact dead.cleared earlier member clears

theorem advance (dead : Dead key entry steps world) (limited : entry.deadline? = some deadline)
    (found : step.before = world.store) (asks : world.scripts step.party = .ask step.access next)
    (passed : deadline ≤ step.now) (unfilled : step.access.refilled? ≠ some key) :
    Dead key entry (steps ++ [step]) (world.advance step next) := by
  have absent (gone : world.store.find? key = none) : step.after.find? key = none :=
    Access.find?_perform_of_absent (by rw [found, gone]) unfilled step.now
  have expired : entry.isExpired step.now = true :=
    (entry.isExpired_eq_true_iff step.now).2 ⟨deadline, limited, passed⟩
  have clears (clear : step.toAct.Clears key) : step.after.find? key = none := by
    rcases dead.held with gone | held
    · exact absent gone
    · rcases clear with removal | ⟨-, looked⟩
      · rw [Act.after, removal, found]
        simp [Access.perform, Store.find?_removeIfExpired, held, expired]
      · rw [found] at looked
        simp [Store.deadline?, held, limited] at looked
  refine ⟨fun other => World.meets_advance_actsOf asks (dead.meets other), ?_, ?_⟩
  · rcases dead.held with gone | held
    · exact .inl (absent gone)
    · by_cases removal : step.access = .removeIfExpired key
      · exact .inl (clears (.inl removal))
      · -- Of the accesses that write the key, only `EXPIRE` is left, and it would have found it absent.
        have unwritten : step.access.written? ≠ some key := by
          intro written
          have gone := dead.absent_of_renewed asks (Access.renewed_of_unfilled written unfilled)
          rw [held] at gone
          cases gone
        right
        rw [World.store_advance, Act.after, Access.find?_perform_of_untouched unwritten removal, found,
          held]
  · rw [List.forall_mem_append]
    exact ⟨fun earlier member clear => absent (dead.cleared earlier member clear),
      List.forall_mem_singleton.2 clears⟩

theorem run {limit : Nat} {tasks : ι → Task} {store : Store} (held : store.find? key = some entry)
    (limited : entry.deadline? = some deadline) {moves : List (Move ι)}
    (passed : ∀ step ∈ (World.start limit tasks store).steps moves, deadline ≤ step.now)
    (unfilled : ∀ step ∈ (World.start limit tasks store).steps moves,
      step.access.refilled? ≠ some key) :
    Dead key entry ((World.start limit tasks store).steps moves)
      ((World.start limit tasks store).run moves) := by
  refine World.run_induction (motive := fun steps world =>
    (∀ step ∈ steps, deadline ≤ step.now) → (∀ step ∈ steps, step.access.refilled? ≠ some key) →
      Dead key entry steps world) (fun _ _ => ?_) ?_ moves passed unfilled
  · exact ⟨fun party => (tasks party).meets_checksFirst limit key, .inr held, nofun⟩
  · intro steps world step next dead found asks passed unfilled
    obtain ⟨passed, passed'⟩ := List.forall_mem_append.1 passed
    obtain ⟨unfilled, unfilled'⟩ := List.forall_mem_append.1 unfilled
    exact (dead passed unfilled).advance limited found asks (passed' step (by simp))
      (unfilled' step (by simp))

end Dead

end Behind

/-- Among clients that begin behind the deadline of a key, nobody sees the entry again, gives it another
deadline or counts on from it, until somebody puts a new entry there. -/
theorem dead_until_refilled {ι : Type} [DecidableEq ι] (limit : Nat) (tasks : ι → Task) (store : Store)
    (key : Bytes) (entry : Entry) (deadline : Instant) (moves : List (Move ι))
    (held : store.find? key = some entry) (limited : entry.deadline? = some deadline)
    (passed : ∀ move ∈ moves, deadline ≤ move.now)
    (unfilled : ∀ step ∈ (World.start limit tasks store).steps moves,
      step.access.refilled? ≠ some key) :
    let world := (World.start limit tasks store).run moves
    (world.store.find? key = none ∨ world.store.find? key = some entry) ∧
      ∀ move step, deadline ≤ move.now → world.step? move = some step →
        (step.access = .getLive key → (world.store.getLive key move.now).1 = none) ∧
          (∀ seconds, step.access = .expireIn key seconds →
            world.store.setDeadline key (move.now.after seconds) = (false, world.store)) ∧
          ∀ delta, step.access = .incrementBy key delta →
            world.store.find? key = none ∧ (world.store.incrementBy key delta).1 = .ok delta := by
  intro world
  have dead : Dead key entry ((World.start limit tasks store).steps moves) world := by
    refine Dead.run held limited (fun step member => ?_) unfilled
    obtain ⟨move, member, -, now⟩ := World.exists_move_of_mem_steps member
    rw [now]
    exact passed move member
  refine ⟨dead.held, fun move step late made => ?_⟩
  obtain ⟨⟨next, asks⟩, party, -, -⟩ := World.step?_eq_some_iff.1 made
  rw [← party] at asks
  refine ⟨fun _ => ?_, fun seconds limits => ?_, fun delta counts => ?_⟩
  · rcases dead.held with gone | held
    · simp [Store.getLive, gone]
    · have expired : entry.isExpired move.now = true :=
        (entry.isExpired_eq_true_iff move.now).2 ⟨deadline, limited, late⟩
      simp [Store.getLive, held, expired]
  · have gone := dead.absent_of_renewed asks (by rw [limits]; rfl)
    simp [Store.setDeadline, gone]
  · have gone := dead.absent_of_renewed asks (by rw [counts]; rfl)
    have sum : Store.incremented (world.store.find? key) delta = .ok delta := by
      rw [gone, Store.incremented_none]
    exact ⟨gone, by rw [Store.incrementBy_of_ok sum]⟩

/-- Two clients read the key `k`, one gives it another deadline, and one counts it up. -/
def sharing (party : Fin 4) : Task :=
  match party with
  | 0 | 2 => .request [Utf8.encode "GET", Utf8.encode "k"]
  | 1 => .request [Utf8.encode "EXPIRE", Utf8.encode "k", Utf8.encode "100"]
  | 3 => .request [Utf8.encode "INCR", Utf8.encode "k"]

theorem dead_until_refilled_sharing :
    let k := Utf8.encode "k"
    let start := World.start 1 sharing limitedKey
    let moves : List (Move (Fin 4)) := [⟨0, 100⟩, ⟨1, 101⟩, ⟨3, 100⟩, ⟨1, 100⟩, ⟨3, 102⟩]
    let world := start.run moves
    limitedKey.find? k = some ⟨Utf8.encode "7", some 100⟩ ∧ (∀ move ∈ moves, 100 ≤ move.now) ∧
      (∀ step ∈ start.steps moves, step.access.refilled? ≠ some k) ∧
      (world.step? ⟨1, 103⟩).map (·.access) = some (.expireIn k 100) ∧
      world.store.setDeadline k 203 = (false, world.store) ∧
      (world.step? ⟨3, 103⟩).map (·.access) = some (.incrementBy k 1) ∧
      (world.store.incrementBy k 1).1 = .ok 1 := by
  intro k start moves world
  have held : limitedKey.find? k = some ⟨Utf8.encode "7", some 100⟩ := by decide +kernel
  have passed : ∀ move ∈ moves, 100 ≤ move.now := by decide
  have unfilled : ∀ step ∈ start.steps moves, step.access.refilled? ≠ some k := by decide +kernel
  have limiting : world.step? ⟨1, 103⟩ = some ⟨⟨103, .expireIn k 100, world.store⟩, 1⟩ := rfl
  have counting : world.step? ⟨3, 103⟩ = some ⟨⟨103, .incrementBy k 1, world.store⟩, 3⟩ := rfl
  have late : (100 : Instant) ≤ 103 := by decide
  have dead := (dead_until_refilled 1 sharing limitedKey k _ 100 moves held rfl passed unfilled).2
  refine ⟨held, passed, unfilled, rfl, ?_, rfl, ?_⟩
  · exact (dead _ _ late limiting).2.1 100 rfl
  · exact ((dead _ _ late counting).2.2 1 rfl).2

/-- A check at 99 finds the key alive, and at 100 its deadline has passed. `EXPIRE` then brings back what
`GET` has already found gone, and `INCR` counts on from it. -/
theorem revived_by_stale_check :
    let k := Utf8.encode "k"
    let start := World.start 1 sharing limitedKey
    let moves : List (Move (Fin 4)) :=
      [⟨0, 99⟩, ⟨0, 99⟩, ⟨1, 99⟩, ⟨1, 99⟩, ⟨0, 100⟩, ⟨1, 100⟩, ⟨2, 100⟩, ⟨2, 100⟩, ⟨2, 100⟩]
    let counting : List (Move (Fin 4)) := [⟨3, 99⟩, ⟨3, 99⟩, ⟨3, 100⟩]
    limitedKey.find? k = some ⟨Utf8.encode "7", some 100⟩ ∧
      moves.Pairwise (·.now ≤ ·.now) ∧
      (∀ step ∈ start.steps moves, step.access.refilled? ≠ some k) ∧
      (start.run moves).scripts 0 = .done (.outcome (.ok .null)) ∧
      (start.run moves).scripts 1 = .done (.outcome (.ok (.integer 1))) ∧
      (start.run moves).scripts 2 = .done (.outcome (.ok (.bulk (Utf8.encode "7")))) ∧
      (start.run moves).store.find? k = some ⟨Utf8.encode "7", some 200⟩ ∧
      counting.Pairwise (·.now ≤ ·.now) ∧
      (start.run counting).scripts 3 = .done (.outcome (.ok (.integer 8))) :=
  ⟨by decide +kernel, by decide, by decide +kernel, rfl, rfl, rfl, by decide +kernel, by decide, rfl⟩

end KvServer
