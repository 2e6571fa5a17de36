import KvServer.Proofs.Command.Party
import KvServer.Proofs.Numeral.Decimal
import Mathlib.Data.Fintype.Card

/-!
# No update is lost

Between the lookup of a deadline and the removal that follows it, others may write. The removal decides
anew, so it takes out nothing that is alive; and an increment reads and writes in one access, so none of
several increments is lost.

* `Access.removes_of_gone`: only a removal of an expired entry takes an entry out
* `World.find?_run_of_unexpired`: an entry stays as long as nobody replaces it and it is not expired
* `CountedUp`: how far some increments of a key have come
* `World.no_update_lost`
-/

namespace KvServer

open Script (Meets Only)

/-! ## Removals -/

theorem Access.removes_of_gone {access : Access} {key : Bytes} {now : Instant} {store : Store}
    {entry : Entry} (held : store.find? key = some entry)
    (gone : (access.perform now store).2.find? key = none) :
    access = .removeIfExpired key ∧ entry.isExpired now = true := by
  by_cases named : access.key? = some key
  · cases access with
    | keys => cases named
    | deadline? | getLive | timeLeft => exact absurd (held.symm.trans gone) nofun
    | set other value =>
      cases named
      simp [perform, Store.find?_set] at gone
    | expireIn other seconds =>
      cases named
      simp [perform, Store.find?_setDeadline, held] at gone
    | incrementBy other delta =>
      cases named
      simp only [perform, Store.find?_incrementBy, if_true] at gone
      split at gone
      · exact absurd (held.symm.trans gone) nofun
      · cases gone
    | removeIfExpired other =>
      cases named
      simpa [perform, Store.find?_removeIfExpired, held] using gone
  · rw [find?_perform_of_ne named, held] at gone
    cases gone

namespace World

variable {ι ρ : Type} [DecidableEq ι] {world : World ι ρ} {move : Move ι} {key : Bytes}
  {entry : Entry}

/-- An entry leaves the store only in a removal at or after the deadline that it has at that moment. -/
theorem removes_of_gone (held : world.store.find? key = some entry)
    (gone : (world.move move).store.find? key = none) :
    ∃ step, world.step? move = some step ∧ step.access = .removeIfExpired key ∧
      ∃ deadline, entry.deadline? = some deadline ∧ deadline ≤ move.now := by
  rcases world.move_cases move with ⟨-, same⟩ | ⟨step, next, made, found, now, -, moved⟩
  · rw [same, held] at gone
    cases gone
  · rw [moved, store_advance, Act.after, found, now] at gone
    obtain ⟨removal, expired⟩ := Access.removes_of_gone held gone
    exact ⟨step, made, removal, (entry.isExpired_eq_true_iff move.now).1 expired⟩

/-- An entry stays as long as nobody replaces it and no reading of the clock has reached its deadline. -/
theorem find?_run_of_unexpired {moves : List (Move ι)}
    (unwritten : ∀ step ∈ world.steps moves, step.access.written? ≠ some key)
    (unexpired : ∀ step ∈ world.steps moves, entry.isExpired step.now = false)
    (held : world.store.find? key = some entry) :
    (world.run moves).store.find? key = some entry := by
  refine run_induction (motive := fun steps world =>
    (∀ step ∈ steps, step.access.written? ≠ some key) →
      (∀ step ∈ steps, entry.isExpired step.now = false) →
      world.store.find? key = some entry) (fun _ _ => held) ?_ moves unwritten unexpired
  intro steps world step next kept found asks unwritten unexpired
  obtain ⟨unwritten, unwritten'⟩ := List.forall_mem_append.1 unwritten
  obtain ⟨unexpired, unexpired'⟩ := List.forall_mem_append.1 unexpired
  have before := kept unwritten unexpired
  rw [← found] at before
  exact Access.find?_perform_of_unexpired before (unexpired' step (by simp)) (unwritten' step (by simp))

end World

/-! ## Increments -/

/-- What an increment replies. -/
def Outcome.ofSum : Except IncrementError Int64 → Outcome
  | .ok sum => .ok (.integer sum)
  | .error error => .error (.ofIncrement error)

/-- Whoever increments a key writes it once and nothing under it besides, and ends with the sum. -/
def Contract.increments (key : Bytes) : Contract Result where
  allows made access :=
    (∀ act ∈ made, act.access ≠ .incrementBy key 1) ∧
      (access.written? = some key → access = .incrementBy key 1)
  fits made result := ∃ act ∈ made, act.access = .incrementBy key 1 ∧
    result = .outcome (.ofSum (act.before.incrementBy key 1).1)

/-- Whoever leaves a key alone does not write it. -/
def Contract.leaves (key : Bytes) : Contract Result where
  allows _ access := access.written? ≠ some key
  fits _ _ := True

theorem meets_script_incr (key : Bytes) :
    Meets ⟨(Contract.increments key).allows, fun made outcome => ∃ act ∈ made,
      act.access = .incrementBy key 1 ∧ outcome = .ofSum (act.before.incrementBy key 1).1⟩ []
      (Command.incr key).script := by
  -- Behind the check nothing has been written yet.
  have check : Meets ⟨(Contract.increments key).allows,
      fun made (_ : Bool) => ∀ act ∈ made, act.access ≠ .incrementBy key 1⟩ [] (dropIfExpired key) := by
    refine meets_dropIfExpired ⟨nofun, nofun⟩ (fun now before => ⟨?_, nofun⟩) (fun now before _ => ?_)
      fun now before now' before' => ?_ <;> simp
  refine check.bind fun made gone fresh => ?_
  refine Meets.perform_bind ⟨fresh, fun _ => rfl⟩ fun now before => ?_
  have made : ∃ act ∈ made ++ [⟨now, .incrementBy key 1, before⟩], act.access = .incrementBy key 1 ∧
      Outcome.ofSum (before.incrementBy key 1).1 = .ofSum (act.before.incrementBy key 1).1 :=
    ⟨⟨now, .incrementBy key 1, before⟩, by simp, rfl, rfl⟩
  split
  next sum added =>
    have added : (before.incrementBy key 1).1 = .ok sum := added
    rw [added] at made
    exact .pure made
  next error refused =>
    have refused : (before.incrementBy key 1).1 = .error error := refused
    rw [refused] at made
    exact .pure made

theorem meets_increments {key : Bytes} {task : Task} (asked : task.command? = some (.incr key))
    (limit : Nat) : (task.script limit).Meets (.increments key) [] := by
  rw [Task.script_of_command asked]
  refine (meets_script_incr key).bind fun made outcome ⟨act, member, count, sum⟩ => ?_
  exact .pure ⟨act, member, count, congrArg Result.outcome sum⟩

theorem meets_leaves {key : Bytes} {task : Task}
    (unwritten : ∀ command, task.command? = some command → command.written? ≠ some key) (limit : Nat) :
    (task.script limit).Meets (.leaves key) [] := by
  have only : Only (fun access => access.written? ≠ some key) (task.script limit) :=
    Task.only_script nofun (fun _ => nofun) (fun _ => nofun) (fun command access asked made written =>
      unwritten command asked (Command.written?_of_mem_accesses made written)) limit
  exact only.meets []

/-! ## Counting -/

theorem Access.find?_perform_of_lasting {access : Access} {key : Bytes} {store : Store}
    (lasting : (store.find? key).bind Entry.deadline? = none) (unwritten : access.written? ≠ some key)
    (now : Instant) : (access.perform now store).2.find? key = store.find? key := by
  cases held : store.find? key with
  | some entry =>
    have unlimited : entry.deadline? = none := by simpa [held] using lasting
    exact find?_perform_of_unexpired held (by simp [Entry.isExpired, unlimited]) unwritten
  | none => exact find?_perform_of_absent held (unfilled_of_unwritten unwritten) now

/-- The entry under a key that held the integer `n` and has been incremented some times. -/
def countedEntry (initial : Option Entry) (n : Int) (count : Nat) : Option Entry :=
  if count = 0 then initial else some (.lasting (Decimal.ofInt (n + count)))

section Counted

variable {initial : Option Entry} {n : Int64} {count : Nat}

theorem lasting_countedEntry (lasting : initial.bind Entry.deadline? = none) :
    (countedEntry initial n.toInt count).bind Entry.deadline? = none := by
  unfold countedEntry
  split
  · exact lasting
  · rfl

theorem toInt_ofInt_of_ge {sum : Int} (atLeast : n.toInt ≤ sum) (room : sum ≤ 2 ^ 63 - 1) :
    (Int64.ofInt sum).toInt = sum := by
  have low := Int64.minValue_le_toInt n
  exact Word.toInt_ofInt_of_mem (by omega) (by rw [Int64.toInt_maxValue]; omega)

theorem integerOf_countedEntry (reads : Store.integerOf initial = .ok n)
    (room : n.toInt + count ≤ 2 ^ 63 - 1) :
    Store.integerOf (countedEntry initial n.toInt count) = .ok (.ofInt (n.toInt + count)) := by
  cases count with
  | zero => simpa [countedEntry] using reads
  | succ count =>
    have text : Decimal.int64? (Decimal.ofInt (n.toInt + (count + 1 : Nat))) =
        some (.ofInt (n.toInt + (count + 1 : Nat))) := by
      rw [Decimal.int64?_eq_some_iff, @toInt_ofInt_of_ge n _ (by omega) room]
      exact .numeral (Decimal.numeral_ofInt _)
    simp only [countedEntry, Nat.succ_ne_zero, if_false, Store.integerOf, Entry.lasting, text]

theorem incrementBy_counted {store : Store} {key : Bytes} (reads : Store.integerOf initial = .ok n)
    (lasting : initial.bind Entry.deadline? = none)
    (held : store.find? key = countedEntry initial n.toInt count)
    (room : n.toInt + (count + 1) ≤ 2 ^ 63 - 1) :
    (store.incrementBy key 1).1 = .ok (.ofInt (n.toInt + count + 1)) ∧
      (store.incrementBy key 1).2.find? key = countedEntry initial n.toInt (count + 1) := by
  have before : (Int64.ofInt (n.toInt + count)).toInt = n.toInt + count :=
    @toInt_ofInt_of_ge n _ (by omega) (by omega)
  have behind : (Int64.ofInt (n.toInt + count + 1)).toInt = n.toInt + count + 1 :=
    @toInt_ofInt_of_ge n _ (by omega) (by omega)
  have one : (1 : Int64).toInt = 1 := rfl
  have added : Word.checkedAdd? (.ofInt (n.toInt + count)) 1 = some (.ofInt (n.toInt + count + 1)) := by
    rw [Word.checkedAdd?_eq_some_iff, before, behind, one]
  have sum : Store.incremented (store.find? key) 1 = .ok (.ofInt (n.toInt + count + 1)) := by
    rw [held, Store.incremented, integerOf_countedEntry reads (by omega)]
    simp only [bind, Except.bind, added]
  rw [Store.incrementBy_of_ok sum]
  refine ⟨rfl, ?_⟩
  rw [Store.find?_put, if_pos rfl, held, lasting_countedEntry lasting, behind]
  simp [countedEntry, Entry.lasting, add_assoc]

end Counted

/-! ## Runs -/

/-- The increments of a key among some accesses. -/
def increments {ι : Type} (key : Bytes) (steps : List (Step ι)) : List (Step ι) :=
  steps.filter (·.access = .incrementBy key 1)

section Increments

variable {ι : Type} {key : Bytes} {steps : List (Step ι)} {step : Step ι}

theorem mem_increments_iff :
    step ∈ increments key steps ↔ step ∈ steps ∧ step.access = .incrementBy key 1 := by
  simp [increments]

theorem increments_append_of_eq (count : step.access = .incrementBy key 1) :
    increments key (steps ++ [step]) = increments key steps ++ [step] := by
  simp [increments, List.filter_append, count]

theorem increments_append_of_ne (other : step.access ≠ .incrementBy key 1) :
    increments key (steps ++ [step]) = increments key steps := by
  simp [increments, List.filter_append, other]

/-- How far the increments of a key have come. -/
structure CountedUp (key : Bytes) (initial : Option Entry) (n : Int) (steps : List (Step ι))
    (store : Store) : Prop where
  sums : (increments key steps).map (fun step => (step.before.incrementBy key 1).1) =
    (List.range (increments key steps).length).map fun i => .ok (.ofInt (n + i + 1))
  entry : store.find? key = countedEntry initial n (increments key steps).length

theorem CountedUp.advance {initial : Option Entry} {n : Int64} {store : Store}
    (reads : Store.integerOf initial = .ok n)
    (lasting : initial.bind Entry.deadline? = none) (found : step.before = store)
    (others : step.access.written? = some key → step.access = .incrementBy key 1)
    (room : n.toInt + (increments key (steps ++ [step])).length ≤ 2 ^ 63 - 1)
    (counted : CountedUp key initial n.toInt steps store) :
    CountedUp key initial n.toInt (steps ++ [step]) step.after := by
  subst found
  by_cases count : step.access = .incrementBy key 1
  · rw [increments_append_of_eq count, List.length_append, List.length_singleton] at room
    obtain ⟨sum, entry⟩ := incrementBy_counted reads lasting counted.entry (by exact_mod_cast room)
    have after : step.after = (step.before.incrementBy key 1).2 := by
      rw [Act.after, count]
      rfl
    refine ⟨?_, ?_⟩
    · rw [increments_append_of_eq count, List.map_append, counted.sums, List.length_append,
        List.length_singleton, List.range_succ, List.map_append]
      simp only [List.map_singleton, sum]
    · rw [increments_append_of_eq count, List.length_append, List.length_singleton, after, entry]
  · have unwritten : step.access.written? ≠ some key := fun written => count (others written)
    refine ⟨?_, ?_⟩ <;> rw [increments_append_of_ne count]
    · exact counted.sums
    · have held : (step.before.find? key).bind Entry.deadline? = none := by
        rw [counted.entry, lasting_countedEntry lasting]
      exact (Access.find?_perform_of_lasting held unwritten step.now).trans counted.entry

end Increments

section Run

variable {ι : Type} [DecidableEq ι] (tasks : ι → Task) (key : Bytes)

/-- What the parties promise on a key that some of them increment and nobody else writes. -/
def contracts (party : ι) : Contract Result :=
  if (tasks party).command? = some (.incr key) then .increments key else .leaves key

/-- Says that nobody has written a key but those whose task it is to increment it, each of them once. -/
structure OnceEach (steps : List (Step ι)) (world : World ι Result) : Prop where
  meets : ∀ party, (world.scripts party).Meets (contracts tasks key party) (actsOf party steps)
  once : ((increments key steps).map (·.party)).Nodup
  own : ∀ step ∈ increments key steps, (tasks step.party).command? = some (.incr key)
  others : ∀ step ∈ steps, step.access.written? = some key → step.access = .incrementBy key 1

variable {tasks key}

omit [DecidableEq ι] in
theorem increment_of_allowed {party : ι} {made : List Act} {access : Access}
    (allowed : (contracts tasks key party).allows made access) (written : access.written? = some key) :
    access = .incrementBy key 1 ∧ (tasks party).command? = some (.incr key) ∧
      ∀ act ∈ made, act.access ≠ .incrementBy key 1 := by
  unfold contracts at allowed
  split at allowed
  next incr => exact ⟨allowed.2 written, incr, allowed.1⟩
  next => exact absurd written allowed

theorem OnceEach.advance {steps : List (Step ι)} {world : World ι Result} {step : Step ι}
    {next : step.access.Answer → Script Result} (onceEach : OnceEach tasks key steps world)
    (asks : world.scripts step.party = .ask step.access next) :
    OnceEach tasks key (steps ++ [step]) (world.advance step next) := by
  have meets := onceEach.meets step.party
  rw [asks] at meets
  have increment := increment_of_allowed meets.allowed
  have others : ∀ step' ∈ steps ++ [step], step'.access.written? = some key →
      step'.access = .incrementBy key 1 := by
    rw [List.forall_mem_append]
    exact ⟨onceEach.others, List.forall_mem_singleton.2 fun written => (increment written).1⟩
  by_cases count : step.access = .incrementBy key 1
  · obtain ⟨-, incr, fresh⟩ := increment (by rw [count]; rfl)
    -- The party has not counted before.
    have first : step.party ∉ (increments key steps).map (·.party) := by
      intro counted
      obtain ⟨earlier, member, same⟩ := List.mem_map.1 counted
      obtain ⟨member, count'⟩ := mem_increments_iff.1 member
      exact fresh earlier.toAct (mem_actsOf_iff.2 ⟨earlier, member, same, rfl⟩) count'
    refine ⟨fun other => World.meets_advance_actsOf asks (onceEach.meets other), ?_, ?_, others⟩
    · rw [increments_append_of_eq count, List.map_append, List.map_singleton]
      exact List.nodup_append.2 ⟨onceEach.once, List.nodup_singleton _, by simpa using first⟩
    · rw [increments_append_of_eq count, List.forall_mem_append]
      exact ⟨onceEach.own, List.forall_mem_singleton.2 incr⟩
  · refine ⟨fun other => World.meets_advance_actsOf asks (onceEach.meets other), ?_, ?_, others⟩
    · rw [increments_append_of_ne count]
      exact onceEach.once
    · rw [increments_append_of_ne count]
      exact onceEach.own

theorem onceEach_start (limit : Nat) (store : Store)
    (named : ∀ party command, (tasks party).command? = some command → command.key? = some key →
      command = .get key ∨ command = .ttl key ∨ command = .incr key) :
    OnceEach tasks key [] (World.start limit tasks store) := by
  refine ⟨fun party => ?_, .nil, nofun, nofun⟩
  change ((tasks party).script limit).Meets (contracts tasks key party) []
  unfold contracts
  split
  next incr => exact meets_increments incr limit
  next other =>
    refine meets_leaves (fun command asked written => ?_) limit
    cases command with
    | ping | get | ttl => cases written
    | set | expire =>
      cases written
      obtain same | same | same := named party _ asked rfl <;> cases same
    | incr =>
      cases written
      exact absurd asked other

/-- There are no more increments than parties to make them. -/
theorem OnceEach.length_le [Fintype ι] {steps : List (Step ι)} {world : World ι Result}
    (onceEach : OnceEach tasks key steps world) :
    (increments key steps).length ≤
      (Finset.univ.filter fun party => (tasks party).command? = some (.incr key)).card := by
  rw [← List.length_map (·.party), ← List.toFinset_card_of_nodup onceEach.once]
  refine Finset.card_le_card fun party member => ?_
  obtain ⟨step, made, rfl⟩ := List.mem_map.1 (List.mem_toFinset.1 member)
  exact Finset.mem_filter.2 ⟨Finset.mem_univ _, onceEach.own step made⟩

/-- Once they are all done, they have all counted. -/
theorem OnceEach.length_eq [Fintype ι] {steps : List (Step ι)} {world : World ι Result}
    (onceEach : OnceEach tasks key steps world)
    (allDone : ∀ party, (tasks party).command? = some (.incr key) →
      ∃ result, world.scripts party = .done result) :
    (increments key steps).length =
      (Finset.univ.filter fun party => (tasks party).command? = some (.incr key)).card := by
  refine Nat.le_antisymm onceEach.length_le ?_
  rw [← List.length_map (·.party), ← List.toFinset_card_of_nodup onceEach.once]
  refine Finset.card_le_card fun party member => List.mem_toFinset.2 ?_
  have incr := (Finset.mem_filter.1 member).2
  obtain ⟨result, done⟩ := allDone party incr
  have meets := onceEach.meets party
  rw [contracts, if_pos incr, done] at meets
  obtain ⟨act, acted, count, -⟩ := meets.fits
  obtain ⟨step, made, own, rfl⟩ := mem_actsOf_iff.1 acted
  exact List.mem_map.2 ⟨step, mem_increments_iff.2 ⟨made, count⟩, own⟩

/-- A party that has counted is done, and its reply is the sum. -/
theorem OnceEach.done {steps : List (Step ι)} {world : World ι Result} {step : Step ι}
    (onceEach : OnceEach tasks key steps world) (made : step ∈ increments key steps) :
    world.scripts step.party = .done (.outcome (.ofSum (step.before.incrementBy key 1).1)) := by
  have meets := onceEach.meets step.party
  rw [contracts, if_pos (onceEach.own step made)] at meets
  obtain ⟨member, count⟩ := mem_increments_iff.1 made
  have acted : step.toAct ∈ actsOf step.party steps := mem_actsOf_iff.2 ⟨step, member, rfl, rfl⟩
  cases left : world.scripts step.party with
  | ask access next =>
    rw [left] at meets
    exact absurd count (meets.allowed.1 step.toAct acted)
  | done result =>
    rw [left] at meets
    obtain ⟨act, acted', count', rfl⟩ := meets.fits
    -- It has counted once, so this is the access that its reply is about.
    obtain ⟨other, member', same, rfl⟩ := mem_actsOf_iff.1 acted'
    have once : other = step :=
      List.inj_on_of_nodup_map onceEach.once (mem_increments_iff.2 ⟨member', count'⟩) made same
    rw [once]

theorem counted_run [Fintype ι] {limit : Nat} {store : Store} {n : Int64}
    (named : ∀ party command, (tasks party).command? = some command → command.key? = some key →
      command = .get key ∨ command = .ttl key ∨ command = .incr key)
    (reads : Store.integerOf (store.find? key) = .ok n)
    (lasting : (store.find? key).bind Entry.deadline? = none)
    (room : n.toInt +
      (Finset.univ.filter fun party => (tasks party).command? = some (.incr key)).card ≤ 2 ^ 63 - 1)
    (moves : List (Move ι)) :
    OnceEach tasks key ((World.start limit tasks store).steps moves)
        ((World.start limit tasks store).run moves) ∧
      CountedUp key (store.find? key) n.toInt ((World.start limit tasks store).steps moves)
        ((World.start limit tasks store).run moves).store := by
  refine World.run_induction (motive := fun steps world =>
    OnceEach tasks key steps world ∧ CountedUp key (store.find? key) n.toInt steps world.store)
    ⟨onceEach_start limit store named, rfl, rfl⟩ ?_ moves
  rintro steps world step next ⟨onceEach, counted⟩ found asks
  have onceEach' := onceEach.advance asks
  have bounded := onceEach'.length_le
  refine ⟨onceEach', counted.advance reads lasting found (onceEach'.others step (by simp)) ?_⟩
  omega

end Run

/-- However the accesses of clients and cycles alternate, and whatever the clock shows: an entry leaves the
store only in a removal at or after the deadline that it has at that moment, so what is set or given a
deadline stays, however old the lookups are on which others act; and the increments of a key that is
otherwise only read are all counted, each once and in the order in which they were made. -/
theorem World.no_update_lost {ι : Type} [Fintype ι] [DecidableEq ι] (limit : Nat) (tasks : ι → Task)
    (store : Store) (moves : List (Move ι)) :
    let start := World.start limit tasks store
    let world := start.run moves
    (∀ (key : Bytes) (entry : Entry) (move : Move ι), world.store.find? key = some entry →
      (world.move move).store.find? key = none →
        ∃ step, world.step? move = some step ∧ step.access = .removeIfExpired key ∧
          ∃ deadline, entry.deadline? = some deadline ∧ deadline ≤ move.now) ∧
    (∀ (key value : Bytes) (move : Move ι) (step : Step ι) (later : List (Move ι)),
      world.step? move = some step → step.access = .set key value →
      (∀ step ∈ (world.move move).steps later, step.access.written? ≠ some key) →
        ((world.move move).run later).store.find? key = some (.lasting value)) ∧
    (∀ (key : Bytes) (seconds : UInt64) (entry : Entry) (move : Move ι) (step : Step ι)
      (later : List (Move ι)), world.store.find? key = some entry →
      world.step? move = some step → step.access = .expireIn key seconds →
      (∀ step ∈ (world.move move).steps later,
        step.access.written? ≠ some key ∧ step.now < move.now.after seconds) →
        ((world.move move).run later).store.find? key =
          some { entry with deadline? := some (move.now.after seconds) }) ∧
    ∀ (key : Bytes) (n : Int64),
      (store.find? key = none ∧ n = 0 ∨
        ∃ text, store.find? key = some (.lasting text) ∧ Decimal.int64? text = some n) →
      (∀ party command, (tasks party).command? = some command → command.key? = some key →
        command = .get key ∨ command = .ttl key ∨ command = .incr key) →
      let total := (Finset.univ.filter fun party => (tasks party).command? = some (.incr key)).card
      n.toInt + total ≤ 2 ^ 63 - 1 →
        let made := increments key (start.steps moves)
        made.map (fun step => world.scripts step.party) =
            (List.range made.length).map (fun i =>
              .done (.outcome (.ok (.integer (.ofInt (n.toInt + i + 1)))))) ∧
          (made.map (·.party)).Nodup ∧
          (∀ step ∈ made, (tasks step.party).command? = some (.incr key)) ∧
          world.store.find? key =
            (if made.length = 0 then store.find? key
              else some (.lasting (Decimal.ofInt (n.toInt + made.length)))) ∧
          ((∀ party, (tasks party).command? = some (.incr key) →
            ∃ result, world.scripts party = .done result) → made.length = total) := by
  intro start world
  refine ⟨fun key entry move => World.removes_of_gone, ?_, ?_, ?_⟩
  · intro key value move step later made sets unwritten
    refine World.find?_run_of_unexpired unwritten (fun _ _ => rfl) ?_
    rw [World.store_move made, Act.after, sets]
    exact (step.before.find?_set key value key).trans (if_pos rfl)
  · intro key seconds entry move step later held made limits kept
    refine World.find?_run_of_unexpired (fun step later => (kept step later).1)
      (fun step later => isExpired_eq_false_of_lt fun deadline same => ?_) ?_
    · cases same
      exact (kept step later).2
    · obtain ⟨-, -, now, before⟩ := World.step?_eq_some_iff.1 made
      rw [World.store_move made, Act.after, limits, before, now]
      refine (world.store.find?_setDeadline key (move.now.after seconds) key).trans ?_
      rw [if_pos rfl, held]
      rfl
  · intro key n initial named total room made
    have reads : Store.integerOf (store.find? key) = .ok n := by
      rcases initial with ⟨absent, rfl⟩ | ⟨text, held, integer⟩
      · rw [absent]
        rfl
      · simp only [held, Store.integerOf, Entry.lasting, integer]
    have lasting : (store.find? key).bind Entry.deadline? = none := by
      rcases initial with ⟨absent, -⟩ | ⟨text, held, -⟩
      · rw [absent]
        rfl
      · rw [held]
        rfl
    obtain ⟨onceEach, counted⟩ := @counted_run _ _ _ _ _ limit _ _ named reads lasting room moves
    refine ⟨?_, onceEach.once, onceEach.own, counted.entry, onceEach.length_eq⟩
    have replies := congrArg
      (List.map fun sum => Script.done (Result.outcome (Outcome.ofSum sum))) counted.sums
    rw [List.map_map, List.map_map] at replies
    exact (List.map_congr_left fun step member => onceEach.done member).trans replies

/-- Two clients count the key `n`, a cycle is about to remove `k`, and two more clients write `k`. -/
def crossing (party : Fin 5) : Task :=
  match party with
  | 0 | 1 => .request [Utf8.encode "INCR", Utf8.encode "n"]
  | 2 => .cycle .standard .inOrder .never
  | 3 => .request [Utf8.encode "SET", Utf8.encode "k", Utf8.encode "x"]
  | 4 => .request [Utf8.encode "EXPIRE", Utf8.encode "k", Utf8.encode "100"]

/-- Both counters and `EXPIRE` have checked their keys, and the cycle has found the deadline of `k`. -/
def checked : List (Move (Fin 5)) :=
  [⟨4, 99⟩, ⟨0, 99⟩, ⟨4, 99⟩, ⟨1, 99⟩, ⟨2, 150⟩, ⟨2, 150⟩]

theorem World.no_update_lost_crossing :
    let k := Utf8.encode "k"
    let n := Utf8.encode "n"
    let start := World.start 1 crossing limitedKey
    let looked := start.run checked
    (looked.store.find? k = some ⟨Utf8.encode "7", some 100⟩ ∧
      (looked.move ⟨2, 150⟩).store.find? k = none ∧
      ∃ step, looked.step? ⟨2, 150⟩ = some step ∧ step.access = .removeIfExpired k ∧
        ∃ deadline : Instant, some 100 = some deadline ∧ deadline ≤ 150) ∧
    ((looked.step? ⟨3, 150⟩).map (·.access) = some (.set k (Utf8.encode "x")) ∧
      (∀ step ∈ (looked.move ⟨3, 150⟩).steps [⟨2, 150⟩], step.access.written? ≠ some k) ∧
      ((looked.move ⟨3, 150⟩).run [⟨2, 150⟩]).store.find? k = some (.lasting (Utf8.encode "x"))) ∧
    ((looked.step? ⟨4, 150⟩).map (·.access) = some (.expireIn k 100) ∧
      (∀ step ∈ (looked.move ⟨4, 150⟩).steps [⟨2, 249⟩],
        step.access.written? ≠ some k ∧ step.now < 250) ∧
      ((looked.move ⟨4, 150⟩).run [⟨2, 249⟩]).store.find? k = some ⟨Utf8.encode "7", some 250⟩) ∧
    limitedKey.find? n = none ∧
    let moves := checked ++ [⟨1, 160⟩, ⟨2, 150⟩, ⟨0, 3⟩]
    let made := increments n (start.steps moves)
    made.map (·.party) = [1, 0] ∧
      made.map (fun step => (start.run moves).scripts step.party) =
        [.done (.outcome (.ok (.integer 1))), .done (.outcome (.ok (.integer 2)))] ∧
      (start.run moves).store.find? n = some (.lasting (Decimal.ofInt 2)) := by
  intro k n start looked
  obtain ⟨leaves, sets, expires, -⟩ := World.no_update_lost 1 crossing limitedKey checked
  have held : looked.store.find? k = some ⟨Utf8.encode "7", some 100⟩ := by decide +kernel
  have gone : (looked.move ⟨2, 150⟩).store.find? k = none := by decide +kernel
  have setting : looked.step? ⟨3, 150⟩ =
      some ⟨⟨150, .set k (Utf8.encode "x"), looked.store⟩, 3⟩ := rfl
  have limiting : looked.step? ⟨4, 150⟩ = some ⟨⟨150, .expireIn k 100, looked.store⟩, 4⟩ := rfl
  have unwritten : ∀ step ∈ (looked.move ⟨3, 150⟩).steps [⟨2, 150⟩], step.access.written? ≠ some k := by
    decide +kernel
  have early : ∀ step ∈ (looked.move ⟨4, 150⟩).steps [⟨2, 249⟩],
      step.access.written? ≠ some k ∧ step.now < 250 := by
    decide +kernel
  have absent : limitedKey.find? n = none := by decide +kernel
  refine ⟨⟨held, gone, leaves k _ _ held gone⟩,
    ⟨congrArg (Option.map fun step => step.access) setting, unwritten, ?_⟩,
    ⟨congrArg (Option.map fun step => step.access) limiting, early, ?_⟩, absent, ?_⟩
  · exact sets k _ _ _ _ setting rfl unwritten
  · exact expires k 100 _ _ _ _ held limiting rfl early
  · intro moves made
    have parties : made.map (·.party) = [1, 0] := by decide +kernel
    have two : made.length = 2 := by rw [← List.length_map (·.party), parties]; rfl
    have named : ∀ party command, (crossing party).command? = some command → command.key? = some n →
        command = .get n ∨ command = .ttl n ∨ command = .incr n := by
      intro party command asked named
      have apart : k ≠ n := by decide
      match party with
      | 0 | 1 => exact .inr (.inr (Option.some.inj asked).symm)
      | 2 => cases asked
      | 3 | 4 =>
        rw [← Option.some.inj asked] at named
        exact absurd (Option.some.inj named) apart
    obtain ⟨replies, -, -, text, -⟩ := (World.no_update_lost 1 crossing limitedKey moves).2.2.2 n 0
      (.inl ⟨absent, rfl⟩) named (by decide +kernel)
    refine ⟨parties, replies.trans ?_, text.trans ?_⟩
    · rw [two]
      rfl
    · rw [two]
      rfl

end KvServer
