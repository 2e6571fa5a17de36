import KvServer.Proofs.Command.History
import KvServer.Proofs.Command.Scope

/-!
# How long an entry lives

An entry stays until its deadline, and whoever finds it past its deadline finds nothing, whatever the
clock does: it may stand still, jump and go back, also within one command or one cycle.

* `executeAt`, a request in which each access sees a reading of its own
* `Turn`, a request, a check or a cycle at such readings, and `storeBehind`, the store behind some turns
* `find?_storeBehind`: nobody drops an entry early
* `Command.pastDeadline?` and `runAt_script_of_passed`: nobody sees an entry late
-/

namespace KvServer

open Script (Only)

/-! ## Turns -/

/-- Runs the command that a request asks for, each of its accesses at a reading of its own. -/
def executeAt (readings : Nat → Instant) (arguments : List Bytes) (store : Store) : Outcome × Store :=
  match Command.ofArguments arguments with
  | .error error => (.error error, store)
  | .ok command => command.script.runAt readings store

theorem executeAt_const (now : Instant) (arguments : List Bytes) (store : Store) :
    executeAt (fun _ => now) arguments store = execute arguments now store := by
  unfold executeAt execute
  cases Command.ofArguments arguments with
  | error => rfl
  | ok command => exact Script.runAt_const now command.script store

inductive Task where
  | request (arguments : List Bytes)
  | check (key : Bytes)
  | cycle (policy : Policy) (sampler : Sampler) (stop : StopSignal)

/-- A task, and the reading of the clock at each of its accesses. -/
structure Turn where
  readings : Nat → Instant
  task : Task

namespace Turn

def perform (turn : Turn) (store : Store) : Store :=
  match turn.task with
  | .request arguments => (executeAt turn.readings arguments store).2
  | .check key => ((dropIfExpired key).runAt turn.readings store).2
  | .cycle policy sampler stop =>
    ((policy.cycle sampler stop (store.size + 1)).runAt turn.readings store).2

/-- The key that a turn sets, counts up or gives a deadline. -/
def written? (turn : Turn) : Option Bytes :=
  match turn.task with
  | .request arguments => (Command.ofArguments arguments).toOption.bind Command.written?
  | .check _ | .cycle _ _ _ => none

/-- On a clock that stands still, a turn is what its task does at one moment. -/
theorem perform_const (now : Instant) (task : Task) (store : Store) :
    Turn.perform ⟨fun _ => now, task⟩ store =
      match task with
      | .request arguments => (execute arguments now store).2
      | .check key => ((dropIfExpired key).run now store).2
      | .cycle policy sampler stop => (store.expire policy sampler stop now).2 := by
  cases task with
  | request arguments => exact congrArg Prod.snd (executeAt_const now arguments store)
  | check key => exact congrArg Prod.snd (Script.runAt_const now (dropIfExpired key) store)
  | cycle policy sampler stop =>
    exact congrArg Prod.snd
      (Script.runAt_const now (policy.cycle sampler stop (store.size + 1)) store)

end Turn

def storeBehind (turns : List Turn) (store : Store) : Store :=
  turns.foldl (fun store turn => turn.perform store) store

/-! ## Until the deadline -/

variable {store : Store} {key : Bytes} {entry : Entry}

theorem isExpired_eq_false_of_lt {now : Instant}
    (before : ∀ deadline, entry.deadline? = some deadline → now < deadline) :
    entry.isExpired now = false := by
  rw [Bool.eq_false_iff]
  intro expired
  obtain ⟨deadline, limited, passed⟩ := (entry.isExpired_eq_true_iff now).1 expired
  exact UInt64.not_le.2 (before deadline limited) passed

theorem find?_runAt_of_unexpired {α : Type} {script : Script α}
    (unwritten : Only (fun access => access.written? ≠ some key) script) {readings : Nat → Instant}
    (unexpired : ∀ i, entry.isExpired (readings i) = false) (held : store.find? key = some entry) :
    (script.runAt readings store).2.find? key = some entry :=
  unwritten.invariant (fun store => store.find? key = some entry)
    (fun _ unwritten i _ held => Access.find?_perform_of_unexpired held (unexpired i) unwritten) held

theorem find?_perform_of_unexpired {turn : Turn} (unwritten : turn.written? ≠ some key)
    (unexpired : ∀ i, entry.isExpired (turn.readings i) = false) (held : store.find? key = some entry) :
    (turn.perform store).find? key = some entry := by
  obtain ⟨readings, task⟩ := turn
  cases task with
  | request arguments =>
    unfold Turn.perform executeAt
    dsimp only
    cases read : Command.ofArguments arguments with
    | error => exact held
    | ok command =>
      have only : Only (fun access => access.written? ≠ some key) command.script := by
        refine command.only_script.imp fun access made written => unwritten ?_
        simpa [Turn.written?, read, Except.toOption] using
          Command.written?_of_mem_accesses made written
      exact find?_runAt_of_unexpired only unexpired held
  | check other =>
    -- A check may name the key, but takes out what has expired and replaces nothing.
    have only : Only (fun access => access.written? ≠ some key) (dropIfExpired other) :=
      only_dropIfExpired nofun nofun
    exact find?_runAt_of_unexpired only unexpired held
  | cycle policy sampler stop =>
    have only : Only (fun access => access.written? ≠ some key)
        (policy.cycle sampler stop (store.size + 1)) :=
      only_cycleFrom nofun (fun _ => nofun) (fun _ => nofun) ..
    exact find?_runAt_of_unexpired only unexpired held

theorem find?_storeBehind {turns : List Turn} (unwritten : ∀ turn ∈ turns, turn.written? ≠ some key)
    (unexpired : ∀ turn ∈ turns, ∀ i, entry.isExpired (turn.readings i) = false)
    (held : store.find? key = some entry) : (storeBehind turns store).find? key = some entry := by
  induction turns generalizing store with
  | nil => exact held
  | cons turn turns ih =>
    obtain ⟨unwritten, unwritten'⟩ := List.forall_mem_cons.1 unwritten
    obtain ⟨unexpired, unexpired'⟩ := List.forall_mem_cons.1 unexpired
    exact ih unwritten' unexpired' (find?_perform_of_unexpired unwritten unexpired held)

/-! ## From the deadline on -/

theorem find?_runAt_dropIfExpired {readings : Nat → Instant} {deadline : Instant}
    (held : store.find? key = some entry) (limited : entry.deadline? = some deadline)
    (passed : ∀ i, deadline ≤ readings i) :
    ((dropIfExpired key).runAt readings store).2.find? key = none := by
  have expired : entry.isExpired (readings 1) = true :=
    (entry.isExpired_eq_true_iff (readings 1)).2 ⟨deadline, limited, passed 1⟩
  -- The lookup has the first reading; it is the second that decides.
  simp [runAt_dropIfExpired, Store.find?_removeIfExpired, held, expired]

section Passed

variable {readings : Nat → Instant} {deadline : Instant}

/-- Behind the check of a key whose deadline has passed, a script goes on without the key. -/
theorem runAt_dropIfExpired_bind_of_passed {α : Type} {follow : Bool → Script α}
    (Holds : α × Store → Prop) (held : store.find? key = some entry)
    (limited : entry.deadline? = some deadline) (passed : ∀ i, deadline ≤ readings i)
    (rest : ∀ gone later without, Store.find? without key = none →
      Holds ((follow gone).runAt later without)) :
    Holds ((dropIfExpired key >>= follow).runAt readings store) := by
  obtain ⟨seen, goesOn⟩ := Script.runAt_bind readings (dropIfExpired key) follow store
  rw [goesOn]
  exact rest _ _ _ (find?_runAt_dropIfExpired held limited passed)

theorem ofInt_one : Decimal.ofInt 1 = Utf8.encode "1" := by
  simp [Decimal.ofInt, Decimal.digits]
  rfl

/-- What a command replies, and what it leaves under its key, once the key has expired. -/
def Command.pastDeadline? : Command → Option (Reply × Option Entry)
  | .ping _ => none
  | .get _ => some (.null, none)
  | .ttl _ => some (.integer (-2), none)
  | .expire _ _ => some (.integer 0, none)
  | .incr _ => some (.integer 1, some (.lasting (Utf8.encode "1")))
  | .set _ value => some (.ok, some (.lasting value))

theorem runAt_script_of_passed {command : Command} (named : command.key? = some key)
    (held : store.find? key = some entry) (limited : entry.deadline? = some deadline)
    (passed : ∀ i, deadline ≤ readings i) {reply : Reply} {left : Option Entry}
    (past : command.pastDeadline? = some (reply, left)) :
    (command.script.runAt readings store).1 = .ok reply ∧
      (command.script.runAt readings store).2.find? key = left := by
  -- All but `SET` begin with the check of the key, and do their last access without it.
  let Holds (ended : Outcome × Store) : Prop := ended.1 = .ok reply ∧ ended.2.find? key = left
  cases command with
  | ping message? => cases named
  | get =>
    cases named
    cases past
    refine runAt_dropIfExpired_bind_of_passed Holds held limited passed
      fun gone later without absent => ?_
    rw [Script.runAt_perform_bind]
    simp [Holds, Access.perform, Store.getLive, absent]
  | ttl =>
    cases named
    cases past
    refine runAt_dropIfExpired_bind_of_passed Holds held limited passed
      fun gone later without absent => ?_
    rw [Script.runAt_perform_bind]
    simp [Holds, Access.perform, Store.timeLeft, Command.timeLeftCode, absent]
  | expire _ seconds =>
    cases named
    cases past
    refine runAt_dropIfExpired_bind_of_passed Holds held limited passed
      fun gone later without absent => ?_
    rw [Script.runAt_perform_bind]
    simp [Holds, Access.perform, Store.setDeadline, absent]
  | incr =>
    cases named
    cases past
    refine runAt_dropIfExpired_bind_of_passed Holds held limited passed
      fun gone later without absent => ?_
    have one : Store.incremented (without.find? key) 1 = .ok 1 := by
      rw [absent, Store.incremented_none]
    rw [Script.runAt_perform_bind]
    simp [Holds, Access.perform, Store.incrementBy_of_ok one, Store.find?_put, absent, ofInt_one,
      Entry.lasting]
  | set _ value =>
    cases named
    cases past
    exact ⟨rfl, (store.find?_set key value key).trans (if_pos rfl)⟩

end Passed

/-- An entry that nothing replaces stays while every reading of the clock is below its deadline, and a
request at readings that have reached the deadline is answered as if the key were not there. -/
theorem lifetime_exact :
    (∀ (turns : List Turn) (store : Store) (key : Bytes) (entry : Entry),
      store.find? key = some entry → (∀ turn ∈ turns, turn.written? ≠ some key) →
      (∀ deadline, entry.deadline? = some deadline →
        ∀ turn ∈ turns, ∀ i, turn.readings i < deadline) →
      (storeBehind turns store).find? key = some entry) ∧
    ∀ (readings : Nat → Instant) (arguments : List Bytes) (store : Store) (key : Bytes)
      (entry : Entry) (deadline : Instant) (command : Command) (reply : Reply) (left : Option Entry),
      store.find? key = some entry → entry.deadline? = some deadline →
      (∀ i, deadline ≤ readings i) →
      Command.ofArguments arguments = .ok command → command.key? = some key →
      command.pastDeadline? = some (reply, left) →
        (executeAt readings arguments store).1 = .ok reply ∧
          (executeAt readings arguments store).2.find? key = left := by
  constructor
  · intro turns store key entry held unwritten before
    refine find?_storeBehind unwritten (fun turn member i => ?_) held
    exact isExpired_eq_false_of_lt fun deadline limited => before deadline limited turn member i
  · intro readings arguments store key entry deadline command reply left held limited passed read
      named past
    unfold executeAt
    rw [read]
    exact runAt_script_of_passed named held limited passed past

/-- A key that lives until 100. -/
def limitedKey : Store :=
  stateBehind .empty (history execute
    [⟨90, [Utf8.encode "SET", Utf8.encode "k", Utf8.encode "7"]⟩,
      ⟨90, [Utf8.encode "EXPIRE", Utf8.encode "k", Utf8.encode "10"]⟩] .empty)

/-- A clock that goes back and forth. -/
def swinging (first second : Instant) (i : Nat) : Instant :=
  if i % 2 = 0 then first else second

theorem swinging_of (Holds : Instant → Prop) {first second : Instant} (atFirst : Holds first)
    (atSecond : Holds second) (i : Nat) : Holds (swinging first second i) := by
  unfold swinging
  split
  · exact atFirst
  · exact atSecond

/-- A command on another key, a cycle, a check and a lookup below 100. -/
def turnsBefore : List Turn :=
  [⟨swinging 99 3, .request [Utf8.encode "INCR", Utf8.encode "m"]⟩,
    ⟨swinging 0 98, .cycle .standard .inOrder fun _ => true⟩,
    ⟨swinging 99 99, .check (Utf8.encode "k")⟩,
    ⟨swinging 5 4, .request [Utf8.encode "TTL", Utf8.encode "k"]⟩]

theorem lifetime_exact_limitedKey :
    let key := Utf8.encode "k"
    let increment := [Utf8.encode "INCR", key]
    limitedKey.find? key = some ⟨Utf8.encode "7", some 100⟩ ∧
      (∀ turn ∈ turnsBefore, turn.written? ≠ some key) ∧
      (∀ turn ∈ turnsBefore, ∀ i, turn.readings i < 100) ∧
      (storeBehind turnsBefore limitedKey).find? key = some ⟨Utf8.encode "7", some 100⟩ ∧
      (∀ i, 100 ≤ swinging 250 100 i) ∧
      (executeAt (swinging 250 100) increment limitedKey).1 = .ok (.integer 1) ∧
      (executeAt (swinging 250 100) increment limitedKey).2.find? key =
        some (.lasting (Utf8.encode "1")) := by
  intro key increment
  have held : limitedKey.find? key = some ⟨Utf8.encode "7", some 100⟩ := rfl
  have unwritten : ∀ turn ∈ turnsBefore, turn.written? ≠ some key := by decide
  have before : ∀ turn ∈ turnsBefore, ∀ i, turn.readings i < 100 := by
    have early {first second : Instant} (atFirst : first < 100) (atSecond : second < 100) :=
      swinging_of (· < 100) atFirst atSecond
    simp only [turnsBefore, List.forall_mem_cons, List.not_mem_nil, false_implies, implies_true,
      and_true]
    exact ⟨early (by decide) (by decide), early (by decide) (by decide),
      early (by decide) (by decide), early (by decide) (by decide)⟩
  have passed : ∀ i, 100 ≤ swinging 250 100 i := swinging_of (100 ≤ ·) (by decide) (by decide)
  refine ⟨held, unwritten, before, ?_, passed, ?_⟩
  · refine lifetime_exact.1 turnsBefore limitedKey key _ held unwritten fun deadline limited => ?_
    cases limited
    exact before
  · exact lifetime_exact.2 _ increment limitedKey key _ 100 (.incr key) _ _ held rfl passed rfl rfl rfl

end KvServer
