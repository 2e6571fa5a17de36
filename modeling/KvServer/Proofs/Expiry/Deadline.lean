import KvServer.Proofs.Command.Separation
import KvServer.Proofs.Expiry.Invisible

/-!
# One deadline

`EXPIRE` adds, `TTL` subtracts and `GET` compares; all three go by one deadline, which neither wraps nor is
held at a border, and which nothing moves but another `EXPIRE` or a `SET`.

* `Event.storeBehind`, the store behind some events
* `Event.Spares`: an event reads a key or counts it up before its deadline, or leaves it alone
* `Store.HoldsUntil`, a key with its deadline as seen at a moment, and `Store.Lasts`, a key without one
* `HoldsUntil.storeBehind` and `Lasts.storeBehind`: what events that spare a key leave under it
* `deadline_exact`: what clients are told about a deadline
-/

namespace KvServer

/-! ## Events -/

namespace Event

/-- What an event makes of a store. -/
def perform (event : Event) (store : Store) : Store :=
  match event with
  | .request call => (execute call.arguments call.now store).2
  | .check now key => ((dropIfExpired key).run now store).2
  | .cycle now policy sampler stop => (store.expire policy sampler stop now).2

/-- The store behind events that happen one after the other. -/
def storeBehind (events : List Event) (store : Store) : Store :=
  events.foldl (fun store event => event.perform store) store

/-- The command of an event, if it is a request for one. -/
def command? (event : Event) : Option Command :=
  event.call?.bind fun call => (Command.ofArguments call.arguments).toOption

/-- The key to which an event gives a deadline, if it finds it. -/
def limited? (event : Event) : Option Bytes :=
  match event.command? with
  | some (.expire key _) => some key
  | _ => none

/-- Says that an event names a key only to read it or to count it up, and before a deadline. -/
def Spares (event : Event) (key : Bytes) (deadline : Instant) : Prop :=
  ∀ command ∈ event.command?, command.key? = some key →
    event.now < deadline ∧ command ∈ [.get key, .ttl key, .incr key]

instance (event : Event) (key : Bytes) (deadline : Instant) : Decidable (event.Spares key deadline) :=
  inferInstanceAs (Decidable (∀ command ∈ event.command?, command.key? = some key →
    event.now < deadline ∧ command ∈ [.get key, .ttl key, .incr key]))

/-- An event leaves alone what is live under a key, unless it is a request for a command that names the
key. -/
theorem perform_cases (event : Event) (store : Store) (key : Bytes) :
    ((∀ command ∈ event.command?, command.key? ≠ some key) ∧
        (event.perform store).contents.live event.now key = store.contents.live event.now key) ∨
      ∃ command, event.command? = some command ∧ command.key? = some key ∧
        event.perform store = (command.apply event.now store).2 := by
  cases event with
  | check now other => exact .inl ⟨nofun, congrFun (invisible_dropIfExpired other now store) key⟩
  | cycle now policy sampler stop =>
    exact .inl ⟨nofun, congrFun (live_expire store policy sampler stop now) key⟩
  | request call =>
    cases read : Command.ofArguments call.arguments with
    | error => simp [command?, call?, perform, execute, read, Except.toOption]
    | ok command =>
      have asked : (request call).command? = some command := by
        simp [command?, call?, read, Except.toOption]
      by_cases named : command.key? = some key
      · exact .inr ⟨command, asked, named, by simp [perform, execute, read, now]⟩
      · have elsewhere : call.key? ≠ some key := by rwa [Call.key?_of_ok read]
        refine .inl ⟨fun other member => ?_, ?_⟩
        · obtain rfl : command = other := Option.some.inj (asked.symm.trans member)
          exact named
        · -- A request that names another key does not even touch the entry.
          exact congrArg (Option.filter _) (Call.find?_execute_of_ne elsewhere store)

end Event

/-- What `INCR` makes of a value. -/
def countedUp (value : Bytes) : Bytes :=
  match Decimal.int64? value with
  | none => value
  | some n => if n = Int64.maxValue then value else Decimal.ofInt (n.toInt + 1)

/-- The value of a key behind some events, if it is only counted up. -/
def valueBehind (key value : Bytes) (events : List Event) : Bytes :=
  events.foldl
    (fun value event => if event.command? = some (.incr key) then countedUp value else value) value

namespace Store

/-- Says that a key has a value until a deadline, and at a moment behind the deadline none. -/
def HoldsUntil (store : Store) (key value : Bytes) (deadline now : Instant) : Prop :=
  store.contents.live now key = if now < deadline then some ⟨value, some deadline⟩ else none

/-- Says that a key has a value and no deadline. -/
def Lasts (store : Store) (key : Bytes) : Prop :=
  ∃ value, store.find? key = some (.lasting value)

variable {store after : Store} {key value : Bytes} {entry : Entry} {deadline now later : Instant}

theorem find?_of_live (live : store.contents.live now key = some entry) :
    store.find? key = some entry :=
  (Option.filter_eq_some_iff.1 live).1

theorem live_of_find? (held : store.find? key = some entry) (unexpired : entry.isExpired now = false) :
    store.contents.live now key = some entry :=
  Option.filter_eq_some_iff.2 ⟨held, by simp [unexpired]⟩

theorem isExpired_limited : Entry.isExpired ⟨value, some deadline⟩ now = decide (deadline ≤ now) :=
  rfl

end Store

/-! ## A key that is spared -/

/-- Reading a key or counting it up leaves the deadline of a live entry, and only counting up its value. -/
theorem Command.live_apply_of_spared {store : Store} {key : Bytes} {entry : Entry} {now : Instant}
    {command : Command} (live : store.contents.live now key = some entry)
    (spared : command ∈ [.get key, .ttl key, .incr key]) :
    (command.apply now store).2.contents.live now key =
      some ⟨if command = .incr key then countedUp entry.value else entry.value, entry.deadline?⟩ := by
  have swept := Contents.live_live (UInt64.le_refl now) store.contents
  have after := congrFun (command.simulated now store).2 key
  have unexpired : entry.isExpired now = false := by
    simpa using (Option.filter_eq_some_iff.1 live).2
  simp only [List.mem_cons, List.not_mem_nil, or_false] at spared
  rcases spared with rfl | rfl | rfl
  · simpa [Eager.apply, live, swept] using after
  · obtain ⟨value, deadline?⟩ := entry
    cases deadline? <;> simpa [Eager.apply, live, swept] using after
  · rw [if_pos rfl, countedUp]
    simp only [Eager.apply, live] at after
    cases read : Decimal.int64? entry.value with
    | none => simpa [read, swept, live] using after
    | some n =>
      simp only [read] at after
      by_cases top : n = Int64.maxValue
      · simpa [top, swept, live] using after
      · -- The entry is replaced by one that expires when it would have.
        simp only [top, if_false] at after ⊢
        have kept : Entry.isExpired ⟨Decimal.ofInt (n.toInt + 1), entry.deadline?⟩ now = false :=
          unexpired
        rw [after]
        simp [Contents.live, Contents.put, kept]

namespace Store.HoldsUntil

variable {store after : Store} {key value : Bytes} {deadline now later : Instant}

theorem live (holds : store.HoldsUntil key value deadline now) (before : now < deadline) :
    store.contents.live now key = some ⟨value, some deadline⟩ :=
  holds.trans (if_pos before)

theorem of_find? (held : store.find? key = some ⟨value, some deadline⟩) (now : Instant) :
    store.HoldsUntil key value deadline now := by
  unfold HoldsUntil
  change (store.find? key).filter _ = _
  rw [held]
  split
  next before => simp [isExpired_limited, UInt64.not_le.2 before]
  next passed => simp [isExpired_limited, UInt64.not_lt.1 passed]

theorem mono (holds : store.HoldsUntil key value deadline now) (order : now ≤ later) :
    store.HoldsUntil key value deadline later := by
  unfold HoldsUntil
  rw [← Contents.live_live order]
  change (store.contents.live now key).filter _ = _
  rw [holds]
  by_cases before : later < deadline
  · simp [isExpired_limited, before, UInt64.lt_of_le_of_lt order before]
  · rw [if_neg before]
    split <;> simp [isExpired_limited, UInt64.not_lt.1 before]

theorem congr (holds : store.HoldsUntil key value deadline now)
    (same : after.contents.live now key = store.contents.live now key) :
    after.HoldsUntil key value deadline now :=
  same.trans holds

theorem apply {command : Command} (holds : store.HoldsUntil key value deadline now)
    (before : now < deadline) (spared : command ∈ [.get key, .ttl key, .incr key]) :
    (command.apply now store).2.HoldsUntil key
      (if command = .incr key then countedUp value else value) deadline now :=
  (Command.live_apply_of_spared (holds.live before) spared).trans (if_pos before).symm

theorem perform {event : Event} (holds : store.HoldsUntil key value deadline event.now)
    (spares : event.Spares key deadline) :
    (event.perform store).HoldsUntil key
      (if event.command? = some (.incr key) then countedUp value else value) deadline event.now := by
  obtain ⟨elsewhere, same⟩ | ⟨command, asked, named, applied⟩ := event.perform_cases store key
  · have uncounted : event.command? ≠ some (.incr key) := fun asked => elsewhere _ asked rfl
    rw [if_neg uncounted]
    exact holds.congr same
  · obtain ⟨before, spared⟩ := spares command asked named
    simp only [asked, applied, Option.some_inj]
    exact holds.apply before spared

theorem storeBehind {events : List Event} (holds : store.HoldsUntil key value deadline now)
    (ordered : events.Pairwise (·.now ≤ ·.now)) (upcoming : ∀ event ∈ events, now ≤ event.now)
    (past : ∀ event ∈ events, event.now ≤ later) (order : now ≤ later)
    (spares : ∀ event ∈ events, event.Spares key deadline) :
    (Event.storeBehind events store).HoldsUntil key (valueBehind key value events) deadline later := by
  -- Each event is met at its own reading, by which the key is still there or gone.
  induction events generalizing store value now with
  | nil => exact holds.mono order
  | cons event events ih =>
    obtain ⟨before, ordered⟩ := List.pairwise_cons.1 ordered
    obtain ⟨upcoming, -⟩ := List.forall_mem_cons.1 upcoming
    obtain ⟨past, past'⟩ := List.forall_mem_cons.1 past
    obtain ⟨spares, spares'⟩ := List.forall_mem_cons.1 spares
    exact ih ((holds.mono upcoming).perform spares) ordered before past' past spares'

end Store.HoldsUntil

/-! ## A key without a deadline -/

namespace Store.Lasts

variable {store : Store} {key : Bytes}

theorem of_live {value : Bytes} {now : Instant}
    (live : store.contents.live now key = some (.lasting value)) : store.Lasts key :=
  ⟨value, find?_of_live live⟩

theorem apply {command : Command} (lasts : store.Lasts key) (named : command.key? = some key)
    (unlimited : ∀ seconds, command ≠ .expire key seconds) (now : Instant) :
    (command.apply now store).2.Lasts key := by
  obtain ⟨value, held⟩ := lasts
  have live : store.contents.live now key = some (.lasting value) := live_of_find? held rfl
  cases command with
  | ping => cases named
  | get | ttl | incr =>
    cases named
    exact of_live (Command.live_apply_of_spared live (by simp))
  | set =>
    cases named
    exact ⟨_, (store.find?_set ..).trans (if_pos rfl)⟩
  | expire _ seconds =>
    cases named
    exact absurd rfl (unlimited seconds)

theorem perform {event : Event} (lasts : store.Lasts key) (unlimited : event.limited? ≠ some key) :
    (event.perform store).Lasts key := by
  obtain ⟨-, same⟩ | ⟨command, asked, named, applied⟩ := event.perform_cases store key
  · obtain ⟨value, held⟩ := lasts
    exact of_live (same.trans (live_of_find? held rfl))
  · rw [applied]
    refine lasts.apply named (fun seconds limits => unlimited ?_) event.now
    rw [Event.limited?, asked, limits]

theorem storeBehind {events : List Event} (lasts : store.Lasts key)
    (unlimited : ∀ event ∈ events, event.limited? ≠ some key) :
    (Event.storeBehind events store).Lasts key := by
  induction events generalizing store with
  | nil => exact lasts
  | cons event events ih =>
    obtain ⟨unlimited, unlimited'⟩ := List.forall_mem_cons.1 unlimited
    exact ih (lasts.perform unlimited) unlimited'

end Store.Lasts

/-! ## Replies -/

open Store (HoldsUntil)

namespace Command

variable {store : Store} {key value : Bytes} {deadline now : Instant}

theorem toInt_held (n : Nat) :
    (Int64.ofNat (min n 9223372036854775807)).toInt = (min n 9223372036854775807 : Nat) :=
  Int64.toInt_ofNat_of_lt (by omega)

theorem apply_ttl_of_gone (gone : store.contents.live now key = none) :
    ((ttl key).apply now store).1 = .ok (.integer (-2)) := by
  rw [((ttl key).simulated now store).1, Eager.apply, gone]

theorem apply_ttl_of_lasting (live : store.contents.live now key = some ⟨value, none⟩) :
    ((ttl key).apply now store).1 = .ok (.integer (-1)) := by
  rw [((ttl key).simulated now store).1, Eager.apply, live]

theorem apply_ttl_of_limited (live : store.contents.live now key = some ⟨value, some deadline⟩)
    (before : now < deadline) :
    ∃ left : Int64, ((ttl key).apply now store).1 = .ok (.integer left) ∧
      left.toInt = (min (deadline.toNat - now.toNat) 9223372036854775807 : Nat) ∧ 1 ≤ left.toInt := by
  refine ⟨_, ?_, toInt_held (deadline.toNat - now.toNat), ?_⟩
  · rw [((ttl key).simulated now store).1, Eager.apply, live]
  · rw [UInt64.lt_iff_toNat_lt] at before
    rw [toInt_held]
    omega

/-- A reply to `TTL` is one of the two codes or a number of seconds, and held at the largest integer. -/
theorem apply_ttl_range (store : Store) (key : Bytes) (now : Instant) :
    ∃ left : Int64, ((ttl key).apply now store).1 = .ok (.integer left) ∧
      (left = -2 ∨ left = -1 ∨ 1 ≤ left.toInt ∧ left.toInt ≤ 9223372036854775807) ∧
      ∀ value deadline, store.find? key = some ⟨value, some deadline⟩ → now < deadline →
        left.toInt = (min (deadline.toNat - now.toNat) 9223372036854775807 : Nat) := by
  cases live : store.contents.live now key with
  | none =>
    refine ⟨-2, apply_ttl_of_gone live, .inl rfl, fun value deadline held before => ?_⟩
    have stays : store.contents.live now key = some ⟨value, some deadline⟩ :=
      (HoldsUntil.of_find? held now).live before
    rw [live] at stays
    cases stays
  | some entry =>
    obtain ⟨value, _ | deadline⟩ := entry
    · refine ⟨-1, apply_ttl_of_lasting live, .inr (.inl rfl), fun value deadline held _ => ?_⟩
      rw [Store.find?_of_live live] at held
      cases held
    · have before : now < deadline := by
        have unexpired := (Option.filter_eq_some_iff.1 live).2
        simpa [Store.isExpired_limited] using unexpired
      obtain ⟨left, reply, exact, positive⟩ := apply_ttl_of_limited live before
      refine ⟨left, reply, .inr (.inr ⟨positive, ?_⟩), fun value' deadline' held _ => ?_⟩
      · omega
      · rw [Store.find?_of_live live] at held
        cases held
        exact exact

theorem apply_expire_of_live {entry : Entry} (live : store.contents.live now key = some entry)
    (seconds : UInt64) (noWrap : now.toNat + seconds.toNat < 18446744073709551616) :
    ∃ deadline : Instant, deadline.toNat = now.toNat + seconds.toNat ∧
      ((expire key seconds).apply now store).1 = .ok (.integer 1) ∧
      ((expire key seconds).apply now store).2.find? key = some ⟨entry.value, some deadline⟩ := by
  have held := Store.find?_of_live live
  refine ⟨now.after seconds, ?_, ?_, ?_⟩
  · rw [Instant.after, Word.toNat_saturatingAdd, Nat.min_eq_left]
    simp only [UInt64.size]
    omega
  · simp [apply_expire, Store.prune_of_live live, Store.setDeadline, held]
  · simp [apply_expire, Store.prune_of_live live, Store.find?_setDeadline, held]

end Command

namespace Store.HoldsUntil

variable {store : Store} {key value : Bytes} {deadline now : Instant}

theorem replies (holds : store.HoldsUntil key value deadline now) (before : now < deadline)
    (near : deadline.toNat - now.toNat ≤ 9223372036854775807) :
    store.find? key = some ⟨value, some deadline⟩ ∧
      (∃ left : Int64, ((Command.ttl key).apply now store).1 = .ok (.integer left) ∧
        left.toInt = (deadline.toNat - now.toNat : Int) ∧ 1 ≤ left.toInt) ∧
      ((Command.get key).apply now store).1 = .ok (.bulk value) ∧
      ((Command.incr key).apply now store).2.find? key = some ⟨countedUp value, some deadline⟩ := by
  have live := holds.live before
  have spared : Command.incr key ∈ [.get key, .ttl key, .incr key] := by simp
  have counted := holds.apply before spared
  rw [if_pos rfl] at counted
  obtain ⟨left, told, exact, positive⟩ := Command.apply_ttl_of_limited live before
  refine ⟨find?_of_live live, ⟨left, told, ?_, positive⟩, ?_, find?_of_live (counted.live before)⟩
  · rw [UInt64.lt_iff_toNat_lt] at before
    omega
  · rw [Command.apply_get, live]

theorem replies_of_passed (holds : store.HoldsUntil key value deadline now) (passed : deadline ≤ now) :
    ((Command.ttl key).apply now store).1 = .ok (.integer (-2)) ∧
      ((Command.get key).apply now store).1 = .ok .null := by
  have gone : store.contents.live now key = none := holds.trans (if_neg (UInt64.not_lt.2 passed))
  refine ⟨Command.apply_ttl_of_gone gone, ?_⟩
  rw [Command.apply_get, gone]

end Store.HoldsUntil

/-- A live key that is given a number of seconds has its deadline exactly then. Until the deadline, whatever
is done to other keys and whoever cleans up, reading the key and counting it up tells the seconds that are
left and the value, and keeps the deadline; from the deadline on, the key is gone. A key that is set has no
deadline until it is given one, and the seconds that are told are held at the largest integer. -/
theorem deadline_exact :
    (∀ (store : Store) (key : Bytes) (entry : Entry) (now : Instant) (seconds : UInt64),
      store.contents.live now key = some entry → now.toNat ≤ 9223372036854775807 →
      seconds.toNat ≤ 9223372036854775807 →
        ∃ deadline : Instant, deadline.toNat = now.toNat + seconds.toNat ∧
          ((Command.expire key seconds).apply now store).1 = .ok (.integer 1) ∧
          let limited := ((Command.expire key seconds).apply now store).2
          limited.find? key = some ⟨entry.value, some deadline⟩ ∧
          ∀ (events : List Event) (later : Instant), events.Pairwise (·.now ≤ ·.now) →
            (∀ event ∈ events, now ≤ event.now ∧ event.now ≤ later) → now ≤ later →
            (∀ event ∈ events, event.Spares key deadline) →
              let behind := Event.storeBehind events limited
              let value := valueBehind key entry.value events
              (later < deadline →
                behind.find? key = some ⟨value, some deadline⟩ ∧
                  (∃ left : Int64, ((Command.ttl key).apply later behind).1 = .ok (.integer left) ∧
                    left.toInt = (deadline.toNat - later.toNat : Int) ∧ 1 ≤ left.toInt) ∧
                  ((Command.get key).apply later behind).1 = .ok (.bulk value) ∧
                  ((Command.incr key).apply later behind).2.find? key =
                    some ⟨countedUp value, some deadline⟩) ∧
                (deadline ≤ later →
                  ((Command.ttl key).apply later behind).1 = .ok (.integer (-2)) ∧
                    ((Command.get key).apply later behind).1 = .ok .null)) ∧
      (∀ (store : Store) (key value : Bytes) (now : Instant) (events : List Event),
        (∀ event ∈ events, event.limited? ≠ some key) →
          ∀ later, ((Command.ttl key).apply later
            (Event.storeBehind events ((Command.set key value).apply now store).2)).1 =
              .ok (.integer (-1))) ∧
      ∀ (store : Store) (key : Bytes) (now : Instant),
        ∃ left : Int64, ((Command.ttl key).apply now store).1 = .ok (.integer left) ∧
          (left = -2 ∨ left = -1 ∨ 1 ≤ left.toInt ∧ left.toInt ≤ 9223372036854775807) ∧
          ∀ value deadline, store.find? key = some ⟨value, some deadline⟩ → now < deadline →
            left.toInt = (min (deadline.toNat - now.toNat) 9223372036854775807 : Nat) := by
  refine ⟨fun store key entry now seconds live early few => ?_,
    fun store key value now events unlimited later => ?_, Command.apply_ttl_range⟩
  · obtain ⟨deadline, sum, replied, held⟩ :=
      Command.apply_expire_of_live live seconds (by omega)
    refine ⟨deadline, sum, replied, held, fun events later ordered between order spares => ?_⟩
    have holds := (HoldsUntil.of_find? held now).storeBehind ordered
      (fun event member => (between event member).1) (fun event member => (between event member).2)
      order spares
    refine ⟨fun before => holds.replies before ?_, holds.replies_of_passed⟩
    rw [UInt64.le_iff_toNat_le] at order
    omega
  · have lasts : ((Command.set key value).apply now store).2.Lasts key :=
      ⟨value, (store.find?_set key value key).trans (if_pos rfl)⟩
    obtain ⟨value', held⟩ := lasts.storeBehind unlimited
    exact Command.apply_ttl_of_lasting (Store.live_of_find? held rfl)

/-- Counting up a key, a cycle, a request that limits another key, and a lookup, up to the second before a
deadline. -/
def untilTheLastSecond : List Event :=
  [.request ⟨9223372036854775807, [Utf8.encode "INCR", Utf8.encode "k"]⟩,
    .cycle 9223372036854775808 .standard .inOrder .never,
    .request ⟨18446744073709551613, [Utf8.encode "EXPIRE", Utf8.encode "m", Utf8.encode "0"]⟩,
    .request ⟨18446744073709551613, [Utf8.encode "TTL", Utf8.encode "k"]⟩]

/-- The largest number of seconds at the latest moment, and the replies in the last second and behind it. -/
theorem deadline_exact_untilTheLastSecond :
    let key := Utf8.encode "k"
    let store := ((Command.set key (Utf8.encode "7")).apply 5 .empty).2
    let limited := ((Command.expire key 9223372036854775807).apply 9223372036854775807 store).2
    let behind := Event.storeBehind untilTheLastSecond limited
    store.contents.live 9223372036854775807 key = some ⟨Utf8.encode "7", none⟩ ∧
      untilTheLastSecond.Pairwise (·.now ≤ ·.now) ∧
      (∀ event ∈ untilTheLastSecond, event.Spares key 18446744073709551614) ∧
      limited.find? key = some ⟨Utf8.encode "7", some 18446744073709551614⟩ ∧
      behind.find? key = some ⟨Utf8.encode "8", some 18446744073709551614⟩ ∧
      (∃ left : Int64, ((Command.ttl key).apply 18446744073709551613 behind).1 = .ok (.integer left) ∧
        left.toInt = 1) ∧
      ((Command.get key).apply 18446744073709551613 behind).1 = .ok (.bulk (Utf8.encode "8")) ∧
      ((Command.ttl key).apply 18446744073709551614 behind).1 = .ok (.integer (-2)) ∧
      (∀ event ∈ untilTheLastSecond, event.limited? ≠ some key) ∧
      ((Command.ttl key).apply 3 (Event.storeBehind untilTheLastSecond store)).1 =
        .ok (.integer (-1)) := by
  intro key store limited behind
  have live : store.contents.live 9223372036854775807 key = some ⟨Utf8.encode "7", none⟩ := rfl
  have ordered : untilTheLastSecond.Pairwise (·.now ≤ ·.now) := by decide
  have between : ∀ event ∈ untilTheLastSecond, 9223372036854775807 ≤ event.now ∧
      event.now ≤ 18446744073709551613 := by decide
  have between' : ∀ event ∈ untilTheLastSecond, 9223372036854775807 ≤ event.now ∧
      event.now ≤ 18446744073709551614 := by decide
  have spares : ∀ event ∈ untilTheLastSecond, event.Spares key 18446744073709551614 := by decide
  have unlimited : ∀ event ∈ untilTheLastSecond, event.limited? ≠ some key := by decide
  have counted : valueBehind key (Utf8.encode "7") untilTheLastSecond = Utf8.encode "8" := by
    decide +kernel
  obtain ⟨deadline, sum, -, held, told⟩ :=
    deadline_exact.1 store key _ 9223372036854775807 9223372036854775807 live (by decide) (by decide)
  obtain rfl : deadline = 18446744073709551614 := UInt64.toNat_inj.1 sum
  obtain ⟨before, -⟩ := told untilTheLastSecond 18446744073709551613 ordered between (by decide) spares
  obtain ⟨-, past⟩ := told untilTheLastSecond 18446744073709551614 ordered between' (by decide) spares
  obtain ⟨stays, ⟨left, reply, exact, -⟩, got, -⟩ := before (by decide)
  refine ⟨live, ordered, spares, held, counted ▸ stays, ⟨left, reply, exact.trans (by decide)⟩,
    counted ▸ got, (past (by decide)).1, unlimited, ?_⟩
  exact deadline_exact.2.1 .empty key (Utf8.encode "7") 5 untilTheLastSecond unlimited 3

end KvServer
