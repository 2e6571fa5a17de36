import KvServer.Proofs.Command.Apply
import KvServer.Proofs.Command.History
import Mathlib.Data.List.Forall2

/-!
# Eager expiry

The store drops an expired key when the key is next used. The reference of this module drops all of
them at once, before every command, and is otherwise the table of commands and nothing more.

* `Eager.apply` is the table, `Eager.execute` the sweep followed by the table
* `Command.simulated`: every command keeps the two in agreement on the live entries
* `history_refines_eager`: from the empty store on, no client can tell the two apart
-/

namespace KvServer

namespace Eager

/-- The table of commands, on contents without expired entries. -/
def apply (contents : Contents) (now : Instant) : Command → Outcome × Contents
  | .ping none => (.ok (.status "PONG"), contents)
  | .ping (some message) => (.ok (.bulk message), contents)
  | .get key =>
    match contents key with
    | none => (.ok .null, contents)
    | some entry => (.ok (.bulk entry.value), contents)
  | .set key value => (.ok (.status "OK"), contents.put key ⟨value, none⟩)
  | .incr key =>
    match contents key with
    | none => (.ok (.integer 1), contents.put key ⟨Decimal.ofInt 1, none⟩)
    | some entry =>
      match Decimal.int64? entry.value with
      | none => (.error .notAnInteger, contents)
      | some n =>
        if n = Int64.maxValue then (.error .overflow, contents)
        else
          (.ok (.integer (n + 1)),
            contents.put key ⟨Decimal.ofInt (n.toInt + 1), entry.deadline?⟩)
  | .expire key seconds =>
    match contents key with
    | none => (.ok (.integer 0), contents)
    | some entry =>
      let deadline := min (now.toNat + seconds.toNat) 18446744073709551615
      (.ok (.integer 1), contents.put key ⟨entry.value, some (UInt64.ofNat deadline)⟩)
  | .ttl key =>
    match contents key with
    | none => (.ok (.integer (-2)), contents)
    | some ⟨_, none⟩ => (.ok (.integer (-1)), contents)
    | some ⟨_, some deadline⟩ =>
      let left := min (deadline.toNat - now.toNat) 9223372036854775807
      (.ok (.integer (Int64.ofNat left)), contents)

/-- Drops every expired entry, then does what the table says. -/
def execute (arguments : List Bytes) (now : Instant) (contents : Contents) : Outcome × Contents :=
  match Command.ofArguments arguments with
  | .error error => (.error error, contents.live now)
  | .ok command => apply (contents.live now) now command

theorem execute_congr {left right : Contents} {now : Instant} (arguments : List Bytes)
    (same : left.live now = right.live now) :
    execute arguments now left = execute arguments now right := by
  unfold execute
  rw [same]

end Eager

/-! ## One command -/

namespace Command

/-- A command on the lazy store does to the live entries what the table does to them. -/
def Simulated (command : Command) : Prop :=
  ∀ (now : Instant) (store : Store),
    (command.apply now store).1 = (Eager.apply (store.contents.live now) now command).1 ∧
      (command.apply now store).2.contents.live now =
        (Eager.apply (store.contents.live now) now command).2.live now

theorem simulated_ping (message? : Option Bytes) : Simulated (.ping message?) := by
  intro now store
  have swept := Contents.live_live (UInt64.le_refl now) store.contents
  cases message? with
  | none => exact ⟨rfl, swept.symm⟩
  | some message => exact ⟨rfl, swept.symm⟩

theorem simulated_get (key : Bytes) : Simulated (.get key) := by
  intro now store
  have swept := Contents.live_live (UInt64.le_refl now) store.contents
  have kept : (store.prune key now).countGet.contents.live now = store.contents.live now :=
    store.live_prune key now
  rw [apply_get, Eager.apply]
  cases live : store.contents.live now key with
  | none => exact ⟨rfl, kept.trans swept.symm⟩
  | some entry => exact ⟨rfl, kept.trans swept.symm⟩

theorem simulated_set (key value : Bytes) : Simulated (.set key value) := by
  intro now store
  refine ⟨rfl, ?_⟩
  rw [apply_set, Eager.apply, Store.contents_set]
  exact Contents.live_put_congr (Contents.live_live (UInt64.le_refl now) _).symm key _

theorem simulated_incr (key : Bytes) : Simulated (.incr key) := by
  intro now store
  have found := store.find?_prune key now
  rw [apply_incr, Eager.apply]
  cases live : store.contents.live now key with
  | none =>
    rw [live] at found
    have one : Store.incremented ((store.prune key now).find? key) 1 = .ok 1 := by
      rw [found]
      rfl
    rw [Store.incrementBy_of_ok one, found]
    exact ⟨rfl, store.live_put_prune key now _⟩
  | some entry =>
    -- A live entry is refused, or else counted up with its deadline kept.
    rw [live] at found
    have swept := Contents.live_live (UInt64.le_refl now) store.contents
    cases parsed : Decimal.int64? entry.value with
    | none =>
      have refused := Store.incremented_of_not_integer parsed 1
      rw [← found] at refused
      rw [Store.incrementBy_of_error refused]
      simp only [parsed]
      exact ⟨rfl, (store.live_prune key now).trans swept.symm⟩
    | some n =>
      have summed := Store.incremented_of_integer parsed 1
      rw [← found, Word.checkedAdd?_one] at summed
      simp only [parsed]
      by_cases top : n = Int64.maxValue
      · rw [if_pos top] at summed ⊢
        rw [Store.incrementBy_of_error summed]
        exact ⟨rfl, (store.live_prune key now).trans swept.symm⟩
      · rw [if_neg top] at summed ⊢
        have noWrap : (n + 1).toInt = n.toInt + 1 :=
          Word.checkedAdd?_eq_some_iff.1 ((Word.checkedAdd?_one n).trans (if_neg top))
        rw [Store.incrementBy_of_ok summed, found, noWrap]
        exact ⟨rfl, store.live_put_prune key now _⟩

theorem simulated_expire (key : Bytes) (seconds : UInt64) : Simulated (.expire key seconds) := by
  intro now store
  have found := store.find?_prune key now
  rw [apply_expire, Eager.apply, Store.setDeadline, found]
  cases live : store.contents.live now key with
  | none =>
    have swept := Contents.live_live (UInt64.le_refl now) store.contents
    exact ⟨rfl, (store.live_prune key now).trans swept.symm⟩
  | some entry => exact ⟨rfl, store.live_put_prune key now _⟩

theorem simulated_ttl (key : Bytes) : Simulated (.ttl key) := by
  intro now store
  have found := store.find?_prune key now
  have swept := Contents.live_live (UInt64.le_refl now) store.contents
  have kept := (store.live_prune key now).trans swept.symm
  rw [apply_ttl, Eager.apply, Store.timeLeft, found]
  cases live : store.contents.live now key with
  | none => exact ⟨rfl, kept⟩
  | some entry =>
    obtain ⟨value, deadline?⟩ := entry
    cases deadline? with
    | none => exact ⟨rfl, kept⟩
    | some deadline =>
      refine ⟨?_, kept⟩
      dsimp only
      rw [timeLeftCode, Word.clampedInt_eq, Instant.remaining, Word.toNat_saturatingSub]

theorem simulated (command : Command) : Simulated command := by
  cases command with
  | ping message? => exact simulated_ping message?
  | get key => exact simulated_get key
  | set key value => exact simulated_set key value
  | incr key => exact simulated_incr key
  | expire key seconds => exact simulated_expire key seconds
  | ttl key => exact simulated_ttl key

end Command

theorem execute_simulated (arguments : List Bytes) (now : Instant) (store : Store) :
    (execute arguments now store).1 = (Eager.execute arguments now store.contents).1 ∧
      (execute arguments now store).2.contents.live now =
        (Eager.execute arguments now store.contents).2.live now := by
  unfold execute Eager.execute
  cases Command.ofArguments arguments with
  | error error =>
    exact ⟨rfl, (Contents.live_live (UInt64.le_refl now) store.contents).symm⟩
  | ok command => exact command.simulated now store

/-! ## Whole runs -/

theorem history_simulated (calls : List Call) (ordered : calls.Pairwise (·.now ≤ ·.now))
    (start : Instant) (upcoming : ∀ call ∈ calls, start ≤ call.now)
    (store : Store) (contents : Contents) (same : store.contents.live start = contents.live start) :
    List.Forall₂
      (fun lazy eager => lazy.now = eager.now ∧ lazy.outcome = eager.outcome ∧
        lazy.state.contents.live lazy.now = eager.state.live lazy.now)
      (history execute calls store) (history Eager.execute calls contents) := by
  -- The states agree at `start`, the clock of the call before; as time goes on they still agree.
  induction calls generalizing start store contents with
  | nil => exact .nil
  | cons call calls ih =>
    obtain ⟨before, ordered⟩ := List.pairwise_cons.1 ordered
    have sameNow := Contents.live_congr_of_le (upcoming call List.mem_cons_self) same
    obtain ⟨outcome, live⟩ := execute_simulated call.arguments call.now store
    rw [Eager.execute_congr call.arguments sameNow] at outcome live
    exact .cons ⟨rfl, outcome, live⟩ (ih ordered call.now before _ _ live)

/-- Dropping a key when it is next used is as good as dropping it at its deadline: on every run whose
clock never goes back, the store answers as the eager reference does, and after every call the two
hold the same live entries. -/
theorem history_refines_eager (calls : List Call) (ordered : calls.Pairwise (·.now ≤ ·.now)) :
    List.Forall₂
      (fun lazy eager => lazy.now = eager.now ∧ lazy.outcome = eager.outcome ∧
        lazy.state.contents.live lazy.now = eager.state.live lazy.now)
      (history execute calls .empty) (history Eager.execute calls .empty) := by
  have same : Store.empty.contents.live 0 = Contents.empty.live 0 := by
    rw [Store.contents_empty]
  exact history_simulated calls ordered 0 (fun _ _ => UInt64.zero_le) .empty .empty same

/-- A key that expires and is counted up again, expires at once, and is set again while stale. -/
def reusedKey : List Call :=
  [⟨10, [Utf8.encode "SET", Utf8.encode "k", Utf8.encode "7"]⟩,
    ⟨10, [Utf8.encode "EXPIRE", Utf8.encode "k", Utf8.encode "5"]⟩,
    ⟨15, [Utf8.encode "INCR", Utf8.encode "k"]⟩,
    ⟨15, [Utf8.encode "EXPIRE", Utf8.encode "k", Utf8.encode "0"]⟩,
    ⟨16, [Utf8.encode "SET", Utf8.encode "k", Utf8.encode "x"]⟩,
    ⟨16, [Utf8.encode "TTL", Utf8.encode "k"]⟩,
    ⟨17, [Utf8.encode "INCR", Utf8.encode "k"]⟩]

theorem history_refines_eager_reusedKey :
    reusedKey.Pairwise (·.now ≤ ·.now) ∧
      (history execute reusedKey .empty).map (·.outcome) =
        [.ok .ok, .ok (.integer 1), .ok (.integer 1), .ok (.integer 1), .ok .ok,
          .ok (.integer (-1)), .error .notAnInteger] ∧
      List.Forall₂
        (fun lazy eager => lazy.now = eager.now ∧ lazy.outcome = eager.outcome ∧
          lazy.state.contents.live lazy.now = eager.state.live lazy.now)
        (history execute reusedKey .empty) (history Eager.execute reusedKey .empty) :=
  ⟨by decide, rfl, history_refines_eager reusedKey (by decide)⟩

end KvServer
