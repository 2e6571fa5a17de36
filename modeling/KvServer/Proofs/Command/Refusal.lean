import KvServer.Proofs.Command.Apply
import KvServer.Proofs.Command.History

/-!
# Refusals

A request that is refused leaves the store as it is, its counters included. Arguments are refused before
anything is done; and the one command that can be refused later, `INCR`, is refused only on a live entry,
where the check that goes before it has found nothing to drop.
-/

namespace KvServer

theorem Store.incrementBy_fst (store : Store) (key : Bytes) (delta : Int64) :
    (store.incrementBy key delta).1 = incremented (store.find? key) delta := by
  cases summed : incremented (store.find? key) delta with
  | error error => rw [incrementBy_of_error summed]
  | ok sum => rw [incrementBy_of_ok summed]

namespace Command

variable {command : Command} {now : Instant} {store : Store} {error : CommandError}

theorem apply_incr_eq_error_iff {key : Bytes} :
    ((incr key).apply now store).1 = .error error ↔
      ∃ entry reason, store.contents.live now key = some entry ∧
        Store.incremented (some entry) 1 = .error reason ∧ error = .ofIncrement reason := by
  have answer : ((store.prune key now).incrementBy key 1).1 =
      Store.incremented (store.contents.live now key) 1 := by
    rw [Store.incrementBy_fst, store.find?_prune]
  simp only [apply_incr, answer]
  cases live : store.contents.live now key with
  | none => simp [Store.incremented_none]
  | some entry => cases summed : Store.incremented (some entry) 1 <;> simp [summed, eq_comm]

/-- Only a live entry that cannot be counted up is refused. -/
theorem apply_eq_error_iff :
    (command.apply now store).1 = .error error ↔
      ∃ key entry reason, command = .incr key ∧ store.contents.live now key = some entry ∧
        Store.incremented (some entry) 1 = .error reason ∧ error = .ofIncrement reason := by
  constructor
  · intro refused
    cases command with
    | ping message? => cases message? <;> cases refused
    | get key =>
      rw [apply_get] at refused
      cases refused
    | set key value => cases refused
    | expire key seconds =>
      rw [apply_expire] at refused
      cases refused
    | ttl key =>
      rw [apply_ttl] at refused
      cases refused
    | incr key =>
      obtain ⟨entry, reason, cause⟩ := apply_incr_eq_error_iff.1 refused
      exact ⟨key, entry, reason, rfl, cause⟩
  · rintro ⟨key, entry, reason, rfl, cause⟩
    exact apply_incr_eq_error_iff.2 ⟨entry, reason, cause⟩

theorem apply_of_error (refused : (command.apply now store).1 = .error error) :
    (command.apply now store).2 = store := by
  obtain ⟨key, entry, reason, rfl, live, summed, -⟩ := apply_eq_error_iff.1 refused
  have found : store.find? key = some entry := (Option.filter_eq_some_iff.1 live).1
  rw [apply_incr, Store.prune_of_live live, Store.incrementBy_of_error (by rw [found, summed])]

end Command

/-- A request that is refused changes nothing, and neither does an increment that is refused, whatever
the step. -/
theorem refusal_changes_nothing :
    (∀ (arguments : List Bytes) (now : Instant) (store : Store) (error : CommandError),
      (execute arguments now store).1 = .error error → (execute arguments now store).2 = store) ∧
    ∀ (store : Store) (key : Bytes) (delta : Int64) (error : IncrementError),
      (store.incrementBy key delta).1 = .error error → (store.incrementBy key delta).2 = store := by
  constructor
  · intro arguments now store error refused
    unfold execute at refused ⊢
    cases read : Command.ofArguments arguments with
    | error error' => rfl
    | ok command =>
      rw [read] at refused
      exact Command.apply_of_error refused
  · intro store key delta error refused
    rw [Store.incrementBy_fst] at refused
    rw [Store.incrementBy_of_error refused]

/-- A store with a text that will expire, and the largest integer. -/
def uncountable : Store :=
  stateBehind .empty (history execute
    [⟨10, [Utf8.encode "SET", Utf8.encode "k", Utf8.encode "x"]⟩,
      ⟨10, [Utf8.encode "EXPIRE", Utf8.encode "k", Utf8.encode "5"]⟩,
      ⟨10, [Utf8.encode "SET", Utf8.encode "m", Utf8.encode "9223372036854775807"]⟩] .empty)

theorem refusal_changes_nothing_uncountable :
    let text := [Utf8.encode "INCR", Utf8.encode "k"]
    let largest := [Utf8.encode "incr", Utf8.encode "m"]
    let backwards := [Utf8.encode "EXPIRE", Utf8.encode "k", Utf8.encode "-1"]
    ((execute text 14 uncountable).1 = .error .notAnInteger ∧
        (execute text 14 uncountable).2 = uncountable) ∧
      ((execute largest 14 uncountable).1 = .error .overflow ∧
        (execute largest 14 uncountable).2 = uncountable) ∧
      ((execute backwards 14 uncountable).1 = .error .invalidExpireTime ∧
        (execute backwards 14 uncountable).2 = uncountable) ∧
      (uncountable.incrementBy (Utf8.encode "m") 7).1 = .error .overflow ∧
      (uncountable.incrementBy (Utf8.encode "m") 7).2 = uncountable :=
  ⟨⟨rfl, refusal_changes_nothing.1 _ 14 uncountable _ rfl⟩,
    ⟨rfl, refusal_changes_nothing.1 _ 14 uncountable _ rfl⟩,
    ⟨rfl, refusal_changes_nothing.1 _ 14 uncountable _ rfl⟩,
    rfl, refusal_changes_nothing.2 uncountable _ 7 _ rfl⟩

end KvServer
