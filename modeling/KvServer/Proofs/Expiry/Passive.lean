import KvServer.Proofs.Expiry.Sweep

/-!
# Checks in any order

Whoever checks keys one after the other at one moment ends with the same store, whatever the order and
however often a key comes up. Of the checks of an expired key the first one drops it and says so.

* `checkEach`, the checks of the keys of a list, with their answers
* `run_dropExpiredFrom_eq`: a sweep is these checks, and counts the answers
* `Store.Sheds.unique`: what remains of a store is settled by what is gone
* `checks_in_any_order`: the checks of a list, of its permutations, and of the same list again
-/

namespace KvServer

/-- Checks keys in turn, and tells which checks dropped their key. -/
def checkEach : List Bytes → Script (List Bool)
  | [] => pure []
  | key :: keys => do
    let gone ← dropIfExpired key
    let others ← checkEach keys
    pure (gone :: others)

variable {keys : List Bytes} {key : Bytes} {now : Instant} {store : Store}

/-! ## One check after the other -/

theorem run_checkEach_cons (key : Bytes) (keys : List Bytes) (now : Instant) (store : Store) :
    (checkEach (key :: keys)).run now store =
      ((store.removeIfExpired key now).1 ::
          ((checkEach keys).run now (store.removeIfExpired key now).2).1,
        ((checkEach keys).run now (store.removeIfExpired key now).2).2) := by
  rw [checkEach, Script.run_bind, run_dropIfExpired, Script.run_bind, Script.run_pure]

theorem length_run_checkEach (keys : List Bytes) (now : Instant) (store : Store) :
    ((checkEach keys).run now store).1.length = keys.length := by
  induction keys generalizing store with
  | nil => rfl
  | cons key keys ih => rw [run_checkEach_cons, List.length_cons, ih, List.length_cons]

/-- A sweep makes the checks of its list, and counts those that dropped a key. -/
theorem run_dropExpiredFrom_eq (dropped : Nat) (keys : List Bytes) (now : Instant) (store : Store) :
    (dropExpiredFrom dropped keys).run now store =
      (dropped + ((checkEach keys).run now store).1.count true,
        ((checkEach keys).run now store).2) := by
  -- Either way each key is checked on the store that the keys in front of it have left.
  induction keys generalizing dropped store with
  | nil => rfl
  | cons key keys ih =>
    rw [dropExpiredFrom, Script.run_bind, run_dropIfExpired, ih, run_checkEach_cons]
    cases (store.removeIfExpired key now).1 with
    | false => simp
    | true =>
      rw [if_pos rfl, List.count_cons_self, Nat.add_assoc, Nat.add_comm 1]

theorem run_dropExpired_eq (keys : List Bytes) (now : Instant) (store : Store) :
    (dropExpired keys).run now store =
      (((checkEach keys).run now store).1.count true, ((checkEach keys).run now store).2) := by
  rw [dropExpired, run_dropExpiredFrom_eq, Nat.zero_add]

/-- Where nothing in the list has expired, no check does anything. -/
theorem run_checkEach_of_unexpired (unexpired : ∀ key ∈ keys, key ∉ store.expiredKeys now) :
    (checkEach keys).run now store = (keys.map fun _ => false, store) := by
  induction keys with
  | nil => rfl
  | cons key keys ih =>
    obtain ⟨first, others⟩ := List.forall_mem_cons.1 unexpired
    rw [run_checkEach_cons, Store.removeIfExpired_of_not_mem first, ih others, List.map_cons]

/-! ## What remains -/

theorem Store.Sheds.unique {gone : Finset Bytes} {after other : Store}
    (sheds : store.Sheds gone after) (sheds' : store.Sheds gone other) : after = other :=
  Store.ext_find? (fun key => (sheds.find?_eq key).trans (sheds'.find?_eq key).symm)
    (sheds.counters_eq.trans sheds'.counters_eq.symm)

theorem sheds_checkEach (keys : List Bytes) (now : Instant) (store : Store) :
    ((checkEach keys).run now store).1.count true = (store.expiredKeys now ∩ keys.toFinset).card ∧
      store.Sheds (store.expiredKeys now ∩ keys.toFinset) ((checkEach keys).run now store).2 := by
  have swept := run_dropExpired keys now store
  rwa [run_dropExpired_eq] at swept

theorem checkEach_perm {others : List Bytes} (perm : others.Perm keys) :
    ((checkEach others).run now store).2 = ((checkEach keys).run now store).2 := by
  -- Both remainders lack the same keys, since only the set of the listed keys counts.
  have sheds := (sheds_checkEach others now store).2
  rw [List.toFinset_eq_of_perm _ _ perm] at sheds
  exact sheds.unique (sheds_checkEach keys now store).2

/-- No key of the list has expired in what remains. -/
theorem not_mem_expiredKeys_checkEach (listed : key ∈ keys) :
    key ∉ ((checkEach keys).run now store).2.expiredKeys now := by
  rw [(sheds_checkEach keys now store).2.expiredKeys_eq, Finset.mem_sdiff, Finset.mem_inter]
  exact fun left => left.2 ⟨left.1, List.mem_toFinset.2 listed⟩

/-- A check does what a removal does. The checks of a list, at one moment, take out the keys in it whose
deadline has passed, and nothing else; each of these keys is counted once, and as many checks say that they
dropped a key. The order of the list does not matter to the store, and the same checks made again drop
nothing. A sweep is these checks. -/
theorem checks_in_any_order (store : Store) (now : Instant) :
    (∀ key, (dropIfExpired key).run now store = store.removeIfExpired key now) ∧
    ∀ keys : List Bytes,
      let answers := ((checkEach keys).run now store).1
      let after := ((checkEach keys).run now store).2
      ∃ gone : Finset Bytes,
        (∀ key, key ∈ gone ↔ key ∈ keys ∧
          ∃ value deadline, store.find? key = some ⟨value, some deadline⟩ ∧ deadline ≤ now) ∧
        (∀ key, after.find? key = if key ∈ gone then none else store.find? key) ∧
        after.counters =
          { store.counters with expired := store.counters.expired + .ofNat gone.card } ∧
        answers.length = keys.length ∧ answers.count true = gone.card ∧
        (∀ others : List Bytes, others.Perm keys →
          ((checkEach others).run now store).2 = after ∧
            ((checkEach others).run now store).1.count true = gone.card) ∧
        (checkEach keys).run now after = (keys.map fun _ => false, after) ∧
        (dropExpired keys).run now store = (gone.card, after) := by
  refine ⟨fun key => run_dropIfExpired key now store, fun keys => ?_⟩
  intro answers after
  obtain ⟨counted, sheds⟩ := sheds_checkEach keys now store
  refine ⟨store.expiredKeys now ∩ keys.toFinset, fun key => ?_, sheds.find?_eq, ?_,
    length_run_checkEach keys now store, counted, fun others perm => ⟨checkEach_perm perm, ?_⟩, ?_, ?_⟩
  · rw [Finset.mem_inter, List.mem_toFinset, Store.mem_expiredKeys_iff, and_comm]
  · simp [after, sheds.counters_eq, Counters.add_eq]
  · rw [(sheds_checkEach others now store).1, List.toFinset_eq_of_perm _ _ perm]
  · exact run_checkEach_of_unexpired fun key => not_mem_expiredKeys_checkEach
  · rw [run_dropExpired_eq, counted]

/-- By 100 two of these keys have expired, one has not, and one never will. -/
def halfStale : Store :=
  (Operation.run Operation.perform
    [.set (Utf8.encode "a") [1], .setDeadline (Utf8.encode "a") 100, .set (Utf8.encode "b") [2],
      .setDeadline (Utf8.encode "b") 101, .set (Utf8.encode "c") [3], .setDeadline (Utf8.encode "c") 7,
      .set (Utf8.encode "d") [4]] .empty).2

theorem checks_in_any_order_repeatedKeys :
    let keys := ["c", "x", "a", "b", "c", "d", "a"].map Utf8.encode
    let others := ["a", "a", "b", "c", "c", "d", "x"].map Utf8.encode
    others.Perm keys ∧
      ((checkEach keys).run 100 halfStale).1 = [true, false, true, false, false, false, false] ∧
      ((checkEach others).run 100 halfStale).2 = ((checkEach keys).run 100 halfStale).2 ∧
      ((checkEach others).run 100 halfStale).1.count true = 2 := by
  intro keys others
  have perm : others.Perm keys := by decide +kernel
  have answers : ((checkEach keys).run 100 halfStale).1 =
      [true, false, true, false, false, false, false] := by decide +kernel
  obtain ⟨gone, -, -, -, -, counted, permuted, -⟩ := (checks_in_any_order halfStale 100).2 keys
  obtain ⟨same, counted'⟩ := permuted others perm
  rw [answers] at counted
  exact ⟨perm, answers, same, counted'.trans counted.symm⟩

end KvServer
