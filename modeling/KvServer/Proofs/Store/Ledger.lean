import KvServer.Proofs.Store.Access
import KvServer.Proofs.Store.Operation

/-!
# The ledger of a store

What the operations on a store do is written down deed by deed. The keys of the store are those that were
created and have not gone since, and its counters count the deeds.

* `Deed`, what an operation does that the statistics tell of, and `Operation.deeds`
* `Store.Balances`: a store and a ledger agree
* `Store.Balances.perform`: they agree again behind every operation
-/

namespace KvServer

/-- What is written down of an operation. -/
inductive Deed where
  /-- A value was read. -/
  | get
  /-- A value was stored. -/
  | set
  /-- It was stored under a new key. -/
  | created
  /-- An increment put a new key there. -/
  | counted
  /-- A key was to be deleted. -/
  | delete
  /-- It was there and is gone. -/
  | deleted
  /-- A key had expired and is gone. -/
  | expired
  deriving DecidableEq, Repr

/-- What an operation does, from its answer. -/
def Operation.deeds (store : Store) : Operation → List Deed
  | .get _ | .getLive _ _ => [.get]
  | .set key value => if (store.set key value).1 then [.set, .created] else [.set]
  | .delete key => if (store.delete key).1 then [.delete, .deleted] else [.delete]
  | .removeIfExpired key now => if (store.removeIfExpired key now).1 then [.expired] else []
  | .incrementBy key delta =>
    match (store.incrementBy key delta).1 with
    | .ok _ => if store.contains key then [] else [.counted]
    | .error _ => []
  | .find? _ | .contains _ | .deadline? _ | .setDeadline _ _ => []

namespace Operation

variable (operation : Operation) (store : Store)

theorem count_get_deeds :
    (operation.deeds store).count .get =
      match operation with
      | .get _ | .getLive _ _ => 1
      | _ => 0 := by
  cases operation <;> simp only [deeds] <;> repeat' split
  all_goals rfl

theorem count_set_deeds :
    (operation.deeds store).count .set =
      match operation with
      | .set _ _ => 1
      | _ => 0 := by
  cases operation <;> simp only [deeds] <;> repeat' split
  all_goals rfl

theorem count_delete_deeds :
    (operation.deeds store).count .delete =
      match operation with
      | .delete _ => 1
      | _ => 0 := by
  cases operation <;> simp only [deeds] <;> repeat' split
  all_goals rfl

end Operation

/-! ## Sizes -/

namespace Store

variable (store : Store) (key : Bytes)

theorem contains_eq : store.contains key = store.entries.contains key := by
  rw [contains, find?, Std.ExtTreeMap.contains_eq_isSome_getElem?]

theorem size_put (entry : Entry) :
    (store.put key entry).size = if store.contains key then store.size else store.size + 1 := by
  rw [contains_eq, size, put, Std.ExtTreeMap.size_insert]
  rfl

theorem size_erase :
    (store.erase key).size + (if store.contains key then 1 else 0) = store.size := by
  rw [contains_eq, size, erase, Std.ExtTreeMap.size_erase]
  split
  next held =>
    have nonempty : store.entries.size ≠ 0 := by
      intro empty
      rw [Std.ExtTreeMap.eq_empty_iff_size_eq_zero.2 empty] at held
      simp at held
    exact Nat.sub_add_cancel (Nat.one_le_iff_ne_zero.2 nonempty)
  next => rfl

end Store

/-! ## Balance -/

/-- The counters of some deeds. -/
def Counters.ofDeeds (deeds : List Deed) : Counters :=
  ⟨.ofNat (deeds.count .get), .ofNat (deeds.count .set), .ofNat (deeds.count .delete),
    .ofNat (deeds.count .expired)⟩

theorem Counters.ofDeeds_append (earlier later : List Deed) :
    ofDeeds (earlier ++ later) = ofDeeds earlier + ofDeeds later := by
  simp only [ofDeeds, List.count_append, UInt64.ofNat_add, add_eq]

/-- Says that a store has as many keys as the ledger tells, and the counters of the ledger. -/
structure Store.Balances (store : Store) (ledger : List Deed) : Prop where
  keys : store.size + ledger.count .deleted + ledger.count .expired =
    ledger.count .created + ledger.count .counted
  counters : store.counters = .ofDeeds ledger

namespace Store

theorem balances_empty : empty.Balances [] :=
  ⟨by simp [size, empty], rfl⟩

variable (store : Store)

theorem size_perform (operation : Operation) :
    (operation.perform store).2.size + (operation.deeds store).count .deleted +
        (operation.deeds store).count .expired =
      store.size + (operation.deeds store).count .created +
        (operation.deeds store).count .counted := by
  cases operation with
  | get | getLive | find? | contains | deadline? => rfl
  | set key value =>
    have size : (store.set key value).2.size = _ := store.size_put key (.lasting value)
    have answer : (store.set key value).1 = !store.contains key := rfl
    simp only [Operation.perform, Operation.deeds, Prod.map_snd, id, size, answer]
    cases store.contains key <;> simp
  | delete key =>
    have size : (store.delete key).2.size + _ = store.size := store.size_erase key
    have answer : (store.delete key).1 = store.contains key := rfl
    simp only [Operation.perform, Operation.deeds, Prod.map_snd, id, ← size, answer]
    cases store.contains key <;> simp
  | setDeadline key deadline =>
    simp only [Operation.perform, Operation.deeds, Prod.map_snd, id, setDeadline]
    split
    next => rfl
    next entry held =>
      -- The deadline replaces an entry that is there, so no key is new.
      have held : store.contains key = true := by simp [contains, held]
      simp [size_put, held]
  | removeIfExpired key now =>
    simp only [Operation.perform, Operation.deeds, Prod.map_snd, id, removeIfExpired]
    split
    next expired =>
      have held : store.contains key = true := by
        cases held : store.find? key <;> simp_all [contains]
      have size := store.size_erase key
      rw [if_pos held] at size
      exact size
    next => rfl
  | incrementBy key delta =>
    cases sum : incremented (store.find? key) delta with
    | error error => simp [Operation.perform, Operation.deeds, incrementBy_of_error sum]
    | ok n =>
      simp only [Operation.perform, Operation.deeds, Prod.map_snd, id, incrementBy_of_ok sum, size_put]
      cases store.contains key <;> simp

theorem counters_perform (operation : Operation) :
    (operation.perform store).2.counters = store.counters + .ofDeeds (operation.deeds store) := by
  cases operation with
  | get | getLive =>
    simp [Operation.perform, Operation.deeds, get, getLive, countGet, Counters.ofDeeds, Counters.add_eq]
  | find? | contains | deadline? => exact (add_zero _).symm
  | set key value =>
    have answer : (store.set key value).1 = !store.contains key := rfl
    simp only [Operation.perform, Operation.deeds, Prod.map_snd, id, answer]
    cases store.contains key <;> simp [set, Counters.ofDeeds, Counters.add_eq]
  | delete key =>
    have answer : (store.delete key).1 = store.contains key := rfl
    simp only [Operation.perform, Operation.deeds, Prod.map_snd, id, answer]
    cases store.contains key <;> simp [delete, Counters.ofDeeds, Counters.add_eq]
  | setDeadline key deadline =>
    simp only [Operation.perform, Operation.deeds, Prod.map_snd, id, setDeadline]
    split <;> exact (add_zero _).symm
  | removeIfExpired key now =>
    simp only [Operation.perform, Operation.deeds, Prod.map_snd, id, removeIfExpired]
    split
    next => simp [Counters.ofDeeds, Counters.add_eq]
    next => exact (add_zero _).symm
  | incrementBy key delta =>
    cases sum : incremented (store.find? key) delta with
    | error error =>
      simp only [Operation.perform, Operation.deeds, Prod.map_snd, id, incrementBy_of_error sum]
      exact (add_zero _).symm
    | ok n =>
      simp only [Operation.perform, Operation.deeds, Prod.map_snd, id, incrementBy_of_ok sum]
      split <;> exact (add_zero _).symm

variable {store}

theorem Balances.perform {ledger : List Deed} (balances : store.Balances ledger)
    (operation : Operation) :
    (operation.perform store).2.Balances (ledger ++ operation.deeds store) := by
  have keys := balances.keys
  have size := store.size_perform operation
  refine ⟨?_, ?_⟩
  · simp only [List.count_append]
    omega
  · rw [counters_perform, balances.counters, Counters.ofDeeds_append]

end Store

end KvServer
