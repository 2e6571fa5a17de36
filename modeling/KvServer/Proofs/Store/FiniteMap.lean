import KvServer.Proofs.Store.Contents
import KvServer.Proofs.Store.Operation
import Mathlib.Data.Set.Card

/-!
# The store is a finite map

Behind all operations stands a function from keys to entries. The reference of this module is that
function and a table of what each operation answers and changes; the store answers as the table does, and
what it reports about its keys as a whole is what the function says.

* `FiniteMap.perform` is the table
* `Operation.simulated`: every operation follows the table
* `Store.Represents`: the listings and the size of a store are those of a function
* `run_represents`: so it is behind every run
-/

namespace KvServer

open Operation (Answer)

def Contents.erase (contents : Contents) (key : Bytes) : Contents :=
  fun other => if key = other then none else contents other

namespace FiniteMap

/-- The table of operations. -/
def perform : Operation → Contents → Answer × Contents
  | .get key, contents => (.value ((contents key).map Entry.value), contents)
  | .getLive key now, contents =>
    match contents key with
    | none => (.value none, contents)
    | some ⟨value, none⟩ => (.value (some value), contents)
    | some ⟨value, some deadline⟩ =>
      (.value (if now < deadline then some value else none), contents)
  | .find? key, contents => (.entry (contents key), contents)
  | .contains key, contents => (.flag (contents key).isSome, contents)
  | .deadline? key, contents =>
    match contents key with
    | none => (.deadline none, contents)
    | some entry => (.deadline entry.deadline?, contents)
  | .set key value, contents => (.flag (contents key).isNone, contents.put key ⟨value, none⟩)
  | .delete key, contents => (.flag (contents key).isSome, contents.erase key)
  | .setDeadline key deadline, contents =>
    match contents key with
    | none => (.flag false, contents)
    | some entry => (.flag true, contents.put key ⟨entry.value, some deadline⟩)
  | .removeIfExpired key now, contents =>
    match contents key with
    | none | some ⟨_, none⟩ => (.flag false, contents)
    | some ⟨_, some deadline⟩ =>
      if deadline ≤ now then (.flag true, contents.erase key) else (.flag false, contents)
  | .incrementBy key delta, contents =>
    match contents key with
    | none => (.sum (.ok delta), contents.put key ⟨Decimal.ofInt delta.toInt, none⟩)
    | some entry =>
      match Decimal.int64? entry.value with
      | none => (.sum (.error .notAnInteger), contents)
      | some n =>
        let sum := n.toInt + delta.toInt
        if -2 ^ 63 ≤ sum ∧ sum ≤ 2 ^ 63 - 1 then
          (.sum (.ok (Int64.ofInt sum)),
            contents.put key ⟨Decimal.ofInt sum, entry.deadline?⟩)
        else (.sum (.error .overflow), contents)

/-- The table changes nothing but the entry under the key. -/
theorem perform_of_ne {operation : Operation} {other : Bytes} (apart : operation.key ≠ other)
    (contents : Contents) : (perform operation contents).2 other = contents other := by
  cases operation with
  | get | find? | contains => rfl
  | set key value => exact if_neg apart
  | delete key => exact if_neg apart
  | getLive key now | deadline? key =>
    dsimp only [perform]
    split <;> rfl
  | setDeadline key deadline =>
    dsimp only [perform]
    split
    · rfl
    · exact if_neg apart
  | removeIfExpired key now =>
    dsimp only [perform]
    split
    · rfl
    · rfl
    · split
      · exact if_neg apart
      · rfl
  | incrementBy key delta =>
    dsimp only [perform]
    split
    · exact if_neg apart
    · split
      · rfl
      · split
        · exact if_neg apart
        · rfl

end FiniteMap

/-! ## One operation -/

namespace Store

theorem contents_apply (store : Store) (key : Bytes) : store.contents key = store.find? key :=
  rfl

theorem incremented_of_sum {entry : Entry} {n : Int64} (text : Decimal.int64? entry.value = some n)
    (delta : Int64) :
    incremented (some entry) delta =
      if -2 ^ 63 ≤ n.toInt + delta.toInt ∧ n.toInt + delta.toInt ≤ 2 ^ 63 - 1 then
        .ok (Int64.ofInt (n.toInt + delta.toInt))
      else .error .overflow := by
  rw [incremented_of_integer text, Word.checkedAdd?, Int64.toInt_minValue, Int64.toInt_maxValue]
  by_cases inside : -2 ^ 63 ≤ n.toInt + delta.toInt ∧ n.toInt + delta.toInt ≤ 2 ^ 63 - 1
  · rw [if_pos inside, if_pos inside]
  · rw [if_neg inside, if_neg inside]

theorem contents_erase (store : Store) (key : Bytes) :
    (store.erase key).contents = store.contents.erase key :=
  funext fun other => store.find?_erase key other

end Store

namespace Operation

/-- An operation on the store follows the table. -/
def Simulated (operation : Operation) : Prop :=
  ∀ store : Store,
    (operation.perform store).1 = (FiniteMap.perform operation store.contents).1 ∧
      (operation.perform store).2.contents = (FiniteMap.perform operation store.contents).2

variable (key : Bytes)

theorem simulated_getLive (now : Instant) : Simulated (.getLive key now) := by
  intro store
  cases held : store.find? key with
  | none => simp [perform, FiniteMap.perform, Store.contents_apply, Store.getLive, held]
  | some entry =>
    obtain ⟨value, _ | deadline⟩ := entry
    · simp [perform, FiniteMap.perform, Store.contents_apply, Store.getLive, held, Entry.isExpired]
    · by_cases passed : deadline ≤ now
      · have notBefore : ¬now < deadline := UInt64.not_lt.2 passed
        simp [perform, FiniteMap.perform, Store.contents_apply, Store.getLive, held, Entry.isExpired,
          passed, notBefore]
      · have before : now < deadline := UInt64.not_le.1 passed
        simp [perform, FiniteMap.perform, Store.contents_apply, Store.getLive, held, Entry.isExpired,
          passed, before]

theorem simulated_deadline? : Simulated (.deadline? key) := by
  intro store
  cases held : store.find? key <;>
    simp [perform, FiniteMap.perform, Store.contents_apply, Store.deadline?, held]

theorem simulated_set (value : Bytes) : Simulated (.set key value) := by
  intro store
  refine ⟨?_, store.contents_set key value⟩
  simp [perform, FiniteMap.perform, Store.contents_apply, Store.set, Store.contains]

theorem simulated_setDeadline (deadline : Instant) : Simulated (.setDeadline key deadline) := by
  intro store
  cases held : store.find? key <;>
    simp [perform, FiniteMap.perform, Store.contents_apply, Store.setDeadline, held, Store.contents_put]

theorem simulated_removeIfExpired (now : Instant) : Simulated (.removeIfExpired key now) := by
  intro store
  cases held : store.find? key with
  | none => simp [perform, FiniteMap.perform, Store.contents_apply, Store.removeIfExpired, held]
  | some entry =>
    obtain ⟨value, _ | deadline⟩ := entry
    · simp [perform, FiniteMap.perform, Store.contents_apply, Store.removeIfExpired, held,
        Entry.isExpired]
    · by_cases passed : deadline ≤ now
      · -- The only removal; the counter moves with it and the contents do not see the counter.
        have answer : ((removeIfExpired key now).perform store).1 = .flag true := by
          simp [perform, Store.removeIfExpired, held, Entry.isExpired, passed]
        have erased : ((removeIfExpired key now).perform store).2.contents =
            store.contents.erase key := by
          simp only [perform, Store.removeIfExpired, held, Option.any_some, Entry.isExpired, passed]
          exact store.contents_erase key
        simp [FiniteMap.perform, Store.contents_apply, held, answer, erased, passed]
      · simp [perform, FiniteMap.perform, Store.contents_apply, Store.removeIfExpired, held,
          Entry.isExpired, passed]

theorem simulated_incrementBy (delta : Int64) : Simulated (.incrementBy key delta) := by
  intro store
  cases held : store.find? key with
  | none =>
    have summed : Store.incremented (store.find? key) delta = .ok delta := by
      rw [held, Store.incremented_none]
    simp [perform, FiniteMap.perform, Store.contents_apply, Store.incrementBy_of_ok summed, held,
      Store.contents_put]
  | some entry =>
    cases text : Decimal.int64? entry.value with
    | none =>
      have summed : Store.incremented (store.find? key) delta = .error .notAnInteger := by
        rw [held, Store.incremented_of_not_integer text]
      simp [perform, FiniteMap.perform, Store.contents_apply, Store.incrementBy_of_error summed, held,
        text]
    | some n =>
      have summed := Store.incremented_of_sum text delta
      rw [← held] at summed
      by_cases inside : -2 ^ 63 ≤ n.toInt + delta.toInt ∧ n.toInt + delta.toInt ≤ 2 ^ 63 - 1
      · -- The text is that of the sum as a word, which within the range is the sum itself.
        have sum : (Int64.ofInt (n.toInt + delta.toInt)).toInt = n.toInt + delta.toInt :=
          Word.toInt_ofInt_of_mem inside.1 inside.2
        rw [if_pos inside] at summed
        simp only [perform, FiniteMap.perform, Store.contents_apply, Store.incrementBy_of_ok summed,
          held, text, if_pos inside, sum]
        exact ⟨rfl, store.contents_put key _⟩
      · rw [if_neg inside] at summed
        simp only [perform, FiniteMap.perform, Store.contents_apply,
          Store.incrementBy_of_error summed, held, text, if_neg inside]
        exact ⟨rfl, rfl⟩

theorem simulated (operation : Operation) : operation.Simulated := by
  cases operation with
  | get | find? | contains => exact fun store => ⟨rfl, rfl⟩
  | delete key => exact fun store => ⟨rfl, store.contents_erase key⟩
  | getLive key now => exact simulated_getLive key now
  | deadline? key => exact simulated_deadline? key
  | set key value => exact simulated_set key value
  | setDeadline key deadline => exact simulated_setDeadline key deadline
  | removeIfExpired key now => exact simulated_removeIfExpired key now
  | incrementBy key delta => exact simulated_incrementBy key delta

theorem run_simulated (operations : List Operation) (store : Store) :
    (run perform operations store).1 = (run FiniteMap.perform operations store.contents).1 ∧
      (run perform operations store).2.contents =
        (run FiniteMap.perform operations store.contents).2 := by
  induction operations generalizing store with
  | nil => exact ⟨rfl, rfl⟩
  | cons operation later ih =>
    obtain ⟨answer, after⟩ := operation.simulated store
    -- The table goes on from the contents that the operation leaves.
    obtain ⟨answers, behind⟩ := ih (operation.perform store).2
    rw [after] at answers behind
    exact ⟨congrArg₂ List.cons answer answers, behind⟩

end Operation

/-! ## The keys as a whole -/

namespace Store

/-- What a store reports about its keys is what a function from keys to entries says. -/
structure Represents (store : Store) (contents : Contents) : Prop where
  contents_eq : store.contents = contents
  keys_nodup : store.keys.Nodup
  mem_keys : ∀ key, key ∈ store.keys ↔ contents key ≠ none
  expiringKeys_nodup : store.expiringKeys.Nodup
  mem_expiringKeys : ∀ key,
    key ∈ store.expiringKeys ↔ ∃ value deadline, contents key = some ⟨value, some deadline⟩
  size_eq : {key | contents key ≠ none}.encard = store.size
  isEmpty_iff : store.isEmpty = true ↔ ∀ key, contents key = none

variable (store : Store)

theorem nodup_keys : store.keys.Nodup :=
  Std.ExtTreeMap.nodup_keys

theorem expiringKeys_sublist : store.expiringKeys.Sublist store.keys := by
  rw [expiringKeys, keys, ← Std.ExtTreeMap.map_fst_toList_eq_keys]
  exact List.filter_sublist.map Prod.fst

theorem mem_expiringKeys_iff (key : Bytes) :
    key ∈ store.expiringKeys ↔ ∃ value deadline, store.find? key = some ⟨value, some deadline⟩ := by
  simp only [expiringKeys, List.mem_map, List.mem_filter, Prod.exists, find?,
    Std.ExtTreeMap.mem_toList_iff_getElem?_eq_some]
  constructor
  · rintro ⟨_, ⟨value, _ | deadline⟩, ⟨held, limited⟩, rfl⟩
    · cases limited
    · exact ⟨value, deadline, held⟩
  · rintro ⟨value, deadline, held⟩
    exact ⟨key, _, ⟨held, rfl⟩, rfl⟩

theorem encard_stored : {key | store.contents key ≠ none}.encard = store.size := by
  -- The listing names every stored key once, so its length is their number.
  have stored : {key | store.contents key ≠ none} = (store.keys.toFinset : Set Bytes) := by
    ext key
    simp [store.mem_keys_iff key, contents_apply, Option.isSome_iff_ne_none]
  rw [stored, Set.encard_coe_eq_coe_finsetCard, List.toFinset_card_of_nodup store.nodup_keys,
    store.length_keys]

theorem isEmpty_iff : store.isEmpty = true ↔ ∀ key, store.contents key = none := by
  rw [isEmpty, ← length_keys, beq_iff_eq, List.length_eq_zero_iff, List.eq_nil_iff_forall_not_mem]
  simp [store.mem_keys_iff, contents_apply]

theorem represents_contents : store.Represents store.contents where
  contents_eq := rfl
  keys_nodup := store.nodup_keys
  mem_keys key := (store.mem_keys_iff key).trans Option.isSome_iff_ne_none
  expiringKeys_nodup := store.nodup_keys.sublist store.expiringKeys_sublist
  mem_expiringKeys := store.mem_expiringKeys_iff
  size_eq := store.encard_stored
  isEmpty_iff := store.isEmpty_iff

end Store

/-- Whatever is done to a new store, it answers as the table does, and is left with the keys that the
table leaves; and no operation changes what is stored under another key. -/
theorem store_is_finite_map :
    (∀ operations : List Operation,
      let onStore := Operation.run Operation.perform operations Store.empty
      let onFunction := Operation.run FiniteMap.perform operations Contents.empty
      onStore.1 = onFunction.1 ∧ onStore.2.Represents onFunction.2) ∧
    ∀ (operation : Operation) (store : Store) (other : Bytes), operation.key ≠ other →
      (operation.perform store).2.contents other = store.contents other := by
  constructor
  · intro operations onStore onFunction
    obtain ⟨answers, behind⟩ := Operation.run_simulated operations .empty
    rw [Store.contents_empty] at answers behind
    refine ⟨answers, ?_⟩
    rw [← behind]
    exact onStore.2.represents_contents
  · intro operation store other apart
    rw [(operation.simulated store).2, FiniteMap.perform_of_ne apart]

/-- Two keys, one of which is counted up, runs out and is counted up anew. -/
def recountedKey : List Operation :=
  [.set (Utf8.encode "k") (Utf8.encode "-5"), .setDeadline (Utf8.encode "k") 100,
    .setDeadline (Utf8.encode "m") 100, .incrementBy (Utf8.encode "k") 7,
    .set (Utf8.encode "m") (Utf8.encode "9223372036854775807"), .incrementBy (Utf8.encode "m") 1,
    .removeIfExpired (Utf8.encode "k") 99, .deadline? (Utf8.encode "k"),
    .removeIfExpired (Utf8.encode "k") 100, .contains (Utf8.encode "k"),
    .incrementBy (Utf8.encode "k") (-3), .deadline? (Utf8.encode "k"), .set (Utf8.encode "m") []]

theorem store_is_finite_map_recountedKey :
    let store := (Operation.run Operation.perform recountedKey Store.empty).2
    (Operation.run Operation.perform recountedKey Store.empty).1 =
        [.flag true, .flag true, .flag false, .sum (.ok 2), .flag true, .sum (.error .overflow),
          .flag false, .deadline (some 100), .flag true, .flag false, .sum (.ok (-3)),
          .deadline none, .flag false] ∧
      store.Represents (Operation.run FiniteMap.perform recountedKey Contents.empty).2 ∧
      (Operation.delete (Utf8.encode "k")).key ≠ Utf8.encode "m" ∧
      ((Operation.delete (Utf8.encode "k")).perform store).2.contents (Utf8.encode "m") =
        store.contents (Utf8.encode "m") := by
  have apart : (Operation.delete (Utf8.encode "k")).key ≠ Utf8.encode "m" := by decide
  obtain ⟨answers, represents⟩ := store_is_finite_map.1 recountedKey
  exact ⟨answers.trans rfl, represents, apart, store_is_finite_map.2 _ _ _ apart⟩

end KvServer
