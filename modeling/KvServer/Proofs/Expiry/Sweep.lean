import KvServer.Proofs.Store.Access
import KvServer.Proofs.Store.FiniteMap
import Mathlib.Data.Finset.Card
import Mathlib.Data.Finset.Lattice.Lemmas

/-!
# Sweeps

Whoever drops the expired keys of a list at one moment takes out those and no others, and counts them.

* `Store.expiredKeys`, the keys whose deadline has passed
* `Store.Sheds`: a store is another one without some of its keys, each of them counted as expired
* `run_dropExpired`: dropping the expired keys of a list sheds the expired keys in it
-/

namespace KvServer

namespace Store

/-- The keys whose deadline has passed. -/
def expiredKeys (store : Store) (now : Instant) : Finset Bytes :=
  store.keys.toFinset.filter fun key => (store.find? key).any (·.isExpired now)

/-- Says that `after` is what remains of a store when some of its keys have expired and are gone. -/
structure Sheds (store : Store) (gone : Finset Bytes) (after : Store) : Prop where
  stored : ∀ key ∈ gone, store.find? key ≠ none
  find?_eq : ∀ key, after.find? key = if key ∈ gone then none else store.find? key
  counters_eq : after.counters = store.counters + ⟨0, 0, 0, .ofNat gone.card⟩

variable {store middle after : Store} {gone later : Finset Bytes} {key : Bytes} {now : Instant}

theorem mem_expiredKeys_iff_any :
    key ∈ store.expiredKeys now ↔ (store.find? key).any (·.isExpired now) = true := by
  rw [expiredKeys, Finset.mem_filter, List.mem_toFinset, store.mem_keys_iff, and_iff_right_iff_imp]
  intro expired
  cases held : store.find? key with
  | none => simp [held] at expired
  | some entry => rfl

theorem mem_expiredKeys_iff : key ∈ store.expiredKeys now ↔
    ∃ value deadline, store.find? key = some ⟨value, some deadline⟩ ∧ deadline ≤ now := by
  rw [mem_expiredKeys_iff_any]
  rcases store.find? key with _ | ⟨value, _ | deadline⟩ <;> simp [Entry.isExpired]

theorem expiredKeys_subset (store : Store) (now : Instant) :
    store.expiredKeys now ⊆ store.keys.toFinset :=
  Finset.filter_subset ..

theorem find?_ne_none_of_mem (member : key ∈ store.expiredKeys now) : store.find? key ≠ none := by
  obtain ⟨value, deadline, held, -⟩ := mem_expiredKeys_iff.1 member
  simp [held]

namespace Sheds

theorem refl (store : Store) : store.Sheds ∅ store :=
  ⟨by simp, by simp, (add_zero _).symm⟩

theorem disjoint (first : store.Sheds gone middle) (second : middle.Sheds later after) :
    Disjoint gone later := by
  rw [Finset.disjoint_left]
  intro key member member'
  refine second.stored key member' ?_
  rw [first.find?_eq, if_pos member]

theorem trans (first : store.Sheds gone middle) (second : middle.Sheds later after) :
    store.Sheds (gone ∪ later) after where
  stored key member := by
    rcases Finset.mem_union.1 member with member | member
    · exact first.stored key member
    · intro absent
      refine second.stored key member ?_
      rw [first.find?_eq, absent, ite_self]
  find?_eq key := by
    rw [second.find?_eq, first.find?_eq]
    by_cases early : key ∈ gone <;> by_cases late : key ∈ later <;> simp [early, late]
  counters_eq := by
    rw [second.counters_eq, first.counters_eq, add_assoc,
      Finset.card_union_of_disjoint (first.disjoint second), UInt64.ofNat_add]
    rfl

theorem keys_eq (sheds : store.Sheds gone after) :
    after.keys.toFinset = store.keys.toFinset \ gone := by
  ext key
  rw [Finset.mem_sdiff, List.mem_toFinset, List.mem_toFinset, after.mem_keys_iff, store.mem_keys_iff,
    sheds.find?_eq]
  by_cases member : key ∈ gone <;> simp [member]

theorem size_eq (sheds : store.Sheds gone after) : after.size + gone.card = store.size := by
  -- Keys are listed once each, so sizes are the sizes of the sets of keys.
  have subset : gone ⊆ store.keys.toFinset := by
    intro key member
    rw [List.mem_toFinset, store.mem_keys_iff, Option.isSome_iff_ne_none]
    exact sheds.stored key member
  have card : (after.keys.toFinset).card + gone.card = (store.keys.toFinset).card := by
    rw [sheds.keys_eq]
    exact Finset.card_sdiff_add_card_eq_card subset
  rwa [List.toFinset_card_of_nodup after.nodup_keys, List.toFinset_card_of_nodup store.nodup_keys,
    length_keys, length_keys] at card

theorem expiredKeys_eq (sheds : store.Sheds gone after) :
    after.expiredKeys now = store.expiredKeys now \ gone := by
  ext key
  rw [Finset.mem_sdiff, mem_expiredKeys_iff_any, mem_expiredKeys_iff_any, sheds.find?_eq]
  by_cases member : key ∈ gone <;> simp [member]

end Sheds

/-! ## One key -/

theorem removeIfExpired_of_mem (expired : key ∈ store.expiredKeys now) :
    (store.removeIfExpired key now).1 = true ∧ store.Sheds {key} (store.removeIfExpired key now).2 := by
  have held := find?_ne_none_of_mem expired
  rw [mem_expiredKeys_iff_any] at expired
  rw [removeIfExpired, if_pos expired]
  refine ⟨rfl, ?_, ?_, ?_⟩
  · intro other member
    rwa [Finset.mem_singleton.1 member]
  · intro other
    refine (store.find?_erase key other).trans ?_
    simp only [Finset.mem_singleton, eq_comm]
  · simp [Counters.add_eq]

theorem removeIfExpired_of_not_mem (unexpired : key ∉ store.expiredKeys now) :
    store.removeIfExpired key now = (false, store) := by
  rw [mem_expiredKeys_iff_any] at unexpired
  rw [removeIfExpired, if_neg unexpired]

end Store

/-! ## Lists of keys -/

theorem run_dropExpiredFrom (dropped : Nat) (keys : List Bytes) (now : Instant) (store : Store) :
    ((dropExpiredFrom dropped keys).run now store).1 =
        dropped + (store.expiredKeys now ∩ keys.toFinset).card ∧
      store.Sheds (store.expiredKeys now ∩ keys.toFinset)
        ((dropExpiredFrom dropped keys).run now store).2 := by
  induction keys generalizing dropped store with
  | nil =>
    simp only [dropExpiredFrom, Script.run_pure, List.toFinset_nil, Finset.inter_empty,
      Finset.card_empty, Nat.add_zero, true_and]
    exact .refl store
  | cons key keys ih =>
    rw [dropExpiredFrom, Script.run_bind, run_dropIfExpired, List.toFinset_cons]
    by_cases expired : key ∈ store.expiredKeys now
    · -- The rest of the list finds the store without the key.
      obtain ⟨answer, first⟩ := Store.removeIfExpired_of_mem expired
      obtain ⟨count, rest⟩ := ih (dropped + 1) (store.removeIfExpired key now).2
      have both : insert key ((store.expiredKeys now \ {key}) ∩ keys.toFinset) =
          store.expiredKeys now ∩ insert key keys.toFinset := by
        ext other
        by_cases same : other = key <;> simp_all
      have fresh : key ∉ (store.expiredKeys now \ {key}) ∩ keys.toFinset := by simp
      rw [first.expiredKeys_eq] at count rest
      rw [answer, if_pos rfl, ← both]
      refine ⟨?_, first.trans rest⟩
      rw [count, Finset.card_insert_of_notMem fresh]
      omega
    · rw [Store.removeIfExpired_of_not_mem expired, Finset.inter_insert_of_notMem expired]
      exact ih dropped store

theorem run_dropExpired (keys : List Bytes) (now : Instant) (store : Store) :
    ((dropExpired keys).run now store).1 = (store.expiredKeys now ∩ keys.toFinset).card ∧
      store.Sheds (store.expiredKeys now ∩ keys.toFinset) ((dropExpired keys).run now store).2 := by
  obtain ⟨count, sheds⟩ := run_dropExpiredFrom 0 keys now store
  exact ⟨count.trans (Nat.zero_add _), sheds⟩

end KvServer
