import KvServer.Proofs.Store.Contents
import Mathlib.Algebra.Group.Basic

/-!
# What an access touches

Apart from the listing of all keys, an access names one key. It leaves every other key alone, and the
entry under its own key settles what it answers, what it leaves there and what it counts.

* `Access.key?`, the key that is named, and `Access.written?`, the key whose entry is replaced
* `Access.find?_perform_of_ne`: other keys are left alone
* `Access.find?_perform_of_unexpired`: an entry that has not expired stays until it is replaced
* `Access.answer_congr`, `Access.find?_congr`, `Access.counted_congr`: stores that hold the same under a
  key are the same to an access that names it
-/

namespace KvServer

/-! ## Counts -/

namespace Counters

instance : Zero Counters :=
  ⟨zero⟩

instance : Add Counters :=
  ⟨fun first second => ⟨first.gets + second.gets, first.sets + second.sets,
    first.deletes + second.deletes, first.expired + second.expired⟩⟩

theorem zero_eq : (0 : Counters) = ⟨0, 0, 0, 0⟩ :=
  rfl

theorem add_eq (first second : Counters) :
    first + second = ⟨first.gets + second.gets, first.sets + second.sets,
      first.deletes + second.deletes, first.expired + second.expired⟩ :=
  rfl

instance : AddCommMonoid Counters where
  add_assoc _ _ _ := by simp only [add_eq, UInt64.add_assoc]
  zero_add _ := by simp only [add_eq, zero_eq, UInt64.zero_add]
  add_zero _ := by simp only [add_eq, zero_eq, UInt64.add_zero]
  add_comm _ _ := by simp only [add_eq, UInt64.add_comm]
  nsmul := nsmulRec

end Counters

namespace Access

/-- The key that an access names. -/
def key? : Access → Option Bytes
  | .deadline? key | .removeIfExpired key | .getLive key | .timeLeft key | .set key _
  | .expireIn key _ | .incrementBy key _ => some key
  | .keys => none

/-- The key whose entry an access replaces, whatever the moment. -/
def written? : Access → Option Bytes
  | .set key _ | .expireIn key _ | .incrementBy key _ => some key
  | _ => none

/-- The key under which an access puts an entry even if there is none. -/
def refilled? : Access → Option Bytes
  | .set key _ | .incrementBy key _ => some key
  | _ => none

/-- What an access adds to the counters. -/
def counted (now : Instant) (store : Store) : Access → Counters
  | .getLive _ => ⟨1, 0, 0, 0⟩
  | .set _ _ => ⟨0, 1, 0, 0⟩
  | .removeIfExpired key => if (store.find? key).any (·.isExpired now) then ⟨0, 0, 0, 1⟩ else 0
  | _ => 0

theorem counters_perform (access : Access) (now : Instant) (store : Store) :
    (access.perform now store).2.counters = store.counters + access.counted now store := by
  cases access with
  | deadline? | timeLeft | keys => exact (add_zero _).symm
  | getLive | set =>
    simp [perform, counted, Counters.add_eq, Store.getLive, Store.countGet, Store.set]
  | removeIfExpired key =>
    simp only [perform, counted, Store.removeIfExpired]
    split
    next => simp [Counters.add_eq]
    next => exact (add_zero _).symm
  | expireIn key seconds =>
    simp only [perform, counted, Store.setDeadline, add_zero]
    split <;> rfl
  | incrementBy key delta =>
    simp only [perform, counted, Store.incrementBy, add_zero]
    split <;> rfl

variable {access : Access} {key : Bytes} {now : Instant}

/-! ## Other keys -/

theorem find?_perform_of_ne (elsewhere : access.key? ≠ some key) (now : Instant) (store : Store) :
    (access.perform now store).2.find? key = store.find? key := by
  cases access with
  | deadline? | getLive | timeLeft | keys => rfl
  | removeIfExpired other =>
    have apart : other ≠ key := by simpa [key?] using elsewhere
    exact (store.find?_removeIfExpired other now key).trans (if_neg apart)
  | set other value =>
    have apart : other ≠ key := by simpa [key?] using elsewhere
    exact (store.find?_set other value key).trans (if_neg apart)
  | expireIn other seconds =>
    have apart : other ≠ key := by simpa [key?] using elsewhere
    exact (store.find?_setDeadline other (now.after seconds) key).trans (if_neg apart)
  | incrementBy other delta =>
    have apart : other ≠ key := by simpa [key?] using elsewhere
    exact (store.find?_incrementBy other delta key).trans (if_neg apart)

theorem find?_perform_of_unexpired {store : Store} {entry : Entry} (held : store.find? key = some entry)
    (unexpired : entry.isExpired now = false) (unwritten : access.written? ≠ some key) :
    (access.perform now store).2.find? key = some entry := by
  by_cases named : access.key? = some key
  · -- Of the accesses that name the key, only a removal is neither a reading nor ruled out.
    cases access with
    | deadline? | getLive | timeLeft => exact held
    | keys => cases named
    | set | expireIn | incrementBy => exact absurd named unwritten
    | removeIfExpired other =>
      cases named
      simp [perform, Store.find?_removeIfExpired, held, unexpired]
  · rw [find?_perform_of_ne named, held]

/-- A key that is absent stays absent until somebody puts an entry there. -/
theorem find?_perform_of_absent {store : Store} (absent : store.find? key = none)
    (unfilled : access.refilled? ≠ some key) (now : Instant) :
    (access.perform now store).2.find? key = none := by
  by_cases named : access.key? = some key
  · cases access with
    | keys => cases named
    | deadline? | getLive | timeLeft => exact absent
    | set | incrementBy => exact absurd named unfilled
    | removeIfExpired other =>
      cases named
      simp [perform, Store.find?_removeIfExpired, absent]
    | expireIn other seconds =>
      cases named
      simp [perform, Store.find?_setDeadline, absent]
  · rw [find?_perform_of_ne named, absent]

theorem unfilled_of_unwritten (unwritten : access.written? ≠ some key) :
    access.refilled? ≠ some key := by
  cases access with
  | set | incrementBy => exact unwritten
  | _ => nofun

/-! ## The key that is named -/

variable {left right : Store}

theorem answer_congr (named : access.key? = some key) (same : left.find? key = right.find? key)
    (now : Instant) : (access.perform now left).1 = (access.perform now right).1 := by
  cases access with
  | keys => cases named
  | deadline? | getLive | timeLeft | set =>
    cases named
    simp [perform, Store.deadline?, Store.getLive, Store.timeLeft, Store.set, Store.contains, same]
  | removeIfExpired =>
    cases named
    simp only [perform, Store.removeIfExpired, same]
    split <;> rfl
  | expireIn =>
    cases named
    simp only [perform, Store.setDeadline, same]
    split <;> rfl
  | incrementBy =>
    cases named
    simp only [perform, Store.incrementBy, same]
    split <;> rfl

theorem find?_congr (named : access.key? = some key) (same : left.find? key = right.find? key)
    (now : Instant) :
    (access.perform now left).2.find? key = (access.perform now right).2.find? key := by
  cases access with
  | keys => cases named
  | deadline? | getLive | timeLeft => exact same
  | set | removeIfExpired | expireIn | incrementBy =>
    cases named
    simp [perform, Store.find?_set, Store.find?_removeIfExpired, Store.find?_setDeadline,
      Store.find?_incrementBy, same]

theorem counted_congr (named : access.key? = some key) (same : left.find? key = right.find? key)
    (now : Instant) : access.counted now left = access.counted now right := by
  cases access with
  | removeIfExpired =>
    cases named
    simp only [counted, same]
  | _ => rfl

end Access

end KvServer
