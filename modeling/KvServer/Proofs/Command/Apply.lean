import KvServer.Command.Execute
import KvServer.Proofs.Store.Contents

/-!
# The commands as equations

What each command does at one moment, without the script that does it. A command that uses an
existing key works on the store from which that key has been pruned.
-/

namespace KvServer

/-- The store without a key, if the key has expired. -/
def Store.prune (store : Store) (key : Bytes) (now : Instant) : Store :=
  (store.removeIfExpired key now).2

namespace Store

variable (store : Store) (key : Bytes) (now : Instant)

theorem find?_prune : (store.prune key now).find? key = store.contents.live now key := by
  have pruned := store.contents_removeIfExpired key now key
  rwa [if_pos rfl] at pruned

/-- Where a key is live, there is nothing to prune. -/
theorem prune_of_live {store : Store} {key : Bytes} {now : Instant} {entry : Entry}
    (live : store.contents.live now key = some entry) : store.prune key now = store := by
  obtain ⟨held, unexpired⟩ := Option.filter_eq_some_iff.1 live
  have held : store.find? key = some entry := held
  simp_all [prune, removeIfExpired]

theorem live_prune : (store.prune key now).contents.live now = store.contents.live now :=
  store.live_removeIfExpired key now

theorem live_put_prune (entry : Entry) :
    ((store.prune key now).put key entry).contents.live now =
      ((store.contents.live now).put key entry).live now := by
  rw [contents_put]
  apply Contents.live_put_congr
  rw [live_prune, Contents.live_live (UInt64.le_refl now)]

theorem getLive_prune :
    ((store.prune key now).getLive key now).1 = (store.contents.live now key).map Entry.value := by
  have still := congrFun (Contents.live_live (UInt64.le_refl now) store.contents) key
  rw [getLive, find?_prune]
  exact congrArg (Option.map Entry.value) still

end Store

namespace Command

variable (key : Bytes) (now : Instant) (store : Store)

theorem apply_get :
    (get key).apply now store =
      (.ok (match store.contents.live now key with
        | some entry => .bulk entry.value
        | none => .null),
      (store.prune key now).countGet) := by
  rw [apply, script, Script.run_bind, run_dropIfExpired, Script.run_bind]
  -- The script goes on by the answer to its second access.
  split
  next value read =>
    have read : ((store.prune key now).getLive key now).1 = some value := read
    rw [Store.getLive_prune, Option.map_eq_some_iff] at read
    obtain ⟨entry, live, rfl⟩ := read
    rw [live]
    rfl
  next read =>
    have read : ((store.prune key now).getLive key now).1 = none := read
    rw [Store.getLive_prune, Option.map_eq_none_iff] at read
    rw [read]
    rfl

theorem apply_set (value : Bytes) :
    (set key value).apply now store = (.ok .ok, (store.set key value).2) :=
  rfl

theorem apply_incr :
    (incr key).apply now store =
      (match ((store.prune key now).incrementBy key 1).1 with
        | .ok sum => .ok (.integer sum)
        | .error error => .error (.ofIncrement error),
      ((store.prune key now).incrementBy key 1).2) := by
  rw [apply, script, Script.run_bind, run_dropIfExpired, Script.run_bind]
  split
  next sum added =>
    have added : ((store.prune key now).incrementBy key 1).1 = .ok sum := added
    rw [added]
    rfl
  next error refused =>
    have refused : ((store.prune key now).incrementBy key 1).1 = .error error := refused
    rw [refused]
    rfl

theorem apply_expire (seconds : UInt64) :
    (expire key seconds).apply now store =
      (.ok (.integer
        (if ((store.prune key now).setDeadline key (now.after seconds)).1 then 1 else 0)),
      ((store.prune key now).setDeadline key (now.after seconds)).2) := by
  rw [apply, script, Script.run_bind, run_dropIfExpired, Script.run_bind]
  rfl

theorem apply_ttl :
    (ttl key).apply now store =
      (.ok (.integer (timeLeftCode ((store.prune key now).timeLeft key now))),
        store.prune key now) := by
  rw [apply, script, Script.run_bind, run_dropIfExpired, Script.run_bind]
  rfl

end Command

end KvServer
