import KvServer.Expiry.Passive

/-!
# The contents of a store

A store keeps entries whose deadline has passed until somebody drops them. What a client can tell of
it at a moment are the entries that are live then: `Contents.live`. Dropping an expired key leaves
them as they are, and what was live at one moment decides what is live at every later one.
-/

namespace KvServer

/-- The entries under all keys. -/
abbrev Contents := Bytes → Option Entry

namespace Contents

def empty : Contents := fun _ => none

def put (contents : Contents) (key : Bytes) (entry : Entry) : Contents :=
  fun other => if key = other then some entry else contents other

/-- The entries that have not expired at a moment. -/
def live (contents : Contents) (now : Instant) : Contents :=
  fun key => (contents key).filter fun entry => !entry.isExpired now

end Contents

theorem Entry.isExpired_mono {entry : Entry} {now later : Instant} (order : now ≤ later)
    (expired : entry.isExpired now = true) : entry.isExpired later = true := by
  obtain ⟨deadline, has, passed⟩ := (entry.isExpired_eq_true_iff now).1 expired
  exact (entry.isExpired_eq_true_iff later).2 ⟨deadline, has, UInt64.le_trans passed order⟩

namespace Contents

/-- Sweeping early changes nothing about a later sweep. -/
theorem live_live {now later : Instant} (order : now ≤ later) (contents : Contents) :
    (contents.live now).live later = contents.live later := by
  funext key
  cases present : contents key with
  | none => simp [live, present]
  | some entry =>
    -- What the first sweep takes, the second would have taken.
    by_cases expired : entry.isExpired now = true
    · have expiredLater := Entry.isExpired_mono order expired
      simp [live, present, Option.filter, expired, expiredLater]
    · simp [live, present, Option.filter, expired]

/-- Contents that agree on what is live agree on it for ever. -/
theorem live_congr_of_le {left right : Contents} {now later : Instant} (order : now ≤ later)
    (same : left.live now = right.live now) : left.live later = right.live later := by
  rw [← live_live order left, same, live_live order right]

theorem live_put_congr {left right : Contents} {now : Instant}
    (same : left.live now = right.live now) (key : Bytes) (entry : Entry) :
    (left.put key entry).live now = (right.put key entry).live now := by
  funext other
  by_cases hit : key = other
  · simp [live, put, hit]
  · have elsewhere : left.live now other = right.live now other := congrFun same other
    simpa [live, put, hit] using elsewhere

end Contents

namespace Store

/-- The entries of a store, expired ones among them. -/
def contents (store : Store) : Contents :=
  store.find?

@[simp] theorem contents_empty : empty.contents = Contents.empty :=
  funext find?_empty

@[simp] theorem contents_countGet (store : Store) : store.countGet.contents = store.contents :=
  rfl

theorem contents_put (store : Store) (key : Bytes) (entry : Entry) :
    (store.put key entry).contents = store.contents.put key entry :=
  funext fun other => store.find?_put key other entry

theorem contents_set (store : Store) (key value : Bytes) :
    (store.set key value).2.contents = store.contents.put key (.lasting value) :=
  funext fun other => store.find?_set key value other

theorem contents_removeIfExpired (store : Store) (key : Bytes) (now : Instant) (other : Bytes) :
    (store.removeIfExpired key now).2.contents other =
      if key = other then store.contents.live now key else store.contents other :=
  store.find?_removeIfExpired key now other

/-- Dropping an expired key is invisible. -/
theorem live_removeIfExpired (store : Store) (key : Bytes) (now : Instant) :
    (store.removeIfExpired key now).2.contents.live now = store.contents.live now := by
  funext other
  change Option.filter _ ((store.removeIfExpired key now).2.contents other) = _
  rw [contents_removeIfExpired]
  split
  next hit =>
    subst hit
    exact congrFun (Contents.live_live (UInt64.le_refl now) store.contents) key
  next => rfl

end Store

theorem Store.removeIfExpired_of_lasting {store : Store} {key : Bytes}
    (lasting : store.deadline? key = none) (now : Instant) :
    store.removeIfExpired key now = (false, store) := by
  have unexpired : (store.find? key).any (·.isExpired now) = false := by
    cases present : store.find? key with
    | none => rfl
    | some entry =>
      have bare : entry.deadline? = none := by simpa [deadline?, present] using lasting
      simp [Entry.isExpired, bare]
  simp [removeIfExpired, unexpired]

/-- The lookup before the removal spares work and nothing else. -/
theorem runAt_dropIfExpired (readings : Nat → Instant) (key : Bytes) (store : Store) :
    (dropIfExpired key).runAt readings store = store.removeIfExpired key (readings 1) := by
  rw [dropIfExpired, Script.runAt_perform_bind]
  split
  next looked =>
    have lasting : store.deadline? key = none := looked
    rw [Store.removeIfExpired_of_lasting lasting]
    rfl
  next => rfl

theorem run_dropIfExpired (key : Bytes) (now : Instant) (store : Store) :
    (dropIfExpired key).run now store = store.removeIfExpired key now := by
  rw [← Script.runAt_const, runAt_dropIfExpired]

end KvServer
