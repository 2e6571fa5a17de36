import KvServer.Store.Script

/-!
# Passive expiry

Whoever is about to use a key first drops it if it has expired. Most keys have no deadline, so the
deadline is looked up first and the removal is tried only where there is one; the removal decides
anew, on the entry it finds.
-/

namespace KvServer

/-- Drops a key if it has expired, and says whether this script dropped it. -/
def dropIfExpired (key : Bytes) : Script Bool := do
  match ← Script.perform (.deadline? key) with
  | none => pure false
  | some _ => Script.perform (.removeIfExpired key)

/-- Drops every key of a list that has expired, and counts them on top of `dropped`. -/
def dropExpiredFrom (dropped : Nat) : List Bytes → Script Nat
  | [] => pure dropped
  | key :: keys => do
    let gone ← dropIfExpired key
    dropExpiredFrom (if gone then dropped + 1 else dropped) keys

/-- Drops every key of a list that has expired, and counts them. -/
def dropExpired (keys : List Bytes) : Script Nat :=
  dropExpiredFrom 0 keys

end KvServer
