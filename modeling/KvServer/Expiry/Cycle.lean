import KvServer.Expiry.Passive
import KvServer.Expiry.Policy

/-!
# Active expiry

A key that is never used again would never be dropped, so from time to time a cycle looks for expired
keys. A cycle makes passes: each samples some of the keys and drops those that have expired, and
another pass follows while the share of expired keys is above the threshold. A cycle that runs in the
background can be asked to stop, and notices it between two passes. This module defines:

* `Sampler`, a choice of keys for every pass, and `IsSample`, what makes a choice a sample
* `StopSignal`, what a cycle is told between its passes
* `Policy.cycle`, the script of one cycle
* `Store.expire`, a cycle at one moment

A pass that is followed by another has dropped a key, as long as the threshold is a number not below
zero; so at one moment there are at most as many passes as keys, and one more.
-/

namespace KvServer

/-- A choice of keys to look at, which may depend on the size asked for, on the number of passes made
before in the cycle, and on the keys there are. -/
abbrev Sampler := (size pass : Nat) → (keys : List Bytes) → List Bytes

/-- Says that `sample` consists of as many different keys as asked for, or of all keys if there are
fewer. -/
def IsSample (size : Nat) (keys sample : List Bytes) : Prop :=
  sample.Nodup ∧ (∀ key ∈ sample, key ∈ keys) ∧ sample.length = min size keys.length

/-- The sampler that takes keys in their order. -/
def Sampler.inOrder : Sampler :=
  fun size _ keys => keys.take size

/-- For each pass, whether the cycle has been asked to stop by the time that the pass is over. -/
abbrev StopSignal := (pass : Nat) → Bool

/-- Nobody asks a cycle to stop. A cycle on demand has no other signal. -/
def StopSignal.never : StopSignal :=
  fun _ => false

/-- Why a cycle ended: there was nothing to look at, too small a share of the sample had expired, it
was asked to stop, or the number of passes allowed was used up. -/
inductive CycleEnd where
  | nothingSampled
  | lowYield (dropped sampled : Nat)
  | stopped
  | passesUsedUp
  deriving DecidableEq, Repr

structure CycleReport where
  passes : Nat
  dropped : Nat
  ending : CycleEnd
  deriving DecidableEq, Repr

namespace Policy

/-- Goes on with a cycle that has made some passes and dropped some keys, for at most `limit` more
passes. The signal to stop counts only where another pass would follow. -/
def cycleFrom (policy : Policy) (sampler : Sampler) (stop : StopSignal) (passes dropped : Nat) :
    (limit : Nat) → Script CycleReport
  | 0 => pure ⟨passes, dropped, .passesUsedUp⟩
  | limit + 1 => do
    let keys ← Script.perform .keys
    let sample := sampler policy.sampleSize.toNat passes keys
    if sample = [] then pure ⟨passes + 1, dropped, .nothingSampled⟩
    else
      let gone ← dropExpired sample
      if Binary64.quotient gone sample.length ≤ policy.threshold then
        pure ⟨passes + 1, dropped + gone, .lowYield gone sample.length⟩
      else if stop passes then pure ⟨passes + 1, dropped + gone, .stopped⟩
      else policy.cycleFrom sampler stop (passes + 1) (dropped + gone) limit

def cycle (policy : Policy) (sampler : Sampler) (stop : StopSignal) (limit : Nat) :
    Script CycleReport :=
  policy.cycleFrom sampler stop 0 0 limit

end Policy

def Store.expire (store : Store) (policy : Policy) (sampler : Sampler) (stop : StopSignal)
    (now : Instant) : CycleReport × Store :=
  (policy.cycle sampler stop (store.size + 1)).run now store

end KvServer
