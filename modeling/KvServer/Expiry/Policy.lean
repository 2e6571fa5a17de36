import KvServer.Numeral.Binary64

/-!
# Expiry policies

How often expired keys are looked for, and how hard.
-/

namespace KvServer

/-- A policy for active expiry: the milliseconds between two cycles, the number of keys sampled in
one pass, and the share of a sample that must have expired for another pass to follow at once. -/
structure Policy where
  interval : UInt64
  sampleSize : UInt64
  threshold : Binary64
  deriving DecidableEq, Repr

namespace Policy

/-- Once a second, twenty keys, a quarter. -/
def standard : Policy :=
  ⟨1000, 20, .quotient 1 4⟩

end Policy

end KvServer
