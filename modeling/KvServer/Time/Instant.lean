import KvServer.Numeral.Word

/-!
# Instants

Deadlines and clock readings are whole seconds since the start of 1970, in 64 bits. Arithmetic on
them stops at the ends of the range.
-/

namespace KvServer

/-- A moment, in whole seconds since the start of 1970. -/
abbrev Instant := UInt64

namespace Instant

/-- The moment some seconds after another. -/
def after (now : Instant) (seconds : UInt64) : Instant :=
  Word.saturatingAdd now seconds

/-- The seconds from one moment to a deadline, zero once it has passed. -/
def remaining (deadline now : Instant) : UInt64 :=
  Word.saturatingSub deadline now

theorem remaining_eq_zero_iff (deadline now : Instant) :
    (remaining deadline now).toNat = 0 ↔ deadline ≤ now := by
  rw [remaining, Word.toNat_saturatingSub, UInt64.le_iff_toNat_le]
  omega

end Instant

end KvServer
