/-!
# Byte strings

Keys, values, requests and replies are byte strings; text is a different type and meets them only
in `KvServer.Text.Utf8`. This module defines:

* `Bytes`, a list of bytes, which the order `compare` sorts bytewise
* `crlf`, the two bytes that end every line on the wire
* `Bytes.lowered`, which folds the case of the ASCII letters and of nothing else
-/

namespace KvServer

/-- A byte string. -/
abbrev Bytes := List UInt8

namespace Bytes

def cr : UInt8 := 13

def lf : UInt8 := 10

/-- The end of a line on the wire. -/
def crlf : Bytes := [cr, lf]

@[simp] theorem length_crlf : crlf.length = 2 := rfl

/-- The lower-case form of an ASCII capital; every other byte is left alone. -/
def lowerByte (b : UInt8) : UInt8 :=
  if 65 ≤ b ∧ b ≤ 90 then b + 32 else b

/-- Folds the case of the ASCII letters. -/
def lowered (s : Bytes) : Bytes :=
  s.map lowerByte

@[simp] theorem length_lowered (s : Bytes) : s.lowered.length = s.length := by
  simp [lowered]

end Bytes

end KvServer
