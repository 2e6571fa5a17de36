import KvServer.Bytes

/-!
# Tags

Every element on the wire starts with one byte that says what it is. Requests use the tags of arrays
and bulk strings only; replies use all five.
-/

namespace KvServer

/-- The kind of an element on the wire. -/
inductive Tag where
  | status
  | error
  | integer
  | bulk
  | array
  deriving DecidableEq, Repr

def Tag.char : Tag → Char
  | .status => '+'
  | .error => '-'
  | .integer => ':'
  | .bulk => '$'
  | .array => '*'

def Tag.byte : Tag → UInt8
  | .status => 43
  | .error => 45
  | .integer => 58
  | .bulk => 36
  | .array => 42

theorem Tag.byte_eq (tag : Tag) : tag.byte = tag.char.toNat.toUInt8 := by
  cases tag <;> rfl

theorem Tag.byte_injective {a b : Tag} (h : a.byte = b.byte) : a = b := by
  revert h; cases a <;> cases b <;> decide

end KvServer
