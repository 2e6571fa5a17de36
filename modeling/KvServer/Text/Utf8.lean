import KvServer.Bytes

/-!
# UTF-8

* `encode` writes text as bytes.
* `scan` reads bytes as characters and reports each maximal ill-formed part as one gap.
* `decode?` accepts only well-formed bytes, `lossy` puts U+FFFD in every gap.

An ill-formed part is a lead byte with the continuation bytes that could have followed it, or a
single byte that starts nothing; surrogates and overlong forms are excluded by the range of the
first continuation byte.
-/

namespace KvServer.Utf8

def encode (text : String) : Bytes :=
  text.toList.flatMap String.utf8EncodeChar

@[simp] theorem encode_ofList (chars : List Char) :
    encode (String.ofList chars) = chars.flatMap String.utf8EncodeChar := by
  simp [encode]

theorem toByteArray_encode (text : String) : (encode text).toByteArray = text.toByteArray := by
  conv => rhs; rw [← String.ofList_toList (s := text)]
  rfl

theorem encode_injective {text other : String} (same : encode text = encode other) :
    text = other := by
  rw [← String.toByteArray_inj, ← toByteArray_encode, ← toByteArray_encode, same]

/-- A byte below 128 is a character of its own. -/
theorem eq_or_le_of_mem_utf8EncodeChar {c : Char} {b : UInt8}
    (member : b ∈ String.utf8EncodeChar c) : b.toNat = c.toNat ∨ 128 ≤ b.toNat := by
  have code : c.val.toNat = c.toNat := rfl
  revert member
  fun_cases String.utf8EncodeChar c with
  | case1 v ascii =>
    intro member
    obtain rfl := List.mem_singleton.1 member
    left
    rw [UInt8.toNat_ofNat']
    omega
  | case2 | case3 | case4 =>
    intro member
    -- The marks that a longer form puts on its bytes are all at least 128.
    right
    simp only [List.mem_cons, List.not_mem_nil, or_false] at member
    rcases member with rfl | rfl | rfl | rfl <;> rw [UInt8.toNat_ofNat'] <;> omega

theorem exists_mem_of_mem_encode {text : String} {b : UInt8} (member : b ∈ encode text)
    (ascii : b.toNat < 128) : ∃ c ∈ text.toList, c.toNat = b.toNat := by
  obtain ⟨c, inside, member⟩ := List.mem_flatMap.1 member
  rcases eq_or_le_of_mem_utf8EncodeChar member with same | above
  · exact ⟨c, inside, same.symm⟩
  · omega

/-- What a lead byte announces: how many continuation bytes follow, the range of the first of them,
and the bits it contributes itself. -/
structure Lead where
  more : Nat
  low : UInt8
  high : UInt8
  bits : Nat

/-- Reads a lead byte; `none` for a continuation byte and for bytes that no text contains. -/
def lead? (b : UInt8) : Option Lead :=
  if b < 0x80 then some ⟨0, 0x80, 0xBF, b.toNat⟩
  else if b < 0xC2 then none
  else if b < 0xE0 then some ⟨1, 0x80, 0xBF, b.toNat - 0xC0⟩
  else if b = 0xE0 then some ⟨2, 0xA0, 0xBF, 0⟩
  else if b = 0xED then some ⟨2, 0x80, 0x9F, 0x0D⟩
  else if b < 0xF0 then some ⟨2, 0x80, 0xBF, b.toNat - 0xE0⟩
  else if b = 0xF0 then some ⟨3, 0x90, 0xBF, 0⟩
  else if b < 0xF4 then some ⟨3, 0x80, 0xBF, b.toNat - 0xF0⟩
  else if b = 0xF4 then some ⟨3, 0x80, 0x8F, 4⟩
  else none

/-- Reads `more` continuation bytes, the first of them between `low` and `high`. On failure the rest
starts at the byte that does not fit. -/
def continuation (low high : UInt8) : (more : Nat) → (bits : Nat) → Bytes → Option Nat × Bytes
  | 0, bits, rest => (some bits, rest)
  | _ + 1, _, [] => (none, [])
  | more + 1, bits, b :: rest =>
    if low ≤ b ∧ b ≤ high then
      continuation 0x80 0xBF more (bits * 64 + (b.toNat - 0x80)) rest
    else (none, b :: rest)

theorem length_continuation_le (low high : UInt8) (more bits : Nat) (s : Bytes) :
    (continuation low high more bits s).2.length ≤ s.length := by
  induction more generalizing low high bits s with
  | zero => simp [continuation]
  | succ more ih =>
    cases s with
    | nil => simp [continuation]
    | cons b rest =>
      simp only [continuation]
      split
      · exact Nat.le_succ_of_le (ih ..)
      · simp

/-- One character, or the gap left by one ill-formed part, and the bytes after it. -/
def next (b : UInt8) (rest : Bytes) : Option Char × Bytes :=
  match lead? b with
  | none => (none, rest)
  | some lead =>
    let (code, rest) := continuation lead.low lead.high lead.more lead.bits rest
    (code.map Char.ofNat, rest)

theorem length_next_le (b : UInt8) (rest : Bytes) : (next b rest).2.length ≤ rest.length := by
  simp only [next]
  split
  · simp
  · exact length_continuation_le ..

/-- Reads all characters and gaps behind those already in `read`. -/
def scanFrom (read : Array (Option Char)) : Bytes → Array (Option Char)
  | [] => read
  | b :: rest => scanFrom (read.push (next b rest).1) (next b rest).2
termination_by s => s.length
decreasing_by exact Nat.lt_succ_of_le (length_next_le ..)

/-- The characters of a byte string, `none` for each maximal ill-formed part. -/
def scan (s : Bytes) : List (Option Char) :=
  (scanFrom #[] s).toList

/-- The text that well-formed bytes stand for. -/
def decode? (s : Bytes) : Option String :=
  let read := scan s
  if read.all Option.isSome then some (String.ofList (read.filterMap id)) else none

/-- The character that stands for an ill-formed part. -/
def replacement : Char := '\uFFFD'

def lossy (s : Bytes) : String :=
  String.ofList ((scan s).map (Option.getD · replacement))

end KvServer.Utf8
