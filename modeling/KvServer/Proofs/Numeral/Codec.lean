import KvServer.Proofs.Command.Language
import KvServer.Proofs.Request.Grammar
import KvServer.Proofs.Store.Increment

/-!
# Those who read and write integers

Integer text is read in three places, a stored counter, the time of a command and the length in a line of
a request, and it is written in two, a reply and the store. All of them go by one notation; a length takes
no `+`, and what is written is the shortest text for its integer, which everyone reads back.

* `Command.seconds_eq_ok_iff`, `Command.seconds_eq_notAnInteger_iff`: which times are read
* `Reader.header_eq_ok_iff`: which lengths are read
* `integer_text_exact`: all readers and both writers
-/

namespace KvServer

/-! ## Readers -/

theorem Store.integerOf_eq_ok_iff {entry : Entry} {word : Int64} :
    Store.integerOf (some entry) = .ok word ↔ Decimal.IsInteger entry.value word.toInt := by
  rw [← Store.counts_toInt_iff]
  constructor
  · rintro (_ | ⟨integer, -⟩)
    exact integer
  · exact fun integer => .text integer (Word.fits_toInt word)

namespace Command

variable {text : Bytes}

theorem seconds_eq_ok_iff {count : UInt64} :
    seconds text = .ok count ↔ Decimal.IsInteger text count.toNat ∧ Word.Fits count.toNat := by
  constructor
  · -- Of the three things that a text can stand for, only a number of seconds is accepted.
    intro read
    rcases seconds_cases text with ⟨other, integer, bounded⟩ | nothing | ⟨n, integer, fits, negative⟩
    · rw [seconds_of_isInteger integer bounded] at read
      cases read
      exact ⟨integer, by omega, by omega⟩
    · rw [seconds_of_not_integer nothing] at read
      cases read
    · rw [seconds_of_negative integer fits negative] at read
      cases read
  · rintro ⟨integer, -, bounded⟩
    exact seconds_of_isInteger integer (by omega)

theorem seconds_eq_notAnInteger_iff :
    seconds text = .error .notAnInteger ↔ ∀ n, Decimal.IsInteger text n → ¬Word.Fits n := by
  refine ⟨fun refused n integer fits => ?_, seconds_of_not_integer⟩
  rcases seconds_cases text with ⟨count, integer, bounded⟩ | nothing | ⟨m, integer, fits, negative⟩
  · rw [seconds_of_isInteger integer bounded] at refused
    cases refused
  · exact nothing n integer fits
  · rw [seconds_of_negative integer fits negative] at refused
    cases refused

end Command

theorem Reader.header_eq_ok_iff {tag : Tag} {reader : Reader} {length : Int64} {rest : Bytes} :
    (∃ next, header tag reader = .ok length next ∧ next.source.bytes = rest) ↔
      ∃ digits, Decimal.Numeral digits length.toInt ∧ digits.length ≤ 63 ∧
        reader.source.bytes = Reply.line tag digits ++ rest := by
  rw [← Scan.header_eq_done_iff]
  constructor
  · rintro ⟨next, done, rfl⟩
    exact (follows_header tag).done_of_ok done
  · intro scanned
    obtain ⟨next, done, left, -⟩ := (follows_header tag).ok_of_done scanned
    exact ⟨next, done, left⟩

namespace Decimal

variable {s : Bytes} {n : Int}

theorem exists_int64?_iff :
    (∃ word : Int64, word.toInt = n ∧ int64? s = some word) ↔ IsInteger s n ∧ Word.Fits n := by
  simp only [int64?_eq_some_iff]
  exact Word.exists_toInt_iff (IsInteger s)

theorem exists_length?_iff :
    (∃ word : Int64, word.toInt = n ∧ length? s = some word) ↔ Numeral s n ∧ Word.Fits n := by
  simp only [length?_eq_some_iff]
  exact Word.exists_toInt_iff (Numeral s)

theorem length?_eq_some_iff_int64? {word : Int64} :
    length? s = some word ↔ int64? s = some word ∧ s.head? ≠ some plus := by
  unfold length?
  split
  next positive => simp [positive]
  next other => simp [other]

end Decimal

/-! ## Writers -/

theorem Store.find?_of_incrementBy {store after : Store} {key : Bytes} {delta sum : Int64}
    (counted : store.incrementBy key delta = (.ok sum, after)) :
    after.find? key = some ⟨Decimal.ofInt sum.toInt, (store.find? key).bind Entry.deadline?⟩ := by
  have step := store.increment_incrementBy key delta
  rw [counted] at step
  obtain ⟨n, text, -, -, canonical, rfl⟩ := step.exists_text
  rw [Decimal.canonical_iff.1 canonical, find?_put, if_pos rfl]

/-- A text is read as an integer if it is an optional sign and digits that stand for an integer of 64
bits, and it is read as this integer; a length is read likewise unless a `+` stands in front. Stored
counters, times and lines of requests are read so. The text that is written for an integer, into a reply
and into the store alike, is read back by all of them, it has no zero in front, no `+` and no `-` but
that of a negative integer, and every other text that is read so is longer. -/
theorem integer_text_exact :
    (∀ (s : Bytes) (n : Int),
      ((∃ word : Int64, word.toInt = n ∧ Decimal.int64? s = some word) ↔
        Decimal.IsInteger s n ∧ Word.Fits n) ∧
      ((∃ word : Int64, word.toInt = n ∧ Decimal.length? s = some word) ↔
        Decimal.Numeral s n ∧ Word.Fits n)) ∧
    (∀ (s : Bytes) (word : Int64), Decimal.length? s = some word ↔
      Decimal.int64? s = some word ∧ s.head? ≠ some Decimal.plus) ∧
    (∀ (entry : Entry) (word : Int64), Store.integerOf (some entry) = .ok word ↔
      Decimal.IsInteger entry.value word.toInt) ∧
    (∀ s : Bytes,
      (∀ count, Command.seconds s = .ok count ↔
        Decimal.IsInteger s count.toNat ∧ Word.Fits count.toNat) ∧
      (Command.seconds s = .error .notAnInteger ↔ ∀ n, Decimal.IsInteger s n → ¬Word.Fits n)) ∧
    (∀ (tag : Tag) (reader : Reader) (word : Int64) (rest : Bytes),
      (∃ next, Reader.header tag reader = .ok word next ∧ next.source.bytes = rest) ↔
        ∃ digits, Decimal.Numeral digits word.toInt ∧ digits.length ≤ 63 ∧
          reader.source.bytes = Reply.line tag digits ++ rest) ∧
    ∀ word : Int64,
      let text := Decimal.ofInt word.toInt
      (Reply.integer word).encode = Reply.line .integer text ∧
      (∀ (store after : Store) (key : Bytes) (delta : Int64),
        store.incrementBy key delta = (.ok word, after) →
          ∃ deadline?, after.find? key = some ⟨text, deadline?⟩) ∧
      Decimal.int64? text = some word ∧ Decimal.length? text = some word ∧
      Decimal.Canonical text word.toInt ∧
      ∀ s, Decimal.int64? s = some word → s = text ∨ text.length < s.length := by
  refine ⟨fun s n => ⟨Decimal.exists_int64?_iff, Decimal.exists_length?_iff⟩,
    fun s word => Decimal.length?_eq_some_iff_int64?, fun entry word => Store.integerOf_eq_ok_iff,
    fun s => ⟨fun count => Command.seconds_eq_ok_iff, Command.seconds_eq_notAnInteger_iff⟩,
    fun tag reader word rest => Reader.header_eq_ok_iff, fun word => ?_⟩
  intro text
  have canonical : Decimal.Canonical text word.toInt := Decimal.canonical_ofInt _
  refine ⟨by rw [Reply.encode, Reply.header], fun store after key delta counted => ?_,
    canonical.int64?_eq, Decimal.length?_eq_some_iff.2 (Decimal.numeral_ofInt _), canonical,
    fun s read => (Decimal.int64?_eq_some_iff.1 read).eq_ofInt_or_lt⟩
  exact ⟨_, Store.find?_of_incrementBy counted⟩

/-- A store whose counter is one above the least integer, in a spelling of its own. -/
def nearTheBottom : Store :=
  Store.empty.put (Utf8.encode "k") ⟨Utf8.encode "-009223372036854775807", some 100⟩

theorem integer_text_exact_atTheBottom :
    let after := (nearTheBottom.incrementBy (Utf8.encode "k") (-1)).2
    let zeroes := Utf8.encode "-09223372036854775808"
    nearTheBottom.incrementBy (Utf8.encode "k") (-1) = (.ok Int64.minValue, after) ∧
      (∃ deadline?, after.find? (Utf8.encode "k") =
        some ⟨Decimal.ofInt Int64.minValue.toInt, deadline?⟩) ∧
      Decimal.int64? zeroes = some Int64.minValue ∧
      (zeroes = Decimal.ofInt Int64.minValue.toInt ∨
        (Decimal.ofInt Int64.minValue.toInt).length < zeroes.length) := by
  intro after zeroes
  have counted : nearTheBottom.incrementBy (Utf8.encode "k") (-1) = (.ok Int64.minValue, after) :=
    Prod.ext (by decide +kernel) rfl
  have read : Decimal.int64? zeroes = some Int64.minValue := by decide +kernel
  obtain ⟨-, -, -, -, -, written⟩ := integer_text_exact
  obtain ⟨-, stored, -, -, -, shortest⟩ := written Int64.minValue
  exact ⟨counted, stored _ _ _ _ counted, read, shortest _ read⟩

end KvServer
