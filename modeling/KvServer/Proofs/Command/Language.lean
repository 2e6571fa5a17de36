import KvServer.Command.Basic
import KvServer.Proofs.Numeral.Canonical

/-!
# The language of commands

A request is a command if its first argument spells a name, in letters of any case, and the others are what
that name takes. This is said here without the reader of commands: which argument lists render a command,
and which fault of a list that renders none comes first.

* `Bytes.SameUpToCase`, texts that differ in the case of ASCII letters only
* `Command.Renders`, the lists that render a command, and `Command.rendered`, one of them
* `Refusal`, the first fault of any other list
* `renders_or_refusal`: every list is one or the other
* `Command.ofArguments_exact`: commands are read so
-/

namespace KvServer

namespace Bytes

/-- Two bytes that are equal, or a capital and its small letter. -/
inductive SameLetter : UInt8 → UInt8 → Prop where
  | same (b : UInt8) : SameLetter b b
  | lowered {b : UInt8} (capital : 65 ≤ b ∧ b ≤ 90) : SameLetter b (b + 32)
  | raised {b : UInt8} (capital : 65 ≤ b ∧ b ≤ 90) : SameLetter (b + 32) b

/-- Texts that differ in the case of ASCII letters only. -/
def SameUpToCase : Bytes → Bytes → Prop :=
  List.Forall₂ SameLetter

theorem lowerByte_of_capital {b : UInt8} (capital : 65 ≤ b ∧ b ≤ 90) :
    lowerByte b = b + 32 ∧ lowerByte (b + 32) = b + 32 := by
  refine ⟨if_pos capital, if_neg fun twice => ?_⟩
  obtain ⟨low, high⟩ := capital
  obtain ⟨-, small⟩ := twice
  rw [UInt8.le_iff_toNat_le] at low high small
  rw [UInt8.toNat_add] at small
  have low : 65 ≤ b.toNat := low
  have high : b.toNat ≤ 90 := high
  have small : (b.toNat + 32) % 256 ≤ 90 := small
  omega

theorem sameLetter_iff {b c : UInt8} : SameLetter b c ↔ lowerByte b = lowerByte c := by
  constructor
  · rintro (_ | capital | capital)
    · rfl
    · rw [(lowerByte_of_capital capital).1, (lowerByte_of_capital capital).2]
    · rw [(lowerByte_of_capital capital).1, (lowerByte_of_capital capital).2]
  · intro same
    by_cases capital : 65 ≤ b ∧ b ≤ 90
    · by_cases capital' : 65 ≤ c ∧ c ≤ 90
      · rw [(lowerByte_of_capital capital).1, (lowerByte_of_capital capital').1] at same
        rw [(UInt8.add_left_inj 32).1 same]
        exact .same c
      · rw [(lowerByte_of_capital capital).1, lowerByte, if_neg capital'] at same
        rw [← same]
        exact .lowered capital
    · rw [lowerByte, if_neg capital] at same
      by_cases capital' : 65 ≤ c ∧ c ≤ 90
      · rw [same, (lowerByte_of_capital capital').1]
        exact .raised capital'
      · rw [same, lowerByte, if_neg capital']
        exact .same c

theorem sameUpToCase_iff {s t : Bytes} : SameUpToCase s t ↔ s.lowered = t.lowered := by
  unfold SameUpToCase lowered
  rw [← List.forall₂_eq_eq_eq, List.forall₂_map_left_iff, List.forall₂_map_right_iff]
  simp only [funext₂ fun b c => propext (sameLetter_iff (b := b) (c := c))]

theorem lowered_of_small {s : Bytes} (small : ∀ b ∈ s, 97 ≤ b ∧ b ≤ 122) : s.lowered = s := by
  have kept : ∀ b ∈ s, lowerByte b = id b := by
    intro b member
    refine if_neg fun capital => ?_
    exact absurd (UInt8.le_trans (small b member).1 capital.2) (by decide)
  rw [lowered, List.map_congr_left kept, List.map_id]

end Bytes

open Bytes (SameUpToCase)

/-! ## Names -/

namespace CommandName

/-- Says that some bytes spell a name. -/
def Spelled (name : CommandName) (first : Bytes) : Prop :=
  SameUpToCase first (Utf8.encode name.text)

/-- How many arguments a command can have behind its name. -/
def Takes : CommandName → Nat → Prop
  | .ping, count => count ≤ 1
  | .get, count | .incr, count | .ttl, count => count = 1
  | .set, count | .expire, count => count = 2

theorem small_of_mem_text (name : CommandName) :
    ∀ b ∈ Utf8.encode name.text, 97 ≤ b ∧ b ≤ 122 := by
  have small : (Utf8.encode name.text).all fun b => decide (97 ≤ b ∧ b ≤ 122) := by
    cases name <;> rfl
  exact fun b member => of_decide_eq_true (List.all_eq_true.1 small b member)

theorem spelled_iff {name : CommandName} {first : Bytes} :
    name.Spelled first ↔ first.lowered = Utf8.encode name.text := by
  rw [Spelled, Bytes.sameUpToCase_iff, Bytes.lowered_of_small name.small_of_mem_text]

theorem text_injective {name other : CommandName} (same : name.text = other.text) : name = other := by
  revert same
  cases name <;> cases other <;> decide

theorem spelled_of_ofBytes? {name : CommandName} {first : Bytes}
    (found : ofBytes? first = some name) : name.Spelled first := by
  unfold ofBytes? at found
  have same := List.find?_some found
  exact spelled_iff.2 (beq_iff_eq.1 same)

/-- Some bytes spell one name or none. -/
theorem ofBytes?_eq_some_iff {name : CommandName} {first : Bytes} :
    ofBytes? first = some name ↔ name.Spelled first := by
  refine ⟨spelled_of_ofBytes?, fun spelled => ?_⟩
  have spelled := spelled_iff.1 spelled
  cases found : ofBytes? first with
  | none =>
    unfold ofBytes? at found
    exact absurd (beq_iff_eq.2 spelled) (List.find?_eq_none.1 found name (mem_all name))
  | some other =>
    have spelled' := spelled_iff.1 (spelled_of_ofBytes? found)
    rw [text_injective (Utf8.encode_injective (spelled'.symm.trans spelled))]

theorem ofBytes?_eq_none_iff {first : Bytes} :
    ofBytes? first = none ↔ ∀ name : CommandName, ¬name.Spelled first := by
  rw [Option.eq_none_iff_forall_ne_some]
  simp only [ne_eq, ofBytes?_eq_some_iff]

end CommandName

/-! ## Renderings and refusals -/

namespace Command

/-- What stands behind the name of a command. -/
inductive Operands : Command → List Bytes → Prop where
  | ping : Operands (.ping none) []
  | echo (message : Bytes) : Operands (.ping (some message)) [message]
  | get (key : Bytes) : Operands (.get key) [key]
  | set (key value : Bytes) : Operands (.set key value) [key, value]
  | incr (key : Bytes) : Operands (.incr key) [key]
  | expire (key : Bytes) {text : Bytes} {seconds : UInt64}
    (integer : Decimal.IsInteger text seconds.toNat) (bounded : seconds.toNat ≤ 2 ^ 63 - 1) :
    Operands (.expire key seconds) [key, text]
  | ttl (key : Bytes) : Operands (.ttl key) [key]

/-- The argument lists that render a command. -/
inductive Renders (command : Command) : List Bytes → Prop where
  | named {first : Bytes} {operands : List Bytes} (spelled : command.name.Spelled first)
    (behind : command.Operands operands) : Renders command (first :: operands)

def operands : Command → List Bytes
  | .ping message? => message?.toList
  | .get key | .incr key | .ttl key => [key]
  | .set key value => [key, value]
  | .expire key seconds => [key, Decimal.ofInt seconds.toNat]

/-- A command as a client writes it. -/
def rendered (command : Command) : List Bytes :=
  Utf8.encode command.name.text :: command.operands

end Command

/-- The first fault of an argument list that renders no command. -/
inductive Refusal : List Bytes → CommandError → Prop where
  | empty : Refusal [] .empty
  | unknown {first : Bytes} (operands : List Bytes)
    (unnamed : ∀ name : CommandName, ¬name.Spelled first) :
    Refusal (first :: operands) (.unknown first)
  | wrongArity {name : CommandName} {first : Bytes} {operands : List Bytes}
    (spelled : name.Spelled first) (count : ¬name.Takes operands.length) :
    Refusal (first :: operands) (.wrongArity name)
  | notAnInteger {first text : Bytes} (key : Bytes) (spelled : CommandName.expire.Spelled first)
    (nothing : ∀ n, Decimal.IsInteger text n → ¬Word.Fits n) :
    Refusal [first, key, text] .notAnInteger
  | negative {first text : Bytes} {n : Int} (key : Bytes)
    (spelled : CommandName.expire.Spelled first) (integer : Decimal.IsInteger text n)
    (fits : Word.Fits n) (negative : n < 0) : Refusal [first, key, text] .invalidExpireTime

namespace Command

/-! ## Seconds -/

theorem seconds_of_isInteger {text : Bytes} {count : UInt64}
    (integer : Decimal.IsInteger text count.toNat) (bounded : count.toNat ≤ 2 ^ 63 - 1) :
    seconds text = .ok count := by
  obtain ⟨word, value, read⟩ := integer.exists_word ⟨by omega, by omega⟩
  have positive : ¬word < 0 := by
    have zero : (0 : Int64).toInt = 0 := rfl
    rw [Int64.lt_iff_toInt_lt, value, zero]
    omega
  simp [seconds, read, positive, value]

theorem seconds_of_negative {text : Bytes} {n : Int} (integer : Decimal.IsInteger text n)
    (fits : Word.Fits n) (negative : n < 0) : seconds text = .error .invalidExpireTime := by
  obtain ⟨word, rfl, read⟩ := integer.exists_word fits
  have below : word < 0 := Int64.lt_iff_toInt_lt.2 negative
  simp [seconds, read, below]

theorem seconds_of_not_integer {text : Bytes}
    (nothing : ∀ n, Decimal.IsInteger text n → ¬Word.Fits n) :
    seconds text = .error .notAnInteger := by
  rw [seconds, Decimal.int64?_eq_none_iff.2 nothing]

/-! ## Reading -/

theorem ofArguments_of_spelled {name : CommandName} {first : Bytes}
    (spelled : name.Spelled first) (operands : List Bytes) :
    ofArguments (first :: operands) = ofName name operands := by
  rw [ofArguments, CommandName.ofBytes?_eq_some_iff.2 spelled]

theorem ofName_of_operands {command : Command} {operands : List Bytes}
    (behind : command.Operands operands) : ofName command.name operands = .ok command := by
  cases behind with
  | expire key integer bounded =>
    rw [name, ofName, seconds_of_isInteger integer bounded]
    rfl
  | _ => rfl

theorem ofName_of_not_takes {name : CommandName} {operands : List Bytes}
    (count : ¬name.Takes operands.length) : ofName name operands = .error (.wrongArity name) := by
  fun_cases ofName name operands with
  | case8 => rfl
  | _ => simp [CommandName.Takes] at count

theorem ofArguments_of_renders {command : Command} {arguments : List Bytes}
    (renders : command.Renders arguments) : ofArguments arguments = .ok command := by
  obtain ⟨spelled, behind⟩ := renders
  rw [ofArguments_of_spelled spelled, ofName_of_operands behind]

theorem ofArguments_of_refusal {arguments : List Bytes} {error : CommandError}
    (refusal : Refusal arguments error) : ofArguments arguments = .error error := by
  cases refusal with
  | empty => rfl
  | unknown operands unnamed => rw [ofArguments, CommandName.ofBytes?_eq_none_iff.2 unnamed]
  | wrongArity spelled count => rw [ofArguments_of_spelled spelled, ofName_of_not_takes count]
  | notAnInteger key spelled nothing =>
    rw [ofArguments_of_spelled spelled, ofName, seconds_of_not_integer nothing]
    rfl
  | negative key spelled integer fits negative =>
    rw [ofArguments_of_spelled spelled, ofName, seconds_of_negative integer fits negative]
    rfl

/-! ## Nothing else -/

/-- A text stands for a number of seconds, for no integer, or for a negative one. -/
theorem seconds_cases (text : Bytes) :
    (∃ count : UInt64, Decimal.IsInteger text count.toNat ∧ count.toNat ≤ 2 ^ 63 - 1) ∨
      (∀ n, Decimal.IsInteger text n → ¬Word.Fits n) ∨
      ∃ n, Decimal.IsInteger text n ∧ Word.Fits n ∧ n < 0 := by
  by_cases integer : ∃ n, Decimal.IsInteger text n ∧ Word.Fits n
  · obtain ⟨n, integer, fits⟩ := integer
    by_cases negative : n < 0
    · exact .inr (.inr ⟨n, integer, fits, negative⟩)
    · have high : n ≤ 2 ^ 63 - 1 := fits.2
      have value : (UInt64.ofNat n.toNat).toNat = n.toNat :=
        UInt64.toNat_ofNat_of_lt (by simp only [UInt64.size]; omega)
      have same : (n.toNat : Int) = n := by omega
      refine .inl ⟨UInt64.ofNat n.toNat, ?_, by omega⟩
      rwa [value, same]
  · exact .inr (.inl fun n stands fits => integer ⟨n, stands, fits⟩)

theorem exists_operands {name : CommandName} {operands : List Bytes} (timeless : name ≠ .expire)
    (count : name.Takes operands.length) :
    ∃ command : Command, command.name = name ∧ command.Operands operands := by
  cases name with
  | expire => exact absurd rfl timeless
  | ping =>
    match operands, count with
    | [], _ => exact ⟨_, rfl, .ping⟩
    | [message], _ => exact ⟨_, rfl, .echo message⟩
  | set =>
    obtain ⟨key, value, rfl⟩ := List.length_eq_two.1 count
    exact ⟨_, rfl, .set key value⟩
  | get =>
    obtain ⟨key, rfl⟩ := List.length_eq_one_iff.1 count
    exact ⟨_, rfl, .get key⟩
  | incr =>
    obtain ⟨key, rfl⟩ := List.length_eq_one_iff.1 count
    exact ⟨_, rfl, .incr key⟩
  | ttl =>
    obtain ⟨key, rfl⟩ := List.length_eq_one_iff.1 count
    exact ⟨_, rfl, .ttl key⟩

/-- An argument list renders a command or has a first fault. -/
theorem renders_or_refusal (arguments : List Bytes) :
    (∃ command : Command, command.Renders arguments) ∨ ∃ error, Refusal arguments error := by
  cases arguments with
  | nil => exact .inr ⟨_, .empty⟩
  | cons first operands =>
    by_cases named : ∃ name : CommandName, name.Spelled first
    · obtain ⟨name, spelled⟩ := named
      by_cases count : name.Takes operands.length
      · by_cases timed : name = .expire
        · subst timed
          obtain ⟨key, text, rfl⟩ := List.length_eq_two.1 count
          rcases seconds_cases text with ⟨seconds, integer, bounded⟩ | nothing | negative
          · exact .inl ⟨.expire key seconds, spelled, .expire key integer bounded⟩
          · exact .inr ⟨_, .notAnInteger key spelled nothing⟩
          · obtain ⟨n, integer, fits, negative⟩ := negative
            exact .inr ⟨_, .negative key spelled integer fits negative⟩
        · obtain ⟨command, rfl, behind⟩ := exists_operands timed count
          exact .inl ⟨command, spelled, behind⟩
      · exact .inr ⟨_, .wrongArity spelled count⟩
    · exact .inr ⟨_, .unknown operands fun name spelled => named ⟨name, spelled⟩⟩

theorem ofArguments_eq_ok_iff {arguments : List Bytes} {command : Command} :
    ofArguments arguments = .ok command ↔ command.Renders arguments := by
  refine ⟨fun read => ?_, ofArguments_of_renders⟩
  rcases renders_or_refusal arguments with ⟨other, renders⟩ | ⟨error, refusal⟩
  · rw [ofArguments_of_renders renders] at read
    cases read
    exact renders
  · rw [ofArguments_of_refusal refusal] at read
    cases read

theorem ofArguments_eq_error_iff {arguments : List Bytes} {error : CommandError} :
    ofArguments arguments = .error error ↔ Refusal arguments error := by
  refine ⟨fun refused => ?_, ofArguments_of_refusal⟩
  rcases renders_or_refusal arguments with ⟨command, renders⟩ | ⟨other, refusal⟩
  · rw [ofArguments_of_renders renders] at refused
    cases refused
  · rw [ofArguments_of_refusal refusal] at refused
    cases refused
    exact refusal

/-! ## Writing -/

/-- Says that a command asks for no more seconds than an integer of 64 bits can tell. -/
def Tellable (command : Command) : Prop :=
  ∀ key seconds, command = .expire key seconds → seconds.toNat ≤ 2 ^ 63 - 1

theorem renders_rendered {command : Command} (tellable : command.Tellable) :
    command.Renders command.rendered := by
  refine ⟨CommandName.spelled_iff.2 (Bytes.lowered_of_small command.name.small_of_mem_text), ?_⟩
  cases command with
  | ping message? => cases message? <;> constructor
  | get key => exact .get key
  | set key value => exact .set key value
  | incr key => exact .incr key
  | ttl key => exact .ttl key
  | expire key seconds =>
    exact .expire key (Decimal.canonical_ofInt _).isInteger (tellable key seconds rfl)

/-- The argument lists that are read as a command are those that render it, and any other list is refused
for its first fault: that it is empty, spells no name, has the wrong number of arguments for its name, or
holds a time that is no integer or is negative. A command is read back from what a client writes for it,
reading never meets an overflow, and a name may be spelled in letters of any case; in a refusal it stands
in small letters. -/
theorem ofArguments_exact :
    (∀ arguments command, ofArguments arguments = .ok command ↔ command.Renders arguments) ∧
      (∀ arguments error, ofArguments arguments = .error error ↔ Refusal arguments error) ∧
      (∀ command : Command, command.Tellable → ofArguments command.rendered = .ok command) ∧
      (∀ arguments, ofArguments arguments ≠ .error .overflow) ∧
      (∀ (name : CommandName) (first other : Bytes) (operands : List Bytes), name.Spelled first →
        SameUpToCase first other →
          ofArguments (first :: operands) = ofArguments (other :: operands)) ∧
      ∀ name : CommandName, ∀ b ∈ Utf8.encode name.text, 97 ≤ b ∧ b ≤ 122 := by
  refine ⟨fun _ _ => ofArguments_eq_ok_iff, fun _ _ => ofArguments_eq_error_iff,
    fun command tellable => ofArguments_of_renders (renders_rendered tellable),
    fun arguments refused => ?_, fun name first other operands spelled same => ?_,
    CommandName.small_of_mem_text⟩
  · cases ofArguments_eq_error_iff.1 refused
  · rw [CommandName.spelled_iff] at spelled
    have spelled' := (Bytes.sameUpToCase_iff.1 same).symm.trans spelled
    rw [ofArguments_of_spelled (CommandName.spelled_iff.2 spelled),
      ofArguments_of_spelled (CommandName.spelled_iff.2 spelled')]

theorem ofArguments_exact_anyCase :
    let key := Utf8.encode "k"
    let longest := expire key 9223372036854775807
    (longest.Tellable ∧ ofArguments longest.rendered = .ok longest) ∧
      (CommandName.expire.Spelled (Utf8.encode "Expire") ∧
        SameUpToCase (Utf8.encode "Expire") (Utf8.encode "eXPIRE") ∧
        ofArguments [Utf8.encode "Expire", key, Utf8.encode "-007"] =
          ofArguments [Utf8.encode "eXPIRE", key, Utf8.encode "-007"]) ∧
      Refusal [Utf8.encode "eXPIRE", key, Utf8.encode "-007"] .invalidExpireTime ∧
      (expire key 0).Renders [Utf8.encode "expirE", key, Utf8.encode "-00"] := by
  intro key longest
  obtain ⟨commands, refusals, readBack, -, anyCase, -⟩ := ofArguments_exact
  have tellable : longest.Tellable := by
    intro _ _ same
    cases (Command.expire.inj same).2
    decide
  have spelled : CommandName.expire.Spelled (Utf8.encode "Expire") :=
    CommandName.spelled_iff.2 (by decide)
  have same : SameUpToCase (Utf8.encode "Expire") (Utf8.encode "eXPIRE") :=
    Bytes.sameUpToCase_iff.2 (by decide)
  exact ⟨⟨tellable, readBack longest tellable⟩, ⟨spelled, same, anyCase _ _ _ _ spelled same⟩,
    (refusals _ _).1 (by decide), (commands _ _).1 (by decide)⟩

end Command

end KvServer
