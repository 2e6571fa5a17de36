import KvServer.Numeral.Decimal
import KvServer.Numeral.Word
import Mathlib.Data.Nat.Digits.Lemmas

/-!
# What integer text stands for

Readers and writers of integer text are measured against one notation: digits in base ten, the most
significant first, behind an optional sign.

* `IsNatural`, `Numeral` and `IsInteger`: digits, digits with an optional `-`, and the same or a `+`
* `length?_eq_some_iff`, `int64?_eq_some_iff`: what is read, and as what
* `numeral_ofInt`: what is written stands for what was to be written
-/

namespace KvServer.Decimal

/-- The bytes `0` to `9`. -/
def IsDigit (b : UInt8) : Prop := 48 ≤ b ∧ b ≤ 57

instance (b : UInt8) : Decidable (IsDigit b) :=
  inferInstanceAs (Decidable (48 ≤ b ∧ b ≤ 57))

/-- The number that digits stand for, the most significant one first. -/
def value (s : Bytes) : Nat :=
  Nat.ofDigits 10 (s.reverse.map fun b => b.toNat - 48)

/-- One or more digits that stand for a number. -/
structure IsNatural (s : Bytes) (n : Nat) : Prop where
  nonempty : s ≠ []
  digits : ∀ b ∈ s, IsDigit b
  value_eq : value s = n

/-- Digits behind an optional `-`. -/
inductive Numeral : Bytes → Int → Prop where
  | bare {s : Bytes} {n : Nat} (natural : IsNatural s n) : Numeral s n
  | minus {s : Bytes} {n : Nat} (natural : IsNatural s n) : Numeral (minus :: s) (-n)

/-- Digits behind an optional sign. -/
inductive IsInteger : Bytes → Int → Prop where
  | numeral {s : Bytes} {n : Int} (numeral : Numeral s n) : IsInteger s n
  | plus {s : Bytes} {n : Nat} (natural : IsNatural s n) : IsInteger (plus :: s) n

/-! ## Values -/

@[simp] theorem value_nil : value [] = 0 := rfl

theorem value_append_singleton (s : Bytes) (b : UInt8) :
    value (s ++ [b]) = b.toNat - 48 + 10 * value s := by
  simp [value, Nat.ofDigits_cons]

theorem value_cons (b : UInt8) (s : Bytes) :
    value (b :: s) = (b.toNat - 48) * 10 ^ s.length + value s := by
  simp [value, Nat.ofDigits_append, Nat.ofDigits_singleton, Nat.mul_comm, Nat.add_comm]

theorem digit?_eq_some_iff {b : UInt8} {d : Nat} :
    digit? b = some d ↔ IsDigit b ∧ b.toNat - 48 = d := by
  unfold digit? IsDigit
  split <;> simp_all

theorem not_isDigit_of_digit? {b : UInt8} (other : digit? b = none) : ¬IsDigit b := by
  intro digit
  rw [digit?_eq_some_iff.2 ⟨digit, rfl⟩] at other
  cases other

/-! ## Reading -/

/-- A value past the limit never comes back below it, so it does not matter that reading stops at the
first digit that passes it. -/
theorem readDigits_eq_ok_iff {limit : Nat} {beyond : Fault} {read n : Nat} {s : Bytes} :
    readDigits limit beyond read s = .ok n ↔
      (∀ b ∈ s, IsDigit b) ∧ read * 10 ^ s.length + value s = n ∧ (s = [] ∨ n ≤ limit) := by
  induction s generalizing read with
  | nil => simp [readDigits]
  | cons b s ih =>
    simp only [readDigits]
    cases digit : digit? b with
    | none =>
      have other := not_isDigit_of_digit? digit
      simp [other]
    | some d =>
      obtain ⟨isDigit, rfl⟩ := digit?_eq_some_iff.1 digit
      have split : read * 10 ^ (s.length + 1) + ((b.toNat - 48) * 10 ^ s.length + value s) =
          (10 * read + (b.toNat - 48)) * 10 ^ s.length + value s := by ring
      have grows : 10 * read + (b.toNat - 48) ≤
          (10 * read + (b.toNat - 48)) * 10 ^ s.length + value s :=
        Nat.le_add_right_of_le (Nat.le_mul_of_pos_right _ (Nat.pow_pos (by decide)))
      dsimp only
      -- From here on the value read so far is `10 * read + d`, on both sides.
      rw [value_cons, List.length_cons, split]
      split
      next past =>
        -- The value only grows with the digits that follow.
        refine iff_of_false nofun ?_
        rintro ⟨_, total, empty | bound⟩
        · cases empty
        · omega
      next within =>
        rw [ih]
        constructor
        · rintro ⟨digits, total, bound⟩
          refine ⟨List.forall_mem_cons.2 ⟨isDigit, digits⟩, total, .inr ?_⟩
          rcases bound with rfl | bound
          · simp at total
            omega
          · exact bound
        · rintro ⟨digits, total, bound⟩
          refine ⟨(List.forall_mem_cons.1 digits).2, total, .inr ?_⟩
          simpa using bound

theorem natural_eq_ok_iff {limit : Nat} {beyond : Fault} {n : Nat} {s : Bytes} :
    natural limit beyond s = .ok n ↔ IsNatural s n ∧ n ≤ limit := by
  unfold natural
  split
  next empty =>
    subst empty
    simp only [reduceCtorEq, false_iff]
    exact fun h => h.1.nonempty rfl
  next nonempty =>
    rw [readDigits_eq_ok_iff]
    constructor
    · rintro ⟨digits, total, bound⟩
      exact ⟨⟨nonempty, digits, by simpa using total⟩, bound.resolve_left nonempty⟩
    · rintro ⟨⟨_, digits, total⟩, bound⟩
      exact ⟨digits, by simpa using total, .inr bound⟩

theorem not_isDigit_minus : ¬IsDigit minus := by decide

theorem not_isDigit_plus : ¬IsDigit plus := by decide

theorem IsNatural.head_isDigit {b : UInt8} {s : Bytes} {n : Nat} (natural : IsNatural (b :: s) n) :
    IsDigit b :=
  natural.digits b List.mem_cons_self

/-- Digits up to a limit read as an integer, when the limit is the last number whose signed value
fits into 64 bits. -/
theorem natural_map_eq_some_iff {limit : Nat} {beyond : Fault} {signed : Int → Int} {s : Bytes}
    {n : Int64}
    (fits : ∀ k : Nat, k ≤ limit ↔
      Int64.minValue.toInt ≤ signed k ∧ signed k ≤ Int64.maxValue.toInt) :
    (Except.map (fun m => Int64.ofInt (signed m)) (do
        let k ← natural limit beyond s
        pure (k : Int))).toOption = some n ↔
      ∃ k : Nat, IsNatural s k ∧ n.toInt = signed k := by
  constructor
  · intro read
    cases digits : natural limit beyond s with
    | error fault =>
      rw [digits] at read
      cases read
    | ok k =>
      rw [digits] at read
      cases read
      obtain ⟨natural, bound⟩ := natural_eq_ok_iff.1 digits
      obtain ⟨low, high⟩ := (fits k).1 bound
      exact ⟨k, natural, Word.toInt_ofInt_of_mem low high⟩
  · rintro ⟨k, natural, signedValue⟩
    have bound : k ≤ limit :=
      (fits k).2 (signedValue ▸ ⟨Int64.minValue_le_toInt n, Int64.toInt_le n⟩)
    rw [natural_eq_ok_iff.2 ⟨natural, bound⟩]
    change some (Int64.ofInt (signed k)) = some n
    rw [← signedValue, Int64.ofInt_toInt]

theorem int64?_minus_eq_some_iff {s : Bytes} {n : Int64} :
    int64? (minus :: s) = some n ↔ ∃ k : Nat, IsNatural s k ∧ n.toInt = -k := by
  have limit : Int64.minValue.toInt.natAbs = 9223372036854775808 := rfl
  rw [int64?, int64, if_pos rfl, limit]
  apply natural_map_eq_some_iff
  intro k
  rw [Int64.toInt_minValue, Int64.toInt_maxValue]
  omega

/-- Without a minus sign in front, the digits are what is left behind an optional `+`. -/
theorem int64?_eq_some_iff_of_ne {b : UInt8} {s : Bytes} {n : Int64} (unsigned : b ≠ minus) :
    int64? (b :: s) = some n ↔
      ∃ k : Nat, IsNatural (if b = plus then s else b :: s) k ∧ n.toInt = k := by
  have limit : Int64.maxValue.toInt.natAbs = 9223372036854775807 := rfl
  rw [int64?, int64, if_neg unsigned, limit]
  apply natural_map_eq_some_iff
  intro k
  rw [Int64.toInt_minValue, Int64.toInt_maxValue]
  omega

theorem IsNatural.not_mem {s : Bytes} {n : Nat} {b : UInt8} (natural : IsNatural s n)
    (other : ¬IsDigit b) : b ∉ s :=
  fun member => other (natural.digits b member)

theorem IsNatural.ne_sign {b : UInt8} {s : Bytes} {n : Nat} (natural : IsNatural (b :: s) n) :
    b ≠ minus ∧ b ≠ plus := by
  constructor
  · rintro rfl
    exact not_isDigit_minus natural.head_isDigit
  · rintro rfl
    exact not_isDigit_plus natural.head_isDigit

theorem int64?_eq_some_iff {s : Bytes} {n : Int64} : int64? s = some n ↔ IsInteger s n.toInt := by
  constructor
  · intro read
    cases s with
    | nil => cases read
    | cons b s =>
      by_cases negative : b = minus
      · subst negative
        obtain ⟨k, natural, value⟩ := int64?_minus_eq_some_iff.1 read
        rw [value]
        exact .numeral (.minus natural)
      · obtain ⟨k, natural, value⟩ := (int64?_eq_some_iff_of_ne negative).1 read
        rw [value]
        split at natural
        next positive =>
          subst positive
          exact .plus natural
        next => exact .numeral (.bare natural)
  · intro integer
    generalize value : n.toInt = m at integer
    cases integer with
    | numeral numeral =>
      cases numeral with
      | minus natural => exact int64?_minus_eq_some_iff.2 ⟨_, natural, value⟩
      | bare natural =>
        cases s with
        | nil => exact absurd rfl natural.nonempty
        | cons b s =>
          obtain ⟨notMinus, notPlus⟩ := natural.ne_sign
          exact (int64?_eq_some_iff_of_ne notMinus).2 ⟨_, by rwa [if_neg notPlus], value⟩
    | plus natural => exact (int64?_eq_some_iff_of_ne (by decide)).2 ⟨_, natural, value⟩

theorem Numeral.head_ne_plus {s : Bytes} {n : Int} (numeral : Numeral s n) :
    s.head? ≠ some plus := by
  cases numeral with
  | minus => nofun
  | bare natural =>
    cases s with
    | nil => nofun
    | cons b s =>
      intro head
      exact natural.ne_sign.2 (Option.some_inj.1 head)

/-- A numeral stands for one number. -/
theorem Numeral.unique {s : Bytes} {n m : Int} (numeral : Numeral s n) (other : Numeral s m) :
    n = m := by
  cases numeral with
  | bare natural =>
    cases other with
    | bare natural' => rw [← natural.value_eq, ← natural'.value_eq]
    | minus => exact absurd rfl natural.ne_sign.1
  | minus natural =>
    cases other with
    | bare natural' => exact absurd rfl natural'.ne_sign.1
    | minus natural' => rw [← natural.value_eq, ← natural'.value_eq]

theorem length?_eq_some_iff {s : Bytes} {n : Int64} : length? s = some n ↔ Numeral s n.toInt := by
  unfold length?
  split
  next positive => exact iff_of_false nofun fun numeral => numeral.head_ne_plus positive
  next other =>
    rw [int64?_eq_some_iff]
    constructor
    · intro integer
      generalize n.toInt = m at integer
      cases integer with
      | numeral numeral => exact numeral
      | plus => exact absurd rfl other
    · exact .numeral

/-! ## Writing -/

theorem digitByte : ∀ d < 10,
    IsDigit (48 + d.toUInt8) ∧ (48 + d.toUInt8).toNat - 48 = d := by
  decide

theorem isNatural_digits (n : Nat) : IsNatural (digits n) n := by
  fun_induction digits n with
  | case1 n small =>
    obtain ⟨isDigit, last⟩ := digitByte n small
    refine ⟨List.cons_ne_nil _ _, List.forall_mem_singleton.2 isDigit, ?_⟩
    simpa [value] using last
  | case2 n large ih =>
    obtain ⟨isDigit, last⟩ := digitByte (n % 10) (Nat.mod_lt n (by decide))
    refine ⟨List.append_ne_nil_of_right_ne_nil _ (List.cons_ne_nil _ _), ?_, ?_⟩
    · exact List.forall_mem_append.2 ⟨ih.digits, List.forall_mem_singleton.2 isDigit⟩
    · rw [value_append_singleton, last, ih.value_eq]
      exact Nat.mod_add_div n 10

theorem length_digits_le {n k : Nat} (small : n < 10 ^ (k + 1)) : (digits n).length ≤ k + 1 := by
  induction k generalizing n with
  | zero =>
    rw [digits, if_pos (by simpa using small)]
    exact Nat.le_refl 1
  | succ k ih =>
    rw [digits]
    split
    next => exact Nat.succ_le_succ (Nat.zero_le _)
    next =>
      have shorter : n / 10 < 10 ^ (k + 1) := Nat.div_lt_of_lt_mul (by rwa [← Nat.pow_succ'])
      simpa using ih shorter

theorem numeral_ofInt (n : Int) : Numeral (ofInt n) n := by
  unfold ofInt
  split
  next negative =>
    have sign : n = -(n.natAbs : Int) := by omega
    rw [sign, Int.natAbs_neg, Int.natAbs_natCast]
    exact .minus (isNatural_digits _)
  next positive =>
    have sign : n = (n.natAbs : Int) := by omega
    rw [sign, Int.natAbs_natCast]
    exact .bare (isNatural_digits _)

theorem ofInt_injective {n m : Int} (same : ofInt n = ofInt m) : n = m := by
  have written := numeral_ofInt n
  rw [same] at written
  exact written.unique (numeral_ofInt m)

end KvServer.Decimal
