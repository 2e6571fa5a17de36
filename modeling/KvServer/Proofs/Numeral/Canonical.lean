import KvServer.Proofs.Numeral.Decimal

/-!
# The one text that is written for an integer

Many texts stand for an integer, and one of them is written: no zero in front of other digits, no `+`, and
a `-` only where the integer is negative.

* `Word.Fits`, the integers that 64 bits hold, and `int64?_eq_none_iff`: a text is read if it stands for one
* `IsPlain` and `Canonical`, the digits and the text without anything that could be left out
* `canonical_iff`: a text is canonical if and only if it is the one that is written
* `Canonical.int64?_eq`: it is read back as the integer it was written for
* `IsInteger.eq_ofInt_or_lt`: it is the shortest text that stands for its integer
-/

namespace KvServer

namespace Word

/-- Says that an integer fits into 64 bits. -/
def Fits (n : Int) : Prop :=
  -2 ^ 63 ≤ n ∧ n ≤ 2 ^ 63 - 1

instance (n : Int) : Decidable (Fits n) :=
  inferInstanceAs (Decidable (_ ∧ _))

theorem fits_iff_exists {n : Int} : Fits n ↔ ∃ word : Int64, word.toInt = n := by
  constructor
  · rintro ⟨low, high⟩
    exact ⟨Int64.ofInt n, toInt_ofInt_of_mem low high⟩
  · rintro ⟨word, rfl⟩
    exact ⟨Int64.minValue_le_toInt word, Int64.toInt_le word⟩

theorem fits_toInt (word : Int64) : Fits word.toInt :=
  fits_iff_exists.2 ⟨word, rfl⟩

theorem exists_toInt_iff (holds : Int → Prop) {n : Int} :
    (∃ word : Int64, word.toInt = n ∧ holds word.toInt) ↔ holds n ∧ Fits n := by
  rw [fits_iff_exists]
  constructor
  · rintro ⟨word, rfl, held⟩
    exact ⟨held, word, rfl⟩
  · rintro ⟨held, word, rfl⟩
    exact ⟨word, rfl, held⟩

end Word

namespace Decimal

/-- Digits that start with a zero only if they are that zero. -/
structure IsPlain (s : Bytes) (n : Nat) : Prop extends IsNatural s n where
  leading : s.head? = some 48 → s.length = 1

/-- The text of an integer with nothing in it that could be left out. -/
inductive Canonical : Bytes → Int → Prop where
  | natural {s : Bytes} {n : Nat} (plain : IsPlain s n) : Canonical s n
  | negative {s : Bytes} {n : Nat} (plain : IsPlain s n) (positive : 0 < n) :
    Canonical (minus :: s) (-n)

variable {s : Bytes}

/-! ## Integers that fit -/

theorem IsInteger.exists_word {n : Int} (integer : IsInteger s n) (fits : Word.Fits n) :
    ∃ word : Int64, word.toInt = n ∧ int64? s = some word := by
  obtain ⟨word, rfl⟩ := Word.fits_iff_exists.1 fits
  exact ⟨word, rfl, int64?_eq_some_iff.2 integer⟩

theorem int64?_eq_none_iff : int64? s = none ↔ ∀ n, IsInteger s n → ¬Word.Fits n := by
  constructor
  · intro unread n integer fits
    obtain ⟨word, -, read⟩ := integer.exists_word fits
    rw [unread] at read
    cases read
  · intro nothing
    refine Option.eq_none_iff_forall_ne_some.2 fun word read => ?_
    exact nothing _ (int64?_eq_some_iff.1 read) (Word.fits_toInt word)

/-! ## Digits -/

theorem digits_of_lt {n : Nat} (small : n < 10) : digits n = [48 + n.toUInt8] := by
  rw [digits, if_pos small]

theorem digits_of_ge {n : Nat} (large : 10 ≤ n) :
    digits n = digits (n / 10) ++ [48 + (n % 10).toUInt8] := by
  rw [digits, if_neg (by omega)]

theorem isPlain_digits (n : Nat) : IsPlain (digits n) n := by
  refine ⟨isNatural_digits n, ?_⟩
  fun_induction digits n with
  | case1 n small => exact fun _ => rfl
  | case2 n large ih =>
    intro zero
    rw [List.head?_append_of_ne_nil _ (isNatural_digits _).nonempty] at zero
    -- A zero in front is all that `n / 10` is written with, and then `n` has one digit.
    obtain ⟨b, single⟩ := List.length_eq_one_iff.1 (ih zero)
    rw [single, List.head?_singleton, Option.some.injEq] at zero
    have written := (isNatural_digits (n / 10)).value_eq
    rw [single, zero] at written
    have nothing : n / 10 = 0 := written.symm
    omega

theorem digitByte_of_isDigit {b : UInt8} (digit : IsDigit b) : 48 + (b.toNat - 48).toUInt8 = b := by
  obtain ⟨low, high⟩ := digit
  rw [UInt8.le_iff_toNat_le] at low high
  have low : 48 ≤ b.toNat := low
  have high : b.toNat ≤ 57 := high
  rw [← UInt8.toNat_inj, UInt8.toNat_add, UInt8.toNat_ofNat']
  change (48 + (b.toNat - 48) % 256) % 256 = b.toNat
  omega

theorem IsPlain.eq_digits {n : Nat} (plain : IsPlain s n) : s = digits n := by
  induction s using List.reverseRecOn generalizing n with
  | nil => exact absurd rfl plain.nonempty
  | append_singleton s b ih =>
    have digit : IsDigit b := plain.digits b (by simp)
    have small : b.toNat - 48 < 10 := by
      have high : b.toNat ≤ 57 := UInt8.le_iff_toNat_le.1 digit.2
      omega
    have total := plain.value_eq
    rw [value_append_singleton] at total
    by_cases single : s = []
    · subst single
      rw [value_nil] at total
      rw [digits_of_lt (by omega), ← total, Nat.mul_zero, Nat.add_zero, digitByte_of_isDigit digit]
      rfl
    · -- More digits follow the first one, which therefore is no zero.
      have noZero : s.head? ≠ some 48 := by
        intro zero
        rw [← List.head?_append_of_ne_nil s single] at zero
        exact single (by simpa using plain.leading zero)
      have front : s = digits (value s) :=
        ih ⟨⟨single, fun c member => plain.digits c (by simp [member]), rfl⟩,
          fun zero => absurd zero noZero⟩
      have positive : value s ≠ 0 := by
        intro zero
        rw [zero, digits_of_lt (by decide)] at front
        exact noZero (by rw [front]; rfl)
      rw [digits_of_ge (by omega), ← total, Nat.add_mul_div_left _ _ (by decide),
        Nat.div_eq_of_lt small, Nat.zero_add, ← front, Nat.add_mul_mod_self_left,
        Nat.mod_eq_of_lt small, digitByte_of_isDigit digit]

/-! ## Integers -/

theorem ofInt_natCast (n : Nat) : ofInt n = digits n := by
  rw [ofInt, if_neg (by omega), Int.natAbs_natCast]

theorem ofInt_neg {n : Nat} (positive : 0 < n) : ofInt (-n) = minus :: digits n := by
  rw [ofInt, if_pos (by omega), Int.natAbs_neg, Int.natAbs_natCast]

theorem canonical_ofInt (n : Int) : Canonical (ofInt n) n := by
  unfold ofInt
  split
  next negative =>
    have sign : n = -(n.natAbs : Int) := by omega
    rw [sign, Int.natAbs_neg, Int.natAbs_natCast]
    exact .negative (isPlain_digits _) (by omega)
  next positive =>
    have sign : n = (n.natAbs : Int) := by omega
    rw [sign, Int.natAbs_natCast]
    exact .natural (isPlain_digits _)

/-- An integer has one canonical text. -/
theorem canonical_iff {n : Int} : Canonical s n ↔ s = ofInt n := by
  constructor
  · intro canonical
    cases canonical with
    | natural plain =>
      rw [ofInt_natCast]
      exact plain.eq_digits
    | negative plain positive =>
      rw [ofInt_neg positive]
      exact congrArg (minus :: ·) plain.eq_digits
  · rintro rfl
    exact canonical_ofInt n

/-- A canonical text stands for its integer. -/
theorem Canonical.isInteger {n : Int} (canonical : Canonical s n) : IsInteger s n := by
  cases canonical with
  | natural plain => exact .numeral (.bare plain.toIsNatural)
  | negative plain => exact .numeral (.minus plain.toIsNatural)

theorem Canonical.int64?_eq {n : Int64} (canonical : Canonical s n.toInt) : int64? s = some n :=
  int64?_eq_some_iff.2 canonical.isInteger

/-! ## Other texts -/

/-- A zero in front of digits adds nothing to them. -/
theorem IsNatural.of_zero_cons {n : Nat} (natural : IsNatural (48 :: s) n) (more : s ≠ []) :
    IsNatural s n :=
  ⟨more, fun b member => natural.digits b (List.mem_cons_of_mem _ member),
    by simpa [value_cons] using natural.value_eq⟩

theorem IsNatural.eq_digits_or_lt {n : Nat} (natural : IsNatural s n) :
    s = Decimal.digits n ∨ (Decimal.digits n).length < s.length := by
  induction s with
  | nil => exact absurd rfl natural.nonempty
  | cons b s ih =>
    by_cases padded : b = 48 ∧ s ≠ []
    · obtain ⟨rfl, more⟩ := padded
      refine .inr ?_
      rcases ih (natural.of_zero_cons more) with same | shorter
      · rw [← same]
        exact Nat.lt_succ_self _
      · exact Nat.lt_succ_of_lt shorter
    · refine .inl (IsPlain.eq_digits ⟨natural, fun zero => ?_⟩)
      have single : s = [] := by simpa [Option.some_inj.1 zero] using padded
      rw [single, List.length_singleton]

/-- Whatever else stands for an integer is longer than the text that is written for it. -/
theorem IsInteger.eq_ofInt_or_lt {n : Int} (integer : IsInteger s n) :
    s = ofInt n ∨ (ofInt n).length < s.length := by
  cases integer with
  | numeral numeral =>
    cases numeral with
    | bare natural =>
      rw [ofInt_natCast]
      exact natural.eq_digits_or_lt
    | @minus s k natural =>
      rcases Nat.eq_zero_or_pos k with rfl | positive
      · -- The `-` is left out in front of a zero.
        have zero : ofInt (-(0 : Nat)) = digits 0 := ofInt_natCast 0
        rw [zero, digits_of_lt (by decide)]
        exact .inr (Nat.succ_lt_succ (List.length_pos_iff.2 natural.nonempty))
      · rw [ofInt_neg positive, List.cons.injEq, List.length_cons, List.length_cons,
          Nat.succ_lt_succ_iff]
        exact natural.eq_digits_or_lt.imp_left fun same => ⟨rfl, same⟩
  | plus natural =>
    rw [ofInt_natCast, List.length_cons]
    rcases natural.eq_digits_or_lt with same | shorter
    · exact .inr (by rw [← same]; exact Nat.lt_succ_self _)
    · exact .inr (Nat.lt_succ_of_lt shorter)

end Decimal

end KvServer
