import KvServer.Proofs.Transport.Contiguous

/-!
# Where a line ends

A line ends at the first place where a carriage return and a line feed stand side by side. Bytes
behind a line end do not move it, and neither do bare line feeds, up to which a line is read.

* `EndsAt`, a line end at a place, and `lineEnd?`, the first place that has one
* `lineEnd?_append_of_eq_some`, `lineEnd?_of_append`: the place is settled by the bytes up to it
* `endsAt_upTo`: a read up to a line feed brings a line end at its end or none
-/

namespace KvServer

open Bytes (cr lf crlf)

/-- A line end at a place. -/
def EndsAt (bytes : Bytes) (i : Nat) : Prop :=
  bytes[i]? = some cr ∧ bytes[i + 1]? = some lf

instance (bytes : Bytes) (i : Nat) : Decidable (EndsAt bytes i) :=
  inferInstanceAs (Decidable (_ ∧ _))

/-- The first place with a line end. -/
def lineEnd? (bytes : Bytes) : Option Nat :=
  (List.range bytes.length).find? fun i => EndsAt bytes i

variable {bytes front tail : Bytes} {i : Nat}

theorem EndsAt.add_two_le (ends : EndsAt bytes i) : i + 2 ≤ bytes.length :=
  (List.getElem?_eq_some_iff.1 ends.2).1

theorem endsAt_append_iff (inside : i + 2 ≤ front.length) :
    EndsAt (front ++ tail) i ↔ EndsAt front i := by
  unfold EndsAt
  rw [List.getElem?_append_left (by omega), List.getElem?_append_left (by omega)]

theorem endsAt_crlf (text rest : Bytes) : EndsAt (text ++ crlf ++ rest) text.length := by
  simp [EndsAt, crlf]

theorem EndsAt.split (ends : EndsAt bytes i) :
    bytes = bytes.take i ++ crlf ++ bytes.drop (i + 2) := by
  obtain ⟨inside, first⟩ := List.getElem?_eq_some_iff.1 ends.1
  obtain ⟨inside', second⟩ := List.getElem?_eq_some_iff.1 ends.2
  have behind : bytes.drop i = cr :: lf :: bytes.drop (i + 2) := by
    rw [List.drop_eq_getElem_cons inside, List.drop_eq_getElem_cons inside', first, second]
  calc bytes = bytes.take i ++ bytes.drop i := (List.take_append_drop i bytes).symm
    _ = bytes.take i ++ crlf ++ bytes.drop (i + 2) := by rw [behind]; simp [crlf]

theorem crlf_suffix_iff : crlf <:+ bytes ↔ ∃ i, EndsAt bytes i ∧ i + 2 = bytes.length := by
  constructor
  · rintro ⟨text, rfl⟩
    exact ⟨text.length, by simpa using endsAt_crlf text [], by simp⟩
  · rintro ⟨i, ends, last⟩
    have split := ends.split
    rw [List.drop_of_length_le (Nat.le_of_eq last.symm), List.append_nil] at split
    exact ⟨bytes.take i, split.symm⟩

theorem not_endsAt_append (nowhere : ∀ i, ¬EndsAt front i) (plain : lf ∉ tail) (i : Nat) :
    ¬EndsAt (front ++ tail) i := by
  intro ends
  by_cases inside : i + 2 ≤ front.length
  · exact nowhere i ((endsAt_append_iff inside).1 ends)
  · have feed := ends.2
    rw [List.getElem?_append_right (by omega)] at feed
    exact plain (List.mem_of_getElem? feed)

/-! ## The first line end -/

theorem lineEnd?_eq_some_iff :
    lineEnd? bytes = some i ↔ EndsAt bytes i ∧ ∀ j < i, ¬EndsAt bytes j := by
  rw [lineEnd?, List.find?_range_eq_some]
  constructor
  · rintro ⟨ends, -, first⟩
    exact ⟨by simpa using ends, by simpa using first⟩
  · rintro ⟨ends, first⟩
    have := ends.add_two_le
    exact ⟨by simpa using ends, List.mem_range.2 (by omega), by simpa using first⟩

theorem lineEnd?_eq_none_iff : lineEnd? bytes = none ↔ ∀ i, ¬EndsAt bytes i := by
  rw [lineEnd?, List.find?_range_eq_none]
  constructor
  · intro nowhere i ends
    have := ends.add_two_le
    exact absurd ends (by simpa using nowhere i (by omega))
  · intro nowhere i _
    simpa using nowhere i

theorem EndsAt.exists_lineEnd? (ends : EndsAt bytes i) : ∃ j ≤ i, lineEnd? bytes = some j := by
  cases found : lineEnd? bytes with
  | none => exact absurd ends (lineEnd?_eq_none_iff.1 found i)
  | some j =>
    refine ⟨j, Nat.le_of_not_lt fun before => ?_, rfl⟩
    exact (lineEnd?_eq_some_iff.1 found).2 i before ends

theorem lineEnd?_append_of_eq_some (found : lineEnd? front = some i) (tail : Bytes) :
    lineEnd? (front ++ tail) = some i := by
  obtain ⟨ends, first⟩ := lineEnd?_eq_some_iff.1 found
  have inside := ends.add_two_le
  refine lineEnd?_eq_some_iff.2 ⟨(endsAt_append_iff inside).2 ends, fun j before => ?_⟩
  rw [endsAt_append_iff (by omega)]
  exact first j before

theorem lineEnd?_of_append (found : lineEnd? (front ++ tail) = some i)
    (inside : i + 2 ≤ front.length) : lineEnd? front = some i := by
  obtain ⟨ends, first⟩ := lineEnd?_eq_some_iff.1 found
  -- An earlier place lies in `front` as well, and looks the same there.
  refine lineEnd?_eq_some_iff.2 ⟨(endsAt_append_iff inside).1 ends, fun j before ends' => ?_⟩
  exact first j before ((endsAt_append_iff (by omega)).2 ends')

/-- A line ends where it does whatever stands behind it. -/
theorem lineEnd?_take (found : lineEnd? bytes = some i) (rest : Bytes) :
    lineEnd? (bytes.take i ++ crlf ++ rest) = some i := by
  have ends := (lineEnd?_eq_some_iff.1 found).1
  have inside := ends.add_two_le
  have whole : lineEnd? (bytes.take i ++ crlf ++ bytes.drop (i + 2)) = some i := by
    rw [← ends.split, found]
  have front : i + 2 ≤ (bytes.take i ++ crlf).length := by
    rw [List.length_append, List.length_take, Bytes.length_crlf]
    omega
  exact lineEnd?_append_of_eq_some (lineEnd?_of_append whole front) rest

/-- A text without a carriage return is a line of its own in front of a line end. -/
theorem lineEnd?_line {text : Bytes} (plain : cr ∉ text) (rest : Bytes) :
    lineEnd? (text ++ crlf ++ rest) = some text.length := by
  refine lineEnd?_eq_some_iff.2 ⟨endsAt_crlf text rest, fun j before ends => plain ?_⟩
  have return? : text[j]? = some cr := by
    simpa [List.getElem?_append_left before] using ends.1
  exact List.mem_of_getElem? return?

/-- A bare line feed is part of the line. -/
example : lineEnd? [97, 10, 98, 13, 10, 13, 10] = some 3 := by decide

/-- Where no carriage return stands inside a line, the line and what is behind it are told apart. -/
theorem line_append_inj {text text' rest rest' : Bytes} (plain : cr ∉ text) (plain' : cr ∉ text')
    (same : text ++ crlf ++ rest = text' ++ crlf ++ rest') : text = text' ∧ rest = rest' := by
  have place := lineEnd?_line plain rest
  rw [same, lineEnd?_line plain' rest', Option.some_inj] at place
  rw [List.append_assoc, List.append_assoc] at same
  obtain ⟨text, behind⟩ := List.append_inj same place.symm
  exact ⟨text, List.append_cancel_left behind⟩

theorem lineEnd?_of_last (ended : crlf <:+ bytes)
    (only : ∀ i, EndsAt bytes i → i + 2 = bytes.length) :
    lineEnd? bytes = some (bytes.length - 2) := by
  obtain ⟨i, ends, last⟩ := crlf_suffix_iff.1 ended
  have place : i = bytes.length - 2 := by omega
  subst place
  refine lineEnd?_eq_some_iff.2 ⟨ends, fun j before endsBefore => ?_⟩
  have := only j endsBefore
  omega

/-! ## One read of a line -/

/-- A read up to a line feed has a line feed in no place but the last. -/
theorem lf_of_upTo {limit : Nat} (feed : (upTo (· == lf) limit bytes)[i]? = some lf) :
    i + 1 = (upTo (· == lf) limit bytes).length := by
  fun_induction upTo (· == lf) limit bytes generalizing i with
  | case1 => cases feed
  | case2 => cases feed
  | case3 => cases i <;> simp_all
  | case4 limit b rest other ih =>
    cases i with
    | zero => simp_all
    | succ i => simpa using ih (by simpa using feed)

/-- So behind a part of a line that has no line end in it, a read brings one at its end or none. -/
theorem endsAt_upTo {limit : Nat} (nowhere : ∀ i, ¬EndsAt front i)
    (ends : EndsAt (front ++ upTo (· == lf) limit bytes) i) :
    i + 2 = (front ++ upTo (· == lf) limit bytes).length := by
  -- The line feed is one of the bytes that were read, and so the last of them.
  have outside : ¬i + 2 ≤ front.length := fun inside =>
    nowhere i ((endsAt_append_iff inside).1 ends)
  have feed := ends.2
  rw [List.getElem?_append_right (by omega)] at feed
  have := lf_of_upTo feed
  rw [List.length_append]
  omega

end KvServer
