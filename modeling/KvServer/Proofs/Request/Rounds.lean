import KvServer.Proofs.Request.Follow

/-!
# The loop that reads a line

A line is read in rounds, each of which reads up to the next line feed or to the limit. Told from the
bytes alone, the loop finds the first line end if that is near enough, and never takes more than 66 bytes.

* `Reader.Round` and `Reader.round`, one round, and `Reader.extendLine_eq_round`: the loop is made of rounds
* `Reader.loopFor`, the loop for a number of rounds, and `Reader.loopFor_eq`: how many it needs
* `Reader.Holds`, the texts that the scratch line holds on the way, and `Reader.Holds.length_le`
* `Reader.line_exact`: what a line is read as, what is left, and what it takes
-/

namespace KvServer

open Bytes (crlf lf)

namespace Reader

/-- What a round comes to: it settles the line, or there is a longer part of it to go on from. -/
inductive Round where
  | settled (result : EStateM.Result RequestError Reader Unit)
  | goesOn (next : Reader)

/-- What a round reads: bytes up to a line feed, as many as there is room for. -/
def delivery (reader : Reader) : Delivery :=
  reader.source.read (maxLine + 2 - reader.scratch.length) (· == lf)

/-- The reader behind the read of a round. -/
def filled (reader : Reader) : Reader :=
  ⟨reader.delivery.rest, reader.scratch ++ reader.delivery.taken⟩

/-- One round of the loop. -/
def round (reader : Reader) : Round :=
  if reader.scratch.length < maxLine + 2 then
    match reader.delivery.failure? with
    | some failure => .settled (.error (.transport failure) reader.filled)
    | none =>
      if reader.delivery.taken = [] then .settled (.error .unexpectedEnd reader.filled)
      else if crlf <:+ reader.filled.scratch then
        .settled (.ok () { reader.filled with
          scratch := reader.filled.scratch.take (reader.filled.scratch.length - 2) })
      else .goesOn reader.filled
  else .settled (.error (.framing .lineTooLong) reader)

/-- The loop, for at most a number of rounds. -/
def loopFor : (rounds : Nat) → Reader → Option (EStateM.Result RequestError Reader Unit)
  | 0, _ => none
  | rounds + 1, reader =>
    match round reader with
    | .settled result => some result
    | .goesOn next => loopFor rounds next

/-- A text that the scratch line holds at some moment of the loop, when the bytes that a round reads are
put into it one at a time. -/
inductive Holds : Reader → Bytes → Prop where
  | filling {reader : Reader} {text : Bytes} (front : text <+: reader.filled.scratch) :
    Holds reader text
  | later {reader next : Reader} {text : Bytes} (goesOn : round reader = .goesOn next)
    (holds : Holds next text) : Holds reader text

variable {reader next : Reader} {text : Bytes}

/-! ## One round -/

theorem round_of_open (room : reader.scratch.length < maxLine + 2)
    (intact : reader.delivery.failure? = none) (unread : reader.delivery.taken ≠ [])
    (notEnded : ¬crlf <:+ reader.filled.scratch) : round reader = .goesOn reader.filled := by
  simp only [round, if_pos room, intact, if_neg unread, if_neg notEnded]

theorem extendLine_eq_round (reader : Reader) :
    extendLine reader =
      match round reader with
      | .settled result => result
      | .goesOn next => extendLine next := by
  fun_cases extendLine reader with
  | case1 room found next failure failed =>
    have failed : reader.delivery.failure? = some failure := failed
    rw [round, if_pos room, failed]
    rfl
  | case2 room found next intact drained =>
    have intact : reader.delivery.failure? = none := intact
    have drained : reader.delivery.taken = [] := drained
    simp only [round, if_pos room, intact, if_pos drained]
    rfl
  | case3 room found next intact unread ended =>
    have intact : reader.delivery.failure? = none := intact
    have unread : ¬reader.delivery.taken = [] := unread
    have ended : crlf <:+ reader.filled.scratch := ended
    simp only [round, if_pos room, intact, if_neg unread, if_pos ended]
    rfl
  | case4 room found next intact unread goesOn =>
    -- Both loops go on from the reader behind the read.
    rw [round_of_open room intact unread goesOn]
    rfl
  | case5 full => rw [round, if_neg full]

/-- A round that goes on had room for more, and leaves a longer part of the line. -/
theorem filled_of_goesOn (goesOn : round reader = .goesOn next) :
    next = reader.filled ∧ reader.scratch.length < next.scratch.length := by
  revert goesOn
  fun_cases round reader with
  | case4 room intact unread more =>
    intro goesOn
    cases goesOn
    refine ⟨rfl, ?_⟩
    have some := List.length_pos_iff.2 unread
    rw [filled, List.length_append]
    omega
  | _ => nofun

/-- The read of a round stays within the limit. -/
theorem length_filled_le (fits : reader.scratch.length ≤ maxLine + 2) :
    reader.filled.scratch.length ≤ maxLine + 2 := by
  have taken : reader.delivery.taken = upTo (· == lf) _ reader.source.bytes :=
    (reader.source.read_eq (· == lf) _).1
  have few := length_upTo_le (· == lf) (maxLine + 2 - reader.scratch.length) reader.source.bytes
  rw [filled, List.length_append, taken]
  omega

/-! ## The loop -/

theorem Holds.length_le (holds : Holds reader text) (fits : reader.scratch.length ≤ maxLine + 2) :
    text.length ≤ maxLine + 2 := by
  -- The invariant is that what a round begins with fits; what it adds fits into the rest.
  induction holds with
  | filling front => exact Nat.le_trans front.length_le (length_filled_le fits)
  | later goesOn _ ih =>
    obtain ⟨rfl, -⟩ := filled_of_goesOn goesOn
    exact ih (length_filled_le fits)

/-- Each round but the last one makes the line longer, so the rounds are no more than the bytes that a line
may take, and one. -/
theorem loopFor_eq {rounds : Nat} (fits : reader.scratch.length ≤ maxLine + 2)
    (enough : maxLine + 2 < rounds + reader.scratch.length) :
    loopFor rounds reader = some (extendLine reader) := by
  -- What the rounds still to come are measured against is the room left in the scratch line.
  induction rounds generalizing reader with
  | zero => omega
  | succ rounds ih =>
    rw [loopFor, extendLine_eq_round]
    cases made : round reader with
    | settled result => rfl
    | goesOn next =>
      obtain ⟨rfl, longer⟩ := filled_of_goesOn made
      exact ih (length_filled_le fits) (by omega)

/-- A line that is not found leaves all that was read of it in the scratch line. -/
theorem scratch_append_of_error {error : RequestError} {last : Reader}
    (failed : extendLine reader = .error error last) :
    last.scratch ++ last.source.bytes = reader.scratch ++ reader.source.bytes := by
  -- A read moves bytes from the source into the scratch line; only a line that is found is cut off there.
  have whole (reader : Reader) :
      reader.filled.scratch ++ reader.filled.source.bytes = reader.scratch ++ reader.source.bytes := by
    rw [filled, List.append_assoc]
    exact congrArg (reader.scratch ++ ·) (reader.source.read_append ..)
  fun_induction extendLine reader with
  | case1 reader =>
    rw [← (EStateM.Result.error.inj failed).2]
    exact whole reader
  | case2 reader =>
    rw [← (EStateM.Result.error.inj failed).2]
    exact whole reader
  | case3 => cases failed
  | case4 reader _ found next _ _ _ ih => exact (ih failed).trans (whole reader)
  | case5 reader => rw [← (EStateM.Result.error.inj failed).2]

/-! ## Lines -/

theorem line_of_done {rest : Bytes} (scanned : Scan.line reader.source.bytes = .done text rest) :
    ∃ next, line reader = .ok () next ∧ next.scratch = text ∧ next.source.bytes = rest := by
  obtain ⟨next, done, left, -⟩ := follows_readLine.ok_of_done scanned
  unfold readLine lineRead at done
  cases read : line reader with
  | error => rw [read] at done; cases done
  | ok u next' =>
    rw [read] at done
    cases done
    exact ⟨next, rfl, rfl, left⟩

theorem line_of_error {error : RequestError} {last : Reader}
    (failed : readLine reader = .error error last) :
    line reader = .error error last ∧ last.scratch ++ last.source.bytes = reader.source.bytes := by
  unfold readLine lineRead at failed
  cases read : line reader with
  | ok => rw [read] at failed; cases failed
  | error error' last' =>
    rw [read] at failed
    cases failed
    exact ⟨rfl, scratch_append_of_error read⟩

/-- A line is what stands in front of the first line end, if that is within 64 bytes, and the bytes behind
the line end are left. Otherwise 66 bytes are read, or all that there are, and they stay in the scratch
line. On the way it never holds more than 66 bytes, and 67 rounds of the loop are enough. -/
theorem line_exact (reader : Reader) :
    let bytes := reader.source.bytes
    let cleared : Reader := { reader with scratch := [] }
    (∀ i ≤ 64, lineEnd? bytes = some i →
      ∃ next, line reader = .ok () next ∧ next.scratch = bytes.take i ∧
        next.source.bytes = bytes.drop (i + 2)) ∧
    ((∀ i ≤ 64, lineEnd? bytes ≠ some i) →
      (66 ≤ bytes.length →
        ∃ last, line reader = .error (.framing .lineTooLong) last ∧
          last.scratch = bytes.take 66 ∧ last.source.bytes = bytes.drop 66) ∧
      (bytes.length < 66 →
        ∃ last, last.scratch = bytes ∧ last.source.bytes = [] ∧
          match reader.source.ending with
          | .closed => line reader = .error .unexpectedEnd last
          | .failed failure => line reader = .error (.transport failure) last)) ∧
    (∀ text, Holds cleared text → text.length ≤ 66) ∧
    loopFor 67 cleared = some (line reader) := by
  intro bytes cleared
  refine ⟨fun i near found => line_of_done (Scan.line_of_lineEnd found near), fun far => ⟨?_, ?_⟩,
    fun text holds => holds.length_le (Nat.zero_le _), loopFor_eq (Nat.zero_le _) (Nat.lt_succ_self 66)⟩
  · intro many
    have scanned : Scan.line bytes = .refused (.framing .lineTooLong) (bytes.drop 66) :=
      (Scan.line_of_far far).trans (if_neg (Nat.not_lt.2 many))
    obtain ⟨last, failed, left, -⟩ := follows_readLine.error_of_observed (by rw [scanned]; rfl)
    obtain ⟨failed, whole⟩ := line_of_error failed
    -- What is left tells what was taken.
    rw [left] at whole
    have kept := List.append_cancel_right (whole.trans (List.take_append_drop 66 bytes).symm)
    exact ⟨last, failed, kept, left⟩
  · intro few
    have scanned : Scan.line bytes = .short .line := (Scan.line_of_far far).trans (if_pos few)
    obtain ⟨last, failed, left, -⟩ := follows_readLine.error_of_short scanned
    obtain ⟨failed, whole⟩ := line_of_error failed
    rw [left, List.append_nil] at whole
    refine ⟨last, whole, left, ?_⟩
    cases ending : reader.source.ending <;> rwa [ending] at failed

/-- A stream in pieces, with a bare line feed and a bare carriage return in front of some zeros. -/
def zerosBefore (zeros : Nat) (tail : Bytes) : Reader :=
  ⟨⟨[[42, 10, 13], 42 :: List.replicate zeros 48, tail], .closed⟩, Utf8.encode "$3"⟩

theorem line_exact_atTheLimit :
    -- A line of 64 bytes, one of 65, and one of 64 of whose end only the first byte is there.
    let longest := zerosBefore 60 [13, 10, 120]
    let longer := zerosBefore 61 [13, 10, 120]
    let cut := zerosBefore 60 [13]
    lineEnd? longest.source.bytes = some 64 ∧
      (∃ next, line longest = .ok () next ∧ next.scratch = longest.source.bytes.take 64 ∧
        next.source.bytes = [120]) ∧
      (∀ i ≤ 64, lineEnd? longer.source.bytes ≠ some i) ∧ 66 ≤ longer.source.bytes.length ∧
      (∃ last, line longer = .error (.framing .lineTooLong) last ∧ last.source.bytes = [10, 120]) ∧
      (∀ i ≤ 64, lineEnd? cut.source.bytes ≠ some i) ∧ cut.source.bytes.length < 66 ∧
      (∃ last, line cut = .error .unexpectedEnd last ∧ last.scratch.length = 65) ∧
      Holds { longer with scratch := [] } (longer.source.bytes.take 66) ∧
      (longer.source.bytes.take 66).length ≤ 66 := by
  intro longest longer cut
  have first : lineEnd? longest.source.bytes = some 64 := by decide +kernel
  have second : lineEnd? longer.source.bytes = some 65 := by decide +kernel
  have far : ∀ i ≤ 64, lineEnd? longer.source.bytes ≠ some i := by
    intro i near found
    rw [second, Option.some_inj] at found
    omega
  have third : lineEnd? cut.source.bytes = none := by decide +kernel
  have nowhere : ∀ i ≤ 64, lineEnd? cut.source.bytes ≠ some i := by
    rw [third]
    exact fun _ _ => nofun
  -- The first round ends at the bare line feed, and the second one reads up to the limit.
  have goesOn : round { longer with scratch := [] } = .goesOn (filled { longer with scratch := [] }) :=
    round_of_open (by decide) (by decide +kernel) (by decide +kernel) (by decide +kernel)
  have held : Holds { longer with scratch := [] } (longer.source.bytes.take 66) :=
    .later goesOn (.filling (by decide +kernel))
  have rest : longest.source.bytes.drop 66 = [120] := by decide +kernel
  have rest' : longer.source.bytes.drop 66 = [10, 120] := by decide +kernel
  have all : cut.source.bytes.length = 65 := by decide +kernel
  obtain ⟨next, read, kept, left⟩ := (line_exact longest).1 64 (Nat.le_refl 64) first
  have many : 66 ≤ longer.source.bytes.length := by decide +kernel
  obtain ⟨last, failed, -, behind⟩ := ((line_exact longer).2.1 far).1 many
  have few : cut.source.bytes.length < 66 := by omega
  obtain ⟨last', scratch, -, short⟩ := ((line_exact cut).2.1 nowhere).2 few
  exact ⟨first, ⟨next, read, kept, left.trans rest⟩, far, many, ⟨last, failed, behind.trans rest'⟩,
    nowhere, few, ⟨last', short, by rw [scratch, all]⟩, held, (line_exact longer).2.2.1 _ held⟩

end Reader

end KvServer
