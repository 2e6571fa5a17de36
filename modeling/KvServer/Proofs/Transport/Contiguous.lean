import KvServer.Transport.Source

/-!
# Reading without the cuts

What a read delivers depends on the bytes of the source and on its ending, never on the pieces in
which the bytes arrive. `upTo` is the read on bytes in one piece, and `read_eq` says that every read
is that one.
-/

namespace KvServer

/-- The bytes up to and including the first that satisfies `last`, but at most `limit`. -/
def upTo (last : UInt8 → Bool) : (limit : Nat) → Bytes → Bytes
  | 0, _ => []
  | _ + 1, [] => []
  | limit + 1, b :: rest => if last b then [b] else b :: upTo last limit rest

/-- Says whether a read gets what it wants: as many bytes as it may take, or one that ends it. -/
def enough (last : UInt8 → Bool) (limit : Nat) (bytes : Bytes) : Bool :=
  limit ≤ bytes.length || bytes.any last

variable (last : UInt8 → Bool)

theorem upTo_append_drop (limit : Nat) (bytes : Bytes) :
    upTo last limit bytes ++ bytes.drop (upTo last limit bytes).length = bytes := by
  fun_induction upTo last limit bytes with
  | case1 => rfl
  | case2 => rfl
  | case3 => rfl
  | case4 limit b rest _ ih => simpa using ih

theorem length_upTo_le (limit : Nat) (bytes : Bytes) : (upTo last limit bytes).length ≤ limit := by
  fun_induction upTo last limit bytes with
  | case1 => exact Nat.le_refl 0
  | case2 => exact Nat.zero_le _
  | case3 => exact Nat.succ_le_succ (Nat.zero_le _)
  | case4 limit b rest _ ih => exact Nat.succ_le_succ ih

theorem upTo_never (limit : Nat) (bytes : Bytes) :
    upTo (fun _ => false) limit bytes = bytes.take limit := by
  induction bytes generalizing limit with
  | nil => cases limit <;> rfl
  | cons b rest ih =>
    cases limit with
    | zero => rfl
    | succ limit => simp [upTo, ih]

theorem upTo_eq_nil_iff {limit : Nat} {bytes : Bytes} :
    upTo last limit bytes = [] ↔ limit = 0 ∨ bytes = [] := by
  fun_cases upTo last limit bytes <;> simp

theorem enough_eq_false_iff {limit : Nat} {bytes : Bytes} :
    enough last limit bytes = false ↔ bytes.length < limit ∧ ∀ b ∈ bytes, last b = false := by
  simp [enough]

theorem upTo_of_not_enough {limit : Nat} {bytes : Bytes}
    (short : enough last limit bytes = false) : upTo last limit bytes = bytes := by
  fun_induction upTo last limit bytes with
  | case1 => simp [enough] at short
  | case2 => rfl
  | case3 limit b rest ends => simp [enough, ends] at short
  | case4 limit b rest other ih =>
    rw [ih]
    simpa [enough, other] using short

/-! ## One piece of many -/

theorem upTo_of_found {limit i : Nat} {piece : Bytes}
    (found : (piece.take limit).findIdx? last = some i) (tail : Bytes) :
    upTo last limit (piece ++ tail) = piece.take (i + 1) := by
  -- The byte at `i` ends the read, so the tail is never reached.
  induction piece generalizing limit i with
  | nil => simp at found
  | cons b piece ih =>
    cases limit with
    | zero => simp at found
    | succ limit =>
      rw [List.take_succ_cons, List.findIdx?_cons] at found
      split at found
      next ends =>
        cases found
        simp [upTo, ends]
      next goesOn =>
        obtain ⟨j, foundLater, rfl⟩ := Option.map_eq_some_iff.1 found
        simp [upTo, goesOn, ih foundLater]

theorem upTo_of_not_found {limit : Nat} {piece : Bytes}
    (notFound : (piece.take limit).findIdx? last = none) (tail : Bytes) :
    upTo last limit (piece ++ tail) =
      piece.take limit ++ upTo last (limit - piece.length) tail := by
  induction piece generalizing limit with
  | nil => simp
  | cons b piece ih =>
    cases limit with
    | zero => simp [upTo]
    | succ limit =>
      rw [List.take_succ_cons, List.findIdx?_cons] at notFound
      split at notFound
      next => cases notFound
      next goesOn => simp [upTo, goesOn, ih (Option.map_eq_none_iff.1 notFound)]

theorem enough_of_found {limit i : Nat} {piece : Bytes}
    (found : (piece.take limit).findIdx? last = some i) (tail : Bytes) :
    enough last limit (piece ++ tail) = true := by
  obtain ⟨inside, ends, _⟩ := List.findIdx?_eq_some_iff_getElem.1 found
  have member : (piece.take limit)[i] ∈ piece := List.mem_of_mem_take (List.getElem_mem inside)
  simp only [enough, List.any_append, Bool.or_eq_true]
  exact .inr (.inl (List.any_eq_true.2 ⟨_, member, ends⟩))

theorem enough_of_not_found {limit : Nat} {piece : Bytes}
    (notFound : (piece.take limit).findIdx? last = none) (tail : Bytes) :
    enough last limit (piece ++ tail) = enough last (limit - piece.length) tail := by
  by_cases short : piece.length < limit
  · -- The test has been made on the whole piece.
    rw [List.take_of_length_le (Nat.le_of_lt short), List.findIdx?_eq_none_iff] at notFound
    have none : piece.any last = false := List.any_eq_false.2 (by simpa using notFound)
    have fits : limit ≤ piece.length + tail.length ↔ limit - piece.length ≤ tail.length := by omega
    simp [enough, none, fits]
  · have fits : limit ≤ piece.length + tail.length := by omega
    simp [enough, fits, Nat.sub_eq_zero_of_le (Nat.le_of_not_lt short)]

theorem gather_eq (limit : Nat) (taken : Array UInt8) (pieces : List Bytes) :
    (gather last limit taken pieces).taken.toList = taken.toList ++ upTo last limit pieces.flatten ∧
      (gather last limit taken pieces).satisfied = enough last limit pieces.flatten := by
  -- A read ends in the first piece, or takes all of it and goes on with what is left of the limit.
  induction pieces generalizing limit taken with
  | nil =>
    cases limit with
    | zero => simp [gather, upTo, enough]
    | succ limit => simp [gather, upTo, enough]
  | cons piece pieces ih =>
    simp only [gather, List.flatten_cons]
    split
    next i found => simp [upTo_of_found last found, enough_of_found last found]
    next notFound =>
      rw [upTo_of_not_found last notFound, enough_of_not_found last notFound]
      have window := List.length_take (i := limit) (l := piece)
      split
      next full =>
        have used : limit - piece.length = 0 := by omega
        simp [used, upTo, enough]
      next short =>
        have whole : piece.take limit = piece := List.take_of_length_le (by omega)
        rw [whole]
        obtain ⟨taken, satisfied⟩ := ih (limit - piece.length) (taken ++ piece)
        exact ⟨by simp [taken], satisfied⟩

namespace Source

/-- A read, told from the bytes alone. -/
theorem read_eq (source : Source) (limit : Nat) :
    (source.read limit last).taken = upTo last limit source.bytes ∧
      (source.read limit last).rest.bytes =
        source.bytes.drop (upTo last limit source.bytes).length ∧
      (source.read limit last).rest.ending = source.ending ∧
      (source.read limit last).failure? =
        if enough last limit source.bytes then none else source.ending.failure? := by
  obtain ⟨taken, satisfied⟩ := gather_eq last limit #[] source.pieces
  have taken : (source.read limit last).taken = upTo last limit source.bytes := by
    simpa [read, bytes] using taken
  have whole := source.read_append limit last
  rw [taken] at whole
  refine ⟨taken, List.append_cancel_left (whole.trans (upTo_append_drop last ..).symm), rfl, ?_⟩
  rw [read, satisfied]
  rfl

/-- A counted read that finds as many bytes as it wants. -/
theorem read_count (source : Source) {count : Nat} (many : count ≤ source.bytes.length) :
    (source.read count fun _ => false).taken = source.bytes.take count ∧
      (source.read count fun _ => false).rest.bytes = source.bytes.drop count ∧
      (source.read count fun _ => false).failure? = none := by
  obtain ⟨taken, rest, -, told⟩ := source.read_eq (fun _ => false) count
  rw [upTo_never] at taken rest
  rw [List.length_take, Nat.min_eq_left many] at rest
  exact ⟨taken, rest, by simpa [enough, many] using told⟩

/-- A counted read that finds fewer. -/
theorem read_count_of_short (source : Source) {count : Nat} (few : source.bytes.length < count) :
    (source.read count fun _ => false).taken = source.bytes ∧
      (source.read count fun _ => false).rest.bytes = [] ∧
      (source.read count fun _ => false).failure? = source.ending.failure? := by
  obtain ⟨taken, rest, -, told⟩ := source.read_eq (fun _ => false) count
  have short : enough (fun _ => false) count source.bytes = false :=
    (enough_eq_false_iff _).2 ⟨few, fun _ _ => rfl⟩
  rw [upTo_of_not_enough _ short] at taken rest
  rw [short] at told
  exact ⟨taken, rest.trans List.drop_length, told⟩

/-- A read meets a failure only where the bytes give out. -/
theorem read_of_failure {source : Source} {limit : Nat} {failure : Failure}
    (failed : (source.read limit last).failure? = some failure) :
    enough last limit source.bytes = false ∧ source.ending = .failed failure := by
  obtain ⟨-, -, -, told⟩ := source.read_eq last limit
  rw [failed] at told
  split at told
  next => cases told
  next short =>
    refine ⟨Bool.eq_false_iff.2 short, ?_⟩
    cases ending : source.ending with
    | closed => rw [ending] at told; cases told
    | failed => rw [ending] at told; cases told; rfl

/-- A read comes back empty, and with no failure, only from a closed source. -/
theorem read_of_nothing {source : Source} {limit : Nat} (wanted : limit ≠ 0)
    (nothing : (source.read limit last).taken = [])
    (intact : (source.read limit last).failure? = none) :
    source.bytes = [] ∧ source.ending = .closed := by
  obtain ⟨taken, -, -, told⟩ := source.read_eq last limit
  have empty : source.bytes = [] :=
    ((upTo_eq_nil_iff last).1 (taken.symm.trans nothing)).resolve_left wanted
  refine ⟨empty, ?_⟩
  have short : enough last limit source.bytes = false := by
    rw [empty, enough_eq_false_iff]
    exact ⟨Nat.pos_of_ne_zero wanted, nofun⟩
  rw [intact, short] at told
  cases ending : source.ending with
  | closed => rfl
  | failed => rw [ending] at told; cases told

end Source

end KvServer
