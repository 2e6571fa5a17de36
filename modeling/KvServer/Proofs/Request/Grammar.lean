import KvServer.Proofs.Numeral.Decimal
import KvServer.Proofs.Request.Follow
import KvServer.Reply

/-!
# The grammar of requests

A request on the wire is a line that announces the number of its arguments, and each argument is a
line that announces its length, the argument itself and a line end. Nothing else is read as a request,
and no bytes can be taken apart in two ways.

* `Announces`, the digits that announce a size
* `Frame`, a request on the wire, and `Frame.wire`, its bytes
* `Frame.wire_append_inj`: a frame is told from its bytes, whatever stands behind them
* `Scan.request_eq_done_iff`: a scan takes the bytes of a frame
* `Reader.request_accepts_frames`: a reader returns the arguments of a frame and leaves the rest
-/

namespace KvServer

open Bytes (cr lf crlf)

/-- Digits, with an optional `-`, that announce a size. A line of 64 bytes holds 63 of them. -/
structure Announces (digits : Bytes) (size limit : Nat) : Prop where
  numeral : Decimal.Numeral digits size
  short : digits.length ≤ 63
  bounded : size ≤ limit

/-- An argument on the wire. -/
structure Frame.Item where
  digits : Bytes
  data : Bytes
  announced : Announces digits data.length maxPayload

/-- A request on the wire. -/
structure Frame where
  digits : Bytes
  items : List Frame.Item
  announced : Announces digits items.length maxArguments

namespace Frame

def Item.wire (item : Item) : Bytes :=
  Reply.line .bulk item.digits ++ item.data ++ crlf

def wire (frame : Frame) : Bytes :=
  Reply.line .array frame.digits ++ frame.items.flatMap Item.wire

def arguments (frame : Frame) : List Bytes :=
  frame.items.map Item.data

end Frame

/-! ## Lines that announce a size -/

namespace Decimal

theorem Numeral.cr_not_mem {s : Bytes} {n : Int} (numeral : Numeral s n) : cr ∉ s := by
  have noDigit : ¬IsDigit cr := by decide
  cases numeral with
  | bare natural => exact natural.not_mem noDigit
  | minus natural =>
    rintro (_ | ⟨_, member⟩)
    exact natural.not_mem noDigit member

end Decimal

variable {tag : Tag} {digits digits' rest rest' : Bytes} {size size' limit : Nat}

theorem Announces.size_unique (announces : Announces digits size limit)
    (other : Announces digits size' limit) : size = size' :=
  Int.ofNat_inj.1 (announces.numeral.unique other.numeral)

theorem cr_not_mem_cons (plain : cr ∉ digits) : cr ∉ tag.byte :: digits := by
  cases tag <;> simpa [Tag.byte, cr] using plain

/-- A line that announces a size is told apart from what is behind it. -/
theorem Announces.line_append_inj (announces : Announces digits size limit)
    (announces' : Announces digits' size' limit)
    (same : Reply.line tag digits ++ rest = Reply.line tag digits' ++ rest') :
    digits = digits' ∧ size = size' ∧ rest = rest' := by
  have plain : cr ∉ tag.byte :: digits := cr_not_mem_cons announces.numeral.cr_not_mem
  have plain' : cr ∉ tag.byte :: digits' := cr_not_mem_cons announces'.numeral.cr_not_mem
  obtain ⟨text, rest⟩ := KvServer.line_append_inj plain plain' same
  obtain ⟨-, rfl⟩ := List.cons.inj text
  exact ⟨rfl, announces.size_unique announces', rest⟩

namespace Reader

theorem checkPayload_eq_ok_iff {length : Int64} {size : Nat} :
    checkPayload length = .ok size ↔ length.toInt = size ∧ size ≤ maxPayload := by
  have zero : (0 : Int64).toInt = 0 := rfl
  have one : (-1 : Int64).toInt = -1 := rfl
  unfold checkPayload
  simp only [← Int64.toInt_inj, Int64.lt_iff_toInt_lt, zero, one]
  split
  next => exact iff_of_false nofun (by omega)
  next =>
    split
    next => exact iff_of_false nofun (by omega)
    next =>
      split
      next => exact iff_of_false nofun (by omega)
      next => rw [Except.ok.injEq]; omega

theorem checkCount_eq_ok_iff {count : Int64} {size : Nat} :
    checkCount count = .ok size ↔ count.toInt = size ∧ size ≤ maxArguments := by
  have zero : (0 : Int64).toInt = 0 := rfl
  unfold checkCount
  simp only [Int64.lt_iff_toInt_lt, zero]
  split
  next => exact iff_of_false nofun (by omega)
  next =>
    split
    next => exact iff_of_false nofun (by omega)
    next => rw [Except.ok.injEq]; omega

end Reader

/-! ## Frames are unambiguous -/

namespace Frame

theorem Item.wire_append_inj {item other : Item} (same : item.wire ++ rest = other.wire ++ rest') :
    item = other ∧ rest = rest' := by
  obtain ⟨digits, data, announced⟩ := item
  obtain ⟨digits', data', announced'⟩ := other
  simp only [Item.wire, List.append_assoc] at same
  -- Both lengths are announced by one line, which is why the payloads end at one place.
  obtain ⟨rfl, length, behind⟩ := announced.line_append_inj announced' same
  obtain ⟨rfl, ends⟩ := List.append_inj behind length
  exact ⟨rfl, List.append_cancel_left ends⟩

theorem flatMap_wire_append_inj {items others : List Item} (length : items.length = others.length)
    (same : items.flatMap Item.wire ++ rest = others.flatMap Item.wire ++ rest') :
    items = others ∧ rest = rest' := by
  induction items generalizing others with
  | nil =>
    cases List.eq_nil_of_length_eq_zero length.symm
    exact ⟨rfl, same⟩
  | cons item items ih =>
    cases others with
    | nil => cases length
    | cons other others =>
      simp only [List.flatMap_cons, List.append_assoc] at same
      obtain ⟨rfl, behind⟩ := Item.wire_append_inj same
      obtain ⟨rfl, rest⟩ := ih (Nat.succ.inj length) behind
      exact ⟨rfl, rest⟩

/-- A frame is told from its bytes, whatever stands behind them. -/
theorem wire_append_inj {frame other : Frame} (same : frame.wire ++ rest = other.wire ++ rest') :
    frame = other ∧ rest = rest' := by
  obtain ⟨digits, items, announced⟩ := frame
  obtain ⟨digits', items', announced'⟩ := other
  simp only [wire, List.append_assoc] at same
  obtain ⟨rfl, length, behind⟩ := announced.line_append_inj announced' same
  obtain ⟨rfl, rest⟩ := flatMap_wire_append_inj length behind
  exact ⟨rfl, rest⟩

end Frame

/-! ## Scanning a frame -/

namespace Scan

variable {α β : Type} {bytes : Bytes}

theorem bind_eq_done_iff {scan : Scan α} {follow : α → Scan β} {b : β} :
    (scan >>= follow) bytes = .done b rest ↔
      ∃ a middle, scan bytes = .done a middle ∧ follow a middle = .done b rest := by
  change Scan.bind scan follow bytes = _ ↔ _
  unfold Scan.bind
  cases scan bytes with
  | done a middle => simp
  | refused => simp
  | short => simp

theorem pure_eq_done_iff {a b : α} :
    (pure a : Scan α) bytes = .done b rest ↔ a = b ∧ bytes = rest := by
  change Scanned.done a bytes = _ ↔ _
  rw [Scanned.done.injEq]

theorem ofExcept_eq_done_iff {result : Except RequestError α} {a : α} :
    ofExcept result bytes = .done a rest ↔ result = .ok a ∧ bytes = rest := by
  cases result with
  | ok b => simp [ofExcept, Scan.pure]
  | error => simp [ofExcept]

theorem line_eq_done_iff {text : Bytes} :
    line bytes = .done text rest ↔
      bytes = text ++ crlf ++ rest ∧ lineEnd? bytes = some text.length ∧ text.length ≤ maxLine := by
  constructor
  · intro done
    unfold line at done
    cases found : (lineEnd? bytes).filter (· ≤ maxLine) with
    | none =>
      rw [found] at done
      dsimp only at done
      split at done <;> cases done
    | some i =>
      rw [found] at done
      cases done
      obtain ⟨found, near⟩ := Option.filter_eq_some_iff.1 found
      have ends := (lineEnd?_eq_some_iff.1 found).1
      have inside := ends.add_two_le
      have length : (bytes.take i).length = i := by
        rw [List.length_take]
        omega
      rw [length]
      exact ⟨ends.split, found, of_decide_eq_true near⟩
  · rintro ⟨rfl, found, near⟩
    have behind : (text ++ crlf ++ rest).drop (text.length + 2) = rest :=
      List.drop_left' (by rw [List.length_append, Bytes.length_crlf])
    rw [line_of_lineEnd found near, behind, List.append_assoc, List.take_left]

theorem announced_eq_ok_iff {text : Bytes} {length : Int64} :
    announced tag text = .ok length ↔
      ∃ digits, text = tag.byte :: digits ∧ Decimal.Numeral digits length.toInt := by
  cases text with
  | nil => simp [announced]
  | cons found digits =>
    unfold announced
    dsimp only
    split
    next tagged =>
      simp only [tagged, List.cons.injEq, true_and, exists_eq_left', ← Decimal.length?_eq_some_iff]
      cases Decimal.length? digits <;> simp
    next other =>
      constructor
      · intro accepted
        cases accepted
      · rintro ⟨_, same, -⟩
        exact absurd (List.cons.inj same).1 other

theorem header_eq_done_iff {length : Int64} :
    header tag bytes = .done length rest ↔
      ∃ digits, Decimal.Numeral digits length.toInt ∧ digits.length ≤ 63 ∧
        bytes = Reply.line tag digits ++ rest := by
  unfold header
  rw [bind_eq_done_iff]
  constructor
  · rintro ⟨text, middle, read, done⟩
    obtain ⟨split, -, near⟩ := line_eq_done_iff.1 read
    obtain ⟨accepted, rfl⟩ := ofExcept_eq_done_iff.1 done
    obtain ⟨digits, rfl, numeral⟩ := announced_eq_ok_iff.1 accepted
    exact ⟨digits, numeral, Nat.le_of_succ_le_succ near, split⟩
  · rintro ⟨digits, numeral, short, rfl⟩
    refine ⟨tag.byte :: digits, rest, line_eq_done_iff.2 ⟨rfl, ?_, Nat.succ_le_succ short⟩, ?_⟩
    · exact lineEnd?_line (cr_not_mem_cons numeral.cr_not_mem) rest
    · exact ofExcept_eq_done_iff.2 ⟨announced_eq_ok_iff.2 ⟨digits, rfl, numeral⟩, rfl⟩

theorem payload_eq_done_iff {length : Nat} {data : Bytes} :
    payload length bytes = .done data rest ↔ data.length = length ∧ bytes = data ++ rest := by
  unfold payload
  split
  next short =>
    refine iff_of_false nofun ?_
    rintro ⟨rfl, rfl⟩
    rw [List.length_append] at short
    omega
  next long =>
    rw [Scanned.done.injEq]
    constructor
    · rintro ⟨rfl, rfl⟩
      exact ⟨by rw [List.length_take]; omega, (List.take_append_drop ..).symm⟩
    · rintro ⟨rfl, rfl⟩
      exact ⟨List.take_left, List.drop_left⟩

theorem terminator_eq_done_iff {u : Unit} :
    terminator bytes = .done u rest ↔ bytes = crlf ++ rest := by
  unfold terminator
  constructor
  · intro done
    split at done
    next => cases done
    next =>
      split at done
      next ended =>
        cases done
        rw [← ended, List.take_append_drop]
      next => cases done
  · rintro rfl
    have long : ¬(crlf ++ rest).length < 2 := by
      rw [List.length_append, Bytes.length_crlf]
      omega
    have ended : (crlf ++ rest).take 2 = crlf := rfl
    rw [if_neg long, if_pos ended]
    rfl

/-- A line whose length passes a check announces a size. -/
theorem announces_iff {check : Int64 → Except RequestError Nat}
    (passes : ∀ length size, check length = .ok size ↔ length.toInt = size ∧ size ≤ limit)
    (small : limit ≤ 1073741824) :
    (header tag >>= fun length => ofExcept (check length)) bytes = .done size rest ↔
      ∃ digits, Announces digits size limit ∧ bytes = Reply.line tag digits ++ rest := by
  rw [bind_eq_done_iff]
  constructor
  · rintro ⟨length, middle, read, done⟩
    obtain ⟨digits, numeral, short, split⟩ := header_eq_done_iff.1 read
    obtain ⟨accepted, rfl⟩ := ofExcept_eq_done_iff.1 done
    obtain ⟨same, bounded⟩ := (passes length size).1 accepted
    rw [same] at numeral
    exact ⟨digits, ⟨numeral, short, bounded⟩, split⟩
  · rintro ⟨digits, ⟨numeral, short, bounded⟩, split⟩
    -- A size within the limit is a 64-bit integer, so the digits are read.
    have same : (Int64.ofInt size).toInt = size :=
      Int64.toInt_ofInt_of_le (by omega) (by omega)
    refine ⟨Int64.ofInt size, rest, header_eq_done_iff.2 ⟨digits, ?_, short, split⟩, ?_⟩
    · rwa [same]
    · exact ofExcept_eq_done_iff.2 ⟨(passes _ _).2 ⟨same, bounded⟩, rfl⟩

theorem argument_eq_done_iff {data : Bytes} :
    argument bytes = .done data rest ↔
      ∃ item : Frame.Item, item.data = data ∧ bytes = item.wire ++ rest := by
  rw [argument_eq, bind_eq_done_iff]
  constructor
  · rintro ⟨length, behindHeader, announced, followed⟩
    obtain ⟨digits, announces, rfl⟩ :=
      (announces_iff (fun _ _ => Reader.checkPayload_eq_ok_iff) (by decide)).1 announced
    obtain ⟨found, behindPayload, read, followed'⟩ := bind_eq_done_iff.1 followed
    obtain ⟨rfl, rfl⟩ := payload_eq_done_iff.1 read
    obtain ⟨u, behindItem, ended, done⟩ := bind_eq_done_iff.1 followed'
    obtain rfl := terminator_eq_done_iff.1 ended
    obtain ⟨rfl, rfl⟩ := pure_eq_done_iff.1 done
    exact ⟨⟨digits, found, announces⟩, rfl, by simp [Frame.Item.wire]⟩
  · rintro ⟨⟨digits, data, announces⟩, rfl, rfl⟩
    refine ⟨data.length, data ++ (crlf ++ rest), ?_, ?_⟩
    · refine (announces_iff (fun _ _ => Reader.checkPayload_eq_ok_iff) (by decide)).2 ?_
      exact ⟨digits, announces, by simp [Frame.Item.wire]⟩
    · refine bind_eq_done_iff.2 ⟨data, crlf ++ rest, payload_eq_done_iff.2 ⟨rfl, rfl⟩, ?_⟩
      refine bind_eq_done_iff.2 ⟨(), rest, terminator_eq_done_iff.2 rfl, ?_⟩
      exact pure_eq_done_iff.2 ⟨rfl, rfl⟩

theorem arguments_eq_done_iff {count : Nat} {read : List Bytes} :
    arguments count bytes = .done read rest ↔
      ∃ items : List Frame.Item, items.length = count ∧ items.map Frame.Item.data = read ∧
        bytes = items.flatMap Frame.Item.wire ++ rest := by
  induction count generalizing bytes read with
  | zero =>
    rw [arguments, pure_eq_done_iff]
    constructor
    · rintro ⟨rfl, rfl⟩
      exact ⟨[], rfl, rfl, rfl⟩
    · rintro ⟨items, empty, rfl, rfl⟩
      cases List.eq_nil_of_length_eq_zero empty
      exact ⟨rfl, rfl⟩
  | succ count ih =>
    rw [arguments, bind_eq_done_iff]
    constructor
    · rintro ⟨data, behindFirst, first, followed⟩
      obtain ⟨item, rfl, rfl⟩ := argument_eq_done_iff.1 first
      obtain ⟨others, behindOthers, second, done⟩ := bind_eq_done_iff.1 followed
      obtain ⟨rfl, rfl⟩ := pure_eq_done_iff.1 done
      obtain ⟨items, rfl, rfl, rfl⟩ := ih.1 second
      exact ⟨item :: items, rfl, rfl, by simp⟩
    · rintro ⟨items, length, rfl, rfl⟩
      cases items with
      | nil => cases length
      | cons item items =>
        refine ⟨item.data, items.flatMap Frame.Item.wire ++ rest, ?_, ?_⟩
        · exact argument_eq_done_iff.2 ⟨item, rfl, by simp⟩
        · refine bind_eq_done_iff.2 ⟨items.map Frame.Item.data, rest, ?_, ?_⟩
          · exact ih.2 ⟨items, Nat.succ.inj length, rfl, rfl⟩
          · exact pure_eq_done_iff.2 ⟨rfl, rfl⟩

theorem start_eq_done_iff {u : Unit} : start bytes = .done u rest ↔ bytes ≠ [] ∧ bytes = rest := by
  unfold start
  split
  next empty => exact iff_of_false nofun fun unread => unread.1 empty
  next unread => simp [unread]

/-- A scan takes the bytes of a frame and nothing else. -/
theorem request_eq_done_iff {read : List Bytes} :
    request bytes = .done read rest ↔
      ∃ frame : Frame, frame.arguments = read ∧ bytes = frame.wire ++ rest := by
  rw [request_eq, bind_eq_done_iff]
  constructor
  · rintro ⟨u, behindStart, started, followed⟩
    obtain ⟨-, rfl⟩ := start_eq_done_iff.1 started
    obtain ⟨count, behindHeader, announced, done⟩ := bind_eq_done_iff.1 followed
    obtain ⟨digits, announces, rfl⟩ :=
      (announces_iff (fun _ _ => Reader.checkCount_eq_ok_iff) (by decide)).1 announced
    obtain ⟨items, rfl, rfl, rfl⟩ := arguments_eq_done_iff.1 done
    exact ⟨⟨digits, items, announces⟩, rfl, by simp [Frame.wire]⟩
  · rintro ⟨⟨digits, items, announces⟩, rfl, rfl⟩
    refine ⟨(), _, start_eq_done_iff.2 ⟨by simp [Frame.wire, Reply.line], rfl⟩, ?_⟩
    refine bind_eq_done_iff.2 ⟨items.length, items.flatMap Frame.Item.wire ++ rest, ?_, ?_⟩
    · refine (announces_iff (fun _ _ => Reader.checkCount_eq_ok_iff) (by decide)).2 ?_
      exact ⟨digits, announces, by simp [Frame.wire]⟩
    · exact arguments_eq_done_iff.2 ⟨items, rfl, rfl, rfl⟩

end Scan

namespace Reader

/-- A reader returns the arguments of a frame and leaves what stands behind it, and it does so only
where a frame stands. No two frames stand at one place. -/
theorem request_accepts_frames (reader : Reader) (read : List Bytes) (rest : Bytes) :
    ((∃ next, request reader = .ok read next ∧ next.source.bytes = rest) ↔
      ∃ frame : Frame, frame.arguments = read ∧ reader.source.bytes = frame.wire ++ rest) ∧
    ∀ (frame other : Frame) (rest' : Bytes),
      frame.wire ++ rest = other.wire ++ rest' ↔ frame = other ∧ rest = rest' := by
  refine ⟨?_, fun frame other rest' => ?_⟩
  · rw [← Scan.request_eq_done_iff]
    constructor
    · rintro ⟨next, done, rfl⟩
      exact follows_request.done_of_ok done
    · intro done
      obtain ⟨next, done, left, -⟩ := follows_request.ok_of_done done
      exact ⟨next, done, left⟩
  · constructor
    · exact Frame.wire_append_inj
    · rintro ⟨rfl, rfl⟩
      rfl

end Reader

end KvServer
