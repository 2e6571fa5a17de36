import KvServer.Proofs.Request.Grammar

/-!
# Requests that are cut short

Where a stream gives out inside a request, what is there is the front of a frame: whole parts of it, and
behind them a part that is not whole. The part says what was being read.

* `Unended`, bytes that may still become a line
* `Frame.Item.Stops` and `Frame.Stops`, the fronts of arguments and requests by the place at which they stop
* `Scan.request_eq_short_iff`: a scan wants more bytes on such fronts and on no other bytes
-/

namespace KvServer

open Bytes (crlf)

/-- Bytes in which no line has ended, and fewer of them than a line may take. -/
structure Unended (text : Bytes) : Prop where
  nowhere : ∀ i, ¬EndsAt text i
  short : text.length < maxLine + 2

namespace Frame

/-- The front of an argument, by what is missing: the end of its line, bytes of its payload, or the line
end behind that. -/
inductive Item.Stops : Site → Bytes → Prop where
  | line {text : Bytes} (unended : Unended text) : Stops .line text
  | payload {digits data : Bytes} {size : Nat} (announced : Announces digits size maxPayload)
    (few : data.length < size) : Stops .payload (Reply.line .bulk digits ++ data)
  | terminator {digits data tail : Bytes} (announced : Announces digits data.length maxPayload)
    (few : tail.length < 2) : Stops .terminator (Reply.line .bulk digits ++ data ++ tail)

/-- The front of a request: nothing at all, a part of its first line, or whole arguments and the front of
one more. -/
inductive Stops : Site → Bytes → Prop where
  | start : Stops .start []
  | line {text : Bytes} (begun : text ≠ []) (unended : Unended text) : Stops .line text
  | item {digits tail : Bytes} {count : Nat} {items : List Item} {site : Site}
    (announced : Announces digits count maxArguments) (few : items.length < count)
    (stops : Item.Stops site tail) :
    Stops site (Reply.line .array digits ++ items.flatMap Item.wire ++ tail)

end Frame

namespace Scan

variable {α β : Type} {bytes : Bytes} {site : Site}

theorem bind_eq_short_iff {scan : Scan α} {follow : α → Scan β} :
    (scan >>= follow) bytes = .short site ↔
      scan bytes = .short site ∨
        ∃ a middle, scan bytes = .done a middle ∧ follow a middle = .short site := by
  change Scan.bind scan follow bytes = _ ↔ _
  unfold Scan.bind
  cases scan bytes <;> simp

theorem pure_ne_short (a : α) : (pure a : Scan α) bytes ≠ .short site :=
  nofun

theorem ofExcept_ne_short (result : Except RequestError α) : ofExcept result bytes ≠ .short site := by
  cases result <;> nofun

/-! ## Lines -/

theorem line_eq_short_iff : line bytes = .short site ↔ site = .line ∧ Unended bytes := by
  constructor
  · intro gaveOut
    unfold line at gaveOut
    split at gaveOut
    next => cases gaveOut
    next far =>
      split at gaveOut
      next short =>
        cases gaveOut
        refine ⟨rfl, fun i ends => ?_, short⟩
        -- In so few bytes every line end would be near enough.
        obtain ⟨j, before, found⟩ := ends.exists_lineEnd?
        have inside := (lineEnd?_eq_some_iff.1 found).1.add_two_le
        refine Option.filter_eq_none_iff.1 far j found (decide_eq_true ?_)
        omega
      next => cases gaveOut
  · rintro ⟨rfl, unended⟩
    exact line_of_short unended.nowhere unended.short

/-- A line that is checked gives out where the line does. -/
theorem announced_eq_short_iff {tag : Tag} {check : Int64 → Except RequestError α} :
    (header tag >>= fun length => ofExcept (check length)) bytes = .short site ↔
      site = .line ∧ Unended bytes := by
  rw [← line_eq_short_iff, header, bind_assoc, bind_eq_short_iff]
  constructor
  · rintro (gaveOut | ⟨text, middle, -, checked⟩)
    · exact gaveOut
    · rcases bind_eq_short_iff.1 checked with gaveOut | ⟨_, _, -, gaveOut⟩
      · exact absurd gaveOut (ofExcept_ne_short _)
      · exact absurd gaveOut (ofExcept_ne_short _)
  · exact .inl

theorem payloadAnnounced_iff {rest : Bytes} {size : Nat} :
    (header .bulk >>= fun length => ofExcept (Reader.checkPayload length)) bytes = .done size rest ↔
      ∃ digits, Announces digits size maxPayload ∧ bytes = Reply.line .bulk digits ++ rest :=
  announces_iff (fun _ _ => Reader.checkPayload_eq_ok_iff) (by decide)

theorem countAnnounced_iff {rest : Bytes} {size : Nat} :
    (header .array >>= fun count => ofExcept (Reader.checkCount count)) bytes = .done size rest ↔
      ∃ digits, Announces digits size maxArguments ∧ bytes = Reply.line .array digits ++ rest :=
  announces_iff (fun _ _ => Reader.checkCount_eq_ok_iff) (by decide)

/-! ## Arguments and requests -/

theorem payload_eq_short_iff {length : Nat} :
    payload length bytes = .short site ↔ site = .payload ∧ bytes.length < length := by
  unfold payload
  split
  next few => simp [few, eq_comm]
  next many => simp [many]

theorem terminator_eq_short_iff :
    terminator bytes = .short site ↔ site = .terminator ∧ bytes.length < 2 := by
  unfold terminator
  split
  next few => simp [few, eq_comm]
  next many =>
    refine iff_of_false ?_ fun short => many short.2
    split <;> nofun

theorem argument_eq_short_iff : argument bytes = .short site ↔ Frame.Item.Stops site bytes := by
  rw [argument_eq, bind_eq_short_iff, announced_eq_short_iff]
  constructor
  · rintro (⟨rfl, unended⟩ | ⟨length, behindHeader, announced, followed⟩)
    · exact .line unended
    · obtain ⟨digits, announces, rfl⟩ := payloadAnnounced_iff.1 announced
      rcases bind_eq_short_iff.1 followed with gaveOut | ⟨data, behindPayload, read, ended⟩
      · obtain ⟨rfl, few⟩ := payload_eq_short_iff.1 gaveOut
        exact .payload announces few
      · obtain ⟨rfl, rfl⟩ := payload_eq_done_iff.1 read
        rcases bind_eq_short_iff.1 ended with gaveOut | ⟨_, _, -, gaveOut⟩
        · obtain ⟨rfl, few⟩ := terminator_eq_short_iff.1 gaveOut
          rw [← List.append_assoc]
          exact .terminator announces few
        · exact absurd gaveOut (pure_ne_short _)
  · intro stops
    cases stops with
    | line unended => exact .inl ⟨rfl, unended⟩
    | payload announced few =>
      refine .inr ⟨_, _, payloadAnnounced_iff.2 ⟨_, announced, rfl⟩, ?_⟩
      exact bind_eq_short_iff.2 (.inl (payload_eq_short_iff.2 ⟨rfl, few⟩))
    | terminator announced few =>
      rw [List.append_assoc]
      refine .inr ⟨_, _, payloadAnnounced_iff.2 ⟨_, announced, rfl⟩, ?_⟩
      refine bind_eq_short_iff.2 (.inr ⟨_, _, payload_eq_done_iff.2 ⟨rfl, rfl⟩, ?_⟩)
      exact bind_eq_short_iff.2 (.inl (terminator_eq_short_iff.2 ⟨rfl, few⟩))

theorem arguments_eq_short_iff {count : Nat} :
    arguments count bytes = .short site ↔
      ∃ (items : List Frame.Item) (tail : Bytes), items.length < count ∧
        bytes = items.flatMap Frame.Item.wire ++ tail ∧ Frame.Item.Stops site tail := by
  induction count generalizing bytes with
  | zero =>
    refine iff_of_false (pure_ne_short _) ?_
    rintro ⟨_, _, few, -⟩
    exact absurd few (Nat.not_lt_zero _)
  | succ count ih =>
    rw [arguments, bind_eq_short_iff, argument_eq_short_iff]
    constructor
    · rintro (stops | ⟨data, middle, first, followed⟩)
      · exact ⟨[], bytes, Nat.succ_pos _, rfl, stops⟩
      · obtain ⟨item, rfl, rfl⟩ := argument_eq_done_iff.1 first
        rcases bind_eq_short_iff.1 followed with rest | ⟨_, _, -, gaveOut⟩
        · obtain ⟨items, tail, few, rfl, stops⟩ := ih.1 rest
          exact ⟨item :: items, tail, Nat.succ_lt_succ few, by simp, stops⟩
        · exact absurd gaveOut (pure_ne_short _)
    · rintro ⟨items, tail, few, rfl, stops⟩
      cases items with
      | nil => exact .inl stops
      | cons item items =>
        refine .inr ⟨item.data, items.flatMap Frame.Item.wire ++ tail, ?_, ?_⟩
        · exact argument_eq_done_iff.2 ⟨item, rfl, by simp⟩
        · exact bind_eq_short_iff.2
            (.inl (ih.2 ⟨items, tail, Nat.lt_of_succ_lt_succ few, rfl, stops⟩))

theorem start_eq_short_iff : start bytes = .short site ↔ site = .start ∧ bytes = [] := by
  unfold start
  split
  next empty => simp [empty, eq_comm]
  next unread => simp [unread]

/-- A scan wants more bytes on the front of a request, and tells where it stops. -/
theorem request_eq_short_iff : request bytes = .short site ↔ Frame.Stops site bytes := by
  rw [request_eq, bind_eq_short_iff, start_eq_short_iff]
  constructor
  · rintro (⟨rfl, rfl⟩ | ⟨u, behindStart, started, followed⟩)
    · exact .start
    · obtain ⟨unread, rfl⟩ := start_eq_done_iff.1 started
      rcases bind_eq_short_iff.1 followed with gaveOut | ⟨count, middle, announced, rest⟩
      · obtain ⟨rfl, unended⟩ := announced_eq_short_iff.1 gaveOut
        exact .line unread unended
      · obtain ⟨digits, announces, rfl⟩ := countAnnounced_iff.1 announced
        obtain ⟨items, tail, few, rfl, stops⟩ := arguments_eq_short_iff.1 rest
        rw [← List.append_assoc]
        exact .item announces few stops
  · intro stops
    cases stops with
    | start => exact .inl ⟨rfl, rfl⟩
    | line begun unended =>
      refine .inr ⟨(), bytes, start_eq_done_iff.2 ⟨begun, rfl⟩, ?_⟩
      exact bind_eq_short_iff.2 (.inl (announced_eq_short_iff.2 ⟨rfl, unended⟩))
    | item announced few stops =>
      refine .inr ⟨(), _, start_eq_done_iff.2 ⟨by simp [Reply.line], rfl⟩, ?_⟩
      rw [List.append_assoc]
      refine bind_eq_short_iff.2 (.inr ⟨_, _, countAnnounced_iff.2 ⟨_, announced, rfl⟩, ?_⟩)
      exact arguments_eq_short_iff.2 ⟨_, _, few, rfl, stops⟩

end Scan

end KvServer
