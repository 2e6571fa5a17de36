import KvServer.Proofs.Request.Grammar

/-!
# Reading back what was written

A client writes a request as an array of byte strings, which is a frame with canonical digits. Requests
written one after the other are read back one by one, and nothing of what stands behind them is taken.

* `exists_frame`: a request within the limits is written as a frame
* `Reader.request_encoded`: one request is read back
* `Reader.requests_encoded`: so is a pipeline, and behind it the end of the stream is met
-/

namespace KvServer

open Bytes (crlf)

/-- The bytes of a request as a client writes it. -/
def encodeRequest (arguments : List Bytes) : Bytes :=
  (Reply.array (arguments.map .bulk)).encode

/-- A request within the limits of the protocol. -/
structure WithinLimits (arguments : List Bytes) : Prop where
  count : arguments.length ≤ maxArguments
  payload : ∀ data ∈ arguments, data.length ≤ maxPayload

instance (arguments : List Bytes) : Decidable (WithinLimits arguments) :=
  decidable_of_iff
    (arguments.length ≤ maxArguments ∧ ∀ data ∈ arguments, data.length ≤ maxPayload)
    ⟨fun limits => ⟨limits.1, limits.2⟩, fun limits => ⟨limits.count, limits.payload⟩⟩

/-! ## Requests as frames -/

theorem announces_ofInt {size limit : Nat} (bounded : size ≤ limit) (small : limit ≤ 1073741824) :
    Announces (Decimal.ofInt size) size limit := by
  refine ⟨Decimal.numeral_ofInt size, ?_, bounded⟩
  have positive : ¬(size : Int) < 0 := by omega
  rw [Decimal.ofInt, if_neg positive, Int.natAbs_natCast]
  have short := Decimal.length_digits_le (n := size) (k := 9) (by omega)
  omega

theorem exists_items {arguments : List Bytes}
    (payload : ∀ data ∈ arguments, data.length ≤ maxPayload) :
    ∃ items : List Frame.Item, items.map Frame.Item.data = arguments ∧
      items.flatMap Frame.Item.wire = Reply.encodeAll (arguments.map .bulk) := by
  induction arguments with
  | nil => exact ⟨[], rfl, by simp [Reply.encodeAll]⟩
  | cons data arguments ih =>
    obtain ⟨first, others⟩ := List.forall_mem_cons.1 payload
    obtain ⟨items, rfl, written⟩ := ih others
    let item : Frame.Item :=
      ⟨Decimal.ofInt data.length, data, announces_ofInt first (by decide)⟩
    refine ⟨item :: items, rfl, ?_⟩
    rw [List.flatMap_cons, written, List.map_cons, Reply.encodeAll, Reply.encode]
    rfl

/-- A request within the limits is written as a frame. -/
theorem exists_frame {arguments : List Bytes} (limits : WithinLimits arguments) :
    ∃ frame : Frame, frame.arguments = arguments ∧ frame.wire = encodeRequest arguments := by
  obtain ⟨items, rfl, written⟩ := exists_items limits.payload
  -- The array announces as many items as there are.
  have count : items.length ≤ maxArguments := by
    simpa using limits.count
  refine ⟨⟨Decimal.ofInt items.length, items, announces_ofInt count (by decide)⟩, rfl, ?_⟩
  rw [Frame.wire, written, encodeRequest, Reply.encode, List.length_map, List.length_map]
  rfl

namespace Reader

/-- One request is read back. -/
theorem request_encoded {reader : Reader} {arguments : List Bytes} {rest : Bytes}
    (limits : WithinLimits arguments)
    (wire : reader.source.bytes = encodeRequest arguments ++ rest) :
    ∃ next, request reader = .ok arguments next ∧ next.source.bytes = rest ∧
      next.source.ending = reader.source.ending := by
  obtain ⟨frame, carried, written⟩ := exists_frame limits
  rw [← written] at wire
  exact follows_request.ok_of_done (Scan.request_eq_done_iff.2 ⟨frame, carried, wire⟩)

theorem pipelineFrom_encoded {commands : List (List Bytes)} {rest : Bytes}
    (limits : ∀ arguments ∈ commands, WithinLimits arguments) (read : Array (List Bytes))
    {reader : Reader} (wire : reader.source.bytes = commands.flatMap encodeRequest ++ rest) :
    ∃ last : Reader, pipelineFrom request read commands.length reader =
        ⟨read.toList ++ commands, none, last⟩ ∧
      last.source.bytes = rest ∧ last.source.ending = reader.source.ending := by
  -- Each request leaves the bytes of the next ones at the front of what its reader still holds.
  induction commands generalizing read reader with
  | nil => exact ⟨reader, by simp [pipelineFrom], wire, rfl⟩
  | cons arguments commands ih =>
    obtain ⟨first, others⟩ := List.forall_mem_cons.1 limits
    rw [List.flatMap_cons, List.append_assoc] at wire
    obtain ⟨next, done, left, ending⟩ := request_encoded first wire
    obtain ⟨last, others, rest, ending'⟩ := ih others (read.push arguments) left
    refine ⟨last, ?_, rest, ending'.trans ending⟩
    simp only [List.length_cons, pipelineFrom, done]
    simpa using others

theorem request_drained {reader : Reader} (drained : reader.source.bytes = [])
    (closed : reader.source.ending = .closed) : request reader = .error .closed reader := by
  have refused : start reader = .error .closed reader := by
    rw [start, if_pos (Source.isDrained_iff.2 drained), closed]
  change EStateM.bind start _ reader = _
  rw [EStateM.bind, refused]

/-- Requests written one after the other are read back in order, and what stands behind them is left
as it is. Where nothing does, the next request meets the end of the stream. -/
theorem requests_encoded {commands : List (List Bytes)} {rest : Bytes} {reader : Reader}
    (limits : ∀ arguments ∈ commands, WithinLimits arguments)
    (wire : reader.source.bytes = commands.flatMap encodeRequest ++ rest) :
    (reader.requests commands.length).requests = commands ∧
      (reader.requests commands.length).error? = none ∧
      (reader.requests commands.length).rest.source.bytes = rest ∧
      (rest = [] → reader.source.ending = .closed →
        ∃ last, request (reader.requests commands.length).rest = .error .closed last) := by
  obtain ⟨last, done, left, ending⟩ := pipelineFrom_encoded limits #[] wire
  rw [requests, done]
  refine ⟨rfl, rfl, left, fun nothing closed => ⟨last, ?_⟩⟩
  exact request_drained (left.trans nothing) (ending.trans closed)

/-- Three requests, of which the second is empty and the third has an empty argument and a line end. -/
def pipelined : List (List Bytes) :=
  [[Utf8.encode "PING"], [], [Utf8.encode "SET", [], crlf]]

/-- A reader that finds them in pieces of three bytes. -/
def pipelinedReader : Reader :=
  .ofSource (.ofPieces (pipelined.flatMap encodeRequest ++ []) 3 .closed)

theorem requests_encoded_pipelined :
    (∀ arguments ∈ pipelined, WithinLimits arguments) ∧
      pipelinedReader.source.bytes = pipelined.flatMap encodeRequest ++ [] ∧
      (pipelinedReader.requests pipelined.length).requests = pipelined ∧
      (pipelinedReader.requests pipelined.length).error? = none ∧
      (pipelinedReader.requests pipelined.length).rest.source.bytes = [] ∧
      ∃ last, request (pipelinedReader.requests pipelined.length).rest = .error .closed last := by
  have limits : ∀ arguments ∈ pipelined, WithinLimits arguments := by decide
  have wire : pipelinedReader.source.bytes = pipelined.flatMap encodeRequest ++ [] :=
    Source.bytes_ofPieces ..
  obtain ⟨read, intact, left, drained⟩ := requests_encoded limits wire
  exact ⟨limits, wire, read, intact, left, drained rfl rfl⟩

end Reader

end KvServer
