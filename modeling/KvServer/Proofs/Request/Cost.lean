import KvServer.Proofs.Connection.Transcript
import KvServer.Proofs.Request.Grammar

/-!
# What requests cost

A request is paid for with bytes that have arrived: four for the line that announces its arguments, six
for each argument besides its own bytes, whatever lengths are announced. So a stream has room for a
quarter as many requests as it has bytes, and what is read from it is never more than was sent.

* `Frame.length_wire`: the bytes of a frame, from below and from above
* `Reader.request_takes`: what a request takes off the front of its stream
* `Reader.requests_paid`: requests and arguments against the bytes of a stream
* `Reader.requests_bounded`: all of this for a reader and for the connection that is served with it
-/

namespace KvServer

/-! ## Frames -/

theorem Decimal.IsNatural.length_pos {s : Bytes} {n : Nat} (natural : Decimal.IsNatural s n) :
    0 < s.length :=
  List.length_pos_iff.2 natural.nonempty

theorem Decimal.Numeral.length_pos {s : Bytes} {n : Int} (numeral : Decimal.Numeral s n) :
    0 < s.length := by
  cases numeral with
  | bare natural => exact natural.length_pos
  | minus natural => exact Nat.succ_pos _

/-- A line that announces a size takes a tag, between one and 63 digits, and a line end. -/
theorem Announces.length_line {digits : Bytes} {size limit : Nat}
    (announces : Announces digits size limit) (tag : Tag) :
    4 ≤ (Reply.line tag digits).length ∧ (Reply.line tag digits).length ≤ 66 := by
  have some := announces.numeral.length_pos
  have few := announces.short
  simp only [Reply.line, List.length_append, List.length_cons, Bytes.length_crlf]
  omega

namespace Frame

theorem Item.length_wire (item : Item) :
    6 + item.data.length ≤ item.wire.length ∧ item.wire.length ≤ 68 + item.data.length := by
  have line := item.announced.length_line .bulk
  simp only [Item.wire, List.length_append, Bytes.length_crlf]
  omega

theorem length_flatMap_wire (items : List Item) :
    (items.map fun item => 6 + item.data.length).sum ≤ (items.flatMap Item.wire).length ∧
      (items.flatMap Item.wire).length ≤ (items.map fun item => 68 + item.data.length).sum := by
  induction items with
  | nil => exact ⟨Nat.le_refl _, Nat.le_refl _⟩
  | cons item items ih =>
    have first := item.length_wire
    simp only [List.map_cons, List.sum_cons, List.flatMap_cons, List.length_append]
    omega

/-- The bytes of a frame, from below and from above. -/
theorem length_wire (frame : Frame) :
    4 + (frame.arguments.map fun data => 6 + data.length).sum ≤ frame.wire.length ∧
      frame.wire.length ≤ 66 + (frame.arguments.map fun data => 68 + data.length).sum := by
  have line := frame.announced.length_line .array
  have items := length_flatMap_wire frame.items
  simp only [arguments, List.map_map, Function.comp_def, wire, List.length_append]
  omega

end Frame

/-! ## Requests -/

namespace Reader

theorem size_eq_of_append {reader next : Reader} {taken : Bytes}
    (split : reader.source.bytes = taken ++ next.source.bytes) :
    reader.size = taken.length + next.size := by
  rw [size, Source.size, split, List.length_append]
  rfl

/-- A request takes its bytes off the front of its stream. -/
theorem request_takes {reader next : Reader} {arguments : List Bytes}
    (done : request reader = .ok arguments next) :
    ∃ taken, reader.source.bytes = taken ++ next.source.bytes ∧
      4 + (arguments.map fun data => 6 + data.length).sum ≤ taken.length ∧
      taken.length ≤ 66 + (arguments.map fun data => 68 + data.length).sum := by
  obtain ⟨frame, rfl, split⟩ := Scan.request_eq_done_iff.1 (follows_request.done_of_ok done)
  exact ⟨frame.wire, split, frame.length_wire⟩

/-- A request leaves its stream shorter by four bytes, by six for each argument, and by the arguments. -/
theorem size_add_le_of_request {reader next : Reader} {arguments : List Bytes}
    (done : request reader = .ok arguments next) :
    next.size + 4 + 6 * arguments.length + (arguments.map List.length).sum ≤ reader.size := by
  obtain ⟨taken, split, least, -⟩ := request_takes done
  have length := size_eq_of_append split
  have apart : (arguments.map fun data => 6 + data.length).sum =
      6 * arguments.length + (arguments.map List.length).sum := by
    rw [List.sum_map_add, List.map_const', List.sum_replicate_nat, Nat.mul_comm]
  omega

theorem size_le_of_request_error {reader last : Reader} {error : RequestError}
    (failed : request reader = .error error last) : last.size ≤ reader.size := by
  rcases follows_request.refused_or_short_of_error failed with refused | ⟨site, gaveOut, -⟩
  · obtain ⟨-, front, split, -, -⟩ := Scan.settled_of_refused refused
    rw [size_eq_of_append split]
    exact Nat.le_add_left ..
  · obtain ⟨last', failed', empty, -⟩ := follows_request.error_of_short gaveOut
    rw [failed] at failed'
    cases failed'
    rw [size, Source.size, empty]
    exact Nat.zero_le _

/-- The bytes of a stream pay for all requests that are read from it, and those left are not spent. -/
theorem requests_paid (reader : Reader) (count : Nat) :
    4 * (reader.requests count).requests.length +
        6 * (reader.requests count).requests.flatten.length +
        ((reader.requests count).requests.flatten.map List.length).sum +
        (reader.requests count).rest.size ≤ reader.size := by
  induction count generalizing reader with
  | zero => exact Nat.le_of_eq (Nat.zero_add _)
  | succ count ih =>
    cases done : request reader with
    | error error last =>
      rw [requests_of_error done]
      have left := size_le_of_request_error done
      simpa using left
    | ok arguments next =>
      have first := size_add_le_of_request done
      have others := ih next
      rw [requests_of_ok done]
      simp only [List.length_cons, List.flatten_cons, List.length_append, List.map_append,
        List.sum_append]
      omega

theorem length_requests_le (reader : Reader) (count : Nat) :
    (reader.requests count).requests.length ≤ reader.size / 4 := by
  have paid := reader.requests_paid count
  omega

/-- Where no error ends the reading, as many requests were read as were asked for. -/
theorem length_requests_of_none {reader : Reader} {count : Nat}
    (intact : (reader.requests count).error? = none) :
    (reader.requests count).requests.length = count := by
  induction count generalizing reader with
  | zero => rfl
  | succ count ih =>
    cases done : request reader with
    | error error last =>
      rw [requests_of_error done] at intact
      cases intact
    | ok arguments next =>
      rw [requests_of_ok done] at intact ⊢
      rw [List.length_cons, ih intact]

/-- There are no more requests in a stream than its bytes can pay for, so an error is met behind them. -/
theorem error?_requests_of_unpaid {reader : Reader} {count : Nat} (unpaid : reader.size / 4 < count) :
    ∃ error, (reader.requests count).error? = some error := by
  refine Option.ne_none_iff_exists'.1 fun intact => ?_
  have all := length_requests_of_none intact
  have few := reader.length_requests_le count
  omega

/-! ## Requests that are not read to their end -/

/-- The first arguments of a request, whatever number of them it announces. -/
def firstArguments (count : Nat) : Step (Array Bytes) := do
  start
  let _ ← header .array
  argumentsFrom #[] count

theorem size_add_le_of_argumentsFrom {reader next : Reader} {count : Nat} {read : Array Bytes}
    (done : argumentsFrom #[] count reader = .ok read next) :
    (read.toList.map List.length).sum + next.size ≤ reader.size := by
  have scanned := (follows_argumentsFrom #[] count).done_of_ok done
  obtain ⟨others, middle, collected, told⟩ := Scan.bind_eq_done_iff.1 scanned
  obtain ⟨rfl, rfl⟩ := Scan.pure_eq_done_iff.1 told
  obtain ⟨items, -, rfl, split⟩ := Scan.arguments_eq_done_iff.1 collected
  have least := (Frame.length_flatMap_wire items).1
  rw [List.sum_map_add] at least
  have length := size_eq_of_append split
  simp only [Array.empty_append, List.map_map, Function.comp_def]
  omega

theorem follows_firstArguments (count : Nat) : Follows (firstArguments count) (do
    Scan.start
    let _ ← Scan.header .array
    let others ← Scan.arguments count
    pure (#[] ++ others.toArray)) :=
  follows_start.bind fun _ => (follows_header _).bind fun _ => follows_argumentsFrom #[] count

/-- Arguments are paid for also where the request is not whole. -/
theorem size_add_le_of_firstArguments {reader next : Reader} {count : Nat} {read : Array Bytes}
    (done : firstArguments count reader = .ok read next) :
    (read.toList.map List.length).sum + next.size ≤ reader.size := by
  obtain ⟨_, begun, started, followed⟩ := bind_eq_ok.1 done
  obtain ⟨_, announced, read', others⟩ := bind_eq_ok.1 followed
  have paid := size_add_le_of_argumentsFrom others
  have start := bounded_start _ _ _ started
  have line := progressive_header .array _ _ _ read'
  omega

/-! ## Connections -/

/-- A connection answers no more requests than the bytes of its stream can pay for. -/
theorem exists_replies_of_serve (source : Source) (store : Store) (stats : ConnectionStats)
    (readings : Nat → Instant) :
    ∃ replies : List Reply, replies.length ≤ source.bytes.length / 4 ∧
      (store.serve stats source readings).sent = Reply.encodeAll replies ∧
      (store.serve stats source readings).stats.processed =
        stats.processed + UInt64.ofNat replies.length := by
  obtain ⟨error, -, served⟩ := Connection.serve_eq ⟨.ofSource source, store, stats.opened, #[]⟩
    readings (Nat.lt_succ_self (Reader.size (.ofSource source)))
  have few := (ofSource source).length_requests_le ((ofSource source).size + 1)
  refine ⟨_, ?_, by rw [Store.serve, Store.serveSending, served]; rfl,
    by rw [Store.serve, Store.serveSending, served]; rfl⟩
  rw [List.length_map, length_history, length_callsAt]
  exact few

/-- A request takes between four and 66 bytes for itself and between six and 68 for each argument besides
the bytes of that. Of a stream, whatever it holds, no more than a quarter as many requests are read as it
has bytes, behind which an error is met, and the arguments are no longer together than the stream, also
with those of a request that is not whole. So a connection comes to its end, and it has executed and
answered no more requests than that. -/
theorem requests_bounded (reader : Reader) :
    (∀ arguments next, request reader = .ok arguments next →
      ∃ taken, reader.source.bytes = taken ++ next.source.bytes ∧
        4 + (arguments.map fun data => 6 + data.length).sum ≤ taken.length ∧
        taken.length ≤ 66 + (arguments.map fun data => 68 + data.length).sum) ∧
    (∀ count, (reader.requests count).requests.length ≤ reader.source.bytes.length / 4 ∧
      (reader.source.bytes.length / 4 < count →
        ∃ error, (reader.requests count).error? = some error) ∧
      ((reader.requests count).requests.flatten.map List.length).sum ≤ reader.source.bytes.length ∧
      ∀ (more : Nat) (read : Array Bytes) (last : Reader),
        firstArguments more (reader.requests count).rest = .ok read last →
          ((reader.requests count).requests.flatten.map List.length).sum +
            (read.toList.map List.length).sum ≤ reader.source.bytes.length) ∧
    (∀ (store : Store) (stats : ConnectionStats) (readings : Nat → Instant),
      let served := store.serve stats reader.source readings
      ∃ replies : List Reply, replies.length ≤ reader.source.bytes.length / 4 ∧
        served.sent = Reply.encodeAll replies ∧
        served.stats.processed = stats.processed + UInt64.ofNat replies.length) := by
  refine ⟨fun _ _ => request_takes, fun count => ⟨reader.length_requests_le count,
    error?_requests_of_unpaid, ?_, fun more read last begun => ?_⟩,
    exists_replies_of_serve reader.source⟩
  · have paid : _ ≤ reader.source.bytes.length := reader.requests_paid count
    omega
  · have paid : _ ≤ reader.source.bytes.length := reader.requests_paid count
    have first := size_add_le_of_firstArguments begun
    omega

/-- A request, and behind it one that announces far more than it holds. -/
def overstated : Bytes :=
  Utf8.encode "*01\r\n$4\r\nPING\r\n*1048576\r\n$3\r\nGET\r\n$536870912\r\nxy"

/-- A reader that finds them in pieces of seven bytes. -/
def overstatedReader : Reader :=
  .ofSource (.ofPieces overstated 7 .closed)

theorem requests_bounded_overstated :
    let arguments := [Utf8.encode "PING"]
    let size := overstatedReader.source.bytes.length
    (∃ next, request overstatedReader = .ok arguments next ∧
      ∃ taken, overstatedReader.source.bytes = taken ++ next.source.bytes ∧
        14 ≤ taken.length ∧ taken.length ≤ 138) ∧
      size / 4 < 13 ∧ (∃ error, (overstatedReader.requests 13).error? = some error) ∧
      ∃ read last, firstArguments 1 (overstatedReader.requests 1).rest = .ok read last ∧
        ((overstatedReader.requests 1).requests.flatten.map List.length).sum +
          (read.toList.map List.length).sum ≤ size := by
  intro arguments size
  have bytes : overstatedReader.source.bytes = overstated := Source.bytes_ofPieces ..
  have short : size / 4 < 13 := by
    show overstatedReader.source.bytes.length / 4 < 13
    rw [bytes]
    decide +kernel
  have first : Scan.request overstatedReader.source.bytes = .done arguments (overstated.drop 15) := by
    rw [bytes]
    decide +kernel
  obtain ⟨next, done, left, -⟩ := follows_request.ok_of_done first
  have second : (overstatedReader.requests 1).rest = next := by
    rw [requests_of_ok done]
    rfl
  have begun : (do
      Scan.start
      let _ ← Scan.header .array
      let others ← Scan.arguments 1
      pure (#[] ++ others.toArray) : Scan (Array Bytes)) next.source.bytes =
        .done #[Utf8.encode "GET"] (overstated.drop 34) := by
    rw [left]
    decide +kernel
  obtain ⟨last, read, -⟩ := (follows_firstArguments 1).ok_of_done begun
  rw [← second] at read
  obtain ⟨takes, bounded, -⟩ := requests_bounded overstatedReader
  exact ⟨⟨next, done, takes _ _ done⟩, short, (bounded 13).2.1 short, _, last, read,
    (bounded 1).2.2.2 _ _ _ read⟩

end Reader

end KvServer
