import KvServer.Connection.Serve
import KvServer.Proofs.Command.History
import KvServer.Proofs.Request.Delivery
import KvServer.Proofs.Request.Settled

/-!
# What a connection does

A connection executes the requests of its stream in order, each of them once, and sends their replies in
that order. Whatever ends the stream, the requests in front of it have been executed and answered.

* `callsAt`, the requests of a stream at the readings of a clock, whose `history` is what they lead to
* `ConnectionStats.after`, the statistics behind some replies
* `Connection.serve_eq`: the loop over requests, from any connection on
* `Connection.isDisconnect_errorOf?_iff`: which ends of a closed stream count as a client gone away
* `Store.serve_transcribes`: a whole connection
-/

namespace KvServer

open Reply (encodeAll)

/-- The calls that requests make, the first of them at the first reading of a clock. -/
def callsAt (readings : Nat → Instant) (requests : List (List Bytes)) : List Call :=
  requests.mapIdx fun i arguments => ⟨readings i, arguments⟩

theorem callsAt_cons (readings : Nat → Instant) (arguments : List Bytes)
    (requests : List (List Bytes)) :
    callsAt readings (arguments :: requests) =
      ⟨readings 0, arguments⟩ :: callsAt (fun i => readings (i + 1)) requests :=
  List.mapIdx_cons

theorem length_callsAt (readings : Nat → Instant) (requests : List (List Bytes)) :
    (callsAt readings requests).length = requests.length :=
  List.length_mapIdx

/-! ## Statistics -/

namespace ConnectionStats

/-- The statistics when some more requests have been answered. -/
def after (stats : ConnectionStats) (replies : List Reply) : ConnectionStats :=
  { stats with
    processed := stats.processed + UInt64.ofNat replies.length
    errors := stats.errors + UInt64.ofNat (replies.countP Reply.isError)
    written := stats.written + UInt64.ofNat (encodeAll replies).length }

theorem after_nil (stats : ConnectionStats) : stats.after [] = stats := by
  simp [after, encodeAll]

theorem after_cons (stats : ConnectionStats) (reply : Reply) (replies : List Reply) :
    stats.after (reply :: replies) =
      ((stats.answered reply.isError).wrote reply.encode.length).after replies := by
  have counted : stats.errors + UInt64.ofNat ((reply :: replies).countP Reply.isError) =
      (stats.answered reply.isError).errors + UInt64.ofNat (replies.countP Reply.isError) := by
    cases failed : reply.isError with
    | false => simp [answered, failed]
    | true => simp [answered, failed, UInt64.ofNat_add, UInt64.add_assoc, UInt64.add_comm]
  simp only [after, counted, answered, wrote, encodeAll, List.length_cons, List.length_append,
    UInt64.ofNat_add]
  simp [UInt64.add_assoc, UInt64.add_comm]

end ConnectionStats

/-! ## The loop -/

namespace Connection

variable {connection : Connection} {readings : Nat → Instant} {sending : Sending}

theorem serve_of_error {error : RequestError} {last : Reader}
    (failed : connection.reader.request = .error error last) :
    connection.serve readings sending = connection.finish (errorOf? error) := by
  rw [serve]
  split
  next error' last' failed' =>
    rw [failed] at failed'
    cases failed'
    rfl
  next done =>
    rw [failed] at done
    cases done

theorem serve_of_ok {arguments : List Bytes} {rest : Reader}
    (done : connection.reader.request = .ok arguments rest) :
    connection.serve readings sending =
      match sending 0 with
      | some broken => { connection with reader := rest }.breakOff (readings 0) arguments broken
      | none =>
        ({ connection with reader := rest }.respond (readings 0) arguments).serve
          (fun served => readings (served + 1)) fun served => sending (served + 1) := by
  rw [serve]
  split
  next failed =>
    rw [done] at failed
    cases failed
  next arguments' rest' done' =>
    rw [done] at done'
    cases done'
    rfl

/-- A connection executes and answers the requests that it can still read, and ends with the error that
it meets behind them. -/
theorem serve_eq (connection : Connection) (readings : Nat → Instant) {count : Nat}
    (enough : connection.reader.size < count) :
    ∃ error, (connection.reader.requests count).error? = some error ∧
      let calls := callsAt readings (connection.reader.requests count).requests
      let effects := history execute calls connection.store
      let replies := effects.map (·.outcome.reply)
      connection.serve readings .whole =
        ⟨connection.sent.toList ++ encodeAll replies, errorOf? error,
          stateBehind connection.store effects, (connection.stats.after replies).closed⟩ := by
  induction count generalizing connection readings with
  | zero => exact absurd enough (Nat.not_lt_zero _)
  | succ count ih =>
    cases done : connection.reader.request with
    | error error last =>
      refine ⟨error, by rw [Reader.requests_of_error done], ?_⟩
      rw [serve_of_error done, Reader.requests_of_error done]
      simp [finish, callsAt, history, encodeAll, stateBehind, ConnectionStats.after_nil]
    | ok arguments rest =>
      have shorter := Reader.progressive_request _ _ _ done
      obtain ⟨error, met, served⟩ := ih
        ({ connection with reader := rest }.respond (readings 0) arguments)
        (fun served => readings (served + 1)) (Nat.lt_of_lt_of_le shorter (Nat.le_of_lt_succ enough))
      refine ⟨error, by rw [Reader.requests_of_ok done]; exact met, ?_⟩
      rw [serve_of_ok done]
      refine Eq.trans served ?_
      rw [Reader.requests_of_ok done, callsAt_cons]
      simp only [respond, answer, send, history, List.map_cons, encodeAll, stateBehind, List.foldl_cons,
        Array.toList_appendList, List.append_assoc, ConnectionStats.after_cons]

end Connection

/-! ## The end of a connection -/

namespace Reader

theorem error?_requests_of_closed {reader : Reader} {count : Nat} {error : RequestError}
    (met : (reader.requests count).error? = some error) (closed : reader.source.ending = .closed) :
    error.isMalformed ∨ error = .closed ∨ error = .unexpectedEnd := by
  induction count generalizing reader with
  | zero => cases met
  | succ count ih =>
    cases done : reader.request with
    | error error' last =>
      rw [requests_of_error done] at met
      cases met
      rcases error_of_closed done closed with ⟨malformed, -⟩ | ⟨same, -⟩ | ⟨same, -⟩
      · exact .inl malformed
      · exact .inr (.inl same)
      · exact .inr (.inr same)
    | ok arguments rest =>
      rw [requests_of_ok done] at met
      exact ih met ((follows_request.ending_of_ok done).trans closed)

end Reader

/-- Bytes that are no request are the fault of a client that is still there. -/
theorem ConnectionError.isDisconnect_of_isMalformed {error : RequestError}
    (malformed : error.isMalformed) : ConnectionError.isDisconnect (.request error) = false := by
  cases error <;> first | rfl | cases malformed

theorem Connection.errorOf?_eq (error : RequestError) :
    errorOf? error = if error = .closed then none else some (.request error) := by
  cases error <;> rfl

/-- Of the ways in which requests end, only an early end of the stream counts as a client gone away. -/
theorem Connection.isDisconnect_errorOf?_iff {error : RequestError}
    (ended : error.isMalformed ∨ error = .closed ∨ error = .unexpectedEnd) :
    (errorOf? error).any ConnectionError.isDisconnect = true ↔ error = .unexpectedEnd := by
  rcases ended with malformed | rfl | rfl
  · have notClosed : error ≠ .closed := by
      rintro rfl
      cases malformed
    have notEnd : error ≠ .unexpectedEnd := by
      rintro rfl
      cases malformed
    rw [errorOf?_eq, if_neg notClosed, Option.any_some,
      ConnectionError.isDisconnect_of_isMalformed malformed]
    exact iff_of_false nofun notEnd
  · exact iff_of_false nofun nofun
  · exact iff_of_true rfl rfl

/-- A connection executes the requests that its stream holds in front of the first error, in order, each
once and nothing besides, and sends their replies in that order. It ends well if the client closed it
between two requests, and otherwise with that error. The statistics count the connection, the requests,
the replies that are errors and the bytes sent, however it ends. -/
theorem Store.serve_transcribes (store : Store) (stats : ConnectionStats) (source : Source)
    (readings : Nat → Instant) (closed : source.ending = .closed) {count : Nat}
    (enough : source.bytes.length < count) :
    ∃ error, ((Reader.ofSource source).requests count).error? = some error ∧
      let requests := ((Reader.ofSource source).requests count).requests
      let effects := history execute (callsAt readings requests) store
      let replies := effects.map (·.outcome.reply)
      let served := store.serve stats source readings
      replies.length = requests.length ∧
        served.sent = encodeAll replies ∧
        served.store = stateBehind store effects ∧
        served.error? = (if error = .closed then none else some (.request error)) ∧
        (served.error?.any ConnectionError.isDisconnect = true ↔ error = .unexpectedEnd) ∧
        served.stats =
          { accepted := stats.accepted + 1
            active := stats.active
            processed := stats.processed + UInt64.ofNat requests.length
            errors := stats.errors + UInt64.ofNat (replies.countP Reply.isError)
            written := stats.written + UInt64.ofNat (encodeAll replies).length } := by
  obtain ⟨error, met, served⟩ :=
    Connection.serve_eq ⟨.ofSource source, store, stats.opened, #[]⟩ readings enough
  refine ⟨error, met, ?_⟩
  have answered : ((history execute
      (callsAt readings ((Reader.ofSource source).requests count).requests) store).map
        (·.outcome.reply)).length = ((Reader.ofSource source).requests count).requests.length := by
    rw [List.length_map, length_history, length_callsAt]
  have ended := Reader.error?_requests_of_closed met closed
  dsimp only at served ⊢
  rw [Store.serve, Store.serveSending, served]
  refine ⟨answered, rfl, rfl, Connection.errorOf?_eq error,
    Connection.isDisconnect_errorOf?_iff ended, ?_⟩
  -- Opened and closed: as many connections are active as before, also if the counter wraps.
  have active : stats.active + 1 - 1 = stats.active := UInt64.add_sub_cancel _ _
  simp only [ConnectionStats.after, ConnectionStats.opened, ConnectionStats.closed, answered, active]

/-- A client that sets a key, counts up what is no number, and goes away inside its next request. -/
def brokenOff : Bytes :=
  Utf8.encode
    "*3\r\n$3\r\nSET\r\n$1\r\nk\r\n$1\r\nx\r\n*2\r\n$4\r\nINCR\r\n$1\r\nk\r\n*1\r\n$4\r\nPI"

theorem Store.serve_transcribes_brokenOff :
    let source := Source.ofPieces brokenOff 5 .closed
    let served := Store.empty.serve .zero source UInt64.ofNat
    source.ending = .closed ∧ source.bytes.length < 99 ∧
      served.sent = Utf8.encode "+OK\r\n-ERR value is not an integer or out of range\r\n" ∧
      served.error? = some (.request .unexpectedEnd) ∧
      served.error?.any ConnectionError.isDisconnect = true ∧
      served.stats = ⟨1, 0, 2, 1, 51⟩ := by
  intro source served
  have bytes : source.bytes = brokenOff := Source.bytes_ofPieces ..
  have short : source.bytes.length < 99 := by
    rw [bytes]
    decide +kernel
  -- Only the bytes of the stream matter, so the pieces are left aside.
  have unread : ((Reader.ofSource source).requests 99).map (·.source.unread) =
      Reader.pipelineFrom Unread.request #[] 99 ⟨brokenOff, .closed⟩ := by
    rw [Reader.requests_map, ← bytes]
    rfl
  have requests : ((Reader.ofSource source).requests 99).requests =
      [[Utf8.encode "SET", Utf8.encode "k", Utf8.encode "x"],
        [Utf8.encode "INCR", Utf8.encode "k"]] := by
    refine (congrArg Reader.Pipeline.requests unread).trans ?_
    decide +kernel
  have last : ((Reader.ofSource source).requests 99).error? = some .unexpectedEnd := by
    refine (congrArg Reader.Pipeline.error? unread).trans ?_
    decide +kernel
  obtain ⟨error, met, -, sent, -, error?, disconnect, stats⟩ :=
    Store.serve_transcribes .empty .zero source UInt64.ofNat rfl short
  have early : error = .unexpectedEnd := Option.some.inj (met.symm.trans last)
  rw [requests] at sent stats
  exact ⟨rfl, short, sent, error?.trans (by rw [early]; rfl), disconnect.2 early, stats⟩

end KvServer
