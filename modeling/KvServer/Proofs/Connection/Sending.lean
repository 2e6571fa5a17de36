import KvServer.Proofs.Connection.Transcript

/-!
# Replies that cannot be sent

A connection ends with the first reply that cannot be sent. The request behind that reply has been executed
and counted like those before it, and stays executed; of the reply itself some bytes may have gone out, and
these are not counted.

* `Connection.serve_of_clear`: a transport that breaks behind the last reply breaks nothing
* `Connection.serve_of_broken`: a connection up to the reply that cannot be sent
* `Store.serveSending_exact`: a whole connection
-/

namespace KvServer

open Reply (encodeAll)

theorem Reader.exists_of_requests_eq_cons {reader : Reader} {count : Nat} {first : List Bytes}
    {others : List (List Bytes)} (split : (reader.requests count).requests = first :: others) :
    ∃ next count', reader.request = .ok first next ∧ (next.requests count').requests = others := by
  cases count with
  | zero => cases split
  | succ count =>
    cases read : reader.request with
    | error error last =>
      rw [requests_of_error read] at split
      cases split
    | ok arguments next =>
      rw [requests_of_ok read] at split
      obtain ⟨rfl, rest⟩ := List.cons.inj split
      exact ⟨next, count, rfl, rest⟩

namespace Connection

variable {connection : Connection} {readings : Nat → Instant} {sending : Sending}

theorem serve_of_clear {count : Nat} (enough : connection.reader.size < count)
    (clear : ∀ i < (connection.reader.requests count).requests.length, sending i = none) :
    connection.serve readings sending = connection.serve readings .whole := by
  induction count generalizing connection readings sending with
  | zero => exact absurd enough (Nat.not_lt_zero _)
  | succ count ih =>
    cases read : connection.reader.request with
    | error error last => rw [serve_of_error read, serve_of_error read]
    | ok arguments rest =>
      have shorter := Reader.progressive_request _ _ _ read
      rw [Reader.requests_of_ok read, List.length_cons] at clear
      rw [serve_of_ok read, serve_of_ok read, clear 0 (Nat.zero_lt_succ _)]
      exact ih (Nat.lt_of_lt_of_le shorter (Nat.le_of_lt_succ enough)) fun i before =>
        clear (i + 1) (Nat.succ_lt_succ before)

/-- A connection executes the requests up to the one whose reply cannot be sent. All other replies go out
whole, and only they are counted as written. -/
theorem serve_of_broken {count : Nat} {front later : List (List Bytes)} {arguments : List Bytes}
    {broken : SendFailure}
    (split : (connection.reader.requests count).requests = front ++ arguments :: later)
    (clear : ∀ i < front.length, sending i = none) (breaks : sending front.length = some broken) :
    let effects := history execute (callsAt readings (front ++ [arguments])) connection.store
    let replies := effects.map (·.outcome.reply)
    ∃ earlier last, replies = earlier ++ [last] ∧ earlier.length = front.length ∧
      connection.serve readings sending =
        ⟨connection.sent.toList ++ (encodeAll earlier ++ last.encode.take broken.count),
          some (.transport broken.failure), stateBehind connection.store effects,
          { connection.stats.after replies with
            written := (connection.stats.after earlier).written }.closed⟩ := by
  induction front generalizing connection readings sending count with
  | nil =>
    obtain ⟨rest, -, read, -⟩ := Reader.exists_of_requests_eq_cons split
    have breaks : sending 0 = some broken := breaks
    refine ⟨[], (execute arguments (readings 0) connection.store).1.reply, rfl, rfl, ?_⟩
    rw [serve_of_ok read, breaks]
    simp [breakOff, answer, finish, history, callsAt, stateBehind, encodeAll, ConnectionStats.after_cons,
      ConnectionStats.after_nil, ConnectionStats.wrote, ConnectionStats.answered]
  | cons first front ih =>
    obtain ⟨rest, count', read, split'⟩ := Reader.exists_of_requests_eq_cons split
    have sent : sending 0 = none := clear 0 (Nat.zero_lt_succ _)
    obtain ⟨earlier, last, replies, length, served⟩ :=
      @ih ({ connection with reader := rest }.respond (readings 0) first)
        (fun served => readings (served + 1)) (fun served => sending (served + 1)) count' split'
        (fun i before => clear (i + 1) (Nat.succ_lt_succ before)) breaks
    refine ⟨(execute first (readings 0) connection.store).1.reply :: earlier, last, ?_,
      congrArg (· + 1) length, ?_⟩
    · rw [List.cons_append, callsAt_cons]
      exact congrArg (List.cons _) replies
    · rw [serve_of_ok read, sent]
      refine Eq.trans served ?_
      rw [List.cons_append, callsAt_cons]
      simp only [respond, answer, send, history, List.map_cons, encodeAll, stateBehind,
        List.foldl_cons, Array.toList_appendList, List.append_assoc, ConnectionStats.after_cons]

end Connection

/-- A connection on which every reply can be sent goes as if nothing could break. Otherwise it ends with the
first reply that cannot be sent: the requests up to that one have been executed, in order, each once and
nothing besides, and the replies in front of it have gone out whole, and of itself as much as had gone out
when the transport broke. It counts as a client gone away if that is what broke the transport. The
statistics count the requests that were executed, and of the bytes those of whole replies. -/
theorem Store.serveSending_exact (store : Store) (stats : ConnectionStats) (source : Source)
    (readings : Nat → Instant) (sending : Sending) {count : Nat} (enough : source.bytes.length < count) :
    let requests := ((Reader.ofSource source).requests count).requests
    let served := store.serveSending stats source readings sending
    ((∀ i < requests.length, sending i = none) → served = store.serve stats source readings) ∧
      ∀ front arguments later broken, requests = front ++ arguments :: later →
        (∀ i < front.length, sending i = none) → sending front.length = some broken →
        let effects := history execute (callsAt readings (front ++ [arguments])) store
        let replies := effects.map (·.outcome.reply)
        ∃ earlier last, replies = earlier ++ [last] ∧ earlier.length = front.length ∧
          served.sent = encodeAll earlier ++ last.encode.take broken.count ∧
          served.store = stateBehind store effects ∧
          served.error? = some (.transport broken.failure) ∧
          (served.error?.any ConnectionError.isDisconnect = true ↔ broken.failure.isReset = true) ∧
          served.stats =
            { accepted := stats.accepted + 1
              active := stats.active
              processed := stats.processed + UInt64.ofNat (front.length + 1)
              errors := stats.errors + UInt64.ofNat (replies.countP Reply.isError)
              written := stats.written + UInt64.ofNat (encodeAll earlier).length } := by
  intro requests served
  refine ⟨fun clear => Connection.serve_of_clear enough clear,
    fun front arguments later broken split clear breaks => ?_⟩
  obtain ⟨earlier, last, replies, length, same⟩ :=
    @Connection.serve_of_broken ⟨.ofSource source, store, stats.opened, #[]⟩ readings sending count front
      later arguments broken split clear breaks
  have same : served = _ := same
  rw [same]
  refine ⟨earlier, last, replies, length, rfl, rfl, rfl, Iff.rfl, ?_⟩
  have answered := congrArg List.length replies
  rw [List.length_append, length, List.length_singleton] at answered
  simp only [ConnectionStats.after, ConnectionStats.opened, ConnectionStats.closed, answered,
    UInt64.add_sub_cancel]

end KvServer
