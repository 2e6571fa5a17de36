import KvServer.Proofs.Connection.Transcript

/-!
# One connection or several

Requests that are sent over one connection are served as they would be over several, one after the other:
a connection carries nothing from one request to the next but the store. Where a stream ends between two
requests, reading goes on behind it as it does at the start of a stream.

* `Reader.requests_append`: the requests of two streams that stand one behind the other
* `Store.serveEach`: connections one after the other, on one store
* `Store.serve_eq_serveEach`: one connection in place of several
* `Store.serve_spread`: two connections and one, and any two ways to spread requests over connections
-/

namespace KvServer

open Reply (encodeAll)

/-! ## Histories and statistics behind one another -/

theorem callsAt_append (readings : Nat → Instant) (first second : List (List Bytes)) :
    callsAt readings (first ++ second) =
      callsAt readings first ++ callsAt (fun i => readings (i + first.length)) second :=
  List.mapIdx_append

theorem stateBehind_append {σ : Type} (state : σ) (first second : List (Effect σ)) :
    stateBehind state (first ++ second) = stateBehind (stateBehind state first) second :=
  List.foldl_append

theorem history_append {σ : Type} (execute : List Bytes → Instant → σ → Outcome × σ)
    (first second : List Call) (state : σ) :
    history execute (first ++ second) state =
      history execute first state ++
        history execute second (stateBehind state (history execute first state)) := by
  induction first generalizing state with
  | nil => rfl
  | cons call first ih => exact congrArg (List.cons _) (ih _)

theorem ConnectionStats.after_append (stats : ConnectionStats) (first second : List Reply) :
    stats.after (first ++ second) = (stats.after first).after second := by
  induction first generalizing stats with
  | nil => rw [List.nil_append, after_nil]
  | cons reply first ih => rw [List.cons_append, after_cons, after_cons, ih]

/-! ## Streams behind one another -/

namespace Reader

/-- Readers of streams with the same bytes and the same ending read the same requests. -/
theorem requests_congr {left right : Reader} (bytes : left.source.bytes = right.source.bytes)
    (ending : left.source.ending = right.source.ending) (count : Nat) :
    (left.requests count).requests = (right.requests count).requests ∧
      (left.requests count).error? = (right.requests count).error? := by
  have unread : left.source.unread = right.source.unread := by
    rw [Source.unread, Source.unread, bytes, ending]
  have alike : (left.requests count).map (·.source.unread) =
      (right.requests count).map (·.source.unread) := by
    rw [requests_map, requests_map, unread]
  obtain ⟨requests, error?, -⟩ := Pipeline.mk.inj alike
  exact ⟨requests, error?⟩

/-- Behind a stream that ends between two requests, reading goes on as at the start of a stream. -/
theorem requests_append {first second joined : Reader} {count : Nat}
    (bytes : joined.source.bytes = first.source.bytes ++ second.source.bytes)
    (ending : joined.source.ending = second.source.ending)
    (closed : first.source.ending = .closed)
    (ended : (first.requests count).error? = some .closed) (more : Nat) :
    let front := (first.requests count).requests
    (joined.requests (front.length + more)).requests = front ++ (second.requests more).requests ∧
      (joined.requests (front.length + more)).error? = (second.requests more).error? := by
  induction count generalizing first joined with
  | zero => cases ended
  | succ count ih =>
    cases read : request first with
    | error error last =>
      rw [requests_of_error read] at ended ⊢
      cases ended
      rcases error_of_closed read closed with ⟨malformed, -⟩ | ⟨-, empty⟩ | ⟨other, -⟩
      · cases malformed
      · rw [empty, List.nil_append] at bytes
        simpa using requests_congr bytes ending more
      · cases other
    | ok arguments next =>
      obtain ⟨last, read', bytes'⟩ := ok_of_extended bytes read
      have ending' := (follows_request.ending_of_ok read').trans ending
      have closed' := (follows_request.ending_of_ok read).trans closed
      rw [requests_of_ok read] at ended ⊢
      obtain ⟨requests, error?⟩ := ih bytes' ending' closed' ended
      -- The request in front is one more on both sides.
      dsimp only
      rw [List.length_cons, Nat.add_right_comm, requests_of_ok read', requests, error?]
      exact ⟨rfl, rfl⟩

/-- A stream of whole requests ends between two requests. -/
theorem error?_requests_of_frames {reader : Reader} {frames : List Frame} {count : Nat}
    {error : RequestError} (bytes : reader.source.bytes = frames.flatMap Frame.wire)
    (closed : reader.source.ending = .closed)
    (met : (reader.requests count).error? = some error) : error = .closed := by
  induction count generalizing reader frames with
  | zero => cases met
  | succ count ih =>
    cases frames with
    | nil =>
      rw [requests_of_error (request_drained bytes closed)] at met
      exact (Option.some.inj met).symm
    | cons frame frames =>
      obtain ⟨next, read, left, ending⟩ :=
        follows_request.ok_of_done (Scan.request_eq_done_iff.2 ⟨frame, rfl, bytes⟩)
      rw [requests_of_ok read] at met
      exact ih left (ending.trans closed) met

end Reader

/-! ## Two connections and one -/

/-- The number of requests that can be read from a source. -/
def Source.requestCount (source : Source) : Nat :=
  ((Reader.ofSource source).requests (source.size + 1)).requests.length

/-- Says that two statistics agree on all but the connections. -/
structure ConnectionStats.SameWork (left right : ConnectionStats) : Prop where
  processed : left.processed = right.processed
  errors : left.errors = right.errors
  written : left.written = right.written

/-- Says that a client, and whoever uses the store next, cannot tell two results apart. -/
structure Served.Alike (left right : Served) : Prop where
  sent : left.sent = right.sent
  error? : left.error? = right.error?
  store : left.store = right.store
  stats : left.stats.SameWork right.stats

namespace Served.Alike

variable {first second third : Served}

theorem symm (alike : first.Alike second) : second.Alike first :=
  ⟨alike.sent.symm, alike.error?.symm, alike.store.symm, alike.stats.processed.symm,
    alike.stats.errors.symm, alike.stats.written.symm⟩

theorem trans (left : first.Alike second) (right : second.Alike third) : first.Alike third :=
  ⟨left.sent.trans right.sent, left.error?.trans right.error?, left.store.trans right.store,
    left.stats.processed.trans right.stats.processed, left.stats.errors.trans right.stats.errors,
    left.stats.written.trans right.stats.written⟩

end Served.Alike

namespace Store

variable (store : Store) (stats : ConnectionStats) (readings : Nat → Instant)

/-- A connection, from the requests of its stream and the error behind them. -/
theorem serve_of_requests {source : Source} {count : Nat} (enough : source.size < count)
    {requests : List (List Bytes)} {error : RequestError}
    (read : ((Reader.ofSource source).requests count).requests = requests)
    (met : ((Reader.ofSource source).requests count).error? = some error) :
    let effects := history execute (callsAt readings requests) store
    let replies := effects.map (·.outcome.reply)
    store.serve stats source readings =
      ⟨encodeAll replies, Connection.errorOf? error, stateBehind store effects,
        (stats.opened.after replies).closed⟩ := by
  obtain ⟨error', met', served⟩ :=
    Connection.serve_eq ⟨.ofSource source, store, stats.opened, #[]⟩ readings enough
  have same : error' = error := Option.some.inj (met'.symm.trans met)
  rw [← read, ← same]
  exact served

variable {store stats readings}

/-- A connection ends well where its stream ends between two requests. -/
theorem serve_error?_eq_none_iff {source : Source} {count : Nat} (enough : source.size < count) :
    (store.serve stats source readings).error? = none ↔
      ((Reader.ofSource source).requests count).error? = some .closed := by
  obtain ⟨error, met⟩ := @Reader.error?_requests (.ofSource source) count enough
  rw [serve_of_requests store stats readings enough rfl met, met, Connection.errorOf?_eq]
  by_cases closed : error = .closed <;> simp [closed]

/-- One connection that carries two streams, against a connection for each of them. -/
theorem serve_append {first second joined : Source}
    (bytes : joined.bytes = first.bytes ++ second.bytes) (ending : joined.ending = second.ending)
    (closed : first.ending = .closed) (well : (store.serve stats first readings).error? = none) :
    let one := store.serve stats first readings
    let two := one.store.serve one.stats second fun i => readings (i + first.requestCount)
    (store.serve stats joined readings).Alike { two with sent := one.sent ++ two.sent } := by
  have ended := (serve_error?_eq_none_iff (Nat.lt_succ_self first.size)).1 well
  have longer : joined.size = first.size + second.size := by
    simp only [Source.size, bytes, List.length_append]
  obtain ⟨error, met⟩ := @Reader.error?_requests (.ofSource second) (joined.size + 1)
    (show second.size < _ by omega)
  obtain ⟨requests, error?⟩ := @Reader.requests_append (.ofSource first) (.ofSource second)
    (.ofSource joined) (first.size + 1) bytes ending closed ended (joined.size + 1)
  rw [met] at error?
  intro one two
  have servedOne : one = _ :=
    serve_of_requests store stats readings (Nat.lt_succ_self first.size) rfl ended
  have servedTwo : two = _ := serve_of_requests one.store one.stats
    (fun i => readings (i + first.requestCount)) (by omega) rfl met
  have servedWhole := serve_of_requests store stats readings (by omega) requests error?
  dsimp only at servedWhole
  rw [callsAt_append, history_append, List.map_append, Reply.encodeAll_append, stateBehind_append,
    ConnectionStats.after_append] at servedWhole
  rw [servedTwo, servedWhole, servedOne]
  exact ⟨rfl, rfl, rfl, rfl, rfl, rfl⟩

/-! ## Any number of connections -/

/-- Connections one after the other, on one store and one clock. -/
def serveEach (store : Store) (stats : ConnectionStats) (readings : Nat → Instant) :
    List Source → Served
  | [] => ⟨[], none, store, stats⟩
  | source :: later =>
    let one := store.serve stats source readings
    let rest := one.store.serveEach one.stats (fun i => readings (i + source.requestCount)) later
    ⟨one.sent ++ rest.sent, one.error? <|> rest.error?, rest.store, rest.stats⟩

end Store

/-- Says that a source delivers some whole requests and then ends. -/
structure Source.Carries (source : Source) (frames : List Frame) : Prop where
  bytes : source.bytes = frames.flatMap Frame.wire
  closed : source.ending = .closed

theorem Source.carries_ofBytes (frames : List Frame) :
    (ofBytes (frames.flatMap Frame.wire) .closed).Carries frames :=
  ⟨bytes_ofBytes .., rfl⟩

namespace Store

theorem serve_error?_of_carries {store : Store} {stats : ConnectionStats} {readings : Nat → Instant}
    {source : Source} {frames : List Frame} (carries : source.Carries frames) :
    (store.serve stats source readings).error? = none := by
  obtain ⟨error, met⟩ :=
    @Reader.error?_requests (.ofSource source) (source.size + 1) (Nat.lt_succ_self source.size)
  have ended : error = .closed :=
    @Reader.error?_requests_of_frames (.ofSource source) _ _ _ carries.bytes carries.closed met
  rw [serve_error?_eq_none_iff (Nat.lt_succ_self source.size), met, ended]

/-- Requests on one connection are served as they are on several. -/
theorem serve_eq_serveEach {parts : List (List Frame)} {sources : List Source}
    (spread : List.Forall₂ Source.Carries sources parts) {joined : Source}
    (whole : joined.Carries parts.flatten) (store : Store) (stats : ConnectionStats)
    (readings : Nat → Instant) :
    (store.serve stats joined readings).Alike (store.serveEach stats readings sources) := by
  induction spread generalizing joined store stats readings with
  | nil =>
    -- Nothing is read, so nothing is served.
    have empty : (Reader.ofSource joined).request = .error .closed (.ofSource joined) :=
      Reader.request_drained whole.bytes whole.closed
    rw [serve, serveSending, Connection.serve_of_error empty]
    exact ⟨rfl, rfl, rfl, rfl, rfl, rfl⟩
  | @cons source own sources parts carries spread ih =>
    -- One connection for the first part and one for all others, and then one for each of these.
    have tail := Source.carries_ofBytes parts.flatten
    have bytes : joined.bytes = source.bytes ++
        (Source.ofBytes (parts.flatten.flatMap Frame.wire) .closed).bytes := by
      rw [whole.bytes, carries.bytes, tail.bytes, List.flatten_cons, List.flatMap_append]
    have well : (store.serve stats source readings).error? = none := serve_error?_of_carries carries
    have two := serve_append bytes whole.closed carries.closed well
    have each := ih tail (store.serve stats source readings).store
      (store.serve stats source readings).stats fun i => readings (i + source.requestCount)
    rw [serveEach, well]
    exact two.trans ⟨congrArg (_ ++ ·) each.sent, each.error?, each.store, each.stats⟩

/-- One connection that carries two streams, the first of which is answered to its end, sends what a
connection for each of them sends, ends as the second of these, and leaves the same store and the same
counts of work. Whole requests may be spread over connections in any way. -/
theorem serve_spread (store : Store) (stats : ConnectionStats) (readings : Nat → Instant) :
    (∀ first second joined : Source,
      joined.bytes = first.bytes ++ second.bytes → joined.ending = second.ending →
      first.ending = .closed → (store.serve stats first readings).error? = none →
        let one := store.serve stats first readings
        let two := one.store.serve one.stats second fun i => readings (i + first.requestCount)
        let whole := store.serve stats joined readings
        whole.sent = one.sent ++ two.sent ∧ whole.error? = two.error? ∧ whole.store = two.store ∧
          whole.stats.SameWork two.stats) ∧
    ∀ (parts parts' : List (List Frame)) (sources sources' : List Source),
      List.Forall₂ Source.Carries sources parts → List.Forall₂ Source.Carries sources' parts' →
      parts.flatten = parts'.flatten →
        (store.serveEach stats readings sources).Alike (store.serveEach stats readings sources') := by
  constructor
  · intro first second joined bytes ending closed well
    have alike := serve_append bytes ending closed well
    exact ⟨alike.sent, alike.error?, alike.store, alike.stats⟩
  · intro parts parts' sources sources' spread spread' same
    have whole := Source.carries_ofBytes parts.flatten
    have whole' : (Source.ofBytes (parts.flatten.flatMap Frame.wire) .closed).Carries
        parts'.flatten := same ▸ whole
    exact (serve_eq_serveEach spread whole store stats readings).symm.trans
      (serve_eq_serveEach spread' whole' store stats readings)

/-- Sets a key. -/
def setting : Bytes :=
  encodeRequest [Utf8.encode "SET", Utf8.encode "k", Utf8.encode "7"]

/-- Counts the key up. -/
def counting : Bytes :=
  encodeRequest [Utf8.encode "INCR", Utf8.encode "k"]

/-- Counts the key up and goes away inside the next request. -/
def countingOnce : Bytes :=
  counting ++ Utf8.encode "*1\r\n$4\r\nPI"

theorem serve_spread_counting :
    let first := Source.ofPieces (setting ++ counting) 2 .closed
    let second := Source.ofPieces countingOnce 7 .closed
    let joined := Source.ofPieces (setting ++ counting ++ countingOnce) 5 .closed
    let one := Store.empty.serve .zero first UInt64.ofNat
    let two := one.store.serve one.stats second fun i => UInt64.ofNat (i + first.requestCount)
    let whole := Store.empty.serve .zero joined UInt64.ofNat
    let twice := [Source.ofBytes setting .closed, .ofBytes (counting ++ counting) .closed]
    let threeTimes :=
      [Source.ofPieces (setting ++ counting) 1 .closed, .ofBytes [] .closed, .ofBytes counting .closed]
    (one.error? = none ∧ whole.sent = one.sent ++ two.sent ∧ whole.error? = two.error? ∧
        whole.store = two.store ∧ whole.stats.SameWork two.stats) ∧
      ∃ parts parts' : List (List Frame),
        List.Forall₂ Source.Carries twice parts ∧ List.Forall₂ Source.Carries threeTimes parts' ∧
        parts.flatten = parts'.flatten ∧
        (Store.empty.serveEach .zero UInt64.ofNat twice).Alike
          (Store.empty.serveEach .zero UInt64.ofNat threeTimes) := by
  intro first second joined one two whole twice threeTimes
  obtain ⟨set, setWire⟩ : ∃ frame : Frame, frame.wire = setting :=
    (exists_frame (by decide)).imp fun _ => And.right
  obtain ⟨incr, incrWire⟩ : ∃ frame : Frame, frame.wire = counting :=
    (exists_frame (by decide)).imp fun _ => And.right
  have well : one.error? = none :=
    @serve_error?_of_carries _ _ _ first [set, incr]
      ⟨by simp [first, setWire, incrWire], rfl⟩
  have spread : List.Forall₂ Source.Carries twice [[set], [incr, incr]] :=
    .cons ⟨by simp [setWire], rfl⟩ (.cons ⟨by simp [incrWire], rfl⟩ .nil)
  have spread' : List.Forall₂ Source.Carries threeTimes [[set, incr], [], [incr]] :=
    .cons ⟨by simp [setWire, incrWire], rfl⟩
      (.cons ⟨by simp, rfl⟩ (.cons ⟨by simp [incrWire], rfl⟩ .nil))
  have joins : joined.bytes = first.bytes ++ second.bytes := by
    simp only [joined, first, second, Source.bytes_ofPieces]
  exact ⟨⟨well, (serve_spread .empty .zero UInt64.ofNat).1 first second joined joins rfl rfl well⟩,
    _, _, spread, spread', rfl,
    (serve_spread .empty .zero UInt64.ofNat).2 _ _ _ _ spread spread' rfl⟩

end Store

end KvServer
