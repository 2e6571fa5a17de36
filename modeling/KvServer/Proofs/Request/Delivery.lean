import KvServer.Proofs.Request.Follow

/-!
# Requests and the way they are delivered

How a stream is cut into pieces, what line a reader keeps from before, and whether one reader takes all
requests or each request has a reader of its own: none of this shows in what is read, in the error that
ends it, or in what is left.

* `Unread.request`, a request taken off a stream of which only the bytes and the ending are known
* `Reader.pipelineFrom_map`: a view of places that every request respects is respected by a pipeline
* `Reader.error?_requests`: a pipeline that may go on long enough meets an error
* `Reader.requests_independent_of_delivery`: pipelines on two deliveries of one stream
-/

namespace KvServer

/-- What a source has still to deliver, the cuts between its pieces not counted. -/
structure Unread where
  bytes : Bytes
  ending : Ending

def Source.unread (source : Source) : Unread :=
  ⟨source.bytes, source.ending⟩

def Observation.place {α : Type} : Observation α → EStateM.Result RequestError Unread α
  | ⟨.ok a, rest, ending⟩ => .ok a ⟨rest, ending⟩
  | ⟨.error error, rest, ending⟩ => .error error ⟨rest, ending⟩

def Unread.request (unread : Unread) : EStateM.Result RequestError Unread (List Bytes) :=
  ((Scan.request unread.bytes).observe unread.ending).place

namespace Reader

variable {σ τ : Type}

/-- A result with a view of the place in which it leaves off. -/
def viewed {α : Type} (view : σ → τ) :
    EStateM.Result RequestError σ α → EStateM.Result RequestError τ α
  | .ok a place => .ok a (view place)
  | .error error place => .error error (view place)

def Pipeline.map (view : σ → τ) (pipeline : Pipeline σ) : Pipeline τ :=
  ⟨pipeline.requests, pipeline.error?, view pipeline.rest⟩

theorem pipelineFrom_map {next : σ → EStateM.Result RequestError σ (List Bytes)}
    {next' : τ → EStateM.Result RequestError τ (List Bytes)} (view : σ → τ)
    (respects : ∀ place, viewed view (next place) = next' (view place))
    (read : Array (List Bytes)) (count : Nat) (place : σ) :
    (pipelineFrom next read count place).map view = pipelineFrom next' read count (view place) := by
  induction count generalizing read place with
  | zero => rfl
  | succ count ih =>
    have respected := respects place
    simp only [pipelineFrom]
    rw [← respected]
    cases next place with
    | ok arguments after => exact ih (read.push arguments) after
    | error error after => rfl

theorem pipelineFrom_eq (next : σ → EStateM.Result RequestError σ (List Bytes))
    (read : Array (List Bytes)) (count : Nat) (place : σ) :
    pipelineFrom next read count place =
      { pipelineFrom next #[] count place with
        requests := read.toList ++ (pipelineFrom next #[] count place).requests } := by
  induction count generalizing read place with
  | zero => simp [pipelineFrom]
  | succ count ih =>
    simp only [pipelineFrom]
    cases next place with
    | ok arguments after =>
      dsimp only
      rw [ih (read.push arguments), ih (#[].push arguments)]
      simp
    | error error after => simp

theorem requests_of_ok {reader next : Reader} {arguments : List Bytes}
    (done : request reader = .ok arguments next) (count : Nat) :
    reader.requests (count + 1) =
      { next.requests count with requests := arguments :: (next.requests count).requests } := by
  simp only [requests, pipelineFrom, done]
  exact pipelineFrom_eq request #[arguments] count next

theorem requests_of_error {reader last : Reader} {error : RequestError}
    (failed : request reader = .error error last) (count : Nat) :
    reader.requests (count + 1) = ⟨[], some error, last⟩ := by
  simp only [requests, pipelineFrom, failed]

/-! ## One reader and many -/

theorem viewed_request (reader : Reader) :
    viewed (·.source.unread) (request reader) = reader.source.unread.request := by
  show _ = ((Scan.request reader.source.bytes).observe reader.source.ending).place
  rw [← follows_request reader]
  cases request reader <;> rfl

theorem viewed_request_ofSource (source : Source) :
    viewed Source.unread source.request = source.unread.request := by
  have own : viewed (·.source.unread) (request (ofSource source)) = source.unread.request :=
    viewed_request (ofSource source)
  rw [← own, Source.request]
  cases request (ofSource source) <;> rfl

theorem requests_map (reader : Reader) (count : Nat) :
    (reader.requests count).map (·.source.unread) =
      pipelineFrom Unread.request #[] count reader.source.unread :=
  pipelineFrom_map _ viewed_request #[] count reader

theorem requests_map_ofSource (source : Source) (count : Nat) :
    (source.requests count).map Source.unread =
      pipelineFrom Unread.request #[] count source.unread :=
  pipelineFrom_map _ viewed_request_ofSource #[] count source

/-! ## The end of a pipeline -/

/-- A pipeline that may go on long enough meets an error. -/
theorem error?_requests {reader : Reader} {count : Nat} (enough : reader.size < count) :
    ∃ error, (reader.requests count).error? = some error := by
  -- Every request takes a byte at least, so `count` stays ahead of the bytes that are left.
  induction count generalizing reader with
  | zero => exact absurd enough (Nat.not_lt_zero _)
  | succ count ih =>
    cases done : request reader with
    | error error last => exact ⟨error, by rw [requests_of_error done]⟩
    | ok arguments next =>
      have shorter := progressive_request reader arguments next done
      rw [requests_of_ok done]
      exact ih (by omega)

/-- Two deliveries of one stream are read alike, whatever lines their readers kept from before, and one
reader reads what a new reader for each request does: the same requests, the same error at their end and
the same bytes left. A number of requests above the number of bytes is as good as no limit. -/
theorem requests_independent_of_delivery {first second : Reader}
    (bytes : first.source.bytes = second.source.bytes)
    (ending : first.source.ending = second.source.ending) (count : Nat) :
    (first.requests count).map (·.source.bytes) = (second.requests count).map (·.source.bytes) ∧
      (first.requests count).map (·.source.bytes) = (second.source.requests count).map Source.bytes ∧
      (first.source.bytes.length < count → ∃ error, (first.requests count).error? = some error) := by
  have unread : first.source.unread = second.source.unread := by
    rw [Source.unread, Source.unread, bytes, ending]
  have alike := requests_map first count
  rw [unread] at alike
  refine ⟨?_, ?_, error?_requests⟩
  · exact congrArg (Pipeline.map Unread.bytes) (alike.trans (requests_map second count).symm)
  · exact congrArg (Pipeline.map Unread.bytes)
      (alike.trans (requests_map_ofSource second.source count).symm)

/-- A request, a line that announces no length, and bytes behind it. -/
def faultyStream : Bytes :=
  Utf8.encode "*1\r\n$4\r\nPING\r\n*1\r\n$x\r\nrest"

/-- A reader that has kept the start of a line end, and finds the stream byte by byte. -/
def byteByByte : Reader :=
  ⟨.ofPieces faultyStream 1 .closed, [Bytes.cr]⟩

theorem requests_independent_of_delivery_byteByByte :
    byteByByte.source.bytes = (ofSource (.ofBytes faultyStream .closed)).source.bytes ∧
      byteByByte.source.ending = (ofSource (.ofBytes faultyStream .closed)).source.ending ∧
      (byteByByte.requests 9).map (·.source.bytes) =
        ((Source.ofBytes faultyStream .closed).requests 9).map Source.bytes ∧
      (byteByByte.requests 9).map (·.source.bytes) =
        ⟨[[Utf8.encode "PING"]], some (.invalidInteger (Utf8.encode "x")), Utf8.encode "rest"⟩ := by
  have bytes : byteByByte.source.bytes = (ofSource (.ofBytes faultyStream .closed)).source.bytes :=
    (Source.bytes_ofPieces ..).trans (Source.bytes_ofBytes ..).symm
  obtain ⟨one, many, -⟩ := requests_independent_of_delivery bytes rfl 9
  refine ⟨bytes, rfl, many, one.trans ?_⟩
  exact congrArg (Pipeline.map Unread.bytes) (requests_map _ 9)

end Reader

end KvServer
