import KvServer.Proofs.Request.Delivery
import KvServer.Proofs.Request.Settled
import KvServer.Proofs.Request.Truncated

/-!
# Streams that break

A stream that breaks is read like a stream that closes behind the same bytes: the same requests, and the
same fault if the bytes have one. What the source does at its end shows only where the bytes give out, and
the place decides whether a failure is reported as such.

* `GivesOut`, a stream of whole frames and the front of one more, by the place at which it stops
* `Scan.givesOut_iff_of_done` and `Scan.givesOut_iff_of_short`: a scan from frame to frame finds that place
* `Reader.Parted`, the errors that end two readings of the same bytes
* `Reader.requests_of_same_bytes`: two readings of the same bytes, whatever stands behind them
* `Reader.requests_of_broken`: a stream that closes against the same stream that breaks
-/

namespace KvServer

/-- Whole frames and the front of one more. -/
def GivesOut (site : Site) (bytes : Bytes) : Prop :=
  ∃ (frames : List Frame) (tail : Bytes),
    bytes = frames.flatMap Frame.wire ++ tail ∧ Frame.Stops site tail

/-! ## The place at which a stream gives out -/

namespace Scan

variable {bytes rest : Bytes} {site other : Site}

theorem request_wire_append (frame : Frame) (rest : Bytes) :
    request (frame.wire ++ rest) = .done frame.arguments rest :=
  request_eq_done_iff.2 ⟨frame, rfl, rfl⟩

/-- Behind a whole frame a stream gives out where the rest of it does. -/
theorem givesOut_iff_of_done {arguments : List Bytes}
    (done : request bytes = .done arguments rest) : GivesOut site bytes ↔ GivesOut site rest := by
  constructor
  · rintro ⟨frames, tail, rfl, stops⟩
    cases frames with
    | nil =>
      have gaveOut : request tail = .short site := request_eq_short_iff.2 stops
      rw [List.flatMap_nil, List.nil_append, gaveOut] at done
      cases done
    | cons frame frames =>
      rw [List.flatMap_cons, List.append_assoc, request_wire_append] at done
      cases done
      exact ⟨frames, tail, rfl, stops⟩
  · rintro ⟨frames, tail, rfl, stops⟩
    obtain ⟨frame, -, rfl⟩ := request_eq_done_iff.1 done
    exact ⟨frame :: frames, tail, by simp, stops⟩

/-- A stream gives out at one place only. -/
theorem givesOut_iff_of_short (gaveOut : request bytes = .short site) :
    GivesOut other bytes ↔ other = site := by
  constructor
  · rintro ⟨frames, tail, rfl, stops⟩
    cases frames with
    | nil =>
      have found : request tail = .short other := request_eq_short_iff.2 stops
      rw [List.flatMap_nil, List.nil_append, found] at gaveOut
      exact Scanned.short.inj gaveOut
    | cons frame frames =>
      rw [List.flatMap_cons, List.append_assoc, request_wire_append] at gaveOut
      cases gaveOut
  · rintro rfl
    exact ⟨[], bytes, rfl, request_eq_short_iff.1 gaveOut⟩

end Scan

/-! ## Two readings of the same bytes -/

theorem Site.error_terminator_failed (failure : Failure) :
    Site.terminator.error (.failed failure) =
      if failure = .unexpectedEof then .unexpectedEnd else .transport failure := by
  cases failure <;> rfl

namespace Reader

/-- How two readings of the same bytes end, before two endings: neither at an error, both at the same
fault, or both where the bytes give out. -/
inductive Parted (bytes : Bytes) (ending ending' : Ending) :
    Option RequestError → Option RequestError → Prop where
  | undecided : Parted bytes ending ending' none none
  | refused {error : RequestError} (malformed : error.isMalformed) :
      Parted bytes ending ending' (some error) (some error)
  | short {site : Site} (only : ∀ other, GivesOut other bytes ↔ other = site) :
      Parted bytes ending ending' (some (site.error ending)) (some (site.error ending'))

/-- Behind a whole frame two readings end as they would from there on. -/
theorem Parted.of_done {bytes rest : Bytes} {arguments : List Bytes} {ending ending' : Ending}
    {error? error?' : Option RequestError} (done : Scan.request bytes = .done arguments rest)
    (parted : Parted rest ending ending' error? error?') :
    Parted bytes ending ending' error? error?' := by
  cases parted with
  | undecided => exact .undecided
  | refused malformed => exact .refused malformed
  | short only => exact .short fun other => (Scan.givesOut_iff_of_done done).trans (only other)

/-- The endings of two sources part the readings of their bytes only where these give out. -/
theorem requests_of_same_bytes {reader other : Reader}
    (same : other.source.bytes = reader.source.bytes) (count : Nat) :
    (other.requests count).requests = (reader.requests count).requests ∧
      (other.requests count).rest.source.bytes = (reader.requests count).rest.source.bytes ∧
      Parted reader.source.bytes reader.source.ending other.source.ending
        (reader.requests count).error? (other.requests count).error? := by
  -- Each request leaves both readers with the same bytes and with the endings they had.
  induction count generalizing reader other with
  | zero => exact ⟨rfl, same, .undecided⟩
  | succ count ih =>
    cases scanned : Scan.request reader.source.bytes with
    | done arguments rest =>
      obtain ⟨next, done, left, ending⟩ := follows_request.ok_of_done scanned
      obtain ⟨next', done', left', ending'⟩ := follows_request.ok_of_done (same ▸ scanned)
      obtain ⟨requests, bytes, parted⟩ := ih (left'.trans left.symm)
      rw [left, ending, ending'] at parted
      rw [requests_of_ok done, requests_of_ok done', requests]
      exact ⟨rfl, bytes, parted.of_done scanned⟩
    | refused error rest =>
      obtain ⟨last, failed, left⟩ := error_of_refused scanned
      obtain ⟨last', failed', left'⟩ := error_of_refused (same ▸ scanned)
      rw [requests_of_error failed, requests_of_error failed']
      exact ⟨rfl, left'.trans left.symm, .refused (Scan.settled_of_refused scanned).1⟩
    | short site =>
      obtain ⟨last, failed, left, -⟩ := follows_request.error_of_short scanned
      obtain ⟨last', failed', left', -⟩ := follows_request.error_of_short (same ▸ scanned)
      rw [requests_of_error failed, requests_of_error failed']
      exact ⟨rfl, left'.trans left.symm, .short fun _ => Scan.givesOut_iff_of_short scanned⟩

/-! ## A stream that closes and one that breaks -/

namespace Parted

variable {bytes : Bytes} {failure : Failure} {error? error?' : Option RequestError}

theorem none_of_none (parted : Parted bytes .closed (.failed failure) error? error?')
    (undecided : error? = none) : error?' = none := by
  cases parted with
  | undecided => rfl
  | refused => cases undecided
  | short => cases undecided

/-- A fault is found in front of the place at which the sources differ. -/
theorem same_of_fault {error : RequestError}
    (parted : Parted bytes .closed (.failed failure) error? error?') (met : error? = some error)
    (notClosed : error ≠ .closed) (notEnd : error ≠ .unexpectedEnd) :
    error.isMalformed ∧ error?' = some error := by
  cases parted with
  | undecided => cases met
  | refused malformed =>
    cases met
    exact ⟨malformed, rfl⟩
  | @short site only =>
    cases met
    cases site with
    | start => exact absurd rfl notClosed
    | line | payload | terminator => exact absurd rfl notEnd

theorem failure_of_closed (parted : Parted bytes .closed (.failed failure) error? error?')
    (met : error? = some .closed) : error?' = some (.transport failure) := by
  cases parted with
  | undecided => cases met
  | refused malformed =>
    cases met
    cases malformed
  | @short site only =>
    cases site with
    | start => rfl
    | line | payload | terminator => cases met

/-- Where a stream ends early it gives out inside a request, at one place. -/
theorem exists_site_of_unexpectedEnd
    (parted : Parted bytes .closed (.failed failure) error? error?')
    (met : error? = some .unexpectedEnd) :
    ∃ site, site ≠ .start ∧ (∀ other, GivesOut other bytes ↔ other = site) ∧
      error?' = some (site.error (.failed failure)) := by
  cases parted with
  | undecided => cases met
  | refused malformed =>
    cases met
    cases malformed
  | @short site only =>
    refine ⟨site, ?_, only, rfl⟩
    rintro rfl
    cases met

end Parted

/-- A stream that breaks yields the requests that it yields when it closes instead, and none of its faults
is lost. Where it is closed between two requests or inside a line or a payload, the failure is reported;
behind a whole payload too, unless it is an end of file, which has cut the request short. -/
theorem requests_of_broken {closed broken : Reader} {failure : Failure}
    (same : broken.source.bytes = closed.source.bytes) (closes : closed.source.ending = .closed)
    (breaks : broken.source.ending = .failed failure) (count : Nat) :
    (broken.requests count).requests = (closed.requests count).requests ∧
      (broken.requests count).rest.source.bytes = (closed.requests count).rest.source.bytes ∧
      (closed.source.bytes.length < count → ∃ error, (closed.requests count).error? = some error) ∧
      ((closed.requests count).error? = none → (broken.requests count).error? = none) ∧
      (∀ error, (closed.requests count).error? = some error → error ≠ .closed →
        error ≠ .unexpectedEnd →
          error.isMalformed ∧ (broken.requests count).error? = some error) ∧
      ((closed.requests count).error? = some .closed →
        (broken.requests count).error? = some (.transport failure)) ∧
      ((closed.requests count).error? = some .unexpectedEnd →
        (GivesOut .line closed.source.bytes ∨ GivesOut .payload closed.source.bytes ∨
          GivesOut .terminator closed.source.bytes) ∧
        (GivesOut .line closed.source.bytes ∨ GivesOut .payload closed.source.bytes →
          (broken.requests count).error? = some (.transport failure)) ∧
        (GivesOut .terminator closed.source.bytes →
          (broken.requests count).error? =
            some (if failure = .unexpectedEof then .unexpectedEnd else .transport failure))) := by
  obtain ⟨requests, rest, parted⟩ := requests_of_same_bytes same count
  rw [closes, breaks] at parted
  refine ⟨requests, rest, error?_requests, parted.none_of_none, fun _ => parted.same_of_fault,
    parted.failure_of_closed, fun early => ?_⟩
  obtain ⟨site, inside, only, told⟩ := parted.exists_site_of_unexpectedEnd early
  simp only [only, told]
  cases site with
  | start => exact absurd rfl inside
  | line => exact ⟨.inl rfl, fun _ => rfl, nofun⟩
  | payload => exact ⟨.inr (.inl rfl), fun _ => rfl, nofun⟩
  | terminator =>
    exact ⟨.inr (.inr rfl), nofun, fun _ => by rw [Site.error_terminator_failed]⟩

/-- A request, and a second one of which the last byte is missing. -/
def oneByteShort : Bytes :=
  Utf8.encode "*1\r\n$4\r\nPING\r\n*2\r\n$4\r\nECHO\r\n$0\r\n\r"

/-- A reader that finds them in pieces of four bytes. -/
def oneByteShortReader (ending : Ending) : Reader :=
  .ofSource (.ofPieces oneByteShort 4 ending)

theorem requests_of_broken_oneByteShort :
    let closed := oneByteShortReader .closed
    let timedOut := oneByteShortReader (.failed .timedOut)
    let ended := oneByteShortReader (.failed .unexpectedEof)
    timedOut.source.bytes = closed.source.bytes ∧ ended.source.bytes = closed.source.bytes ∧
      closed.source.ending = .closed ∧ timedOut.source.ending = .failed .timedOut ∧
      ended.source.ending = .failed .unexpectedEof ∧
      (closed.requests 3).error? = some .unexpectedEnd ∧ GivesOut .terminator closed.source.bytes ∧
      (timedOut.requests 3).requests = [[Utf8.encode "PING"]] ∧
      (timedOut.requests 3).error? = some (.transport .timedOut) ∧
      (ended.requests 3).error? = some .unexpectedEnd := by
  intro closed timedOut ended
  have bytes (ending : Ending) : (oneByteShortReader ending).source.bytes = oneByteShort :=
    Source.bytes_ofPieces ..
  have same (ending : Ending) : (oneByteShortReader ending).source.bytes = closed.source.bytes :=
    (bytes ending).trans (bytes .closed).symm
  have read : (closed.requests 3).map (·.source.unread) =
      pipelineFrom Unread.request #[] 3 ⟨oneByteShort, .closed⟩ := by
    rw [requests_map, ← bytes .closed]
    rfl
  have requests : (closed.requests 3).requests = [[Utf8.encode "PING"]] := by
    refine (congrArg Pipeline.requests read).trans ?_
    decide +kernel
  have early : (closed.requests 3).error? = some .unexpectedEnd := by
    refine (congrArg Pipeline.error? read).trans ?_
    decide +kernel
  have givesOut : GivesOut .terminator closed.source.bytes := by
    have first : Scan.request oneByteShort = .done [Utf8.encode "PING"] (oneByteShort.drop 14) := by
      decide +kernel
    have second : Scan.request (oneByteShort.drop 14) = .short .terminator := by
      decide +kernel
    rw [bytes, Scan.givesOut_iff_of_done first, Scan.givesOut_iff_of_short second]
  obtain ⟨alike, -, -, -, -, -, cut⟩ :=
    requests_of_broken (same (.failed .timedOut)) rfl rfl 3
  obtain ⟨-, -, -, -, -, -, cut'⟩ :=
    requests_of_broken (same (.failed .unexpectedEof)) rfl rfl 3
  exact ⟨same _, same _, rfl, rfl, rfl, early, givesOut, alike.trans requests,
    (cut early).2.2 givesOut, (cut' early).2.2 givesOut⟩

end Reader

end KvServer
