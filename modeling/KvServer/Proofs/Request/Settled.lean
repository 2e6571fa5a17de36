import KvServer.Proofs.Request.Pipeline

/-!
# What the front of a stream settles

A scan that comes to an end has been settled by the bytes it took: whatever arrives behind them is left
as it is. A scan that is not settled wants more bytes, and only for want of a first byte does a request
take a closed stream for a clean close.

* `Scan.Decision`, what bytes decide, and `Scan.Settles`, scans that bytes decide in this way; they are
  closed under sequencing
* `Scan.decision_request`: a request is decided so
* `Reader.request_settled_by_front`: what a reader makes of a stream, and of more of the same stream
-/

namespace KvServer

open Bytes (crlf)

namespace RequestError

/-- Says whether the bytes of a request are at fault, rather than the end of the stream. -/
def isMalformed : RequestError → Bool
  | .closed | .unexpectedEnd | .transport _ => false
  | _ => true

/-- Says whether the fault shows in a whole line, in its tag or in the number that it announces. -/
def isOfLine : RequestError → Bool
  | .unexpectedTag _ _ | .invalidInteger _ | .invalidBulkLength _ | .invalidArrayLength _
  | .nullArgument | .tooLarge _ _ | .framing .emptyLine => true
  | _ => false

end RequestError

namespace Scan

variable {α β : Type}

/-- What bytes decide. They may give out; otherwise those in front settle the outcome, and a fault in a
line is settled by the bytes up to the end of that line. -/
inductive Decision (scan : Scan α) (bytes : Bytes) : Prop where
  | short (site : Site) (inside : site ≠ .start) (gaveOut : scan bytes = .short site)
  | accepted (front rest : Bytes) (a : α) (split : bytes = front ++ rest)
      (settled : ∀ tail, scan (front ++ tail) = .done a tail)
  | refused (front rest : Bytes) (error : RequestError) (split : bytes = front ++ rest)
      (settled : ∀ tail, scan (front ++ tail) = .refused error tail)
      (malformed : error.isMalformed) (ofLine : error.isOfLine → crlf <:+ front)

def Settles (scan : Scan α) : Prop :=
  ∀ bytes, Decision scan bytes

theorem bind_of_done {scan : Scan α} {follow : α → Scan β} {bytes rest : Bytes} {a : α}
    (done : scan bytes = .done a rest) : (scan >>= follow) bytes = follow a rest := by
  show Scan.bind scan follow bytes = _
  rw [Scan.bind, done]

theorem bind_of_refused {scan : Scan α} {follow : α → Scan β} {bytes rest : Bytes}
    {error : RequestError} (refused : scan bytes = .refused error rest) :
    (scan >>= follow) bytes = .refused error rest := by
  show Scan.bind scan follow bytes = _
  rw [Scan.bind, refused]

theorem bind_of_short {scan : Scan α} {follow : α → Scan β} {bytes : Bytes} {site : Site}
    (short : scan bytes = .short site) : (scan >>= follow) bytes = .short site := by
  show Scan.bind scan follow bytes = _
  rw [Scan.bind, short]

theorem Settles.pure (a : α) : Settles (pure a : Scan α) :=
  fun bytes => .accepted [] bytes a rfl fun _ => rfl

theorem Settles.bind {scan : Scan α} {follow : α → Scan β} (first : Settles scan)
    (second : ∀ a, Settles (follow a)) : Settles (scan >>= follow) := by
  intro bytes
  cases first bytes with
  | short site inside gaveOut => exact .short site inside (bind_of_short gaveOut)
  | refused front rest error split settled malformed ofLine =>
    exact .refused front rest error split (fun tail => bind_of_refused (settled tail)) malformed ofLine
  | accepted front middle a split settled =>
    subst split
    -- What the two take together is what settles both.
    have resume (taken tail : Bytes) :
        (scan >>= follow) ((front ++ taken) ++ tail) = follow a (taken ++ tail) := by
      rw [List.append_assoc]
      exact bind_of_done (settled (taken ++ tail))
    cases second a middle with
    | short site inside gaveOut =>
      exact .short site inside ((bind_of_done (settled middle)).trans gaveOut)
    | accepted taken rest b split settled' =>
      refine .accepted (front ++ taken) rest b (by rw [split, List.append_assoc]) fun tail => ?_
      rw [resume, settled']
    | refused taken rest error split settled' malformed ofLine =>
      refine .refused (front ++ taken) rest error (by rw [split, List.append_assoc])
        (fun tail => ?_) malformed fun fault => (ofLine fault).trans (List.suffix_append front taken)
      rw [resume, settled']

/-! ## Lines -/

theorem settles_line {check : Bytes → Except RequestError α}
    (malformed : ∀ text error, check text = .error error → error.isMalformed) :
    Settles (line >>= fun text => ofExcept (check text)) := by
  intro bytes
  by_cases ended : ∃ i ≤ maxLine, lineEnd? bytes = some i
  · obtain ⟨i, near, found⟩ := ended
    have ends := (lineEnd?_eq_some_iff.1 found).1
    have inside := ends.add_two_le
    have length : (bytes.take i).length = i := List.length_take_of_le (by omega)
    have read (tail : Bytes) : line (bytes.take i ++ crlf ++ tail) = .done (bytes.take i) tail := by
      refine line_eq_done_iff.2 ⟨rfl, ?_, by omega⟩
      rw [length]
      exact lineEnd?_take found tail
    cases checked : check (bytes.take i) with
    | ok a =>
      refine .accepted _ (bytes.drop (i + 2)) a ends.split fun tail => ?_
      rw [bind_of_done (read tail), checked]
      rfl
    | error error =>
      refine .refused _ (bytes.drop (i + 2)) error ends.split (fun tail => ?_)
        (malformed _ _ checked) fun _ => List.suffix_append _ _
      rw [bind_of_done (read tail), checked]
      rfl
  · by_cases short : bytes.length < maxLine + 2
    · have far : ∀ i ≤ maxLine, lineEnd? bytes ≠ some i :=
        fun i near found => ended ⟨i, near, found⟩
      refine .short .line (by decide) (bind_of_short ?_)
      rw [line_of_far far, if_pos short]
    · -- All the bytes that a line may take are there, and no line end is among them.
      have long : (bytes.take (maxLine + 2)).length = maxLine + 2 :=
        List.length_take_of_le (Nat.le_of_not_lt short)
      have nowhere (i : Nat) : ¬EndsAt (bytes.take (maxLine + 2)) i := by
        intro ends
        have inside := ends.add_two_le
        have ends : EndsAt (bytes.take (maxLine + 2) ++ bytes.drop (maxLine + 2)) i :=
          (endsAt_append_iff inside).2 ends
        rw [List.take_append_drop] at ends
        obtain ⟨j, before, found⟩ := ends.exists_lineEnd?
        exact ended ⟨j, by omega, found⟩
      refine .refused (bytes.take (maxLine + 2)) (bytes.drop (maxLine + 2)) (.framing .lineTooLong)
        (List.take_append_drop _ _).symm (fun tail => bind_of_refused ?_) rfl
        (fun fault => by cases fault)
      exact line_of_long nowhere long

theorem isMalformed_of_announced {tag : Tag} {text : Bytes} {error : RequestError}
    (faulty : announced tag text = .error error) : error.isMalformed := by
  revert faulty
  fun_cases announced tag text <;> intro faulty <;> cases faulty <;> rfl

theorem settles_announced {tag : Tag} {check : Int64 → Except RequestError α}
    (malformed : ∀ length error, check length = .error error → error.isMalformed) :
    Settles (header tag >>= fun length => ofExcept (check length)) := by
  have joined : (header tag >>= fun length => ofExcept (check length)) =
      line >>= fun text => ofExcept (announced tag text >>= check) := by
    rw [header, bind_assoc]
    congr 1
    funext text
    cases announced tag text <;> rfl
  rw [joined]
  refine settles_line fun text error faulty => ?_
  cases read : announced tag text with
  | ok length =>
    rw [read] at faulty
    exact malformed length error faulty
  | error error' =>
    rw [read] at faulty
    cases faulty
    exact isMalformed_of_announced read

/-! ## Arguments and requests -/

theorem isMalformed_of_checkPayload (length : Int64) (error : RequestError)
    (faulty : Reader.checkPayload length = .error error) : error.isMalformed := by
  revert faulty
  fun_cases Reader.checkPayload length <;> intro faulty <;> cases faulty <;> rfl

theorem isMalformed_of_checkCount (count : Int64) (error : RequestError)
    (faulty : Reader.checkCount count = .error error) : error.isMalformed := by
  revert faulty
  fun_cases Reader.checkCount count <;> intro faulty <;> cases faulty <;> rfl

theorem settles_payload (length : Nat) : Settles (payload length) := by
  intro bytes
  by_cases short : bytes.length < length
  · exact .short .payload nofun (if_pos short)
  · refine .accepted (bytes.take length) (bytes.drop length) (bytes.take length)
      (List.take_append_drop _ _).symm fun tail => ?_
    exact payload_eq_done_iff.2 ⟨List.length_take_of_le (Nat.le_of_not_lt short), rfl⟩

theorem settles_terminator : Settles terminator := by
  intro bytes
  by_cases short : bytes.length < 2
  · exact .short .terminator nofun (if_pos short)
  · have split : bytes = bytes.take 2 ++ bytes.drop 2 := (List.take_append_drop _ _).symm
    have two : (bytes.take 2).length = 2 := List.length_take_of_le (Nat.le_of_not_lt short)
    by_cases ended : bytes.take 2 = crlf
    · rw [ended] at split
      exact .accepted crlf (bytes.drop 2) () split fun tail => terminator_eq_done_iff.2 rfl
    · refine .refused (bytes.take 2) (bytes.drop 2) (.framing .missingTerminator) split
        (fun tail => ?_) rfl nofun
      have long : ¬(bytes.take 2 ++ tail).length < 2 := by
        rw [List.length_append]
        omega
      rw [terminator, if_neg long, List.take_left' two, if_neg ended, List.drop_left' two]

theorem settles_argument : Settles argument := by
  rw [argument_eq]
  exact (settles_announced isMalformed_of_checkPayload).bind fun length =>
    (settles_payload length).bind fun _ => settles_terminator.bind fun _ => .pure _

theorem settles_arguments (count : Nat) : Settles (arguments count) := by
  induction count with
  | zero => exact .pure []
  | succ count ih => exact settles_argument.bind fun _ => ih.bind fun _ => .pure _

/-- A request behind the test for its first byte. -/
def opened : Scan (List Bytes) :=
  (header .array >>= fun count => ofExcept (Reader.checkCount count)) >>= arguments

theorem settles_opened : Settles opened :=
  (settles_announced isMalformed_of_checkCount).bind settles_arguments

theorem request_of_unread {bytes : Bytes} (unread : bytes ≠ []) : request bytes = opened bytes := by
  rw [request_eq]
  exact bind_of_done (a := ()) (start_eq_done_iff.2 ⟨unread, rfl⟩)

theorem request_nil : request [] = .short .start :=
  rfl

/-- Where there is a byte to start with, a request is decided. -/
theorem decision_request {bytes : Bytes} (unread : bytes ≠ []) : Decision request bytes := by
  -- Whatever settles a request behind its test holds a byte that passes the test.
  have passed {taken : Bytes} (settled : opened taken ≠ .short .line) :
      request taken = opened taken := by
    refine request_of_unread fun empty => settled ?_
    rw [empty]
    rfl
  cases settles_opened bytes with
  | short site inside gaveOut => exact .short site inside ((request_of_unread unread).trans gaveOut)
  | accepted front rest a split settled =>
    refine .accepted front rest a split fun tail => ?_
    rw [passed (by rw [settled]; nofun), settled]
  | refused front rest error split settled malformed ofLine =>
    refine .refused front rest error split (fun tail => ?_) malformed ofLine
    rw [passed (by rw [settled]; nofun), settled]

theorem ne_nil_of_request {bytes : Bytes} (ended : request bytes ≠ .short .start) : bytes ≠ [] :=
  fun empty => ended (by rw [empty, request_nil])

theorem settled_of_done {bytes rest : Bytes} {arguments : List Bytes}
    (done : request bytes = .done arguments rest) :
    ∃ front, bytes = front ++ rest ∧ ∀ tail, request (front ++ tail) = .done arguments tail := by
  cases decision_request (ne_nil_of_request (by rw [done]; nofun)) with
  | short site inside gaveOut => rw [done] at gaveOut; cases gaveOut
  | accepted front rest' arguments' split settled =>
    rw [split, settled] at done
    cases done
    exact ⟨front, split, settled⟩
  | refused front rest' error split settled =>
    rw [split, settled] at done
    cases done

theorem settled_of_refused {bytes rest : Bytes} {error : RequestError}
    (refused : request bytes = .refused error rest) :
    error.isMalformed ∧ ∃ front, bytes = front ++ rest ∧ (error.isOfLine → crlf <:+ front) ∧
      ∀ tail, request (front ++ tail) = .refused error tail := by
  cases decision_request (ne_nil_of_request (by rw [refused]; nofun)) with
  | short site inside gaveOut => rw [refused] at gaveOut; cases gaveOut
  | accepted front rest' arguments split settled =>
    rw [split, settled] at refused
    cases refused
  | refused front rest' error' split settled malformed ofLine =>
    rw [split, settled] at refused
    cases refused
    exact ⟨malformed, front, split, ofLine, settled⟩

theorem request_eq_short_start_iff {bytes : Bytes} : request bytes = .short .start ↔ bytes = [] := by
  constructor
  · intro gaveOut
    by_contra unread
    cases decision_request unread with
    | short site inside gaveOut' =>
      rw [gaveOut] at gaveOut'
      cases gaveOut'
      exact inside rfl
    | accepted front rest arguments split settled =>
      rw [split, settled] at gaveOut
      cases gaveOut
    | refused front rest error split settled =>
      rw [split, settled] at gaveOut
      cases gaveOut
  · rintro rfl
    exact request_nil

end Scan

/-! ## Readers -/

theorem Site.error_closed (site : Site) :
    site.error .closed = if site = .start then .closed else .unexpectedEnd := by
  cases site <;> rfl

namespace Reader

/-- On a closed stream a request is malformed, or the stream ended at its start or inside it. -/
theorem error_of_closed {reader next : Reader} {error : RequestError}
    (failed : request reader = .error error next) (closed : reader.source.ending = .closed) :
    error.isMalformed ∧ Scan.request reader.source.bytes = .refused error next.source.bytes ∨
      error = .closed ∧ reader.source.bytes = [] ∨
      error = .unexpectedEnd ∧ reader.source.bytes ≠ [] := by
  rcases follows_request.refused_or_short_of_error failed with refused | ⟨site, gaveOut, rfl⟩
  · exact .inl ⟨(Scan.settled_of_refused refused).1, refused⟩
  · rw [closed, site.error_closed]
    by_cases start : site = .start
    · rw [start] at gaveOut
      exact .inr (.inl ⟨if_pos start, Scan.request_eq_short_start_iff.1 gaveOut⟩)
    · refine .inr (.inr ⟨if_neg start, fun empty => start ?_⟩)
      rw [empty, Scan.request_nil] at gaveOut
      cases gaveOut
      rfl

section Extended

variable {short long : Reader} {tail : Bytes}

theorem ok_of_extended (extended : long.source.bytes = short.source.bytes ++ tail)
    {arguments : List Bytes} {next : Reader} (done : request short = .ok arguments next) :
    ∃ last, request long = .ok arguments last ∧ last.source.bytes = next.source.bytes ++ tail := by
  obtain ⟨front, split, settled⟩ := Scan.settled_of_done (follows_request.done_of_ok done)
  have again := settled (next.source.bytes ++ tail)
  rw [← List.append_assoc, ← split, ← extended] at again
  obtain ⟨last, done, left, -⟩ := follows_request.ok_of_done again
  exact ⟨last, done, left⟩

theorem error_of_refused {rest : Bytes} {error : RequestError}
    (refused : Scan.request long.source.bytes = .refused error rest) :
    ∃ last, request long = .error error last ∧ last.source.bytes = rest := by
  have told : (Scan.request long.source.bytes).observe long.source.ending =
      ⟨.error error, rest, long.source.ending⟩ := by
    rw [refused]
    rfl
  obtain ⟨last, failed, left, -⟩ := follows_request.error_of_observed told
  exact ⟨last, failed, left⟩

theorem error_of_extended (extended : long.source.bytes = short.source.bytes ++ tail)
    {error : RequestError} {rest : Bytes}
    (refused : Scan.request short.source.bytes = .refused error rest) :
    ∃ last, request long = .error error last ∧ last.source.bytes = rest ++ tail := by
  obtain ⟨-, front, split, -, settled⟩ := Scan.settled_of_refused refused
  have again := settled (rest ++ tail)
  rw [← List.append_assoc, ← split, ← extended] at again
  exact error_of_refused again

/-- A request that was cut short is told from one that is malformed. -/
theorem unexpectedEnd_of_extended (extended : long.source.bytes = short.source.bytes ++ tail)
    (closed : short.source.ending = .closed) (more : tail ≠ []) (unread : short.source.bytes ≠ [])
    {arguments : List Bytes} {last : Reader} (done : request long = .ok arguments last)
    (nothing : last.source.bytes = []) : ∃ next, request short = .error .unexpectedEnd next := by
  cases first : request short with
  | ok arguments' next =>
    -- The request would be found again, and the tail left over.
    obtain ⟨last', done', left⟩ := ok_of_extended extended first
    rw [done] at done'
    cases done'
    rw [nothing] at left
    exact absurd (List.append_eq_nil_iff.1 left.symm).2 more
  | error error next =>
    rcases error_of_closed first closed with ⟨-, refused⟩ | ⟨-, empty⟩ | ⟨same, -⟩
    · obtain ⟨last', failed, -⟩ := error_of_extended extended refused
      rw [done] at failed
      cases failed
    · exact absurd empty unread
    · exact ⟨next, by rw [same]⟩

/-- What a reader makes of a stream, and of the same stream with more bytes at its end. A request or a
fault that was found is found again, and leaves as many more bytes; a fault in a line needs no byte
behind the line. Nothing to read is a clean close, and a request that was cut short an early end. -/
theorem request_settled_by_front (extended : long.source.bytes = short.source.bytes ++ tail)
    (closed : short.source.ending = .closed) :
    (∀ arguments next, request short = .ok arguments next → ∃ last,
      request long = .ok arguments last ∧ last.source.bytes = next.source.bytes ++ tail) ∧
    (∀ error next, request short = .error error next → error ≠ .closed → error ≠ .unexpectedEnd →
      ∃ last, request long = .error error last ∧ last.source.bytes = next.source.bytes ++ tail) ∧
    ((∃ next, request short = .error .closed next) ↔ short.source.bytes = []) ∧
    (tail ≠ [] → short.source.bytes ≠ [] →
      (∃ arguments last, request long = .ok arguments last ∧ last.source.bytes = []) →
      ∃ next, request short = .error .unexpectedEnd next) ∧
    (∀ error next, request short = .error error next → error.isOfLine →
      ∃ front, short.source.bytes = front ++ next.source.bytes ∧ crlf <:+ front ∧
        ∀ (other : Reader) (behind : Bytes), other.source.bytes = front ++ behind → ∃ last,
          request other = .error error last ∧ last.source.bytes = behind) := by
  refine ⟨fun _ _ done => ok_of_extended extended done, fun error next failed notClosed notEnd => ?_,
    ⟨fun ⟨next, failed⟩ => ?_, fun empty => ⟨short, request_drained empty closed⟩⟩,
    fun more unread ⟨_, _, done, nothing⟩ =>
      unexpectedEnd_of_extended extended closed more unread done nothing,
    fun error next failed ofLine => ?_⟩
  · rcases error_of_closed failed closed with ⟨-, refused⟩ | ⟨same, -⟩ | ⟨same, -⟩
    · exact error_of_extended extended refused
    · exact absurd same notClosed
    · exact absurd same notEnd
  · rcases error_of_closed failed closed with ⟨malformed, -⟩ | ⟨-, empty⟩ | ⟨other, -⟩
    · cases malformed
    · exact empty
    · cases other
  · rcases error_of_closed failed closed with ⟨-, refused⟩ | ⟨rfl, -⟩ | ⟨rfl, -⟩
    · obtain ⟨-, front, split, ends, settled⟩ := Scan.settled_of_refused refused
      refine ⟨front, split, ends ofLine, fun other behind present => error_of_refused ?_⟩
      rw [present, settled]
    · cases ofLine
    · cases ofLine

end Extended

/-- A request of one argument, which one reader finds cut short inside the argument. -/
def cutShort : Reader :=
  .ofSource (.ofPieces (Utf8.encode "*1\r\n$4\r\nPI") 3 .closed)

def uncut : Reader :=
  .ofSource (.ofPieces (Utf8.encode "*1\r\n$4\r\nPING\r\n") 4 .closed)

theorem request_settled_by_front_cutShort :
    uncut.source.bytes = cutShort.source.bytes ++ Utf8.encode "NG\r\n" ∧
      cutShort.source.ending = .closed ∧ cutShort.source.bytes ≠ [] ∧
      (∃ last, request uncut = .ok [Utf8.encode "PING"] last ∧ last.source.bytes = []) ∧
      ∃ next, request cutShort = .error .unexpectedEnd next := by
  have cut : cutShort.source.bytes = Utf8.encode "*1\r\n$4\r\nPI" := Source.bytes_ofPieces ..
  have whole : uncut.source.bytes = Utf8.encode "*1\r\n$4\r\nPING\r\n" := Source.bytes_ofPieces ..
  have extended : uncut.source.bytes = cutShort.source.bytes ++ Utf8.encode "NG\r\n" := by
    rw [whole, cut]
    decide
  have unread : cutShort.source.bytes ≠ [] := by
    rw [cut]
    decide
  have scanned : Scan.request uncut.source.bytes = .done [Utf8.encode "PING"] [] := by
    rw [whole]
    decide
  obtain ⟨last, done, nothing, -⟩ := follows_request.ok_of_done scanned
  obtain ⟨-, -, -, truncated, -⟩ := request_settled_by_front extended rfl
  exact ⟨extended, rfl, unread, ⟨last, done, nothing⟩,
    truncated (by decide) unread ⟨_, last, done, nothing⟩⟩

end Reader

end KvServer
