import KvServer.Proofs.Request.Scan

/-!
# Readers follow scans

Reading a request comes to scanning the bytes that the source still holds: the cuts between its pieces
and the line that the reader has kept from before play no part, and what the source does at its end
matters only where the bytes give out.

* `Reader.Follows`, the relation of a step and a scan; it is closed under sequencing
* `Reader.observe_extendLine`: the loop that reads a line comes to the closed form
* `Reader.follows_request`: reading a request is `Scan.request`, from any reader
-/

namespace KvServer

open Bytes (lf crlf)

/-- What can be told of a step that has been made, the cuts in the bytes left not counted. -/
structure Observation (α : Type) where
  result : Except RequestError α
  rest : Bytes
  ending : Ending

theorem Observation.error_congr {α β : Type} {error error' : RequestError} {rest rest' : Bytes}
    {ending ending' : Ending}
    (same : (⟨.error error, rest, ending⟩ : Observation α) = ⟨.error error', rest', ending'⟩) :
    (⟨.error error, rest, ending⟩ : Observation β) = ⟨.error error', rest', ending'⟩ := by
  cases same
  rfl

/-- What a scan comes to, by what the source does at its end. -/
def Scanned.observe {α : Type} (ending : Ending) : Scanned α → Observation α
  | .done a rest => ⟨.ok a, rest, ending⟩
  | .refused error rest => ⟨.error error, rest, ending⟩
  | .short site => ⟨.error (site.error ending), [], ending⟩

namespace Reader

variable {α β : Type}

def observe : EStateM.Result RequestError Reader α → Observation α
  | .ok a next => ⟨.ok a, next.source.bytes, next.source.ending⟩
  | .error error next => ⟨.error error, next.source.bytes, next.source.ending⟩

/-- A step does what a scan does on the bytes of its reader. -/
def Follows (step : Step α) (scan : Scan α) : Prop :=
  ∀ reader, observe (step reader) = (scan reader.source.bytes).observe reader.source.ending

theorem Follows.pure (a : α) : Follows (pure a) (pure a) :=
  fun _ => rfl

theorem Follows.ofExcept (result : Except RequestError α) :
    Follows (MonadExcept.ofExcept result) (Scan.ofExcept result) := by
  cases result with
  | ok a => exact fun _ => rfl
  | error error => exact fun _ => rfl

theorem Follows.bind {step : Step α} {scan : Scan α} {follow : α → Step β} {follow' : α → Scan β}
    (first : Follows step scan) (second : ∀ a, Follows (follow a) (follow' a)) :
    Follows (step >>= follow) (scan >>= follow') := by
  intro reader
  have observed := first reader
  change observe (EStateM.bind step follow reader) = (Scan.bind scan follow' _).observe _
  unfold EStateM.bind Scan.bind
  cases done : step reader with
  | ok a next =>
    rw [done] at observed
    cases told : scan reader.source.bytes with
    | done a' rest =>
      rw [told] at observed
      obtain ⟨value, rest, ending⟩ := Observation.mk.inj observed
      cases value
      have observed' := second a next
      rw [rest, ending] at observed'
      exact observed'
    | refused => rw [told] at observed; cases observed
    | short => rw [told] at observed; cases observed
  | error error next =>
    rw [done] at observed
    cases told : scan reader.source.bytes with
    | done => rw [told] at observed; cases observed
    | refused => rw [told] at observed; exact Observation.error_congr observed
    | short => rw [told] at observed; exact Observation.error_congr observed

/-! ## Lines -/

/-- The line that was read, which the reader keeps. -/
def lineRead : EStateM.Result RequestError Reader Unit → EStateM.Result RequestError Reader Bytes
  | .ok _ next => .ok next.scratch next
  | .error error next => .error error next

/-- One read behind a part of a line that has no line end in it. If it brings a line end, then at its
end, so the test of the last two bytes misses none. -/
theorem read_part {front : Bytes} (nowhere : ∀ i, ¬EndsAt front i) (source : Source) (limit : Nat) :
    front ++ (source.read limit (· == lf)).taken ++ (source.read limit (· == lf)).rest.bytes =
        front ++ source.bytes ∧
      (∀ i, EndsAt (front ++ (source.read limit (· == lf)).taken) i →
        i + 2 = (front ++ (source.read limit (· == lf)).taken).length) ∧
      (source.read limit (· == lf)).taken.length ≤ limit := by
  refine ⟨by rw [List.append_assoc, source.read_append], ?_⟩
  rw [(source.read_eq (· == lf) limit).1]
  exact ⟨fun i => endsAt_upTo nowhere, length_upTo_le ..⟩

/-- Reading on behind a part of a line is scanning the part together with the bytes behind it. The
invariant of the loop is that the part has no line end in it. -/
theorem observe_extendLine (reader : Reader) (nowhere : ∀ i, ¬EndsAt reader.scratch i)
    (fits : reader.scratch.length ≤ maxLine + 2) :
    observe (lineRead (extendLine reader)) =
      (Scan.line (reader.scratch ++ reader.source.bytes)).observe reader.source.ending := by
  fun_induction extendLine reader with
  | case1 reader room found next failure failed =>
    -- The bytes give out in the line, and the source fails there.
    obtain ⟨-, rest, -, -⟩ := reader.source.read_eq (· == lf) (maxLine + 2 - reader.scratch.length)
    obtain ⟨short, ending⟩ := Source.read_of_failure _ failed
    rw [upTo_of_not_enough _ short, List.drop_length] at rest
    obtain ⟨few, plain⟩ := (enough_eq_false_iff _).1 short
    have plain : lf ∉ reader.source.bytes := fun feed => by simpa using plain lf feed
    rw [Scan.line_of_short (not_endsAt_append nowhere plain) (by rw [List.length_append]; omega)]
    change Observation.mk _ found.rest.bytes reader.source.ending = ⟨_, [], _⟩
    rw [rest, ending]
    rfl
  | case2 reader room found next intact drained =>
    -- The source closes. A read that had found bytes before is followed by one that finds none.
    obtain ⟨empty, closed⟩ := Source.read_of_nothing _ (by omega) drained intact
    have rest : found.taken ++ found.rest.bytes = [] := (reader.source.read_append ..).trans empty
    rw [empty, List.append_nil, Scan.line_of_short nowhere room]
    change Observation.mk _ found.rest.bytes reader.source.ending = ⟨_, [], _⟩
    rw [(List.append_eq_nil_iff.1 rest).2, closed]
    rfl
  | case3 reader room found next intact unread ended =>
    -- No place before the last two bytes has a line end, so this is the first one.
    obtain ⟨whole, only, few⟩ :=
      read_part nowhere reader.source (maxLine + 2 - reader.scratch.length)
    change next.scratch ++ found.rest.bytes = _ at whole
    have length : next.scratch.length = reader.scratch.length + found.taken.length :=
      List.length_append
    have two := ended.length_le
    rw [Bytes.length_crlf] at two
    have bound : next.scratch.length - 2 ≤ maxLine := by
      change found.taken.length ≤ _ at few
      omega
    have first := lineEnd?_append_of_eq_some (lineEnd?_of_last ended only) found.rest.bytes
    rw [← whole, Scan.line_of_lineEnd first bound, List.take_append_of_le_length (Nat.sub_le _ _),
      Nat.sub_add_cancel two, List.drop_left]
    rfl
  | case4 reader room found next intact unread goesOn ih =>
    obtain ⟨whole, only, few⟩ :=
      read_part nowhere reader.source (maxLine + 2 - reader.scratch.length)
    change next.scratch ++ found.rest.bytes = _ at whole
    rw [← whole]
    refine ih (fun i ends => goesOn ?_) ?_
    · exact crlf_suffix_iff.2 ⟨i, ends, only i ends⟩
    · have length : next.scratch.length = reader.scratch.length + found.taken.length :=
        List.length_append
      change found.taken.length ≤ _ at few
      omega
  | case5 reader full =>
    rw [Scan.line_of_long nowhere (by omega)]
    rfl

/-- The line a reader is left with, as a step. -/
def readLine : Step Bytes := fun reader =>
  lineRead (line reader)

theorem follows_readLine : Follows readLine Scan.line := by
  intro reader
  have nowhere : ∀ i, ¬EndsAt [] i := fun i ends => by cases ends.1
  exact observe_extendLine { reader with scratch := [] } nowhere (Nat.zero_le _)

theorem header_eq (tag : Tag) :
    header tag = readLine >>= fun text => MonadExcept.ofExcept (Scan.announced tag text) := by
  funext reader
  change EStateM.bind line _ reader = EStateM.bind readLine _ reader
  unfold EStateM.bind readLine
  cases line reader with
  | error => rfl
  | ok u next =>
    obtain ⟨source, scratch⟩ := next
    cases scratch with
    | nil => rfl
    | cons found digits =>
      show (if found = tag.byte then (_ : Step Int64) else _) _ = _
      simp only [lineRead, Scan.announced]
      by_cases tagged : found = tag.byte
      · rw [if_pos tagged, if_pos tagged]
        cases Decimal.length? digits <;> rfl
      · rw [if_neg tagged, if_neg tagged]
        rfl

theorem follows_header (tag : Tag) : Follows (header tag) (Scan.header tag) := by
  rw [header_eq]
  exact follows_readLine.bind fun _ => .ofExcept _

/-! ## Arguments and requests -/

theorem observe_error (error : RequestError) (source : Source) (scratch : Bytes) :
    observe (.error error ⟨source, scratch⟩ : EStateM.Result RequestError Reader α) =
      ⟨.error error, source.bytes, source.ending⟩ := rfl

theorem observe_ok (a : α) (source : Source) (scratch : Bytes) :
    observe (.ok a ⟨source, scratch⟩) = ⟨.ok a, source.bytes, source.ending⟩ := rfl

theorem follows_payload (length : Nat) : Follows (payload length) (Scan.payload length) := by
  intro reader
  have kept : (reader.source.read length fun _ => false).rest.ending = reader.source.ending := rfl
  unfold payload Scan.payload
  by_cases short : reader.source.bytes.length < length
  · obtain ⟨taken, rest, told⟩ := reader.source.read_count_of_short short
    rw [if_pos short]
    cases ending : reader.source.ending with
    | closed =>
      simp only [told, ending, Ending.failure?, taken, if_pos short]
      rw [observe_error, rest, kept, ending]
      rfl
    | failed failure =>
      simp only [told, ending, Ending.failure?]
      rw [observe_error, rest, kept, ending]
      rfl
  · obtain ⟨taken, rest, told⟩ := reader.source.read_count (Nat.le_of_not_lt short)
    have full : ¬(reader.source.bytes.take length).length < length := by
      rw [List.length_take]
      omega
    simp only [told, taken, if_neg full, if_neg short]
    rw [observe_ok, rest, kept]
    rfl

theorem follows_terminator : Follows terminator Scan.terminator := by
  intro reader
  have kept : (reader.source.read 2 fun _ => false).rest.ending = reader.source.ending := rfl
  unfold terminator Scan.terminator
  by_cases short : reader.source.bytes.length < 2
  · obtain ⟨taken, rest, told⟩ := reader.source.read_count_of_short short
    rw [if_pos short]
    cases ending : reader.source.ending with
    | closed =>
      simp only [told, ending, Ending.failure?, taken, if_pos short]
      rw [observe_error, rest, kept, ending]
      rfl
    | failed failure =>
      simp only [told, ending, Ending.failure?]
      -- An end of file stands out among the failures.
      cases failure <;>
      · simp only
        rw [observe_error, rest, kept, ending]
        rfl
  · obtain ⟨taken, rest, told⟩ := reader.source.read_count (Nat.le_of_not_lt short)
    have full : ¬(reader.source.bytes.take 2).length < 2 := by
      rw [List.length_take]
      omega
    simp only [told, taken, if_neg full, if_neg short]
    by_cases ended : reader.source.bytes.take 2 = crlf
    · rw [if_pos ended, if_pos ended, observe_ok, rest, kept]
      rfl
    · rw [if_neg ended, if_neg ended, observe_error, rest, kept]
      rfl

theorem follows_argument : Follows argument Scan.argument :=
  (follows_header _).bind fun _ => (Follows.ofExcept _).bind fun _ =>
    (follows_payload _).bind fun _ => follows_terminator.bind fun _ => .pure _

theorem follows_argumentsFrom (read : Array Bytes) (count : Nat) :
    Follows (argumentsFrom read count) (do
      let others ← Scan.arguments count
      pure (read ++ others.toArray)) := by
  -- The step collects in front of what it has, the scan behind what is to come.
  induction count generalizing read with
  | zero =>
    have same : (do let others ← Scan.arguments 0; pure (read ++ others.toArray)) =
        (pure read : Scan (Array Bytes)) := by
      simp [Scan.arguments]
    rw [same]
    exact .pure read
  | succ count ih =>
    have same : (do
          let others ← Scan.arguments (count + 1)
          pure (read ++ others.toArray)) = (do
        let data ← Scan.argument
        let others ← Scan.arguments count
        pure (read.push data ++ others.toArray) : Scan (Array Bytes)) := by
      simp [Scan.arguments]
    rw [same]
    exact follows_argument.bind fun data => ih (read.push data)

theorem follows_start : Follows start Scan.start := by
  intro reader
  unfold start Scan.start
  by_cases drained : reader.source.bytes = []
  · rw [if_pos (Source.isDrained_iff.2 drained), if_pos drained]
    cases ending : reader.source.ending <;>
    · rw [observe_error, drained, ending]
      rfl
  · rw [if_neg (mt Source.isDrained_iff.1 drained), if_neg drained]
    rfl

/-- Reading a request is scanning the bytes that are left. -/
theorem follows_request : Follows request Scan.request := by
  have collect (count : Nat) : Scan.arguments count = (do
      let read ← (do
        let others ← Scan.arguments count
        pure (#[] ++ others.toArray))
      pure read.toList) := by
    simp
  unfold request Scan.request
  refine follows_start.bind fun _ => (follows_header _).bind fun _ =>
    (Follows.ofExcept _).bind fun count => ?_
  rw [collect]
  exact (follows_argumentsFrom #[] count).bind fun _ => .pure _

/-! ## Success -/

theorem Follows.done_of_ok {step : Step α} {scan : Scan α} (follows : Follows step scan)
    {reader next : Reader} {a : α} (done : step reader = .ok a next) :
    scan reader.source.bytes = .done a next.source.bytes := by
  have observed := follows reader
  rw [done] at observed
  cases told : scan reader.source.bytes with
  | done a' rest =>
    rw [told] at observed
    obtain ⟨value, left, -⟩ := Observation.mk.inj observed
    cases value
    rw [left]
  | refused => rw [told] at observed; cases observed
  | short => rw [told] at observed; cases observed

theorem Follows.ok_of_done {step : Step α} {scan : Scan α} (follows : Follows step scan)
    {reader : Reader} {a : α} {rest : Bytes} (done : scan reader.source.bytes = .done a rest) :
    ∃ next, step reader = .ok a next ∧ next.source.bytes = rest ∧
      next.source.ending = reader.source.ending := by
  have observed := follows reader
  rw [done] at observed
  cases told : step reader with
  | ok a' next =>
    rw [told] at observed
    obtain ⟨value, left, ending⟩ := Observation.mk.inj observed
    cases value
    exact ⟨next, rfl, left, ending⟩
  | error => rw [told] at observed; cases observed

theorem Follows.ending_of_ok {step : Step α} {scan : Scan α} (follows : Follows step scan)
    {reader next : Reader} {a : α} (done : step reader = .ok a next) :
    next.source.ending = reader.source.ending := by
  obtain ⟨next', done', -, ending⟩ := follows.ok_of_done (follows.done_of_ok done)
  rw [done] at done'
  cases done'
  exact ending

/-! ## Failure -/

theorem Follows.error_of_observed {step : Step α} {scan : Scan α} (follows : Follows step scan)
    {reader : Reader} {error : RequestError} {rest : Bytes}
    (told : (scan reader.source.bytes).observe reader.source.ending =
      ⟨.error error, rest, reader.source.ending⟩) :
    ∃ next, step reader = .error error next ∧ next.source.bytes = rest ∧
      next.source.ending = reader.source.ending := by
  have observed := (follows reader).trans told
  cases failed : step reader with
  | ok => rw [failed] at observed; cases observed
  | error error' next =>
    rw [failed] at observed
    obtain ⟨same, left, ending⟩ := Observation.mk.inj observed
    cases same
    exact ⟨next, rfl, left, ending⟩

theorem Follows.error_of_short {step : Step α} {scan : Scan α} (follows : Follows step scan)
    {reader : Reader} {site : Site} (gaveOut : scan reader.source.bytes = .short site) :
    ∃ next, step reader = .error (site.error reader.source.ending) next ∧ next.source.bytes = [] ∧
      next.source.ending = reader.source.ending :=
  follows.error_of_observed (by rw [gaveOut]; rfl)

theorem Follows.refused_or_short_of_error {step : Step α} {scan : Scan α}
    (follows : Follows step scan) {reader next : Reader} {error : RequestError}
    (failed : step reader = .error error next) :
    scan reader.source.bytes = .refused error next.source.bytes ∨
      ∃ site, scan reader.source.bytes = .short site ∧ error = site.error reader.source.ending := by
  have observed := follows reader
  rw [failed] at observed
  cases told : scan reader.source.bytes with
  | done => rw [told] at observed; cases observed
  | refused error' rest =>
    rw [told] at observed
    obtain ⟨same, left, -⟩ := Observation.mk.inj observed
    cases same
    exact .inl (by rw [left])
  | short site =>
    rw [told] at observed
    obtain ⟨same, -, -⟩ := Observation.mk.inj observed
    cases same
    exact .inr ⟨site, rfl, rfl⟩

end Reader

end KvServer
