import KvServer.Request.Error
import KvServer.Transport.Source

/-!
# Reading requests

A request is an array of byte strings: a line `*N`, then `N` times a line `$L`, a payload of exactly
`L` bytes, and a line end. Lines are found by scanning for their end, payloads are counted, so a
payload may hold anything. Lengths are checked before any payload is read. This module defines:

* `Reader`, a source together with the line that was read last
* `Reader.line`, which reads one line and never holds more than 66 bytes of it
* `Reader.header`, `Reader.argument` and `Reader.request`, the parts of a request and the whole
* `Reader.requests`, which reads requests until an error or up to a number of them
* `Source.request`, which reads one request with a reader of its own
-/

namespace KvServer

/-- The largest payload of one argument. -/
def maxPayload : Nat := 512 * 1024 * 1024

/-- The largest number of arguments of one request. -/
def maxArguments : Nat := 1024 * 1024

/-- The longest line, its end not counted. -/
def maxLine : Nat := 64

/-- A reader of requests. The line read last is kept until the next one is begun. -/
structure Reader where
  source : Source
  scratch : Bytes
  deriving DecidableEq, Repr

namespace Reader

/-- A reading step: it moves the reader on, and keeps the place when it fails. -/
abbrev Step := EStateM RequestError Reader

def ofSource (source : Source) : Reader :=
  ⟨source, []⟩

def size (reader : Reader) : Nat :=
  reader.source.size

/-! ## Lines -/

/-- Reads on behind the part of a line in `scratch`. A bare line feed ends a read but not the line;
the bytes up to the line end must fit into what is left of 66. -/
def extendLine (reader : Reader) : EStateM.Result RequestError Reader Unit :=
  if reader.scratch.length < maxLine + 2 then
    let found := reader.source.read (maxLine + 2 - reader.scratch.length) (· == Bytes.lf)
    let next : Reader := ⟨found.rest, reader.scratch ++ found.taken⟩
    match found.failure? with
    | some failure => .error (.transport failure) next
    | none =>
      if found.taken = [] then .error .unexpectedEnd next
      else if Bytes.crlf <:+ next.scratch then
        .ok () { next with scratch := next.scratch.take (next.scratch.length - 2) }
      else extendLine next
  else .error (.framing .lineTooLong) reader
termination_by maxLine + 2 - reader.scratch.length
decreasing_by
  rename_i unread _
  have grown : next.scratch.length = reader.scratch.length + found.taken.length :=
    List.length_append
  have := List.length_pos_iff.2 unread
  change maxLine + 2 - next.scratch.length < maxLine + 2 - reader.scratch.length
  omega

/-- Reads a line into `scratch`, without its end. -/
def line : Step Unit := fun reader =>
  extendLine { reader with scratch := [] }

/-- Reads a line that holds a tag and a length. -/
def header (tag : Tag) : Step Int64 := do
  line
  match (← get).scratch with
  | [] => throw (.framing .emptyLine)
  | found :: digits =>
    if found = tag.byte then
      match Decimal.length? digits with
      | some length => pure length
      | none => throw (.invalidInteger digits)
    else throw (.unexpectedTag tag found)

/-! ## Arguments -/

def payload (length : Nat) : Step Bytes := fun reader =>
  let found := reader.source.read length fun _ => false
  let next := { reader with source := found.rest }
  match found.failure? with
  | some failure => .error (.transport failure) next
  | none =>
    if found.taken.length < length then .error .unexpectedEnd next else .ok found.taken next

/-- Reads the line end behind a payload. A transport that breaks here with an end of file has cut the
request short. -/
def terminator : Step Unit := fun reader =>
  let found := reader.source.read 2 fun _ => false
  let next := { reader with source := found.rest }
  match found.failure? with
  | some .unexpectedEof => .error .unexpectedEnd next
  | some failure => .error (.transport failure) next
  | none =>
    if found.taken.length < 2 then .error .unexpectedEnd next
    else if found.taken = Bytes.crlf then .ok () next
    else .error (.framing .missingTerminator) next

def checkPayload (length : Int64) : Except RequestError Nat :=
  if length = -1 then .error .nullArgument
  else if length < 0 then .error (.invalidBulkLength length)
  else if maxPayload < length.toInt.toNat then .error (.tooLarge length.toInt.toNat maxPayload)
  else .ok length.toInt.toNat

def argument : Step Bytes := do
  let length ← header .bulk
  let length ← MonadExcept.ofExcept (checkPayload length)
  let data ← payload length
  terminator
  pure data

/-- Reads a number of arguments behind those already read. -/
def argumentsFrom (read : Array Bytes) : Nat → Step (Array Bytes)
  | 0 => pure read
  | count + 1 => do
    let data ← argument
    argumentsFrom (read.push data) count

/-! ## Requests -/

/-- Fails if no byte is left to start a request with. -/
def start : Step Unit := fun reader =>
  if reader.source.isDrained then
    match reader.source.ending with
    | .closed => .error .closed reader
    | .failed failure => .error (.transport failure) reader
  else .ok () reader

def checkCount (count : Int64) : Except RequestError Nat :=
  if count < 0 then .error (.invalidArrayLength count)
  else if maxArguments < count.toInt.toNat then .error (.tooLarge count.toInt.toNat maxArguments)
  else .ok count.toInt.toNat

def request : Step (List Bytes) := do
  start
  let count ← header .array
  let count ← MonadExcept.ofExcept (checkCount count)
  let read ← argumentsFrom #[] count
  pure read.toList

/-! ## Progress

Every step leaves at most the bytes it found, and a step that reads a line leaves fewer.
-/

/-- A step whose success leaves no more bytes than there were. -/
def Bounded (step : Step α) : Prop :=
  ∀ reader a next, step reader = .ok a next → next.size ≤ reader.size

/-- A step whose success leaves fewer bytes than there were. -/
def Progressive (step : Step α) : Prop :=
  ∀ reader a next, step reader = .ok a next → next.size < reader.size

theorem Progressive.bounded {step : Step α} (progressive : Progressive step) : Bounded step :=
  fun reader a next done => Nat.le_of_lt (progressive reader a next done)

theorem bind_eq_ok {step : Step α} {follow : α → Step β} {reader next : Reader} {b : β} :
    (step >>= follow) reader = .ok b next ↔
      ∃ a middle, step reader = .ok a middle ∧ follow a middle = .ok b next := by
  simp only [bind, EStateM.bind]
  cases step reader with
  | ok a middle =>
    constructor
    · intro done
      exact ⟨a, middle, rfl, done⟩
    · rintro ⟨_, _, first, done⟩
      cases first
      exact done
  | error => simp

theorem Bounded.pure (a : α) : Bounded (pure a : Step α) := by
  intro reader b next done
  cases done
  exact Nat.le_refl _

theorem Bounded.throw (error : RequestError) : Bounded (throw error : Step α) := by
  intro reader b next done
  cases done

theorem Bounded.ofExcept (result : Except RequestError α) :
    Bounded (MonadExcept.ofExcept result : Step α) := by
  cases result with
  | error error => exact .throw error
  | ok a => exact .pure a

theorem Bounded.bind {step : Step α} {follow : α → Step β} (first : Bounded step)
    (second : ∀ a, Bounded (follow a)) : Bounded (step >>= follow) := by
  intro reader b next done
  obtain ⟨a, middle, done, done'⟩ := bind_eq_ok.1 done
  exact Nat.le_trans (second a middle b next done') (first reader a middle done)

theorem Progressive.bind {step : Step α} {follow : α → Step β} (first : Progressive step)
    (second : ∀ a, Bounded (follow a)) : Progressive (step >>= follow) := by
  intro reader b next done
  obtain ⟨a, middle, done, done'⟩ := bind_eq_ok.1 done
  exact Nat.lt_of_le_of_lt (second a middle b next done') (first reader a middle done)

theorem Bounded.bind_progressive {step : Step α} {follow : α → Step β} (first : Bounded step)
    (second : ∀ a, Progressive (follow a)) : Progressive (step >>= follow) := by
  intro reader b next done
  obtain ⟨a, middle, done, done'⟩ := bind_eq_ok.1 done
  exact Nat.lt_of_lt_of_le (second a middle b next done') (first reader a middle done)

theorem size_extendLine {reader next : Reader} {u : Unit}
    (done : extendLine reader = .ok u next) : next.size < reader.size := by
  fun_induction extendLine reader with
  | case1 => cases done
  | case2 => cases done
  | case3 reader _ found _ _ unread =>
    cases done
    have split : found.taken.length + found.rest.size = reader.source.size := Source.size_read ..
    have := List.length_pos_iff.2 unread
    change found.rest.size < reader.source.size
    omega
  | case4 reader _ found next _ _ _ ih =>
    have split : found.taken.length + found.rest.size = reader.source.size := Source.size_read ..
    have shorter : _ < found.rest.size := ih done
    change _ < reader.source.size
    omega
  | case5 => cases done

theorem progressive_line : Progressive line :=
  fun reader _ _ done => @size_extendLine { reader with scratch := [] } _ _ done

theorem progressive_header (tag : Tag) : Progressive (header tag) := by
  refine progressive_line.bind fun _ => ?_
  refine Bounded.bind (?_ : Bounded (get : Step Reader)) fun reader => ?_
  · intro reader a next done
    cases done
    exact Nat.le_refl _
  · split
    · exact .throw _
    · split
      · split
        · exact .pure _
        · exact .throw _
      · exact .throw _

theorem bounded_payload (length : Nat) : Bounded (payload length) := by
  intro reader data next done
  simp only [payload] at done
  have := reader.source.size_read length fun _ => false
  split at done
  · cases done
  · split at done
    · cases done
    · cases done
      simp only [size]
      omega

theorem bounded_terminator : Bounded terminator := by
  intro reader data next done
  simp only [terminator] at done
  have := reader.source.size_read 2 fun _ => false
  split at done
  · cases done
  · cases done
  · split at done
    · cases done
    · split at done
      · cases done
        simp only [size]
        omega
      · cases done

theorem progressive_argument : Progressive argument :=
  (progressive_header _).bind fun _ => (Bounded.ofExcept _).bind fun _ =>
    (bounded_payload _).bind fun _ => bounded_terminator.bind fun _ => .pure _

theorem bounded_argumentsFrom (read : Array Bytes) (count : Nat) :
    Bounded (argumentsFrom read count) := by
  induction count generalizing read with
  | zero => exact .pure _
  | succ count ih => exact progressive_argument.bounded.bind fun _ => ih _

theorem bounded_start : Bounded start := by
  intro reader u next done
  simp only [start] at done
  split at done
  · split at done <;> cases done
  · cases done
    exact Nat.le_refl _

/-- A request takes at least one byte from its source. -/
theorem progressive_request : Progressive request :=
  bounded_start.bind_progressive fun _ => (progressive_header _).bind fun _ =>
    (Bounded.ofExcept _).bind fun _ => (bounded_argumentsFrom _ _).bind fun _ => .pure _

/-! ## Pipelines -/

/-- What was read from a pipeline: the requests, the error that ended it unless the number of
requests did, and the place where reading stopped. -/
structure Pipeline (σ : Type) where
  requests : List (List Bytes)
  error? : Option RequestError
  rest : σ

/-- Reads requests one after the other, behind those already read, until one fails or `count` more
are read. -/
def pipelineFrom (next : σ → EStateM.Result RequestError σ (List Bytes))
    (read : Array (List Bytes)) : (count : Nat) → σ → Pipeline σ
  | 0, place => ⟨read.toList, none, place⟩
  | count + 1, place =>
    match next place with
    | .ok arguments place => pipelineFrom next (read.push arguments) count place
    | .error error place => ⟨read.toList, some error, place⟩

def requests (reader : Reader) (count : Nat) : Pipeline Reader :=
  pipelineFrom request #[] count reader

end Reader

namespace Source

def request (source : Source) : EStateM.Result RequestError Source (List Bytes) :=
  match Reader.request (.ofSource source) with
  | .ok arguments reader => .ok arguments reader.source
  | .error error reader => .error error reader.source

/-- Reads up to `count` requests, each with a reader of its own. -/
def requests (source : Source) (count : Nat) : Reader.Pipeline Source :=
  Reader.pipelineFrom request #[] count source

end Source

end KvServer
