import KvServer.Proofs.Request.Line
import KvServer.Request.Reader

/-!
# Scanning requests

A scan reads bytes that lie there in one piece. It ends with a value, with a refusal, or at the
`Site` at which the bytes give out; what is behind them is for the source to say. The scans of this
module are the parts of a request, with `Scan.line` in closed form: no loop, but the first line end.
-/

namespace KvServer

open Bytes (cr lf crlf)

/-- Where the bytes of a request can give out. -/
inductive Site where
  | start
  | line
  | payload
  | terminator
  deriving DecidableEq, Repr

/-- The error of a request whose bytes give out, by what the source does then. -/
def Site.error : Site → Ending → RequestError
  | .start, .closed => .closed
  | _, .closed => .unexpectedEnd
  | .terminator, .failed .unexpectedEof => .unexpectedEnd
  | _, .failed failure => .transport failure

/-- What bytes decide about something to be read from them. -/
inductive Scanned (α : Type) where
  | done (a : α) (rest : Bytes)
  | refused (error : RequestError) (rest : Bytes)
  | short (site : Site)
  deriving DecidableEq

/-- A reading step on bytes in one piece. -/
def Scan (α : Type) : Type :=
  Bytes → Scanned α

namespace Scan

variable {α β γ : Type}

protected def pure (a : α) : Scan α := fun bytes =>
  .done a bytes

/-- Scans on behind what a first scan has taken. -/
protected def bind (scan : Scan α) (follow : α → Scan β) : Scan β := fun bytes =>
  match scan bytes with
  | .done a rest => follow a rest
  | .refused error rest => .refused error rest
  | .short site => .short site

instance : Monad Scan where
  pure := Scan.pure
  bind := Scan.bind

instance : LawfulMonad Scan :=
  LawfulMonad.mk' Scan
    (fun scan => by
      funext bytes
      change Scan.bind scan (fun a => Scan.pure a) bytes = scan bytes
      unfold Scan.bind
      cases scan bytes <;> rfl)
    (fun _ _ => rfl)
    (fun scan _ _ => by
      funext bytes
      change Scan.bind (Scan.bind scan _) _ bytes = Scan.bind scan _ bytes
      unfold Scan.bind
      cases scan bytes <;> rfl)

/-- A check of what was read. -/
def ofExcept : Except RequestError α → Scan α
  | .ok a => Scan.pure a
  | .error error => fun bytes => .refused error bytes

/-- A line: what stands in front of the first line end, if that is not too far off. -/
def line : Scan Bytes := fun bytes =>
  match (lineEnd? bytes).filter (· ≤ maxLine) with
  | some i => .done (bytes.take i) (bytes.drop (i + 2))
  | none =>
    if bytes.length < maxLine + 2 then .short .line
    else .refused (.framing .lineTooLong) (bytes.drop (maxLine + 2))

/-- The length that a line announces behind a tag. -/
def announced (tag : Tag) : Bytes → Except RequestError Int64
  | [] => .error (.framing .emptyLine)
  | found :: digits =>
    if found = tag.byte then
      match Decimal.length? digits with
      | some length => .ok length
      | none => .error (.invalidInteger digits)
    else .error (.unexpectedTag tag found)

def header (tag : Tag) : Scan Int64 := do
  let text ← line
  ofExcept (announced tag text)

/-- A number of bytes, whatever they are. -/
def payload (length : Nat) : Scan Bytes := fun bytes =>
  if bytes.length < length then .short .payload
  else .done (bytes.take length) (bytes.drop length)

/-- The line end behind a payload. -/
def terminator : Scan Unit := fun bytes =>
  if bytes.length < 2 then .short .terminator
  else if bytes.take 2 = crlf then .done () (bytes.drop 2)
  else .refused (.framing .missingTerminator) (bytes.drop 2)

def argument : Scan Bytes := do
  let length ← header .bulk
  let length ← ofExcept (Reader.checkPayload length)
  let data ← payload length
  terminator
  pure data

def arguments : Nat → Scan (List Bytes)
  | 0 => pure []
  | count + 1 => do
    let data ← argument
    let others ← arguments count
    pure (data :: others)

/-- A request needs a byte to start with. -/
def start : Scan Unit := fun bytes =>
  if bytes = [] then .short .start else .done () bytes

/-- One request. -/
def request : Scan (List Bytes) := do
  start
  let count ← header .array
  let count ← ofExcept (Reader.checkCount count)
  arguments count

/-! ## Lengths and their checks -/

theorem argument_eq : argument =
    (header .bulk >>= fun length => ofExcept (Reader.checkPayload length)) >>= fun length => (do
      let data ← payload length
      terminator
      pure data) := by
  simp [argument]

theorem request_eq : request = start >>= fun _ =>
    (header .array >>= fun count => ofExcept (Reader.checkCount count)) >>= arguments := by
  simp [request]

/-! ## Where a line is found -/

theorem line_of_lineEnd {bytes : Bytes} {i : Nat} (found : lineEnd? bytes = some i)
    (short : i ≤ maxLine) : line bytes = .done (bytes.take i) (bytes.drop (i + 2)) := by
  rw [line, found, Option.filter_some, if_pos (decide_eq_true short)]

theorem line_of_short {bytes : Bytes} (nowhere : ∀ i, ¬EndsAt bytes i)
    (short : bytes.length < maxLine + 2) : line bytes = .short .line := by
  simp [line, lineEnd?_eq_none_iff.2 nowhere, short]

/-- Where no line end is near enough, it depends on the number of bytes whether one may still come. -/
theorem line_of_far {bytes : Bytes} (far : ∀ i ≤ maxLine, lineEnd? bytes ≠ some i) :
    line bytes =
      if bytes.length < maxLine + 2 then .short .line
      else .refused (.framing .lineTooLong) (bytes.drop (maxLine + 2)) := by
  have none : (lineEnd? bytes).filter (· ≤ maxLine) = none :=
    Option.filter_eq_none_iff.2 fun i found near => far i (of_decide_eq_true near) found
  rw [line, none]

theorem line_of_long {front tail : Bytes} (nowhere : ∀ i, ¬EndsAt front i)
    (long : front.length = maxLine + 2) :
    line (front ++ tail) = .refused (.framing .lineTooLong) tail := by
  have far : ∀ i ≤ maxLine, lineEnd? (front ++ tail) ≠ some i := by
    -- A line end near enough would lie in `front`.
    intro i near found
    have settled := lineEnd?_of_append found (by omega)
    exact nowhere i (lineEnd?_eq_some_iff.1 settled).1
  have enough : ¬(front ++ tail).length < maxLine + 2 := by
    rw [List.length_append]
    omega
  rw [line_of_far far, if_neg enough, ← long, List.drop_left]

end Scan

end KvServer
