import KvServer.Bytes
import KvServer.Transport.Failure

/-!
# Byte sources

A source delivers its bytes in pieces, as they happen to arrive, and then either closes or fails.
Empty pieces carry nothing and are passed over. This module defines:

* `Source`, and `Source.bytes`, the bytes without the cuts between the pieces
* `gather`, which reads across pieces until a byte satisfies a test or a limit is reached
* `Source.read`, which does so and reports a failure if one was met

A read that has what it wants does not touch the source any further, so a failure right behind the
last byte it needs stays unseen.
-/

namespace KvServer

/-- What a source does when its pieces are used up. -/
inductive Ending where
  | closed
  | failed (failure : Failure)
  deriving DecidableEq, Repr

def Ending.failure? : Ending → Option Failure
  | .closed => none
  | .failed failure => some failure

/-- A stream of bytes on its way to a reader. -/
structure Source where
  pieces : List Bytes
  ending : Ending
  deriving DecidableEq, Repr

/-- What `gather` found: the bytes it read, the pieces behind them, and whether it stopped of its
own accord rather than for want of pieces. -/
structure Gathered where
  taken : Array UInt8
  rest : List Bytes
  satisfied : Bool

/-- Reads behind the bytes in `taken`: up to and including the first byte that satisfies `last`, but
at most `limit` bytes. -/
def gather (last : UInt8 → Bool) (limit : Nat) (taken : Array UInt8) : List Bytes → Gathered
  | [] => ⟨taken, [], limit == 0⟩
  | piece :: pieces =>
    let window := piece.take limit
    match window.findIdx? last with
    | some i => ⟨taken ++ piece.take (i + 1), piece.drop (i + 1) :: pieces, true⟩
    | none =>
      if window.length = limit then ⟨taken ++ window, piece.drop limit :: pieces, true⟩
      else gather last (limit - window.length) (taken ++ window) pieces

/-- Nothing is lost: the bytes read and the bytes left are the bytes there were. -/
theorem gather_append (last : UInt8 → Bool) (limit : Nat) (taken : Array UInt8)
    (pieces : List Bytes) :
    (gather last limit taken pieces).taken.toList ++ (gather last limit taken pieces).rest.flatten =
      taken.toList ++ pieces.flatten := by
  induction pieces generalizing limit taken with
  | nil => simp [gather]
  | cons piece pieces ih =>
    simp only [gather]
    split
    · simp
      rw [← List.append_assoc, List.take_append_drop]
    · split
      · simp
        rw [← List.append_assoc, List.take_append_drop]
      · rename_i short
        have whole : piece.take limit = piece := by
          simp only [List.length_take] at short
          exact List.take_of_length_le (by omega)
        rw [ih]
        simp [whole]

/-- Cuts bytes into pieces of `width` behind those already in `pieces`. Without a width there is
nothing to cut. -/
def cut (width : Nat) (pieces : Array Bytes) (bytes : Bytes) : Array Bytes :=
  if width = 0 ∨ bytes = [] then pieces.push bytes
  else cut width (pieces.push (bytes.take width)) (bytes.drop width)
termination_by bytes.length
decreasing_by
  rename_i h
  have : bytes.length ≠ 0 := fun h0 => h (.inr (List.eq_nil_of_length_eq_zero h0))
  simp only [List.length_drop]
  omega

theorem flatten_cut (width : Nat) (pieces : Array Bytes) (bytes : Bytes) :
    (cut width pieces bytes).toList.flatten = pieces.toList.flatten ++ bytes := by
  fun_induction cut width pieces bytes with
  | case1 => simp
  | case2 pieces bytes _ ih => rw [ih]; simp

/-- What a read delivers: the bytes, the failure it met, and the source behind it. -/
structure Delivery where
  taken : Bytes
  failure? : Option Failure
  rest : Source

namespace Source

/-- The bytes of a source without the cuts between its pieces. -/
def bytes (source : Source) : Bytes :=
  source.pieces.flatten

def size (source : Source) : Nat :=
  source.bytes.length

/-- The source that delivers all bytes in one piece. -/
def ofBytes (bytes : Bytes) (ending : Ending) : Source :=
  ⟨[bytes], ending⟩

@[simp] theorem bytes_ofBytes (bytes : Bytes) (ending : Ending) :
    (ofBytes bytes ending).bytes = bytes := by
  simp [ofBytes, Source.bytes]

/-- The source that delivers the bytes in pieces of `width`, the last of which may be shorter. -/
def ofPieces (bytes : Bytes) (width : Nat) (ending : Ending) : Source :=
  ⟨(cut width #[] bytes).toList, ending⟩

@[simp] theorem bytes_ofPieces (bytes : Bytes) (width : Nat) (ending : Ending) :
    (ofPieces bytes width ending).bytes = bytes := by
  simp [ofPieces, Source.bytes, flatten_cut]

def isDrained (source : Source) : Bool :=
  source.pieces.all List.isEmpty

theorem isDrained_iff {source : Source} : source.isDrained = true ↔ source.bytes = [] := by
  simp [isDrained, bytes]

/-- Reads up to and including the first byte that satisfies `last`, but at most `limit` bytes. -/
def read (source : Source) (limit : Nat) (last : UInt8 → Bool) : Delivery :=
  let found := gather last limit #[] source.pieces
  { taken := found.taken.toList
    failure? := if found.satisfied then none else source.ending.failure?
    rest := { source with pieces := found.rest } }

theorem read_append (source : Source) (limit : Nat) (last : UInt8 → Bool) :
    (source.read limit last).taken ++ (source.read limit last).rest.bytes = source.bytes := by
  simpa [read, bytes] using gather_append last limit #[] source.pieces

theorem size_read (source : Source) (limit : Nat) (last : UInt8 → Bool) :
    (source.read limit last).taken.length + (source.read limit last).rest.size = source.size := by
  simpa [size] using congrArg List.length (source.read_append limit last)

end Source

end KvServer
