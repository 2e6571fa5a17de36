import KvServer.Numeral.Decimal
import KvServer.Time.Instant
import Std.Data.ExtTreeMap

/-!
# The store

A store maps keys to entries and counts what is done to it. It holds deadlines but knows no time: an
operation that depends on the moment is given one. This module defines:

* `Entry`, a value with an optional deadline, expired from the deadline on
* `Store`, a finite map of entries with `Counters`, which wrap at 64 bits
* `Store.find?`, the view through which every operation is described
* the operations, each of which takes effect as a whole

Two stores with the same entries under all keys are equal, and listings come in the order of the
keys.
-/

namespace KvServer

/-! ## Entries -/

/-- A stored value and the moment from which it counts as expired, if there is one. -/
structure Entry where
  value : Bytes
  deadline? : Option Instant
  deriving DecidableEq, Repr

namespace Entry

def lasting (value : Bytes) : Entry :=
  ⟨value, none⟩

def isExpired (entry : Entry) (now : Instant) : Bool :=
  match entry.deadline? with
  | none => false
  | some deadline => deadline ≤ now

@[simp] theorem isExpired_lasting (value : Bytes) (now : Instant) :
    (lasting value).isExpired now = false :=
  rfl

theorem isExpired_eq_true_iff (entry : Entry) (now : Instant) :
    entry.isExpired now = true ↔ ∃ deadline, entry.deadline? = some deadline ∧ deadline ≤ now := by
  cases h : entry.deadline? <;> simp [isExpired, h]

end Entry

inductive IncrementError where
  | notAnInteger
  | overflow
  deriving DecidableEq, Repr

def IncrementError.message : IncrementError → String
  | .notAnInteger => "value is not an integer or out of range"
  | .overflow => "increment or decrement would overflow"

/-- How often a store was read, written, asked to delete, and rid of an expired key. -/
structure Counters where
  gets : UInt64
  sets : UInt64
  deletes : UInt64
  expired : UInt64
  deriving DecidableEq, Repr

def Counters.zero : Counters :=
  ⟨0, 0, 0, 0⟩

/-- A map from keys to entries, with its counters. -/
structure Store where
  entries : Std.ExtTreeMap Bytes Entry
  counters : Counters

namespace Store

def empty : Store :=
  ⟨∅, .zero⟩

/-! ## Reading -/

def find? (store : Store) (key : Bytes) : Option Entry :=
  store.entries[key]?

/-- The number of keys, those that have expired but are still stored among them. -/
def size (store : Store) : Nat :=
  store.entries.size

def isEmpty (store : Store) : Bool :=
  store.size == 0

/-- All keys, in their order. -/
def keys (store : Store) : List Bytes :=
  store.entries.keys

/-- The keys with a deadline, in their order. -/
def expiringKeys (store : Store) : List Bytes :=
  (store.entries.toList.filter fun (_, entry) => entry.deadline?.isSome).map Prod.fst

def contains (store : Store) (key : Bytes) : Bool :=
  (store.find? key).isSome

def deadline? (store : Store) (key : Bytes) : Option Instant :=
  (store.find? key).bind Entry.deadline?

def countGet (store : Store) : Store :=
  { store with counters := { store.counters with gets := store.counters.gets + 1 } }

/-- The value of a key, whether expired or not. -/
def get (store : Store) (key : Bytes) : Option Bytes × Store :=
  ((store.find? key).map Entry.value, store.countGet)

/-- The value of a key that has not expired. -/
def getLive (store : Store) (key : Bytes) (now : Instant) : Option Bytes × Store :=
  (((store.find? key).filter fun entry => !entry.isExpired now).map Entry.value, store.countGet)

/-- How long a key has still to live. -/
inductive TimeLeft where
  | missing
  | unlimited
  | seconds (left : UInt64)
  deriving DecidableEq, Repr

/-- How long a key has still to live at a moment: no time at all once it has expired. -/
def timeLeft (store : Store) (key : Bytes) (now : Instant) : TimeLeft :=
  match store.find? key with
  | none => .missing
  | some entry =>
    match entry.deadline? with
    | none => .unlimited
    | some deadline => .seconds (deadline.remaining now)

/-! ## Writing -/

def put (store : Store) (key : Bytes) (entry : Entry) : Store :=
  { store with entries := store.entries.insert key entry }

def erase (store : Store) (key : Bytes) : Store :=
  { store with entries := store.entries.erase key }

/-- Stores a value without deadline, whatever was there before; says whether the key is new. -/
def set (store : Store) (key value : Bytes) : Bool × Store :=
  let written := store.put key (.lasting value)
  (!store.contains key,
    { written with counters := { store.counters with sets := store.counters.sets + 1 } })

/-- Takes a key out and says whether it was there. -/
def delete (store : Store) (key : Bytes) : Bool × Store :=
  let erased := store.erase key
  (store.contains key,
    { erased with counters := { store.counters with deletes := store.counters.deletes + 1 } })

/-- Gives a stored key a deadline; says whether the key is stored. -/
def setDeadline (store : Store) (key : Bytes) (deadline : Instant) : Bool × Store :=
  match store.find? key with
  | none => (false, store)
  | some entry => (true, store.put key { entry with deadline? := some deadline })

/-- Takes a key out if it has expired, and says whether it had. -/
def removeIfExpired (store : Store) (key : Bytes) (now : Instant) : Bool × Store :=
  if (store.find? key).any (·.isExpired now) then
    let erased := store.erase key
    (true,
      { erased with counters := { store.counters with expired := store.counters.expired + 1 } })
  else (false, store)

/-- The integer an entry holds; a missing entry counts as zero. -/
def integerOf : Option Entry → Except IncrementError Int64
  | none => .ok 0
  | some entry =>
    match Decimal.int64? entry.value with
    | some n => .ok n
    | none => .error .notAnInteger

/-- The sum of a stored integer and a step. -/
def incremented (current : Option Entry) (delta : Int64) : Except IncrementError Int64 := do
  let n ← integerOf current
  match Word.checkedAdd? n delta with
  | some sum => .ok sum
  | none => .error .overflow

/-- Adds to the integer under a key, which keeps its deadline. A refusal leaves the store as it is. -/
def incrementBy (store : Store) (key : Bytes) (delta : Int64) :
    Except IncrementError Int64 × Store :=
  let current := store.find? key
  match incremented current delta with
  | .error error => (.error error, store)
  | .ok sum =>
    let text := Decimal.ofInt sum.toInt
    (.ok sum, store.put key ⟨text, current.bind Entry.deadline?⟩)

/-! ## Summary -/

def summary (store : Store) : String :=
  "StorageEngine \x7b keys: " ++ toString store.size ++
    ", get_count: " ++ toString store.counters.gets.toNat ++
    ", set_count: " ++ toString store.counters.sets.toNat ++ " \x7d"

/-! ## The view of each operation -/

@[simp] theorem find?_empty (key : Bytes) : empty.find? key = none := by
  simp [find?, empty]

@[simp] theorem find?_countGet (store : Store) (key : Bytes) :
    store.countGet.find? key = store.find? key :=
  rfl

theorem find?_put (store : Store) (key other : Bytes) (entry : Entry) :
    (store.put key entry).find? other = if key = other then some entry else store.find? other := by
  simp [put, find?, Std.ExtTreeMap.getElem?_insert]

theorem find?_erase (store : Store) (key other : Bytes) :
    (store.erase key).find? other = if key = other then none else store.find? other := by
  simp [erase, find?, Std.ExtTreeMap.getElem?_erase]

theorem find?_set (store : Store) (key value other : Bytes) :
    (store.set key value).2.find? other =
      if key = other then some (.lasting value) else store.find? other :=
  store.find?_put key other (.lasting value)

theorem find?_delete (store : Store) (key other : Bytes) :
    (store.delete key).2.find? other = if key = other then none else store.find? other :=
  store.find?_erase key other

theorem find?_setDeadline (store : Store) (key : Bytes) (deadline : Instant) (other : Bytes) :
    (store.setDeadline key deadline).2.find? other =
      if key = other then (store.find? key).map ({ · with deadline? := some deadline })
      else store.find? other := by
  unfold setDeadline
  split
  next absent => split <;> simp_all
  next entry present => simp [find?_put, present]

theorem find?_removeIfExpired (store : Store) (key : Bytes) (now : Instant) (other : Bytes) :
    (store.removeIfExpired key now).2.find? other =
      if key = other then (store.find? key).filter (!·.isExpired now) else store.find? other := by
  unfold removeIfExpired
  split
  next expired =>
    change (store.erase key).find? other = _
    rw [find?_erase]
    split
    · cases h : store.find? key <;> simp_all [Option.filter]
    · rfl
  next live =>
    split
    next same =>
      subst same
      cases h : store.find? key <;> simp_all [Option.filter]
    · rfl

theorem incremented_none (delta : Int64) : incremented none delta = .ok delta := by
  have sum : Word.checkedAdd? 0 delta = some delta :=
    Word.checkedAdd?_eq_some_iff.2 (Int.zero_add delta.toInt).symm
  simp only [incremented, integerOf, bind, Except.bind, sum]

theorem incremented_of_not_integer {entry : Entry} (text : Decimal.int64? entry.value = none)
    (delta : Int64) : incremented (some entry) delta = .error .notAnInteger := by
  simp only [incremented, integerOf, text]
  rfl

theorem incremented_of_integer {entry : Entry} {n : Int64}
    (text : Decimal.int64? entry.value = some n) (delta : Int64) :
    incremented (some entry) delta =
      match Word.checkedAdd? n delta with
      | some sum => .ok sum
      | none => .error .overflow := by
  simp only [incremented, integerOf, text]
  rfl

theorem incrementBy_of_error {store : Store} {key : Bytes} {delta : Int64}
    {error : IncrementError} (refused : incremented (store.find? key) delta = .error error) :
    store.incrementBy key delta = (.error error, store) := by
  simp [incrementBy, refused]

theorem incrementBy_of_ok {store : Store} {key : Bytes} {delta sum : Int64}
    (accepted : incremented (store.find? key) delta = .ok sum) :
    store.incrementBy key delta =
      (.ok sum,
        store.put key ⟨Decimal.ofInt sum.toInt, (store.find? key).bind Entry.deadline?⟩) := by
  simp [incrementBy, accepted]

theorem find?_incrementBy (store : Store) (key : Bytes) (delta : Int64) (other : Bytes) :
    (store.incrementBy key delta).2.find? other =
      if key = other then
        match incremented (store.find? key) delta with
        | .error _ => store.find? key
        | .ok sum => some ⟨Decimal.ofInt sum.toInt, (store.find? key).bind Entry.deadline?⟩
      else store.find? other := by
  cases summed : incremented (store.find? key) delta with
  | error error =>
    rw [incrementBy_of_error summed]
    split <;> simp_all
  | ok sum =>
    rw [incrementBy_of_ok summed]
    exact store.find?_put key other _

theorem mem_keys_iff (store : Store) (key : Bytes) :
    key ∈ store.keys ↔ (store.find? key).isSome := by
  rw [keys, Std.ExtTreeMap.mem_keys, Std.ExtTreeMap.mem_iff_isSome_getElem?]
  rfl

theorem length_keys (store : Store) : store.keys.length = store.size :=
  Std.ExtTreeMap.length_keys

/-- Stores are told apart by their entries and counters. -/
theorem ext_find? {left right : Store} (entries : ∀ key, left.find? key = right.find? key)
    (counters : left.counters = right.counters) : left = right := by
  obtain ⟨leftEntries, _⟩ := left
  obtain ⟨rightEntries, _⟩ := right
  cases counters
  congr
  exact Std.ExtTreeMap.ext_getElem? entries

end Store

end KvServer
