import KvServer.Proofs.Command.Apply
import KvServer.Proofs.Numeral.Canonical

/-!
# Increments are sums

Counting under a key is addition of integers. What is added to is the integer that the stored text stands
for, in whatever spelling, or zero; what is stored is the canonical text of the exact sum. An increment
that is refused leaves the store as it is, and the next one goes on from there.

* `Store.Counts`, the integer that an entry stands for
* `Store.Increment`, all that one increment can do, and `increment_incrementBy`: it does that
* `Store.incrementEach`, increments of one key, one after the other
* `Store.increments_exact`: every increment behind every run of them
-/

namespace KvServer

namespace Store

/-- The integer under a key, from the entry held there. An absent key counts as zero; a text that stands
for no integer of 64 bits counts as nothing. -/
inductive Counts : Option Entry → Int → Prop where
  | absent : Counts none 0
  | text {entry : Entry} {n : Int} (integer : Decimal.IsInteger entry.value n) (fits : Word.Fits n) :
    Counts (some entry) n

/-- What one increment does. -/
inductive Increment (key : Bytes) (delta : Int64) (store : Store) :
    Except IncrementError Int64 → Store → Prop where
  /-- The exact sum is answered, and its canonical text stored. -/
  | added {n : Int} {sum : Int64} {text : Bytes} (counts : Counts (store.find? key) n)
      (exact : sum.toInt = n + delta.toInt) (canonical : Decimal.Canonical text sum.toInt) :
    Increment key delta store (.ok sum)
      (store.put key ⟨text, (store.find? key).bind Entry.deadline?⟩)
  | notAnInteger (nothing : ∀ n, ¬Counts (store.find? key) n) :
    Increment key delta store (.error .notAnInteger) store
  | overflow {n : Int} (counts : Counts (store.find? key) n)
      (outside : ¬Word.Fits (n + delta.toInt)) :
    Increment key delta store (.error .overflow) store

/-! ## The integer under a key -/

variable {current : Option Entry}

theorem counts_toInt_iff {word : Int64} :
    Counts current word.toInt ↔ integerOf current = .ok word := by
  cases current with
  | none =>
    constructor
    · intro counts
      generalize read : word.toInt = n at counts
      cases counts
      have zero : word = 0 := Int64.toInt_inj.1 read
      rw [zero, integerOf]
    · intro read
      cases read
      exact .absent
  | some entry =>
    simp only [integerOf]
    constructor
    · rintro (_ | ⟨integer, -⟩)
      rw [Decimal.int64?_eq_some_iff.2 integer]
    · intro read
      cases text : Decimal.int64? entry.value with
      | none => simp [text] at read
      | some other =>
        simp only [text, Except.ok.injEq] at read
        rw [← read]
        exact .text (Decimal.int64?_eq_some_iff.1 text) (Word.fits_toInt other)

theorem Counts.fits {n : Int} (counts : Counts current n) : Word.Fits n := by
  cases counts with
  | absent => decide
  | text _ fits => exact fits

/-- What an entry counts is an integer of 64 bits, and the one that is read from it. -/
theorem Counts.exists_word {n : Int} (counts : Counts current n) :
    ∃ word : Int64, word.toInt = n ∧ integerOf current = .ok word := by
  obtain ⟨word, rfl⟩ := Word.fits_iff_exists.1 counts.fits
  exact ⟨word, rfl, counts_toInt_iff.1 counts⟩

theorem Counts.unique {n m : Int} (counts : Counts current n) (other : Counts current m) : n = m := by
  obtain ⟨word, rfl, read⟩ := counts.exists_word
  obtain ⟨word', rfl, read'⟩ := other.exists_word
  rw [read] at read'
  cases read'
  rfl

theorem integerOf_eq_error {error : IncrementError} (refused : integerOf current = .error error) :
    error = .notAnInteger ∧ ∀ n, ¬Counts current n := by
  refine ⟨?_, fun n counts => ?_⟩
  · cases current with
    | none => cases refused
    | some entry =>
      simp only [integerOf] at refused
      split at refused
      · cases refused
      · cases refused
        rfl
  · obtain ⟨word, -, read⟩ := counts.exists_word
    rw [refused] at read
    cases read

/-! ## One increment -/

theorem increment_incrementBy (store : Store) (key : Bytes) (delta : Int64) :
    Increment key delta store (store.incrementBy key delta).1 (store.incrementBy key delta).2 := by
  cases read : integerOf (store.find? key) with
  | error error =>
    obtain ⟨rfl, nothing⟩ := integerOf_eq_error read
    have refused : incremented (store.find? key) delta = .error .notAnInteger := by
      simp [incremented, read, bind, Except.bind]
    rw [incrementBy_of_error refused]
    exact .notAnInteger nothing
  | ok word =>
    have counts := counts_toInt_iff.2 read
    cases added : Word.checkedAdd? word delta with
    | none =>
      have refused : incremented (store.find? key) delta = .error .overflow := by
        simp [incremented, read, added, bind, Except.bind]
      rw [incrementBy_of_error refused]
      refine .overflow counts fun fits => ?_
      obtain ⟨sum, exact⟩ := Word.fits_iff_exists.1 fits
      rw [Word.checkedAdd?_eq_some_iff.2 exact] at added
      cases added
    | some sum =>
      have accepted : incremented (store.find? key) delta = .ok sum := by
        simp [incremented, read, added, bind, Except.bind]
      rw [incrementBy_of_ok accepted]
      exact .added counts (Word.checkedAdd?_eq_some_iff.1 added) (Decimal.canonical_ofInt _)

section Step

variable {store after : Store} {key : Bytes} {delta : Int64}
  {answer : Except IncrementError Int64}

theorem Increment.ok_iff (step : Increment key delta store answer after) :
    (∃ sum, answer = .ok sum) ↔
      ∃ n, Counts (store.find? key) n ∧ Word.Fits (n + delta.toInt) := by
  cases step with
  | added counts exact =>
    exact iff_of_true ⟨_, rfl⟩ ⟨_, counts, exact ▸ Word.fits_toInt _⟩
  | notAnInteger nothing =>
    exact iff_of_false nofun fun ⟨n, counts, _⟩ => nothing n counts
  | overflow counts outside =>
    refine iff_of_false nofun fun ⟨n, counts', fits⟩ => outside ?_
    rwa [counts.unique counts']

theorem Increment.error_iff (step : Increment key delta store answer after) :
    (answer = .error .notAnInteger ↔ ∀ n, ¬Counts (store.find? key) n) ∧
      (answer = .error .overflow ↔
        ∃ n, Counts (store.find? key) n ∧ ¬Word.Fits (n + delta.toInt)) := by
  cases step with
  | added counts exact =>
    refine ⟨iff_of_false nofun fun nothing => nothing _ counts, iff_of_false nofun ?_⟩
    rintro ⟨n, counts', outside⟩
    rw [counts'.unique counts, ← exact] at outside
    exact outside (Word.fits_toInt _)
  | notAnInteger nothing =>
    exact ⟨iff_of_true rfl nothing, iff_of_false nofun fun ⟨n, counts, _⟩ => nothing n counts⟩
  | overflow counts outside =>
    exact ⟨iff_of_false nofun fun nothing => nothing _ counts, iff_of_true rfl ⟨_, counts, outside⟩⟩

theorem Increment.exists_text {sum : Int64} (step : Increment key delta store (.ok sum) after) :
    ∃ n text, Counts (store.find? key) n ∧ sum.toInt = n + delta.toInt ∧
      Decimal.Canonical text sum.toInt ∧
      after = store.put key ⟨text, (store.find? key).bind Entry.deadline?⟩ := by
  cases step with
  | added counts exact canonical => exact ⟨_, _, counts, exact, canonical, rfl⟩

theorem Increment.eq_of_error {error : IncrementError}
    (step : Increment key delta store (.error error) after) : after = store := by
  cases step <;> rfl

/-- The text that an increment stores is read by the next one as the integer it was stored for. -/
theorem Increment.counts_of_ok {sum : Int64} (step : Increment key delta store (.ok sum) after) :
    Counts (after.find? key) sum.toInt := by
  obtain ⟨n, text, -, -, canonical, rfl⟩ := step.exists_text
  rw [find?_put, if_pos rfl]
  exact .text canonical.isInteger (Word.fits_toInt sum)

end Step

/-! ## Runs of increments -/

/-- Increments of a key, one after the other: the answers, and the store behind them. -/
def incrementEach (store : Store) (key : Bytes) :
    List Int64 → List (Except IncrementError Int64) × Store
  | [] => ([], store)
  | delta :: deltas =>
    let (answer, after) := store.incrementBy key delta
    let (answers, behind) := after.incrementEach key deltas
    (answer :: answers, behind)

/-- The sum of the steps that were not refused. -/
def accepted : List Int64 → List (Except IncrementError Int64) → Int
  | delta :: deltas, .ok _ :: answers => delta.toInt + accepted deltas answers
  | _ :: deltas, .error _ :: answers => accepted deltas answers
  | _, _ => 0

/-- What a run of increments comes to, and what it leaves alone. -/
structure Counted (key : Bytes) (deltas : List Int64) (store : Store)
    (answers : List (Except IncrementError Int64)) (behind : Store) : Prop where
  total : ∀ n, Counts (store.find? key) n → Counts (behind.find? key) (n + accepted deltas answers)
  countable : ∀ sum, .ok sum ∈ answers → ∃ n, Counts (behind.find? key) n
  deadline : (behind.find? key).bind Entry.deadline? = (store.find? key).bind Entry.deadline?
  others : ∀ other, key ≠ other → behind.find? other = store.find? other
  counters : behind.counters = store.counters

section Run

variable {key : Bytes} {store after behind : Store} {delta : Int64} {deltas : List Int64}
  {answer : Except IncrementError Int64} {answers : List (Except IncrementError Int64)}

theorem Counted.nil (key : Bytes) (store : Store) : Counted key [] store [] store where
  total n counts := by simpa [accepted] using counts
  countable _ member := by simp at member
  deadline := rfl
  others _ _ := rfl
  counters := rfl

/-- An increment in front of a run. -/
theorem Increment.counted (step : Increment key delta store answer after)
    (run : Counted key deltas after answers behind) :
    Counted key (delta :: deltas) store (answer :: answers) behind := by
  cases step with
  | notAnInteger nothing =>
    refine ⟨fun n counts => absurd counts (nothing n), fun sum member => ?_, run.deadline,
      run.others, run.counters⟩
    exact run.countable sum (by simpa using member)
  | overflow =>
    refine ⟨run.total, fun sum member => ?_, run.deadline, run.others, run.counters⟩
    exact run.countable sum (by simpa using member)
  | added counts exact canonical =>
    have stored := (Increment.added counts exact canonical).counts_of_ok
    refine ⟨fun n counts' => ?_, fun _ _ => ⟨_, run.total _ stored⟩, ?_, fun other apart => ?_,
      run.counters⟩
    · rw [accepted, counts'.unique counts, ← add_assoc, ← exact]
      exact run.total _ stored
    · rw [run.deadline, find?_put, if_pos rfl]
      rfl
    · rw [run.others other apart, find?_put, if_neg apart]

theorem counted_incrementEach (key : Bytes) (deltas : List Int64) (store : Store) :
    Counted key deltas store (store.incrementEach key deltas).1
      (store.incrementEach key deltas).2 := by
  induction deltas generalizing store with
  | nil => exact .nil key store
  | cons delta deltas ih => exact (increment_incrementBy store key delta).counted (ih _)

theorem incrementEach_concat (store : Store) (key : Bytes) (deltas : List Int64) (delta : Int64) :
    store.incrementEach key (deltas ++ [delta]) =
      ((store.incrementEach key deltas).1 ++
          [((store.incrementEach key deltas).2.incrementBy key delta).1],
        ((store.incrementEach key deltas).2.incrementBy key delta).2) := by
  induction deltas generalizing store with
  | nil => rfl
  | cons first deltas ih => simp only [List.cons_append, incrementEach, ih]

end Run

end Store

/-! ## The command -/

/-- What a client is told about an increment. -/
def Outcome.ofIncrement : Except IncrementError Int64 → Outcome
  | .ok sum => .ok (.integer sum)
  | .error error => .error (.ofIncrement error)

/-- On a key that has not expired, the command `INCR` is an increment by one. -/
theorem Command.apply_incr_of_unexpired {store : Store} {key : Bytes} {now : Instant}
    (unexpired : (store.find? key).any (·.isExpired now) = false) :
    (incr key).apply now store =
      (.ofIncrement (store.incrementBy key 1).1, (store.incrementBy key 1).2) := by
  have kept : store.prune key now = store := by simp [Store.prune, Store.removeIfExpired, unexpired]
  rw [apply_incr, kept]
  cases (store.incrementBy key 1).1 <;> rfl

/-- Behind any run of increments, one more increment of the key answers the exact sum of what the key
counts and the step, if both are integers of 64 bits, and stores its canonical text, which is read back as
that sum; otherwise it says what is wrong and changes nothing. Once one of them has been accepted, none is
refused for want of an integer. Together they add up to the steps that were accepted, and the deadline,
all other keys and the counters stay as they are. `INCR` is an increment by one. -/
theorem Store.increments_exact (store : Store) (key : Bytes) (deltas : List Int64)
    (delta : Int64) :
    let answers := (store.incrementEach key deltas).1
    let reached := (store.incrementEach key deltas).2
    let answer := (reached.incrementBy key delta).1
    let after := (reached.incrementBy key delta).2
    store.incrementEach key (deltas ++ [delta]) = (answers ++ [answer], after) ∧
      ((∃ sum, answer = .ok sum) ↔
        ∃ n, Counts (reached.find? key) n ∧ Word.Fits (n + delta.toInt)) ∧
      (∀ sum, answer = .ok sum → ∃ n text,
        Counts (reached.find? key) n ∧ sum.toInt = n + delta.toInt ∧
          Decimal.Canonical text sum.toInt ∧ Decimal.int64? text = some sum ∧
          after = reached.put key ⟨text, (store.find? key).bind Entry.deadline?⟩) ∧
      (answer = .error .notAnInteger ↔ ∀ n, ¬Counts (reached.find? key) n) ∧
      (answer = .error .overflow ↔
        ∃ n, Counts (reached.find? key) n ∧ ¬Word.Fits (n + delta.toInt)) ∧
      (∀ error, answer = .error error → after = reached) ∧
      (∀ sum, .ok sum ∈ answers → answer ≠ .error .notAnInteger) ∧
      (∀ n, Counts (store.find? key) n →
        Counts (reached.find? key) (n + accepted deltas answers)) ∧
      (after.find? key).bind Entry.deadline? = (store.find? key).bind Entry.deadline? ∧
      (∀ other, key ≠ other → after.find? other = store.find? other) ∧
      after.counters = store.counters ∧
      ∀ now, (reached.find? key).any (·.isExpired now) = false →
        (Command.incr key).apply now reached =
          (.ofIncrement (reached.incrementBy key 1).1, (reached.incrementBy key 1).2) := by
  intro answers reached answer after
  have run : Counted key deltas store answers reached := counted_incrementEach key deltas store
  have step : Increment key delta reached answer after := increment_incrementBy reached key delta
  have further : Counted key (deltas ++ [delta]) store (answers ++ [answer]) after := by
    have whole := counted_incrementEach key (deltas ++ [delta]) store
    rwa [incrementEach_concat] at whole
  obtain ⟨notAnInteger, overflow⟩ := step.error_iff
  refine ⟨incrementEach_concat store key deltas delta, step.ok_iff, fun sum told => ?_, notAnInteger,
    overflow, fun error told => ?_, fun sum member told => ?_, run.total, further.deadline,
    further.others, further.counters, fun now => Command.apply_incr_of_unexpired⟩
  · rw [told] at step
    obtain ⟨n, text, counts, exact, canonical, stored⟩ := step.exists_text
    rw [run.deadline] at stored
    exact ⟨n, text, counts, exact, canonical, canonical.int64?_eq, stored⟩
  · rw [told] at step
    exact step.eq_of_error
  · obtain ⟨n, counts⟩ := run.countable sum member
    exact notAnInteger.1 told n counts

/-- A key with a deadline, whose integer is written with zeros in front. -/
def padded : Store :=
  Store.empty.put (Utf8.encode "k") ⟨Utf8.encode "007", some 50⟩

/-- Steps that take it below zero and up to the largest integer. -/
def upToTheTop : List Int64 :=
  [-8, 9223372036854775807, 1]

theorem Store.increments_exact_upToTheTop :
    let key := Utf8.encode "k"
    let answers := (padded.incrementEach key upToTheTop).1
    let top := (padded.incrementEach key upToTheTop).2
    answers = [.ok (-1), .ok 9223372036854775806, .ok 9223372036854775807] ∧
      ((top.incrementBy key 1).1 = .error .overflow ∧ (top.incrementBy key 1).2 = top ∧
        (top.incrementBy key 1).1 ≠ .error .notAnInteger) ∧
      ((top.incrementBy key (-9)).1 = .ok 9223372036854775798 ∧
        ∃ n text, Counts (top.find? key) n ∧
          (9223372036854775798 : Int64).toInt = n + (-9 : Int64).toInt ∧
          Decimal.Canonical text (9223372036854775798 : Int64).toInt ∧
          Decimal.int64? text = some 9223372036854775798 ∧
          (top.incrementBy key (-9)).2 = top.put key ⟨text, some 50⟩) ∧
      (top.find? key).any (·.isExpired 49) = false ∧
      ((Command.incr key).apply 49 top).1 = .error .overflow := by
  intro key answers top
  obtain ⟨-, -, -, -, -, unchanged, countable, -, -, -, -, command⟩ :=
    increments_exact padded key upToTheTop 1
  obtain ⟨-, -, exact, -⟩ := increments_exact padded key upToTheTop (-9)
  have told : answers = [.ok (-1), .ok 9223372036854775806, .ok 9223372036854775807] := by
    decide +kernel
  have refused : (top.incrementBy key 1).1 = .error .overflow := by decide +kernel
  have added : (top.incrementBy key (-9)).1 = .ok 9223372036854775798 := by decide +kernel
  have unexpired : (top.find? key).any (·.isExpired 49) = false := by decide +kernel
  have first : .ok (-1) ∈ answers := by simp [told]
  refine ⟨told, ⟨refused, unchanged _ refused, countable (-1) first⟩, ⟨added, exact _ added⟩,
    unexpired, ?_⟩
  rw [command 49 unexpired, refused]
  rfl

end KvServer
