import KvServer.Proofs.Command.History
import KvServer.Proofs.Command.Scope

/-!
# Keys do not interfere

What a client sees of a key, and what is left under it, is the work of the commands that name the key. A
run can be cut down to them; and commands that name different keys can change places.

* `Call.key?`, the key that a call names
* `Call.find?_execute_of_ne`, `Call.agree_execute`: what a call leaves alone, and what it depends on
* `outcomesOn_eq_alone`: the calls on a key go as they go alone
* `history_swap`: two calls that name no common key change places
-/

namespace KvServer

open Script (Agree Only)

namespace Call

/-- The key that a call names, if its arguments are those of a command with a key. -/
def key? (call : Call) : Option Bytes :=
  (Command.ofArguments call.arguments).toOption.bind Command.key?

theorem key?_of_ok {call : Call} {command : Command}
    (read : Command.ofArguments call.arguments = .ok command) : call.key? = command.key? := by
  simp [key?, read, Except.toOption]

theorem find?_execute_of_ne {call : Call} {key : Bytes} (elsewhere : call.key? ≠ some key)
    (store : Store) : (execute call.arguments call.now store).2.find? key = store.find? key := by
  unfold execute
  cases read : Command.ofArguments call.arguments with
  | error => rfl
  | ok command =>
    have only : Only (fun access => access.key? ≠ some key) command.script := by
      refine command.only_script.imp fun access made named => elsewhere ?_
      obtain ⟨other, named', owned⟩ := Command.exists_key_of_mem_accesses made
      rw [key?_of_ok read, owned, ← named', named]
    simp only [Command.apply, ← Script.runAt_const]
    exact only.find?_runAt (fun _ => call.now) store

theorem agree_execute (call : Call) {left right : Store}
    (same : ∀ key, call.key? = some key → left.find? key = right.find? key) :
    Agree (fun key => call.key? = some key) left right
      (execute call.arguments call.now left) (execute call.arguments call.now right) := by
  unfold execute
  cases read : Command.ofArguments call.arguments with
  | error error => exact ⟨rfl, same, 0, (add_zero _).symm, (add_zero _).symm⟩
  | ok command =>
    have only : Only (fun access => ∃ key, access.key? = some key ∧ call.key? = some key)
        command.script := by
      rw [key?_of_ok read]
      exact command.only_script.imp fun access => Command.exists_key_of_mem_accesses
    simp only [Command.apply, ← Script.runAt_const]
    exact only.agree_runAt (fun _ => call.now) same

end Call

/-! ## The calls on one key -/

/-- The outcomes of those calls of a run that name a key. -/
def outcomesOn (key : Bytes) (calls : List Call) (store : Store) : List Outcome :=
  ((calls.zip (history execute calls store)).filter fun (call, _) => call.key? = some key).map
    fun (_, effect) => effect.outcome

theorem outcomesOn_cons (key : Bytes) (call : Call) (calls : List Call) (store : Store) :
    outcomesOn key (call :: calls) store =
      let (outcome, after) := execute call.arguments call.now store
      if call.key? = some key then outcome :: outcomesOn key calls after
      else outcomesOn key calls after := by
  by_cases named : call.key? = some key <;> simp [outcomesOn, history, named]

theorem outcomesOn_eq_alone (key : Bytes) (calls : List Call) {among alone : Store}
    (same : among.find? key = alone.find? key) :
    outcomesOn key calls among =
        (history execute (calls.filter (·.key? = some key)) alone).map (·.outcome) ∧
      (stateBehind among (history execute calls among)).find? key =
        (stateBehind alone (history execute (calls.filter (·.key? = some key)) alone)).find? key := by
  induction calls generalizing among alone with
  | nil => exact ⟨rfl, same⟩
  | cons call calls ih =>
    rw [outcomesOn_cons]
    by_cases named : call.key? = some key
    · -- Both runs make the call, and agree on the key before it.
      have agree : Agree (fun key => call.key? = some key) among alone
          (execute call.arguments call.now among) (execute call.arguments call.now alone) := by
        refine call.agree_execute fun other hit => ?_
        rw [named, Option.some_inj] at hit
        rw [← hit, same]
      obtain ⟨outcomes, entry⟩ := ih (agree.entries key named)
      simp only [List.filter_cons, named, decide_true, if_true]
      exact ⟨congrArg₂ List.cons agree.answer outcomes, entry⟩
    · -- Only the whole run makes the call, and it leaves the key alone.
      obtain ⟨outcomes, entry⟩ := ih ((Call.find?_execute_of_ne named among).trans same)
      simp only [List.filter_cons, named, decide_false, if_false]
      exact ⟨outcomes, entry⟩

/-! ## Two calls in either order -/

theorem execute_comm {first second : Call}
    (apart : ∀ key, first.key? = some key → second.key? ≠ some key) (store : Store) :
    let a := execute first.arguments first.now store
    let b := execute second.arguments second.now store
    let ab := execute second.arguments second.now a.2
    let ba := execute first.arguments first.now b.2
    ab.1 = b.1 ∧ ba.1 = a.1 ∧ ab.2 = ba.2 := by
  intro a b ab ba
  have apart' : ∀ key, second.key? = some key → first.key? ≠ some key :=
    fun key own other => apart key other own
  have agreeFirst : Agree (fun key => first.key? = some key) store b.2 a ba :=
    first.agree_execute fun key own => (Call.find?_execute_of_ne (apart key own) store).symm
  have agreeSecond : Agree (fun key => second.key? = some key) store a.2 b ab :=
    second.agree_execute fun key own => (Call.find?_execute_of_ne (apart' key own) store).symm
  refine ⟨agreeSecond.answer.symm, agreeFirst.answer.symm, Store.ext_find? (fun key => ?_) ?_⟩
  · by_cases ofFirst : first.key? = some key
    · calc ab.2.find? key = a.2.find? key := Call.find?_execute_of_ne (apart key ofFirst) a.2
        _ = ba.2.find? key := agreeFirst.entries key ofFirst
    · have leftAlone : ba.2.find? key = b.2.find? key := Call.find?_execute_of_ne ofFirst b.2
      by_cases ofSecond : second.key? = some key
      · rw [leftAlone, agreeSecond.entries key ofSecond]
      · calc ab.2.find? key = a.2.find? key := Call.find?_execute_of_ne ofSecond a.2
          _ = store.find? key := Call.find?_execute_of_ne ofFirst store
          _ = b.2.find? key := (Call.find?_execute_of_ne ofSecond store).symm
          _ = ba.2.find? key := leftAlone.symm
  · obtain ⟨counts, counters, counters'⟩ := agreeFirst.counted
    obtain ⟨counts', counters₂, counters₂'⟩ := agreeSecond.counted
    rw [counters₂', counters, counters', counters₂, add_right_comm]

theorem history_swap {first second : Call}
    (apart : ∀ key, first.key? = some key → second.key? ≠ some key) (later : List Call)
    (store : Store) :
    ∃ outcome outcome' outcomes,
      (history execute (first :: second :: later) store).map (·.outcome) =
          outcome :: outcome' :: outcomes ∧
        (history execute (second :: first :: later) store).map (·.outcome) =
          outcome' :: outcome :: outcomes ∧
        stateBehind store (history execute (first :: second :: later) store) =
          stateBehind store (history execute (second :: first :: later) store) := by
  obtain ⟨outcome, outcome', behind⟩ := execute_comm apart store
  let ab := execute second.arguments second.now (execute first.arguments first.now store).2
  refine ⟨(execute first.arguments first.now store).1, (execute second.arguments second.now store).1,
    (history execute later ab.2).map (·.outcome), ?_, ?_, ?_⟩
  · simp only [history, List.map_cons, outcome, ab]
  · simp only [history, List.map_cons, outcome', ab, behind]
  · simp only [history, stateBehind, List.foldl_cons, behind]

/-- The outcomes of the calls on a key, and what they leave there, are the same without all other calls;
and two calls that name no common key can change places in a run, and nothing but their outcomes does. -/
theorem keys_independent :
    (∀ (key : Bytes) (calls : List Call) (store : Store),
      let own := calls.filter (·.key? = some key)
      outcomesOn key calls store = (history execute own store).map (·.outcome) ∧
        (stateBehind store (history execute calls store)).find? key =
          (stateBehind store (history execute own store)).find? key) ∧
    ∀ (first second : Call) (later : List Call) (store : Store),
      (∀ key, first.key? = some key → second.key? ≠ some key) →
        ∃ outcome outcome' outcomes,
          (history execute (first :: second :: later) store).map (·.outcome) =
              outcome :: outcome' :: outcomes ∧
            (history execute (second :: first :: later) store).map (·.outcome) =
              outcome' :: outcome :: outcomes ∧
            stateBehind store (history execute (first :: second :: later) store) =
              stateBehind store (history execute (second :: first :: later) store) :=
  ⟨fun key calls _ => outcomesOn_eq_alone key calls rfl,
    fun _ _ later store apart => history_swap apart later store⟩

/-- Two keys that differ in case, used in turns on a clock that goes back, and other requests. -/
def mixedKeys : List Call :=
  [⟨10, [Utf8.encode "SET", Utf8.encode "k", Utf8.encode "7"]⟩,
    ⟨10, [Utf8.encode "SET", Utf8.encode "K", Utf8.encode "x"]⟩,
    ⟨10, [Utf8.encode "EXPIRE", Utf8.encode "K", Utf8.encode "5"]⟩,
    ⟨20, [Utf8.encode "INCR", Utf8.encode "k"]⟩,
    ⟨20, [Utf8.encode "PING"]⟩,
    ⟨12, [Utf8.encode "GET", Utf8.encode "K"]⟩,
    ⟨12, [Utf8.encode "GET", Utf8.encode "k", Utf8.encode "K"]⟩,
    ⟨15, [Utf8.encode "TTL", Utf8.encode "K"]⟩]

theorem keys_independent_mixedKeys :
    let store := stateBehind .empty (history execute (mixedKeys.take 3) .empty)
    let count : Call := ⟨15, [Utf8.encode "INCR", Utf8.encode "k"]⟩
    let read : Call := ⟨15, [Utf8.encode "GET", Utf8.encode "K"]⟩
    outcomesOn (Utf8.encode "K") mixedKeys .empty =
        [.ok .ok, .ok (.integer 1), .ok (.bulk (Utf8.encode "x")), .ok (.integer (-2))] ∧
      (∀ key, count.key? = some key → read.key? ≠ some key) ∧
      (history execute [count, read] store).map (·.outcome) = [.ok (.integer 8), .ok .null] ∧
      stateBehind store (history execute [count, read] store) =
        stateBehind store (history execute [read, count] store) := by
  intro store count read
  have countKey : count.key? = some (Utf8.encode "k") := rfl
  have readKey : read.key? = some (Utf8.encode "K") := rfl
  have apart : ∀ key, count.key? = some key → read.key? ≠ some key := by
    intro key named same
    rw [countKey] at named
    rw [readKey, ← named] at same
    exact absurd same (by decide)
  obtain ⟨outcome, outcome', outcomes, -, -, behind⟩ :=
    keys_independent.2 count read [] store apart
  exact ⟨(keys_independent.1 (Utf8.encode "K") mixedKeys .empty).1.trans rfl, apart, rfl, behind⟩

end KvServer
