import KvServer.Proofs.Store.Access

/-!
# What a script touches

What every access of a script keeps, the script keeps; and a script whose accesses name some keys only
depends on these keys only. The clock may show anything at each access.

* `Script.Only`: all accesses that a script can make are of some kind; closed under sequencing
* `Script.Only.invariant`: from the accesses to the run
* `Script.Only.agree_runAt`: stores that hold the same under some keys are the same to a script that
  names no others
-/

namespace KvServer

namespace Script

variable {α β : Type}

/-! ## Kinds of accesses -/

/-- Whatever the answers, a script makes only accesses that are allowed. -/
inductive Only (allowed : Access → Prop) : Script α → Prop where
  | done (result : α) : Only allowed (.done result)
  | ask {access : Access} {next : access.Answer → Script α} (first : allowed access)
      (rest : ∀ answer, Only allowed (next answer)) : Only allowed (.ask access next)

variable {allowed others : Access → Prop}

theorem Only.pure (result : α) : Only allowed (pure result : Script α) :=
  .done result

theorem Only.perform {access : Access} (first : allowed access) : Only allowed (perform access) :=
  .ask first .done

theorem Only.bind {script : Script α} {follow : α → Script β} (only : Only allowed script)
    (rest : ∀ result, Only allowed (follow result)) : Only allowed (script >>= follow) := by
  induction only with
  | done result => exact rest result
  | ask first _ ih => exact .ask first ih

theorem Only.imp {script : Script α} (weaker : ∀ access, allowed access → others access)
    (only : Only allowed script) : Only others script := by
  induction only with
  | done result => exact .done result
  | ask first _ ih => exact .ask (weaker _ first) ih

/-- What every access keeps at every reading, the script keeps. -/
theorem Only.invariant {script : Script α} (only : Only allowed script) (Holds : Store → Prop)
    {readings : Nat → Instant}
    (kept : ∀ access, allowed access → ∀ i store, Holds store →
      Holds (access.perform (readings i) store).2)
    {store : Store} (holds : Holds store) : Holds (script.runAt readings store).2 := by
  induction only generalizing readings store with
  | done => exact holds
  | @ask access _ first _ ih =>
    -- The rest of the script sees the readings from the second on.
    refine ih _ ?_ (kept access first 0 store holds)
    exact fun access allowed i => kept access allowed (i + 1)

/-! ## Keys -/

/-- A script that does not name a key leaves it alone. -/
theorem Only.find?_runAt {script : Script α} {key : Bytes}
    (only : Only (fun access => access.key? ≠ some key) script) (readings : Nat → Instant)
    (store : Store) : (script.runAt readings store).2.find? key = store.find? key := by
  refine only.invariant (fun later => later.find? key = store.find? key) ?_ rfl
  intro access elsewhere i later same
  rw [Access.find?_perform_of_ne elsewhere, same]

/-- Two results of one script, on stores that hold the same under some keys: so do the stores behind it,
and the answers and the counts are the same. -/
structure Agree (own : Bytes → Prop) (left right : Store) (leftEnd rightEnd : α × Store) : Prop where
  answer : leftEnd.1 = rightEnd.1
  entries : ∀ key, own key → leftEnd.2.find? key = rightEnd.2.find? key
  counted : ∃ counted, leftEnd.2.counters = left.counters + counted ∧
    rightEnd.2.counters = right.counters + counted

theorem agree_perform {own : Bytes → Prop} {access : Access} {left right : Store}
    (within : ∃ key, access.key? = some key ∧ own key)
    (same : ∀ key, own key → left.find? key = right.find? key) (now : Instant) :
    Agree own left right (access.perform now left) (access.perform now right) := by
  obtain ⟨key, named, owned⟩ := within
  refine ⟨Access.answer_congr named (same key owned) now, fun other owned' => ?_,
    access.counted now left, access.counters_perform now left, ?_⟩
  · by_cases hit : key = other
    · subst hit
      exact Access.find?_congr named (same key owned) now
    · have elsewhere : access.key? ≠ some other := by simpa [named] using hit
      rw [Access.find?_perform_of_ne elsewhere, Access.find?_perform_of_ne elsewhere,
        same other owned']
  · rw [access.counters_perform, Access.counted_congr named (same key owned)]

theorem Only.agree_runAt {own : Bytes → Prop} {script : Script α}
    (only : Only (fun access => ∃ key, access.key? = some key ∧ own key) script)
    (readings : Nat → Instant) {left right : Store}
    (same : ∀ key, own key → left.find? key = right.find? key) :
    Agree own left right (script.runAt readings left) (script.runAt readings right) := by
  induction only generalizing readings left right with
  | done result => exact ⟨rfl, same, 0, (add_zero _).symm, (add_zero _).symm⟩
  | @ask access next within _ ih =>
    have first := agree_perform within same (readings 0)
    have rest := ih (access.perform (readings 0) left).1 (fun i => readings (i + 1))
      first.entries
    obtain ⟨before, left', right'⟩ := first.counted
    obtain ⟨behind, left'', right''⟩ := rest.counted
    -- The two runs go on with the same script, since the first access answers alike.
    have goesOn : (Script.ask access next).runAt readings right =
        (next (access.perform (readings 0) left).1).runAt (fun i => readings (i + 1))
          (access.perform (readings 0) right).2 := by
      rw [first.answer]
      rfl
    rw [goesOn]
    refine ⟨rest.answer, rest.entries, before + behind, ?_, ?_⟩
    · rw [← add_assoc, ← left']
      exact left''
    · rw [← add_assoc, ← right']
      exact right''

end Script

end KvServer
