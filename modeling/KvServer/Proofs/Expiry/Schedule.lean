import KvServer.Expiry.Schedule
import Mathlib.Data.List.Basic
import Mathlib.Tactic.Linarith
import Mathlib.Tactic.Ring

/-!
# What a schedule comes to

A loop that sleeps for an interval works at the multiples of it. It is over with one sleep before it is
asked for the next, so it does not matter in how many pieces its time passes.

* `wakeUps`, the moments at which a loop works
* `runUntil_eq` and `notes_runUntil`: a loop does its work at these moments, one after the other, and notes
  them; when it works does not depend on what comes of it
* `mem_wakeUps_iff` and `pairwise_wakeUps`: they are the multiples of the interval, each once
* `wakeUps_append`: to let a loop go on twice is to let it go on once
-/

namespace KvServer.Schedule

/-- The moments at which a loop works that sleeps until `wake`. -/
def wakeUps (interval upTo wake : Nat) : List Nat :=
  if interval = 0 ∨ upTo < wake then [] else wake :: wakeUps interval upTo (wake + interval)
termination_by upTo + 1 - wake

variable {σ ε : Type} {interval upTo wake : Nat}

theorem runUntil_of_ended (work : Nat → σ → ε × σ) (state : σ) (ended : interval = 0 ∨ upTo < wake) :
    runUntil interval work upTo wake state = ([], wake, state) := by
  rw [runUntil, if_pos ended]

theorem runUntil_of_due (work : Nat → σ → ε × σ) (state : σ) (due : ¬(interval = 0 ∨ upTo < wake)) :
    runUntil interval work upTo wake state = Prod.map (List.cons (work wake state).1) id
      (runUntil interval work upTo (wake + interval) (work wake state).2) := by
  rw [runUntil, if_neg due]
  rfl

/-- A loop does its work at these moments, one after the other. -/
theorem runUntil_eq (work : Nat → σ → ε × σ) (state : σ) :
    (runUntil interval work upTo wake state).2 =
      (wake + (wakeUps interval upTo wake).length * interval,
        (wakeUps interval upTo wake).foldl (fun state moment => (work moment state).2) state) := by
  fun_induction wakeUps interval upTo wake generalizing state with
  | case1 wake ended => simp [runUntil_of_ended work state ended]
  | case2 wake due ih =>
    rw [runUntil_of_due work state due, Prod.map_snd, id_eq, ih, List.length_cons, List.foldl_cons]
    congr 1
    ring

/-- What it notes of each moment, if that does not depend on the state that it finds. -/
theorem notes_runUntil {work : Nat → σ → ε × σ} {note : Nat → ε}
    (noted : ∀ moment state, (work moment state).1 = note moment) (state : σ) :
    (runUntil interval work upTo wake state).1 = (wakeUps interval upTo wake).map note := by
  fun_induction wakeUps interval upTo wake generalizing state with
  | case1 wake ended => rw [runUntil_of_ended work state ended, List.map_nil]
  | case2 wake due ih => rw [runUntil_of_due work state due, Prod.map_fst, ih, noted, List.map_cons]

theorem mem_wakeUps_iff (positive : 0 < interval) {moment : Nat} :
    moment ∈ wakeUps interval upTo wake ↔ ∃ k, moment = wake + k * interval ∧ moment ≤ upTo := by
  fun_induction wakeUps interval upTo wake with
  | case1 wake ended =>
    have asleep : upTo < wake := ended.resolve_left positive.ne'
    simp only [List.not_mem_nil, false_iff]
    rintro ⟨k, rfl, reached⟩
    omega
  | case2 wake due ih =>
    rw [List.mem_cons, ih]
    constructor
    · rintro (rfl | ⟨k, rfl, reached⟩)
      · exact ⟨0, by omega, by omega⟩
      · exact ⟨k + 1, by ring, reached⟩
    · rintro ⟨k, rfl, reached⟩
      cases k with
      | zero => exact .inl (by omega)
      | succ k => exact .inr ⟨k, by ring, reached⟩

theorem le_of_mem_wakeUps {moment : Nat} (member : moment ∈ wakeUps interval upTo wake) :
    wake ≤ moment := by
  fun_induction wakeUps interval upTo wake with
  | case1 => cases member
  | case2 wake due ih =>
    rcases List.mem_cons.1 member with rfl | later
    · exact le_rfl
    · exact (Nat.le_add_right ..).trans (ih later)

theorem pairwise_wakeUps : (wakeUps interval upTo wake).Pairwise (· < ·) := by
  fun_induction wakeUps interval upTo wake with
  | case1 => exact .nil
  | case2 wake due ih =>
    refine .cons (fun moment later => ?_) ih
    have after := le_of_mem_wakeUps later
    omega

/-- The last sleep ends behind the moment up to which the loop went on. -/
theorem lt_next_wake (positive : 0 < interval) (upTo wake : Nat) :
    upTo < wake + (wakeUps interval upTo wake).length * interval := by
  fun_induction wakeUps interval upTo wake with
  | case1 wake ended => simpa using ended.resolve_left positive.ne'
  | case2 wake due ih =>
    rw [List.length_cons, Nat.add_mul, Nat.one_mul]
    omega

/-- The last sleep began before that moment, unless it was the first. -/
theorem next_wake_le (interval upTo wake : Nat) : wakeUps interval upTo wake = [] ∨
    wake + (wakeUps interval upTo wake).length * interval ≤ upTo + interval := by
  fun_induction wakeUps interval upTo wake with
  | case1 => exact .inl rfl
  | case2 wake due ih =>
    right
    rw [List.length_cons, Nat.add_mul, Nat.one_mul]
    rcases ih with nothing | before
    · rw [nothing, List.length_nil]
      omega
    · omega

/-- Sleeps that follow each other from a moment on go on doing so. -/
theorem exists_next_wake (positive : 0 < interval) {began k : Nat} (slept : began + k * interval ≤ upTo) :
    ∃ j, began + (k + 1) * interval +
        (wakeUps interval upTo (began + (k + 1) * interval)).length * interval =
          began + (j + 1) * interval ∧
      began + j * interval ≤ upTo ∧ upTo < began + (j + 1) * interval := by
  have asleep := lt_next_wake positive upTo (began + (k + 1) * interval)
  have last := next_wake_le interval upTo (began + (k + 1) * interval)
  generalize wakeUps interval upTo (began + (k + 1) * interval) = moments at *
  have place : began + (k + 1) * interval + moments.length * interval =
      began + (k + moments.length + 1) * interval := by ring
  rw [place] at asleep last
  refine ⟨k + moments.length, place, ?_, asleep⟩
  -- If the loop did not wake up at all, its sleep is the one it was in.
  rcases last with nothing | last
  · rwa [nothing, List.length_nil, Nat.add_zero]
  · have one : began + (k + moments.length + 1) * interval =
        began + (k + moments.length) * interval + interval := by ring
    omega

/-- A loop that goes on for longer begins with what it did before, and goes on from there. -/
theorem wakeUps_append {later : Nat} (ordered : upTo ≤ later) (wake : Nat) :
    wakeUps interval later wake = wakeUps interval upTo wake ++
      wakeUps interval later (wake + (wakeUps interval upTo wake).length * interval) := by
  fun_induction wakeUps interval upTo wake with
  | case1 => simp
  | case2 wake due ih =>
    have due' : ¬(interval = 0 ∨ later < wake) := by omega
    have next (n : Nat) : wake + interval + n * interval = wake + (n + 1) * interval := by ring
    rw [wakeUps.eq_def interval later wake, if_neg due', ih, next, List.length_cons, List.cons_append]

end KvServer.Schedule
