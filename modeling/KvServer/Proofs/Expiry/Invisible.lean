import KvServer.Proofs.Expiry.Eager

/-!
# Active expiry is invisible

Checks of keys and cycles of active expiry take expired keys out of the store and nothing else, so
clients cannot tell a store on which they run from one on which they do not.

* `Script.Invisible`, scripts that change nothing about what is live; they are closed under sequencing
* `live_expire`: a cycle is one of them, under every policy and for every choice of samples, also if it
  is asked to stop in between
* `history_cycles_invisible`: a run with any checks and cycles in it goes as it goes without them
-/

namespace KvServer

namespace Script

/-- A script that changes nothing about what is live. -/
def Invisible {α : Type} (script : Script α) : Prop :=
  ∀ (now : Instant) (store : Store),
    (script.run now store).2.contents.live now = store.contents.live now

variable {α β : Type}

theorem Invisible.pure (result : α) : Invisible (pure result) :=
  fun _ _ => rfl

theorem Invisible.bind {script : Script α} {follow : α → Script β} (first : Invisible script)
    (second : ∀ result, Invisible (follow result)) : Invisible (script >>= follow) := by
  intro now store
  rw [run_bind]
  exact (second _ now _).trans (first now store)

theorem invisible_keys : Invisible (perform .keys) :=
  fun _ _ => rfl

end Script

open Script (Invisible)

theorem invisible_dropIfExpired (key : Bytes) : Invisible (dropIfExpired key) := by
  intro now store
  rw [run_dropIfExpired]
  exact store.live_removeIfExpired key now

theorem invisible_dropExpiredFrom (dropped : Nat) (keys : List Bytes) :
    Invisible (dropExpiredFrom dropped keys) := by
  induction keys generalizing dropped with
  | nil => exact .pure dropped
  | cons key keys ih => exact (invisible_dropIfExpired key).bind fun _ => ih _

theorem invisible_cycleFrom (policy : Policy) (sampler : Sampler) (stop : StopSignal)
    (passes dropped limit : Nat) : Invisible (policy.cycleFrom sampler stop passes dropped limit) := by
  induction limit generalizing passes dropped with
  | zero => exact .pure _
  | succ limit ih =>
    refine Script.invisible_keys.bind fun keys => ?_
    dsimp only
    split
    next => exact .pure _
    next =>
      refine (invisible_dropExpiredFrom 0 _).bind fun gone => ?_
      split
      next => exact .pure _
      next =>
        split
        next => exact .pure _
        next => exact ih _ _

theorem live_expire (store : Store) (policy : Policy) (sampler : Sampler) (stop : StopSignal)
    (now : Instant) : (store.expire policy sampler stop now).2.contents.live now =
      store.contents.live now :=
  invisible_cycleFrom policy sampler stop 0 0 (store.size + 1) now store

/-! ## Two runs -/

/-- Stores that agree on what is live answer alike and go on agreeing. -/
theorem execute_congr_live {left right : Store} {now : Instant} (arguments : List Bytes)
    (same : left.contents.live now = right.contents.live now) :
    (execute arguments now left).1 = (execute arguments now right).1 ∧
      (execute arguments now left).2.contents.live now =
        (execute arguments now right).2.contents.live now := by
  obtain ⟨outcome, live⟩ := execute_simulated arguments now left
  obtain ⟨outcome', live'⟩ := execute_simulated arguments now right
  rw [Eager.execute_congr arguments same] at outcome live
  exact ⟨outcome.trans outcome'.symm, live.trans live'.symm⟩

theorem history_invisible (events : List Event) (ordered : events.Pairwise (·.now ≤ ·.now))
    (start : Instant) (upcoming : ∀ event ∈ events, start ≤ event.now) (alone among : Store)
    (same : alone.contents.live start = among.contents.live start) :
    List.Forall₂
      (fun alone among => alone.now = among.now ∧ alone.outcome = among.outcome ∧
        alone.state.contents.live alone.now = among.state.contents.live alone.now)
      (history execute (events.filterMap Event.call?) alone) (Event.history events among) := by
  induction events generalizing start alone among with
  | nil => exact .nil
  | cons event events ih =>
    obtain ⟨before, rest⟩ := List.pairwise_cons.1 ordered
    have sameNow := Contents.live_congr_of_le (upcoming event List.mem_cons_self) same
    cases event with
    | request call =>
      obtain ⟨outcome, live⟩ := execute_congr_live call.arguments sameNow
      exact .cons ⟨rfl, outcome, live⟩ (ih rest call.now before _ _ live)
    | check now key =>
      -- Only one of the two runs moves.
      have live := sameNow.trans (invisible_dropIfExpired key now among).symm
      exact ih rest now before alone _ live
    | cycle now policy sampler stop =>
      have live := sameNow.trans (live_expire among policy sampler stop now).symm
      exact ih rest now before alone _ live

/-- Whatever checks and cycles are put between the calls of a run, every call has the outcome that it
has without them, and leaves the same entries live. -/
theorem history_cycles_invisible (store : Store) (events : List Event)
    (ordered : events.Pairwise (·.now ≤ ·.now)) :
    List.Forall₂
      (fun alone among => alone.now = among.now ∧ alone.outcome = among.outcome ∧
        alone.state.contents.live alone.now = among.state.contents.live alone.now)
      (history execute (events.filterMap Event.call?) store) (Event.history events store) := by
  exact history_invisible events ordered 0 (fun _ _ => UInt64.zero_le) store store rfl

/-- Two keys with a deadline, one of which a check takes out and the other a cycle, between calls that
use them. -/
def cycledKeys : List Event :=
  [.request ⟨10, [Utf8.encode "SET", Utf8.encode "a", Utf8.encode "1"]⟩,
    .request ⟨10, [Utf8.encode "EXPIRE", Utf8.encode "a", Utf8.encode "5"]⟩,
    .request ⟨11, [Utf8.encode "SET", Utf8.encode "b", Utf8.encode "2"]⟩,
    .request ⟨11, [Utf8.encode "EXPIRE", Utf8.encode "b", Utf8.encode "5"]⟩,
    .check 15 (Utf8.encode "a"),
    .request ⟨15, [Utf8.encode "INCR", Utf8.encode "b"]⟩,
    .cycle 16 .standard .inOrder .never,
    .request ⟨16, [Utf8.encode "INCR", Utf8.encode "a"]⟩,
    .request ⟨16, [Utf8.encode "TTL", Utf8.encode "b"]⟩]

theorem history_cycles_invisible_cycledKeys :
    cycledKeys.Pairwise (·.now ≤ ·.now) ∧
      (Event.history cycledKeys .empty).map (·.outcome) =
        [.ok .ok, .ok (.integer 1), .ok .ok, .ok (.integer 1), .ok (.integer 3),
          .ok (.integer 1), .ok (.integer (-2))] ∧
      List.Forall₂
        (fun alone among => alone.now = among.now ∧ alone.outcome = among.outcome ∧
          alone.state.contents.live alone.now = among.state.contents.live alone.now)
        (history execute (cycledKeys.filterMap Event.call?) .empty)
        (Event.history cycledKeys .empty) :=
  ⟨by decide, rfl, history_cycles_invisible .empty cycledKeys (by decide)⟩

end KvServer
