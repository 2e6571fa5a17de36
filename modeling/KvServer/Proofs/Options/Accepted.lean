import KvServer.Options.Arguments
import KvServer.Proofs.Expiry.Cycle
import Mathlib.Logic.Relation

/-!
# Accepted options

Every value is examined before it gets into the options, so whatever a command line says, the policy that
it is accepted with has a fraction for its threshold and does not cycle without a pause. With a fraction for
its threshold, a cycle comes to an end.

* `Options.Assigned`, the change that one accepted value makes
* `Arguments.assigned_of_read`: a command line changes the options by accepted values only
* `Policy.Accepted`, what the values of a policy were examined for
* `Policy.cycle_ends`: a cycle ends, and how soon
-/

namespace KvServer

open Relation (ReflTransGen)

variable {ε α β : Type}

theorem exists_of_bind_eq_ok {x : Except ε α} {f : α → Except ε β} {b : β} (result : x >>= f = .ok b) :
    ∃ a, x = .ok a ∧ f a = .ok b := by
  cases x with
  | error => cases result
  | ok a => exact ⟨a, rfl, result⟩

theorem exists_of_map_eq_ok {x : Except ε α} {f : α → β} {b : β} (result : x.map f = .ok b) :
    ∃ a, x = .ok a ∧ f a = b := by
  cases x with
  | error => cases result
  | ok a => exact ⟨a, rfl, Except.ok.inj result⟩

/-- Says that the values of a policy passed their checks. -/
structure Policy.Accepted (policy : Policy) : Prop where
  zero_le : .zero ≤ policy.threshold
  le_one : policy.threshold ≤ .one
  interval_ne : policy.interval ≠ 0

/-! ## One value -/

namespace Options

theorem accepted_standard : standard.policy.Accepted :=
  ⟨by decide, by decide, by decide⟩

theorem ne_zero_of_readInterval {text : String} {n : UInt64} (read : readInterval text = .ok n) :
    n ≠ 0 := by
  unfold readInterval at read
  split at read
  next => cases read
  next =>
    split at read
    next => cases read
    next nonzero => exact Except.ok.inj read ▸ nonzero

theorem between_of_readFraction {text : String} {x : Binary64} (read : readFraction text = .ok x) :
    .zero ≤ x ∧ x ≤ .one := by
  unfold readFraction at read
  split at read
  next => cases read
  next =>
    split at read
    next between => exact Except.ok.inj read ▸ between
    next => cases read

variable {options after : Options}

/-- Says that options become others by one value that was accepted. -/
def Assigned (options after : Options) : Prop :=
  ∃ name text, options.assign name text = .ok after

theorem Assigned.accepted (assigned : options.Assigned after) (accepted : options.policy.Accepted) :
    after.policy.Accepted := by
  obtain ⟨name, text, assigned⟩ := assigned
  cases name with
  | host | logLevel =>
    cases assigned
    exact accepted
  | port | expirySampleSize =>
    obtain ⟨value, -, rfl⟩ := exists_of_map_eq_ok assigned
    exact ⟨accepted.zero_le, accepted.le_one, accepted.interval_ne⟩
  | expiryInterval =>
    obtain ⟨interval, read, rfl⟩ := exists_of_map_eq_ok assigned
    exact ⟨accepted.zero_le, accepted.le_one, ne_zero_of_readInterval read⟩
  | expiryThreshold =>
    obtain ⟨threshold, read, rfl⟩ := exists_of_map_eq_ok assigned
    obtain ⟨zero_le, le_one⟩ := between_of_readFraction read
    exact ⟨zero_le, le_one, accepted.interval_ne⟩

theorem accepted_of_assigned (assigned : ReflTransGen Assigned options after)
    (accepted : options.policy.Accepted) : after.policy.Accepted := by
  induction assigned with
  | refl => exact accepted
  | tail _ one ih => exact one.accepted ih

end Options

/-! ## All arguments -/

namespace Arguments

open Options (Assigned)

variable {state after : Arguments}

theorem assigned_of_give {name : OptionName} {text : String} (given : state.give name text = .ok after) :
    ReflTransGen Assigned state.options after.options := by
  unfold give at given
  split at given
  next => cases given
  next =>
    split at given
    next => cases given
    next assigned =>
      cases given
      exact .single ⟨name, text, assigned⟩

theorem assigned_of_settle (settled : state.settle = .ok after) :
    ReflTransGen Assigned state.options after.options := by
  unfold settle at settled
  split at settled
  next =>
    cases settled
    exact .refl
  next => cases settled
  next =>
    have given := assigned_of_give settled
    exact given

theorem assigned_of_begin {name : OptionName} {attached? : Option String}
    (begun : state.begin name attached? = .ok after) :
    ReflTransGen Assigned state.options after.options := by
  obtain ⟨settled, settling, begun⟩ := exists_of_bind_eq_ok begun
  have before := assigned_of_settle settling
  cases attached? with
  | none =>
    cases begun
    exact before
  | some text => exact before.trans (assigned_of_give begun)

/-- Whoever asks for help gets no options. -/
theorem request_ne_ok (error : ArgumentError) : state.request error ≠ .ok after := by
  intro requested
  obtain ⟨settled, -, refused⟩ := exists_of_bind_eq_ok requested
  cases refused

theorem assigned_of_readLong {name : String} {value? : Option String}
    (read : state.readLong name value? = .ok after) :
    ReflTransGen Assigned state.options after.options := by
  unfold readLong at read
  split at read
  next => exact assigned_of_begin read
  next =>
    split at read
    next =>
      split at read
      next => cases read
      next => exact absurd read (request_ne_ok _)
    next => cases read

theorem assigned_of_readShort {letter : Char} {rest : List Char}
    (read : state.readShort letter rest = .ok after) :
    ReflTransGen Assigned state.options after.options := by
  unfold readShort at read
  split at read
  next => split at read <;> exact assigned_of_begin read
  next =>
    split at read
    next => exact absurd read (request_ne_ok _)
    next =>
      split at read
      next => exact absurd read (request_ne_ok _)
      next => cases read

theorem assigned_of_readPlain {text : String} (read : state.readPlain text = .ok after) :
    ReflTransGen Assigned state.options after.options := by
  unfold readPlain at read
  split at read
  next =>
    cases read
    exact .refl
  next => cases read

/-- A value that is not examined yet has not changed the options, and no value gets by unexamined. -/
theorem assigned_of_read {arguments : List String} (read : state.read arguments = .ok after) :
    ReflTransGen Assigned state.options after.options := by
  induction arguments generalizing state with
  | nil => exact assigned_of_settle read
  | cons text rest ih =>
    unfold Arguments.read at read
    split at read
    next =>
      split at read
      next => exact assigned_of_settle read
      next => cases read
    next =>
      obtain ⟨state, one, others⟩ := exists_of_bind_eq_ok read
      exact (assigned_of_readLong one).trans (ih others)
    next =>
      obtain ⟨state, one, others⟩ := exists_of_bind_eq_ok read
      exact (assigned_of_readShort one).trans (ih others)
    next =>
      obtain ⟨state, one, others⟩ := exists_of_bind_eq_ok read
      exact (assigned_of_readPlain one).trans (ih others)

end Arguments

theorem Options.accepted_of_ofArguments {arguments : List String} {options : Options}
    (yields : ofArguments arguments = .ok options) : options.policy.Accepted := by
  obtain ⟨state, read, rfl⟩ := exists_of_map_eq_ok yields
  exact accepted_of_assigned (Arguments.assigned_of_read read) accepted_standard

/-! ## Cycles -/

/-- Every command line that is accepted asks for a threshold that is a fraction and for a pause between
two cycles. With a fraction for the threshold every cycle ends, whatever it samples and whether it is asked
to stop or not, and it makes at most one pass more than it drops keys, or than keys have expired. -/
theorem Policy.cycle_ends :
    (∀ arguments options, Options.ofArguments arguments = .ok options →
      (∃ t, options.policy.threshold.value? = some t ∧ 0 ≤ t ∧ t ≤ 1) ∧
        1 ≤ options.policy.interval.toNat) ∧
    ∀ (policy : Policy) (t : ℚ), policy.threshold.value? = some t → 0 ≤ t → t ≤ 1 →
      ∀ (sampler : Sampler) (stop : StopSignal) (now : Instant) (store : Store),
        ∃ passes report after, policy.Passes sampler stop now 0 store passes after ∧
          report.passes = passes.length ∧ report.ending ≠ .passesUsedUp ∧
          (∀ limit, passes.length ≤ limit →
            (policy.cycle sampler stop limit).run now store = (report, after)) ∧
          store.expire policy sampler stop now = (report, after) ∧
          after.size + report.dropped = store.size ∧ passes.length ≤ report.dropped + 1 ∧
          passes.length ≤ (store.expiredKeys now).card + 1 := by
  constructor
  · intro arguments options accepted
    obtain ⟨zero_le, le_one, interval_ne⟩ := Options.accepted_of_ofArguments accepted
    refine ⟨(Binary64.between_iff _).1 ⟨zero_le, le_one⟩, ?_⟩
    exact Nat.pos_of_ne_zero fun zero => interval_ne (UInt64.toNat_inj.1 zero)
  · intro policy t value zero_le le_one sampler stop now store
    have zero_le := ((Binary64.between_iff _).2 ⟨t, value, zero_le, le_one⟩).1
    obtain ⟨passes, after, run⟩ := policy.exists_passes zero_le sampler stop now 0 store
    obtain ⟨earlier, last, -, -, ran⟩ := run.run_cycleFrom
    obtain ⟨gone, subset, sheds, counted⟩ := run.sheds
    have needed := run.length_le zero_le
    have enough := Store.length_le_of_passes run zero_le
    refine ⟨passes, _, after, run, Nat.zero_add _, last.ending_ne policy, ran 0, ran 0 _ enough, ?_,
      ?_, ?_⟩
    · dsimp only
      rw [Nat.zero_add, counted]
      exact sheds.size_eq
    · dsimp only
      rwa [Nat.zero_add]
    · exact needed.trans (Nat.succ_le_succ (counted.trans_le (Finset.card_le_card subset)))

/-- One key a pass, and another pass as long as any key is dropped. -/
def Options.persistent : Options :=
  { standard with policy := ⟨1000, 1, ⟨0x8000000000000000⟩⟩ }

/-- The threshold may be a zero with a sign. Three passes that drop a key each are then followed by a
fourth that drops none. -/
theorem Policy.cycle_ends_negativeZero :
    let policy := Options.persistent.policy
    let report := (Store.mostlyStale.expire policy .inOrder .never 100).1
    Options.ofArguments ["--expiry-threshold=-0.0", "--expiry-sample-size", "1"] = .ok .persistent ∧
      (∃ t, policy.threshold.value? = some t ∧ 0 ≤ t ∧ t ≤ 1) ∧ 1 ≤ policy.interval.toNat ∧
      policy.threshold ≠ .zero ∧ policy.threshold.value? = some 0 ∧
      report = ⟨4, 3, .lowYield 0 1⟩ ∧ report.passes ≤ report.dropped + 1 ∧
      report.passes ≤ (Store.mostlyStale.expiredKeys 100).card + 1 := by
  intro policy report
  have accepted : Options.ofArguments ["--expiry-threshold=-0.0", "--expiry-sample-size", "1"] =
      .ok .persistent := rfl
  have place : policy.threshold.rank = 0 := by decide
  have value : policy.threshold.value? = some 0 :=
    Binary64.value?_eq_some_iff.2 ⟨by decide, by rw [place]; exact Binary64.valueOf_zero⟩
  have reported : report = ⟨4, 3, .lowYield 0 1⟩ := by decide +kernel
  obtain ⟨fraction, pause⟩ := cycle_ends.1 _ _ accepted
  obtain ⟨passes, report', after, -, counted, -, -, expired, -, needed, few⟩ :=
    cycle_ends.2 policy 0 value le_rfl zero_le_one .inOrder .never 100 Store.mostlyStale
  have same : report = report' := congrArg Prod.fst expired
  rw [← counted, ← same] at needed few
  exact ⟨accepted, fraction, pause, by decide, value, reported, needed, few⟩

end KvServer
