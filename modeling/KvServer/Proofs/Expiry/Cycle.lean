import KvServer.Expiry.Cycle
import KvServer.Proofs.Expiry.Sweep
import KvServer.Proofs.Numeral.Binary64

/-!
# Cycles

A cycle at one moment makes passes until one of them is the last. Their number is not limited beforehand:
every pass that is followed by another has dropped a key, and the keys that can be dropped run out. A cycle
that is asked to stop finishes its pass and begins no other.

* `Pass`, and `Pass.IsLast`, what ends a cycle
* `Policy.Passes`, the passes of a cycle, one after the other
* `Passes.run_cycleFrom`: a cycle that is allowed as many passes makes these
* `Passes.sheds`, `Passes.length_le` and `exists_passes`: they drop expired keys, few are needed, and they
  come to an end
* `Store.expire_exact`: which keys a cycle drops
-/

namespace KvServer

/-- A pass of a cycle: the keys it looked at, and how many of them it dropped. -/
structure Pass where
  sample : List Bytes
  dropped : Nat

namespace Pass

/-- Says that no pass follows: there was nothing to look at, too small a share of it was dropped, or the
cycle has been asked to stop. -/
def IsLast (policy : Policy) (stopped : Bool) (pass : Pass) : Prop :=
  pass.sample = [] ∨ Binary64.quotient pass.dropped pass.sample.length ≤ policy.threshold ∨
    stopped = true

def ending (policy : Policy) (pass : Pass) : CycleEnd :=
  if pass.sample = [] then .nothingSampled
  else if Binary64.quotient pass.dropped pass.sample.length ≤ policy.threshold then
    .lowYield pass.dropped pass.sample.length
  else .stopped

variable {policy : Policy} {stopped : Bool} {pass : Pass}

theorem ending_ne (policy : Policy) (pass : Pass) : pass.ending policy ≠ .passesUsedUp := by
  unfold ending
  split
  next => nofun
  next => split <;> nofun

theorem isLast_false_iff : pass.IsLast policy false ↔
    pass.sample = [] ∨ Binary64.quotient pass.dropped pass.sample.length ≤ policy.threshold := by
  simp [IsLast]

/-- Where the threshold is a number not below zero, a pass that is followed by another has dropped a key. -/
theorem dropped_pos (zero_le : .zero ≤ policy.threshold) (goesOn : ¬pass.IsLast policy stopped) :
    0 < pass.dropped := by
  refine Nat.pos_of_ne_zero fun nothing => goesOn (.inr (.inl ?_))
  rwa [nothing, Binary64.quotient_zero_left]

end Pass

namespace Policy

/-- The passes that a cycle makes at one moment, when it has made some before, and the store that it
leaves. Nothing limits their number. -/
inductive Passes (policy : Policy) (sampler : Sampler) (stop : StopSignal) (now : Instant) :
    (made : Nat) → Store → List Pass → Store → Prop where
  | last {made : Nat} {store after : Store} {pass : Pass}
      (sampled : pass.sample = sampler policy.sampleSize.toNat made store.keys)
      (swept : (dropExpired pass.sample).run now store = (pass.dropped, after))
      (isLast : pass.IsLast policy (stop made)) : Passes policy sampler stop now made store [pass] after
  | again {made : Nat} {store middle after : Store} {pass : Pass} {later : List Pass}
      (sampled : pass.sample = sampler policy.sampleSize.toNat made store.keys)
      (swept : (dropExpired pass.sample).run now store = (pass.dropped, middle))
      (goesOn : ¬pass.IsLast policy (stop made))
      (rest : Passes policy sampler stop now (made + 1) middle later after) :
      Passes policy sampler stop now made store (pass :: later) after

variable {policy : Policy} {sampler : Sampler} {stop : StopSignal} {now : Instant} {made : Nat}
  {store after : Store} {passes : List Pass}

/-! ## The passes of the script -/

/-- What one more pass does, and whether another follows. -/
theorem run_cycleFrom_succ {sample : List Bytes} {gone : Nat}
    (sampled : sample = sampler policy.sampleSize.toNat made store.keys)
    (swept : (dropExpired sample).run now store = (gone, after)) (dropped limit : Nat) :
    (policy.cycleFrom sampler stop made dropped (limit + 1)).run now store =
      if sample = [] then (⟨made + 1, dropped, .nothingSampled⟩, store)
      else if Binary64.quotient gone sample.length ≤ policy.threshold then
        (⟨made + 1, dropped + gone, .lowYield gone sample.length⟩, after)
      else if stop made then (⟨made + 1, dropped + gone, .stopped⟩, after)
      else (policy.cycleFrom sampler stop (made + 1) (dropped + gone) limit).run now after := by
  have listed : (Script.perform .keys).run now store = (store.keys, store) := rfl
  rw [cycleFrom, Script.run_bind, listed]
  dsimp only
  rw [← sampled]
  split
  next => rfl
  next =>
    rw [Script.run_bind, swept]
    dsimp only
    split
    next => rfl
    next => split <;> rfl

/-- The last pass ends a cycle, with a report on all of them. -/
theorem run_cycleFrom_of_isLast {pass : Pass}
    (sampled : pass.sample = sampler policy.sampleSize.toNat made store.keys)
    (swept : (dropExpired pass.sample).run now store = (pass.dropped, after))
    (isLast : pass.IsLast policy (stop made)) (dropped limit : Nat) :
    (policy.cycleFrom sampler stop made dropped (limit + 1)).run now store =
      (⟨made + 1, dropped + pass.dropped, pass.ending policy⟩, after) := by
  rw [run_cycleFrom_succ sampled swept, Pass.ending]
  by_cases nothing : pass.sample = []
  · -- There is nothing to drop then either.
    rw [nothing] at swept
    obtain ⟨undropped, rfl⟩ := Prod.mk.inj swept
    simp [nothing, ← undropped]
  · rw [if_neg nothing, if_neg nothing]
    split
    next => rfl
    next high => rw [if_pos ((isLast.resolve_left nothing).resolve_left high)]

theorem run_cycleFrom_of_not_isLast {pass : Pass}
    (sampled : pass.sample = sampler policy.sampleSize.toNat made store.keys)
    (swept : (dropExpired pass.sample).run now store = (pass.dropped, after))
    (goesOn : ¬pass.IsLast policy (stop made)) (dropped limit : Nat) :
    (policy.cycleFrom sampler stop made dropped (limit + 1)).run now store =
      (policy.cycleFrom sampler stop (made + 1) (dropped + pass.dropped) limit).run now after := by
  obtain ⟨something, goesOn⟩ := not_or.1 goesOn
  obtain ⟨high, unstopped⟩ := not_or.1 goesOn
  rw [run_cycleFrom_succ sampled swept, if_neg something, if_neg high, if_neg unstopped]

/-- A cycle that is allowed that many passes makes them, and reports on them. -/
theorem Passes.run_cycleFrom (run : Passes policy sampler stop now made store passes after) :
    ∃ earlier last, passes = earlier ++ [last] ∧ last.IsLast policy (stop (made + earlier.length)) ∧
      ∀ dropped limit, passes.length ≤ limit →
        (policy.cycleFrom sampler stop made dropped limit).run now store =
          (⟨made + passes.length, dropped + (passes.map Pass.dropped).sum, last.ending policy⟩,
            after) := by
  induction run with
  | @last made store after pass sampled swept isLast =>
    refine ⟨[], pass, rfl, isLast, fun dropped limit enough => ?_⟩
    obtain ⟨limit, rfl⟩ := Nat.exists_eq_add_of_le' enough
    rw [List.length_singleton, run_cycleFrom_of_isLast sampled swept isLast, List.map_singleton,
      List.sum_singleton]
  | @again made store middle after pass later sampled swept goesOn rest ih =>
    obtain ⟨earlier, last, rfl, isLast, ran⟩ := ih
    refine ⟨pass :: earlier, last, rfl, ?_, fun dropped limit enough => ?_⟩
    · rwa [List.length_cons, Nat.add_comm earlier.length, ← Nat.add_assoc]
    · obtain ⟨limit, rfl⟩ := Nat.exists_eq_add_of_le' enough
      rw [List.length_cons, ← Nat.add_assoc, run_cycleFrom_of_not_isLast sampled swept goesOn,
        ran _ _ (Nat.le_add_left ..), List.map_cons, List.sum_cons, Nat.add_right_comm made 1,
        Nat.add_assoc dropped, Nat.add_assoc made]

/-! ## What the passes drop -/

theorem sheds_of_swept {sample : List Bytes} {dropped : Nat}
    (swept : (dropExpired sample).run now store = (dropped, after)) :
    dropped = (store.expiredKeys now ∩ sample.toFinset).card ∧
      store.Sheds (store.expiredKeys now ∩ sample.toFinset) after := by
  have sheds := run_dropExpired sample now store
  rwa [swept] at sheds

theorem Passes.sheds (run : Passes policy sampler stop now made store passes after) :
    ∃ gone ⊆ store.expiredKeys now, store.Sheds gone after ∧
      (passes.map Pass.dropped).sum = gone.card := by
  induction run with
  | last sampled swept isLast =>
    obtain ⟨count, sheds⟩ := sheds_of_swept swept
    exact ⟨_, Finset.inter_subset_left, sheds, by simpa using count⟩
  | @again made store middle after pass later sampled swept goesOn rest ih =>
    obtain ⟨count, first⟩ := sheds_of_swept swept
    obtain ⟨gone, expired, second, counts⟩ := ih
    rw [first.expiredKeys_eq] at expired
    refine ⟨_, Finset.union_subset Finset.inter_subset_left (expired.trans Finset.sdiff_subset),
      first.trans second, ?_⟩
    rw [Finset.card_union_of_disjoint (first.disjoint second), List.map_cons, List.sum_cons, count,
      counts]

/-! ## How many passes there are -/

theorem Passes.length_le (run : Passes policy sampler stop now made store passes after)
    (zero_le : .zero ≤ policy.threshold) : passes.length ≤ (passes.map Pass.dropped).sum + 1 := by
  induction run with
  | last => simp
  | again _ _ goesOn _ ih =>
    have positive := Pass.dropped_pos zero_le goesOn
    simp only [List.length_cons, List.map_cons, List.sum_cons]
    omega

/-- Every cycle comes to an end. -/
theorem exists_passes (zero_le : .zero ≤ policy.threshold) (sampler : Sampler) (stop : StopSignal)
    (now : Instant) (made : Nat) (store : Store) :
    ∃ passes after, Passes policy sampler stop now made store passes after := by
  -- A pass that is followed by another leaves fewer keys that have expired.
  induction expired : (store.expiredKeys now).card using Nat.strong_induction_on
    generalizing made store with
  | _ count ih =>
    obtain ⟨sample, sampled⟩ : ∃ sample, sample = sampler policy.sampleSize.toNat made store.keys :=
      ⟨_, rfl⟩
    obtain ⟨dropped, middle, swept⟩ : ∃ dropped middle,
        (dropExpired sample).run now store = (dropped, middle) := ⟨_, _, rfl⟩
    by_cases isLast : Pass.IsLast policy (stop made) ⟨sample, dropped⟩
    · exact ⟨_, middle, .last sampled swept isLast⟩
    · have positive : 0 < dropped := Pass.dropped_pos zero_le isLast
      obtain ⟨counted, sheds⟩ := sheds_of_swept swept
      have fewer : (middle.expiredKeys now).card < count := by
        have subset : store.expiredKeys now ∩ sample.toFinset ⊆ store.expiredKeys now :=
          Finset.inter_subset_left
        have parts := Finset.card_sdiff_add_card_eq_card subset
        rw [sheds.expiredKeys_eq, ← expired]
        omega
      obtain ⟨later, after, rest⟩ := ih _ fewer (made + 1) middle rfl
      exact ⟨_, after, .again sampled swept isLast rest⟩

end Policy

/-! ## When nothing is left -/

/-- Says that a sampler chooses a sample in every pass. -/
def Sampler.Samples (sampler : Sampler) (size : Nat) : Prop :=
  ∀ pass keys, keys.Nodup → IsSample size keys (sampler size pass keys)

theorem Sampler.samples_inOrder (size : Nat) : Sampler.inOrder.Samples size := by
  intro pass keys distinct
  exact ⟨distinct.sublist (List.take_sublist size keys), fun key => List.mem_of_mem_take,
    List.length_take⟩

theorem IsSample.toFinset_eq {size : Nat} {keys sample : List Bytes} (isSample : IsSample size keys sample)
    (distinct : keys.Nodup) (all : keys.length ≤ size) : sample.toFinset = keys.toFinset := by
  obtain ⟨distinct', stored, length⟩ := isSample
  refine Finset.eq_of_subset_of_card_le (fun key => by simpa using stored key) ?_
  rw [List.toFinset_card_of_nodup distinct, List.toFinset_card_of_nodup distinct', length,
    Nat.min_eq_right all]

namespace Policy

variable {policy : Policy} {sampler : Sampler} {stop : StopSignal} {now : Instant} {made : Nat}
  {store after : Store} {passes : List Pass}

/-- A pass that looks at all keys leaves none that has expired, and there never is one again. -/
theorem Passes.expiredKeys_eq_empty (run : Passes policy sampler stop now made store passes after)
    (samples : sampler.Samples policy.sampleSize.toNat) (all : store.size ≤ policy.sampleSize.toNat) :
    after.expiredKeys now = ∅ := by
  have none_left {sample : List Bytes} {dropped : Nat} {middle : Store}
      (sampled : sample = sampler policy.sampleSize.toNat made store.keys)
      (swept : (dropExpired sample).run now store = (dropped, middle)) :
      middle.expiredKeys now = ∅ := by
    have isSample := samples made store.keys store.nodup_keys
    rw [← sampled] at isSample
    rw [(sheds_of_swept swept).2.expiredKeys_eq,
      isSample.toFinset_eq store.nodup_keys (store.length_keys.trans_le all),
      Finset.inter_eq_left.2 (store.expiredKeys_subset now), Finset.sdiff_self]
  cases run with
  | last sampled swept isLast => exact none_left sampled swept
  | again sampled swept goesOn rest =>
    obtain ⟨gone, -, sheds, -⟩ := rest.sheds
    rw [sheds.expiredKeys_eq, none_left sampled swept, Finset.empty_sdiff]

/-- Where every key has expired, the whole of each sample is dropped, and unless somebody asks the cycle
to stop, only an empty store ends that. -/
theorem Passes.size_eq_zero (run : Passes policy sampler .never now made store passes after)
    (samples : sampler.Samples policy.sampleSize.toNat) (sampleSize_ne : policy.sampleSize ≠ 0)
    (below_one : ¬.one ≤ policy.threshold)
    (expired : ∀ key, store.find? key ≠ none → key ∈ store.expiredKeys now) : after.size = 0 := by
  induction run with
  | @last made store after pass sampled swept isLast =>
    obtain ⟨counted, sheds⟩ := sheds_of_swept swept
    obtain ⟨distinct, stored, length⟩ := samples made store.keys store.nodup_keys
    rw [← sampled] at distinct stored length
    have all : store.expiredKeys now ∩ pass.sample.toFinset = pass.sample.toFinset := by
      refine Finset.inter_eq_right.2 fun key member => expired key ?_
      rw [← Option.isSome_iff_ne_none, ← store.mem_keys_iff]
      exact stored key (List.mem_toFinset.1 member)
    rw [all, List.toFinset_card_of_nodup distinct] at counted
    have nothing : pass.sample.length = 0 := by
      by_contra something
      rcases Pass.isLast_false_iff.1 isLast with nothing | low
      · exact something (by simp [nothing])
      · rw [counted, Binary64.quotient_self (Nat.pos_of_ne_zero something)] at low
        exact below_one low
    have positive : 0 < policy.sampleSize.toNat :=
      Nat.pos_of_ne_zero fun zero => sampleSize_ne (UInt64.toNat_inj.1 zero)
    have size := sheds.size_eq
    rw [store.length_keys] at length
    omega
  | @again made store middle after pass later sampled swept goesOn rest ih =>
    obtain ⟨-, sheds⟩ := sheds_of_swept swept
    refine ih fun key held => ?_
    rw [sheds.find?_eq] at held
    rw [sheds.expiredKeys_eq, Finset.mem_sdiff]
    split at held
    next => exact absurd rfl held
    next kept => exact ⟨expired key held, kept⟩

end Policy

/-! ## The cycle of a store -/

namespace Store

variable {policy : Policy} {sampler : Sampler} {stop : StopSignal} {now : Instant} {store after : Store}
  {passes : List Pass}

/-- A store allows a cycle as many passes as it needs. -/
theorem length_le_of_passes (run : policy.Passes sampler stop now 0 store passes after)
    (zero_le : .zero ≤ policy.threshold) : passes.length ≤ store.size + 1 := by
  obtain ⟨gone, expired, sheds, counted⟩ := run.sheds
  have needed := run.length_le zero_le
  have size := sheds.size_eq
  omega

/-- The last pass ends a cycle, and the report of the cycle tells how. -/
theorem expire_of_passes (run : policy.Passes sampler stop now 0 store passes after)
    (zero_le : .zero ≤ policy.threshold) :
    ∃ earlier last, passes = earlier ++ [last] ∧ last.IsLast policy (stop earlier.length) ∧
      store.expire policy sampler stop now =
        (⟨passes.length, (passes.map Pass.dropped).sum, last.ending policy⟩, after) := by
  obtain ⟨earlier, last, split, isLast, ran⟩ := run.run_cycleFrom
  simp only [Nat.zero_add] at isLast ran
  refine ⟨earlier, last, split, isLast, ?_⟩
  rw [← Nat.zero_add (passes.map Pass.dropped).sum]
  exact ran 0 _ (length_le_of_passes run zero_le)

/-- A cycle on demand, at one moment, takes out keys that have expired, and counts each of them;
everything else in the store stays as it is. It takes out all of them if it looks at every key, and likewise if every key has
expired and the share that must have expired is below one. It ends with a pass that had nothing to look
at, or dropped too small a share of what it looked at. -/
theorem expire_exact (store : Store) (policy : Policy) (sampler : Sampler) (now : Instant)
    (zero_le : .zero ≤ policy.threshold) (samples : sampler.Samples policy.sampleSize.toNat) :
    let report := (store.expire policy sampler .never now).1
    let after := (store.expire policy sampler .never now).2
    ∃ gone : Finset Bytes,
      (∀ key ∈ gone, ∃ value deadline,
        store.find? key = some ⟨value, some deadline⟩ ∧ deadline ≤ now) ∧
      (∀ key, after.find? key = if key ∈ gone then none else store.find? key) ∧
      report.dropped = gone.card ∧ after.size + gone.card = store.size ∧
      after.counters =
        { store.counters with expired := store.counters.expired + .ofNat gone.card } ∧
      (store.size ≤ policy.sampleSize.toNat → ∀ key value deadline,
        store.find? key = some ⟨value, some deadline⟩ → deadline ≤ now → key ∈ gone) ∧
      ((∀ key entry, store.find? key = some entry →
          ∃ deadline, entry.deadline? = some deadline ∧ deadline ≤ now) →
        policy.sampleSize ≠ 0 → ¬.one ≤ policy.threshold → after.isEmpty = true) ∧
      ∃ passes last, policy.Passes sampler .never now 0 store passes after ∧
        report.passes = passes.length ∧ passes.getLast? = some last ∧
        (last.sample = [] ∨
          .quotient last.dropped last.sample.length ≤ policy.threshold) := by
  obtain ⟨passes, after, run⟩ := policy.exists_passes zero_le sampler .never now 0 store
  obtain ⟨gone, expired, sheds, counted⟩ := run.sheds
  obtain ⟨earlier, last, split, isLast, ran⟩ := expire_of_passes run zero_le
  have isAtEnd : passes.getLast? = some last := by rw [split, List.getLast?_concat]
  rw [ran]
  refine ⟨gone, fun key member => mem_expiredKeys_iff.1 (expired member), sheds.find?_eq, counted,
    sheds.size_eq, ?_, fun all key value deadline held passed => ?_, fun allExpired sampling below => ?_,
    passes, last, run, rfl, isAtEnd, Pass.isLast_false_iff.1 isLast⟩
  · simp [sheds.counters_eq, Counters.add_eq]
  · have left := run.expiredKeys_eq_empty samples all
    rw [sheds.expiredKeys_eq, Finset.sdiff_eq_empty_iff_subset] at left
    exact left (mem_expiredKeys_iff.2 ⟨value, deadline, held, passed⟩)
  · have size : after.size = 0 := by
      refine run.size_eq_zero samples sampling below fun key held => ?_
      obtain ⟨⟨value, deadline?⟩, held⟩ := Option.ne_none_iff_exists'.1 held
      obtain ⟨deadline, rfl, passed⟩ := allExpired key _ held
      exact mem_expiredKeys_iff.2 ⟨value, deadline, held, passed⟩
    simp [isEmpty, size]

/-- Three keys that have expired by 100, and one that has not. -/
def mostlyStale : Store :=
  (Operation.run Operation.perform
    [.set (Utf8.encode "a") [], .setDeadline (Utf8.encode "a") 100, .set (Utf8.encode "b") [],
      .setDeadline (Utf8.encode "b") 7, .set (Utf8.encode "c") [], .setDeadline (Utf8.encode "c") 99,
      .set (Utf8.encode "d") [], .setDeadline (Utf8.encode "d") 101] .empty).2

/-- Two keys a pass, and another pass if more than a quarter of them had expired. -/
def pairwise : Policy :=
  ⟨1000, 2, .quotient 1 4⟩

theorem expire_exact_mostlyStale :
    let report := (mostlyStale.expire pairwise .inOrder .never 100).1
    .zero ≤ pairwise.threshold ∧ Sampler.inOrder.Samples pairwise.sampleSize.toNat ∧
      report = ⟨3, 3, .lowYield 0 1⟩ ∧
      (∃ gone : Finset Bytes, gone.card = 3 ∧
        ∀ key ∈ gone, ∃ value deadline,
          mostlyStale.find? key = some ⟨value, some deadline⟩ ∧ deadline ≤ 100) ∧
      -- By 101 the last key has expired too.
      (∀ key entry, mostlyStale.find? key = some entry →
        ∃ deadline, entry.deadline? = some deadline ∧ deadline ≤ 101) ∧
      pairwise.sampleSize ≠ 0 ∧ ¬.one ≤ pairwise.threshold ∧
      (mostlyStale.expire pairwise .inOrder .never 101).2.isEmpty = true := by
  intro report
  have zero_le : .zero ≤ pairwise.threshold := by decide
  have samples := Sampler.samples_inOrder pairwise.sampleSize.toNat
  have reported : report = ⟨3, 3, .lowYield 0 1⟩ := rfl
  have below_one : ¬.one ≤ pairwise.threshold := by decide
  have listed : ∀ key ∈ mostlyStale.keys, (mostlyStale.find? key).any (·.isExpired 101) = true := by
    decide
  have allExpired : ∀ key entry, mostlyStale.find? key = some entry →
      ∃ deadline, entry.deadline? = some deadline ∧ deadline ≤ 101 := by
    intro key entry held
    have expired := listed key ((mostlyStale.mem_keys_iff key).2 (by simp [held]))
    rw [held] at expired
    exact (entry.isExpired_eq_true_iff 101).1 expired
  obtain ⟨gone, expired, -, dropped, -⟩ :=
    expire_exact mostlyStale pairwise .inOrder 100 zero_le samples
  obtain ⟨-, -, -, -, -, -, -, emptied, -⟩ :=
    expire_exact mostlyStale pairwise .inOrder 101 zero_le samples
  have dropped : report.dropped = gone.card := dropped
  rw [reported] at dropped
  exact ⟨zero_le, samples, reported, ⟨gone, dropped.symm, expired⟩, allExpired, by decide, below_one,
    emptied allExpired (by decide) below_one⟩

end Store

end KvServer
