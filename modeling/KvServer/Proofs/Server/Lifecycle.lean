import KvServer.Proofs.Expiry.Schedule
import KvServer.Server
import Mathlib.Data.List.Induction

/-!
# The life of a server

Active expiry is started and stopped while time passes, the clock is set and clients are served. From a
start that succeeds to the next stop it cycles once per interval of the timer, whatever else happens and in
however many pieces the time passes.

* `Server.Step`, what can happen to a server, and `Server.live`, a whole life of it
* `Server.cycles` and `Server.trace`, the cycles that run while time passes and in a whole life, and
  `Server.after`, the server behind it
* `Server.RunsSince`, the start that the running cycles go back to
* `Server.keeps_schedule`: which cycles run, and when
-/

namespace KvServer

attribute [ext] Server

namespace Server

/-- What can happen to a server. -/
inductive Step where
  | start
  | stop
  | advance (ms : Nat)
  | setClock (seconds : Int)
  /-- The store is used, by a script, by a request or otherwise. -/
  | change (operation : Store → Store)
  | serve (source : Source)

/-- The cycles that run while time passes. -/
def cycles (samplers : Nat → Sampler) (server : Server) (ms : Nat) : List Cycle :=
  (server.elapse samplers ms).1

namespace Step

/-- The cycles that run in one step, and the server behind it. A start that fails leaves everything as it
is. -/
def take (samplers : Nat → Sampler) (server : Server) : Step → List Cycle × Server
  | .start => ([], server.start.toOption.getD server)
  | .stop => ([], server.stop)
  | .advance ms => server.elapse samplers ms
  | .setClock seconds => ([], { server with clock := server.clock.set seconds })
  | .change operation => ([], { server with store := operation server.store })
  | .serve source => ([], (server.serve source).2)

def perform (samplers : Nat → Sampler) (server : Server) (step : Step) : Server :=
  (step.take samplers server).2

def cycles (samplers : Nat → Sampler) (server : Server) (step : Step) : List Cycle :=
  (step.take samplers server).1

end Step

/-- A whole life: the cycles that run in it, in their order, and the server behind it. -/
def live (samplers : Nat → Sampler) (server : Server) : List Step → List Cycle × Server
  | [] => ([], server)
  | step :: steps =>
    let (cycles, next) := step.take samplers server
    let (later, last) := next.live samplers steps
    (cycles ++ later, last)

def after (samplers : Nat → Sampler) (server : Server) (steps : List Step) : Server :=
  (server.live samplers steps).2

def trace (samplers : Nat → Sampler) (server : Server) (steps : List Step) : List Cycle :=
  (server.live samplers steps).1

/-- Says that the last steps began with a start that succeeded at a moment of the timer, and that nothing
was stopped since. -/
def RunsSince (samplers : Nat → Sampler) (server : Server) (steps : List Step) (began : Nat) : Prop :=
  ∃ earlier later started, steps = earlier ++ .start :: later ∧
    (server.after samplers earlier).start = .ok started ∧ .stop ∉ later ∧
    (server.after samplers earlier).clock.timer = began

variable {samplers : Nat → Sampler} {server : Server} {steps : List Step} {began ms : Nat} {cycle : Cycle}

/-! ## Starting and stopping -/

theorem start_of_running (running : server.isRunning = true) :
    server.start = .error .alreadyRunning :=
  if_pos running

theorem start_of_stopped (stopped : server.isRunning = false) : server.start = .ok server.launched := by
  rw [start, if_neg (by simp [stopped])]

theorem start_eq_error_iff : server.start = .error .alreadyRunning ↔ server.isRunning = true := by
  refine ⟨fun refused => ?_, start_of_running⟩
  by_contra stopped
  rw [start_of_stopped (Bool.eq_false_iff.2 stopped)] at refused
  cases refused

theorem perform_start : Step.start.perform samplers server =
    if server.isRunning then server else server.launched := by
  change server.start.toOption.getD server = _
  unfold start
  split <;> rfl

theorem perform_start_of_running (running : server.isRunning = true) :
    Step.start.perform samplers server = server := by
  rw [perform_start, if_pos running]

theorem stop_of_stopped (stopped : server.isRunning = false) : server.stop = server := by
  rw [isRunning, Option.isSome_eq_false_iff, Option.isNone_iff_eq_none] at stopped
  rw [stop, ← stopped]

theorem perform_advance (ms : Nat) :
    (Step.advance ms).perform samplers server = server.advance samplers ms :=
  rfl

/-! ## Many steps -/

theorem after_cons (step : Step) (steps : List Step) : server.after samplers (step :: steps) =
    (step.perform samplers server).after samplers steps :=
  rfl

theorem trace_cons (step : Step) (steps : List Step) : server.trace samplers (step :: steps) =
    step.cycles samplers server ++ (step.perform samplers server).trace samplers steps :=
  rfl

theorem after_append (steps later : List Step) :
    server.after samplers (steps ++ later) = (server.after samplers steps).after samplers later := by
  induction steps generalizing server with
  | nil => rfl
  | cons step steps ih => rw [List.cons_append, after_cons, after_cons, ih]

theorem after_concat (steps : List Step) (step : Step) :
    server.after samplers (steps ++ [step]) = step.perform samplers (server.after samplers steps) :=
  after_append steps [step]

theorem trace_concat (steps : List Step) (step : Step) :
    server.trace samplers (steps ++ [step]) =
      server.trace samplers steps ++ step.cycles samplers (server.after samplers steps) := by
  induction steps generalizing server with
  | nil => exact List.append_nil _
  | cons first steps ih => rw [List.cons_append, trace_cons, trace_cons, ih, List.append_assoc, after_cons]

@[simp]
theorem policy_advance : (server.advance samplers ms).policy = server.policy := by
  unfold advance elapse
  split <;> rfl

@[simp]
theorem clock_advance : (server.advance samplers ms).clock = server.clock.advance ms := by
  unfold advance elapse
  split <;> rfl

@[simp]
theorem stats_advance : (server.advance samplers ms).stats = server.stats := by
  unfold advance elapse
  split <;> rfl

theorem wake?_advance (ms : Nat) :
    (server.advance samplers ms).wake? = server.wake?.map fun wake =>
      wake + (Schedule.wakeUps server.policy.interval.toNat (server.clock.timer + ms) wake).length *
        server.policy.interval.toNat := by
  cases wakes : server.wake? with
  | none => simp only [advance, elapse, wakes, Option.map_none]
  | some wake =>
    simp only [advance, elapse, wakes, Schedule.runUntil_eq, Option.map_some]
    rfl

@[simp]
theorem isRunning_advance : (server.advance samplers ms).isRunning = server.isRunning := by
  rw [isRunning, wake?_advance, Option.isSome_map, isRunning]

@[simp]
theorem policy_perform (step : Step) : (step.perform samplers server).policy = server.policy := by
  cases step with
  | start =>
    rw [perform_start]
    split <;> rfl
  | advance => exact policy_advance
  | stop | setClock | change | serve => rfl

@[simp]
theorem policy_after (steps : List Step) : (server.after samplers steps).policy = server.policy := by
  induction steps using List.reverseRecOn with
  | nil => rfl
  | append_singleton steps step ih => rw [after_concat, policy_perform, ih]

/-! ## Sleeping at intervals -/

/-- Says that the present sleep is one of those that follow each other from a moment on. -/
def SleepsSince (server : Server) (began : Nat) : Prop :=
  ∃ k, server.wake? = some (began + (k + 1) * server.policy.interval.toNat) ∧
    began + k * server.policy.interval.toNat ≤ server.clock.timer ∧
    server.clock.timer < began + (k + 1) * server.policy.interval.toNat

theorem SleepsSince.isRunning (sleeps : server.SleepsSince began) : server.isRunning = true := by
  obtain ⟨k, wakes, -⟩ := sleeps
  rw [Server.isRunning, wakes, Option.isSome_some]

theorem sleepsSince_launched (positive : 0 < server.policy.interval.toNat) :
    server.launched.SleepsSince server.clock.timer := by
  refine ⟨0, ?_, ?_, ?_⟩ <;> simp [launched, positive]

theorem SleepsSince.advance (sleeps : server.SleepsSince began)
    (positive : 0 < server.policy.interval.toNat) (ms : Nat) :
    (server.advance samplers ms).SleepsSince began := by
  obtain ⟨k, wakes, slept, -⟩ := sleeps
  obtain ⟨j, next, slept', asleep'⟩ :=
    Schedule.exists_next_wake positive (slept.trans (Nat.le_add_right _ ms))
  unfold SleepsSince
  rw [policy_advance, clock_advance, wake?_advance, wakes, Option.map_some]
  exact ⟨j, congrArg some next, slept', asleep'⟩

/-- Nothing but a stop interrupts the sleeps. -/
theorem SleepsSince.perform (sleeps : server.SleepsSince began)
    (positive : 0 < server.policy.interval.toNat) {step : Step} (goesOn : step ≠ .stop) :
    (step.perform samplers server).SleepsSince began := by
  cases step with
  | start => rwa [perform_start_of_running sleeps.isRunning]
  | stop => exact absurd rfl goesOn
  | advance ms => exact sleeps.advance positive ms
  | setClock | change | serve => exact sleeps

theorem SleepsSince.after (sleeps : server.SleepsSince began)
    (positive : 0 < server.policy.interval.toNat) (goesOn : .stop ∉ steps) :
    (server.after samplers steps).SleepsSince began := by
  induction steps generalizing server with
  | nil => exact sleeps
  | cons step steps ih =>
    obtain ⟨first, others⟩ := not_or.1 (mt List.mem_cons.2 goesOn)
    rw [after_cons]
    exact ih (sleeps.perform positive (Ne.symm first)) (by rwa [policy_perform]) others

theorem RunsSince.sleepsSince (runs : server.RunsSince samplers steps began)
    (positive : 0 < server.policy.interval.toNat) :
    (server.after samplers steps).SleepsSince began := by
  obtain ⟨earlier, later, started, rfl, succeeds, goesOn, rfl⟩ := runs
  rw [after_append]
  -- The sleeps begin with the start, and the steps behind it keep them up.
  have stopped : (server.after samplers earlier).isRunning = false := by
    by_contra running
    rw [start_of_running (Bool.eq_true_of_not_eq_false running)] at succeeds
    cases succeeds
  have launched : (Step.start.perform samplers (server.after samplers earlier)).SleepsSince
      (server.after samplers earlier).clock.timer := by
    rw [perform_start, if_neg (by simp [stopped])]
    exact sleepsSince_launched (by simpa)
  exact launched.after (by simpa) goesOn

theorem RunsSince.concat {step : Step} (runs : server.RunsSince samplers steps began)
    (goesOn : step ≠ .stop) : server.RunsSince samplers (steps ++ [step]) began := by
  obtain ⟨earlier, later, started, rfl, succeeds, unstopped, timer⟩ := runs
  refine ⟨earlier, later ++ [step], started, by simp, succeeds, ?_, timer⟩
  simp [unstopped, goesOn.symm]

/-- Whatever runs goes back to a start. -/
theorem exists_runsSince (stopped : server.isRunning = false)
    (running : (server.after samplers steps).isRunning = true) :
    ∃ began, server.RunsSince samplers steps began := by
  induction steps using List.reverseRecOn with
  | nil => exact absurd running (by simp [after, live, stopped])
  | append_singleton steps step ih =>
    by_cases before : (server.after samplers steps).isRunning = true
    · obtain ⟨began, runs⟩ := ih before
      refine ⟨began, runs.concat ?_⟩
      rintro rfl
      rw [after_concat] at running
      cases running
    · -- Of all steps only a start makes a server run that did not.
      have before := Bool.eq_false_iff.2 before
      rw [after_concat] at running
      cases step with
      | start => exact ⟨_, steps, [], _, rfl, start_of_stopped before, by simp, rfl⟩
      | stop => cases running
      | advance ms => exact absurd (isRunning_advance.symm.trans running) (by simp [before])
      | setClock | change | serve => exact absurd (before.symm.trans running) nofun

/-! ## Cycles -/

theorem cycles_of_running {wake : Nat} (wakes : server.wake? = some wake) (ms : Nat) :
    server.cycles samplers ms =
      (Schedule.wakeUps server.policy.interval.toNat (server.clock.timer + ms) wake).map
        fun moment => ⟨moment, server.nowAt moment⟩ := by
  simp only [cycles, elapse, wakes]
  have noted (moment : Nat) (store : Store) : (server.cycleAt samplers moment store).1 =
      ⟨moment, server.nowAt moment⟩ := rfl
  exact Schedule.notes_runUntil noted server.store

theorem cycles_of_stopped (stopped : server.isRunning = false) (ms : Nat) :
    server.cycles samplers ms = [] := by
  rw [isRunning, Option.isSome_eq_false_iff, Option.isNone_iff_eq_none] at stopped
  simp only [cycles, elapse, stopped]

/-- Time that passes does to the store what the cycles do, each at its own reading of the wall clock. -/
theorem store_advance (ms : Nat) :
    (server.advance samplers ms).store =
      (server.cycles samplers ms).foldl
        (fun store cycle => (store.expire server.policy (samplers cycle.moment) .never cycle.now).2)
        server.store := by
  cases wakes : server.wake? with
  | none => simp only [advance, cycles, elapse, wakes, List.foldl_nil]
  | some wake =>
    rw [cycles_of_running wakes, List.foldl_map]
    simp only [advance, elapse, wakes, Schedule.runUntil_eq]
    rfl

theorem SleepsSince.mem_cycles_iff (sleeps : server.SleepsSince began)
    (positive : 0 < server.policy.interval.toNat) :
    cycle ∈ server.cycles samplers ms ↔ ∃ k, 1 ≤ k ∧
      cycle.moment = began + k * server.policy.interval.toNat ∧
      server.clock.timer < cycle.moment ∧ cycle.moment ≤ server.clock.timer + ms ∧
      cycle.now = server.nowAt cycle.moment := by
  obtain ⟨k, wakes, slept, asleep⟩ := sleeps
  have shift (j : Nat) : began + (k + 1) * server.policy.interval.toNat +
      j * server.policy.interval.toNat = began + (k + 1 + j) * server.policy.interval.toNat := by ring
  rw [cycles_of_running wakes, List.mem_map]
  simp only [Schedule.mem_wakeUps_iff positive, shift]
  constructor
  · rintro ⟨moment, ⟨j, rfl, reached⟩, rfl⟩
    refine ⟨k + 1 + j, by omega, rfl, asleep.trans_le ?_, reached, rfl⟩
    exact Nat.add_le_add_left (Nat.mul_le_mul_right _ (Nat.le_add_right ..)) _
  · rintro ⟨n, -, place, due, reached, now⟩
    -- Whatever lies behind the timer lies behind the last sleep that is over.
    have later : k < n := by
      by_contra earlier
      have before : n * server.policy.interval.toNat ≤ k * server.policy.interval.toNat :=
        Nat.mul_le_mul_right _ (Nat.le_of_not_lt earlier)
      omega
    obtain ⟨j, rfl⟩ := Nat.exists_eq_add_of_le later
    exact ⟨cycle.moment, ⟨j, place, reached⟩, by rw [← now]⟩

theorem mem_cycles_iff (stopped : server.isRunning = false)
    (positive : 0 < server.policy.interval.toNat) :
    cycle ∈ (server.after samplers steps).cycles samplers ms ↔ ∃ began k,
      server.RunsSince samplers steps began ∧ 1 ≤ k ∧
      cycle.moment = began + k * server.policy.interval.toNat ∧
      (server.after samplers steps).clock.timer < cycle.moment ∧
      cycle.moment ≤ (server.after samplers steps).clock.timer + ms ∧
      cycle.now = (server.after samplers steps).nowAt cycle.moment := by
  have same : (server.after samplers steps).policy = server.policy := policy_after steps
  constructor
  · intro member
    have running : (server.after samplers steps).isRunning = true := by
      by_contra stopped
      simp [cycles_of_stopped (Bool.eq_false_iff.2 stopped)] at member
    obtain ⟨began, runs⟩ := exists_runsSince stopped running
    obtain ⟨k, facts⟩ := ((runs.sleepsSince positive).mem_cycles_iff (by rwa [same])).1 member
    rw [same] at facts
    exact ⟨began, k, runs, facts⟩
  · rintro ⟨began, k, runs, facts⟩
    refine ((runs.sleepsSince positive).mem_cycles_iff (by rwa [same])).2 ⟨k, ?_⟩
    rwa [same]

/-! ## Time in pieces -/

theorem nowAt_advance {ms moment : Nat} (later : server.clock.timer + ms ≤ moment) :
    (server.advance samplers ms).nowAt moment = server.nowAt moment := by
  rw [nowAt, clock_advance, Clock.advance_advance, nowAt]
  congr 2
  simp only [Clock.advance]
  omega

theorem cycles_add (positive : 0 < server.policy.interval.toNat) (a b : Nat) :
    server.cycles samplers (a + b) =
      server.cycles samplers a ++ (server.advance samplers a).cycles samplers b := by
  cases wakes : server.wake? with
  | none => simp only [cycles, advance, elapse, wakes, List.nil_append]
  | some wake =>
    have wakes' : (server.advance samplers a).wake? = _ := wake?_advance a
    rw [wakes, Option.map_some] at wakes'
    rw [cycles_of_running wakes, cycles_of_running wakes, cycles_of_running wakes', policy_advance,
      clock_advance, ← Nat.add_assoc, Schedule.wakeUps_append (Nat.le_add_right _ b) wake, List.map_append]
    -- The later cycles lie behind the first part, where both servers tell the same time.
    refine congrArg (List.append _) (List.map_congr_left fun moment member => ?_)
    rw [nowAt_advance ((Schedule.lt_next_wake positive ..).le.trans (Schedule.le_of_mem_wakeUps member))]

theorem advance_advance (positive : 0 < server.policy.interval.toNat) (a b : Nat) :
    (server.advance samplers a).advance samplers b = server.advance samplers (a + b) := by
  ext1
  case store =>
    -- The store is told by the cycles, and those of the two parts are those of the whole.
    rw [store_advance, store_advance, store_advance, cycles_add positive, List.foldl_append,
      policy_advance]
  case policy | stats => simp
  case clock => simp [Clock.advance_advance]
  case wake? =>
    simp only [wake?_advance, Option.map_map, policy_advance, clock_advance]
    refine congrArg (Option.map · _) (funext fun wake => ?_)
    change _ + _ = _
    rw [← Nat.add_assoc, Schedule.wakeUps_append (Nat.le_add_right _ b) wake,
      List.length_append, Nat.add_mul, ← Nat.add_assoc]
    rfl

/-! ## Whole lives -/

theorem mem_trace_iff : cycle ∈ server.trace samplers steps ↔ ∃ earlier ms later,
    steps = earlier ++ .advance ms :: later ∧
      cycle ∈ (server.after samplers earlier).cycles samplers ms := by
  induction steps generalizing server with
  | nil => simp [trace, live]
  | cons step steps ih =>
    rw [trace_cons, List.mem_append, ih]
    constructor
    · rintro (here | ⟨earlier, ms, later, rfl, there⟩)
      · cases step with
        | advance ms => exact ⟨[], ms, steps, rfl, here⟩
        | start | stop | setClock | change | serve => cases here
      · exact ⟨step :: earlier, ms, later, rfl, there⟩
    · rintro ⟨earlier, ms, later, split, member⟩
      cases earlier with
      | nil =>
        obtain ⟨rfl, rfl⟩ := List.cons.inj split
        exact .inl member
      | cons first earlier =>
        obtain ⟨rfl, rfl⟩ := List.cons.inj split
        exact .inr ⟨earlier, ms, later, rfl, member⟩

theorem timer_le_perform (step : Step) :
    server.clock.timer ≤ (step.perform samplers server).clock.timer := by
  cases step with
  | start =>
    rw [perform_start]
    split <;> exact le_rfl
  | advance ms =>
    rw [perform_advance, clock_advance]
    exact Nat.le_add_right ..
  | stop | setClock | change | serve => exact le_rfl

theorem moment_le_timer (stopped : server.isRunning = false)
    (positive : 0 < server.policy.interval.toNat) (member : cycle ∈ server.trace samplers steps) :
    cycle.moment ≤ (server.after samplers steps).clock.timer := by
  induction steps using List.reverseRecOn with
  | nil => cases member
  | append_singleton steps step ih =>
    rw [trace_concat, List.mem_append] at member
    rw [after_concat]
    rcases member with earlier | last
    · exact (ih earlier).trans (timer_le_perform step)
    · cases step with
      | advance ms =>
        obtain ⟨began, k, -, -, -, -, reached, -⟩ := (mem_cycles_iff stopped positive).1 last
        rwa [perform_advance, clock_advance]
      | start | stop | setClock | change | serve => cases last

theorem pairwise_cycles : (server.cycles samplers ms).Pairwise (·.moment < ·.moment) := by
  cases wakes : server.wake? with
  | none => simp only [cycles, elapse, wakes, List.Pairwise.nil]
  | some wake =>
    rw [cycles_of_running wakes, List.pairwise_map]
    exact Schedule.pairwise_wakeUps

theorem pairwise_trace (stopped : server.isRunning = false)
    (positive : 0 < server.policy.interval.toNat) :
    (server.trace samplers steps).Pairwise (·.moment < ·.moment) := by
  induction steps using List.reverseRecOn with
  | nil => exact .nil
  | append_singleton steps step ih =>
    rw [trace_concat, List.pairwise_append]
    cases step with
    | advance ms =>
      -- What ran before is not behind the timer, and what runs now is.
      refine ⟨ih, pairwise_cycles, fun past member next later => ?_⟩
      obtain ⟨began, k, -, -, -, due, -⟩ := (mem_cycles_iff stopped positive).1 later
      exact (moment_le_timer stopped positive member).trans_lt due
    | start | stop | setClock | change | serve => exact ⟨ih, .nil, nofun⟩

/-- Active expiry runs exactly if a start has succeeded since the last stop. A start that fails changes
nothing, and neither does a second stop. A cycle runs whenever a whole number of intervals has passed since
the start that succeeded, once, at the wall clock of that moment, and no others run. To let time pass twice
is to let it pass once. -/
theorem keeps_schedule (server : Server) (samplers : Nat → Sampler) (steps : List Step)
    (stopped : server.isRunning = false) (positive : 1 ≤ server.policy.interval.toNat) :
    let current := server.after samplers steps
    (current.isRunning = true ↔ ∃ began, server.RunsSince samplers steps began) ∧
      (current.start = .error .alreadyRunning ↔ current.isRunning = true) ∧
      (current.isRunning = true → Step.start.perform samplers current = current) ∧
      current.stop.isRunning = false ∧ (current.isRunning = false → current.stop = current) ∧
      (server.trace samplers steps).Pairwise (·.moment < ·.moment) ∧
      (∀ cycle, cycle ∈ server.trace samplers steps ↔ ∃ earlier ms later began k,
        let before := server.after samplers earlier
        steps = earlier ++ .advance ms :: later ∧ server.RunsSince samplers earlier began ∧ 1 ≤ k ∧
          cycle.moment = began + k * server.policy.interval.toNat ∧
          before.clock.timer < cycle.moment ∧ cycle.moment ≤ before.clock.timer + ms ∧
          cycle.now = (before.clock.advance (cycle.moment - before.clock.timer)).now) ∧
      (∀ ms, (current.advance samplers ms).store =
        (current.cycles samplers ms).foldl
          (fun store cycle =>
            (store.expire server.policy (samplers cycle.moment) .never cycle.now).2)
          current.store) ∧
      ∀ a b, (current.advance samplers a).advance samplers b = current.advance samplers (a + b) ∧
        current.cycles samplers (a + b) =
          current.cycles samplers a ++ (current.advance samplers a).cycles samplers b := by
  intro current
  have same : current.policy = server.policy := policy_after steps
  refine ⟨⟨exists_runsSince stopped, ?_⟩, start_eq_error_iff, perform_start_of_running, rfl,
    stop_of_stopped, pairwise_trace stopped positive, fun cycle => ?_, fun ms => ?_, fun a b => ?_⟩
  · rintro ⟨began, runs⟩
    exact (runs.sleepsSince positive).isRunning
  · simp only [mem_trace_iff, mem_cycles_iff stopped positive, nowAt, ← exists_and_left]
  · rw [← same]
    exact store_advance ms
  · have positive' : 0 < current.policy.interval.toNat := by rwa [same]
    exact ⟨advance_advance positive' a b, cycles_add positive' a b⟩

/-- Active expiry is started twice, stopped after its first cycle, and started again; the clock is set back
in between. -/
def restarted : List Step :=
  [.start, .advance 999, .start, .setClock 7, .advance 1, .advance 500, .stop, .advance 5000, .start,
    .advance 1500, .advance 500]

theorem keeps_schedule_restarted :
    let server := Server.new .standard (.ofSeconds 50)
    let samplers := fun _ => Sampler.inOrder
    let current := server.after samplers restarted
    server.isRunning = false ∧ 1 ≤ server.policy.interval.toNat ∧
      server.trace samplers restarted = [⟨1000, 7⟩, ⟨7500, 13⟩, ⟨8500, 14⟩] ∧
      (∃ began, server.RunsSince samplers restarted began) ∧
      current.start = .error .alreadyRunning ∧ Step.start.perform samplers current = current ∧
      (∃ earlier ms later began k,
        let before := server.after samplers earlier
        restarted = earlier ++ .advance ms :: later ∧ server.RunsSince samplers earlier began ∧
          8500 = began + k * 1000 ∧ 8500 ≤ before.clock.timer + ms) ∧
      (current.advance samplers 400).advance samplers 600 = current.advance samplers 1000 := by
  intro server samplers current
  have stopped : server.isRunning = false := rfl
  have positive : 1 ≤ server.policy.interval.toNat := by decide
  have traced : server.trace samplers restarted = [⟨1000, 7⟩, ⟨7500, 13⟩, ⟨8500, 14⟩] := by
    decide +kernel
  have running : current.isRunning = true := by decide +kernel
  obtain ⟨runs, refuses, unchanged, -, -, -, due, -, pieces⟩ :=
    keeps_schedule server samplers restarted stopped positive
  obtain ⟨earlier, ms, later, began, k, split, since, -, place, -, reached, -⟩ :=
    (due ⟨8500, 14⟩).1 (by simp [traced])
  exact ⟨stopped, positive, traced, runs.1 running, refuses.2 running, unchanged running,
    ⟨earlier, ms, later, began, k, split, since, place, reached⟩, (pieces 400 600).1⟩

end Server

end KvServer
