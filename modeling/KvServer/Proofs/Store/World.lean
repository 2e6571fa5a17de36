import KvServer.Proofs.Store.Script
import Mathlib.Logic.Function.Basic

/-!
# Parties that take turns

A store with several parties on it, each of which follows a script. At every move one party makes its next
access, and any party may make the next move, with the clock at any reading.

* `Act`, an access that was made, and `Contract`, what a script promises about its own acts
* `Script.Meets`: a script keeps its promises, whatever happens to the store between its accesses
* `World`, and `World.run` and `World.steps`, where some moves lead and the accesses they make
* `World.run_induction`: from one access to a run
* `World.meets_advance`: an access of one party keeps the promises of each of them
-/

namespace KvServer

/-! ## Contracts -/

/-- An access that was made: the reading of the clock, and the store that it found. -/
structure Act where
  now : Instant
  access : Access
  before : Store

namespace Act

def answer (act : Act) : act.access.Answer :=
  (act.access.perform act.now act.before).1

def after (act : Act) : Store :=
  (act.access.perform act.now act.before).2

end Act

/-- What a party promises: which access it makes when it has acted in some way, and which result it has in
the end. -/
structure Contract (α : Type) where
  allows : List Act → Access → Prop
  fits : List Act → α → Prop

namespace Script

variable {α β : Type} {contract : Contract α} {made : List Act}

/-- A script that has acted in some way keeps a contract from there on, whatever store each of its accesses
finds. -/
inductive Meets (contract : Contract α) : List Act → Script α → Prop where
  | done {made : List Act} {result : α} (fits : contract.fits made result) :
      Meets contract made (.done result)
  | ask {made : List Act} {access : Access} {next : access.Answer → Script α}
      (allowed : contract.allows made access)
      (rest : ∀ now before, Meets contract (made ++ [⟨now, access, before⟩])
        (next (access.perform now before).1)) :
      Meets contract made (.ask access next)

namespace Meets

theorem pure {result : α} (fits : contract.fits made result) :
    Meets contract made (pure result : Script α) :=
  .done fits

theorem perform_bind {access : Access} {follow : access.Answer → Script α}
    (allowed : contract.allows made access)
    (rest : ∀ now before, Meets contract (made ++ [⟨now, access, before⟩])
      (follow (access.perform now before).1)) :
    Meets contract made (perform access >>= follow) :=
  .ask allowed rest

theorem perform {access : Access} {fits : List Act → access.Answer → Prop}
    {allows : List Act → Access → Prop} (allowed : allows made access)
    (ends : ∀ now before, fits (made ++ [⟨now, access, before⟩]) (access.perform now before).1) :
    Meets ⟨allows, fits⟩ made (perform access) :=
  .ask allowed fun now before => .done (ends now before)

/-- One script behind another takes over what the other has promised. -/
theorem bind {allows : List Act → Access → Prop} {between : List Act → α → Prop}
    {fits : List Act → β → Prop} {script : Script α} {follow : α → Script β}
    (first : Meets ⟨allows, between⟩ made script)
    (rest : ∀ made result, between made result → Meets ⟨allows, fits⟩ made (follow result)) :
    Meets ⟨allows, fits⟩ made (script >>= follow) := by
  induction first with
  | done ends => exact rest _ _ ends
  | ask allowed _ ih => exact .ask allowed ih

theorem imp {script : Script α} {other : Contract α}
    (allows : ∀ made access, contract.allows made access → other.allows made access)
    (fits : ∀ made result, contract.fits made result → other.fits made result)
    (meets : Meets contract made script) : Meets other made script := by
  induction meets with
  | done ends => exact .done (fits _ _ ends)
  | ask allowed _ ih => exact .ask (allows _ _ allowed) ih

theorem allowed {access : Access} {next : access.Answer → Script α}
    (meets : Meets contract made (.ask access next)) : contract.allows made access := by
  cases meets with
  | ask allowed _ => exact allowed

theorem fits {result : α} (meets : Meets contract made (.done result)) : contract.fits made result := by
  cases meets with
  | done fits => exact fits

end Meets

/-- A script whose accesses are all of some kind promises that, and nothing about its result. -/
theorem Only.meets {allowed : Access → Prop} {script : Script α} (only : Only allowed script)
    (made : List Act) : Meets ⟨fun _ access => allowed access, fun _ _ => True⟩ made script := by
  induction only generalizing made with
  | done result => exact .done trivial
  | ask first _ ih => exact .ask first fun now before => ih _ _

end Script

/-! ## Moves -/

/-- An access with the party that made it. -/
structure Step (ι : Type) extends Act where
  party : ι

/-- A store that several parties use, and what each of them has still to do. -/
structure World (ι ρ : Type) where
  store : Store
  scripts : ι → Script ρ

/-- The party whose turn it is, and what it reads on the clock. -/
structure Move (ι : Type) where
  party : ι
  now : Instant

namespace World

variable {ι ρ : Type}

/-- The access that a move makes. -/
def step? (world : World ι ρ) (move : Move ι) : Option (Step ι) :=
  match world.scripts move.party with
  | .done _ => none
  | .ask access _ => some ⟨⟨move.now, access, world.store⟩, move.party⟩

theorem step?_eq_some_iff {world : World ι ρ} {move : Move ι} {step : Step ι} :
    world.step? move = some step ↔
      (∃ next, world.scripts move.party = .ask step.access next) ∧ step.party = move.party ∧
        step.now = move.now ∧ step.before = world.store := by
  obtain ⟨⟨now, access, before⟩, party⟩ := step
  unfold step?
  cases asks : world.scripts move.party with
  | done result => simp
  | ask access' next =>
    constructor
    · intro same
      cases same
      exact ⟨⟨next, rfl⟩, rfl, rfl, rfl⟩
    · rintro ⟨⟨next', same⟩, rfl, rfl, rfl⟩
      cases same
      rfl

variable [DecidableEq ι]

/-- Lets a party make its next access, if it has one left. -/
def move (world : World ι ρ) (move : Move ι) : World ι ρ :=
  let (rest, store) := (world.scripts move.party).step move.now world.store
  ⟨store, Function.update world.scripts move.party rest⟩

def run (world : World ι ρ) (moves : List (Move ι)) : World ι ρ :=
  moves.foldl World.move world

/-- The accesses that some moves make, in their order. -/
def steps (world : World ι ρ) : List (Move ι) → List (Step ι)
  | [] => []
  | move :: moves => (world.step? move).toList ++ (world.move move).steps moves

/-- The world when a party has made its next access. -/
def advance (world : World ι ρ) (step : Step ι) (next : step.access.Answer → Script ρ) : World ι ρ :=
  ⟨step.after, Function.update world.scripts step.party (next step.answer)⟩

end World

/-- What one party did. -/
def actsOf {ι : Type} [DecidableEq ι] (party : ι) (steps : List (Step ι)) : List Act :=
  (steps.filter (·.party = party)).map Step.toAct

theorem mem_actsOf_iff {ι : Type} [DecidableEq ι] {party : ι} {steps : List (Step ι)} {act : Act} :
    act ∈ actsOf party steps ↔ ∃ step ∈ steps, step.party = party ∧ step.toAct = act := by
  simp [actsOf, and_assoc]

theorem actsOf_append_singleton {ι : Type} [DecidableEq ι] (steps : List (Step ι)) (step : Step ι) :
    (actsOf · (steps ++ [step])) =
      Function.update (actsOf · steps) step.party (actsOf step.party steps ++ [step.toAct]) := by
  funext party
  by_cases own : step.party = party
  · subst own
    simp [actsOf, List.filter_append]
  · simp [actsOf, List.filter_append, own, Function.update_of_ne (Ne.symm own)]

namespace World

variable {ι ρ : Type} [DecidableEq ι] {world : World ι ρ} {move : Move ι}

@[simp] theorem store_advance (step : Step ι) (next : step.access.Answer → Script ρ) :
    (world.advance step next).store = step.after :=
  rfl

@[simp] theorem scripts_advance_self (step : Step ι) (next : step.access.Answer → Script ρ) :
    (world.advance step next).scripts step.party = next step.answer :=
  Function.update_self ..

theorem scripts_advance_of_ne {step : Step ι} {party : ι} (other : step.party ≠ party)
    (next : step.access.Answer → Script ρ) :
    (world.advance step next).scripts party = world.scripts party :=
  Function.update_of_ne (Ne.symm other) ..

/-- All that a move can do: nothing, if its party is done, and otherwise the next access of the party. -/
theorem move_cases (world : World ι ρ) (move : Move ι) :
    world.step? move = none ∧ world.move move = world ∨
      ∃ step next, world.step? move = some step ∧ step.before = world.store ∧ step.now = move.now ∧
        world.scripts step.party = .ask step.access next ∧ world.move move = world.advance step next := by
  cases asks : world.scripts move.party with
  | done result =>
    refine .inl ⟨by simp only [step?, asks], ?_⟩
    simp only [World.move, asks, Script.step]
    rw [← asks, Function.update_eq_self]
  | ask access next =>
    refine .inr ⟨⟨⟨move.now, access, world.store⟩, move.party⟩, next, ?_, rfl, rfl, asks, ?_⟩
    · simp only [step?, asks]
    · simp only [World.move, asks, Script.step, advance, Act.after, Act.answer]

theorem store_move {step : Step ι} (made : world.step? move = some step) :
    (world.move move).store = step.after := by
  rcases world.move_cases move with ⟨idle, -⟩ | ⟨step', next, made', -, -, -, moved⟩
  · rw [made] at idle
    cases idle
  · rw [made] at made'
    cases made'
    rw [moved, store_advance]

/-- What holds at the start and is kept by every access holds behind every run. -/
@[elab_as_elim]
theorem run_induction {motive : List (Step ι) → World ι ρ → Prop} (start : motive [] world)
    (access : ∀ (steps : List (Step ι)) (world : World ι ρ) (step : Step ι)
      (next : step.access.Answer → Script ρ), motive steps world → step.before = world.store →
      world.scripts step.party = .ask step.access next →
      motive (steps ++ [step]) (world.advance step next))
    (moves : List (Move ι)) : motive (world.steps moves) (world.run moves) := by
  -- The run may begin behind accesses made earlier: a move adds its access at their end, not in front.
  suffices behind : ∀ earlier world, motive earlier world →
      motive (earlier ++ world.steps moves) (world.run moves) from behind [] world start
  induction moves with
  | nil => simp [steps, run]
  | cons move moves ih =>
    intro earlier world reached
    rw [steps, run, List.foldl_cons, ← List.append_assoc]
    refine ih _ _ ?_
    rcases world.move_cases move with ⟨idle, same⟩ | ⟨step, next, made, found, -, asks, moved⟩
    · rwa [idle, same, Option.toList_none, List.append_nil]
    · rw [made, moved]
      exact access earlier world step next reached found asks

theorem exists_move_of_mem_steps {moves : List (Move ι)} {step : Step ι}
    (member : step ∈ world.steps moves) :
    ∃ move ∈ moves, step.party = move.party ∧ step.now = move.now := by
  induction moves generalizing world with
  | nil => cases member
  | cons move moves ih =>
    rcases List.mem_append.1 member with first | later
    · obtain ⟨-, party, now, -⟩ := step?_eq_some_iff.1 (Option.mem_toList.1 first)
      exact ⟨move, List.mem_cons_self, party, now⟩
    · obtain ⟨move', member, same⟩ := ih later
      exact ⟨move', List.mem_cons_of_mem move member, same⟩

/-- An access keeps the promises of every party, whether it is its own or not. -/
theorem meets_advance {party : ι} {contract : Contract ρ} {made : ι → List Act} {step : Step ι}
    {next : step.access.Answer → Script ρ} (asks : world.scripts step.party = .ask step.access next)
    (meets : (world.scripts party).Meets contract (made party)) :
    ((world.advance step next).scripts party).Meets contract
      (Function.update made step.party (made step.party ++ [step.toAct]) party) := by
  -- Only the party that acted has moved on in its script; the contracts of the others see nothing of it.
  by_cases own : step.party = party
  · subst own
    rw [asks] at meets
    cases meets with
    | ask allowed rest =>
      rw [Function.update_self, scripts_advance_self]
      exact rest step.now step.before
  · rw [Function.update_of_ne (Ne.symm own), scripts_advance_of_ne own]
    exact meets

theorem meets_advance_actsOf {party : ι} {contract : Contract ρ} {steps : List (Step ι)} {step : Step ι}
    {next : step.access.Answer → Script ρ} (asks : world.scripts step.party = .ask step.access next)
    (meets : (world.scripts party).Meets contract (actsOf party steps)) :
    ((world.advance step next).scripts party).Meets contract (actsOf party (steps ++ [step])) := by
  rw [congrFun (actsOf_append_singleton steps step) party]
  exact @meets_advance ι ρ _ world party contract (actsOf · steps) step next asks meets

end World

end KvServer
