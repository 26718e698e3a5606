import Keyfob.Proofs.Script.Ranges
import Mathlib.Data.ENat.Lattice
import Mathlib.Order.CompletePartialOrder

/-!
# Budgets

A budget cuts a run short and does nothing else. The run without a budget is the sequence of visits
that its program and its start settle; how many there are may be infinite (`visited`), and the last
of them may be one at which the run crashes (`Crashes`). A run with a budget makes the first of
these visits, as many as it may, so what it does is the beginning of what any larger budget allows
(`emitted_prefix`), it is stopped just where one more visit is due, and it crashes just where its
budget allows the visit at which the run without a budget does.
-/
namespace Keyfob

/-- The actions by which a request is done on a device with some capabilities. -/
def Request.actions (capabilities : Capabilities) (engine : MacroEngine) : Request → List Action
  | delay ms => [.delay ms]
  | button held down => if capabilities.gamepad then [.padButton held down] else []
  | typed t => ((Pass.next capabilities).run engine.newPass (Piece.ofText t)).2

/-- A device that refuses nothing carries out the actions of a request. -/
theorem Request.device_perform {δ : Type} [Device δ] [Accepts δ] (request : Request)
    (engine : MacroEngine) (device : δ) :
    (request.perform engine device).2.2 =
      carriedOut (request.actions (capabilities device) engine) device := by
  cases request with
  | delay ms => simp [perform, performAll_eq_of_accepts, actions]
  | button held down => simp [perform, performAll_eq_of_accepts, actions]
  | typed t => simp [perform, MacroEngine.run, MacroEngine.perform, drive_eq_of_accepts, actions]

namespace Script

namespace Progress

variable {δ : Type} [Device δ] {program : List Instruction}
  {progress before after last : Progress δ} {visits more : Nat}

/-! ## The run without a budget -/

/-- The actions of the next visit. -/
def doing (program : List Instruction) (progress : Progress δ) : List Action :=
  match progress.machine.step program with
  | some (_, some request) => request.actions (capabilities progress.device) progress.engine
  | _ => []

/-- The actions of the next visits, as long as the program goes on. -/
def emitted (program : List Instruction) : Nat → Progress δ → List Action
  | 0, _ => []
  | visits + 1, progress =>
    match progress.advance program with
    | none => []
    | some next => progress.doing program ++ emitted program visits next

/-- How many instructions a run without a budget visits, which may be without end. A visit at which
the run crashes is one of them. -/
noncomputable def visited (program : List Instruction) (progress : Progress δ) : ℕ∞ :=
  ⨆ visits ∈ {visits | ∃ after, Reaches program visits progress after ∧
    after.machine.place < program.length}, ((visits + 1 : Nat) : ℕ∞)

/-- The run without a budget crashes. -/
def Crashes (program : List Instruction) (progress : Progress δ) : Prop :=
  ∃ visits now, Reaches program visits progress now ∧ now.machine.overflows program = true

/-- A visit leaves the device as its actions do. -/
theorem device_of_advance [Accepts δ] (step : before.advance program = some after) :
    after.device = carriedOut (before.doing program) before.device := by
  obtain ⟨⟨machine, wanted⟩, stepped, rfl⟩ := Option.map_eq_some_iff.mp step
  rw [doing, stepped]
  cases wanted with
  | none => rfl
  | some request => exact request.device_perform before.engine before.device

/-- There is no visit just at the end of the program and where a counter leaves its range. -/
theorem advance_eq_none_iff :
    progress.advance program = none ↔
      program.length ≤ progress.machine.place ∨ progress.machine.overflows program = true :=
  Option.map_eq_none_iff.trans Machine.step_eq_none_iff

/-- A number of visits leads to one progress only. -/
theorem Reaches.unique (reaches : Reaches program visits before after)
    (other : Reaches program visits before last) : after = last := by
  induction visits generalizing before with
  | zero => exact reaches.symm.trans other
  | succ visits ih =>
    obtain ⟨next, step, rest⟩ := reaches
    obtain ⟨same, again, later⟩ := other
    rw [step, Option.some.injEq] at again
    subst again
    exact ih rest later

/-- The visits of a run that goes no further are all that can be made. -/
theorem Reaches.le_of_advance_eq_none (reaches : Reaches program visits before last)
    (stopped : last.advance program = none) (other : Reaches program more before after) :
    more ≤ visits := by
  induction visits generalizing before more with
  | zero =>
    obtain rfl := reaches
    cases more with
    | zero => exact Nat.le_refl 0
    | succ more =>
      obtain ⟨next, step, -⟩ := other
      rw [stopped] at step
      cases step
  | succ visits ih =>
    obtain ⟨next, step, rest⟩ := reaches
    cases more with
    | zero => exact Nat.zero_le _
    | succ more =>
      obtain ⟨same, again, later⟩ := other
      rw [step, Option.some.injEq] at again
      subst again
      exact Nat.succ_le_succ (ih rest later)

/-- A run goes no further at one place only. -/
theorem Reaches.eq_of_advance_eq_none (reaches : Reaches program visits before last)
    (stopped : last.advance program = none) (other : Reaches program more before after)
    (also : after.advance program = none) : last = after := by
  have same := Nat.le_antisymm (other.le_of_advance_eq_none also reaches)
    (reaches.le_of_advance_eq_none stopped other)
  subst same
  exact reaches.unique other

/-- Every visit that a run comes to is counted. -/
theorem Reaches.succ_le_visited (reaches : Reaches program visits before after)
    (inside : after.machine.place < program.length) :
    ((visits + 1 : Nat) : ℕ∞) ≤ before.visited program :=
  le_biSup (fun visits : Nat => ((visits + 1 : Nat) : ℕ∞)) ⟨after, reaches, inside⟩

/-- A run that comes to the end of its program has visited just the instructions up to there. -/
theorem Reaches.visited_eq (reaches : Reaches program visits before last)
    (ended : program.length ≤ last.machine.place) : before.visited program = visits := by
  have stopped := advance_eq_none_iff.mpr (.inl ended)
  refine le_antisymm (iSup₂_le fun more ⟨after, other, inside⟩ => Nat.cast_le.mpr ?_) ?_
  · refine Nat.lt_of_le_of_ne (reaches.le_of_advance_eq_none stopped other) ?_
    rintro rfl
    rw [other.unique reaches] at inside
    exact Nat.not_lt.mpr ended inside
  · cases visits with
    | zero => exact zero_le
    | succ visits =>
      obtain ⟨middle, run, step⟩ := reaches_succ_iff.mp reaches
      obtain ⟨request, stepped⟩ := step_of_advance step
      exact run.succ_le_visited (Machine.not_ended_of_step stepped).1

/-- The visit at which a run crashes is the last one. -/
theorem Reaches.visited_eq_succ (reaches : Reaches program visits before last)
    (overflows : last.machine.overflows program = true) :
    before.visited program = (visits + 1 : Nat) := by
  have stopped := advance_eq_none_iff.mpr (.inr overflows)
  refine le_antisymm (iSup₂_le fun more ⟨after, other, inside⟩ => Nat.cast_le.mpr ?_)
    (reaches.succ_le_visited (Machine.place_lt_of_overflows overflows))
  exact Nat.succ_le_succ (reaches.le_of_advance_eq_none stopped other)

/-- What becomes of a run under a budget. -/
inductive Ending (program : List Instruction) (budget : Nat) (start : Progress δ) : Prop where
  /-- It has used up its budget, and one more visit is due. -/
  | cut {last : Progress δ} (reaches : Reaches program budget start last)
      (inside : last.machine.place < program.length)
  /-- It has come to the end of the program. -/
  | ended {visits : Nat} {last : Progress δ} (reaches : Reaches program visits start last)
      (enough : visits ≤ budget) (ended : program.length ≤ last.machine.place)
  /-- It has crashed at a visit that the budget allows. -/
  | crashed {visits : Nat} {last : Progress δ} (reaches : Reaches program visits start last)
      (enough : visits < budget) (overflows : last.machine.overflows program = true)

/-- One visit and what becomes of the rest is what becomes of the whole. -/
theorem Ending.of_advance {budget : Nat} (step : before.advance program = some after) :
    Ending program budget after → Ending program (budget + 1) before
  | .cut reaches inside => .cut (.cons step reaches) inside
  | .ended reaches enough done => .ended (.cons step reaches) (Nat.succ_le_succ enough) done
  | .crashed reaches enough overflows =>
    .crashed (.cons step reaches) (Nat.succ_lt_succ enough) overflows

/-- Every run under a budget comes to one of these endings. -/
theorem ending (program : List Instruction) (budget : Nat) (start : Progress δ) :
    Ending program budget start := by
  induction budget generalizing start with
  | zero =>
    rcases Nat.lt_or_ge start.machine.place program.length with inside | ended
    · exact .cut (reaches_zero program start) inside
    · exact .ended (reaches_zero program start) (Nat.le_refl 0) ended
  | succ budget ih =>
    cases step : start.advance program with
    | some next => exact (ih next).of_advance step
    | none =>
      rcases advance_eq_none_iff.mp step with ended | overflows
      · exact .ended (reaches_zero program start) (Nat.zero_le _) ended
      · exact .crashed (reaches_zero program start) (Nat.succ_pos _) overflows

/-! ## What is done within a budget -/

/-- What is done within a budget is the beginning of what is done within a larger one. -/
theorem emitted_prefix (program : List Instruction) {small large : Nat} (larger : small ≤ large)
    (progress : Progress δ) :
    progress.emitted program small <+: progress.emitted program large := by
  induction small generalizing progress large with
  | zero => exact List.nil_prefix
  | succ small ih =>
    obtain ⟨rest, rfl⟩ := Nat.exists_eq_add_of_le' larger
    rw [emitted, ← Nat.add_assoc, emitted]
    cases progress.advance program with
    | none => exact List.nil_prefix
    | some next => exact (List.prefix_append_right_inj _).mpr (ih (Nat.le_add_left _ _) next)

/-- Nothing is done where the run goes no further. -/
theorem emitted_of_advance_eq_none (stopped : last.advance program = none) (budget : Nat) :
    last.emitted program budget = [] := by
  cases budget with
  | zero => rfl
  | succ budget => rw [emitted, stopped]

/-- Nothing more is done once the run goes no further. -/
theorem Reaches.emitted_eq (reaches : Reaches program visits before last)
    (stopped : last.advance program = none) (more : Nat) :
    before.emitted program (visits + more) = before.emitted program visits := by
  induction visits generalizing before with
  | zero =>
    obtain rfl := reaches
    rw [emitted_of_advance_eq_none stopped, emitted_of_advance_eq_none stopped]
  | succ visits ih =>
    obtain ⟨next, step, rest⟩ := reaches
    rw [Nat.succ_add, emitted, emitted, step]
    dsimp only
    rw [ih rest]

/-- Whatever its budget is, a run leaves the device as the actions within the budget do. -/
theorem device_runFrom [Accepts δ] (program : List Instruction) (steps budget : Nat)
    (progress : Progress δ) :
    (runFrom program steps budget progress.machine progress.engine progress.device).2.2.2 =
      carriedOut (progress.emitted program budget) progress.device := by
  induction budget generalizing steps progress with
  | zero => rfl
  | succ budget ih =>
    rw [runFrom_succ, emitted]
    cases step : progress.advance program with
    | none => rfl
    | some next =>
      dsimp only
      rw [ih, device_of_advance step, carriedOut_append]

/-- A run with budget for all visits up to the end of its program ends there. -/
theorem Reaches.runFrom_of_ended [Accepts δ] (reaches : Reaches program visits before last)
    (ended : program.length ≤ last.machine.place) {budget : Nat} (enough : visits ≤ budget) :
    runFrom program 0 budget before.machine before.engine before.device =
      (.ok ⟨visits, false⟩, last.machine, last.engine, last.device) := by
  obtain ⟨rest, rfl⟩ := Nat.exists_eq_add_of_le enough
  rw [reaches.runFrom_eq, Script.runFrom_of_end _ _ ended, Nat.zero_add]

/-- A run with budget for the visit at which the run without a budget crashes does so too. -/
theorem Reaches.runFrom_of_overflows [Accepts δ] (reaches : Reaches program visits before last)
    (overflows : last.machine.overflows program = true) {budget : Nat} (enough : visits < budget) :
    runFrom program 0 budget before.machine before.engine before.device =
      (.error (.crash .overflow), last.machine, last.engine, last.device) := by
  obtain ⟨rest, rfl⟩ := Nat.exists_eq_add_of_lt enough
  rw [Nat.add_assoc, reaches.runFrom_eq, Progress.runFrom_of_overflows overflows]

/-- A run that has used up its budget before one more visit is stopped there. -/
theorem Reaches.runFrom_of_inside [Accepts δ] (reaches : Reaches program visits before last)
    (inside : last.machine.place < program.length) :
    runFrom program 0 visits before.machine before.engine before.device =
      (.ok ⟨visits, true⟩, last.machine, last.engine, last.device) := by
  have whole := reaches.runFrom_eq 0 0
  rwa [Nat.add_zero, Nat.zero_add, runFrom, decide_eq_true inside] at whole

end Progress

/-! ## Running under budgets -/

section Budgets

variable {δ : Type} [Device δ]

/-- The result of a run under a budget. It crashes where its budget allows the visit at which the
run without a budget crashes. Otherwise it reports the visits that it made, as many as its budget
allows, and that it was stopped just where the run without a budget would have gone on. -/
theorem runFrom_result [Accepts δ] (program : List Instruction) (budget : Nat)
    (start : Progress δ) :
    let result := (runFrom program 0 budget start.machine start.engine start.device).1
    (start.Crashes program ∧ start.visited program ≤ budget →
      result = .error (.crash .overflow)) ∧
    (¬(start.Crashes program ∧ start.visited program ≤ budget) →
      ∃ run : ScriptRun, result = .ok run ∧
        (run.steps : ℕ∞) = min (budget : ℕ∞) (start.visited program) ∧
        (run.exhausted = true ↔ (budget : ℕ∞) < start.visited program)) := by
  intro result
  cases Progress.ending program budget start with
  | cut reaches inside =>
    have returned : result = .ok ⟨budget, true⟩ :=
      congrArg Prod.fst (reaches.runFrom_of_inside inside)
    have more : (budget : ℕ∞) < start.visited program :=
      lt_of_lt_of_le (Nat.cast_lt.mpr (Nat.lt_succ_self budget)) (reaches.succ_le_visited inside)
    refine ⟨fun ⟨_, within⟩ => absurd within (not_le.mpr more), fun _ => ⟨_, returned, ?_, ?_⟩⟩
    · rw [min_eq_left more.le]
    · exact iff_of_true rfl more
  | @ended visits last reaches enough ended =>
    have returned : result = .ok ⟨visits, false⟩ :=
      congrArg Prod.fst (reaches.runFrom_of_ended ended enough)
    have total := reaches.visited_eq ended
    have within : start.visited program ≤ budget := total ▸ Nat.cast_le.mpr enough
    refine ⟨fun ⟨⟨more, now, other, overflows⟩, _⟩ => ?_, fun _ => ⟨_, returned, ?_, ?_⟩⟩
    · -- The run without a budget stops once, at the end of the program.
      have same := reaches.eq_of_advance_eq_none
        (Progress.advance_eq_none_iff.mpr (.inl ended)) other
        (Progress.advance_eq_none_iff.mpr (.inr overflows))
      rw [same] at ended
      exact absurd (Machine.place_lt_of_overflows overflows) (Nat.not_lt.mpr ended)
    · rw [min_eq_right within, total]
    · exact iff_of_false nofun (not_lt.mpr within)
  | crashed reaches enough overflows =>
    have within : start.visited program ≤ budget := by
      rw [reaches.visited_eq_succ overflows]
      exact Nat.cast_le.mpr enough
    refine ⟨fun _ => congrArg Prod.fst (reaches.runFrom_of_overflows overflows enough),
      fun returns => absurd ⟨⟨_, _, reaches, overflows⟩, within⟩ returns⟩

/-- A budget beyond what is enough for the whole run makes no difference. -/
theorem runFrom_of_visited_le [Accepts δ] (program : List Instruction) (start : Progress δ)
    {budget : Nat} (enough : start.visited program ≤ budget) (more : Nat) :
    runFrom program 0 (budget + more) start.machine start.engine start.device =
        runFrom program 0 budget start.machine start.engine start.device ∧
      start.emitted program (budget + more) = start.emitted program budget := by
  cases Progress.ending program budget start with
  | cut reaches inside =>
    have fewer := (reaches.succ_le_visited inside).trans enough
    exact absurd (Nat.cast_le.mp fewer) (Nat.not_succ_le_self budget)
  | ended reaches within ended =>
    obtain ⟨rest, rfl⟩ := Nat.exists_eq_add_of_le within
    have stopped := Progress.advance_eq_none_iff.mpr (.inl ended)
    constructor
    · rw [reaches.runFrom_of_ended ended within,
        reaches.runFrom_of_ended ended (within.trans (Nat.le_add_right _ _))]
    · rw [Nat.add_assoc, reaches.emitted_eq stopped, reaches.emitted_eq stopped]
  | crashed reaches within overflows =>
    obtain ⟨rest, rfl⟩ := Nat.exists_eq_add_of_le within.le
    have stopped := Progress.advance_eq_none_iff.mpr (.inr overflows)
    constructor
    · rw [reaches.runFrom_of_overflows overflows within,
        reaches.runFrom_of_overflows overflows (Nat.lt_add_right more within)]
    · rw [Nat.add_assoc, reaches.emitted_eq stopped, reaches.emitted_eq stopped]

/-- A budget cuts a run short and does nothing else. A run under a budget crashes where the run
without one crashes at a visit within it. Under any other budget it returns, and reports as many
steps as the run without a budget visits instructions, or as the budget allows where that is less,
and it is stopped exactly where that is less. What it does on the device, also where it crashes, is
the beginning of what it does under any larger budget; and where the budget is enough for all
visits, how it ends, what it does and what it leaves do not depend on the budget. -/
theorem execute_budget [Accepts δ] (program : List Instruction) (memory : Variables)
    (engine : MacroEngine) (device : δ) :
    let run := fun budget : Nat =>
      ({ memory := memory, budget := budget } : ScriptEngine).execute program engine device
    let start : Progress δ := ⟨{ memory := memory }, engine, device⟩
    (∀ budget : Nat, start.Crashes program ∧ start.visited program ≤ budget →
      (run budget).1 = .error (.crash .overflow)) ∧
    (∀ budget : Nat, ¬(start.Crashes program ∧ start.visited program ≤ budget) →
      ∃ result : ScriptRun, (run budget).1 = .ok result ∧
        (result.steps : ℕ∞) = min (budget : ℕ∞) (start.visited program) ∧
        (result.exhausted = true ↔ (budget : ℕ∞) < start.visited program)) ∧
    (∀ budget : Nat, (run budget).2.2.2 = carriedOut (start.emitted program budget) device) ∧
    (∀ small large : Nat, small ≤ large →
      start.emitted program small <+: start.emitted program large) ∧
    (∀ budget other : Nat, start.visited program ≤ budget → start.visited program ≤ other →
      start.emitted program budget = start.emitted program other ∧
      (run budget).1 = (run other).1 ∧
      (run budget).2.1.memory = (run other).2.1.memory ∧ (run budget).2.2 = (run other).2.2) := by
  intro run start
  refine ⟨fun budget => (runFrom_result program budget start).1,
    fun budget => (runFrom_result program budget start).2,
    fun budget => Progress.device_runFrom program 0 budget start,
    fun small large larger => Progress.emitted_prefix program larger start,
    fun budget other enough also => ?_⟩
  have alike : ∀ {small large : Nat}, start.visited program ≤ small → small ≤ large →
      start.emitted program large = start.emitted program small ∧
      (run large).1 = (run small).1 ∧
      (run large).2.1.memory = (run small).2.1.memory ∧ (run large).2.2 = (run small).2.2 := by
    intro small large enough larger
    obtain ⟨rest, rfl⟩ := Nat.exists_eq_add_of_le larger
    obtain ⟨same, emitted⟩ := runFrom_of_visited_le program start enough rest
    exact ⟨emitted, congrArg (·.1) same, congrArg (·.2.1.memory) same, congrArg (·.2.2) same⟩
  rcases Nat.le_total budget other with larger | larger
  · obtain ⟨emitted, result, left, rest⟩ := alike enough larger
    exact ⟨emitted.symm, result.symm, left.symm, rest.symm⟩
  · exact alike also larger

/-- A combination that is run twice. -/
def comboTwice : Block := .loop "2" (.plain (.combo "y") rfl)

/-- Two rounds are five visits. A budget of three stops the run on the way, and budgets of five and
more let it end alike. -/
theorem execute_budget_twice :
    let run := fun budget : Nat =>
      ({ budget := budget } : ScriptEngine).execute comboTwice.flat ⟨0, {}⟩ ({} : Recording)
    let start : Progress Recording := ⟨{}, ⟨0, {}⟩, {}⟩
    start.visited comboTwice.flat = 5 ∧
      (∃ result : ScriptRun, (run 3).1 = .ok result ∧ (result.steps : ℕ∞) = min 3 5 ∧
        (result.exhausted = true ↔ (3 : ℕ∞) < 5)) ∧
      (run 3).2.2.2 = carriedOut (start.emitted comboTwice.flat 3) {} ∧
      start.emitted comboTwice.flat 3 <+: start.emitted comboTwice.flat 5 ∧
      start.emitted comboTwice.flat 5 = start.emitted comboTwice.flat 7 ∧
      (run 5).1 = (run 7).1 ∧
      (run 5).2.1.memory = (run 7).2.1.memory ∧ (run 5).2.2 = (run 7).2.2 := by
  intro run start
  let before : Scene Recording := ⟨{}, ⟨0, {}⟩, {}⟩
  have two : rounds (before.memory.evaluate "2") = 2 := by decide +kernel
  have course : ∃ actions after, Rounds (.plain (.combo "y") rfl)
      (rounds (before.memory.evaluate "2")) before 4 actions after := by
    rw [two]
    exact ⟨_, _, .more (.plain rfl) (.more (.plain rfl) .none)⟩
  obtain ⟨actions, after, course⟩ := course
  have reaches := Progress.reaches_of_runs [] (located_self comboTwice.flat)
    (.loop (by decide +kernel) course)
  have total : start.visited comboTwice.flat = 5 := reaches.visited_eq (Nat.le_refl 3)
  obtain ⟨-, cut, does, begins, free⟩ :=
    execute_budget comboTwice.flat {} ⟨0, {}⟩ ({} : Recording)
  have enough : start.visited comboTwice.flat ≤ (5 : Nat) := total.le
  have more : start.visited comboTwice.flat ≤ (7 : Nat) := by
    rw [total]
    decide
  have short : ¬ start.visited comboTwice.flat ≤ (3 : Nat) := by
    rw [total]
    decide
  have within := cut 3 fun ⟨_, allowed⟩ => short allowed
  rw [total] at within
  exact ⟨total, within, does 3, begins 3 5 (by decide), free 5 7 enough more⟩

/-- A counted block with nothing in it, whose count is the least number. -/
def leastLoop : Block := .loop "2147483648" .empty

/-- The run through this block without a budget crashes at the end of the block, which is the second
instruction that it visits. -/
theorem reaches_leastLoop :
    let start : Progress Recording := ⟨{}, ⟨0, {}⟩, {}⟩
    ∃ last, Progress.Reaches leastLoop.flat 1 start last ∧
      last.machine.overflows leastLoop.flat = true := by
  intro start
  let before : Scene Recording := ⟨{}, ⟨0, {}⟩, {}⟩
  obtain ⟨opening, -, closing⟩ := (located_self leastLoop.flat).between
  have least : before.memory.evaluate "2147483648" = Int32.minValue := by decide +kernel
  exact ⟨_, Progress.reaches_one (Progress.advance_loop opening before []),
    (Progress.overflows_standing_iff closing before _ 1 []).mpr least⟩

/-- The run without a budget visits two instructions, and one whose budget is two crashes at the
second and reports nothing. -/
theorem execute_budget_least :
    let run := fun budget : Nat =>
      ({ budget := budget } : ScriptEngine).execute leastLoop.flat ⟨0, {}⟩ ({} : Recording)
    let start : Progress Recording := ⟨{}, ⟨0, {}⟩, {}⟩
    start.visited leastLoop.flat = 2 ∧ (run 2).1 = .error (.crash .overflow) ∧
      ¬ ∃ result : ScriptRun, (run 2).1 = .ok result ∧ (result.steps : ℕ∞) = min 2 2 := by
  intro run start
  obtain ⟨last, stands, overflows⟩ := reaches_leastLoop
  have crashed : (run 2).1 = .error (.crash .overflow) :=
    congrArg (·.1) (stands.runFrom_of_overflows overflows (Nat.lt_succ_self 1))
  refine ⟨stands.visited_eq_succ overflows, crashed, ?_⟩
  rintro ⟨result, returned, -⟩
  rw [crashed] at returned
  cases returned

end Budgets

end Script

end Keyfob
