import Keyfob.Proofs.Script.Budget
import Keyfob.Proofs.Script.Counting
import Mathlib.Data.DFinsupp.WellFounded

/-!
# Programs that end

A program without blocks over a range goes no further at some time, from every start and however
badly its block words are nested: it is then at its end, unless it has opened a block with the least
number and crashed at the end of its first round. A count is evaluated anew whenever its block is
opened, so no counter by itself goes down for good, but a counter can be set again only after the
machine has gone back over the beginning of its block, and that is on account of a block around it.
The measure is a row of numbers, one for each place of the program (`rank`): the rounds that are
left of the block whose body begins there, nothing where the machine has passed without such a block
being open, and more than any number where it has not been. Every step makes this row smaller in
lexicographic order (`Move.below`).
-/
namespace Keyfob

/-- The rounds that are left of the open block whose body begins at a place. -/
def Frame.roundsAt : List Frame → Nat → Nat
  | [], _ => 0
  | .loop remaining body :: around, place =>
    if body = place then Script.rounds remaining else roundsAt around place
  | _ :: around, place => roundsAt around place

/-- Nothing is left where no open block has its body. -/
theorem Frame.roundsAt_of_notMem {frames : List Frame} {place : Nat}
    (elsewhere : place ∉ frames.filterMap body?) : roundsAt frames place = 0 := by
  induction frames with
  | nil => rfl
  | cons frame frames ih =>
    cases frame with
    | loop remaining body =>
      obtain ⟨apart, others⟩ := List.ne_and_not_mem_of_not_mem_cons elsewhere
      rw [roundsAt, if_neg apart.symm, ih others]
    | range name body => exact ih (List.not_mem_of_not_mem_cons elsewhere)
    | branch => exact ih elsewhere

namespace Machine

open Keyfob.Frame (repeating)

/-- How much of the program from a place on is still to be done, compared with other machines that
agree on all places before. -/
def rank (machine : Machine) (place : Nat) : ℕ∞ :=
  if place ≤ machine.place then (Frame.roundsAt (repeating machine.frames) place : ℕ∞) else ⊤

/-- All open blocks that repeat are counted ones, and they are in order. -/
structure Counted (machine : Machine) : Prop where
  /-- The open blocks are in order. -/
  ordered : machine.Ordered
  /-- None is over a range. -/
  loops : ∀ frame ∈ repeating machine.frames, frame.isLoop = true

variable {program : List Instruction} {before after : Machine}

/-- A machine is below another when its row of numbers comes before the other's in lexicographic
order. -/
def Below (program : List Instruction) (after before : Machine) : Prop :=
  Pi.Lex (· < ·) (· < ·) (fun place : Fin (program.length + 1) => after.rank place)
    (fun place : Fin (program.length + 1) => before.rank place)

/-- There is no descent without end. -/
theorem below_wellFounded (program : List Instruction) : WellFounded (Below program) :=
  InvImage.wf (fun machine (place : Fin (program.length + 1)) => rank machine place)
    (Pi.Lex.wellFounded (· < ·) fun _ => wellFounded_lt)

/-- The row of numbers shows what is left of a block up to the machine's own place. -/
theorem rank_of_le {machine : Machine} {place : Nat} (passed : place ≤ machine.place) :
    machine.rank place = Frame.roundsAt (repeating machine.frames) place := if_pos passed

/-- Beyond its own place a machine has everything to do. -/
theorem rank_of_lt {machine : Machine} {place : Nat} (beyond : machine.place < place) :
    machine.rank place = ⊤ := if_neg (Nat.not_le.mpr beyond)

/-- Going on by one place descends, if nothing changes for the blocks that are open already. -/
theorem below_of_further (inside : before.place < program.length)
    (place : after.place = before.place + 1)
    (same : ∀ body ≤ before.place, Frame.roundsAt (repeating after.frames) body =
      Frame.roundsAt (repeating before.frames) body) :
    Below program after before := by
  refine ⟨⟨before.place + 1, Nat.succ_lt_succ inside⟩, fun body earlier => ?_, ?_⟩
  · have passed : body.val ≤ before.place := Nat.le_of_lt_succ earlier
    dsimp only
    rw [rank_of_le passed, rank_of_le (by omega), same body passed]
  · dsimp only
    rw [rank_of_lt (Nat.lt_succ_self _), rank_of_le (Nat.le_of_eq place.symm)]
    exact ENat.natCast_lt_top _

/-- Counting down one of the open blocks descends, if nothing changes for those around it. -/
theorem below_of_counted {body : Nat} (inside : before.place < program.length)
    (passed : body ≤ before.place) (still : body ≤ after.place)
    (same : ∀ outer < body, Frame.roundsAt (repeating after.frames) outer =
      Frame.roundsAt (repeating before.frames) outer)
    (fewer : Frame.roundsAt (repeating after.frames) body <
      Frame.roundsAt (repeating before.frames) body) :
    Below program after before := by
  refine ⟨⟨body, by omega⟩, fun outer earlier => ?_, ?_⟩
  · have smaller : outer.val < body := earlier
    dsimp only
    rw [rank_of_le (by omega), rank_of_le (by omega), same outer smaller]
  · dsimp only
    rw [rank_of_le passed, rank_of_le still]
    exact Nat.cast_lt.mpr fewer

/-- Where all open blocks are counted ones, the innermost counted block is the innermost block. -/
theorem Counted.innermost (counted : before.Counted) {inner around : List Frame} {frame : Frame}
    (opened : repeating before.frames = inner ++ frame :: around)
    (innermost : ∀ other ∈ inner, other.isLoop = false) :
    repeating before.frames = frame :: around := by
  cases inner with
  | nil => exact opened
  | cons other inner =>
    have loop := counted.loops other (opened ▸ List.mem_cons_self)
    rw [innermost other List.mem_cons_self] at loop
    cases loop

/-- Nothing is left, outside a block that is open, for a block with the same body. -/
theorem Counted.roundsAt_around (counted : before.Counted) {around : List Frame}
    {remaining : Int32} {body : Nat}
    (opened : repeating before.frames = .loop remaining body :: around) :
    Frame.roundsAt around body = 0 := by
  have outward := counted.ordered.outward
  rw [bodies, opened] at outward
  refine Frame.roundsAt_of_notMem fun listed => ?_
  exact Nat.lt_irrefl body (List.rel_of_pairwise_cons outward listed)

/-- In a program without blocks over a range, every step descends. -/
theorem Move.below (noRange : ∀ name first last, .forRange name first last ∉ program)
    (inside : before.place < program.length) (counted : before.Counted)
    (move : Move program before after) : Below program after before := by
  cases move with
  | onward place frames => exact below_of_further inside place fun _ _ => by rw [frames]
  | openLoop found acting place frames =>
    refine below_of_further inside place fun body passed => ?_
    rw [frames, Frame.roundsAt, if_neg (by omega)]
  | openRange found place frames => exact absurd (List.mem_of_getElem? found) (noRange _ _ _)
  | @againLoop inner around remaining body innermost opened notLeast left place frames =>
    have only := counted.innermost opened innermost
    have passed := counted.ordered.body_le rfl opened
    refine below_of_counted inside passed (Nat.le_of_eq place.symm) (fun outer smaller => ?_) ?_
    · rw [frames, only, Frame.roundsAt, Frame.roundsAt, if_neg (by omega), if_neg (by omega)]
    · rw [frames, only, Frame.roundsAt, Frame.roundsAt, if_pos rfl, if_pos rfl,
        Script.rounds_of_pos notLeast left]
      exact Nat.lt_succ_self _
  | @leaveLoop inner around remaining body innermost opened spent place frames =>
    have only := counted.innermost opened innermost
    have passed := counted.ordered.body_le rfl opened
    refine below_of_counted inside passed (by omega) (fun outer smaller => ?_) ?_
    · rw [frames, only, Frame.roundsAt, if_neg (by omega)]
    · rw [frames, only, Frame.roundsAt, if_pos rfl, counted.roundsAt_around only]
      exact Nat.pos_of_ne_zero (Script.rounds_ne_zero remaining)
  | againRange innermost opened place frames | leaveRange innermost opened place frames =>
    cases counted.loops _ (opened ▸ List.mem_append_right _ List.mem_cons_self)

/-- In a program without blocks over a range, a step opens none. -/
theorem Move.counted (noRange : ∀ name first last, .forRange name first last ∉ program)
    (counted : before.Counted) (move : Move program before after) : after.Counted := by
  refine ⟨move.ordered counted.ordered, fun frame listed => ?_⟩
  cases move.origin listed with
  | older listed => exact counted.loops frame listed
  | openedLoop found acting opened => exact congrArg Frame.isLoop opened
  | openedRange found opened => exact absurd (List.mem_of_getElem? found) (noRange _ _ _)
  | counted left counted => exact congrArg Frame.isLoop counted

end Machine

namespace Script

variable {δ : Type} [Device δ] {program : List Instruction}

/-- A run of a program without blocks over a range makes a last visit. The induction is on the
descent of the machine. -/
theorem Progress.exists_last (noRange : ∀ name first last, .forRange name first last ∉ program)
    (start : Progress δ) (counted : start.machine.Counted) :
    ∃ visits last, Reaches program visits start last ∧ last.advance program = none := by
  induction machine : start.machine using (Machine.below_wellFounded program).induction
    generalizing start with
  | _ machine ih =>
    subst machine
    cases step : start.advance program with
    | none => exact ⟨0, start, rfl, step⟩
    | some next =>
      obtain ⟨request, stepped⟩ := step_of_advance step
      have move := Machine.move_of_step stepped
      have below := move.below noRange (Machine.not_ended_of_step stepped).1 counted
      obtain ⟨visits, last, rest, ended⟩ :=
        ih next.machine below next (move.counted noRange counted) rfl
      exact ⟨visits + 1, last, ⟨next, step, rest⟩, ended⟩

/-- A program without blocks over a range has a number of steps with which it comes to its end, from
whatever variables, however its block words are nested: no budget from there on is exhausted. The
one exception is a run that crashes; every budget from some number on then lets it crash, and it has
opened a counted block with the least number. -/
theorem exists_enough_steps [Accepts δ]
    (noRange : ∀ name first last, .forRange name first last ∉ program) (memory : Variables)
    (engine : MacroEngine) (device : δ) :
    let result := fun budget : Nat =>
      (({ memory := memory, budget := budget } : ScriptEngine).execute program engine device).1
    let start : Progress δ := ⟨{ memory := memory }, engine, device⟩
    (¬ start.Crashes program →
      ∃ enough : Nat, ∀ budget ≥ enough, result budget = .ok ⟨enough, false⟩) ∧
    (start.Crashes program →
      (∃ enough : Nat, ∀ budget ≥ enough, result budget = .error (.crash .overflow)) ∧
      ∃ visits body, Progress.Opened program start visits Int32.minValue body) := by
  intro result start
  constructor
  · intro survives
    have counted : start.machine.Counted := ⟨Machine.ordered_of_closed rfl, nofun⟩
    obtain ⟨enough, last, reaches, stopped⟩ := start.exists_last noRange counted
    have ended := (Progress.advance_eq_none_iff.mp stopped).resolve_right
      fun overflows => survives ⟨enough, last, reaches, overflows⟩
    exact ⟨enough, fun budget more => congrArg (·.1) (reaches.runFrom_of_ended ended more)⟩
  · rintro ⟨visits, now, reaches, overflows⟩
    obtain ⟨body, opened⟩ := Progress.opened_of_overflows rfl reaches overflows
    exact ⟨⟨visits + 1, fun budget more =>
      congrArg (·.1) (reaches.runFrom_of_overflows overflows more)⟩, visits, body, opened⟩

/-- Two counted blocks across the branches of a condition: the inner one is opened anew, with
another count, in each round of the outer one, and the outer one ends in two places. -/
def misnested : List Instruction :=
  [.loop "3", .ifThen "n > 1", .endLoop, .otherwise, .loop "n + 1",
    .assign "n" (.expr "n + 1"), .endIf, .next, .endLoop, .endIf, .endLoop]

/-- The blocks that are nested badly are gone through in forty-seven steps. -/
theorem exists_enough_steps_misnested :
    let result := fun budget : Nat =>
      (({ budget := budget } : ScriptEngine).execute misnested ⟨0, {}⟩ ({} : Recording)).1
    let start : Progress Recording := ⟨{}, ⟨0, {}⟩, {}⟩
    (∀ name first last, .forRange name first last ∉ misnested) ∧ ¬ start.Crashes misnested ∧
      (∃ enough : Nat, ∀ budget ≥ enough, result budget = .ok ⟨enough, false⟩) ∧
      result 47 = .ok ⟨47, false⟩ := by
  intro result start
  have noRange : ∀ name first last, Instruction.forRange name first last ∉ misnested := by
    intro name first last
    simp [misnested]
  have through : result 47 = .ok ⟨47, false⟩ := by decide +kernel
  have survives : ¬ start.Crashes misnested := by
    rintro ⟨visits, now, reaches, overflows⟩
    have finishes : Progress.Finishes misnested 47 start := ⟨0, 47, through⟩
    rw [(finishes.of_reaches reaches).2.overflows_eq_false] at overflows
    cases overflows
  exact ⟨noRange, survives,
    (exists_enough_steps noRange {} ⟨0, {}⟩ ({} : Recording)).1 survives, through⟩

/-- The block whose count is the least number has no blocks over a range, and no number of steps is
enough for it. -/
theorem not_exists_enough_steps_least :
    let result := fun budget : Nat =>
      (({ budget := budget } : ScriptEngine).execute leastLoop.flat ⟨0, {}⟩ ({} : Recording)).1
    (∀ name first last, .forRange name first last ∉ leastLoop.flat) ∧
      ¬ ∃ enough : Nat, ∀ budget ≥ enough,
        ∃ run : ScriptRun, result budget = .ok run ∧ run.exhausted = false := by
  intro result
  refine ⟨fun name first last => by simp [leastLoop, Block.flat], ?_⟩
  rintro ⟨enough, returns⟩
  obtain ⟨last, stands, overflows⟩ := reaches_leastLoop
  obtain ⟨run, returned, -⟩ := returns (enough + 2) (Nat.le_add_right _ _)
  have crashed : result (enough + 2) = .error (.crash .overflow) :=
    congrArg (·.1) (stands.runFrom_of_overflows overflows (Nat.lt_add_left enough Nat.one_lt_two))
  rw [crashed] at returned
  cases returned

end Script

end Keyfob
