import Keyfob.Script.Machine

/-!
# Moves of the machine

A machine makes a step except at the end of its program and where a counter is to be counted down
from the least number (`step_eq_none_iff`, `overflows_iff`). What the step does to the open blocks
that repeat is said once for all instructions (`Move`, `move_of_step`). Conditions are left out of
the account: they come and go without leading the machine back. All other blocks are opened at the
place of their body, and only their end leads back there, dropping what is still open inside. So the
bodies of the open blocks always begin at different places, the outer ones first, and none beyond
the machine's own place (`Ordered`).
-/
namespace Keyfob

/-- Only from the least number does counting down leave the range of 32-bit numbers. -/
theorem toInt_sub_one_eq_iff {n : Int32} :
    (n - 1).toInt = n.toInt - 1 ↔ n ≠ Int32.minValue := by
  constructor
  · rintro inside rfl
    exact absurd inside (by decide)
  · intro notLeast
    have low := n.le_toInt
    have high := n.toInt_lt
    have inside : n.toInt ≠ -2 ^ 31 := fun same => notLeast (Int32.toInt_inj.mp same)
    rw [Int32.toInt_sub, show (1 : Int32).toInt = 1 from rfl]
    apply Int.bmod_eq_of_le <;> omega

namespace Frame

/-- Whether a block may run more than once. -/
def repeats : Frame → Bool
  | branch => false
  | _ => true

/-- Where the body of a block that repeats begins. -/
def body? : Frame → Option Nat
  | loop _ body => some body
  | range _ body => some body
  | branch => none

/-- Whether a block is a counted one. -/
def isLoop : Frame → Bool
  | loop _ _ => true
  | _ => false

/-- Whether a block is one over a range. -/
def isRange : Frame → Bool
  | range _ _ => true
  | _ => false

/-- The open blocks that repeat. -/
def repeating (frames : List Frame) : List Frame := frames.filter repeats

/-- Opening a condition opens no block that repeats. -/
theorem repeating_branch (frames : List Frame) :
    repeating (branch :: frames) = repeating frames := List.filter_cons_of_neg nofun

/-- Closing a condition closes no block that repeats. -/
theorem repeating_closeBranch (frames : List Frame) :
    repeating (Machine.closeBranch frames) = repeating frames := by
  unfold Machine.closeBranch
  split
  · exact (repeating_branch _).symm
  · rfl

/-- The innermost counted block is on the stack, and has no other one inside. -/
theorem append_of_innermostLoop {frames around : List Frame} {remaining : Int32} {body : Nat}
    (found : Machine.innermostLoop? frames = some ((remaining, body), around)) :
    ∃ inner, (∀ frame ∈ inner, frame.isLoop = false) ∧
      frames = inner ++ loop remaining body :: around := by
  induction frames with
  | nil => cases found
  | cons frame frames ih =>
    cases frame with
    | loop count place =>
      simp only [Machine.innermostLoop?, Option.some.injEq, Prod.mk.injEq] at found
      obtain ⟨⟨rfl, rfl⟩, rfl⟩ := found
      exact ⟨[], nofun, rfl⟩
    | range name place =>
      obtain ⟨inner, none, rfl⟩ := ih found
      exact ⟨range name place :: inner, List.forall_mem_cons.mpr ⟨rfl, none⟩, rfl⟩
    | branch =>
      obtain ⟨inner, none, rfl⟩ := ih found
      exact ⟨branch :: inner, List.forall_mem_cons.mpr ⟨rfl, none⟩, rfl⟩

/-- The innermost block over a range is on the stack, and has no other one inside. -/
theorem append_of_innermostRange {frames around : List Frame} {name : Text} {body : Nat}
    (found : Machine.innermostRange? frames = some ((name, body), around)) :
    ∃ inner, (∀ frame ∈ inner, frame.isRange = false) ∧
      frames = inner ++ range name body :: around := by
  induction frames with
  | nil => cases found
  | cons frame frames ih =>
    cases frame with
    | range other place =>
      simp only [Machine.innermostRange?, Option.some.injEq, Prod.mk.injEq] at found
      obtain ⟨⟨rfl, rfl⟩, rfl⟩ := found
      exact ⟨[], nofun, rfl⟩
    | loop count place =>
      obtain ⟨inner, none, rfl⟩ := ih found
      exact ⟨loop count place :: inner, List.forall_mem_cons.mpr ⟨rfl, none⟩, rfl⟩
    | branch =>
      obtain ⟨inner, none, rfl⟩ := ih found
      exact ⟨branch :: inner, List.forall_mem_cons.mpr ⟨rfl, none⟩, rfl⟩

/-- Among the blocks that repeat, too, the innermost counted block has no other one inside. -/
theorem repeating_of_innermostLoop {frames around : List Frame} {remaining : Int32} {body : Nat}
    (found : Machine.innermostLoop? frames = some ((remaining, body), around)) :
    ∃ inner, (∀ frame ∈ inner, frame.isLoop = false) ∧
      repeating frames = inner ++ loop remaining body :: repeating around := by
  obtain ⟨inner, none, rfl⟩ := append_of_innermostLoop found
  refine ⟨repeating inner, fun frame listed => none frame (List.mem_filter.mp listed).1, ?_⟩
  exact List.filter_append inner _

/-- So it is with the innermost block over a range. -/
theorem repeating_of_innermostRange {frames around : List Frame} {name : Text} {body : Nat}
    (found : Machine.innermostRange? frames = some ((name, body), around)) :
    ∃ inner, (∀ frame ∈ inner, frame.isRange = false) ∧
      repeating frames = inner ++ range name body :: repeating around := by
  obtain ⟨inner, none, rfl⟩ := append_of_innermostRange found
  refine ⟨repeating inner, fun frame listed => none frame (List.mem_filter.mp listed).1, ?_⟩
  exact List.filter_append inner _

end Frame

namespace Machine

open Keyfob.Frame (repeating)

/-- How a step leads from one machine to another. -/
inductive Move (program : List Instruction) (before after : Machine) : Prop where
  /-- It goes on with the same blocks open. -/
  | onward (place : after.place = before.place + 1)
      (frames : repeating after.frames = repeating before.frames)
  /-- It opens a counted block, with the value that its count has now. -/
  | openLoop {count : Text} (found : program[before.place]? = some (.loop count))
      (acting : before.skipping = 0) (place : after.place = before.place + 1)
      (frames : repeating after.frames =
        .loop (before.memory.evaluate count) (before.place + 1) :: repeating before.frames)
  /-- It opens a block over a range. -/
  | openRange {name first last : Text}
      (found : program[before.place]? = some (.forRange name first last))
      (place : after.place = before.place + 1)
      (frames : repeating after.frames =
        .range name (before.place + 1) :: repeating before.frames)
  /-- It goes back to the body of the innermost counted block. -/
  | againLoop {inner around : List Frame} {remaining : Int32} {body : Nat}
      (innermost : ∀ frame ∈ inner, frame.isLoop = false)
      (opened : repeating before.frames = inner ++ .loop remaining body :: around)
      (notLeast : remaining ≠ Int32.minValue) (left : 0 < remaining - 1)
      (place : after.place = body)
      (frames : repeating after.frames = .loop (remaining - 1) body :: around)
  /-- It leaves the innermost counted block. -/
  | leaveLoop {inner around : List Frame} {remaining : Int32} {body : Nat}
      (innermost : ∀ frame ∈ inner, frame.isLoop = false)
      (opened : repeating before.frames = inner ++ .loop remaining body :: around)
      (spent : ¬0 < remaining - 1) (place : after.place = before.place + 1)
      (frames : repeating after.frames = around)
  /-- It goes back to the body of the innermost block over a range. -/
  | againRange {inner around : List Frame} {name : Text} {body : Nat}
      (innermost : ∀ frame ∈ inner, frame.isRange = false)
      (opened : repeating before.frames = inner ++ .range name body :: around)
      (place : after.place = body)
      (frames : repeating after.frames = .range name body :: around)
  /-- It leaves the innermost block over a range. -/
  | leaveRange {inner around : List Frame} {name : Text} {body : Nat}
      (innermost : ∀ frame ∈ inner, frame.isRange = false)
      (opened : repeating before.frames = inner ++ .range name body :: around)
      (place : after.place = before.place + 1) (frames : repeating after.frames = around)

variable {program : List Instruction} {before after : Machine} {request : Option Request}

/-- A counter leaves its range exactly where the machine is at the end of a counted block whose
innermost counter is the least number. -/
theorem overflows_iff {machine : Machine} :
    machine.overflows program = true ↔
      machine.skipping = 0 ∧ program[machine.place]? = some .endLoop ∧
        ∃ body around,
          innermostLoop? machine.frames = some ((Int32.minValue, body), around) := by
  unfold overflows
  split
  · next remaining body around acting ending innermost =>
    rw [bne_iff_ne, ne_eq, toInt_sub_one_eq_iff, Decidable.not_not]
    constructor
    · rintro rfl
      exact ⟨acting, ending, body, around, innermost⟩
    · rintro ⟨-, -, _, _, least⟩
      rw [innermost] at least
      cases least
      rfl
  · next other =>
    refine iff_of_false nofun ?_
    rintro ⟨acting, ending, body, around, least⟩
    exact other _ _ _ acting ending least

/-- Where a counter leaves its range, the machine is not at the end of the program. -/
theorem place_lt_of_overflows {machine : Machine} (overflows : machine.overflows program = true) :
    machine.place < program.length :=
  (List.getElem?_eq_some_iff.mp (overflows_iff.mp overflows).2.1).1

/-- No counter leaves its range at the end of the program, nor while something is skipped, nor at an
instruction that ends no counted block. -/
theorem overflows_eq_false {machine : Machine}
    (elsewhere : machine.skipping ≠ 0 ∨ program[machine.place]? ≠ some .endLoop) :
    machine.overflows program = false := by
  refine Bool.eq_false_iff.mpr fun overflows => ?_
  obtain ⟨acting, ending, -⟩ := overflows_iff.mp overflows
  exact elsewhere.elim (absurd acting) (absurd ending)

/-- Where no counter leaves its range, the instruction at the machine's place is carried out or
passed over. -/
theorem step_of_get {machine : Machine} {instruction : Instruction}
    (found : program[machine.place]? = some instruction)
    (fits : machine.overflows program = false) :
    machine.step program =
      let moved := { machine with place := machine.place + 1 }
      if machine.skipping = 0 then some (moved.execute instruction)
      else some (moved.skip instruction, none) := by
  rw [step, fits, if_neg Bool.false_ne_true, found]

/-- There is no step just at the end of the program and where a counter leaves its range. -/
theorem step_eq_none_iff {machine : Machine} :
    machine.step program = none ↔
      program.length ≤ machine.place ∨ machine.overflows program = true := by
  rw [← List.getElem?_eq_none_iff, step]
  cases machine.overflows program with
  | true => simp
  | false =>
    cases program[machine.place]? with
    | none => simp
    | some instruction =>
      simp only [Bool.false_eq_true, if_false, reduceCtorEq, or_self, iff_false]
      split <;> exact nofun

/-- A step is made only before the end of the program, and only where no counter leaves its
range. -/
theorem not_ended_of_step (step : before.step program = some (after, request)) :
    before.place < program.length ∧ before.overflows program = false := by
  have going : before.step program ≠ none := by
    rw [step]
    exact nofun
  rw [ne_eq, step_eq_none_iff, not_or, Nat.not_le, Bool.not_eq_true] at going
  exact going

/-- A step carries out the instruction at the machine's place, or passes over it. -/
theorem step_cases (step : before.step program = some (after, request)) :
    ∃ instruction, program[before.place]? = some instruction ∧
      ((before.skipping = 0 ∧
          after = ({ before with place := before.place + 1 }.execute instruction).1) ∨
        (before.skipping ≠ 0 ∧
          after = { before with place := before.place + 1 }.skip instruction)) := by
  obtain ⟨inside, fits⟩ := not_ended_of_step step
  have found := List.getElem?_eq_getElem inside
  refine ⟨_, found, ?_⟩
  rw [step_of_get found fits] at step
  dsimp only at step
  split at step
  · next acting =>
    have done := congrArg (Option.map Prod.fst) step
    simp only [Option.map_some, Option.some.injEq] at done
    exact .inl ⟨acting, done.symm⟩
  · next skipped =>
    simp only [Option.some.injEq, Prod.mk.injEq] at step
    exact .inr ⟨skipped, step.1.symm⟩

/-- Passing over an instruction opens and closes conditions only. -/
theorem move_of_skip (instruction : Instruction) :
    Move program before ({ before with place := before.place + 1 }.skip instruction) := by
  cases instruction with
  | otherwise =>
    refine .onward ?_ ?_ <;>
      · unfold skip
        dsimp only
        split <;> rfl
  | endIf =>
    refine .onward rfl ?_
    unfold skip
    dsimp only
    split
    · exact Frame.repeating_closeBranch _
    · rfl
  | _ => exact .onward rfl rfl

/-- The end of a counted block leads back to the innermost one, or leaves it, or closes nothing. -/
theorem move_of_endLoop (acting : before.skipping = 0)
    (ending : program[before.place]? = some .endLoop)
    (fits : before.overflows program = false) :
    Move program before { before with place := before.place + 1 }.endLoop := by
  unfold endLoop
  cases found : innermostLoop? before.frames with
  | none => exact .onward rfl rfl
  | some result =>
    obtain ⟨⟨remaining, body⟩, around⟩ := result
    obtain ⟨inner, innermost, opened⟩ := Frame.repeating_of_innermostLoop found
    have notLeast : remaining ≠ Int32.minValue := by
      rintro rfl
      have overflows := overflows_iff.mpr ⟨acting, ending, body, around, found⟩
      rw [fits] at overflows
      cases overflows
    dsimp only
    split
    · next left =>
      exact .againLoop innermost opened notLeast left rfl (List.filter_cons_of_pos rfl)
    · next spent => exact .leaveLoop innermost opened spent rfl rfl

/-- The end of a block over a range leads back to the innermost one, or leaves it, or closes
nothing. -/
theorem move_of_next : Move program before { before with place := before.place + 1 }.next := by
  unfold next
  cases found : innermostRange? before.frames with
  | none => exact .onward rfl rfl
  | some result =>
    obtain ⟨⟨name, body⟩, around⟩ := result
    obtain ⟨inner, innermost, opened⟩ := Frame.repeating_of_innermostRange found
    dsimp only
    split
    · exact .againRange innermost opened rfl (List.filter_cons_of_pos rfl)
    · exact .leaveRange innermost opened rfl rfl

/-- Every step is one of the moves. -/
theorem move_of_step (step : before.step program = some (after, request)) :
    Move program before after := by
  obtain ⟨instruction, found, ⟨acting, rfl⟩ | ⟨-, rfl⟩⟩ := step_cases step
  · cases instruction with
    | ifThen condition => exact .onward rfl (Frame.repeating_branch _)
    | otherwise =>
      refine .onward ?_ ?_ <;>
        · unfold execute
          dsimp only
          split <;> rfl
    | endIf => exact .onward rfl (Frame.repeating_closeBranch _)
    | loop count => exact .openLoop found acting rfl (List.filter_cons_of_pos rfl)
    | endLoop => exact move_of_endLoop acting found (not_ended_of_step step).2
    | forRange name first last => exact .openRange found rfl (List.filter_cons_of_pos rfl)
    | next => exact move_of_next
    | _ => exact .onward rfl rfl
  · exact move_of_skip instruction

/-- Where a block comes from that is open after a step. -/
inductive Origin (program : List Instruction) (before : Machine) (frame : Frame) : Prop where
  /-- It was open before the step. -/
  | older (listed : frame ∈ repeating before.frames)
  /-- The step has opened it, as a counted block. -/
  | openedLoop {count : Text} (found : program[before.place]? = some (.loop count))
      (acting : before.skipping = 0)
      (opened : frame = .loop (before.memory.evaluate count) (before.place + 1))
  /-- The step has opened it, as a block over a range. -/
  | openedRange {name first last : Text}
      (found : program[before.place]? = some (.forRange name first last))
      (opened : frame = .range name (before.place + 1))
  /-- The step has counted it down, and rounds are left. -/
  | counted {remaining : Int32} {body : Nat} (left : 0 < remaining)
      (counted : frame = .loop remaining body)

/-- Every block that is open after a step has one of these origins. -/
theorem Move.origin (move : Move program before after) {frame : Frame}
    (listed : frame ∈ repeating after.frames) : Origin program before frame := by
  cases move with
  | onward place frames =>
    rw [frames] at listed
    exact .older listed
  | openLoop found acting place frames =>
    rw [frames] at listed
    rcases List.mem_cons.mp listed with opened | older
    · exact .openedLoop found acting opened
    · exact .older older
  | openRange found place frames =>
    rw [frames] at listed
    rcases List.mem_cons.mp listed with opened | older
    · exact .openedRange found opened
    · exact .older older
  | againLoop innermost opened notLeast left place frames =>
    rw [frames] at listed
    rcases List.mem_cons.mp listed with counted | around
    · exact .counted left counted
    · exact .older (opened ▸ List.mem_append_right _ (List.mem_cons_of_mem _ around))
  | againRange innermost opened place frames =>
    rw [frames] at listed
    exact .older (opened ▸ List.mem_append_right _ listed)
  | leaveLoop innermost opened spent place frames | leaveRange innermost opened place frames =>
    rw [frames] at listed
    exact .older (opened ▸ List.mem_append_right _ (List.mem_cons_of_mem _ listed))

/-! ## The order of the open blocks -/

/-- Where the bodies of the open blocks begin, the innermost first. -/
def bodies (machine : Machine) : List Nat := (repeating machine.frames).filterMap Frame.body?

/-- The bodies of the open blocks begin at different places, the outer ones before the inner ones,
and none beyond the place of the machine. -/
structure Ordered (machine : Machine) : Prop where
  /-- No body begins beyond the place of the machine. -/
  le_place : ∀ body ∈ machine.bodies, body ≤ machine.place
  /-- Each body begins behind those of the blocks around it. -/
  outward : machine.bodies.Pairwise (· > ·)

/-- A machine with no open block is in order. -/
theorem ordered_of_closed {machine : Machine} (closed : machine.frames = []) :
    machine.Ordered := by
  have none : machine.bodies = [] := by
    rw [bodies, closed]
    rfl
  constructor
  · rw [none]
    exact nofun
  · rw [none]
    exact List.Pairwise.nil

/-- The bodies of the block that a step ends and of those around it are open before the step. -/
theorem sublist_bodies {inner around : List Frame} {frame : Frame} {body : Nat}
    (begins : frame.body? = some body)
    (opened : repeating before.frames = inner ++ frame :: around) :
    (body :: around.filterMap Frame.body?).Sublist before.bodies := by
  rw [bodies, opened, List.filterMap_append, List.filterMap_cons_some begins]
  exact List.sublist_append_right _ _

/-- The body of a block that is open begins no further than where the machine is. -/
theorem Ordered.body_le (ordered : before.Ordered) {inner around : List Frame} {frame : Frame}
    {body : Nat} (begins : frame.body? = some body)
    (opened : repeating before.frames = inner ++ frame :: around) : body ≤ before.place :=
  ordered.le_place body ((sublist_bodies begins opened).subset List.mem_cons_self)

/-- Going on by one place keeps the order of whatever is still open. -/
theorem Ordered.further (ordered : before.Ordered) (place : after.place = before.place + 1)
    (still : after.bodies.Sublist before.bodies) : after.Ordered where
  le_place body listed := by
    have bound := ordered.le_place body (still.subset listed)
    omega
  outward := ordered.outward.sublist still

/-- Opening a block puts its body behind all others. -/
theorem Ordered.opening (ordered : before.Ordered) (place : after.place = before.place + 1)
    (opened : after.bodies = (before.place + 1) :: before.bodies) : after.Ordered where
  le_place body listed := by
    rw [opened] at listed
    rcases List.mem_cons.mp listed with rfl | outer
    · exact Nat.le_of_eq place.symm
    · have bound := ordered.le_place body outer
      omega
  outward := by
    rw [opened]
    exact List.pairwise_cons.mpr
      ⟨fun body outer => Nat.lt_succ_of_le (ordered.le_place body outer), ordered.outward⟩

/-- Going back to the body of a block that is still open closes only what is inside it. -/
theorem Ordered.back (ordered : before.Ordered) (still : after.bodies.Sublist before.bodies)
    (innermost : after.bodies.head? = some after.place) : after.Ordered := by
  have outward := ordered.outward.sublist still
  obtain ⟨around, opened⟩ := List.head?_eq_some_iff.mp innermost
  refine ⟨fun body listed => ?_, outward⟩
  rw [opened] at outward listed
  rcases List.mem_cons.mp listed with rfl | outer
  · exact Nat.le_refl _
  · exact Nat.le_of_lt (List.rel_of_pairwise_cons outward outer)

/-- A step keeps the open blocks in order. -/
theorem Move.ordered (move : Move program before after) (ordered : before.Ordered) :
    after.Ordered := by
  cases move with
  | onward place frames =>
    refine ordered.further place ?_
    rw [bodies, frames]
    exact List.Sublist.refl _
  | openLoop found acting place frames | openRange found place frames =>
    refine ordered.opening place ?_
    rw [bodies, frames]
    exact List.filterMap_cons_some rfl
  | againLoop innermost opened notLeast left place frames
  | againRange innermost opened place frames =>
    have reopened := congrArg (List.filterMap Frame.body?) frames
    refine ordered.back ?_ ?_
    · rw [bodies, reopened]
      exact sublist_bodies rfl opened
    · rw [bodies, reopened, place]
      rfl
  | leaveLoop innermost opened spent place frames | leaveRange innermost opened place frames =>
    refine ordered.further place ?_
    rw [bodies, frames]
    exact (List.sublist_cons_self _ _).trans (sublist_bodies rfl opened)

end Machine

end Keyfob
