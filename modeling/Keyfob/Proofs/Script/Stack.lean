import Mathlib.Data.List.Forall2
import Keyfob.Proofs.Script.Moves

/-!
# The height of the stack

Blocks may be nested in any wrong way: branches that are never closed, ends that drop blocks of
another kind, jumps back over openings. The stack of open blocks is low nevertheless. Each block on
it was opened by an instruction that stands behind the openings of all blocks around it and before
the machine's own place, since the end of a round leads back only to the place behind the opening of
a block that is then the innermost one (`Shift`, `Stacked`). So it holds no more blocks than the
program has instructions that open one; and conditions are skipped only inside a branch that is
open, no more of them than the program has (`Script.stack_of_run`).
-/
namespace Keyfob

namespace Instruction

/-- Whether an instruction is a condition. -/
def isCondition : Instruction → Bool
  | ifThen _ => true
  | _ => false

/-- Whether an instruction opens a block. -/
def opensBlock : Instruction → Bool
  | ifThen _ => true
  | loop _ => true
  | forRange _ _ _ => true
  | _ => false

end Instruction

/-- The instruction at a place of a program opens a block as it is open now: one of its kind and
variable, whose body begins behind the instruction. -/
inductive Frame.OpenedAt (program : List Instruction) (place : Nat) : Frame → Prop where
  /-- A condition opens a branch. -/
  | branch {condition : Text} (found : program[place]? = some (.ifThen condition)) :
    OpenedAt program place .branch
  /-- A count opens a counted block, of which any number of rounds may remain by now. -/
  | loop {count : Text} (remaining : Int32) (found : program[place]? = some (.loop count)) :
    OpenedAt program place (.loop remaining (place + 1))
  /-- A range opens a block over it. -/
  | range {name first last : Text} (found : program[place]? = some (.forRange name first last)) :
    OpenedAt program place (.range name (place + 1))

/-- What opens a block is an instruction that opens one. -/
theorem Frame.OpenedAt.opensBlock {program : List Instruction} {place : Nat} {frame : Frame}
    (opened : frame.OpenedAt program place) :
    ∃ instruction, program[place]? = some instruction ∧ instruction.opensBlock = true := by
  cases opened with
  | branch found => exact ⟨_, found, rfl⟩
  | loop remaining found => exact ⟨_, found, rfl⟩
  | range found => exact ⟨_, found, rfl⟩

namespace Machine

/-- The places where the open blocks were opened, the innermost first, after a step from one machine
to another: a block that the step opens was opened at the place of the step, and those that are
still open keep their places. -/
def openings (before after : Machine) (places : List Nat) : List Nat :=
  if before.frames.length < after.frames.length then before.place :: places
  else places.drop (before.frames.length - after.frames.length)

/-- A run of a program comes to a machine, and the blocks that are open then were opened at some
places, the innermost first. -/
inductive Reached (program : List Instruction) (memory : Variables) :
    Machine → List Nat → Prop where
  /-- At the beginning no block is open. -/
  | start : Reached program memory { memory := memory } []
  /-- One step more. -/
  | step {before after : Machine} {places : List Nat} {request : Option Request}
    (earlier : Reached program memory before places)
    (stepped : before.step program = some (after, request)) :
    Reached program memory after (before.openings after places)

/-! ## What a step does to the stack -/

/-- Closing a condition takes at most the innermost block from the stack. -/
theorem append_closeBranch (frames : List Frame) :
    ∃ inner, frames = inner ++ closeBranch frames := by
  unfold closeBranch
  split
  · exact ⟨[.branch], rfl⟩
  · exact ⟨[], rfl⟩

/-- How a step changes the stack and what is skipped. -/
inductive Shift (program : List Instruction) (before after : Machine) : Prop where
  /-- It goes on with the same blocks open, and skips no more than before. -/
  | onward (place : after.place = before.place + 1) (frames : after.frames = before.frames)
      (skipping : after.skipping ≤ before.skipping)
  /-- It passes over a condition inside one that is skipped. -/
  | deeper {condition : Text} (found : program[before.place]? = some (.ifThen condition))
      (skipped : 0 < before.skipping) (place : after.place = before.place + 1)
      (frames : after.frames = before.frames) (skipping : after.skipping = before.skipping + 1)
  /-- Inside a branch it begins to skip the other one. -/
  | other (top : before.frames.head? = some .branch) (place : after.place = before.place + 1)
      (frames : after.frames = before.frames) (skipping : after.skipping = 1)
  /-- It opens a block, which is skipped only if it is a branch. -/
  | opening {frame : Frame} (opened : frame.OpenedAt program before.place)
      (place : after.place = before.place + 1) (frames : after.frames = frame :: before.frames)
      (skipping : after.skipping = 0 ∨ frame = .branch ∧ after.skipping = 1)
  /-- It closes blocks and goes on. -/
  | closing {inner : List Frame} (opened : before.frames = inner ++ after.frames)
      (place : after.place = before.place + 1) (skipping : after.skipping = 0)
  /-- It goes back to the place behind the opening of a block, and closes those inside it. -/
  | back {inner around : List Frame} {frame again : Frame}
      (opened : before.frames = inner ++ frame :: around) (frames : after.frames = again :: around)
      (same : ∀ place, frame.OpenedAt program place →
        again.OpenedAt program place ∧ after.place = place + 1)
      (skipping : after.skipping = 0)

variable {program : List Instruction} {before after : Machine} {request : Option Request}

/-- What passing over an instruction does to the stack. -/
theorem shift_of_skip {instruction : Instruction}
    (found : program[before.place]? = some instruction) (skipped : before.skipping ≠ 0) :
    Shift program before ({ before with place := before.place + 1 }.skip instruction) := by
  cases instruction with
  | ifThen condition => exact .deeper found (Nat.pos_of_ne_zero skipped) rfl rfl rfl
  | otherwise =>
    by_cases last : before.skipping = 1
    · have passed : ({ before with place := before.place + 1 } : Machine).skip .otherwise =
          { before with place := before.place + 1, skipping := 0 } := if_pos last
      rw [passed]
      exact .onward rfl rfl (Nat.zero_le _)
    · have passed : ({ before with place := before.place + 1 } : Machine).skip .otherwise =
          { before with place := before.place + 1 } := if_neg last
      rw [passed]
      exact .onward rfl rfl (Nat.le_refl _)
  | endIf =>
    by_cases last : before.skipping = 1
    · obtain ⟨inner, closed⟩ := append_closeBranch before.frames
      have frames : (({ before with place := before.place + 1 } : Machine).skip .endIf).frames =
          closeBranch before.frames := if_pos last
      have skipping : before.skipping - 1 = 0 := by omega
      exact .closing (frames.symm ▸ closed) rfl skipping
    · exact .onward rfl (if_neg last) (Nat.sub_le _ _)
  | _ => exact .onward rfl rfl (Nat.le_refl _)

section Acting

variable (acting : before.skipping = 0)

include acting

/-- What the end of a counted block does to the stack. -/
theorem shift_of_endLoop :
    Shift program before { before with place := before.place + 1 }.endLoop := by
  unfold endLoop
  cases found : innermostLoop? before.frames with
  | none => exact .onward rfl rfl (Nat.le_refl _)
  | some result =>
    obtain ⟨⟨remaining, body⟩, around⟩ := result
    obtain ⟨inner, -, opened⟩ := Frame.append_of_innermostLoop found
    dsimp only
    split
    · refine .back opened rfl ?_ acting
      rintro place (_ | ⟨_, there⟩)
      exact ⟨.loop (remaining - 1) there, rfl⟩
    · have closed : before.frames = (inner ++ [.loop remaining body]) ++ around := by
        rw [opened, List.append_assoc]
        rfl
      exact .closing closed rfl acting

/-- What the end of a block over a range does to the stack. -/
theorem shift_of_next : Shift program before { before with place := before.place + 1 }.next := by
  unfold next
  cases found : innermostRange? before.frames with
  | none => exact .onward rfl rfl (Nat.le_refl _)
  | some result =>
    obtain ⟨⟨name, body⟩, around⟩ := result
    obtain ⟨inner, -, opened⟩ := Frame.append_of_innermostRange found
    dsimp only
    split
    · refine .back opened rfl ?_ acting
      rintro place (_ | _ | there)
      exact ⟨.range there, rfl⟩
    · have closed : before.frames = (inner ++ [.range name body]) ++ around := by
        rw [opened, List.append_assoc]
        rfl
      exact .closing closed rfl acting

/-- What carrying out an instruction does to the stack. -/
theorem shift_of_execute {instruction : Instruction}
    (found : program[before.place]? = some instruction) :
    Shift program before ({ before with place := before.place + 1 }.execute instruction).1 := by
  cases instruction with
  | ifThen condition =>
    refine .opening (.branch found) rfl rfl ?_
    by_cases holds : before.memory.satisfies condition = true
    · exact .inl (if_pos holds)
    · exact .inr ⟨rfl, if_neg holds⟩
  | otherwise =>
    by_cases top : before.frames.head? = some .branch
    · have skips : (({ before with place := before.place + 1 } : Machine).execute .otherwise).1 =
          { before with place := before.place + 1, skipping := 1 } := if_pos top
      rw [skips]
      exact .other top rfl rfl rfl
    · have passes : (({ before with place := before.place + 1 } : Machine).execute .otherwise).1 =
          { before with place := before.place + 1 } := if_neg top
      rw [passes]
      exact .onward rfl rfl (Nat.le_refl _)
  | endIf =>
    obtain ⟨inner, closed⟩ := append_closeBranch before.frames
    exact .closing closed rfl acting
  | loop count => exact .opening (.loop _ found) rfl rfl (.inl acting)
  | endLoop => exact shift_of_endLoop acting
  | forRange name first last => exact .opening (.range found) rfl rfl (.inl acting)
  | next => exact shift_of_next acting
  | _ => exact .onward rfl rfl (Nat.le_refl _)

end Acting

/-- Every step changes the stack in one of these ways. -/
theorem shift_of_step (step : before.step program = some (after, request)) :
    Shift program before after := by
  obtain ⟨instruction, found, ⟨acting, rfl⟩ | ⟨skipped, rfl⟩⟩ := step_cases step
  · exact shift_of_execute acting found
  · exact shift_of_skip found skipped

/-! ## Where the open blocks were opened -/

section Openings

variable {places : List Nat}

/-- A block that a step opens was opened at the place of the step. -/
theorem openings_of_opening {frame : Frame} (frames : after.frames = frame :: before.frames) :
    before.openings after places = before.place :: places := by
  have higher : before.frames.length < after.frames.length := by
    rw [frames, List.length_cons]
    exact Nat.lt_succ_self _
  exact if_pos higher

/-- The blocks that a step leaves open keep their places, also where one of them has changed. -/
theorem openings_of_append {inner around kept : List Frame}
    (opened : before.frames = inner ++ around) (frames : after.frames = kept)
    (same : kept.length = around.length) :
    before.openings after places = places.drop inner.length := by
  have fewer : before.frames.length = inner.length + after.frames.length := by
    rw [opened, frames, same, List.length_append]
  rw [openings, if_neg (by omega), fewer, Nat.add_sub_cancel]

/-- While the same blocks are open, the places are the same. -/
theorem openings_of_same (frames : after.frames = before.frames) :
    before.openings after places = places :=
  openings_of_append (List.nil_append before.frames).symm frames rfl

end Openings

/-- The state of the stack: where its blocks were opened, and how much is skipped. -/
structure Stacked (program : List Instruction) (machine : Machine) (places : List Nat) : Prop where
  /-- Each block was opened behind the blocks around it. -/
  outward : places.Pairwise (· > ·)
  /-- All of them were opened before the place of the machine. -/
  before_place : ∀ place ∈ places, place < machine.place
  /-- They are what the instructions at these places open. -/
  opened : List.Forall₂ (fun place frame => frame.OpenedAt program place) places machine.frames
  /-- Something is skipped only inside a branch. -/
  inside : 0 < machine.skipping → machine.frames.head? = some .branch
  /-- No more conditions are skipped than stand before the place of the machine. -/
  skipped : machine.skipping ≤ (program.take machine.place).countP Instruction.isCondition

namespace Stacked

variable {places : List Nat}

/-- No block is open at the beginning. -/
theorem start (program : List Instruction) (memory : Variables) :
    Stacked program { memory := memory } [] where
  outward := .nil
  before_place := nofun
  opened := .nil
  inside := nofun
  skipped := Nat.zero_le _

/-- There are no fewer conditions before a later place. -/
theorem countP_take_le (program : List Instruction) (counts : Instruction → Bool) (place : Nat) :
    (program.take place).countP counts ≤ (program.take (place + 1)).countP counts := by
  rw [List.take_add_one, List.countP_append]
  exact Nat.le_add_right _ _

/-- An instruction that counts is one more. -/
theorem countP_take_of_found (counts : Instruction → Bool) {place : Nat} {instruction : Instruction}
    (found : program[place]? = some instruction) (counted : counts instruction = true) :
    (program.take (place + 1)).countP counts = (program.take place).countP counts + 1 := by
  rw [List.take_add_one, List.countP_append, found, Option.toList_some,
    List.countP_singleton, if_pos counted]

/-- The innermost block that is still open was opened at the first of the places that are left. -/
theorem drop (stacked : Stacked program before places) {inner around : List Frame}
    (opened : before.frames = inner ++ around) :
    (places.drop inner.length).Pairwise (· > ·) ∧
      (∀ place ∈ places.drop inner.length, place < before.place) ∧
      List.Forall₂ (fun place frame => Frame.OpenedAt program place frame)
        (places.drop inner.length) around := by
  have left := List.forall₂_drop inner.length stacked.opened
  rw [opened, List.drop_left] at left
  exact ⟨stacked.outward.drop, fun place listed =>
    stacked.before_place place (List.mem_of_mem_drop listed), left⟩

/-- Inside a branch, one condition at least stands before the place of the machine. -/
theorem countP_pos (stacked : Stacked program before places)
    (top : before.frames.head? = some .branch) :
    0 < (program.take before.place).countP Instruction.isCondition := by
  obtain ⟨outer, branch⟩ := List.head?_eq_some_iff.mp top
  have opened := stacked.opened
  rw [branch] at opened
  cases opened with
  | cons first others =>
    cases first with
    | @branch condition found =>
      have earlier := stacked.before_place _ List.mem_cons_self
      rw [← List.getElem?_take_of_lt earlier] at found
      exact List.countP_pos_iff.mpr ⟨.ifThen condition, List.mem_of_getElem? found, rfl⟩

/-- Going on by one place with no more skipped than before keeps the count of what is skipped. -/
theorem skipped_onward (stacked : Stacked program before places)
    (place : after.place = before.place + 1) (less : after.skipping ≤ before.skipping) :
    after.skipping ≤ (program.take after.place).countP Instruction.isCondition := by
  have more := countP_take_le program Instruction.isCondition before.place
  have held := stacked.skipped
  rw [place]
  omega

end Stacked

/-- A step keeps the stack in this state. -/
theorem Shift.stacked {places : List Nat} (shift : Shift program before after)
    (stacked : Stacked program before places) :
    Stacked program after (before.openings after places) := by
  have later (place : Nat) (next : after.place = before.place + 1) (listed : place ∈ places) :
      place < after.place := by
    have earlier := stacked.before_place place listed
    omega
  cases shift with
  | onward place frames skipping =>
    rw [openings_of_same frames]
    refine ⟨stacked.outward, fun _ => later _ place, frames ▸ stacked.opened, fun skips => ?_,
      stacked.skipped_onward place skipping⟩
    rw [frames]
    exact stacked.inside (Nat.lt_of_lt_of_le skips skipping)
  | deeper found skipped place frames skipping =>
    rw [openings_of_same frames]
    refine ⟨stacked.outward, fun _ => later _ place, frames ▸ stacked.opened, fun _ => ?_, ?_⟩
    · rw [frames]
      exact stacked.inside skipped
    · rw [place, skipping, Stacked.countP_take_of_found Instruction.isCondition found rfl]
      exact Nat.succ_le_succ stacked.skipped
  | other top place frames skipping =>
    rw [openings_of_same frames]
    refine ⟨stacked.outward, fun _ => later _ place, frames ▸ stacked.opened, fun _ => ?_, ?_⟩
    · rw [frames]
      exact top
    · have more := Stacked.countP_take_le program Instruction.isCondition before.place
      have one := stacked.countP_pos top
      rw [place]
      omega
  | opening opened place frames skipping =>
    rw [openings_of_opening frames]
    refine ⟨List.pairwise_cons.mpr ⟨stacked.before_place, stacked.outward⟩, fun each listed => ?_,
      frames ▸ .cons opened stacked.opened, fun skips => ?_, ?_⟩
    · rcases List.mem_cons.mp listed with rfl | older
      · omega
      · exact later each place older
    · rcases skipping with none' | ⟨rfl, -⟩
      · omega
      · rw [frames]
        rfl
    · rcases skipping with none' | ⟨rfl, one⟩
      · omega
      · cases opened with
        | branch found =>
          have counted := Stacked.countP_take_of_found Instruction.isCondition found rfl
          rw [place]
          omega
  | closing opened place skipping =>
    obtain ⟨outward, earlier, left⟩ := stacked.drop opened
    rw [openings_of_append opened rfl rfl]
    refine ⟨outward, fun each listed => ?_, left, ?_, ?_⟩
    · have inside := earlier each listed
      omega
    · omega
    · omega
  | back opened frames same skipping =>
    obtain ⟨outward, -, left⟩ := stacked.drop opened
    rw [openings_of_append opened frames rfl]
    generalize places.drop _ = kept at outward left
    cases left with
    | cons first others =>
      obtain ⟨again, behind⟩ := same _ first
      refine ⟨outward, fun each listed => ?_, frames ▸ .cons again others, ?_, ?_⟩
      · rcases List.mem_cons.mp listed with rfl | outer
        · omega
        · have around := List.rel_of_pairwise_cons outward outer
          omega
      · omega
      · omega

/-- So the stack is in this state in every state of a run. -/
theorem Reached.stacked {memory : Variables} {machine : Machine} {places : List Nat}
    (reached : Reached program memory machine places) : Stacked program machine places := by
  induction reached with
  | start => exact .start program memory
  | step earlier stepped ih => exact (shift_of_step stepped).stacked ih

/-- Places of a program that go down and at which something stands that counts are no more than so
many that count stand before a bound on them. -/
theorem length_le_countP {counts : Instruction → Bool} {places : List Nat}
    (outward : places.Pairwise (· > ·))
    (counted : ∀ place ∈ places, ∃ instruction, program[place]? = some instruction ∧
      counts instruction = true) {bound : Nat} (below : ∀ place ∈ places, place < bound) :
    places.length ≤ (program.take bound).countP counts := by
  induction places generalizing bound with
  | nil => exact Nat.zero_le _
  | cons place places ih =>
    obtain ⟨inner, outer⟩ := List.pairwise_cons.mp outward
    obtain ⟨⟨instruction, found, counts'⟩, others⟩ := List.forall_mem_cons.mp counted
    have fewer := ih outer others inner
    have one := Stacked.countP_take_of_found counts found counts'
    have front : (program.take (place + 1)).Sublist (program.take bound) :=
      List.take_sublist_take_left (below place List.mem_cons_self)
    have most := front.countP_le (p := counts)
    rw [List.length_cons]
    omega

/-- The stack is no higher than the number of instructions that open a block. -/
theorem Stacked.length_le {machine : Machine} {places : List Nat}
    (stacked : Stacked program machine places) :
    machine.frames.length ≤ program.countP Instruction.opensBlock := by
  have counted : ∀ place ∈ places, ∃ instruction, program[place]? = some instruction ∧
      instruction.opensBlock = true :=
    ((List.forall₂_and_left places machine.frames).mp
      (stacked.opened.imp fun place frame opened => ⟨opened.opensBlock, opened⟩)).1
  have fewer := length_le_countP stacked.outward counted stacked.before_place
  have most : (program.take machine.place).countP Instruction.opensBlock ≤
      program.countP Instruction.opensBlock := (List.take_sublist machine.place program).countP_le
  rw [← stacked.opened.length_eq]
  exact Nat.le_trans fewer most

end Machine

namespace Script

variable {δ : Type} [Device δ]

/-- Whatever machine a run leaves is one that the program's steps come to. -/
theorem reached_of_runFrom {program : List Instruction} {memory : Variables} (steps budget : Nat)
    {machine : Machine} {places : List Nat}
    (reached : Machine.Reached program memory machine places) (engine : MacroEngine)
    (device : δ) :
    ∃ later, Machine.Reached program memory
      (runFrom program steps budget machine engine device).2.1 later := by
  induction budget generalizing steps machine places engine device with
  | zero => exact ⟨places, reached⟩
  | succ budget ih =>
    rw [runFrom]
    cases stepped : machine.step program with
    | none => exact ⟨places, reached⟩
    | some result =>
      obtain ⟨next, wanted⟩ := result
      have further := reached.step stepped
      cases wanted with
      | none => exact ih (steps + 1) further engine device
      | some request =>
        dsimp only
        split
        · exact ih (steps + 1) further _ _
        · exact ⟨_, further⟩

/-- In every state that a program comes to, after any number of steps from whatever variables and
on whatever device, however its block words are nested: the open blocks were opened at places that
go up from the outermost to the innermost one, all before the machine's own place and each by an
instruction of the block's kind; so there are no more of them than the program has instructions
that open one. While conditions are skipped the innermost open block is a branch, and no more are
skipped than the program has. -/
theorem stack_of_run (program : List Instruction) (memory : Variables) (budget : Nat)
    (engine : MacroEngine) (device : δ) :
    let machine := (runFrom program 0 budget { memory := memory } engine device).2.1
    (∃ places, Machine.Reached program memory machine places ∧
      places.Pairwise (· > ·) ∧ (∀ place ∈ places, place < machine.place) ∧
      List.Forall₂ (fun place frame => Frame.OpenedAt program place frame)
        places machine.frames) ∧
    machine.frames.length ≤ program.countP Instruction.opensBlock ∧
    (0 < machine.skipping → machine.frames.head? = some .branch ∧
      machine.skipping ≤ program.countP Instruction.isCondition) := by
  intro machine
  obtain ⟨places, reached⟩ :=
    reached_of_runFrom 0 budget (Machine.Reached.start : Machine.Reached program memory _ [])
      engine device
  have stacked : Machine.Stacked program machine places := reached.stacked
  refine ⟨⟨places, reached, stacked.outward, stacked.before_place, stacked.opened⟩,
    stacked.length_le, fun skips => ⟨stacked.inside skips, ?_⟩⟩
  have most : (program.take machine.place).countP Instruction.isCondition ≤
      program.countP Instruction.isCondition := (List.take_sublist machine.place program).countP_le
  exact Nat.le_trans stacked.skipped most

end Script

end Keyfob
