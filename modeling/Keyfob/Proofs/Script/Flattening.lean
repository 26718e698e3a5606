import Keyfob.Hid.Recording
import Keyfob.Proofs.Hid.Dependable
import Keyfob.Proofs.Script.Block
import Keyfob.Proofs.Script.Moves

/-!
# Running a flattened block

The machine on the instructions of a block does what the block's meaning says. A run on a
device that refuses nothing is followed visit by visit (`Progress.advance`), so that parts of a
run compose; a block is then run from any place and under any stack (`reaches_of_runs`), and is
passed over from any depth (`reaches_of_skipping`). The converse needs the budget: a run that
finishes within it has a finite course through the block (`runs_of_finishes`).
-/
namespace Keyfob.Script

/-! ## Rounds -/

/-- While counting down leaves something, one more round is to come. -/
theorem rounds_of_pos {count : Int32} (notLeast : count ≠ Int32.minValue) (left : 0 < count - 1) :
    rounds count = rounds (count - 1) + 1 := by
  have step := toInt_sub_one_eq_iff.mpr notLeast
  rw [Int32.lt_iff_toInt_lt, step, show (0 : Int32).toInt = 0 from rfl] at left
  rw [rounds, rounds, step]
  omega

/-- When counting down leaves nothing, the round was the last. -/
theorem rounds_of_not_pos {count : Int32} (spent : ¬ 0 < count - 1) : rounds count = 1 := by
  have notLeast : count ≠ Int32.minValue := by
    intro least
    subst least
    exact spent (by decide)
  rw [Int32.lt_iff_toInt_lt, toInt_sub_one_eq_iff.mpr notLeast,
    show (0 : Int32).toInt = 0 from rfl] at spent
  rw [rounds]
  omega

/-- A counted block runs at least once. -/
theorem rounds_ne_zero (count : Int32) : rounds count ≠ 0 :=
  Nat.ne_of_gt (Nat.le_max_left 1 _)

/-- A counter of which something is left is not the least number. -/
theorem ne_minValue_of_pos {count : Int32} (left : 0 < count) : count ≠ Int32.minValue := by
  rintro rfl
  exact absurd left (by decide)

/-! ## Code in a program -/

/-- Some instructions stand in a program from a place on. -/
def Located (program : List Instruction) (place : Nat) (code : List Instruction) : Prop :=
  code <+: program.drop place

/-- A program stands in itself from its beginning on. -/
theorem located_self (program : List Instruction) : Located program 0 program := by
  simp [Located]

/-- The first of two parts stands where both do. -/
theorem Located.left {program first second : List Instruction} {place : Nat}
    (located : Located program place (first ++ second)) : Located program place first :=
  (List.prefix_append first second).trans located

/-- The second of two parts stands behind the first. -/
theorem Located.right {program first second : List Instruction} {place : Nat}
    (located : Located program place (first ++ second)) :
    Located program (place + first.length) second := by
  obtain ⟨rest, split⟩ := located
  refine ⟨rest, ?_⟩
  rw [← List.drop_drop, ← split, List.append_assoc, List.drop_left]

/-- The instruction at the place of one that stands there. -/
theorem Located.get {program : List Instruction} {instruction : Instruction} {place : Nat}
    (located : Located program place [instruction]) : program[place]? = some instruction := by
  obtain ⟨rest, split⟩ := located
  have first := congrArg (·[0]?) split
  simpa using first.symm

/-- What stands between an opening and a closing instruction. -/
theorem Located.between {program body : List Instruction} {opening closing : Instruction}
    {place : Nat} (located : Located program place ([opening] ++ body ++ [closing])) :
    program[place]? = some opening ∧ Located program (place + 1) body ∧
      program[place + 1 + body.length]? = some closing := by
  have ending := located.right.get
  rw [List.length_append, ← Nat.add_assoc] at ending
  exact ⟨located.left.left.get, located.left.right, ending⟩

/-! ## Runs visit by visit -/

/-- How far a run of a script has come. -/
structure Progress (δ : Type) where
  /-- The machine. -/
  machine : Machine
  /-- What runs macro text. -/
  engine : MacroEngine
  /-- The device. -/
  device : δ

/-- The progress of a run that stands at a place under some open blocks. -/
def Scene.standing {δ : Type} (scene : Scene δ) (place : Nat) (frames : List Frame)
    (skipping : Nat) : Progress δ :=
  ⟨⟨place, frames, skipping, scene.memory⟩, scene.engine, scene.device⟩

namespace Progress

variable {δ : Type} [Device δ]

/-- Do what a step wants on a device that refuses nothing. -/
def fulfil (progress : Progress δ) (machine : Machine) : Option Request → Progress δ
  | none => { progress with machine := machine }
  | some request =>
    let (_, engine, device) := request.perform progress.engine progress.device
    ⟨machine, engine, device⟩

/-- Visit one instruction, if there is a step to make. -/
def advance (program : List Instruction) (progress : Progress δ) : Option (Progress δ) :=
  (progress.machine.step program).map fun (machine, request) => progress.fulfil machine request

/-- A run comes from one progress to another by a number of visits. -/
def Reaches (program : List Instruction) : Nat → Progress δ → Progress δ → Prop
  | 0, before, after => before = after
  | visits + 1, before, after =>
    ∃ middle, before.advance program = some middle ∧ Reaches program visits middle after

/-- No visit. -/
theorem reaches_zero (program : List Instruction) (progress : Progress δ) :
    Reaches program 0 progress progress := rfl

/-- One visit. -/
theorem reaches_one {program : List Instruction} {before after : Progress δ}
    (step : before.advance program = some after) : Reaches program 1 before after :=
  ⟨after, step, rfl⟩

/-- One visit and then others. -/
theorem Reaches.cons {program : List Instruction} {visits : Nat} {before middle after : Progress δ}
    (step : before.advance program = some middle) (rest : Reaches program visits middle after) :
    Reaches program (visits + 1) before after :=
  ⟨middle, step, rest⟩

/-- Parts of a run compose. -/
theorem Reaches.trans {program : List Instruction} {visits more : Nat}
    {before middle after : Progress δ} (first : Reaches program visits before middle)
    (second : Reaches program more middle after) :
    Reaches program (visits + more) before after := by
  induction visits generalizing before with
  | zero =>
    obtain rfl := first
    rwa [Nat.zero_add]
  | succ visits ih =>
    obtain ⟨next, step, rest⟩ := first
    rw [Nat.succ_add]
    exact ⟨next, step, ih rest⟩

/-- A run of one visit more has made that visit last. -/
theorem reaches_succ_iff {program : List Instruction} {visits : Nat} {start after : Progress δ} :
    Reaches program (visits + 1) start after ↔
      ∃ middle, Reaches program visits start middle ∧ middle.advance program = some after := by
  constructor
  · intro reaches
    induction visits generalizing start with
    | zero =>
      obtain ⟨next, step, rfl⟩ := reaches
      exact ⟨start, rfl, step⟩
    | succ visits ih =>
      obtain ⟨next, step, rest⟩ := reaches
      obtain ⟨middle, run, last⟩ := ih rest
      exact ⟨middle, ⟨next, step, run⟩, last⟩
  · rintro ⟨middle, run, last⟩
    exact run.trans (reaches_one last)

/-- A device that refuses nothing does whatever a step wants. -/
theorem perform_eq_ok [Accepts δ] (request : Request) (engine : MacroEngine) (device : δ) :
    (request.perform engine device).1 = .ok () := by
  cases request with
  | delay ms => simp [Request.perform, performAll_eq_of_accepts]
  | button held down => simp [Request.perform, performAll_eq_of_accepts]
  | typed t => simp [Request.perform, MacroEngine.run, MacroEngine.perform, drive_eq_of_accepts]

/-- A run with budget left visits an instruction and goes on, or it ends with the program, or with
a counter that leaves its range. -/
theorem runFrom_succ [Accepts δ] (program : List Instruction) (steps budget : Nat)
    (progress : Progress δ) :
    runFrom program steps (budget + 1) progress.machine progress.engine progress.device =
      match progress.advance program with
      | none =>
        (if progress.machine.overflows program then .error (.crash .overflow)
          else .ok ⟨steps, false⟩, progress.machine, progress.engine, progress.device)
      | some next => runFrom program (steps + 1) budget next.machine next.engine next.device := by
  obtain ⟨machine, engine, device⟩ := progress
  rw [runFrom, advance]
  cases outcome : machine.step program with
  | none => rfl
  | some result =>
    obtain ⟨next, wanted⟩ := result
    cases wanted with
    | none => rfl
    | some request =>
      have done := perform_eq_ok request engine device
      cases performed : request.perform engine device with
      | mk answer rest =>
        rw [performed] at done
        subst done
        simp [fulfil, performed]

/-- A run with budget left crashes where a counter leaves its range. -/
theorem runFrom_of_overflows [Accepts δ] {program : List Instruction} {now : Progress δ}
    (overflows : now.machine.overflows program = true) (steps budget : Nat) :
    runFrom program steps (budget + 1) now.machine now.engine now.device =
      (.error (.crash .overflow), now.machine, now.engine, now.device) := by
  have stopped := Machine.step_eq_none_iff.mpr (.inr overflows)
  rw [runFrom_succ, advance, stopped, overflows]
  rfl

/-- A run with enough budget comes to wherever its visits lead. -/
theorem Reaches.runFrom_eq [Accepts δ] {program : List Instruction} {visits : Nat}
    {before after : Progress δ} (reaches : Reaches program visits before after)
    (steps budget : Nat) :
    runFrom program steps (visits + budget) before.machine before.engine before.device =
      runFrom program (steps + visits) budget after.machine after.engine after.device := by
  induction visits generalizing before steps with
  | zero =>
    obtain rfl := reaches
    rw [Nat.zero_add, Nat.add_zero]
  | succ visits ih =>
    obtain ⟨middle, step, rest⟩ := reaches
    rw [Nat.succ_add, runFrom_succ, step]
    have later := ih rest (steps + 1)
    rw [show steps + 1 + visits = steps + (visits + 1) by omega] at later
    exact later

/-- A run comes to the end of the program within a budget. -/
def Finishes (program : List Instruction) (budget : Nat) (progress : Progress δ) : Prop :=
  ∃ steps visited, (runFrom program steps budget progress.machine progress.engine
    progress.device).1 = .ok ⟨visited, false⟩

/-- A visit is a step of the machine. -/
theorem step_of_advance {program : List Instruction} {before after : Progress δ}
    (step : before.advance program = some after) :
    ∃ request, before.machine.step program = some (after.machine, request) := by
  obtain ⟨⟨machine, request⟩, stepped, rfl⟩ := Option.map_eq_some_iff.mp step
  refine ⟨request, stepped.trans ?_⟩
  cases request <;> rfl

/-- A run that finishes is nowhere where a counter leaves its range. -/
theorem Finishes.overflows_eq_false [Accepts δ] {program : List Instruction} {budget : Nat}
    {progress : Progress δ} (finishes : Finishes program budget progress) :
    progress.machine.overflows program = false := by
  refine Bool.eq_false_iff.mpr fun overflows => ?_
  obtain ⟨steps, visited, ended⟩ := finishes
  cases budget with
  | zero =>
    simp [runFrom, Machine.place_lt_of_overflows overflows] at ended
  | succ budget =>
    rw [runFrom_of_overflows overflows] at ended
    cases ended

/-- A run that finishes has budget for every visit it makes, and finishes from wherever those
lead. -/
theorem Finishes.of_reaches [Accepts δ] {program : List Instruction} {visits budget : Nat}
    {before after : Progress δ} (finishes : Finishes program budget before)
    (reaches : Reaches program visits before after) :
    visits ≤ budget ∧ Finishes program (budget - visits) after := by
  induction visits generalizing before budget with
  | zero =>
    obtain rfl := reaches
    exact ⟨Nat.zero_le _, finishes⟩
  | succ visits ih =>
    obtain ⟨middle, step, rest⟩ := reaches
    obtain ⟨steps, visited, ended⟩ := finishes
    cases budget with
    | zero =>
      obtain ⟨request, stepped⟩ := step_of_advance step
      have unfinished := (Machine.not_ended_of_step stepped).1
      simp [runFrom, unfinished] at ended
    | succ budget =>
      rw [runFrom_succ, step] at ended
      obtain ⟨enough, finished⟩ := ih ⟨steps + 1, visited, ended⟩ rest
      refine ⟨Nat.succ_le_succ enough, ?_⟩
      rwa [Nat.succ_sub_succ]

/-! ## Single visits -/

variable {program : List Instruction} {place : Nat} {instruction : Instruction}

/-- A visit where nothing is skipped carries the instruction out, unless it ends a counted
block. -/
theorem advance_of_get (located : program[place]? = some instruction)
    (other : instruction ≠ .endLoop) (scene : Scene δ) (frames : List Frame) :
    (scene.standing place frames 0).advance program =
      let outcome := Machine.execute ⟨place + 1, frames, 0, scene.memory⟩ instruction
      some ((scene.standing place frames 0).fulfil outcome.1 outcome.2) := by
  have fits : (scene.standing place frames 0).machine.overflows program = false :=
    Machine.overflows_eq_false (.inr (by simpa [Scene.standing, located] using other))
  rw [advance, Machine.step_of_get located fits]
  rfl

/-- A visit while something is skipped passes over the instruction. -/
theorem advance_of_skipping (located : program[place]? = some instruction) (scene : Scene δ)
    (frames : List Frame) (depth : Nat) :
    (scene.standing place frames (depth + 1)).advance program =
      some ((scene.standing place frames (depth + 1)).fulfil
        (Machine.skip ⟨place + 1, frames, depth + 1, scene.memory⟩ instruction) none) := by
  have fits : (scene.standing place frames (depth + 1)).machine.overflows program = false :=
    Machine.overflows_eq_false (.inl (Nat.succ_ne_zero depth))
  rw [advance, Machine.step_of_get located fits]
  rfl

/-- An instruction that is no block word acts on the scene and leads to the next place. -/
theorem advance_plain [Accepts δ] (located : program[place]? = some instruction)
    (noBlockWord : instruction.isBlockWord = false) (scene : Scene δ) (frames : List Frame) :
    (scene.standing place frames 0).advance program =
      some ((scene.doing instruction).standing (place + 1) frames 0) := by
  have other : instruction ≠ .endLoop := by
    rintro rfl
    cases noBlockWord
  rw [advance_of_get located other]
  cases instruction with
  | assign name value => rfl
  | combo name => simp [Machine.execute, fulfil, Request.perform, performAll_eq_of_accepts,
      Scene.doing, Scene.standing, Instruction.effect]
  | call name => rfl
  | invalid line => rfl
  | typed t => simp [Machine.execute, fulfil, Request.perform, MacroEngine.run,
      MacroEngine.perform, drive_eq_of_accepts, Scene.doing, Scene.standing, Instruction.effect]
  | wait ms =>
    by_cases positive : scene.memory.evaluate ms > 0 <;>
      simp [Machine.execute, fulfil, Request.perform, performAll_eq_of_accepts, Scene.doing,
        Scene.standing, Instruction.effect, positive, carriedOut]
  | setButton name value =>
    cases held : Script.button? name with
    | none => simp [Machine.execute, fulfil, Scene.doing, Scene.standing, Instruction.effect,
        held, carriedOut]
    | some button =>
      simp only [Machine.execute, held, Option.map_some, fulfil, Request.perform,
        performAll_eq_of_accepts, Scene.doing, Scene.standing, Instruction.effect]
      rfl
  | _ => cases noBlockWord

/-- A condition opens a block, and the skipping of its part where it fails. -/
theorem advance_ifThen {condition : Text} (located : program[place]? = some (.ifThen condition))
    (scene : Scene δ) (frames : List Frame) :
    (scene.standing place frames 0).advance program =
      some (scene.standing (place + 1) (.branch :: frames)
        (if scene.memory.satisfies condition then 0 else 1)) := by
  rw [advance_of_get located nofun]
  rfl

/-- The other branch is skipped where it is come upon from the first. -/
theorem advance_otherwise (located : program[place]? = some .otherwise) (scene : Scene δ)
    (frames : List Frame) :
    (scene.standing place (.branch :: frames) 0).advance program =
      some (scene.standing (place + 1) (.branch :: frames) 1) := by
  rw [advance_of_get located nofun]
  rfl

/-- The end of a condition closes it. -/
theorem advance_endIf (located : program[place]? = some .endIf) (scene : Scene δ)
    (frames : List Frame) :
    (scene.standing place (.branch :: frames) 0).advance program =
      some (scene.standing (place + 1) frames 0) := by
  rw [advance_of_get located nofun]
  rfl

/-- The other branch ends the skipping of the first. -/
theorem advance_otherwise_of_skipping (located : program[place]? = some .otherwise)
    (scene : Scene δ) (frames : List Frame) :
    (scene.standing place frames 1).advance program =
      some (scene.standing (place + 1) frames 0) := by
  rw [advance_of_skipping located]
  rfl

/-- The end of a condition whose last part was skipped closes it. -/
theorem advance_endIf_of_skipping (located : program[place]? = some .endIf) (scene : Scene δ)
    (frames : List Frame) :
    (scene.standing place (.branch :: frames) 1).advance program =
      some (scene.standing (place + 1) frames 0) := by
  rw [advance_of_skipping located]
  rfl

/-- A counted block opens with the value that its count has now. -/
theorem advance_loop {count : Text} (located : program[place]? = some (.loop count))
    (scene : Scene δ) (frames : List Frame) :
    (scene.standing place frames 0).advance program =
      some (scene.standing (place + 1)
        (.loop (scene.memory.evaluate count) (place + 1) :: frames) 0) := by
  rw [advance_of_get located nofun]
  rfl

omit [Device δ] in
/-- At the end of a counted block, its counter leaves its range just where it is the least
number. -/
theorem overflows_standing_iff (located : program[place]? = some .endLoop) (scene : Scene δ)
    (remaining : Int32) (body : Nat) (frames : List Frame) :
    (scene.standing place (.loop remaining body :: frames) 0).machine.overflows program = true ↔
      remaining = Int32.minValue := by
  rw [Machine.overflows_iff]
  constructor
  · rintro ⟨-, -, _, _, least⟩
    cases least
    rfl
  · rintro rfl
    exact ⟨rfl, located, body, frames, rfl⟩

/-- The end of a counted block leads back to its body while counting down leaves something. -/
theorem advance_endLoop (located : program[place]? = some .endLoop) (scene : Scene δ)
    {remaining : Int32} (notLeast : remaining ≠ Int32.minValue) (body : Nat)
    (frames : List Frame) :
    (scene.standing place (.loop remaining body :: frames) 0).advance program =
      some (if 0 < remaining - 1 then
          scene.standing body (.loop (remaining - 1) body :: frames) 0
        else scene.standing (place + 1) frames 0) := by
  have fits := mt (overflows_standing_iff located scene remaining body frames).mp notLeast
  rw [advance, Machine.step_of_get located (Bool.eq_false_iff.mpr fits)]
  by_cases left : 0 < remaining - 1 <;>
    simp [Machine.execute, Machine.endLoop, Machine.innermostLoop?, fulfil, Scene.standing, left]

/-- A block over a range opens with both of its variables set. -/
theorem advance_forRange {name first last : Text}
    (located : program[place]? = some (.forRange name first last)) (scene : Scene δ)
    (frames : List Frame) :
    (scene.standing place frames 0).advance program =
      some ((scene.entering name first last).standing (place + 1)
        (.range name (place + 1) :: frames) 0) := by
  rw [advance_of_get located nofun]
  rfl

/-- The end of a block over a range leads back to its body while its variable is not past the
last value. -/
theorem advance_next (located : program[place]? = some .next) (scene : Scene δ) (name : Text)
    (body : Nat) (frames : List Frame) :
    (scene.standing place (.range name body :: frames) 0).advance program =
      some (if scene.repeats name then
          (scene.setting name (scene.nextValue name)).standing body (.range name body :: frames) 0
        else (scene.setting name (scene.nextValue name)).standing (place + 1) frames 0) := by
  rw [advance_of_get located nofun]
  by_cases more : scene.repeats name
  · have within := more
    rw [Scene.repeats, Scene.nextValue] at within
    simp [Machine.execute, Machine.next, Machine.innermostRange?, fulfil, Scene.standing, more,
      within, Scene.setting, Scene.nextValue]
  · have beyond := more
    rw [Scene.repeats, Scene.nextValue] at beyond
    simp [Machine.execute, Machine.next, Machine.innermostRange?, fulfil, Scene.standing, more,
      beyond, Scene.setting, Scene.nextValue]

/-! ## Parts of a run -/

/-- Only block words matter while something is skipped. -/
theorem skip_of_noBlockWord (noBlockWord : instruction.isBlockWord = false) (machine : Machine) :
    machine.skip instruction = machine := by
  cases instruction <;> first | rfl | cases noBlockWord

/-- A block is passed over under any stack and at any depth of skipping: what it opens while it
is skipped it also closes. -/
theorem reaches_of_skipping (block : Block) {place : Nat}
    (located : Located program place block.flat) (scene : Scene δ) (frames : List Frame)
    (depth : Nat) :
    Reaches program block.flat.length (scene.standing place frames (depth + 1))
      (scene.standing (place + block.flat.length) frames (depth + 1)) := by
  induction block generalizing place depth with
  | empty => rfl
  | plain instruction noBlockWord =>
    have step := advance_of_skipping located.get scene frames depth
    rw [skip_of_noBlockWord noBlockWord] at step
    exact reaches_one step
  | seq first second ihFirst ihSecond =>
    have whole := (ihFirst located.left depth).trans (ihSecond located.right depth)
    rw [Block.flat, List.length_append, ← Nat.add_assoc]
    exact whole
  | ifThen condition body ih =>
    obtain ⟨opening, inside, closing⟩ := located.between
    have first := reaches_one (advance_of_skipping opening scene frames depth)
    have last := reaches_one (advance_of_skipping closing scene frames (depth + 1))
    have whole := (first.trans (ih inside (depth + 1))).trans last
    rw [Block.flat, List.length_append, List.length_append, ← Nat.add_assoc, ← Nat.add_assoc]
    exact whole
  | ifElse condition body other ihBody ihOther =>
    obtain ⟨opening, inside, middle⟩ := located.left.left.between
    have second := located.left.right
    have closing := located.right.get
    simp only [List.length_append, ← Nat.add_assoc] at second closing
    have first := reaches_one (advance_of_skipping opening scene frames depth)
    have half := reaches_one (advance_of_skipping middle scene frames (depth + 1))
    have last := reaches_one (advance_of_skipping closing scene frames (depth + 1))
    have whole := (((first.trans (ihBody inside (depth + 1))).trans half).trans
      (ihOther second (depth + 1))).trans last
    simp only [Block.flat, List.length_append, ← Nat.add_assoc]
    exact whole
  | loop count body ih =>
    obtain ⟨opening, inside, closing⟩ := located.between
    have first := reaches_one (advance_of_skipping opening scene frames depth)
    have last := reaches_one (advance_of_skipping closing scene frames depth)
    have whole := (first.trans (ih inside depth)).trans last
    rw [Block.flat, List.length_append, List.length_append, ← Nat.add_assoc, ← Nat.add_assoc]
    exact whole
  | range name low high body ih =>
    obtain ⟨opening, inside, closing⟩ := located.between
    have first := reaches_one (advance_of_skipping opening scene frames depth)
    have last := reaches_one (advance_of_skipping closing scene frames depth)
    have whole := (first.trans (ih inside depth)).trans last
    rw [Block.flat, List.length_append, List.length_append, ← Nat.add_assoc, ← Nat.add_assoc]
    exact whole

/-! ## From meaning to run -/

mutual

/-- A run goes through a block as the block's meaning says, from any place and under any
stack. -/
theorem reaches_of_runs [Accepts δ] {block : Block} {before after : Scene δ} {visits : Nat}
    {actions : List Action} {place : Nat} (frames : List Frame)
    (located : Located program place block.flat) :
    Runs block before visits actions after →
      Reaches program visits (before.standing place frames 0)
        (after.standing (place + block.flat.length) frames 0)
  | .empty => rfl
  | .plain noBlockWord => reaches_one (advance_plain located.get noBlockWord before frames)
  | .seq first second => by
    have whole := (reaches_of_runs frames located.left first).trans
      (reaches_of_runs frames located.right second)
    rw [Block.flat, List.length_append, ← Nat.add_assoc]
    exact whole
  | .holds satisfied run => by
    obtain ⟨opening, inside, closing⟩ := located.between
    have first := advance_ifThen opening before frames
    rw [satisfied] at first
    have last := advance_endIf closing after frames
    have whole := ((reaches_one first).trans (reaches_of_runs _ inside run)).trans
      (reaches_one last)
    rw [Block.flat, List.length_append, List.length_append, ← Nat.add_assoc, ← Nat.add_assoc]
    exact whole
  | .fails unsatisfied => by
    obtain ⟨opening, inside, closing⟩ := located.between
    have first := advance_ifThen opening before frames
    rw [unsatisfied] at first
    have passed := reaches_of_skipping _ inside before (.branch :: frames) 0
    have last := advance_endIf_of_skipping closing before frames
    have whole := ((reaches_one first).trans passed).trans (reaches_one last)
    rw [Block.flat, List.length_append, List.length_append, ← Nat.add_assoc, ← Nat.add_assoc]
    exact whole
  | .either satisfied run => by
    obtain ⟨opening, inside, middle⟩ := located.left.left.between
    have second := located.left.right
    have closing := located.right.get
    simp only [List.length_append, ← Nat.add_assoc] at second closing
    have first := advance_ifThen opening before frames
    rw [satisfied] at first
    have half := advance_otherwise middle after frames
    have passed := reaches_of_skipping _ second after (.branch :: frames) 0
    have last := advance_endIf_of_skipping closing after frames
    have whole := ((((reaches_one first).trans (reaches_of_runs _ inside run)).trans
      (reaches_one half)).trans passed).trans (reaches_one last)
    simp only [Block.flat, List.length_append, ← Nat.add_assoc]
    exact whole
  | .other unsatisfied run => by
    obtain ⟨opening, inside, middle⟩ := located.left.left.between
    have second := located.left.right
    have closing := located.right.get
    simp only [List.length_append, ← Nat.add_assoc] at second closing
    have first := advance_ifThen opening before frames
    rw [unsatisfied] at first
    have passed := reaches_of_skipping _ inside before (.branch :: frames) 0
    have half := advance_otherwise_of_skipping middle before (.branch :: frames)
    have last := advance_endIf closing after frames
    have whole := ((((reaches_one first).trans passed).trans (reaches_one half)).trans
      (reaches_of_runs _ second run)).trans (reaches_one last)
    simp only [Block.flat, List.length_append, ← Nat.add_assoc]
    exact whole
  | .loop notLeast run => by
    obtain ⟨opening, inside, closing⟩ := located.between
    have first := reaches_one (advance_loop opening before frames)
    have whole := first.trans (reaches_of_rounds frames notLeast inside closing rfl run)
    rw [Block.flat, List.length_append, List.length_append, ← Nat.add_assoc, ← Nat.add_assoc]
    exact whole
  | .range run => by
    obtain ⟨opening, inside, closing⟩ := located.between
    have first := reaches_one (advance_forRange opening before frames)
    have whole := first.trans (reaches_of_ranges frames inside closing run)
    rw [Block.flat, List.length_append, List.length_append, ← Nat.add_assoc, ← Nat.add_assoc]
    exact whole

/-- A run at the body of a counted block goes through the rounds that its counter leaves. -/
theorem reaches_of_rounds [Accepts δ] {body : Block} {before after : Scene δ}
    {count visits : Nat} {actions : List Action} {place : Nat} (frames : List Frame)
    {remaining : Int32} (notLeast : remaining ≠ Int32.minValue)
    (located : Located program place body.flat)
    (closing : program[place + body.flat.length]? = some .endLoop)
    (left : rounds remaining = count) :
    Rounds body count before visits actions after →
      Reaches program visits (before.standing place (.loop remaining place :: frames) 0)
        (after.standing (place + body.flat.length + 1) frames 0)
  | .none => absurd left (rounds_ne_zero remaining)
  | .more run later => by
    have first := reaches_of_runs (.loop remaining place :: frames) located run
    by_cases more : 0 < remaining - 1
    · rw [rounds_of_pos notLeast more] at left
      have rest := reaches_of_rounds frames (ne_minValue_of_pos more) located closing
        (Nat.succ.inj left) later
      refine (first.trans (reaches_one ?_)).trans rest
      rw [advance_endLoop closing _ notLeast, if_pos more]
    · rw [rounds_of_not_pos more] at left
      obtain rfl := Nat.succ.inj left
      cases later
      refine first.trans (reaches_one ?_)
      rw [advance_endLoop closing _ notLeast, if_neg more]

/-- A run at the body of a block over a range goes through the rounds until its variable is past
the last value. -/
theorem reaches_of_ranges [Accepts δ] {name : Text} {body : Block} {before after : Scene δ}
    {visits : Nat} {actions : List Action} {place : Nat} (frames : List Frame)
    (located : Located program place body.flat)
    (closing : program[place + body.flat.length]? = some .next) :
    Ranges name body before visits actions after →
      Reaches program visits (before.standing place (.range name place :: frames) 0)
        (after.standing (place + body.flat.length + 1) frames 0)
  | .last run past => by
    have first := reaches_of_runs (.range name place :: frames) located run
    refine first.trans (reaches_one ?_)
    rw [advance_next closing, if_neg past]
  | .again run within later => by
    have first := reaches_of_runs (.range name place :: frames) located run
    have rest := reaches_of_ranges frames located closing later
    refine (first.trans (reaches_one ?_)).trans rest
    rw [advance_next closing, if_pos within]

end

/-! ## From run to meaning -/

/-- A body has a finite course from wherever a run that stands at it finishes. -/
def HasCourse (δ : Type) [Device δ] (program : List Instruction) (place : Nat) (body : Block) :
    Prop :=
  ∀ (before : Scene δ) (frames : List Frame) (budget : Nat),
    Finishes program budget (before.standing place frames 0) →
      ∃ visits actions after, Runs body before visits actions after

/-- A run that finishes from the body of a counted block goes through a finite course of its
rounds, and its counter is not the least number. The induction is on the rounds that the counter
leaves. -/
theorem exists_rounds_of_finishes [Accepts δ] {body : Block}
    (course : HasCourse δ program place body) (located : Located program place body.flat)
    (closing : program[place + body.flat.length]? = some .endLoop) {frames : List Frame}
    (remaining : Int32) {before : Scene δ} {budget : Nat}
    (finishes : Finishes program budget
      (before.standing place (.loop remaining place :: frames) 0)) :
    remaining ≠ Int32.minValue ∧
      ∃ visits actions after, Rounds body (rounds remaining) before visits actions after := by
  generalize left : rounds remaining = count
  induction count generalizing remaining before budget with
  | zero => exact absurd left (rounds_ne_zero remaining)
  | succ count ih =>
    obtain ⟨visits, actions, middle, run⟩ := course before _ budget finishes
    have through := reaches_of_runs (.loop remaining place :: frames) located run
    obtain ⟨-, onwards⟩ := finishes.of_reaches through
    have notLeast := mt (overflows_standing_iff closing middle remaining place frames).mpr
      (Bool.eq_false_iff.mp onwards.overflows_eq_false)
    refine ⟨notLeast, ?_⟩
    by_cases more : 0 < remaining - 1
    · rw [rounds_of_pos notLeast more] at left
      have step := advance_endLoop closing middle notLeast place frames
      rw [if_pos more] at step
      obtain ⟨-, again⟩ := onwards.of_reaches (reaches_one step)
      obtain ⟨-, others, later, after, rest⟩ := ih (remaining - 1) again (Nat.succ.inj left)
      exact ⟨_, _, after, .more run rest⟩
    · rw [rounds_of_not_pos more] at left
      obtain rfl := Nat.succ.inj left
      exact ⟨_, _, middle, .more run .none⟩

/-- A run that finishes from the body of a block over a range goes through a finite course of
its rounds. The induction is on the budget, which every round uses up in part. -/
theorem exists_ranges_of_finishes [Accepts δ] {name : Text} {body : Block}
    (course : HasCourse δ program place body) (located : Located program place body.flat)
    (closing : program[place + body.flat.length]? = some .next) {frames : List Frame}
    {before : Scene δ} (budget : Nat)
    (finishes : Finishes program budget
      (before.standing place (.range name place :: frames) 0)) :
    ∃ visits actions after, Ranges name body before visits actions after := by
  induction budget using Nat.strongRecOn generalizing before with
  | ind budget ih =>
    obtain ⟨visits, actions, middle, run⟩ := course before _ budget finishes
    have through := reaches_of_runs (.range name place :: frames) located run
    obtain ⟨-, onwards⟩ := finishes.of_reaches through
    have step := advance_next closing middle name place frames
    by_cases within : middle.repeats name
    · rw [if_pos within] at step
      obtain ⟨enough, again⟩ := onwards.of_reaches (reaches_one step)
      obtain ⟨others, later, after, rest⟩ := ih (budget - visits - 1) (by omega) again
      exact ⟨_, _, after, .again run within rest⟩
    · exact ⟨_, _, _, .last run within⟩

/-- A run that finishes from the beginning of a block goes through a finite course of the
block. -/
theorem exists_runs_of_finishes [Accepts δ] (block : Block)
    (located : Located program place block.flat) : HasCourse δ program place block := by
  intro before frames budget finishes
  induction block generalizing place before frames budget with
  | empty => exact ⟨_, _, _, .empty⟩
  | plain instruction noBlockWord => exact ⟨_, _, _, .plain noBlockWord⟩
  | seq first second ihFirst ihSecond =>
    obtain ⟨visits, actions, middle, run⟩ := ihFirst located.left before frames budget finishes
    have through := reaches_of_runs frames located.left run
    obtain ⟨-, onwards⟩ := finishes.of_reaches through
    obtain ⟨more, later, after, rest⟩ := ihSecond located.right middle frames _ onwards
    exact ⟨_, _, after, .seq run rest⟩
  | ifThen condition body ih =>
    obtain ⟨opening, inside, closing⟩ := located.between
    cases satisfied : before.memory.satisfies condition with
    | false => exact ⟨_, _, _, .fails satisfied⟩
    | true =>
      have step := advance_ifThen opening before frames
      rw [satisfied] at step
      obtain ⟨-, onwards⟩ := finishes.of_reaches (reaches_one step)
      obtain ⟨visits, actions, after, run⟩ := ih inside before _ _ onwards
      exact ⟨_, _, after, .holds satisfied run⟩
  | ifElse condition body other ihBody ihOther =>
    obtain ⟨opening, inside, middle⟩ := located.left.left.between
    have second := located.left.right
    simp only [List.length_append, ← Nat.add_assoc] at second
    have step := advance_ifThen opening before frames
    cases satisfied : before.memory.satisfies condition with
    | true =>
      rw [satisfied] at step
      obtain ⟨-, onwards⟩ := finishes.of_reaches (reaches_one step)
      obtain ⟨visits, actions, after, run⟩ := ihBody inside before _ _ onwards
      exact ⟨_, _, after, .either satisfied run⟩
    | false =>
      rw [satisfied] at step
      have passed := reaches_of_skipping body inside before (.branch :: frames) 0
      have half := advance_otherwise_of_skipping middle before (.branch :: frames)
      obtain ⟨-, onwards⟩ := finishes.of_reaches
        (((reaches_one step).trans passed).trans (reaches_one half))
      obtain ⟨visits, actions, after, run⟩ := ihOther second before _ _ onwards
      exact ⟨_, _, after, .other satisfied run⟩
  | loop count body ih =>
    obtain ⟨opening, inside, closing⟩ := located.between
    have step := reaches_one (advance_loop opening before frames)
    obtain ⟨-, onwards⟩ := finishes.of_reaches step
    obtain ⟨notLeast, visits, actions, after, run⟩ :=
      exists_rounds_of_finishes (fun before frames budget => ih inside before frames budget)
        inside closing _ onwards
    exact ⟨_, _, after, .loop notLeast run⟩
  | range name first last body ih =>
    obtain ⟨opening, inside, closing⟩ := located.between
    have step := reaches_one (advance_forRange opening before frames)
    obtain ⟨-, onwards⟩ := finishes.of_reaches step
    obtain ⟨visits, actions, after, run⟩ :=
      exists_ranges_of_finishes (fun before frames budget => ih inside before frames budget)
        inside closing _ onwards
    exact ⟨_, _, after, .range run⟩

end Progress

/-! ## Whole scripts -/

variable {δ : Type} [Device δ]

mutual

/-- A block leaves the device as its actions do. -/
theorem Runs.device_eq {block : Block} {before after : Scene δ} {visits : Nat}
    {actions : List Action} :
    Runs block before visits actions after → after.device = carriedOut actions before.device
  | .empty => rfl
  | .plain _ => rfl
  | .seq first second => by
    rw [carriedOut_append, ← first.device_eq, second.device_eq]
  | .holds _ run => run.device_eq
  | .fails _ => rfl
  | .either _ run => run.device_eq
  | .other _ run => run.device_eq
  | .loop _ run => run.device_eq
  | .range run => run.device_eq

/-- The rounds of a counted block leave the device as their actions do. -/
theorem Rounds.device_eq {body : Block} {count : Nat} {before after : Scene δ} {visits : Nat}
    {actions : List Action} :
    Rounds body count before visits actions after →
      after.device = carriedOut actions before.device
  | .none => rfl
  | .more first second => by
    rw [carriedOut_append, ← first.device_eq, second.device_eq]

/-- The rounds of a block over a range leave the device as their actions do. -/
theorem Ranges.device_eq {name : Text} {body : Block} {before after : Scene δ} {visits : Nat}
    {actions : List Action} :
    Ranges name body before visits actions after →
      after.device = carriedOut actions before.device
  | .last run _ => run.device_eq
  | .again first _ second => by
    rw [carriedOut_append, ← first.device_eq, second.device_eq]
    rfl

end

/-- A run that is at the end of its program is over, whatever is left of its budget. -/
theorem runFrom_of_end {program : List Instruction} (steps budget : Nat) {machine : Machine}
    (ended : program.length ≤ machine.place) (engine : MacroEngine) (device : δ) :
    runFrom program steps budget machine engine device =
      (.ok ⟨steps, false⟩, machine, engine, device) := by
  cases budget with
  | zero => simp [runFrom, ended]
  | succ budget =>
    have beyond := List.getElem?_eq_none ended
    have fits : machine.overflows program = false :=
      Machine.overflows_eq_false (.inr (beyond ▸ nofun))
    have stopped := Machine.step_eq_none_iff.mpr (.inl ended)
    simp [runFrom, stopped, fits]

/-- Where a block has a course within the budget, its script runs to the end by that course. -/
theorem execute_of_runs [Accepts δ] {block : Block} {script : ScriptEngine}
    {engine : MacroEngine} {device : δ} {visits : Nat} {actions : List Action} {after : Scene δ}
    (enough : visits ≤ script.budget)
    (runs : Runs block ⟨script.memory, engine, device⟩ visits actions after) :
    script.execute block.flat engine device =
      (.ok ⟨visits, false⟩, { script with memory := after.memory }, after.engine,
        after.device) := by
  have through := Progress.reaches_of_runs [] (located_self block.flat) runs
  have whole := through.runFrom_eq 0 (script.budget - visits)
  rw [Nat.add_sub_of_le enough, Nat.zero_add, Nat.zero_add] at whole
  rw [runFrom_of_end visits _ (Nat.le_refl _)] at whole
  simp only [ScriptEngine.execute]
  rw [show ({ memory := script.memory } : Machine) = ⟨0, [], 0, script.memory⟩ from rfl]
  simp only [Scene.standing] at whole
  rw [whole]

/-- A script runs to its end within its budget just where its block has a course of no more
visits, and it then leaves the variables, the macro engine and the device that the course
does. -/
theorem execute_flat_eq_ok_iff [Accepts δ] (block : Block) (script : ScriptEngine)
    (engine : MacroEngine) (device : δ) (visits : Nat) (after : Scene δ) :
    script.execute block.flat engine device =
        (.ok ⟨visits, false⟩, { script with memory := after.memory }, after.engine,
          after.device) ↔
      visits ≤ script.budget ∧ ∃ actions, after.device = carriedOut actions device ∧
        Runs block ⟨script.memory, engine, device⟩ visits actions after := by
  constructor
  · intro executed
    have finishes : Progress.Finishes block.flat script.budget
        (Scene.standing ⟨script.memory, engine, device⟩ 0 [] 0) :=
      ⟨0, visits, congrArg Prod.fst executed⟩
    obtain ⟨count, actions, final, runs⟩ :=
      Progress.exists_runs_of_finishes block (located_self block.flat) _ _ _ finishes
    have through := Progress.reaches_of_runs [] (located_self block.flat) runs
    have enough := (finishes.of_reaches through).1
    have same := (execute_of_runs enough runs).symm.trans executed
    simp only [Prod.mk.injEq, Except.ok.injEq, ScriptRun.mk.injEq, ScriptEngine.mk.injEq,
      and_true] at same
    obtain ⟨rfl, sameMemory, sameEngine, sameDevice⟩ := same
    obtain rfl : final = after := by
      cases final
      cases after
      simp only [Scene.mk.injEq]
      exact ⟨sameMemory, sameEngine, sameDevice⟩
    exact ⟨enough, actions, runs.device_eq, runs⟩
  · rintro ⟨enough, actions, -, runs⟩
    exact execute_of_runs enough runs

/-- A combination where a variable is set, else the setting of that variable. -/
def firstThenOther : Block :=
  .ifElse "x" (.plain (.combo "a") rfl) (.plain (.assign "x" (.expr "1")) rfl)

/-- Two rounds take different branches, each passing over the other one. -/
theorem execute_loop_firstThenOther :
    ({} : ScriptEngine).execute (Block.loop "2" firstThenOther).flat ⟨0, {}⟩ ({} : Recording) =
      (.ok ⟨13, false⟩, { memory := { numbers := ⟨[("x", 1)]⟩ } }, ⟨0, {}⟩,
        { latest := [.delay Machine.comboPause] }) := by
  let start : Scene Recording := ⟨{}, ⟨0, {}⟩, {}⟩
  let middle : Scene Recording := ⟨{ numbers := ⟨[("x", 1)]⟩ }, ⟨0, {}⟩, {}⟩
  let after : Scene Recording :=
    ⟨{ numbers := ⟨[("x", 1)]⟩ }, ⟨0, {}⟩, { latest := [.delay Machine.comboPause] }⟩
  have assigned : start.doing (.assign "x" (.expr "1")) = middle := by
    have memory : start.memory.assign "x" (.expr "1") = middle.memory := by decide +kernel
    simp only [Scene.doing, Instruction.effect, memory]
    rfl
  have first : Runs firstThenOther start 5 [] middle := by
    rw [← assigned]
    exact .other (show start.memory.satisfies "x" = false by decide +kernel) (.plain rfl)
  have second : Runs firstThenOther middle 5 [.delay Machine.comboPause] after :=
    .either (show middle.memory.satisfies "x" = true by decide +kernel) (.plain rfl)
  have twice : rounds (start.memory.evaluate "2") = 2 := by decide +kernel
  have whole : Rounds firstThenOther (rounds (start.memory.evaluate "2")) start 12
      [.delay Machine.comboPause] after := by
    rw [twice]
    exact .more first (.more second .none)
  exact (execute_flat_eq_ok_iff (.loop "2" firstThenOther) {} ⟨0, {}⟩ {} 13 after).mpr
    ⟨by decide, [.delay Machine.comboPause], rfl, .loop (by decide +kernel) whole⟩

end Keyfob.Script
