import Keyfob.Script.Machine

/-!
# Well-nested scripts

A block is a script whose block words are closed in the order in which they were opened. Its
meaning is given by big-step rules on scenes: the variables, the macro engine and the device
(`Runs`, with `Rounds` and `Ranges` for what is left of a block that repeats). A block whose count
is the least number has no meaning: its counter cannot be counted down. The rules know neither
places nor stacks nor skipping; they only count the instructions that the flat script visits,
passed over or carried out, so that a budget can be compared with that count.
-/
namespace Keyfob

/-- Whether an instruction opens, divides or ends a block. -/
def Instruction.isBlockWord : Instruction → Bool
  | .ifThen _ => true
  | .otherwise => true
  | .endIf => true
  | .loop _ => true
  | .endLoop => true
  | .forRange _ _ _ => true
  | .next => true
  | _ => false

/-- What an instruction that is no block word does on a device with some capabilities: the
variables, the macro engine and the actions. -/
def Instruction.effect (capabilities : Capabilities) (memory : Variables)
    (engine : MacroEngine) : Instruction → Variables × MacroEngine × List Action
  | .assign name value => (memory.assign name value, engine, [])
  | .wait ms =>
    let time := memory.evaluate ms
    (memory, engine, if time > 0 then [.delay time.toUInt32] else [])
  | .setButton name value =>
    match Script.button? name with
    | some held =>
      let down := memory.evaluate value > 0
      (memory, engine, if capabilities.gamepad then [.padButton held down] else [])
    | none => (memory, engine, [])
  | .combo _ => (memory, engine, [.delay Machine.comboPause])
  | .typed t =>
    let (pass, actions) := (Pass.next capabilities).run engine.newPass (Piece.ofText t)
    (memory, { engine with mouse := pass.mouse }, actions)
  | _ => (memory, engine, [])

namespace Script

/-- A script whose blocks are well nested. -/
inductive Block where
  /-- No instruction. -/
  | empty
  /-- One instruction that is no block word. -/
  | plain (instruction : Instruction) (noBlockWord : instruction.isBlockWord = false)
  /-- One part after another. -/
  | seq (first second : Block)
  /-- A part under a condition. -/
  | ifThen (condition : Text) (body : Block)
  /-- One of two parts, by a condition. -/
  | ifElse (condition : Text) (body other : Block)
  /-- A part that runs a number of times. -/
  | loop (count : Text) (body : Block)
  /-- A part that runs for each value of a variable between two bounds. -/
  | range (name first last : Text) (body : Block)

/-- The instructions of a block. -/
def Block.flat : Block → List Instruction
  | .empty => []
  | .plain instruction _ => [instruction]
  | .seq first second => first.flat ++ second.flat
  | .ifThen condition body => [.ifThen condition] ++ body.flat ++ [.endIf]
  | .ifElse condition body other =>
    [.ifThen condition] ++ body.flat ++ [.otherwise] ++ other.flat ++ [.endIf]
  | .loop count body => [.loop count] ++ body.flat ++ [.endLoop]
  | .range name first last body => [.forRange name first last] ++ body.flat ++ [.next]

/-- How often a counted block runs: its count, and at least once. -/
def rounds (count : Int32) : Nat := max 1 count.toInt.toNat

/-- What a script works on. -/
structure Scene (δ : Type) where
  /-- The variables. -/
  memory : Variables
  /-- What runs macro text. -/
  engine : MacroEngine
  /-- The device. -/
  device : δ

namespace Scene

variable {δ : Type} [Device δ]

/-- The actions of an instruction that is no block word. -/
def actions (scene : Scene δ) (instruction : Instruction) : List Action :=
  (instruction.effect (capabilities scene.device) scene.memory scene.engine).2.2

/-- The scene after an instruction that is no block word. -/
def doing (scene : Scene δ) (instruction : Instruction) : Scene δ :=
  let (memory, engine, actions) :=
    instruction.effect (capabilities scene.device) scene.memory scene.engine
  ⟨memory, engine, carriedOut actions scene.device⟩

/-- The scene with one number set. -/
def setting (scene : Scene δ) (name : Text) (value : Int32) : Scene δ :=
  { scene with memory := scene.memory.set name value }

/-- The scene at the first round over a range. Both bounds are evaluated before either is
set. -/
def entering (scene : Scene δ) (name first last : Text) : Scene δ :=
  let start := scene.memory.evaluate first
  let finish := scene.memory.evaluate last
  { scene with memory := (scene.memory.set name start).set (Machine.lastName name) finish }

/-- The value that the next round over a range begins with. -/
def nextValue (scene : Scene δ) (name : Text) : Int32 := scene.memory.value name + 1

/-- Whether a round over a range is followed by another. -/
def repeats (scene : Scene δ) (name : Text) : Prop :=
  scene.nextValue name ≤ scene.memory.value (Machine.lastName name)

instance (scene : Scene δ) (name : Text) : Decidable (scene.repeats name) :=
  inferInstanceAs (Decidable (scene.nextValue name ≤ scene.memory.value (Machine.lastName name)))

end Scene

variable {δ : Type} [Device δ]

mutual

/-- A block runs from one scene to another, visiting a number of instructions and carrying out
some actions. -/
inductive Runs : Block → Scene δ → Nat → List Action → Scene δ → Prop
  | empty {scene} : Runs .empty scene 0 [] scene
  | plain {scene instruction} (noBlockWord : instruction.isBlockWord = false) :
    Runs (.plain instruction noBlockWord) scene 1 (scene.actions instruction)
      (scene.doing instruction)
  | seq {first second before middle after visits more actions later} :
    Runs first before visits actions middle → Runs second middle more later after →
      Runs (.seq first second) before (visits + more) (actions ++ later) after
  | holds {condition body before visits actions after} :
    before.memory.satisfies condition = true → Runs body before visits actions after →
      Runs (.ifThen condition body) before (1 + visits + 1) actions after
  | fails {condition body scene} :
    scene.memory.satisfies condition = false →
      Runs (.ifThen condition body) scene (1 + body.flat.length + 1) [] scene
  | either {condition body other before visits actions after} :
    before.memory.satisfies condition = true → Runs body before visits actions after →
      Runs (.ifElse condition body other) before (1 + visits + 1 + other.flat.length + 1)
        actions after
  | other {condition body other before visits actions after} :
    before.memory.satisfies condition = false → Runs other before visits actions after →
      Runs (.ifElse condition body other) before (1 + body.flat.length + 1 + visits + 1)
        actions after
  | loop {count body before visits actions after} :
    before.memory.evaluate count ≠ Int32.minValue →
      Rounds body (rounds (before.memory.evaluate count)) before visits actions after →
      Runs (.loop count body) before (1 + visits) actions after
  | range {name first last body before visits actions after} :
    Ranges name body (before.entering name first last) visits actions after →
      Runs (.range name first last body) before (1 + visits) actions after

/-- A body runs a number of times over, its end being visited after each time. -/
inductive Rounds : Block → Nat → Scene δ → Nat → List Action → Scene δ → Prop
  | none {body scene} : Rounds body 0 scene 0 [] scene
  | more {body count before middle after visits more actions later} :
    Runs body before visits actions middle → Rounds body count middle more later after →
      Rounds body (count + 1) before (visits + 1 + more) (actions ++ later) after

/-- A body runs for the value that a variable has now and for those after it. After each time
the variable goes up by one, wrapping, and the body runs again if that is not past the last
value, which is looked up anew. -/
inductive Ranges : Text → Block → Scene δ → Nat → List Action → Scene δ → Prop
  | last {name body before middle visits actions} :
    Runs body before visits actions middle → ¬ middle.repeats name →
      Ranges name body before (visits + 1) actions (middle.setting name (middle.nextValue name))
  | again {name body before middle after visits more actions later} :
    Runs body before visits actions middle → middle.repeats name →
      Ranges name body (middle.setting name (middle.nextValue name)) more later after →
      Ranges name body before (visits + 1 + more) (actions ++ later) after

end

end Script

end Keyfob
