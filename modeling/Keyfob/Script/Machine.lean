import Keyfob.Expr.Condition
import Keyfob.Fault
import Keyfob.Macro.Engine
import Keyfob.Script.Instruction
import Keyfob.Table

/-!
# The script machine

A script runs on a machine with a place in the program, a stack of open blocks, a count of
nested conditions being skipped, and variables. A step (`Machine.step`) is a function of the
machine alone; what it wants done on the device is a request. Block words are forgiving: one
that closes nothing does nothing. A run is given a budget of steps, so it always ends; it crashes
where the counter of a block would leave the range of 32-bit numbers.
-/
namespace Keyfob

/-- A block that is open. -/
inductive Frame where
  /-- A counted block: the rounds that remain, this one included, and where its body begins. -/
  | loop (remaining : Int32) (body : Nat)
  /-- A block over a range: its variable and where its body begins. -/
  | range (name : Text) (body : Nat)
  /-- A block under a condition. -/
  | branch
deriving DecidableEq

/-- The variables of a script. -/
structure Variables where
  /-- The numbers, by name. -/
  numbers : Table Int32 := ∅
  /-- The texts, by name. -/
  strings : Table Text := ∅
deriving DecidableEq

namespace Variables

/-- The value of a variable, zero where it is not set. -/
def value (memory : Variables) (name : Text) : Int32 := (memory.numbers.get? name).getD 0

/-- The variables with one number set. -/
def set (memory : Variables) (name : Text) (value : Int32) : Variables :=
  { memory with numbers := memory.numbers.insert name value }

/-- The variables with one text set. -/
def setString (memory : Variables) (name text : Text) : Variables :=
  { memory with strings := memory.strings.insert name text }

/-- The value of an expression. -/
def evaluate (memory : Variables) (expr : Text) : Int32 := Expr.evaluate memory.value expr

/-- Whether a condition holds. -/
def satisfies (memory : Variables) (condition : Text) : Bool :=
  Condition.evaluate memory.value condition

/-- The variables after an assignment. -/
def assign (memory : Variables) (name : Text) : Assigned → Variables
  | .string t => memory.setString name t
  | .expr expr => memory.set name (memory.evaluate expr)

end Variables

/-- What a step of a script wants done. -/
inductive Request where
  /-- Wait for some milliseconds. -/
  | delay (ms : UInt32)
  /-- Hold a gamepad button or let it go. -/
  | button (button : PadButton) (down : Bool)
  /-- Run macro text. -/
  | typed (text : Text)
deriving DecidableEq

/-- A script machine. -/
structure Machine where
  /-- The place of the next instruction. -/
  place : Nat := 0
  /-- The open blocks, the innermost first. -/
  frames : List Frame := []
  /-- How many nested conditions are being skipped. -/
  skipping : Nat := 0
  /-- The variables. -/
  memory : Variables := {}
deriving DecidableEq

namespace Machine

/-- The pause that a named combination makes, in milliseconds. -/
def comboPause : UInt32 := 100

/-- The name of the variable that holds the last value of a range. -/
def lastName (name : Text) : Text := "__FOR_END_".toList ++ name

/-- The innermost counted block and the blocks around it. -/
def innermostLoop? : List Frame → Option ((Int32 × Nat) × List Frame)
  | [] => none
  | .loop remaining body :: around => some ((remaining, body), around)
  | _ :: around => innermostLoop? around

/-- The innermost block over a range and the blocks around it. -/
def innermostRange? : List Frame → Option ((Text × Nat) × List Frame)
  | [] => none
  | .range name body :: around => some ((name, body), around)
  | _ :: around => innermostRange? around

/-- The stack without a condition at its top. -/
def closeBranch : List Frame → List Frame
  | .branch :: around => around
  | frames => frames

/-- Pass over one instruction while skipping: conditions nest, and the other branch or the end
of the outermost one ends the skipping. -/
def skip (machine : Machine) : Instruction → Machine
  | .ifThen _ => { machine with skipping := machine.skipping + 1 }
  | .otherwise => if machine.skipping = 1 then { machine with skipping := 0 } else machine
  | .endIf =>
    { machine with
      skipping := machine.skipping - 1
      frames := if machine.skipping = 1 then closeBranch machine.frames else machine.frames }
  | _ => machine

/-- End a round of the innermost counted block, going back to its body if rounds remain. Blocks
left open inside it are dropped. No step counts down from the least number (`overflows`). -/
def endLoop (machine : Machine) : Machine :=
  match innermostLoop? machine.frames with
  | none => machine
  | some ((remaining, body), around) =>
    if remaining - 1 > 0 then
      { machine with frames := .loop (remaining - 1) body :: around, place := body }
    else { machine with frames := around }

/-- End a round of the innermost block over a range: its variable goes up by one, wrapping, and
the body runs again if that is not past the last value. -/
def next (machine : Machine) : Machine :=
  match innermostRange? machine.frames with
  | none => machine
  | some ((name, body), around) =>
    let value := machine.memory.value name + 1
    let last := machine.memory.value (lastName name)
    let machine := { machine with memory := machine.memory.set name value }
    if value ≤ last then { machine with frames := .range name body :: around, place := body }
    else { machine with frames := around }

/-- Carry out one instruction, the place being already that of the one after it. -/
def execute (machine : Machine) : Instruction → Machine × Option Request
  | .assign name value =>
    ({ machine with memory := machine.memory.assign name value }, none)
  | .ifThen condition =>
    ({ machine with
       frames := .branch :: machine.frames
       skipping := if machine.memory.satisfies condition then 0 else 1 }, none)
  | .otherwise =>
    (if machine.frames.head? = some .branch then { machine with skipping := 1 } else machine, none)
  | .endIf => ({ machine with frames := closeBranch machine.frames }, none)
  | .loop count =>
    let frame := Frame.loop (machine.memory.evaluate count) machine.place
    ({ machine with frames := frame :: machine.frames }, none)
  | .endLoop => (machine.endLoop, none)
  | .forRange name first last =>
    let start := machine.memory.evaluate first
    let finish := machine.memory.evaluate last
    ({ machine with
       memory := (machine.memory.set name start).set (lastName name) finish
       frames := .range name machine.place :: machine.frames }, none)
  | .next => (machine.next, none)
  | .wait ms =>
    let ms := machine.memory.evaluate ms
    (machine, if ms > 0 then some (.delay ms.toUInt32) else none)
  | .setButton name value =>
    (machine, (Script.button? name).map fun held =>
      .button held (machine.memory.evaluate value > 0))
  | .combo _ => (machine, some (.delay comboPause))
  | .call _ => (machine, none)
  | .invalid _ => (machine, none)
  | .typed t => (machine, some (.typed t))

/-- Whether the machine is at the end of a round whose counter would leave the range of 32-bit
numbers by being counted down. -/
def overflows (program : List Instruction) (machine : Machine) : Bool :=
  match machine.skipping, program[machine.place]?, innermostLoop? machine.frames with
  | 0, some .endLoop, some ((remaining, _), _) => (remaining - 1).toInt != remaining.toInt - 1
  | _, _, _ => false

/-- Visit the instruction at the machine's place: the machine from then on and what is wanted
of the device. There is no such step at the end of the program, nor where a counter would leave its
range. -/
def step (program : List Instruction) (machine : Machine) : Option (Machine × Option Request) :=
  if machine.overflows program then none
  else
    match program[machine.place]? with
    | none => none
    | some instruction =>
      let machine := { machine with place := machine.place + 1 }
      if machine.skipping = 0 then some (machine.execute instruction)
      else some (machine.skip instruction, none)

end Machine

namespace Request

/-- Do what a step wants on a device. Buttons of a gamepad that is not there are passed over. -/
def perform {δ : Type} [Device δ] (engine : MacroEngine) (device : δ) :
    Request → Except HidError Unit × MacroEngine × δ
  | delay ms =>
    let (result, device) := performAll [.delay ms] device
    (result, engine, device)
  | button held down =>
    let (result, device) :=
      performAll (if (capabilities device).gamepad then [.padButton held down] else []) device
    (result, engine, device)
  | typed t => engine.run t device

end Request

/-- How a script ended. -/
structure ScriptRun where
  /-- How many instructions it visited. -/
  steps : Nat
  /-- Whether it was stopped because its budget was used up. -/
  exhausted : Bool
deriving DecidableEq

namespace Script

/-- The steps that a script may take unless another budget is given. -/
def defaultBudget : Nat := 1000000

/-- Run a program from a machine for at most a number of steps, counting the steps. A device
error ends the run at once. A counter that would leave its range is a crash. -/
def runFrom {δ : Type} [Device δ] (program : List Instruction) (steps : Nat) :
    (budget : Nat) → Machine → MacroEngine → δ →
      Except (Fault HidError) ScriptRun × Machine × MacroEngine × δ
  | 0, machine, engine, device =>
    (.ok ⟨steps, machine.place < program.length⟩, machine, engine, device)
  | budget + 1, machine, engine, device =>
    match machine.step program with
    | none =>
      (if machine.overflows program then .error (.crash .overflow) else .ok ⟨steps, false⟩,
        machine, engine, device)
    | some (machine, none) => runFrom program (steps + 1) budget machine engine device
    | some (machine, some request) =>
      match request.perform engine device with
      | (.ok (), engine, device) => runFrom program (steps + 1) budget machine engine device
      | (.error e, engine, device) => (.error (.error e), machine, engine, device)

end Script

/-- What runs of scripts share: the variables and the budget. -/
structure ScriptEngine where
  /-- The variables that the last run left. -/
  memory : Variables := {}
  /-- The steps that a run may take. -/
  budget : Nat := Script.defaultBudget
deriving DecidableEq

namespace ScriptEngine

/-- Run a program with the variables as they are. -/
def execute {δ : Type} [Device δ] (script : ScriptEngine) (program : List Instruction)
    (engine : MacroEngine) (device : δ) :
    Except (Fault HidError) ScriptRun × ScriptEngine × MacroEngine × δ :=
  let (result, machine, engine, device) :=
    Script.runFrom program 0 script.budget { memory := script.memory } engine device
  (result, { script with memory := machine.memory }, engine, device)

/-- Run a script with no variables set. -/
def run {δ : Type} [Device δ] (script : ScriptEngine) (source : Text) (engine : MacroEngine)
    (device : δ) : Except (Fault HidError) ScriptRun × ScriptEngine × MacroEngine × δ :=
  { script with memory := {} }.execute (Script.compile source) engine device

end ScriptEngine

end Keyfob
