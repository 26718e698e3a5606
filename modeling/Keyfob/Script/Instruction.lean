import Keyfob.Hid.Gamepad
import Keyfob.Text.Basic

/-!
# Instructions of a script

A script is written one instruction a line: assignments, the block words of conditions and
loops, calls, and macro text for everything else. `Script.compile` reads a script into its
instructions. Reading never fails: blank lines and comments yield nothing, and a line that
begins like an instruction but cannot be one is kept as invalid.
-/
namespace Keyfob

/-- The right-hand side of an assignment. -/
inductive Assigned where
  /-- A text between double quotes. -/
  | string (text : Text)
  /-- An expression. -/
  | expr (expr : Text)
deriving DecidableEq

/-- One instruction of a script. Expressions and conditions stay in writing until they are
evaluated. -/
inductive Instruction where
  /-- Set a variable. -/
  | assign (name : Text) (value : Assigned)
  /-- Begin a block that runs under a condition. -/
  | ifThen (condition : Text)
  /-- Begin the other branch of a condition. -/
  | otherwise
  /-- End a block under a condition. -/
  | endIf
  /-- Begin a block that runs a number of times. -/
  | loop (count : Text)
  /-- End a counted block. -/
  | endLoop
  /-- Begin a block that runs for each value of a variable between two bounds. -/
  | forRange (name first last : Text)
  /-- End a block that runs over a range. -/
  | next
  /-- Wait for some milliseconds. -/
  | wait (ms : Text)
  /-- Hold a gamepad button or let it go. -/
  | setButton (button value : Text)
  /-- Run a named combination, of which there are none. -/
  | combo (name : Text)
  /-- Call a function that means nothing here. -/
  | call (name : Text)
  /-- A line that begins like an instruction and is none. -/
  | invalid (line : Text)
  /-- Run macro text. -/
  | typed (text : Text)
deriving DecidableEq

namespace Script

/-- What follows a word at the front of a line, if the line begins with it in any letter case
and the word ends there. -/
def afterWord? (word line : Text) : Option Text :=
  if Text.sameLetters (line.take word.length) word then
    match line.drop word.length with
    | [] => some []
    | c :: rest => if Text.isBlank c then some (Text.trim (c :: rest)) else none
  else none

/-- Whether a line is a word alone, in any letter case. -/
def isWord (word line : Text) : Bool := afterWord? word line == some []

/-- The right-hand side of an assignment: a text if it is enclosed in double quotes, else an
expression. -/
def assigned (t : Text) : Assigned :=
  match (Text.after? "\"" t).bind (Text.before? "\"") with
  | some inside => .string inside
  | none => .expr t

/-- Read an assignment: a variable name, an equals sign that is not the first half of a
comparison, and a right-hand side. -/
def assignment? (line : Text) : Option Instruction :=
  match Text.cutFirst? '=' line with
  | none => none
  | some (name, rest) =>
    if name.trim.isName && !rest.beginsWith "=" then some (.assign name.trim (assigned rest.trim))
    else none

/-- Read a call: a name, its arguments in parentheses, and perhaps a semicolon. The name comes
back in small letters. -/
def call? (line : Text) : Option (Text × Text) :=
  let line := ((Text.before? ";" line).getD line).trimEnd
  match Text.cutFirst? '(' line with
  | none => none
  | some (name, rest) =>
    match Text.before? ")" rest with
    | none => none
    | some args => if name.isName then some (name.lower, args) else none

/-- The parts of a text before and after the first place where a piece stands in it, the piece
being given in capitals and standing there in any letter case. -/
def cutAtWord? (piece t : Text) : Option (Text × Text) :=
  (Text.cutAt? piece t.upper).map fun (front, _) =>
    (t.take front.length, t.drop (front.length + piece.length))

/-- The condition of a line that begins a block, without the word at its end. -/
def conditionOf (rest : Text) : Text :=
  let kept := rest.length - "THEN".toList.length
  if Text.sameLetters (rest.drop kept) "THEN" then Text.trim (rest.take kept) else rest

/-- Read what follows the word that begins a block over a range. -/
def range? (rest : Text) : Option Instruction :=
  match Text.cutFirst? '=' rest with
  | none => none
  | some (name, bounds) =>
    match cutAtWord? " TO " bounds with
    | none => none
    | some (first, last) =>
      if name.trim.isName then some (.forRange name.trim first.trim last.trim) else none

/-- The instruction of a call. -/
def ofCall (line name args : Text) : Instruction :=
  match String.ofList name with
  | "wait" => .wait args
  | "set_val" =>
    match Text.cutFirst? ',' args with
    | some (button, value) => .setButton button.trim value.trim
    | none => .invalid line
  | "combo_run" => .combo args.trim
  | _ => .call name

/-- Whether a line is a comment. -/
def isComment (line : Text) : Bool :=
  line.beginsWith "//" || (afterWord? "REM" line).isSome

/-- Whether a line ends a block over a range: the word alone or with one name. -/
def endsRange (line : Text) : Bool :=
  match afterWord? "NEXT" line with
  | some rest => rest.isEmpty || rest.isName
  | none => false

/-- The instruction of a trimmed line that is neither blank nor a comment. -/
def instruction (line : Text) : Instruction :=
  match afterWord? "VAR" line with
  | some rest => (assignment? rest).getD (.invalid line)
  | none =>
    match afterWord? "IF" line with
    | some rest => .ifThen (conditionOf rest)
    | none =>
      if isWord "ELSE" line then .otherwise
      else if isWord "ENDIF" line then .endIf
      else
        match afterWord? "LOOP" line with
        | some rest => .loop rest
        | none =>
          if isWord "ENDLOOP" line then .endLoop
          else
            match afterWord? "FOR" line with
            | some rest => (range? rest).getD (.invalid line)
            | none =>
              if endsRange line then .next
              else
                match call? line with
                | some (name, args) => ofCall line name args
                | none => (assignment? line).getD (.typed line)

/-- The instruction of a line, if it holds one. -/
def instruction? (line : Text) : Option Instruction :=
  if line.trim.isEmpty || isComment line.trim then none else some (instruction line.trim)

/-- The instructions of a script. -/
def compile (source : Text) : List Instruction := source.lines.filterMap instruction?

/-- The names that scripts give to gamepad buttons. -/
def buttonNames : List (String × PadButton) :=
  [("PS4_CROSS", .a), ("XB1_A", .a), ("PS4_CIRCLE", .b), ("XB1_B", .b),
   ("PS4_SQUARE", .x), ("XB1_X", .x), ("PS4_TRIANGLE", .y), ("XB1_Y", .y),
   ("PS4_L1", .leftShoulder), ("XB1_LB", .leftShoulder),
   ("PS4_R1", .rightShoulder), ("XB1_RB", .rightShoulder),
   ("PS4_L3", .leftStick), ("XB1_LS", .leftStick),
   ("PS4_R3", .rightStick), ("XB1_RS", .rightStick),
   ("PS4_OPTIONS", .start), ("XB1_MENU", .start),
   ("PS4_SHARE", .back), ("XB1_VIEW", .back),
   ("PS4_PS", .guide), ("XB1_XBOX", .guide)]

/-- The button that a name in a script stands for. -/
def button? (name : Text) : Option PadButton :=
  buttonNames.lookup (String.ofList name.trim.upper)

end Script

end Keyfob
