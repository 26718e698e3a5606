import Keyfob.Text.Number

/-!
# Command lines

A command line is read word by word: a command, within it a further command, options and
values in their places. Each word leads from one state of reading to the next
(`Reading.word`), so that reading a line is one fold over its words.
-/
namespace Keyfob.Console

/-- What can be asked for. -/
inductive Verb where
  /-- The program itself. -/
  | program
  /-- Play a file. -/
  | play
  /-- Show what a file would do. -/
  | check
  /-- Look after the store. -/
  | store
  /-- List the store. -/
  | list
  /-- Remove a namespace from the store. -/
  | clear
  /-- Choose the login code. -/
  | setPin
  /-- Evaluate an expression. -/
  | eval
  /-- Enter a code on the pad. -/
  | unlock
deriving DecidableEq

/-- A way to give something on the command line. -/
structure Choice where
  /-- The long name, without its dashes. -/
  name : Text
  /-- The letter, if it has one. -/
  letter : Option Char := none
  /-- Which values are accepted; without a value there is nothing here. -/
  accepts : Option (Text → Bool) := none
  /-- Whether it may be given more than once. -/
  repeats : Bool := false

/-- Any value. -/
def anything (_ : Text) : Bool := true

/-- A path, which is not empty. -/
def isPath (t : Text) : Bool := !t.isEmpty

/-- The number that a text is, if it is one of 32 bits with at most one sign before it. -/
def number? (t : Text) : Option Int32 :=
  let magnitude? (digits : Text) : Option Int :=
    if digits.isEmpty || !digits.all Text.isDigit then none
    else some (Text.digitsValue digits : Nat)
  let value? : Option Int := match t with
    | '-' :: digits => (magnitude? digits).map fun n => -n
    | '+' :: digits => magnitude? digits
    | digits => magnitude? digits
  match value? with
  | some n =>
    if Int32.minValue.toInt ≤ n ∧ n ≤ Int32.maxValue.toInt then some (Int32.ofInt n) else none
  | none => none

/-- The variable and its value that a text gives, with an equals sign between them. -/
def assignment? (t : Text) : Option (Text × Int32) :=
  match Text.cutFirst? '=' t with
  | some (name, value) => (number? value.trim).map fun n => (name.trim, n)
  | none => none

/-- Where actions go. -/
inductive SinkKind where
  /-- Nowhere. -/
  | record
  /-- To the endpoints of a gadget. -/
  | gadget
  /-- To a virtual input device. -/
  | virtual
deriving DecidableEq

/-- The place for actions that a word names. -/
def SinkKind.ofWord? (t : Text) : Option SinkKind :=
  [("record", record), ("gadget", gadget), ("uinput", virtual)].lookup (String.ofList t)

namespace Verb

/-- The names of a command, of which any may be given. -/
def names : Verb → List Text
  | program => ["pwdongle"]
  | play => ["play", "p"]
  | check => ["check", "dry-run", "c"]
  | store => ["store"]
  | list => ["list", "ls"]
  | clear => ["clear"]
  | setPin => ["set-pin"]
  | eval => ["eval"]
  | unlock => ["unlock"]

/-- The commands within a command. -/
def within : Verb → List Verb
  | program => [play, check, store, eval, unlock]
  | store => [list, clear, setPin]
  | _ => []

/-- What every command can be given. -/
def common : List Choice :=
  [{ name := "config", letter := some 'c', accepts := some isPath },
   { name := "log-level", accepts := some anything },
   { name := "version", letter := some 'V' }]

/-- What a command can be given besides. -/
def choices : Verb → List Choice
  | play => [{ name := "sink", accepts := some fun t => (SinkKind.ofWord? t).isSome },
      { name := "raw" }, { name := "keyboard-dev", accepts := some isPath },
      { name := "mouse-dev", accepts := some isPath },
      { name := "consumer-dev", accepts := some isPath },
      { name := "gamepad-dev", accepts := some isPath }]
  | check => [{ name := "no-delays" }]
  | list => [{ name := "show-secrets" }]
  | eval => [{ name := "condition" },
      { name := "var", accepts := some fun t => (assignment? t).isSome, repeats := true }]
  | _ => []

/-- The value that a command takes without an option, if it takes one: which are accepted. -/
def operand? : Verb → Option (Text → Bool)
  | play | check => some isPath
  | clear | setPin | eval | unlock => some anything
  | program | store | list => none

end Verb

/-- Why there is nothing to run. -/
inductive Refusal where
  /-- The command line is not one. -/
  | usage
  /-- Only the version was asked for, under a title. -/
  | version (title : Text)
deriving DecidableEq

/-- A command line read so far. -/
structure Reading where
  /-- The command. -/
  verb : Verb := .program
  /-- The name under which the command gives its version. -/
  title : Text := "pwdongle"
  /-- What was given with the command, by long names, the latest first. -/
  given : List (Text × Text) := []
  /-- The value given without an option. -/
  operand : Option Text := none
  /-- The settings file given with a command around this one. -/
  config : Option Text := none
  /-- The option that waits for its value. -/
  waiting : Option Choice := none
  /-- Whether two dashes have ended the options. -/
  ended : Bool := false

namespace Reading

/-- The latest value given under a name. -/
def value? (reading : Reading) (name : Text) : Option Text := reading.given.lookup name

/-- Whether something was given under a name. -/
def has (reading : Reading) (name : Text) : Bool := (reading.value? name).isSome

/-- The settings file in force. -/
def settingsFile? (reading : Reading) : Option Text :=
  (reading.value? "config").or reading.config

/-- Take a choice with its value. -/
def give (reading : Reading) (choice : Choice) (value : Text) : Except Refusal Reading :=
  if choice.name = "version".toList then .error (.version reading.title)
  else if reading.has choice.name ∧ !choice.repeats then .error .usage
  else if !(choice.accepts.getD anything) value then .error .usage
  else .ok { reading with given := (choice.name, value) :: reading.given, waiting := none }

/-- Take a choice that stands in a word with or without a value. -/
def choose (reading : Reading) (value : Option Text) (choice : Choice) :
    Except Refusal Reading :=
  match choice.accepts, value with
  | none, none => reading.give choice []
  | none, some _ => .error .usage
  | some _, some value => reading.give choice value
  | some _, none => .ok { reading with waiting := some choice }

/-- The choices that can be made now. -/
def choices (reading : Reading) : List Choice := Verb.common ++ reading.verb.choices

/-- Take a word of an option by its long name. -/
def long (reading : Reading) (t : Text) : Except Refusal Reading :=
  let (name, value) := match Text.cutFirst? '=' t with
    | some (name, value) => (name, some value)
    | none => (t, none)
  match reading.choices.find? fun choice => choice.name = name with
  | none => .error .usage
  | some choice => reading.choose value choice

/-- Take a word of options by their letters. What follows a letter whose option has a value is
that value. -/
def short (reading : Reading) : Text → Except Refusal Reading
  | [] => .ok reading
  | letter :: rest =>
    match reading.choices.find? fun choice => choice.letter = some letter with
    | none => .error .usage
    | some choice =>
      if choice.accepts.isNone then do short (← reading.give choice []) rest
      else
        let value := match rest with
          | [] => none
          | '=' :: value => some value
          | value => some value
        reading.choose value choice

/-- Take a value without an option. -/
def place (reading : Reading) (t : Text) : Except Refusal Reading :=
  match reading.verb.operand?, reading.operand with
  | some accepts, none =>
    if accepts t then .ok { reading with operand := some t } else .error .usage
  | _, _ => .error .usage

/-- Go on to a command within the command. -/
def descend (reading : Reading) (verb : Verb) : Reading :=
  { verb := verb
    title := reading.title ++ "-" ++ verb.names.headD []
    config := reading.settingsFile? }

/-- Take a word. -/
def word (reading : Reading) (t : Text) : Except Refusal Reading :=
  if reading.ended then reading.place t
  else
    match reading.waiting with
    | some choice =>
      if t.head? = some '-' ∧ t.length > 1 then .error .usage else reading.give choice t
    | none =>
      match reading.verb.within.find? fun verb => verb.names.contains t with
      | some verb => .ok (reading.descend verb)
      | none =>
        match t with
        | ['-', '-'] => .ok { reading with ended := true }
        | '-' :: '-' :: name => reading.long name
        | '-' :: letter :: rest => reading.short (letter :: rest)
        | t => reading.place t

end Reading

/-- The endpoints of a gadget. -/
structure GadgetPaths where
  /-- The path of the keyboard. -/
  keyboard : Text := "/dev/hidg0"
  /-- The path of the mouse. -/
  mouse : Option Text := none
  /-- The path of the media keys. -/
  consumer : Option Text := none
  /-- The path of the gamepad. -/
  gamepad : Option Text := none
deriving DecidableEq

/-- What a command line asks for. -/
inductive Request where
  /-- Play a file, perhaps byte for byte. -/
  | play (file : Text) (sink : SinkKind) (paths : GadgetPaths) (raw : Bool)
  /-- Show what a file would do, perhaps without its pauses. -/
  | check (file : Text) (delays : Bool)
  /-- List the store, perhaps with what is secret. -/
  | list (secrets : Bool)
  /-- Remove a namespace from the store. -/
  | clear (space : Text)
  /-- Choose the login code. -/
  | setPin (pin : Text)
  /-- Evaluate an expression or a condition. -/
  | eval (expr : Text) (condition : Bool) (vars : List (Text × Int32))
  /-- Enter a code on the pad. -/
  | unlock (code : Text)
deriving DecidableEq

namespace Request

/-- What a command line that has been read to its end asks for. -/
def ofReading? (reading : Reading) : Option Request :=
  match reading.verb, reading.operand with
  | .play, some file =>
    let sink := ((reading.value? "sink").bind SinkKind.ofWord?).getD .record
    let paths : GadgetPaths := {
      keyboard := (reading.value? "keyboard-dev").getD "/dev/hidg0"
      mouse := reading.value? "mouse-dev"
      consumer := reading.value? "consumer-dev"
      gamepad := reading.value? "gamepad-dev" }
    some (.play file sink paths (reading.has "raw"))
  | .check, some file => some (.check file !(reading.has "no-delays"))
  | .list, none => some (.list (reading.has "show-secrets"))
  | .clear, some space => some (.clear space)
  | .setPin, some pin => some (.setPin pin)
  | .eval, some expr =>
    let vars := (reading.given.filter fun entry => entry.1 = "var".toList).filterMap
      fun entry => assignment? entry.2
    some (.eval expr (reading.has "condition") vars.reverse)
  | .unlock, some code => some (.unlock code)
  | _, _ => none

/-- Read a command line: what it asks for, and the settings file that it names. -/
def ofWords (words : List Text) : Except Refusal (Request × Option Text) := do
  let reading ← words.foldlM Reading.word {}
  match reading.waiting, ofReading? reading with
  | none, some request => return (request, reading.settingsFile?)
  | _, _ => .error .usage

end Request

end Keyfob.Console
