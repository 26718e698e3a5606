import Keyfob.Json.Token

/-!
# JSON values

A builder takes tokens one by one and keeps the arrays and objects that are open around the
place it has come to. A text is a value if the builder, having taken all of its tokens, has
just that value and nothing open.
-/
namespace Keyfob

/-- A JSON value. Members stand in the order of the text, and a key may occur twice. A string
that spells no text is kept as such. -/
inductive JsonValue where
  /-- The word null. -/
  | null
  /-- A truth value. -/
  | bool (value : Bool)
  /-- A number as it is written. -/
  | number (literal : Text)
  /-- A string. -/
  | string (t : Option Text)
  /-- An array. -/
  | array (items : List JsonValue)
  /-- An object. -/
  | object (members : List (Option Text × JsonValue))

namespace JsonValue

/-- Whether a text is one digit or more. -/
def isDigits (t : Text) : Bool := !t.isEmpty && t.all Text.isDigit

/-- Whether a text is a whole number without sign and without a leading zero. -/
def isWhole (t : Text) : Bool := isDigits t && (t.length == 1 || t.head? != some '0')

/-- Whether a text is what may follow the letter of an exponent. -/
def isExponent : Text → Bool
  | '+' :: digits => isDigits digits
  | '-' :: digits => isDigits digits
  | digits => isDigits digits

/-- Whether a character introduces an exponent. -/
def isExponentMark (c : Char) : Bool := c == 'e' || c == 'E'

/-- Whether a text is a number: digits, then a fraction, then an exponent, either of which may
be missing. -/
def isNumber (t : Text) : Bool :=
  let unsigned := if t.head? = some '-' then t.tail else t
  let mantissa := unsigned.takeWhile fun c => !isExponentMark c
  let whole := mantissa.takeWhile (· != '.')
  let fraction := mantissa.dropWhile (· != '.')
  let exponent := unsigned.dropWhile fun c => !isExponentMark c
  isWhole whole && (fraction.isEmpty || isDigits fraction.tail) &&
    (exponent.isEmpty || isExponent exponent.tail)

/-- The value that a number or word is. -/
def ofBare? (t : Text) : Option JsonValue :=
  if t = "null".toList then some null
  else if t = "true".toList then some (bool true)
  else if t = "false".toList then some (bool false)
  else if isNumber t then some (number t)
  else none

/-- The number of 64 bits that a literal is, if it is written without fraction, exponent and
negative zero. -/
def int? (literal : Text) : Option Int64 :=
  let bounded (n : Int) : Option Int64 :=
    if Int64.minValue.toInt ≤ n ∧ n ≤ Int64.maxValue.toInt then some (Int64.ofInt n) else none
  match literal with
  | '-' :: digits =>
    if isWhole digits && digits != ['0'] then bounded (-(Text.digitsValue digits)) else none
  | digits => if isWhole digits then bounded (Text.digitsValue digits) else none

end JsonValue

/-- An array or object that is open. -/
inductive JsonFrame where
  /-- An array with its items so far, the latest first. -/
  | array (latest : List JsonValue)
  /-- An object with its members so far, the latest first, and a key whose value is missing. -/
  | object (latest : List (Option Text × JsonValue)) (key : Option Text)

/-- What a builder takes next. -/
inductive JsonBuilder where
  /-- A value. -/
  | value (frames : List JsonFrame)
  /-- A value or the end of an array that is empty so far. -/
  | firstItem (frames : List JsonFrame)
  /-- A key of an object with some members, or the end of the object if there are none. -/
  | key (latest : List (Option Text × JsonValue)) (frames : List JsonFrame)
  /-- The colon after the key of a member. -/
  | colon (frames : List JsonFrame)
  /-- A comma after a value, or the end of what is open around it. -/
  | separator (frames : List JsonFrame)
  /-- Nothing after a value. -/
  | done (value : JsonValue)

namespace JsonBuilder

/-- The builder when a value is whole. -/
def close (value : JsonValue) : List JsonFrame → JsonBuilder
  | [] => done value
  | .array latest :: frames => separator (.array (value :: latest) :: frames)
  | .object latest name :: frames => separator (.object ((name, value) :: latest) none :: frames)

/-- Take the token that begins a value. -/
def openValue (frames : List JsonFrame) : JsonToken → Option JsonBuilder
  | .openObject => some (key [] frames)
  | .openArray => some (firstItem (.array [] :: frames))
  | .string t => some (close (.string t) frames)
  | .bare t => (JsonValue.ofBare? t).map fun value => close value frames
  | _ => none

/-- Take a token. -/
def feed : JsonBuilder → JsonToken → Option JsonBuilder
  | value frames, token => openValue frames token
  | firstItem (.array [] :: frames), .closeArray => some (close (.array []) frames)
  | firstItem frames, token => openValue frames token
  | key latest frames, .string t => some (colon (.object latest t :: frames))
  | key [] frames, .closeObject => some (close (.object []) frames)
  | colon frames, .colon => some (value frames)
  | separator (.array latest :: frames), .comma => some (value (.array latest :: frames))
  | separator (.array latest :: frames), .closeArray =>
    some (close (.array latest.reverse) frames)
  | separator (.object latest _ :: frames), .comma => some (key latest frames)
  | separator (.object latest _ :: frames), .closeObject =>
    some (close (.object latest.reverse) frames)
  | _, _ => none

/-- Take tokens in order. -/
def feedAll : JsonBuilder → List JsonToken → Option JsonBuilder
  | builder, [] => some builder
  | builder, token :: tokens => do feedAll (← builder.feed token) tokens

end JsonBuilder

/-- The value that a text is, if it is one. -/
def JsonValue.parse? (t : Text) : Option JsonValue := do
  match ← (JsonBuilder.value []).feedAll (← JsonToken.scan? t) with
  | .done value => some value
  | _ => none

end Keyfob
