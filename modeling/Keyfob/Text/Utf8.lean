import Keyfob.Text.Basic

/-!
# UTF-8

Text is sent and stored as its UTF-8 bytes. Reading never fails: bytes that spell no character
are read as the replacement character, one for each longest run of bytes that begins a
character without completing it. `decode?` accepts only bytes that spell characters throughout.
-/
namespace Keyfob.Text

/-- The UTF-8 bytes of a text. -/
def utf8 (t : Text) : List UInt8 := t.flatMap String.utf8EncodeChar

/-- The number of bytes that a text takes. -/
def byteLength (t : Text) : Nat := (utf8 t).length

/-- The character that stands for bytes that spell none. -/
def replacement : Char := '\ufffd'

/-- The low six bits of a continuation byte. -/
def continuationBits (b : UInt8) : Nat := b.toNat % 64

/-- Whether a byte continues a character. -/
def isContinuation (b : UInt8) : Bool := 0x80 ≤ b && b ≤ 0xbf

/-- Whether a byte may follow a given first byte of a character: surrogates, overlong forms and
code points past the last are excluded here. -/
def mayFollow (first second : UInt8) : Bool :=
  if first = 0xe0 then 0xa0 ≤ second && second ≤ 0xbf
  else if first = 0xed then 0x80 ≤ second && second ≤ 0x9f
  else if first = 0xf0 then 0x90 ≤ second && second ≤ 0xbf
  else if first = 0xf4 then 0x80 ≤ second && second ≤ 0x8f
  else isContinuation second

/-- Read the character that a byte and the bytes after it begin with: the character, or none
where they spell none, and how many of the bytes after the first belong to it. -/
def decodeFirst (first : UInt8) (rest : List UInt8) : Option Char × Nat :=
  if first < 0x80 then (some (Char.ofNat first.toNat), 0)
  else if first < 0xc2 || 0xf4 < first then (none, 0)
  else
    match rest with
    | [] => (none, 0)
    | second :: rest =>
      if !mayFollow first second then (none, 0)
      else if first < 0xe0 then
        (some (Char.ofNat (first.toNat % 32 * 64 + continuationBits second)), 1)
      else
        match rest with
        | [] => (none, 1)
        | third :: rest =>
          if !isContinuation third then (none, 1)
          else if first < 0xf0 then
            (some (Char.ofNat ((first.toNat % 16 * 64 + continuationBits second) * 64 +
              continuationBits third)), 2)
          else
            match rest with
            | [] => (none, 2)
            | fourth :: _ =>
              if !isContinuation fourth then (none, 2)
              else
                (some (Char.ofNat (((first.toNat % 8 * 64 + continuationBits second) * 64 +
                  continuationBits third) * 64 + continuationBits fourth)), 3)

/-- The characters that bytes spell, after some bytes that the character before has taken;
`none` stands where a run of bytes spells no character. -/
def decodeAfter : Nat → List UInt8 → List (Option Char)
  | _, [] => []
  | taken + 1, _ :: bytes => decodeAfter taken bytes
  | 0, b :: bytes =>
    let (c, more) := decodeFirst b bytes
    c :: decodeAfter more bytes

/-- The text that bytes spell, with the replacement character for what spells none. -/
def decode (bytes : List UInt8) : Text := (decodeAfter 0 bytes).map (·.getD replacement)

/-- The text that bytes spell, if they spell characters throughout. -/
def decode? (bytes : List UInt8) : Option Text := (decodeAfter 0 bytes).mapM id

end Keyfob.Text
