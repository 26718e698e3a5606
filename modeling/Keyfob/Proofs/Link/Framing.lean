import Keyfob.Link.Line
import Keyfob.Proofs.Text.Utf8

/-!
# Lines come through framing

A line that is sent whole comes out of the framer as it was sent, wherever its bytes were cut on
their way. The carriage return of a line's end counts towards `Framer.longest` until the line
feed comes, so there is one exception: a line whose text fills the framer and which ends with
both comes out as two lines (`Line.received`).
-/
namespace Keyfob

namespace Text

/-- A character below 128 is one byte. -/
theorem utf8EncodeChar_of_small {c : Char} (small : c.toNat < 0x80) :
    String.utf8EncodeChar c = [UInt8.ofNat c.toNat] := by
  unfold String.utf8EncodeChar
  exact if_pos (Nat.le_of_lt_succ small)

/-- The bytes of a character from 128 on are from 128 on. -/
theorem le_of_mem_utf8EncodeChar {c : Char} {b : UInt8} (large : 0x80 ≤ c.toNat)
    (listed : b ∈ String.utf8EncodeChar c) : 0x80 ≤ b.toNat := by
  have made (n base : Nat) (low : 0x80 ≤ base) (fits : n + base < 256) :
      0x80 ≤ (UInt8.ofNat (n + base)).toNat := by
    rw [toNat_byte fits]
    omega
  have several : ¬c.val.toNat ≤ 0x7f := Nat.not_le.mpr large
  unfold String.utf8EncodeChar at listed
  simp only [if_neg several] at listed
  split at listed
  · simp only [List.mem_cons, List.not_mem_nil, or_false] at listed
    obtain rfl | rfl := listed
    all_goals exact made _ _ (by omega) (by omega)
  split at listed
  · simp only [List.mem_cons, List.not_mem_nil, or_false] at listed
    obtain rfl | rfl | rfl := listed
    all_goals exact made _ _ (by omega) (by omega)
  · simp only [List.mem_cons, List.not_mem_nil, or_false] at listed
    obtain rfl | rfl | rfl | rfl := listed
    all_goals exact made _ _ (by omega) (by omega)

/-- A byte below 128 stands in the bytes of just one character. -/
theorem toNat_eq_of_mem_utf8EncodeChar {c : Char} {b : UInt8}
    (listed : b ∈ String.utf8EncodeChar c) (small : b.toNat < 0x80) : c.toNat = b.toNat := by
  by_cases single : c.toNat < 0x80
  · rw [utf8EncodeChar_of_small single, List.mem_singleton] at listed
    rw [listed, toNat_byte (by omega)]
  · have large := le_of_mem_utf8EncodeChar (Nat.not_lt.mp single) listed
    omega

/-- A text without line feeds has no byte that ends a line. -/
theorem feedByte_notMem_utf8 {t : Text} (oneLine : '\n' ∉ t) : Line.feedByte ∉ t.utf8 := by
  intro listed
  obtain ⟨c, among, inside⟩ := List.mem_flatMap.mp listed
  have same : c.toNat = '\n'.toNat := toNat_eq_of_mem_utf8EncodeChar inside (by decide)
  exact oneLine (Char.toNat_inj.mp same ▸ among)

/-- The last byte of a text is a carriage return only if its last character is one. -/
theorem getLast?_eq_of_utf8 {t : Text} (last : t.utf8.getLast? = some Line.returnByte) :
    t.getLast? = some '\r' := by
  obtain rfl | ⟨s, c, made⟩ := List.eq_nil_or_concat t
  · cases last
  · rw [List.concat_eq_append] at made
    subst made
    obtain ⟨first, more, bytes, _⟩ := decodeFirst_utf8EncodeChar c []
    have nonempty : String.utf8EncodeChar c ≠ [] := bytes ▸ List.cons_ne_nil first more
    have whole : utf8 (s ++ [c]) = utf8 s ++ String.utf8EncodeChar c := by
      rw [utf8_append]
      exact congrArg (utf8 s ++ ·) (List.append_nil _)
    rw [whole, List.getLast?_eq_some_getLast (List.append_ne_nil_of_right_ne_nil _ nonempty),
      List.getLast_append_of_ne_nil _ nonempty, Option.some.injEq] at last
    have inside := last ▸ List.getLast_mem nonempty
    have same : c.toNat = '\r'.toNat := toNat_eq_of_mem_utf8EncodeChar inside (by decide)
    rw [List.getLast?_concat, Char.toNat_inj.mp same]

end Text

namespace Line

/-- The bytes that are sent at the end of a line. -/
def ending (line : Line) : List UInt8 :=
  if line.crlf then [returnByte, feedByte] else [feedByte]

/-- The bytes of a line as it is sent. -/
def wire (line : Line) : List UInt8 := line.text.utf8 ++ line.ending

/-- A line that its end tells apart: its text is no longer than a framer keeps, and has neither a
line feed in it nor a carriage return at its end. -/
structure Sendable (line : Line) : Prop where
  /-- The framer keeps the text. -/
  short : line.text.byteLength ≤ Framer.longest
  /-- No line feed is in the text. -/
  oneLine : '\n' ∉ line.text
  /-- No carriage return is at the end of the text. -/
  noReturn : line.text.getLast? ≠ some '\r'

/-- A line that the framer keeps with the carriage return of its end, if there is one. -/
def Roomy (line : Line) : Prop := line.crlf = true → line.text.byteLength < Framer.longest

instance (line : Line) : Decidable line.Roomy := inferInstanceAs (Decidable (_ → _))

/-- The lines that the framer makes of a line. -/
def received (line : Line) : List Line :=
  if line.Roomy then [line] else [{ text := line.text }, { text := [], crlf := true }]

/-- The bytes of a text that does not end in a carriage return make the line of the text. -/
theorem ofLatest_utf8 {t : Text} (noReturn : t.getLast? ≠ some '\r') :
    ofLatest t.utf8.reverse = { text := t } := by
  cases bytes : t.utf8.reverse with
  | nil =>
    rw [List.reverse_eq_nil_iff] at bytes
    have whole := Text.decode_utf8 t
    rw [bytes] at whole
    rw [← whole]
    rfl
  | cons b earlier =>
    have last : t.utf8.getLast? = some b := by
      rw [List.getLast?_eq_head?_reverse, bytes]
      rfl
    have other : b ≠ returnByte := by
      rintro rfl
      exact noReturn (Text.getLast?_eq_of_utf8 last)
    rw [ofLatest, if_neg other, ← bytes, List.reverse_reverse, Text.decode_utf8]

/-- The bytes of a text and a carriage return make the line of the text with the return noted. -/
theorem ofLatest_return (t : Text) :
    ofLatest (returnByte :: t.utf8.reverse) = { text := t, crlf := true } := by
  rw [ofLatest, if_pos rfl, List.reverse_reverse, Text.decode_utf8]

end Line

namespace Framer

/-- Framers with the same bytes are the same. -/
theorem eq_of_latest {framer other : Framer} (same : framer.latest = other.latest) :
    framer = other := by
  obtain ⟨latest, pending, right⟩ := framer
  obtain ⟨latest', pending', right'⟩ := other
  cases same
  cases right
  cases right'
  rfl

/-- The byte that ends a line completes it. -/
theorem feed_feedByte (framer : Framer) :
    framer.feed Line.feedByte = (empty, [Line.ofLatest framer.latest]) := if_pos rfl

/-- Another byte is kept while there is room. -/
theorem feed_of_room {framer : Framer} {b : UInt8} (inside : b ≠ Line.feedByte)
    (room : framer.latest.length < longest) :
    framer.feed b = ({ latest := b :: framer.latest }, []) := by
  have space : ¬framer.pending ≥ longest := Nat.not_le.mpr (framer.pending_eq ▸ room)
  rw [feed, if_neg inside, if_neg space]
  exact congrArg (·, []) (eq_of_latest rfl)

/-- Another byte ends the line where there is no room. -/
theorem feed_of_full {framer : Framer} {b : UInt8} (inside : b ≠ Line.feedByte)
    (full : longest ≤ framer.latest.length) :
    framer.feed b = ({ latest := [b] }, [Line.ofLatest framer.latest]) := by
  have used : framer.pending ≥ longest := framer.pending_eq ▸ full
  rw [feed, if_neg inside, if_pos used]

/-- Bytes that end no line are kept while there is room. -/
theorem feedAll_of_room {bytes : List UInt8} (inside : Line.feedByte ∉ bytes) (framer : Framer)
    (room : framer.latest.length + bytes.length ≤ longest) :
    framer.feedAll bytes = ({ latest := bytes.reverse ++ framer.latest }, []) := by
  induction bytes generalizing framer with
  | nil => exact congrArg (·, []) (eq_of_latest rfl)
  | cons b bytes ih =>
    rw [List.length_cons] at room
    have first : b ≠ Line.feedByte := fun same => inside (same ▸ List.mem_cons_self)
    have later : Line.feedByte ∉ bytes := fun listed => inside (List.mem_cons_of_mem _ listed)
    have rest := ih later { latest := b :: framer.latest } (by rw [List.length_cons]; omega)
    rw [feedAll, feed_of_room first (by omega)]
    dsimp only
    rw [rest, List.reverse_cons, List.append_assoc]
    rfl

/-- A line that is sent is received, and nothing of it is left over. -/
theorem feedAll_wire {line : Line} (sendable : line.Sendable) :
    empty.feedAll line.wire = (empty, line.received) := by
  obtain ⟨text, crlf⟩ := line
  obtain ⟨short, oneLine, noReturn⟩ := sendable
  have kept : empty.feedAll text.utf8 = ({ latest := text.utf8.reverse }, []) := by
    have whole := feedAll_of_room (Text.feedByte_notMem_utf8 oneLine) empty
      (by rw [show empty.latest.length = 0 from rfl, Nat.zero_add]; exact short)
    rwa [show empty.latest = [] from rfl, List.append_nil] at whole
  have return_ne : Line.returnByte ≠ Line.feedByte := by decide
  rw [Line.wire, feedAll_append, kept]
  cases crlf with
  | false =>
    have roomy : Line.Roomy { text := text } := fun set => absurd set Bool.false_ne_true
    simp only [Line.ending, Line.received, if_pos roomy, Bool.false_eq_true, if_false, feedAll,
      feed_feedByte, Line.ofLatest_utf8 noReturn, List.nil_append, List.append_nil]
  | true =>
    by_cases room : text.byteLength < longest
    · have roomy : Line.Roomy { text := text, crlf := true } := fun _ => room
      have space : ({ latest := text.utf8.reverse } : Framer).latest.length < longest := by
        rw [List.length_reverse]
        exact room
      simp only [Line.ending, Line.received, if_pos roomy, if_true, feedAll,
        feed_of_room return_ne space, feed_feedByte, Line.ofLatest_return, List.nil_append,
        List.append_nil]
    · have narrow : ¬Line.Roomy { text := text, crlf := true } := fun roomy => room (roomy rfl)
      have full : longest ≤ ({ latest := text.utf8.reverse } : Framer).latest.length := by
        rw [List.length_reverse]
        exact Nat.not_lt.mp room
      simp only [Line.ending, Line.received, if_neg narrow, if_true, feedAll,
        feed_of_full return_ne full, feed_feedByte, Line.ofLatest_utf8 noReturn, List.nil_append,
        List.append_nil, List.cons_append]
      rfl

/-- Lines that are sent one after another are received one after another. -/
theorem feedAll_wires {lines : List Line} (sendable : ∀ line ∈ lines, line.Sendable) :
    empty.feedAll (lines.flatMap Line.wire) = (empty, lines.flatMap Line.received) := by
  induction lines with
  | nil => rfl
  | cons line lines ih =>
    have later := ih fun other listed => sendable other (List.mem_cons_of_mem _ listed)
    rw [List.flatMap_cons, List.flatMap_cons, feedAll_append,
      feedAll_wire (sendable line List.mem_cons_self), later]

/-- Take pieces of bytes in order: for each, the lines that it completes. -/
def feedPieces : Framer → List (List UInt8) → Framer × List (List Line)
  | framer, [] => (framer, [])
  | framer, piece :: pieces =>
    let (framer, completed) := framer.feedAll piece
    let (framer, later) := framer.feedPieces pieces
    (framer, completed :: later)

/-- How the bytes are cut into pieces does not matter. -/
theorem feedPieces_flatten (framer : Framer) (pieces : List (List UInt8)) :
    ((framer.feedPieces pieces).1, (framer.feedPieces pieces).2.flatten) =
      framer.feedAll pieces.flatten := by
  induction pieces generalizing framer with
  | nil => rfl
  | cons piece pieces ih =>
    have later := Prod.mk.inj (ih (framer.feedAll piece).1)
    rw [List.flatten_cons, feedAll_append]
    simp only [feedPieces, List.flatten_cons, later.1, later.2]

/-- Lines are received as they were sent exactly if each is kept with its end. -/
theorem received_eq_iff (lines : List Line) :
    lines.flatMap Line.received = lines ↔ ∀ line ∈ lines, line.Roomy := by
  induction lines with
  | nil => exact iff_of_true rfl nofun
  | cons line lines ih =>
    rw [List.flatMap_cons, List.forall_mem_cons]
    by_cases roomy : line.Roomy
    · rw [Line.received, if_pos roomy, List.singleton_append, List.cons.injEq, ih]
      exact ⟨fun same => ⟨roomy, same.2⟩, fun all => ⟨rfl, all.2⟩⟩
    · -- The first of the two lines lost the carriage return that the line was sent with.
      rw [Line.received, if_neg roomy]
      refine iff_of_false (fun same => ?_) (fun all => roomy all.1)
      obtain ⟨text, crlf⟩ := line
      have bare : false = crlf := congrArg Line.crlf (List.cons.inj same).1
      exact roomy fun set => absurd (bare.trans set) Bool.false_ne_true

/-- Lines that are sent are received in order, nothing being left over, wherever their bytes are
cut into pieces; and they are received exactly as they were sent, each with its end, if and only
if the framer keeps each with the carriage return of its end. -/
theorem received_of_sent {lines : List Line} (sendable : ∀ line ∈ lines, line.Sendable)
    {pieces : List (List UInt8)} (cut : pieces.flatten = lines.flatMap Line.wire) :
    (empty.feedPieces pieces).1.pending = 0 ∧
      (empty.feedPieces pieces).2.flatten = lines.flatMap Line.received ∧
      ((empty.feedPieces pieces).2.flatten = lines ↔ ∀ line ∈ lines, line.Roomy) := by
  have whole := feedPieces_flatten empty pieces
  rw [cut, feedAll_wires sendable] at whole
  obtain ⟨rest, heard⟩ := Prod.mk.inj whole
  rw [rest, heard, received_eq_iff]
  exact ⟨rfl, rfl, Iff.rfl⟩

/-- Lines of either end, with and without a text. -/
def mixedLines : List Line :=
  [{ text := "é", crlf := true }, { text := [] }, { text := "a\rb" }, { text := [], crlf := true }]

/-- The bytes of such lines, cut inside a character and before a line feed. -/
def mixedPieces : List (List UInt8) :=
  [[0xc3], [0xa9, 0x0d], [0x0a, 0x0a, 0x61, 0x0d, 0x62, 0x0a], [], [0x0d, 0x0a]]

/-- Such lines are received as they were sent. -/
theorem received_mixedLines : (empty.feedPieces mixedPieces).2.flatten = mixedLines := by
  have sendable : ∀ line ∈ mixedLines, line.Sendable := by
    simp only [mixedLines, List.forall_mem_cons]
    refine ⟨?_, ?_, ?_, ?_, nofun⟩
    all_goals exact ⟨by decide, by decide, by decide⟩
  have cut : mixedPieces.flatten = mixedLines.flatMap Line.wire := by decide
  exact (received_of_sent sendable cut).2.2.mpr (by decide)

/-- A line whose text fills the framer and which ends with both bytes is received as two: its text
without a carriage return, and an empty line with one. -/
theorem received_of_full {t : Text} (full : t.byteLength = longest) (oneLine : '\n' ∉ t)
    (noReturn : t.getLast? ≠ some '\r') :
    let line : Line := { text := t, crlf := true }
    line.Sendable ∧ (empty.feedPieces [line.wire]).2.flatten =
      [{ text := t }, { text := [], crlf := true }] := by
  intro line
  have sendable : line.Sendable := ⟨Nat.le_of_eq full, oneLine, noReturn⟩
  have narrow : ¬line.Roomy := fun roomy => absurd full (Nat.ne_of_lt (roomy rfl))
  have whole : (empty.feedPieces [line.wire]).2.flatten = line.received := by
    simp only [feedPieces, feedAll_wire sendable, List.flatten_cons, List.flatten_nil,
      List.append_nil]
  rw [whole, Line.received, if_neg narrow]
  exact ⟨sendable, rfl⟩

/-- The longest text that can be sent is not received as it was sent if both bytes end it. -/
theorem split_longest :
    let line : Line := { text := List.replicate longest 'x', crlf := true }
    line.Sendable ∧ (empty.feedPieces [line.wire]).2.flatten =
      [{ text := List.replicate longest 'x' }, { text := [], crlf := true }] := by
  have long (n : Nat) : Text.byteLength (List.replicate n 'x') = n := by
    induction n with
    | zero => rfl
    | succ n ih => exact congrArg (· + 1) ih
  refine received_of_full (long longest) ?_ ?_
  · exact fun listed => absurd (List.eq_of_mem_replicate listed) (by decide)
  · rw [List.getLast?_replicate]
    decide

end Framer

end Keyfob
