import Keyfob.Link.LineLink
import Keyfob.Proofs.Text.Lines
import Keyfob.Proofs.Text.Utf8
import Mathlib.Data.List.DropRight

/-!
# What the other side makes of the lines that are sent

A line is sent as its bytes and those of the link's line ending, cut into writes wherever the limit
falls, inside a character or between the two bytes of an ending as well. The writes one after
another are the bytes again (`LineLink.flatten_parts`), so the other side finds the lines that were
sent, whatever the limit is (`LineLink.sentLines_of_sendLines`).
-/
namespace Keyfob

namespace ChunkSize

variable (size : ChunkSize)

/-- The parts of some bytes are the bytes. -/
theorem flatten_cut (bytes : List UInt8) : (size.cut bytes).flatten = bytes := by
  fun_induction cut size bytes with
  | case1 => rfl
  | case2 b rest ih =>
    rw [List.flatten_cons, ih]
    exact List.take_append_drop size.bytes (b :: rest)

/-- No part is empty, and none is larger than the size. -/
theorem fits_of_mem_cut {bytes part : List UInt8} (listed : part ∈ size.cut bytes) :
    part ≠ [] ∧ part.length ≤ size.bytes := by
  have positive := size.positive
  fun_induction cut size bytes with
  | case1 => cases listed
  | case2 b rest ih =>
    rcases List.mem_cons.mp listed with first | later
    · have length : part.length = min size.bytes (rest.length + 1) := by
        rw [first, List.length_take, List.length_cons]
      constructor
      · intro none
        rw [none, List.length_nil] at length
        omega
      · omega
    · exact ih later

end ChunkSize

namespace Text

/-- A text that does not end in a carriage return has none at its end to be taken off. -/
theorem withoutReturn_of_ne {t : Text} (noReturn : t.getLast? ≠ some '\r') :
    t.withoutReturn = t := if_neg noReturn

/-- A carriage return at the end is taken off. -/
theorem withoutReturn_concat (t : Text) : withoutReturn (t ++ ['\r']) = t := by
  rw [withoutReturn, List.getLast?_concat, if_pos rfl, List.dropLast_concat]

/-- Texts of one line each, none of which ends in a carriage return, are the lines of what is
written of them with the line endings of a link. -/
theorem lines_endings (kind : LinkKind) {texts : List Text} (oneLine : ∀ t ∈ texts, '\n' ∉ t)
    (noReturn : ∀ t ∈ texts, t.getLast? ≠ some '\r') :
    lines (texts.flatMap (· ++ kind.ending)) = texts := by
  cases kind with
  | ble =>
    have feeds : texts.flatMap (· ++ LinkKind.ble.ending) = texts.flatMap (· ++ ['\n']) := rfl
    have kept : texts.map withoutReturn = texts.map id :=
      List.map_congr_left fun t listed => withoutReturn_of_ne (noReturn t listed)
    rw [feeds, lines_flatMap_feed oneLine, kept, List.map_id]
  | serial =>
    -- The carriage returns of the endings count as the ends of the lines, which are taken off.
    have feeds : texts.flatMap (· ++ LinkKind.serial.ending) =
        (texts.map (· ++ ['\r'])).flatMap (· ++ ['\n']) := by
      rw [List.flatMap_map]
      refine List.flatMap_congr fun t _ => ?_
      rw [List.append_assoc]
      rfl
    have oneLine' : ∀ t ∈ texts.map (· ++ ['\r']), '\n' ∉ t := by
      intro t listed
      obtain ⟨s, among, rfl⟩ := List.mem_map.mp listed
      intro inside
      rcases List.mem_append.mp inside with text | ending
      · exact oneLine s among text
      · exact absurd (List.mem_singleton.mp ending) (by decide)
    have kept : (texts.map (· ++ ['\r'])).map withoutReturn = texts.map id := by
      rw [List.map_map]
      exact List.map_congr_left fun t _ => withoutReturn_concat t
    rw [feeds, lines_flatMap_feed oneLine', kept, List.map_id]

/-- The bytes of texts in turn are those of the texts as one. -/
theorem utf8_flatMap {α : Type} (text : α → Text) (items : List α) :
    utf8 (items.flatMap text) = items.flatMap fun item => (text item).utf8 := List.flatMap_assoc

end Text

/-- Where the lines that are written end in no carriage return of their own, the other side finds
them. -/
theorem Channel.sentLines_of_lines {channel : Channel} {texts : List Text}
    (made : (Text.decode channel.sent.flatten).lines = texts)
    (noReturn : ∀ t ∈ texts, t.getLast? ≠ some '\r') : channel.sentLines = texts := by
  have kept : ∀ t ∈ texts, (t.reverse.dropWhile (· == '\r')).reverse = id t := by
    intro t listed
    refine List.rdropWhile_eq_self_iff.mpr fun nonempty isReturn => noReturn t listed ?_
    rw [List.getLast?_eq_some_getLast nonempty, beq_iff_eq.mp isReturn]
  rw [sentLines, made, List.map_congr_left kept, List.map_id]

namespace LineLink

/-- Send lines in order, up to the first that fails. -/
def sendLines : List Text → LineLink → Except LinkError Unit × LineLink
  | [], link => (.ok (), link)
  | t :: texts, link =>
    match link.sendLine t with
    | (.ok (), link) => sendLines texts link
    | (.error e, link) => (.error e, link)

/-- A link that takes every write. -/
structure Ready (link : LineLink) : Prop where
  /-- The other side is there. -/
  connected : link.channel.connected = true
  /-- No write fails on its own. -/
  steady : link.channel.lapses = []

/-- The link after some writes. -/
def wrote (link : LineLink) (writes : List (List UInt8)) : LineLink :=
  { link with channel :=
    { link.channel with latest := writes.reverse ++ link.channel.latest } }

/-- Writes in two parts. -/
theorem wrote_wrote (link : LineLink) (first second : List (List UInt8)) :
    (link.wrote first).wrote second = link.wrote (first ++ second) := by
  simp only [wrote, List.reverse_append, List.append_assoc]

/-- What was written stands after what was written before. -/
theorem sent_wrote (link : LineLink) (writes : List (List UInt8)) :
    (link.wrote writes).channel.sent = link.channel.sent ++ writes := by
  simp only [wrote, Channel.sent, List.reverse_append, List.reverse_reverse]

/-- A link that takes every write goes on doing so. -/
theorem Ready.wrote {link : LineLink} (ready : link.Ready) (writes : List (List UInt8)) :
    (link.wrote writes).Ready := ⟨ready.connected, ready.steady⟩

/-- One write is taken. -/
theorem Ready.write {link : LineLink} (ready : link.Ready) (part : List UInt8) :
    link.channel.write part = (.ok (), (link.wrote [part]).channel) := by
  obtain ⟨connected, steady⟩ := ready
  have fails : link.channel.lapses.fails = false := by
    rw [steady]
    rfl
  have tail : link.channel.lapses.tail = link.channel.lapses := by
    rw [steady]
    rfl
  unfold Channel.write
  rw [if_neg (Bool.eq_false_iff.mp fails), if_pos connected, tail]
  rfl

/-- Parts are taken one by one. -/
theorem Ready.sendParts {link : LineLink} (ready : link.Ready) (parts : List (List UInt8)) :
    LineLink.sendParts parts link = (.ok (), link.wrote parts) := by
  induction parts generalizing link with
  | nil => rfl
  | cons part parts ih =>
    have later := ih (ready.wrote [part])
    rw [wrote_wrote] at later
    rw [LineLink.sendParts, ready.write part]
    exact later

/-- The writes of some lines. -/
def writesOf (link : LineLink) (texts : List Text) : List (List UInt8) :=
  texts.flatMap fun t => link.parts (t ++ link.kind.ending).utf8

/-- Lines are taken one by one. -/
theorem Ready.sendLines {link : LineLink} (ready : link.Ready) (texts : List Text) :
    LineLink.sendLines texts link = (.ok (), link.wrote (link.writesOf texts)) := by
  induction texts generalizing link with
  | nil => rfl
  | cons t texts ih =>
    have first : link.sendLine t =
        (.ok (), link.wrote (link.parts (t ++ link.kind.ending).utf8)) := ready.sendParts _
    have later := ih (ready.wrote (link.parts (t ++ link.kind.ending).utf8))
    rw [wrote_wrote] at later
    rw [LineLink.sendLines, first]
    exact later

/-- The writes of some bytes are the bytes. -/
theorem flatten_parts (link : LineLink) (bytes : List UInt8) :
    (link.parts bytes).flatten = bytes := by
  unfold parts
  split
  · next size _ => exact size.flatten_cut bytes
  · exact List.append_nil bytes

/-- No write of some bytes is empty, and none is larger than the limit. -/
theorem fits_of_mem_parts {link : LineLink} {bytes part : List UInt8} (nonempty : bytes ≠ [])
    (listed : part ∈ link.parts bytes) :
    part ≠ [] ∧ ∀ size, link.chunkSize = some size → part.length ≤ size.bytes := by
  unfold parts at listed
  split at listed
  · next size limited =>
    obtain ⟨some', fits⟩ := size.fits_of_mem_cut listed
    refine ⟨some', fun other same => ?_⟩
    rw [limited] at same
    cases same
    exact fits
  · next unlimited =>
    obtain rfl := List.mem_singleton.mp listed
    refine ⟨nonempty, fun size limited => ?_⟩
    rw [unlimited] at limited
    cases limited

/-- A line is sent as at least one byte. -/
theorem utf8_ending_ne_nil (kind : LinkKind) (t : Text) : (t ++ kind.ending).utf8 ≠ [] := by
  rw [Text.utf8_append]
  refine List.append_ne_nil_of_right_ne_nil _ ?_
  cases kind <;> decide

/-- Lines that are sent on a link that takes every write, all of whose earlier writes the other side
has taken, whatever its kind and its limit: no write is empty or larger than the limit, together
they are each text with the ending of the link, and the other side finds just the lines that were
sent, if none of them has a line feed in it or a carriage return at its end. -/
theorem sentLines_of_sendLines {link : LineLink} (ready : link.Ready)
    (taken : link.channel.latest = []) {texts : List Text} (oneLine : ∀ t ∈ texts, '\n' ∉ t)
    (noReturn : ∀ t ∈ texts, t.getLast? ≠ some '\r') :
    ∃ after, link.sendLines texts = (.ok (), after) ∧
      (∀ write ∈ after.channel.sent, write ≠ [] ∧
        ∀ size, link.chunkSize = some size → write.length ≤ size.bytes) ∧
      after.channel.sent.flatten = texts.flatMap (fun t => t.utf8 ++ link.kind.ending.utf8) ∧
      after.channel.sentLines = texts := by
  have sent : (link.wrote (link.writesOf texts)).channel.sent = link.writesOf texts := by
    rw [sent_wrote, Channel.sent, taken, List.reverse_nil, List.nil_append]
  have whole : (link.writesOf texts).flatten =
      Text.utf8 (texts.flatMap (· ++ link.kind.ending)) := by
    rw [writesOf, ← List.flatMap_id, List.flatMap_assoc, Text.utf8_flatMap]
    refine List.flatMap_congr fun t _ => ?_
    rw [List.flatMap_id, link.flatten_parts]
  refine ⟨_, ready.sendLines texts, ?_, ?_, ?_⟩
  · intro write listed
    rw [sent] at listed
    obtain ⟨t, -, among⟩ := List.mem_flatMap.mp listed
    exact fits_of_mem_parts (utf8_ending_ne_nil link.kind t) among
  · rw [sent, whole, Text.utf8_flatMap]
    exact List.flatMap_congr fun t _ => Text.utf8_append t link.kind.ending
  · apply Channel.sentLines_of_lines _ noReturn
    rw [sent, whole, Text.decode_utf8, Text.lines_endings link.kind oneLine noReturn]

/-- Lines are found again on a serial link that writes byte by byte. -/
theorem sentLines_of_sendLines_bytewise :
    let link : LineLink := { channel := { kind := .serial }, chunkSize := some { bytes := 1 } }
    let texts : List Text := ["é", "", "a\rb"]
    link.Ready ∧ link.channel.latest = [] ∧ (∀ t ∈ texts, '\n' ∉ t) ∧
      (∀ t ∈ texts, t.getLast? ≠ some '\r') ∧
      ∃ after, link.sendLines texts = (.ok (), after) ∧
        (∀ write ∈ after.channel.sent, write.length = 1) ∧ after.channel.sentLines = texts := by
  intro link texts
  have ready : link.Ready := ⟨rfl, rfl⟩
  have oneLine : ∀ t ∈ texts, '\n' ∉ t := by decide
  have noReturn : ∀ t ∈ texts, t.getLast? ≠ some '\r' := by decide
  obtain ⟨after, sent, fits, -, lines⟩ := sentLines_of_sendLines ready rfl oneLine noReturn
  refine ⟨ready, rfl, oneLine, noReturn, after, sent, fun write listed => ?_, lines⟩
  obtain ⟨nonempty, small⟩ := fits write listed
  have most : write.length ≤ 1 := small { bytes := 1 } rfl
  have least : 0 < write.length := List.length_pos_iff.mpr nonempty
  omega

end LineLink

end Keyfob
