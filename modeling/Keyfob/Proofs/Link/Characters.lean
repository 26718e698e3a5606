import Keyfob.Proofs.Link.Ends
import Mathlib.Data.List.Basic

/-!
# Characters of lines

The greatest length of a line is counted in bytes, so a line that is cut may end inside a character.
Neither line then has the character: each is read with the replacement character in its place. For
bytes that spell a text this is told by the byte at the end, which continues a character there
(`Framer.characters_of_stream`).
-/
namespace Keyfob

open Line (feedByte returnByte)

namespace Text

/-- A text whose bytes are first among those of another begins it. -/
theorem prefix_of_utf8 {front t : Text} {rest : List UInt8} (whole : front.utf8 ++ rest = t.utf8) :
    front ++ decode rest = t := by
  rw [← decode_utf8_append, whole, decode_utf8]

/-- Where the bytes of a character break off, they end in none below 128. -/
theorem le_of_getLast?_lead {c : Char} {lead left : List UInt8} {b : UInt8}
    (bytes : String.utf8EncodeChar c = lead ++ left) (begun : lead ≠ []) (broken : left ≠ [])
    (last : lead.getLast? = some b) : 0x80 ≤ b.toNat := by
  have several : ¬c.toNat < 0x80 := by
    intro small
    have lengths := congrArg List.length (utf8EncodeChar_of_small small ▸ bytes)
    have first := List.length_pos_iff.mpr begun
    have second := List.length_pos_iff.mpr broken
    rw [List.length_append, List.length_singleton] at lengths
    omega
  refine le_of_mem_utf8EncodeChar (Nat.not_lt.mp several) ?_
  rw [bytes]
  exact List.mem_append_left _ (List.mem_of_getLast? last)

end Text

namespace LineEnd

/-- The ends in the front of a stream are ends in it. -/
theorem mem_ends_of_begins {front stream : List UInt8} (begins : front <+: stream) {place : LineEnd}
    (listed : place ∈ ends front) : place ∈ ends stream := by
  rw [mem_ends_iff] at listed ⊢
  exact ⟨listed.1.trans begins, listed.2⟩

/-- A byte in a text stands before others. -/
theorem exists_rest_of_prefix {t : Text} {before : List UInt8} {b : UInt8}
    (begins : before ++ [b] <+: t.utf8) : ∃ rest, t.utf8 = before ++ b :: rest := by
  obtain ⟨rest, whole⟩ := begins
  exact ⟨rest, by rw [← whole, List.append_assoc]; rfl⟩

/-- While no line has ended inside a character of a text, what is held begins between two. -/
theorem held_of_unbroken {t : Text} {stream : List UInt8} (begins : stream <+: t.utf8)
    (unbroken : ∀ place ∈ ends stream, Text.isContinuation place.byte = false) :
    ∃ front : Text, front.utf8 ++ Framer.held stream = stream := by
  induction stream using List.reverseRecOn with
  | nil => exact ⟨[], rfl⟩
  | append_singleton stream b ih =>
    obtain ⟨front, whole⟩ := ih ((List.prefix_append _ _).trans begins) fun place listed =>
      unbroken place (mem_ends_of_begins (List.prefix_append _ _) listed)
    rw [Framer.held_concat]
    by_cases inside : Framer.EndsAt stream b
    · -- What was held ends between two characters too.
      obtain ⟨rest, split⟩ := exists_rest_of_prefix begins
      have leads : Text.isContinuation b = false :=
        unbroken ⟨stream, b⟩ (mem_ends_iff.mpr ⟨List.prefix_rfl, inside⟩)
      obtain ⟨-, other, -, rfl⟩ | ⟨continues, -⟩ := Text.place_of_utf8 split
      · split
        · next feeds =>
          refine ⟨other ++ ['\n'], ?_⟩
          rw [Text.utf8_append, List.append_nil, feeds]
          rfl
        · exact ⟨other, rfl⟩
      · rw [leads] at continues
        cases continues
    · have feeds : b ≠ feedByte := fun same => inside (.inl same)
      refine ⟨front, ?_⟩
      rw [if_neg feeds, if_neg inside, ← List.append_assoc, whole]

/-- Bytes between two characters of a text are read as what stands there. -/
theorem plain_between {t : Text} (front : Text) (plain : Text.replacement ∉ t)
    {inner : List UInt8} {b : UInt8} (begins : front.utf8 ++ inner ++ [b] <+: t.utf8)
    (leads : Text.isContinuation b = false) : Text.replacement ∉ Text.decode inner := by
  obtain ⟨rest, split⟩ := exists_rest_of_prefix begins
  obtain ⟨-, other, among, same⟩ | ⟨continues, -⟩ := Text.place_of_utf8 split
  · intro listed
    rw [← Text.prefix_of_utf8 same] at among
    exact plain (among.subset (List.mem_append_right _ listed))
  · rw [leads] at continues
    cases continues

/-- While no line has ended inside a character, the lines are plain. -/
theorem plain_of_unbroken {t : Text} (plain : Text.replacement ∉ t) {place : LineEnd}
    (listed : place ∈ ends t.utf8)
    (unbroken : ∀ place ∈ ends t.utf8, Text.isContinuation place.byte = false) :
    Text.replacement ∉ place.line.text := by
  have begins := (mem_ends_iff.mp listed).1
  have within : place.before <+: t.utf8 := (List.prefix_append _ _).trans begins
  obtain ⟨front, whole⟩ := held_of_unbroken within fun other among =>
    unbroken other (mem_ends_of_begins within among)
  unfold line Line.ofBytes
  split
  · next last =>
    obtain ⟨inner, same⟩ := List.getLast?_eq_some_iff.mp last
    rw [same, List.dropLast_concat]
    rw [piece] at same
    have leads : Text.isContinuation returnByte = false := by decide
    refine plain_between front plain ?_ leads
    rw [List.append_assoc, ← same, whole]
    exact within
  · refine plain_between front plain ?_ (unbroken place listed)
    rw [piece, whole]
    exact begins

/-- If a line has ended inside a character, the first one that has is not plain. -/
theorem exists_broken {t : Text} (plain : Text.replacement ∉ t) {stream : List UInt8}
    (begins : stream <+: t.utf8) {broken : LineEnd} (listed : broken ∈ ends stream)
    (continues : Text.isContinuation broken.byte = true) :
    ∃ place ∈ ends stream, Text.replacement ∈ place.line.text := by
  induction stream using List.reverseRecOn generalizing broken with
  | nil => cases listed
  | append_singleton stream b ih =>
    have within : stream <+: t.utf8 := (List.prefix_append _ _).trans begins
    have among {place : LineEnd} (earlier : place ∈ ends stream) : place ∈ ends (stream ++ [b]) :=
      mem_ends_of_begins (List.prefix_append _ _) earlier
    by_cases earlier : ∃ place ∈ ends stream, Text.isContinuation place.byte = true
    · obtain ⟨other, there, before⟩ := earlier
      obtain ⟨place, found, damaged⟩ := ih within there before
      exact ⟨place, among found, damaged⟩
    have unbroken : ∀ place ∈ ends stream, Text.isContinuation place.byte = false := by
      intro place there
      rw [← Bool.not_eq_true]
      exact fun before => earlier ⟨place, there, before⟩
    obtain ⟨front, whole⟩ := held_of_unbroken within unbroken
    -- The line that breaks is the one that ends here.
    obtain rfl : broken = ⟨stream, b⟩ := by
      rw [ends_concat, List.mem_append] at listed
      obtain there | last := listed
      · exact absurd (unbroken broken there) (by rw [continues]; decide)
      · split at last
        · exact List.mem_singleton.mp last
        · cases last
    obtain ⟨rest, split⟩ := exists_rest_of_prefix begins
    obtain ⟨leads, -⟩ | ⟨-, other, c, lead, left, -, same, bytes, begun, beyond⟩ :=
      Text.place_of_utf8 split
    · rw [leads] at continues
      cases continues
    refine ⟨_, listed, ?_⟩
    have last : (Framer.held stream).getLast? ≠ some returnByte := by
      rw [Ne, Framer.getLast?_held, same, List.getLast?_append_of_ne_nil _ begun]
      exact fun ends => absurd (Text.le_of_getLast?_lead bytes begun beyond ends) (by decide)
    have text : (line ⟨stream, b⟩).text = Text.decode (Framer.held stream) :=
      (Line.text_ofBytes_iff _).mpr last
    have read : front ++ Text.decode (Framer.held stream) = other ++ Text.decode lead := by
      rw [← Text.decode_utf8_append, whole, same, Text.decode_utf8_append]
    have damaged : Text.replacement ∈ front ++ Text.decode (Framer.held stream) := by
      rw [read]
      exact List.mem_append_right _ (Text.replacement_mem_decode bytes begun beyond)
    have fine : Text.replacement ∉ front := by
      obtain ⟨after, all⟩ := within
      rw [← whole, List.append_assoc] at all
      rw [← Text.prefix_of_utf8 all] at plain
      exact fun there => plain (List.mem_append_left _ there)
    rw [text]
    exact (List.mem_append.mp damaged).resolve_left fine

end LineEnd

namespace Framer

/-- Wherever the bytes of a text without replacement characters are cut into pieces, the lines they
make have none either exactly if no line ends at a byte that continues a character. A line that ends
there was cut, being of the greatest length. -/
theorem characters_of_stream {t : Text} (plain : Text.replacement ∉ t) {pieces : List (List UInt8)}
    (cut : pieces.flatten = t.utf8) :
    ((∀ line ∈ (empty.feedPieces pieces).2.flatten, Text.replacement ∉ line.text) ↔
        ∀ place ∈ LineEnd.ends t.utf8, Text.isContinuation place.byte = false) ∧
      ∀ place ∈ LineEnd.ends t.utf8, Text.isContinuation place.byte = true →
        place.byte ≠ feedByte ∧ place.piece.length = longest := by
  have whole := congrArg Prod.snd (feedPieces_flatten empty pieces)
  have lines : (empty.feedPieces pieces).2.flatten = (LineEnd.ends t.utf8).map LineEnd.line := by
    rw [← cut, ← LineEnd.lines_eq]
    exact whole
  rw [lines, List.forall_mem_map]
  refine ⟨⟨fun fine broken listed => ?_, fun unbroken place listed => ?_⟩,
    fun place listed continues => ?_⟩
  · rw [← Bool.not_eq_true]
    intro continues
    obtain ⟨place, among, damaged⟩ :=
      LineEnd.exists_broken plain List.prefix_rfl listed continues
    exact fine place among damaged
  · exact LineEnd.plain_of_unbroken plain listed unbroken
  · have other : place.byte ≠ feedByte := by
      intro feeds
      rw [feeds] at continues
      exact absurd continues (by decide)
    exact ⟨other, LineEnd.length_piece listed other⟩

/-- A text on two lines, cut inside a character on its way. -/
theorem characters_of_stream_short :
    let t : Text := "é\nß\n"
    let pieces : List (List UInt8) := [[0xc3], [0xa9, 0x0a, 0xc3], [0x9f, 0x0a]]
    Text.replacement ∉ t ∧ pieces.flatten = t.utf8 ∧
      ∀ line ∈ (empty.feedPieces pieces).2.flatten, Text.replacement ∉ line.text := by
  intro t pieces
  have plain : Text.replacement ∉ t := by decide
  have cut : pieces.flatten = t.utf8 := by decide
  exact ⟨plain, cut, (characters_of_stream plain cut).1.mpr (by decide)⟩

/-- A character of two bytes behind a line that has room for one: the line is read with a
replacement character at its end, and the next one with one at its front. -/
theorem characters_broken_of_full {t : Text} (full : t.byteLength + 1 = longest)
    (oneLine : '\n' ∉ t) :
    (empty.feedPieces [Text.utf8 (t ++ "é\n".toList)]).2.flatten =
      [{ text := t ++ [Text.replacement] }, { text := [Text.replacement] }] := by
  have length : (t.utf8 ++ [0xc3]).length = longest := by
    rw [List.length_append]
    exact full
  have inside : feedByte ∉ t.utf8 ++ [0xc3] := fun listed =>
    (List.mem_append.mp listed).elim (Text.feedByte_notMem_utf8 oneLine)
      fun last => absurd (List.mem_singleton.mp last) (by decide)
  have line : Line.ofBytes (t.utf8 ++ [0xc3]) = { text := t ++ [Text.replacement] } := by
    have other : (t.utf8 ++ [0xc3]).getLast? ≠ some returnByte := by
      rw [List.getLast?_concat]
      decide
    rw [Line.ofBytes, if_neg other, Text.decode_utf8_append]
    rfl
  have stream : Text.utf8 (t ++ "é\n".toList) = t.utf8 ++ [0xc3] ++ 0xa9 :: [feedByte] := by
    rw [Text.utf8_append, List.append_assoc]
    rfl
  have framed : Framed (t.utf8 ++ [0xc3] ++ 0xa9 :: [feedByte])
      [Line.ofBytes (t.utf8 ++ [0xc3]), { text := [Text.replacement] }] [] :=
    .split inside length (by decide) (.ended (show feedByte ∉ [0xa9] by decide) (by decide)
      (.pending List.not_mem_nil (Nat.zero_le _)))
  rw [stream]
  simp only [feedPieces, feedAll_of_framed framed, line, List.flatten_cons, List.flatten_nil,
    List.append_nil]

/-- This is so behind 4095 letters. -/
theorem characters_broken_letters :
    let t : Text := List.replicate 4095 'x' ++ "é\n".toList
    Text.replacement ∉ t ∧ (empty.feedPieces [t.utf8]).2.flatten =
      [{ text := List.replicate 4095 'x' ++ [Text.replacement] },
        { text := [Text.replacement] }] := by
  intro t
  have letters {c : Char} (other : c ≠ 'x') : c ∉ List.replicate 4095 'x' :=
    fun listed => other (List.eq_of_mem_replicate listed)
  refine ⟨List.not_mem_append (letters (by decide)) (by decide), ?_⟩
  refine characters_broken_of_full ?_ (letters (by decide))
  rw [Text.byteLength_replicate]
  rfl

end Framer

end Keyfob
