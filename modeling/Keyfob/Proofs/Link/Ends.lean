import Keyfob.Proofs.Link.Calls
import Keyfob.Proofs.Text.Decoding
import Mathlib.Data.List.Induction
import Mathlib.Data.List.TFAE
import Mathlib.Tactic.TFAE
import Mathlib.Tactic.Tauto

/-!
# Where lines end

A line ends at a line feed, or at any other byte where it has grown to the greatest length. Each
end in a stream (`LineEnd`) is given by the bytes before it and the byte at it, and what a stream
is cut into is told by its ends. A carriage return that stands before an end is taken off the line
and noted, whatever the byte at the end is: where this is no line feed, the carriage return is lost
(`Framer.returns_of_stream`).
-/
namespace Keyfob

open Line (feedByte returnByte)

/-- A letter that is repeated takes as many bytes. -/
theorem Text.byteLength_replicate (n : Nat) : Text.byteLength (List.replicate n 'x') = n := by
  induction n with
  | zero => rfl
  | succ n ih => exact congrArg (· + 1) ih

namespace Line

/-- How many carriage returns among some bytes stand not directly before a line feed. -/
def looseReturns : List UInt8 → Nat
  | [] => 0
  | b :: rest =>
    (if b = returnByte ∧ rest.head? ≠ some feedByte then 1 else 0) + looseReturns rest

/-- One more byte is one more where it is a carriage return, and one less where it is the line feed
after one. -/
theorem looseReturns_concat (bytes : List UInt8) (b : UInt8) :
    looseReturns (bytes ++ [b]) +
        (if b = feedByte ∧ bytes.getLast? = some returnByte then 1 else 0) =
      looseReturns bytes + (if b = returnByte then 1 else 0) := by
  induction bytes with
  | nil => simp [looseReturns]
  | cons c bytes ih =>
    cases bytes with
    | nil =>
      by_cases ends : b = feedByte
      · subst ends
        simp [looseReturns, show feedByte ≠ returnByte by decide]
      · simp [looseReturns, ends, Nat.add_comm]
    | cons d bytes =>
      rw [List.getLast?_cons_cons]
      change (if c = returnByte ∧ some d ≠ some feedByte then 1 else 0) +
          looseReturns (d :: bytes ++ [b]) + _ =
        (if c = returnByte ∧ some d ≠ some feedByte then 1 else 0) +
          looseReturns (d :: bytes) + _
      omega

/-- Bytes without carriage returns in front make no difference. -/
theorem looseReturns_append {bytes : List UInt8} (none : returnByte ∉ bytes)
    (later : List UInt8) : looseReturns (bytes ++ later) = looseReturns later := by
  induction bytes with
  | nil => rfl
  | cons b bytes ih =>
    obtain ⟨first, rest⟩ := List.ne_and_not_mem_of_not_mem_cons none
    rw [List.cons_append, looseReturns, ih rest, if_neg fun h => first h.1.symm, Nat.zero_add]

/-- A line notes a carriage return just where its bytes end in one. -/
theorem crlf_ofBytes (bytes : List UInt8) :
    (ofBytes bytes).crlf = true ↔ bytes.getLast? = some returnByte := by
  unfold ofBytes
  split
  · next last => exact iff_of_true rfl last
  · next other => exact iff_of_false Bool.false_ne_true other

/-- The carriage returns of a line's bytes are those in its text and the one that is noted. -/
theorem count_ofBytes (bytes : List UInt8) :
    bytes.count returnByte =
      (ofBytes bytes).text.count '\r' + (if bytes.getLast? = some returnByte then 1 else 0) := by
  have read (bytes : List UInt8) : (Text.decode bytes).count '\r' = bytes.count returnByte :=
    Text.count_decode (by decide) bytes
  unfold ofBytes
  split
  · next last =>
    obtain ⟨front, rfl⟩ := List.getLast?_eq_some_iff.mp last
    rw [List.dropLast_concat, read, List.count_append, List.count_singleton_self]
  · rw [read, Nat.add_zero]

/-- Nothing is taken off the bytes of a line just where they do not end in a carriage return. -/
theorem text_ofBytes_iff (bytes : List UInt8) :
    (ofBytes bytes).text = Text.decode bytes ↔ bytes.getLast? ≠ some returnByte := by
  constructor
  · intro whole last
    have parts := count_ofBytes bytes
    rw [whole, if_pos last, Text.count_decode (by decide)] at parts
    exact absurd parts (Nat.ne_of_lt (Nat.lt_succ_self _))
  · intro other
    rw [ofBytes, if_neg other]

end Line

namespace Framer

/-- The bytes of the line that has not ended after some bytes. -/
def held (bytes : List UInt8) : List UInt8 := (empty.feedAll bytes).1.latest.reverse

/-- A byte that comes after others ends the line. -/
def EndsAt (bytes : List UInt8) (b : UInt8) : Prop := b = feedByte ∨ longest ≤ (held bytes).length

instance (bytes : List UInt8) (b : UInt8) : Decidable (EndsAt bytes b) :=
  inferInstanceAs (Decidable (_ ∨ _))

/-- What one more byte does: a line feed ends the line, another byte ends it where there is no room
for it and begins the next one, and else the byte is kept. -/
theorem feedAll_concat_cases (bytes : List UInt8) (b : UInt8) :
    let fed := empty.feedAll bytes
    (b = feedByte ∧
        empty.feedAll (bytes ++ [b]) = (empty, fed.2 ++ [Line.ofBytes (held bytes)])) ∨
      (b ≠ feedByte ∧ longest ≤ (held bytes).length ∧
        empty.feedAll (bytes ++ [b]) = ({ latest := [b] }, fed.2 ++ [Line.ofBytes (held bytes)])) ∨
      (b ≠ feedByte ∧ (held bytes).length < longest ∧
        empty.feedAll (bytes ++ [b]) = ({ latest := b :: fed.1.latest }, fed.2)) := by
  intro fed
  have whole : empty.feedAll (bytes ++ [b]) = ((fed.1.feed b).1, fed.2 ++ (fed.1.feed b).2) := by
    rw [feedAll_append, feedAll_cons]
    exact congrArg (Prod.mk _) (congrArg _ (List.append_nil _))
  have line : Line.ofLatest fed.1.latest = Line.ofBytes (held bytes) := by
    rw [held, ← Line.ofLatest_reverse, List.reverse_reverse]
  have length : (held bytes).length = fed.1.latest.length := List.length_reverse
  rw [whole, length, ← line]
  by_cases feeds : b = feedByte
  · subst feeds
    exact .inl ⟨rfl, by rw [feed_feedByte]⟩
  by_cases full : longest ≤ fed.1.latest.length
  · exact .inr (.inl ⟨feeds, full, by rw [feed_of_full feeds full]⟩)
  · have room := Nat.not_le.mp full
    exact .inr (.inr ⟨feeds, room, by rw [feed_of_room feeds room, List.append_nil]⟩)

/-- What is held after one more byte. -/
theorem held_concat (bytes : List UInt8) (b : UInt8) :
    held (bytes ++ [b]) =
      if b = feedByte then [] else if EndsAt bytes b then [b] else held bytes ++ [b] := by
  obtain ⟨feeds, fed⟩ | ⟨other, full, fed⟩ | ⟨other, room, fed⟩ := feedAll_concat_cases bytes b
  · rw [if_pos feeds, held, fed]
    rfl
  · rw [if_neg other, if_pos (.inr full), held, fed]
    rfl
  · have inside : ¬EndsAt bytes b := not_or.mpr ⟨other, Nat.not_le.mpr room⟩
    rw [if_neg other, if_neg inside, held, fed]
    exact List.reverse_cons

/-- The lines after one more byte. -/
theorem lines_concat (bytes : List UInt8) (b : UInt8) :
    (empty.feedAll (bytes ++ [b])).2 =
      (empty.feedAll bytes).2 ++ if EndsAt bytes b then [Line.ofBytes (held bytes)] else [] := by
  obtain ⟨feeds, fed⟩ | ⟨other, full, fed⟩ | ⟨other, room, fed⟩ := feedAll_concat_cases bytes b
  · rw [if_pos (.inl feeds), fed]
  · rw [if_pos (.inr full), fed]
  · have inside : ¬EndsAt bytes b := not_or.mpr ⟨other, Nat.not_le.mpr room⟩
    rw [if_neg inside, fed, List.append_nil]

/-- No more is held than a line may be long. -/
theorem length_held_le (bytes : List UInt8) : (held bytes).length ≤ longest := by
  induction bytes using List.reverseRecOn with
  | nil => exact Nat.zero_le _
  | append_singleton bytes b ih =>
    rw [held_concat]
    split
    · exact Nat.zero_le _
    split
    · exact Nat.succ_pos _
    · next ends =>
      have room := Nat.not_le.mp fun full => ends (.inr full)
      rwa [List.length_append]

/-- What is held ends in a carriage return just where the bytes do. -/
theorem getLast?_held (bytes : List UInt8) :
    (held bytes).getLast? = some returnByte ↔ bytes.getLast? = some returnByte := by
  induction bytes using List.reverseRecOn with
  | nil => exact Iff.rfl
  | append_singleton bytes b _ =>
    rw [held_concat, List.getLast?_concat]
    split
    · next feeds =>
      subst feeds
      exact iff_of_false nofun (by decide)
    split
    · exact Iff.rfl
    · rw [List.getLast?_concat]

end Framer

/-- An end of a line in a stream. -/
structure LineEnd where
  /-- The bytes of the stream before it. -/
  before : List UInt8
  /-- The byte at it. -/
  byte : UInt8
deriving DecidableEq

namespace LineEnd

/-- The bytes of the line. -/
def piece (place : LineEnd) : List UInt8 := Framer.held place.before

/-- The line. -/
def line (place : LineEnd) : Line := Line.ofBytes place.piece

/-- The bytes that the line takes up in the stream. -/
def bytes (place : LineEnd) : List UInt8 :=
  if place.byte = feedByte then place.piece ++ [feedByte] else place.piece

/-- A line is cut behind a carriage return: what ends it is no line feed. -/
def LosesReturn (place : LineEnd) : Prop :=
  place.byte ≠ feedByte ∧ place.before.getLast? = some returnByte

instance (place : LineEnd) : Decidable place.LosesReturn := inferInstanceAs (Decidable (_ ∧ _))

/-- The ends of lines in a stream, of which some bytes have been passed. -/
def endsFrom (before : List UInt8) : List UInt8 → List LineEnd
  | [] => []
  | b :: rest =>
    (if Framer.EndsAt before b then [⟨before, b⟩] else []) ++ endsFrom (before ++ [b]) rest

/-- The ends of lines in a stream. -/
def ends (stream : List UInt8) : List LineEnd := endsFrom [] stream

/-- The ends in a stream with one more byte. -/
theorem ends_concat (stream : List UInt8) (b : UInt8) :
    ends (stream ++ [b]) =
      ends stream ++ if Framer.EndsAt stream b then [⟨stream, b⟩] else [] := by
  suffices ∀ before, endsFrom before (stream ++ [b]) = endsFrom before stream ++
      if Framer.EndsAt (before ++ stream) b then [⟨before ++ stream, b⟩] else [] from this []
  induction stream with
  | nil =>
    intro before
    simp only [List.nil_append, endsFrom, List.append_nil]
  | cons c stream ih =>
    intro before
    rw [List.cons_append, endsFrom, ih, endsFrom, List.append_assoc, List.append_assoc,
      List.singleton_append]

/-- The ends in a stream are the places at which a line ends. -/
theorem mem_ends_iff {stream : List UInt8} {place : LineEnd} :
    place ∈ ends stream ↔
      place.before ++ [place.byte] <+: stream ∧ Framer.EndsAt place.before place.byte := by
  induction stream using List.reverseRecOn with
  | nil =>
    refine iff_of_false List.not_mem_nil fun found => ?_
    exact List.append_ne_nil_of_right_ne_nil _ (List.cons_ne_nil _ _)
      (List.prefix_nil.mp found.1)
  | append_singleton stream b ih =>
    rw [ends_concat, List.mem_append, ih, List.prefix_concat_iff]
    constructor
    · rintro (⟨within, ends⟩ | last)
      · exact ⟨.inr within, ends⟩
      · split at last
        · next ends =>
          obtain rfl := List.mem_singleton.mp last
          exact ⟨.inl rfl, ends⟩
        · cases last
    · rintro ⟨whole | within, ends⟩
      · obtain ⟨rfl, same⟩ := List.append_inj' whole rfl
        cases same
        exact .inr (by rw [if_pos ends]; exact List.mem_singleton_self _)
      · exact .inl ⟨within, ends⟩

/-- A line notes a carriage return just where one stands before its end. -/
theorem crlf_line (place : LineEnd) :
    place.line.crlf = true ↔ place.before.getLast? = some returnByte := by
  rw [line, Line.crlf_ofBytes, piece, Framer.getLast?_held]

/-- The lines of a stream are those of its ends. -/
theorem lines_eq (stream : List UInt8) :
    (Framer.empty.feedAll stream).2 = (ends stream).map line := by
  induction stream using List.reverseRecOn with
  | nil => rfl
  | append_singleton stream b ih =>
    rw [Framer.lines_concat, ends_concat, List.map_append, ih]
    split
    · rfl
    · rfl

/-- The lines, each with the line feed that ended it, and then what is held are the stream. -/
theorem flatMap_bytes (stream : List UInt8) :
    (ends stream).flatMap bytes ++ Framer.held stream = stream := by
  induction stream using List.reverseRecOn with
  | nil => rfl
  | append_singleton stream b ih =>
    conv_rhs => rw [← ih]
    rw [ends_concat, Framer.held_concat, List.flatMap_append, List.append_assoc, List.append_assoc]
    refine congrArg _ ?_
    by_cases feeds : b = feedByte
    · rw [if_pos (.inl feeds), if_pos feeds, List.flatMap_singleton, bytes, if_pos feeds, feeds,
        List.append_nil]
      rfl
    rw [if_neg feeds]
    split
    · rw [List.flatMap_singleton, bytes, if_neg feeds]
      rfl
    · rfl

/-- The carriage returns of a stream that stand before no line feed are in the texts of its lines or
held, but for those that were lost. -/
theorem looseReturns_eq (stream : List UInt8) :
    Line.looseReturns stream =
      ((ends stream).flatMap fun place => place.line.text).count '\r' +
        (Framer.held stream).count returnByte +
        (ends stream).countP fun place => decide place.LosesReturn := by
  induction stream using List.reverseRecOn with
  | nil => rfl
  | append_singleton stream b ih =>
    have more := Line.looseReturns_concat stream b
    have parts : (Framer.held stream).count returnByte =
        (line ⟨stream, b⟩).text.count '\r' +
          if stream.getLast? = some returnByte then 1 else 0 :=
      (Line.count_ofBytes _).trans (by simp only [Framer.getLast?_held]; rfl)
    have single : [b].count returnByte = if b = returnByte then 1 else 0 := by
      rw [List.count_singleton]
      exact if_congr beq_iff_eq rfl rfl
    rw [ends_concat, Framer.held_concat]
    by_cases feeds : b = feedByte
    · have ends : Framer.EndsAt stream b := .inl feeds
      have kept : ¬LosesReturn ⟨stream, b⟩ := fun lost => lost.1 feeds
      have other : b ≠ returnByte := feeds ▸ by decide
      rw [if_neg other] at more
      simp only [feeds, true_and] at more
      simp only [if_pos ends, if_pos feeds, List.flatMap_append, List.flatMap_singleton,
        List.count_append, List.countP_append, List.countP_singleton, kept, decide_false,
        Bool.false_eq_true, if_false, List.count_nil]
      rw [feeds] at parts ⊢
      omega
    have inside : ¬(b = feedByte ∧ stream.getLast? = some returnByte) := fun h => feeds h.1
    rw [if_neg feeds]
    rw [if_neg inside] at more
    split
    · have lost : LosesReturn ⟨stream, b⟩ ↔ stream.getLast? = some returnByte :=
        and_iff_right feeds
      simp only [List.flatMap_append, List.flatMap_singleton, List.count_append,
        List.countP_append, List.countP_singleton, decide_eq_true_eq, lost]
      omega
    · simp only [List.append_nil, List.count_append]
      omega

/-- A line that another byte than a line feed ends is of the greatest length. -/
theorem length_piece {stream : List UInt8} {place : LineEnd} (listed : place ∈ ends stream)
    (cut : place.byte ≠ feedByte) : place.piece.length = Framer.longest :=
  Nat.le_antisymm (Framer.length_held_le _) ((mem_ends_iff.mp listed).2.resolve_left cut)

end LineEnd

namespace Framer

/-- Wherever a stream is cut into pieces, the lines it makes are those of the ends in it, and with
the line feeds among these and what is held they are all of it. Each line notes the carriage return
before its end. Where the end is no line feed, which is so only after a line of the greatest
length, that carriage return is lost. These are all that are lost: that lines note just the carriage
returns before their line feeds, that every other carriage return is in a text or held, and that
the text of a line which is cut has all of its bytes, each is so exactly if no line is cut behind a
carriage return. -/
theorem returns_of_stream (pieces : List (List UInt8)) :
    let stream := pieces.flatten
    let framed := empty.feedPieces pieces
    let places := LineEnd.ends stream
    let kept := (framed.2.flatten.flatMap Line.text).count '\r' +
      framed.1.latest.count returnByte
    framed.2.flatten = places.map LineEnd.line ∧
      stream = places.flatMap LineEnd.bytes ++ framed.1.latest.reverse ∧
      (∀ place ∈ places, place.byte ≠ feedByte → place.piece.length = longest) ∧
      (∀ place ∈ places,
        (place.line.crlf = true ↔ place.before.getLast? = some returnByte)) ∧
      Line.looseReturns stream =
        kept + places.countP (fun place => decide place.LosesReturn) ∧
      [∀ place ∈ places, (place.line.crlf = true ↔
          place.byte = feedByte ∧ place.before.getLast? = some returnByte),
        Line.looseReturns stream = kept,
        ∀ place ∈ places, place.byte ≠ feedByte → place.line.text = Text.decode place.piece,
        ∀ place ∈ places, ¬place.LosesReturn].TFAE := by
  intro stream framed places kept
  have whole : (framed.1, framed.2.flatten) = empty.feedAll stream := feedPieces_flatten _ _
  have rest : framed.1 = (empty.feedAll stream).1 := congrArg Prod.fst whole
  have lines : framed.2.flatten = places.map LineEnd.line :=
    (congrArg Prod.snd whole).trans (LineEnd.lines_eq stream)
  have pending : framed.1.latest.reverse = held stream := by rw [rest, held]
  have loose : Line.looseReturns stream =
      kept + places.countP fun place => decide place.LosesReturn := by
    rw [LineEnd.looseReturns_eq, ← pending, List.count_reverse]
    simp only [kept, lines, places, List.flatMap_map]
  refine ⟨lines, ?_, fun place => LineEnd.length_piece, fun place _ => place.crlf_line, loose, ?_⟩
  · rw [pending]
    exact (LineEnd.flatMap_bytes stream).symm
  tfae_have 1 ↔ 4 := by
    refine forall₂_congr fun place _ => ?_
    rw [place.crlf_line, LineEnd.LosesReturn]
    tauto
  tfae_have 2 ↔ 4 := by
    have nothing : places.countP (fun place => decide place.LosesReturn) = 0 ↔
        ∀ place ∈ places, ¬place.LosesReturn := by
      simp only [List.countP_eq_zero, decide_eq_true_eq]
    rw [loose, ← nothing]
    omega
  tfae_have 3 ↔ 4 := by
    refine forall₂_congr fun place _ => ?_
    have last := not_congr (getLast?_held place.before)
    rw [LineEnd.line, Line.text_ofBytes_iff, LineEnd.piece, LineEnd.LosesReturn, not_and]
    exact imp_congr_right fun _ => last
  tfae_finish

/-- A line of the greatest length that ends in a carriage return, and then another byte than a line
feed: the line notes the carriage return, which stands before no line feed, and its text is without
it. -/
theorem return_lost_of_full {t : Text} (full : t.byteLength + 1 = longest) (oneLine : '\n' ∉ t)
    (plain : '\r' ∉ t) :
    let stream := t.utf8 ++ [returnByte] ++ 121 :: [feedByte]
    (empty.feedPieces [stream]).2.flatten = [{ text := t, crlf := true }, { text := "y" }] ∧
      (empty.feedPieces [stream]).1.pending = 0 ∧ Line.looseReturns stream = 1 ∧
      ¬∀ place ∈ LineEnd.ends stream, (place.line.crlf = true ↔
        place.byte = feedByte ∧ place.before.getLast? = some returnByte) := by
  intro stream
  have length : (t.utf8 ++ [returnByte]).length = longest := by
    rw [List.length_append]
    exact full
  have inside : feedByte ∉ t.utf8 ++ [returnByte] := fun listed =>
    (List.mem_append.mp listed).elim (Text.feedByte_notMem_utf8 oneLine)
      fun last => absurd (List.mem_singleton.mp last) (by decide)
  have line : Line.ofBytes (t.utf8 ++ [returnByte]) = { text := t, crlf := true } := by
    rw [Line.ofBytes, List.getLast?_concat, if_pos rfl, List.dropLast_concat, Text.decode_utf8]
  have framed : Framed stream [Line.ofBytes (t.utf8 ++ [returnByte]), { text := "y" }] [] :=
    .split inside length (by decide) (.ended (show feedByte ∉ [121] by decide) (by decide)
      (.pending List.not_mem_nil (Nat.zero_le _)))
  have fed := feedAll_of_framed framed
  refine ⟨?_, ?_, ?_, fun noted => ?_⟩
  · simp only [feedPieces, fed, line, List.flatten_cons, List.flatten_nil, List.append_nil]
  · simp only [feedPieces, fed]
    rfl
  · have none : returnByte ∉ t.utf8 := by
      rw [← List.count_eq_zero]
      exact (Text.count_decode (c := '\r') (by decide) t.utf8).symm.trans
        (by rw [Text.decode_utf8, List.count_eq_zero.mpr plain])
    rw [show stream = t.utf8 ++ [returnByte, 121, feedByte] from List.append_assoc _ _ _,
      Line.looseReturns_append none]
    decide
  · have whole : held (t.utf8 ++ [returnByte]) = t.utf8 ++ [returnByte] := by
      rw [held, feedAll_piece inside (Nat.le_of_eq length), List.reverse_reverse]
    have ends : ⟨t.utf8 ++ [returnByte], 121⟩ ∈ LineEnd.ends stream := by
      refine LineEnd.mem_ends_iff.mpr ⟨⟨[feedByte], List.append_assoc _ _ _⟩, .inr ?_⟩
      rw [whole]
      exact Nat.le_of_eq length.symm
    have other := ((noted _ ends).mp ((LineEnd.crlf_line _).mpr List.getLast?_concat)).1
    exact absurd other (show (121 : UInt8) ≠ feedByte by decide)

/-- This is so behind 4095 letters. -/
theorem return_lost_letters :
    let t : Text := List.replicate 4095 'x'
    let stream := t.utf8 ++ [returnByte] ++ 121 :: [feedByte]
    (empty.feedPieces [stream]).2.flatten = [{ text := t, crlf := true }, { text := "y" }] ∧
      (empty.feedPieces [stream]).1.pending = 0 ∧ Line.looseReturns stream = 1 ∧
      ¬∀ place ∈ LineEnd.ends stream, (place.line.crlf = true ↔
        place.byte = feedByte ∧ place.before.getLast? = some returnByte) := by
  refine return_lost_of_full ?_ ?_ ?_
  · rw [Text.byteLength_replicate]
    rfl
  · exact fun listed => absurd (List.eq_of_mem_replicate listed) (by decide)
  · exact fun listed => absurd (List.eq_of_mem_replicate listed) (by decide)

end Framer

end Keyfob
