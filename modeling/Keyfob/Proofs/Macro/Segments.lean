import Keyfob.Proofs.Macro.Braces
import Mathlib.Data.List.Chain

/-!
# The segments of a macro text

Scanning cuts a text at the first pair of opening braces and, inside, at the first pair of closing
ones (`Segment.ofText_eq`). So nothing is lost, and the segments of a text are in a form of their
own: no literal is empty or directly after another one, and a directive ends at its first pair of
closing braces (`Segment.Formed`). A list of segments of that form is what its written form is
scanned as exactly when no literal in it could be taken for the start of a directive
(`Segment.Readable`); hence the last theorem, which says for each text and for each list of
segments how the one comes from the other.
-/
namespace Keyfob

namespace Text

/-- A text that ends before the first pair of a character when such a pair is written after it. -/
structure Clear (c : Char) (t : Text) : Prop where
  /-- No such pair stands in the text. -/
  noPair : t.has [c, c] = false
  /-- The text does not end in that character. -/
  noEnd : t.endsWith [c] = false

section Pairs

variable {b c d : Char} {t front rest : Text}

/-- Look through a text for pairs of a character: two characters are passed at a time where only
the first of them is the one looked for. -/
theorem pairInduction {motive : Text → Prop} (b : Char) (nil : motive []) (single : motive [b])
    (pair : ∀ t, motive (b :: b :: t))
    (parted : ∀ d t, d ≠ b → motive t → motive (b :: d :: t))
    (other : ∀ c t, c ≠ b → motive t → motive (c :: t)) (t : Text) : motive t :=
  match t with
  | [] => nil
  | c :: cs =>
    if same : c = b then
      match cs with
      | [] => same ▸ single
      | d :: ds =>
        if paired : d = b then same ▸ paired ▸ pair ds
        else same ▸ parted d ds paired (pairInduction b nil single pair parted other ds)
    else other c cs same (pairInduction b nil single pair parted other cs)

/-- A pair is cut at where it stands. -/
theorem cutAt?_pair (b : Char) (t : Text) : cutAt? [b, b] (b :: b :: t) = some ([], t) := by
  simp [cutAt?, after?]

/-- No pair begins at another character. -/
theorem cutAt?_other (t : Text) (apart : c ≠ b) :
    cutAt? [b, b] (c :: t) = (cutAt? [b, b] t).map fun (front, rest) => (c :: front, rest) := by
  rw [cutAt?, after?, if_neg (Ne.symm apart)]

/-- No pair begins where only one of its characters stands. -/
theorem cutAt?_parted (t : Text) (apart : d ≠ b) :
    cutAt? [b, b] (b :: d :: t) =
      (cutAt? [b, b] t).map fun (front, rest) => (b :: d :: front, rest) := by
  have notHere : after? [b, b] (b :: d :: t) = none := by
    rw [after?, if_pos rfl, after?, if_neg (Ne.symm apart)]
  rw [cutAt?, notHere, cutAt?_other t apart, Option.map_map]
  rfl

/-- What a text ends in does not depend on what stands before its last character. -/
theorem endsWith_cons (b c d : Char) (t : Text) :
    endsWith (c :: d :: t) [b] = endsWith (d :: t) [b] := by
  obtain ⟨e, back, last⟩ : ∃ e back, (d :: t).reverse = e :: back := by
    cases reversed : (d :: t).reverse with
    | nil => exact absurd (List.reverse_eq_nil_iff.mp reversed) nofun
    | cons e back => exact ⟨e, back, rfl⟩
  have further : (c :: d :: t).reverse = e :: (back ++ [c]) := by
    rw [List.reverse_cons, last]
    rfl
  unfold endsWith before?
  rw [further, last]
  simp only [List.reverse_singleton, after?]
  split
  · rfl
  · rfl

/-- A text does not end in a character that is followed by another one, unless its rest does. -/
theorem endsWith_other (t : Text) (apart : c ≠ b) : endsWith (c :: t) [b] = endsWith t [b] := by
  cases t with
  | nil => simp [endsWith, before?, after?, Ne.symm apart]
  | cons d cs => exact endsWith_cons b c d cs

/-- Texts with the same pairs and the same end are clear of pairs together. -/
theorem clear_congr {s : Text} (pairs : has s [b, b] = has t [b, b])
    (ends : endsWith s [b] = endsWith t [b]) : Clear b s ↔ Clear b t := by
  constructor
  · intro clear
    exact ⟨pairs ▸ clear.noPair, ends ▸ clear.noEnd⟩
  · intro clear
    exact ⟨pairs.trans clear.noPair, ends.trans clear.noEnd⟩

/-- A text that begins with another character is clear of pairs where its rest is. -/
theorem clear_other (apart : c ≠ b) : Clear b (c :: t) ↔ Clear b t := by
  refine clear_congr ?_ (endsWith_other t apart)
  unfold has
  rw [cutAt?_other t apart, Option.isSome_map]

/-- A text that begins with one of the characters of a pair is clear of pairs where what follows
the other character is. -/
theorem clear_parted (apart : d ≠ b) : Clear b (b :: d :: t) ↔ Clear b t := by
  refine clear_congr ?_ ?_
  · unfold has
    rw [cutAt?_parted t apart, Option.isSome_map]
  · rw [endsWith_cons, endsWith_other t apart]

/-- Cutting at the first pair loses nothing, and what stands before it is clear of pairs. -/
theorem clear_of_cutAt? (cut : cutAt? [b, b] t = some (front, rest)) :
    t = front ++ b :: b :: rest ∧ Clear b front := by
  induction t using pairInduction b generalizing front with
  | nil => cases cut
  | single => exact absurd cut (by simp [cutAt?, after?])
  | pair t =>
    rw [cutAt?_pair] at cut
    cases cut
    exact ⟨rfl, rfl, rfl⟩
  | parted d t apart ih =>
    rw [cutAt?_parted t apart] at cut
    obtain ⟨⟨inner, back⟩, later, made⟩ := Option.map_eq_some_iff.mp cut
    cases made
    obtain ⟨whole, clear⟩ := ih later
    exact ⟨by rw [whole]; rfl, (clear_parted apart).mpr clear⟩
  | other c t apart ih =>
    rw [cutAt?_other t apart] at cut
    obtain ⟨⟨inner, back⟩, later, made⟩ := Option.map_eq_some_iff.mp cut
    cases made
    obtain ⟨whole, clear⟩ := ih later
    exact ⟨by rw [whole]; rfl, (clear_other apart).mpr clear⟩

/-- A pair after a text that is clear of pairs is the first. -/
theorem cutAt?_of_clear (clear : Clear b front) (rest : Text) :
    cutAt? [b, b] (front ++ b :: b :: rest) = some (front, rest) := by
  induction front using pairInduction b with
  | nil => exact cutAt?_pair b rest
  | single => exact absurd clear.noEnd (by simp [endsWith, before?, after?])
  | pair t => exact absurd clear.noPair (by simp [has, cutAt?_pair])
  | parted d t apart ih =>
    have later := ih ((clear_parted apart).mp clear)
    rw [List.cons_append, List.cons_append, cutAt?_parted _ apart, later]
    rfl
  | other c t apart ih =>
    have later := ih ((clear_other apart).mp clear)
    rw [List.cons_append, cutAt?_other _ apart, later]
    rfl

end Pairs

end Text

namespace Scanner

/-- The pieces of a text and of its end, read by a scanner that may have seen something before. -/
def read (scanner : Scanner) (t : Text) : List Piece :=
  (scanner.feedAll t).2 ++ (scanner.feedAll t).1.finish

/-- A character is read before the others. -/
theorem read_cons (scanner : Scanner) (c : Char) (cs : Text) :
    scanner.read (c :: cs) = (scanner.feed c).2 ++ (scanner.feed c).1.read cs := by
  unfold read
  rw [feedAll]
  exact List.append_assoc _ _ _

/-- Outside of directives, a text is literal up to its first pair of opening braces. -/
theorem read_outside (t : Text) :
    outside.read t =
      match Text.cutAt? ['\x7b', '\x7b'] t with
      | none => t.map .literal
      | some (front, rest) => front.map .literal ++ (inside []).read rest := by
  induction t using Text.pairInduction '\x7b' with
  | nil => rfl
  | single => rfl
  | pair t =>
    rw [Text.cutAt?_pair, read_cons, read_cons]
    rfl
  | parted d t apart ih =>
    rw [Text.cutAt?_parted t apart, read_cons, read_cons]
    simp only [feed, if_true, if_neg apart, ih]
    cases Text.cutAt? ['\x7b', '\x7b'] t with
    | none => rfl
    | some parts => rfl
  | other c t apart ih =>
    rw [Text.cutAt?_other t apart, read_cons]
    simp only [feed, if_neg apart, ih]
    cases Text.cutAt? ['\x7b', '\x7b'] t with
    | none => rfl
    | some parts => rfl

/-- Inside a directive, a text belongs to it up to its first pair of closing braces; without one,
all of it is literal. -/
theorem read_inside (t latest : Text) :
    (inside latest).read t =
      match Text.cutAt? ['\x7d', '\x7d'] t with
      | none => ('\x7b' :: '\x7b' :: latest.reverse ++ t).map .literal
      | some (front, rest) => .directive (latest.reverse ++ front) :: outside.read rest := by
  induction t using Text.pairInduction '\x7d' generalizing latest with
  | nil => simp [read, feedAll, finish, pending, Text.cutAt?]
  | single => simp [read, feedAll, feed, finish, pending, Text.cutAt?, Text.after?]
  | pair t =>
    rw [Text.cutAt?_pair, read_cons, read_cons]
    simp [feed]
  | parted d t apart ih =>
    rw [Text.cutAt?_parted t apart, read_cons, read_cons]
    simp only [feed, if_true, if_neg apart, ih]
    cases Text.cutAt? ['\x7d', '\x7d'] t with
    | none => simp
    | some parts => simp
  | other c t apart ih =>
    rw [Text.cutAt?_other t apart, read_cons]
    simp only [feed, if_neg apart, ih]
    cases Text.cutAt? ['\x7d', '\x7d'] t with
    | none => simp
    | some parts => simp

end Scanner

namespace Segment

/-- A text as one literal, and no text as none. -/
def run : Text → List Segment
  | [] => []
  | c :: cs => [literal (c :: cs)]

/-- Literal characters make up one run, which ends before a directive. -/
theorem ofPieces_literals (t : Text) {pieces : List Piece}
    (ends : ∀ c rest, pieces ≠ .literal c :: rest) :
    ofPieces (t.map .literal ++ pieces) = run t ++ ofPieces pieces := by
  have apart : ∀ s segments, ofPieces pieces ≠ literal s :: segments := by
    cases pieces with
    | nil => nofun
    | cons piece rest =>
      cases piece with
      | literal c => exact absurd rfl (ends c rest)
      | directive body => nofun
  induction t with
  | nil => rfl
  | cons c cs ih =>
    rw [List.map_cons, List.cons_append, ofPieces, ih]
    cases cs with
    | nil =>
      cases made : ofPieces pieces with
      | nil => rfl
      | cons segment segments =>
        cases segment with
        | literal s => exact absurd made (apart s segments)
        | directive body => rfl
    | cons d ds => rfl

/-- Scanning cuts a text at the first pair of opening braces that a pair of closing ones follows,
and at the first of these. -/
theorem ofText_eq (t : Text) :
    ofText t =
      match Text.cutAt? ['\x7b', '\x7b'] t with
      | none => run t
      | some (front, rest) =>
        match Text.cutAt? ['\x7d', '\x7d'] rest with
        | none => run t
        | some (body, back) => run front ++ directive body :: ofText back := by
  have whole : ofPieces (t.map .literal) = run t := by
    have alone : ofPieces (t.map .literal ++ []) = run t ++ [] := ofPieces_literals t nofun
    rwa [List.append_nil, List.append_nil] at alone
  have read (t : Text) : ofText t = ofPieces (Scanner.outside.read t) := rfl
  rw [read, Scanner.read_outside]
  cases opened : Text.cutAt? ['\x7b', '\x7b'] t with
  | none => exact whole
  | some parts =>
    obtain ⟨front, rest⟩ := parts
    have lead := (Text.clear_of_cutAt? opened).1
    simp only
    rw [Scanner.read_inside]
    cases closed : Text.cutAt? ['\x7d', '\x7d'] rest with
    | none =>
      simp only
      rw [← whole, lead]
      simp
    | some inner =>
      obtain ⟨body, back⟩ := inner
      have ends : ∀ c more, Piece.directive body :: Scanner.outside.read back ≠
          .literal c :: more := fun c more same => nomatch same
      exact ofPieces_literals front ends

/-- Whether segments may stand next to each other: two literals may not. -/
def Apart : Segment → Segment → Prop
  | literal _, literal _ => False
  | _, _ => True

/-- The form of the segments of a text. -/
structure Formed (segments : List Segment) : Prop where
  /-- No literal is empty. -/
  nonempty : ∀ t, literal t ∈ segments → t ≠ []
  /-- No literal stands directly after another. -/
  apart : segments.IsChain Apart
  /-- A directive ends at its first pair of closing braces. -/
  closed : ∀ body, directive body ∈ segments → body.Clear '\x7d'

/-- A text in which no pair of closing braces follows the first pair of opening ones. -/
def Unclosed (t : Text) : Prop :=
  ∀ front rest, Text.cutAt? ['\x7b', '\x7b'] t = some (front, rest) →
    rest.has ['\x7d', '\x7d'] = false

/-- Segments whose literals cannot be taken for the start of a directive: one before another
segment is clear of opening braces, and the last has no closing braces after them. -/
def Readable : List Segment → Prop
  | [] => True
  | [literal t] => Unclosed t
  | literal t :: next :: rest => t.Clear '\x7b' ∧ Readable (next :: rest)
  | directive _ :: rest => Readable rest

/-- Go through a text directive by directive. -/
theorem scanInduction {motive : Text → Prop}
    (last : ∀ t, Unclosed t → ofText t = run t → motive t)
    (front : ∀ t body rest, t.Clear '\x7b' → body.Clear '\x7d' →
      ofText (t ++ (directive body).written ++ rest) = run t ++ directive body :: ofText rest →
      motive rest → motive (t ++ (directive body).written ++ rest))
    (t : Text) : motive t := by
  have read := ofText_eq t
  cases opened : Text.cutAt? ['\x7b', '\x7b'] t with
  | none =>
    rw [opened] at read
    refine last t (fun before rest found => ?_) read
    rw [opened] at found
    cases found
  | some parts =>
    obtain ⟨lead, inner⟩ := parts
    obtain ⟨whole, clear⟩ := Text.clear_of_cutAt? opened
    rw [opened] at read
    cases closed : Text.cutAt? ['\x7d', '\x7d'] inner with
    | none =>
      simp only [closed] at read
      refine last t (fun before rest found => ?_) read
      rw [opened] at found
      cases found
      unfold Text.has
      rw [closed]
      rfl
    | some ends =>
      obtain ⟨body, rest⟩ := ends
      obtain ⟨within, fits⟩ := Text.clear_of_cutAt? closed
      simp only [closed] at read
      have shape : t = lead ++ (directive body).written ++ rest := by
        rw [whole, within]
        simp [written]
      have shorter : rest.length < t.length := by
        rw [whole, within]
        simp only [List.length_append, List.length_cons]
        omega
      have later : motive rest := scanInduction last front rest
      rw [shape] at read ⊢
      exact front lead body rest clear fits read later
termination_by t.length

/-- A run is written as it is. -/
theorem written_run (t : Text) : (run t).flatMap written = t := by
  cases t with
  | nil => rfl
  | cons c cs => exact List.append_nil _

/-- Nothing is lost in scanning. -/
theorem written_ofText (t : Text) : (ofText t).flatMap written = t := by
  induction t using scanInduction with
  | last t _ read => rw [read, written_run]
  | front t body rest _ _ read ih =>
    rw [read, List.flatMap_append, List.flatMap_cons, written_run, ih, List.append_assoc]

/-- A run is in form. -/
theorem formed_run (t : Text) : Formed (run t) := by
  cases t with
  | nil => exact ⟨nofun, .nil, nofun⟩
  | cons c cs =>
    refine ⟨?_, .singleton _, ?_⟩
    · intro s listed
      cases List.mem_singleton.mp listed
      exact List.cons_ne_nil c cs
    · intro body listed
      cases List.mem_singleton.mp listed

/-- A directive may stand before anything. -/
theorem Formed.cons_directive {segments : List Segment} (formed : Formed segments) {body : Text}
    (closed : body.Clear '\x7d') : Formed (directive body :: segments) := by
  refine ⟨?_, ?_, ?_⟩
  · intro t listed
    cases listed with
    | tail _ later => exact formed.nonempty t later
  · exact List.isChain_cons.mpr ⟨fun _ _ => trivial, formed.apart⟩
  · intro other listed
    cases listed with
    | head => exact closed
    | tail _ later => exact formed.closed other later

/-- A run may stand before a directive. -/
theorem Formed.run_append {segments : List Segment} {body : Text}
    (formed : Formed (.directive body :: segments)) (t : Text) :
    Formed (run t ++ .directive body :: segments) := by
  cases t with
  | nil => exact formed
  | cons c cs =>
    refine ⟨?_, ?_, ?_⟩
    · intro s listed
      cases listed with
      | head => exact List.cons_ne_nil c cs
      | tail _ later => exact formed.nonempty s later
    · exact List.isChain_cons_cons.mpr ⟨trivial, formed.apart⟩
    · intro other listed
      cases listed with
      | tail _ later => exact formed.closed other later

/-- The segments of a text are in form. -/
theorem formed_ofText (t : Text) : Formed (ofText t) := by
  induction t using scanInduction with
  | last t _ read =>
    rw [read]
    exact formed_run t
  | front t body rest _ closed read ih =>
    rw [read]
    exact (ih.cons_directive closed).run_append t

/-- The segments of a text cannot be taken for others. -/
theorem readable_ofText (t : Text) : Readable (ofText t) := by
  induction t using scanInduction with
  | last t unclosed read =>
    rw [read]
    cases t with
    | nil => trivial
    | cons c cs => exact unclosed
  | front t body rest clear _ read ih =>
    rw [read]
    cases t with
    | nil => exact ih
    | cons c cs => exact ⟨clear, ih⟩

/-- Nothing after a text can be taken for the start of a directive in it if it is clear of pairs of
opening braces, and nothing in a directive for its end. -/
theorem ofText_append {t body : Text} (clear : t.Clear '\x7b') (closed : body.Clear '\x7d')
    (rest : Text) :
    ofText (t ++ (directive body).written ++ rest) = run t ++ directive body :: ofText rest := by
  have shape : t ++ (directive body).written ++ rest =
      t ++ '\x7b' :: '\x7b' :: (body ++ '\x7d' :: '\x7d' :: rest) := by
    simp [written]
  rw [shape, ofText_eq, Text.cutAt?_of_clear clear]
  simp only
  rw [Text.cutAt?_of_clear closed]

/-- A text in which no directive is closed is one run. -/
theorem ofText_of_unclosed {t : Text} (unclosed : Unclosed t) : ofText t = run t := by
  rw [ofText_eq]
  cases opened : Text.cutAt? ['\x7b', '\x7b'] t with
  | none => rfl
  | some parts =>
    obtain ⟨front, rest⟩ := parts
    have notClosed : Text.cutAt? ['\x7d', '\x7d'] rest = none :=
      Option.not_isSome_iff_eq_none.mp (Bool.eq_false_iff.mp (unclosed front rest opened))
    simp only [notClosed]

/-- What follows the first of some segments in form is in form. -/
theorem Formed.tail {segment : Segment} {segments : List Segment}
    (formed : Formed (segment :: segments)) : Formed segments :=
  ⟨fun t listed => formed.nonempty t (List.mem_cons_of_mem _ listed),
    (List.isChain_cons.mp formed.apart).2,
    fun body listed => formed.closed body (List.mem_cons_of_mem _ listed)⟩

/-- A literal in form is one run. -/
theorem Formed.run_eq {t : Text} {segments : List Segment}
    (formed : Formed (literal t :: segments)) : run t = [literal t] := by
  cases t with
  | nil => exact absurd rfl (formed.nonempty [] List.mem_cons_self)
  | cons c cs => rfl

/-- Segments in form that cannot be taken for others are read from what is written for them. -/
theorem ofText_written {segments : List Segment} (formed : Formed segments)
    (readable : Readable segments) : ofText (segments.flatMap written) = segments := by
  match segments with
  | [] => rfl
  | [literal t] =>
    rw [← formed.run_eq, written_run]
    exact ofText_of_unclosed readable
  | literal s :: literal t :: rest =>
    have apart : Apart (literal s) (literal t) := (List.isChain_cons_cons.mp formed.apart).1
    exact apart.elim
  | literal t :: directive body :: rest =>
    obtain ⟨clear, readableRest⟩ := readable
    have closed := formed.closed body (List.mem_cons_of_mem _ List.mem_cons_self)
    have later := ofText_written formed.tail.tail readableRest
    have shape : (literal t :: directive body :: rest).flatMap written =
        t ++ (directive body).written ++ rest.flatMap written := by
      simp [written]
    rw [shape, ofText_append clear closed, later, formed.run_eq]
    rfl
  | directive body :: rest =>
    have closed := formed.closed body List.mem_cons_self
    have later := ofText_written formed.tail readable
    have nothing : Text.Clear '\x7b' [] := ⟨rfl, rfl⟩
    have shape : (directive body :: rest).flatMap written =
        [] ++ (directive body).written ++ rest.flatMap written := rfl
    rw [shape, ofText_append nothing closed, later]
    rfl

/-- Scanning and writing undo each other. The segments of a text are written as that text and are
in form, and a list of segments is what its written form is scanned as exactly when it is in form
and cannot be taken for another one. -/
theorem ofText_written_iff :
    (∀ t, (ofText t).flatMap written = t ∧ Formed (ofText t)) ∧
      ∀ segments, ofText (segments.flatMap written) = segments ↔
        Formed segments ∧ Readable segments := by
  refine ⟨fun t => ⟨written_ofText t, formed_ofText t⟩, fun segments => ?_⟩
  constructor
  · intro same
    rw [← same]
    exact ⟨formed_ofText _, readable_ofText _⟩
  · rintro ⟨formed, readable⟩
    exact ofText_written formed readable

end Segment

end Keyfob
