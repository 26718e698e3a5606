import Keyfob.Proofs.Macro.Playback

/-!
# Texts that spill over their braces

A recorded text that does not fit between its braces ends at the first pair of closing braces in
it, and what follows is read as macro text of its own. What that types is never the text: it
holds a line break, or it is no longer than the text and differs from it
(`Recorder.typed_line_of_spill`). Texts without line breaks are therefore typed by their lines
only if each of them fits (`Moment.fit_of_typed_events`), so fitting is not only enough but also
needed.
-/
namespace Keyfob

namespace Text

/-- A text that may stand on either side of two closing braces is made of closing braces. -/
theorem braces_of_commute (t : Text) (commute : '\x7d' :: '\x7d' :: t = t ++ ['\x7d', '\x7d']) :
    ∀ c ∈ t, c = '\x7d' := by
  match t, commute with
  | [], _ => exact nofun
  | [c], commute =>
    have first := (List.cons.inj commute).1
    intro d listed
    rw [List.mem_singleton.mp listed]
    exact first.symm
  | c :: d :: rest, commute =>
    have first := List.cons.inj commute
    have second := List.cons.inj first.2
    have tail : c :: d :: rest = rest ++ ['\x7d', '\x7d'] := second.2
    have braces : '\x7d' :: '\x7d' :: rest = rest ++ ['\x7d', '\x7d'] := by
      rw [← tail, ← first.1, ← second.1]
    intro e listed
    cases listed with
    | head => exact first.1.symm
    | tail _ later =>
      cases later with
      | head => exact second.1.symm
      | tail _ inner => exact braces_of_commute rest braces e inner

end Text

namespace Action

/-- What two lists of actions type, they type in turn. -/
theorem typed_append (first second : List Action) :
    typed (first ++ second) = typed first ++ typed second := List.filterMap_append

/-- Actions none of which types a character type nothing. -/
theorem typed_eq_nil {actions : List Action}
    (silent : ∀ action ∈ actions, ∀ c, action ≠ type c) : typed actions = [] := by
  refine List.filterMap_eq_nil_iff.mpr fun action listed => ?_
  have other := silent action listed
  cases action with
  | type c => exact absurd rfl (other c)
  | _ => rfl

/-- A character that is typed with a pause is typed once. -/
theorem typed_typePaced (pace : UInt32) (c : Char) : typed (typePaced pace c) = [c] := by
  unfold typePaced pause
  split
  · rfl
  · rfl

/-- A text is typed as it is, whatever the pace. -/
theorem typed_typeText (pace : UInt32) (t : Text) : typed (typeText pace t) = t := by
  induction t with
  | nil => rfl
  | cons c cs ih =>
    have later : typed (cs.flatMap (typePaced pace)) = cs := ih
    rw [typeText, List.flatMap_cons, typed_append, typed_typePaced, later]
    rfl

/-- Tapping a chord types no character. -/
theorem typed_tap (chord : Chord) : typed (tap chord) = [] := by
  apply typed_eq_nil
  intro action listed c
  unfold tap at listed
  simp only [List.mem_append, List.mem_map, List.mem_cons, List.not_mem_nil, or_false] at listed
  obtain (⟨code, _, rfl⟩ | rfl | rfl | rfl) | ⟨code, _, rfl⟩ := listed
  all_goals nofun

/-- What types nothing once types nothing many times over. -/
theorem typed_all {times : Nat} {actions : List Action}
    (silent : ∀ action ∈ actions, ∀ c, action ≠ type c) :
    typed (Burst.mk times actions).all = [] := by
  apply typed_eq_nil
  intro action listed
  obtain ⟨round, among, inside⟩ := List.mem_flatten.mp listed
  rw [List.eq_of_mem_replicate among] at inside
  exact silent action inside

end Action

namespace Directive

/-- The characters that a directive types. -/
def typedText : Directive → Text
  | text t => t
  | unknown body => (Segment.directive body).written
  | _ => []

/-- Moving the mouse types no character. -/
theorem typed_mouse (tracker : MouseTracker) (command : MouseCommand) :
    Action.typed (command.effect tracker).2.all = [] := by
  have moves (steps : List MotionStep) : Action.typed (Burst.once (steps.map .move)).all = [] := by
    apply Action.typed_all
    intro action listed c
    obtain ⟨step, _, rfl⟩ := List.mem_map.mp listed
    nofun
  cases command with
  | reset => exact moves _
  | moveTo target => exact moves _
  | moveBy displacement => exact moves _
  | button use held => cases use <;> rfl
  | scroll clicks => exact Action.typed_all (by simp)
  | panning clicks => exact Action.typed_all (by simp)
  | invalid args => rfl

/-- A directive types its characters in any pass, on any device. -/
theorem typed_effect (capabilities : Capabilities) (pass : Pass) (directive : Directive) :
    Action.typed (directive.effect capabilities pass).2.all = directive.typedText := by
  cases directive with
  | delay ms =>
    unfold effect
    rw [Burst.all_once]
    unfold Action.pause
    split
    · rfl
    · rfl
  | speed ms => rfl
  | key spec =>
    unfold effect
    rw [Burst.all_once]
    cases Chord.parse? spec with
    | none => rfl
    | some chord => exact Action.typed_tap chord
  | text t =>
    unfold effect
    rw [Burst.all_once]
    exact Action.typed_typeText pass.speed t
  | mouse command =>
    unfold effect
    dsimp only
    split
    · exact typed_mouse pass.mouse command
    · rfl
  | gamepad command =>
    unfold effect
    dsimp only
    split
    · cases command with
      | stick left x y => cases left <;> rfl
      | trigger left value => cases left <;> rfl
      | _ => rfl
    · rfl
  | audio command =>
    cases command with
    | invalid args => rfl
    | tap key times =>
      unfold effect AudioCommand.actions
      dsimp only
      split
      · exact Action.typed_all (by simp [Action.tapMedia])
      · rfl
  | unknown body =>
    unfold effect
    rw [Burst.all_once]
    exact Action.typed_typeText pass.speed _

/-- A directive types back what was written for it, or less. -/
theorem typedText_parse (body : Text) :
    (parse body).typedText = (Segment.directive body).written ∨
      (parse body).typedText.length < (Segment.directive body).written.length := by
  have size : (Segment.directive body).written.length = body.length + 4 := by
    simp [Segment.written]
  cases cut : Text.cutFirst? ':' body with
  | none =>
    left
    unfold parse
    rw [cut]
    rfl
  | some parts =>
    obtain ⟨kind, args⟩ := parts
    have whole := Text.eq_of_cutFirst? cut
    have shorter : args.length < body.length := by
      rw [whole, List.length_append, List.length_cons]
      omega
    unfold parse
    rw [cut]
    dsimp only
    cases found : ofKind? kind args with
    | none => exact .inl rfl
    | some directive =>
      right
      rw [Option.getD_some, size]
      have bounded : directive.typedText.length ≤ args.length := by
        unfold ofKind? at found
        split at found
        all_goals cases found
        all_goals simp [typedText]
      omega

end Directive

/-- A directive that types no line break, and that fits between its braces unless it is a text to
type. -/
structure Directive.Plain (directive : Directive) : Prop where
  /-- No line break is typed. -/
  noLineBreak : '\n' ∉ directive.typedText
  /-- Only a text does not fit. -/
  fitsOrTypes : directive.body.fitsBraces = true ∨ ∃ t, directive = .text t

namespace Piece

/-- What is written for a piece. -/
def written : Piece → Text
  | literal c => [c]
  | directive body => (Segment.directive body).written

/-- A piece that is written with closing braces only is a closing brace. -/
theorem eq_literal_of_braces {piece : Piece} (braces : ∀ c ∈ piece.written, c = '\x7d') :
    piece = .literal '\x7d' := by
  cases piece with
  | literal c => rw [braces c List.mem_cons_self]
  | directive body => exact absurd (braces '\x7b' List.mem_cons_self) (by decide)

end Piece

namespace Scanner

/-- Nothing is lost in scanning: what is written for the pieces, and what is still open, is the
text. -/
theorem written_feedAll (scanner : Scanner) (t : Text) :
    (scanner.feedAll t).2.flatMap Piece.written ++ (scanner.feedAll t).1.pending.getD [] =
      scanner.pending.getD [] ++ t := by
  have step (scanner : Scanner) (c : Char) :
      (scanner.feed c).2.flatMap Piece.written ++ (scanner.feed c).1.pending.getD [] =
        scanner.pending.getD [] ++ [c] := by
    cases scanner with
    | outside =>
      simp only [feed]
      split
      · next same =>
        rw [same]
        rfl
      · rfl
    | opened =>
      simp only [feed]
      split
      · next same =>
        rw [same]
        rfl
      · rfl
    | inside latest =>
      simp only [feed]
      split
      · next same =>
        rw [same]
        rfl
      · simp [pending]
    | closing latest =>
      simp only [feed]
      split
      · next same => simp [pending, Piece.written, Segment.written, same]
      · simp [pending]
  induction t generalizing scanner with
  | nil => simp [feedAll]
  | cons c cs ih =>
    have now := step scanner c
    have later := ih (scanner.feed c).1
    rw [feedAll]
    simp only [List.flatMap_append, List.append_assoc, later]
    rw [← List.append_assoc, now, List.append_assoc]
    rfl

/-- Inside a directive, the first piece that is completed before two closing braces is a
directive that goes on from what was read. -/
theorem exists_feedAll_inside (t latest : Text) :
    (∃ more rest, ((inside latest).feedAll (t ++ ['\x7d', '\x7d'])).2 =
      .directive (latest.reverse ++ more) :: rest) ∧
    (∃ more rest, ((closing latest).feedAll (t ++ ['\x7d', '\x7d'])).2 =
      .directive (latest.reverse ++ more) :: rest) := by
  induction t generalizing latest with
  | nil =>
    constructor
    · exact ⟨[], [], by rw [List.append_nil]; rfl⟩
    · exact ⟨[], [.literal '\x7d'], by rw [List.append_nil]; rfl⟩
  | cons c cs ih =>
    by_cases brace : c = '\x7d'
    · subst brace
      constructor
      · obtain ⟨more, rest, read⟩ := (ih latest).2
        refine ⟨more, rest, ?_⟩
        rw [List.cons_append, feedAll, feed, if_pos rfl]
        exact read
      · refine ⟨[], (outside.feedAll (cs ++ ['\x7d', '\x7d'])).2, ?_⟩
        rw [List.cons_append, feedAll, feed, if_pos rfl, List.append_nil]
        rfl
    · constructor
      · obtain ⟨more, rest, read⟩ := (ih (c :: latest)).1
        refine ⟨c :: more, rest, ?_⟩
        rw [List.cons_append, feedAll, feed, if_neg brace]
        simp only [read, List.reverse_cons, List.append_assoc]
        rfl
      · obtain ⟨more, rest, read⟩ := (ih (c :: '\x7d' :: latest)).1
        refine ⟨'\x7d' :: c :: more, rest, ?_⟩
        rw [List.cons_append, feedAll, feed, if_neg brace]
        simp only [read, List.reverse_cons, List.append_assoc]
        rfl

end Scanner

/-- What is written for the pieces of a directive is what was written for the directive. -/
theorem Piece.written_ofText (body : Text) :
    (ofText (Segment.directive body).written).flatMap written =
      (Segment.directive body).written := by
  have closed := Scanner.feedAll_written_fst body
  have kept := Scanner.written_feedAll .outside (Segment.directive body).written
  rw [ofText_of_closed closed]
  rw [closed] at kept
  exact (List.append_nil _).symm.trans kept

namespace Pass

/-- A piece types what was written for it, or less. -/
theorem typed_next (capabilities : Capabilities) (pass : Pass) (piece : Piece) :
    Action.typed (next capabilities pass piece).2.all = piece.written ∨
      (Action.typed (next capabilities pass piece).2.all).length < piece.written.length := by
  cases piece with
  | directive body =>
    unfold next
    rw [Directive.typed_effect]
    exact Directive.typedText_parse body
  | literal c =>
    unfold next
    dsimp only
    split
    · exact .inr Nat.one_pos
    · split
      · exact .inr Nat.one_pos
      · left
        rw [Burst.all_once]
        exact Action.typed_typePaced pass.speed c

/-- Pieces type what was written for them, or less. -/
theorem typed_run (capabilities : Capabilities) (pass : Pass) (pieces : List Piece) :
    Action.typed ((next capabilities).run pass pieces).2 = pieces.flatMap Piece.written ∨
      (Action.typed ((next capabilities).run pass pieces).2).length <
        (pieces.flatMap Piece.written).length := by
  induction pieces generalizing pass with
  | nil => exact .inl rfl
  | cons piece rest ih =>
    rw [Interpreter.run, List.flatMap_cons]
    simp only [Action.typed_append, List.length_append]
    cases typed_next capabilities pass piece with
    | inl same =>
      cases ih (next capabilities pass piece).1 with
      | inl later => exact .inl (by rw [same, later])
      | inr later =>
        right
        rw [same]
        omega
    | inr shorter =>
      right
      cases ih (next capabilities pass piece).1 with
      | inl later =>
        rw [later]
        omega
      | inr later => omega

/-- A directive that is read back does the same in any pass. -/
theorem next_body (capabilities : Capabilities) (pass : Pass) {directive : Directive}
    (readsBack : directive.ReadsBack) :
    next capabilities pass (.directive directive.body) =
      directive.effect capabilities { pass with afterDirective := true } := by
  have read : Directive.parse directive.body = directive := readsBack
  unfold next
  dsimp only
  rw [read]

/-- After pieces that are all closing braces, a line break is typed. -/
theorem afterDirective_of_braces (capabilities : Capabilities) (pass : Pass) {pieces : List Piece}
    (nonempty : pieces ≠ []) (braces : ∀ c ∈ pieces.flatMap Piece.written, c = '\x7d') :
    ((next capabilities).run pass pieces).1.afterDirective = false := by
  obtain ⟨front, last, rfl⟩ : ∃ front last, pieces = front ++ [last] :=
    ⟨_, _, (List.dropLast_concat_getLast nonempty).symm⟩
  have brace : last = .literal '\x7d' := by
    apply Piece.eq_literal_of_braces
    intro c listed
    exact braces c (List.mem_flatMap.mpr ⟨last, List.mem_append_right _ List.mem_cons_self, listed⟩)
  rw [Interpreter.run_append, brace]
  unfold Interpreter.run next
  dsimp only
  split
  · next returned =>
    have same := (Bool.and_eq_true_iff.mp returned).2
    exact absurd same (by decide)
  · split
    · rfl
    · rfl

/-- A line break after pieces is dropped or typed. -/
theorem typed_lineBreak (capabilities : Capabilities) (pass : Pass) :
    Action.typed ((next capabilities).run pass [.literal '\n']).2 =
      if pass.afterDirective then [] else ['\n'] := by
  cases after : pass.afterDirective with
  | true => simp [Interpreter.run, next, after, Burst.none, Burst.all_once, Action.typed]
  | false =>
    simp [Interpreter.run, next, after, Burst.all_once, Action.typed_typePaced]

end Pass

namespace Recorder

/-- The line of a directive that fits types what the directive types. -/
theorem typed_line_of_fits (capabilities : Capabilities) (pass : Pass) {directive : Directive}
    (readsBack : directive.ReadsBack) (fits : directive.body.fitsBraces = true) :
    Action.typed ((Pass.next capabilities).run pass (Piece.ofText (line directive))).2 =
      directive.typedText := by
  have read := Pass.next_body capabilities pass readsBack
  have typed := Directive.typed_effect capabilities { pass with afterDirective := true } directive
  have after := congrArg (·.1.afterDirective)
    (Directive.effect_afterDirective capabilities pass true directive)
  dsimp only at after
  rw [ofText_line_of_fits fits, Directive.pieces, Interpreter.run, read]
  simp only [Action.typed_append, Pass.typed_lineBreak, typed, after, if_true]
  exact List.append_nil _

/-- What is written for a text is read as the front of it, which ends at the first pair of closing
braces, and pieces that make up the rest. -/
theorem exists_ofText_text (t : Text) :
    ∃ front rest, Piece.ofText (Directive.text t).written =
        .directive (Directive.text front).body :: rest ∧
      front ++ '\x7d' :: '\x7d' :: rest.flatMap Piece.written = t ++ ['\x7d', '\x7d'] := by
  have written (s : Text) : (Directive.text s).written =
      '\x7b' :: '\x7b' :: 'T' :: 'E' :: 'X' :: 'T' :: ':' :: (s ++ ['\x7d', '\x7d']) := rfl
  have opened (s : Text) : (Scanner.outside.feedAll
      ('\x7b' :: '\x7b' :: 'T' :: 'E' :: 'X' :: 'T' :: ':' :: s)).2 =
        ((Scanner.inside [':', 'T', 'X', 'E', 'T']).feedAll s).2 := rfl
  have closed : (Scanner.outside.feedAll (Directive.text t).written).1 = .outside :=
    Scanner.feedAll_written_fst (Directive.text t).body
  obtain ⟨front, rest, read⟩ := (Scanner.exists_feedAll_inside t [':', 'T', 'X', 'E', 'T']).1
  have split : Piece.ofText (Directive.text t).written =
      .directive (Directive.text front).body :: rest := by
    rw [Piece.ofText_of_closed closed, written, opened, read]
    rfl
  have kept : (Piece.ofText (Directive.text t).written).flatMap Piece.written =
      (Directive.text t).written := Piece.written_ofText (Directive.text t).body
  have first : (Piece.directive (Directive.text front).body).written =
      (Directive.text front).written := rfl
  refine ⟨front, rest, split, ?_⟩
  rw [split, List.flatMap_cons, first, written, written] at kept
  simpa using kept

/-- Where a text that does not fit is the front that is read of it and then what is written for
the rest, there is a rest, and it is made of closing braces. -/
theorem braces_of_spill {t front : Text} {rest : List Piece}
    (spills : ¬(Directive.text t).body.fitsBraces = true)
    (split : Piece.ofText (Directive.text t).written =
      .directive (Directive.text front).body :: rest)
    (whole : front ++ '\x7d' :: '\x7d' :: rest.flatMap Piece.written = t ++ ['\x7d', '\x7d'])
    (same : front ++ rest.flatMap Piece.written = t) :
    rest ≠ [] ∧ ∀ c ∈ rest.flatMap Piece.written, c = '\x7d' := by
  constructor
  · intro nothing
    rw [nothing, List.flatMap_nil, List.append_nil] at same
    have listed : Piece.directive (Directive.text t).body ∈
        Piece.ofText (Directive.text t).written := by
      rw [split, same]
      exact List.mem_cons_self
    exact spills (Piece.fits_of_mem_ofText listed)
  · apply Text.braces_of_commute
    rw [← same, List.append_assoc] at whole
    exact List.append_cancel_left whole

/-- The line of a text that does not fit types a line break, or no more than the text and not
the text itself. -/
theorem typed_line_of_spill (capabilities : Capabilities) (pass : Pass) {t : Text}
    (spills : ¬(Directive.text t).body.fitsBraces = true) :
    let typed := Action.typed
      ((Pass.next capabilities).run pass (Piece.ofText (line (.text t)))).2
    '\n' ∈ typed ∨ typed.length ≤ t.length ∧ typed ≠ t := by
  obtain ⟨front, rest, split, whole⟩ := exists_ofText_text t
  have sizes : front.length + (rest.flatMap Piece.written).length = t.length := by
    have lengths := congrArg List.length whole
    simp only [List.length_append, List.length_cons, List.length_nil] at lengths
    omega
  have read := Pass.next_body capabilities pass (Directive.readsBack_text front)
  have first := Directive.typed_effect capabilities { pass with afterDirective := true }
    (.text front)
  dsimp only
  rw [ofText_line, split, List.cons_append, Interpreter.run, read]
  simp only [Action.typed_append, first, Interpreter.run_append, Pass.typed_lineBreak]
  generalize ((Directive.text front).effect capabilities { pass with afterDirective := true }).1 =
    begun
  cases after : ((Pass.next capabilities).run begun rest).1.afterDirective with
  | false =>
    left
    simp
  | true =>
    right
    simp only [if_true, List.append_nil]
    have bounded := Pass.typed_run capabilities begun rest
    generalize Action.typed ((Pass.next capabilities).run begun rest).2 = later at bounded
    have short : later.length ≤ (rest.flatMap Piece.written).length := by
      cases bounded with
      | inl same => exact Nat.le_of_eq (congrArg List.length same)
      | inr shorter => omega
    constructor
    · simp only [Directive.typedText, List.length_append]
      omega
    · intro same
      simp only [Directive.typedText] at same
      have full : later = rest.flatMap Piece.written := by
        have lengths := congrArg List.length same
        rw [List.length_append] at lengths
        exact bounded.resolve_right (by omega)
      rw [full] at same
      -- Closing braces outside of a token end no line of directives: the line break is typed too.
      obtain ⟨nonempty, braces⟩ := braces_of_spill spills split whole same
      rw [Pass.afterDirective_of_braces capabilities begun nonempty braces] at after
      cases after

end Recorder

namespace Moment

/-- The characters that some moments type when they are acted out. -/
def typedText (moments : List Moment) : Text :=
  moments.flatMap fun moment => moment.directive.typedText

/-- Those characters are typed live. -/
theorem typed_live (capabilities : Capabilities) (engine : MacroEngine) (moments : List Moment) :
    Action.typed (live capabilities engine moments) = typedText moments := by
  unfold live
  induction moments generalizing engine with
  | nil => rfl
  | cons moment rest ih =>
    have own : Action.typed (MacroEngine.next capabilities engine moment.directive).2.all =
        moment.directive.typedText :=
      Directive.typed_effect capabilities engine.newPass moment.directive
    have later := ih (MacroEngine.next capabilities engine moment.directive).1
    rw [List.map_cons, Interpreter.run]
    simp only [Action.typed_append, own, later]
    rfl

/-- The pass in which the line of a moment is played, after its pauses. -/
def waited (capabilities : Capabilities) (pass : Pass) (moment : Moment) : Pass :=
  ((Pass.next capabilities).run pass
    (Piece.ofText ((Recorder.delays moment.gap).flatMap Recorder.line))).1

/-- What is played but for the recorded pauses is what the lines of the moments call for. -/
theorem events_replays_cons (capabilities : Capabilities) (pass : Pass) (moment : Moment)
    (rest : List Moment) :
    let acted := (Pass.next capabilities).run (waited capabilities pass moment)
      (Piece.ofText (Recorder.line moment.directive))
    (replays capabilities pass (moment :: rest)).flatMap Replay.events =
      acted.2 ++ (replays capabilities acted.1 rest).flatMap Replay.events := rfl

/-- Plain moments type no line break live. -/
theorem noLineBreak_typedText {moments : List Moment}
    (plain : ∀ moment ∈ moments, moment.directive.Plain) : '\n' ∉ typedText moments := by
  intro listed
  obtain ⟨moment, among, inside⟩ := List.mem_flatMap.mp listed
  exact (plain moment among).noLineBreak inside

/-- The line of a plain moment types a line break, or no more than is typed live, and just that
only if it fits. -/
theorem typed_line (capabilities : Capabilities) (pass : Pass) {moment : Moment}
    (readsBack : moment.directive.ReadsBack) (plain : moment.directive.Plain) :
    let typed := Action.typed
      ((Pass.next capabilities).run pass (Piece.ofText (Recorder.line moment.directive))).2
    '\n' ∈ typed ∨ typed.length ≤ moment.directive.typedText.length ∧
      (typed = moment.directive.typedText → moment.directive.body.fitsBraces = true) := by
  by_cases fits : moment.directive.body.fitsBraces = true
  · have same := Recorder.typed_line_of_fits capabilities pass readsBack fits
    exact .inr ⟨Nat.le_of_eq (congrArg List.length same), fun _ => fits⟩
  · obtain ⟨t, text⟩ := plain.fitsOrTypes.resolve_left fits
    rw [text] at fits ⊢
    refine (Recorder.typed_line_of_spill capabilities pass fits).imp id fun spilled => ?_
    exact ⟨spilled.1, fun same => absurd same spilled.2⟩

/-- The lines of plain moments type a line break, or no more than is typed live. -/
theorem length_typed_events (capabilities : Capabilities) (pass : Pass) {moments : List Moment}
    (readBack : ∀ moment ∈ moments, moment.directive.ReadsBack)
    (plain : ∀ moment ∈ moments, moment.directive.Plain) :
    let typed := Action.typed ((replays capabilities pass moments).flatMap Replay.events)
    '\n' ∈ typed ∨ typed.length ≤ (typedText moments).length := by
  induction moments generalizing pass with
  | nil => exact .inr (Nat.le_refl 0)
  | cons moment rest ih =>
    have first := typed_line capabilities (waited capabilities pass moment)
      (readBack moment List.mem_cons_self) (plain moment List.mem_cons_self)
    have later := ih ((Pass.next capabilities).run (waited capabilities pass moment)
      (Piece.ofText (Recorder.line moment.directive))).1
        (fun other listed => readBack other (List.mem_cons_of_mem _ listed))
        (fun other listed => plain other (List.mem_cons_of_mem _ listed))
    have own : typedText (moment :: rest) = moment.directive.typedText ++ typedText rest := rfl
    dsimp only at first later ⊢
    rw [events_replays_cons, Action.typed_append, own, List.mem_append, List.length_append,
      List.length_append]
    cases first with
    | inl broken => exact .inl (.inl broken)
    | inr short =>
      cases later with
      | inl broken => exact .inl (.inr broken)
      | inr shorter =>
        right
        have front := short.1
        omega

/-- The lines of plain moments type what is typed live only if each of them fits. -/
theorem fit_of_typed_events (capabilities : Capabilities) (pass : Pass) {moments : List Moment}
    (readBack : ∀ moment ∈ moments, moment.directive.ReadsBack)
    (plain : ∀ moment ∈ moments, moment.directive.Plain)
    (same : Action.typed ((replays capabilities pass moments).flatMap Replay.events) =
      typedText moments) :
    ∀ moment ∈ moments, moment.directive.body.fitsBraces = true := by
  induction moments generalizing pass with
  | nil => exact nofun
  | cons moment rest ih =>
    have unbroken := noLineBreak_typedText plain
    have othersRead : ∀ other ∈ rest, other.directive.ReadsBack := fun other listed =>
      readBack other (List.mem_cons_of_mem _ listed)
    have othersPlain : ∀ other ∈ rest, other.directive.Plain := fun other listed =>
      plain other (List.mem_cons_of_mem _ listed)
    have own : typedText (moment :: rest) = moment.directive.typedText ++ typedText rest := rfl
    rw [← same] at unbroken
    rw [events_replays_cons, Action.typed_append] at same unbroken
    rw [own] at same
    rw [List.mem_append, not_or] at unbroken
    have first := (typed_line capabilities (waited capabilities pass moment)
      (readBack moment List.mem_cons_self) (plain moment List.mem_cons_self)).resolve_left
        unbroken.1
    have later :=
      (length_typed_events capabilities _ othersRead othersPlain).resolve_left unbroken.2
    -- Neither part is longer than what is typed live, so both are as long.
    have sizes := congrArg List.length same
    rw [List.length_append, List.length_append] at sizes
    obtain ⟨front, back⟩ := List.append_inj same (by omega)
    intro other listed
    cases listed with
    | head => exact first.2 front
    | tail _ among => exact ih _ othersRead othersPlain back other among

end Moment

end Keyfob
