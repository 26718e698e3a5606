import Keyfob.Macro.Engine
import Keyfob.Proofs.Hid.Dependable
import Keyfob.Proofs.Macro.Braces
import Keyfob.Proofs.Macro.Written
import Keyfob.Recorder

/-!
# Playing directives line by line

A recording is a list of directives, each on a line of its own. The scanner reads the lines one
by one (`Recorder.ofText_lines`), and as those directives exactly when each fits between its
braces (`Recorder.ofText_lines_iff`). One pass over them then does what the directives do one by
one at the default speed, since a line break directly after a directive is dropped. So a recording
that fits plays back what was done live, with pauses in between
(`Moment.events_replays_of_fits`).
-/
namespace Keyfob

namespace MacroEngine

/-- What directives do one by one at the default speed, on a device with some capabilities. -/
def next (capabilities : Capabilities) : Interpreter MacroEngine Directive :=
    fun engine directive =>
  let (pass, burst) := directive.effect capabilities engine.newPass
  ({ engine with mouse := pass.mouse }, burst)

/-- The actions of a directive at the default speed. -/
def actions (engine : MacroEngine) (capabilities : Capabilities) (directive : Directive) :
    List Action := (next capabilities engine directive).2.all

/-- On a device that can be depended on, a directive does just that. -/
theorem runDirective_eq {δ : Type} [Device δ] {fit : δ → Prop}
    (dependable : Device.Dependable fit) (engine : MacroEngine) (directive : Directive)
    {device : δ} (fits : fit device) :
    engine.runDirective directive device =
      (.ok (), (next (capabilities device) engine directive).1,
        carriedOut (engine.actions (capabilities device) directive) device) := by
  have performed := performAll_of_dependable dependable
    (engine.actions (capabilities device) directive) fits
  unfold actions next at performed
  unfold runDirective actions next
  simp only [perform_eq_performAll]
  dsimp only at performed
  rw [performed.1]

end MacroEngine

namespace Directive

/-- Whether a directive leaves the typing speed as it is. -/
def keepsSpeed : Directive → Bool
  | speed _ => false
  | _ => true

/-- A directive does the same whether or not another one came last. -/
theorem effect_afterDirective (capabilities : Capabilities) (pass : Pass) (after : Bool)
    (directive : Directive) :
    directive.effect capabilities { pass with afterDirective := after } =
      ({ (directive.effect capabilities pass).1 with afterDirective := after },
        (directive.effect capabilities pass).2) := by
  cases directive with
  | mouse command =>
    unfold effect
    dsimp only
    split
    · rfl
    · rfl
  | delay ms => rfl
  | speed ms => rfl
  | key spec => rfl
  | text t => rfl
  | gamepad command => rfl
  | audio command => rfl
  | unknown body => rfl

/-- At the default speed, a directive that keeps the speed leads from one new pass to another. -/
theorem effect_newPass (capabilities : Capabilities) (engine : MacroEngine)
    {directive : Directive} (kept : directive.keepsSpeed = true) :
    directive.effect capabilities engine.newPass =
      ((MacroEngine.next capabilities engine directive).1.newPass,
        (MacroEngine.next capabilities engine directive).2) := by
  cases directive with
  | mouse command =>
    unfold MacroEngine.next effect
    dsimp only
    split
    · rfl
    · rfl
  | speed ms => exact absurd kept nofun
  | delay ms => rfl
  | key spec => rfl
  | text t => rfl
  | gamepad command => rfl
  | audio command => rfl
  | unknown body => rfl

/-- The pieces of a directive on a line of its own. -/
def pieces (directive : Directive) : List Piece := [.directive directive.body, .literal '\n']

end Directive

namespace Interpreter

/-- Two lists of inputs are worked through in turn. -/
theorem run_append {σ ι : Type} (next : Interpreter σ ι) (state : σ) (first second : List ι) :
    next.run state (first ++ second) =
      ((next.run (next.run state first).1 second).1,
        (next.run state first).2 ++ (next.run (next.run state first).1 second).2) := by
  induction first generalizing state with
  | nil => rfl
  | cons input inputs ih => simp only [List.cons_append, run, ih, List.append_assoc]

end Interpreter

namespace Scanner

/-- Nothing is open after two closing braces, whatever was open before. -/
theorem feedAll_closed (scanner : Scanner) :
    (scanner.feedAll ['\x7d', '\x7d']).1 = outside := by
  cases scanner with
  | outside => rfl
  | opened => rfl
  | inside latest => rfl
  | closing latest => rfl

/-- A directive that is written leaves nothing open. -/
theorem feedAll_written_fst (body : Text) :
    (outside.feedAll (Segment.directive body).written).1 = outside := by
  change (outside.feedAll (('\x7b' :: '\x7b' :: body) ++ ['\x7d', '\x7d'])).1 = outside
  rw [feedAll_append]
  exact feedAll_closed _

end Scanner

/-- Where nothing is left open, the pieces of a text are those that are completed. -/
theorem Piece.ofText_of_closed {t : Text} (closed : (Scanner.outside.feedAll t).1 = .outside) :
    ofText t = (Scanner.outside.feedAll t).2 := by
  unfold ofText
  dsimp only
  rw [closed]
  exact List.append_nil _

namespace Recorder

/-- The line of a directive leaves nothing open, and is read as what is written for the directive
and a line break. -/
theorem feedAll_line (directive : Directive) :
    Scanner.outside.feedAll (line directive) =
      (.outside, Piece.ofText directive.written ++ [.literal '\n']) := by
  have closed : (Scanner.outside.feedAll directive.written).1 = .outside :=
    Scanner.feedAll_written_fst directive.body
  have lineBreak : Scanner.outside.feedAll ['\n'] = (.outside, [.literal '\n']) := by decide
  unfold line
  rw [Scanner.feedAll_append, closed, lineBreak, Piece.ofText_of_closed closed]

/-- The line of a directive is read as what is written for it and a line break. -/
theorem ofText_line (directive : Directive) :
    Piece.ofText (line directive) = Piece.ofText directive.written ++ [.literal '\n'] := by
  have read := feedAll_line directive
  rw [Piece.ofText_of_closed (congrArg Prod.fst read), read]

/-- Lines of directives are scanned one by one, whether or not the directives fit. -/
theorem feedAll_lines (directives : List Directive) :
    Scanner.outside.feedAll (directives.flatMap line) =
      (.outside, directives.flatMap fun directive => Piece.ofText (line directive)) := by
  induction directives with
  | nil => rfl
  | cons directive rest ih =>
    rw [List.flatMap_cons, List.flatMap_cons, Scanner.feedAll_append, feedAll_line, ofText_line]
    simp only [ih]

/-- Lines of directives are read one by one, whether or not the directives fit. -/
theorem ofText_lines (directives : List Directive) :
    Piece.ofText (directives.flatMap line) =
      directives.flatMap fun directive => Piece.ofText (line directive) := by
  have read := feedAll_lines directives
  rw [Piece.ofText_of_closed (congrArg Prod.fst read), read]

/-- The line of a directive that fits between its braces is read as that directive. -/
theorem ofText_line_of_fits {directive : Directive} (fits : directive.body.fitsBraces = true) :
    Piece.ofText (line directive) = directive.pieces := by
  have read := Scanner.feedAll_written fits
  have written : Piece.ofText directive.written = [.directive directive.body] :=
    (Piece.ofText_of_closed (congrArg Prod.fst read)).trans (congrArg Prod.snd read)
  rw [ofText_line, written]
  rfl

/-- Lines of directives that fit between their braces are read as those directives. -/
theorem ofText_lines_of_fits {directives : List Directive}
    (fit : ∀ directive ∈ directives, directive.body.fitsBraces = true) :
    Piece.ofText (directives.flatMap line) = directives.flatMap Directive.pieces := by
  rw [ofText_lines]
  induction directives with
  | nil => rfl
  | cons directive rest ih =>
    have first := ofText_line_of_fits (fit directive List.mem_cons_self)
    have later := ih fun other listed => fit other (List.mem_cons_of_mem _ listed)
    rw [List.flatMap_cons, List.flatMap_cons, first, later]

/-- Lines of directives are read as those directives exactly when each fits between its
braces. -/
theorem ofText_lines_iff (directives : List Directive) :
    Piece.ofText (directives.flatMap line) = directives.flatMap Directive.pieces ↔
      ∀ directive ∈ directives, directive.body.fitsBraces = true := by
  constructor
  · intro read directive listed
    apply Piece.fits_of_mem_ofText (t := directives.flatMap line)
    rw [read]
    exact List.mem_flatMap.mpr ⟨directive, listed, List.mem_cons_self⟩
  · exact ofText_lines_of_fits

/-- What makes up a time are pauses that are not too long. -/
theorem exists_of_mem_delays {time : Nat} {directive : Directive}
    (listed : directive ∈ delays time) :
    ∃ ms, ms ≤ longestDelay ∧ directive = .delay (UInt32.ofNat ms) := by
  unfold delays at listed
  cases List.mem_append.mp listed with
  | inl whole => exact ⟨longestDelay, Nat.le_refl _, List.eq_of_mem_replicate whole⟩
  | inr rest =>
    split at rest
    · cases rest
    · have short : time % longestDelay ≤ longestDelay :=
        Nat.le_of_lt (Nat.mod_lt time (by decide))
      exact ⟨time % longestDelay, short, List.mem_singleton.mp rest⟩

/-- Pauses fit between braces. -/
theorem fits_of_mem_delays {time : Nat} {directive : Directive}
    (listed : directive ∈ delays time) : directive.body.fitsBraces = true := by
  obtain ⟨ms, _, rfl⟩ := exists_of_mem_delays listed
  apply Text.fitsBraces_of_noBrace
  intro c written
  cases List.mem_append.mp written with
  | inl word =>
    have plain : '\x7d' ∉ "DELAY:".toList := by decide
    exact fun same => plain (same ▸ word)
  | inr digits =>
    have numeral := Text.isNumeral_of_mem_ofInt (n := (UInt32.ofNat ms).toNat) digits
    exact Text.ne_of_isNumeral numeral (by decide)

end Recorder

namespace Pass

/-- Directly after a directive, a line break is dropped. -/
theorem next_lineBreak (capabilities : Capabilities) (pass : Pass) :
    next capabilities { pass with afterDirective := true } (.literal '\n') =
      ({ pass with afterDirective := false }, .none) := rfl

/-- A directive on a line of its own does what it does alone, and its line break nothing. -/
theorem run_pieces (capabilities : Capabilities) (engine : MacroEngine) {directive : Directive}
    (readsBack : directive.ReadsBack) (kept : directive.keepsSpeed = true) :
    (next capabilities).run engine.newPass directive.pieces =
      ((MacroEngine.next capabilities engine directive).1.newPass,
        engine.actions capabilities directive) := by
  have read : Directive.parse directive.body = directive := readsBack
  have first : next capabilities engine.newPass (.directive directive.body) =
      ({ (MacroEngine.next capabilities engine directive).1.newPass with afterDirective := true },
        (MacroEngine.next capabilities engine directive).2) := by
    have effect := Directive.effect_afterDirective capabilities engine.newPass true directive
    rw [Directive.effect_newPass capabilities engine kept] at effect
    unfold next
    dsimp only
    rw [read]
    exact effect
  have second := next_lineBreak capabilities
    (MacroEngine.next capabilities engine directive).1.newPass
  rw [Directive.pieces, Interpreter.run, first]
  simp only
  rw [Interpreter.run, second]
  exact Prod.ext rfl (List.append_nil _)

end Pass

namespace MacroEngine

/-- One pass over lines of directives that fit between their braces does what the directives do
one by one. -/
theorem run_lines (capabilities : Capabilities) (engine : MacroEngine)
    {directives : List Directive} (readBack : ∀ directive ∈ directives, directive.ReadsBack)
    (kept : ∀ directive ∈ directives, directive.keepsSpeed = true)
    (fit : ∀ directive ∈ directives, directive.body.fitsBraces = true) :
    (Pass.next capabilities).run engine.newPass (Piece.ofText (directives.flatMap Recorder.line)) =
      (((next capabilities).run engine directives).1.newPass,
        ((next capabilities).run engine directives).2) := by
  rw [Recorder.ofText_lines_of_fits fit]
  clear fit
  induction directives generalizing engine with
  | nil => rfl
  | cons directive rest ih =>
    have later := ih (next capabilities engine directive).1
      (fun other listed => readBack other (List.mem_cons_of_mem _ listed))
      (fun other listed => kept other (List.mem_cons_of_mem _ listed))
    have own := Pass.run_pieces capabilities engine (readBack directive List.mem_cons_self)
      (kept directive List.mem_cons_self)
    rw [List.flatMap_cons, Interpreter.run_append, own, later]
    rfl

/-- On a device that can be depended on, macro text is played to its end. -/
theorem run_eq {δ : Type} [Device δ] {fit : δ → Prop} (dependable : Device.Dependable fit)
    (engine : MacroEngine) (t : Text) {device : δ} (fits : fit device) :
    (engine.run t device).1 = .ok () ∧
      (engine.run t device).2.2 =
        carriedOut ((Pass.next (capabilities device)).run engine.newPass (Piece.ofText t)).2
          device := by
  unfold run perform
  rw [drive_of_dependable dependable _ _ _ fits]
  exact ⟨rfl, rfl⟩

end MacroEngine

/-- What a recorder notes of a live action. -/
structure Moment where
  /-- The milliseconds since the action before it, or since the recording was started. -/
  gap : Nat
  /-- What was done. -/
  directive : Directive

/-- What the playback of a moment calls for. -/
structure Replay where
  /-- What the pauses before it call for. -/
  pauses : List Action
  /-- What its own line calls for. -/
  events : List Action

/-- All that the playback of a moment calls for, in order. -/
def Replay.actions (replay : Replay) : List Action := replay.pauses ++ replay.events

namespace Moment

/-- The directives that a moment is recorded as. -/
def directives (moment : Moment) : List Directive :=
  Recorder.delays moment.gap ++ [moment.directive]

/-- The lines that record some moments. -/
def script (moments : List Moment) : Text :=
  moments.flatMap fun moment => Recorder.entry moment.gap moment.directive

/-- What playing the recorded moments calls for, moment by moment, in one pass. -/
def replays (capabilities : Capabilities) : Pass → List Moment → List Replay
  | _, [] => []
  | pass, moment :: rest =>
    let waited := (Pass.next capabilities).run pass
      (Piece.ofText ((Recorder.delays moment.gap).flatMap Recorder.line))
    let acted := (Pass.next capabilities).run waited.1
      (Piece.ofText (Recorder.line moment.directive))
    ⟨waited.2, acted.2⟩ :: replays capabilities acted.1 rest

/-- What the moments called for when they were recorded. -/
def live (capabilities : Capabilities) (engine : MacroEngine) (moments : List Moment) :
    List Action :=
  ((MacroEngine.next capabilities).run engine (moments.map (·.directive))).2

/-- The recorded lines are those of the directives. -/
theorem script_eq (moments : List Moment) :
    script moments = (moments.flatMap directives).flatMap Recorder.line := by
  unfold script directives Recorder.entry
  rw [List.flatMap_assoc]

/-- The recorded lines are read moment by moment, the pauses first. -/
theorem ofText_script_cons (moment : Moment) (rest : List Moment) :
    Piece.ofText (script (moment :: rest)) =
      Piece.ofText ((Recorder.delays moment.gap).flatMap Recorder.line) ++
        (Piece.ofText (Recorder.line moment.directive) ++ Piece.ofText (script rest)) := by
  rw [script_eq, script_eq, Recorder.ofText_lines, Recorder.ofText_lines, Recorder.ofText_lines,
    List.flatMap_cons, List.flatMap_append, directives, List.flatMap_append, List.append_assoc]
  simp only [List.flatMap_cons, List.flatMap_nil, List.append_nil]

/-- One pass over the recorded lines calls for the replays of the moments, one after another. -/
theorem run_script (capabilities : Capabilities) (pass : Pass) (moments : List Moment) :
    ((Pass.next capabilities).run pass (Piece.ofText (script moments))).2 =
      (replays capabilities pass moments).flatMap Replay.actions := by
  induction moments generalizing pass with
  | nil => rfl
  | cons moment rest ih =>
    rw [ofText_script_cons, Interpreter.run_append, Interpreter.run_append]
    simp only [ih, replays, List.flatMap_cons, Replay.actions, List.append_assoc]

/-- The recorded lines are read as the directives of the moments exactly when each fits between
its braces. -/
theorem ofText_script_iff (moments : List Moment) :
    Piece.ofText (script moments) = (moments.flatMap directives).flatMap Directive.pieces ↔
      ∀ moment ∈ moments, moment.directive.body.fitsBraces = true := by
  rw [script_eq, Recorder.ofText_lines_iff]
  constructor
  · intro fit moment listed
    have own : moment.directive ∈ moment.directives := List.mem_append_right _ List.mem_cons_self
    exact fit _ (List.mem_flatMap.mpr ⟨moment, listed, own⟩)
  · intro fit directive listed
    obtain ⟨moment, among, part⟩ := List.mem_flatMap.mp listed
    cases List.mem_append.mp part with
    | inl pause => exact Recorder.fits_of_mem_delays pause
    | inr own =>
      cases List.mem_singleton.mp own
      exact fit moment among

/-- Pauses leave the engine as it is. -/
theorem run_delays (capabilities : Capabilities) (engine : MacroEngine) (time : Nat) :
    ((MacroEngine.next capabilities).run engine (Recorder.delays time)).1 = engine := by
  have each : ∀ directive ∈ Recorder.delays time,
      (MacroEngine.next capabilities engine directive).1 = engine := by
    intro directive listed
    obtain ⟨ms, _, rfl⟩ := Recorder.exists_of_mem_delays listed
    rfl
  generalize Recorder.delays time = directives at each
  induction directives with
  | nil => rfl
  | cons directive rest ih =>
    have first := each directive List.mem_cons_self
    have later := ih fun other listed => each other (List.mem_cons_of_mem _ listed)
    rw [Interpreter.run]
    simp only [first, later]

/-- Playing the lines of a time at the start of a pass leaves another pass to start. -/
theorem run_pauses (capabilities : Capabilities) (engine : MacroEngine) (time : Nat) :
    ((Pass.next capabilities).run engine.newPass
      (Piece.ofText ((Recorder.delays time).flatMap Recorder.line))).1 = engine.newPass := by
  have readBack : ∀ directive ∈ Recorder.delays time, directive.ReadsBack := by
    intro directive listed
    obtain ⟨ms, short, rfl⟩ := Recorder.exists_of_mem_delays listed
    exact Directive.readsBack_delay short
  have kept : ∀ directive ∈ Recorder.delays time, directive.keepsSpeed = true := by
    intro directive listed
    obtain ⟨ms, _, rfl⟩ := Recorder.exists_of_mem_delays listed
    rfl
  rw [MacroEngine.run_lines capabilities engine readBack kept
    fun directive listed => Recorder.fits_of_mem_delays listed]
  exact congrArg MacroEngine.newPass (run_delays capabilities engine time)

/-- Moments whose directives fit between their braces are played back, but for the recorded
pauses, as they were acted out. -/
theorem events_replays_of_fits (capabilities : Capabilities) (engine : MacroEngine)
    {moments : List Moment}
    (readBack : ∀ moment ∈ moments, moment.directive.ReadsBack)
    (kept : ∀ moment ∈ moments, moment.directive.keepsSpeed = true)
    (fit : ∀ moment ∈ moments, moment.directive.body.fitsBraces = true) :
    (replays capabilities engine.newPass moments).flatMap Replay.events =
      live capabilities engine moments := by
  induction moments generalizing engine with
  | nil => rfl
  | cons moment rest ih =>
    have own : (Pass.next capabilities).run engine.newPass
        (Piece.ofText (Recorder.line moment.directive)) =
          ((MacroEngine.next capabilities engine moment.directive).1.newPass,
            engine.actions capabilities moment.directive) := by
      rw [Recorder.ofText_line_of_fits (fit moment List.mem_cons_self)]
      exact Pass.run_pieces capabilities engine (readBack moment List.mem_cons_self)
        (kept moment List.mem_cons_self)
    have later := ih (MacroEngine.next capabilities engine moment.directive).1
      (fun other listed => readBack other (List.mem_cons_of_mem _ listed))
      (fun other listed => kept other (List.mem_cons_of_mem _ listed))
      (fun other listed => fit other (List.mem_cons_of_mem _ listed))
    rw [replays, run_pauses, own, List.flatMap_cons]
    simp only [later]
    rfl

end Moment

end Keyfob
