import Keyfob.Proofs.Macro.Playback

/-!
# Macro text segment by segment

A pass over macro text goes from piece to piece and remembers its typing speed and whether a
directive came last. Here is what a pass does, said of whole segments and without any memory
(`Segment.batch`): line breaks directly after directives are taken out of the segments first, and
each segment then acts at the speed that the latest one before it set and from where those before
it moved the pointer. `MacroEngine.run_batch` says that the engine does just that, pass after pass,
on every device.
-/
namespace Keyfob

/-- A text without the line break that it begins with: carriage returns, and then one line
feed. -/
def Text.afterBreak (t : Text) : Text :=
  match t.dropWhile (· == '\r') with
  | '\n' :: rest => rest
  | rest => rest

namespace Directive

/-- The typing speed that a directive sets, if it sets one. -/
def speed? : Directive → Option UInt32
  | speed ms => some ms
  | _ => none

/-- Where the pointer is thought to be after a directive, on a device with some capabilities. -/
def moved (capabilities : Capabilities) (tracker : MouseTracker) : Directive → MouseTracker
  | mouse command => if capabilities.mouse then (command.effect tracker).1 else tracker
  | _ => tracker

/-- A directive changes nothing of a pass but the speed and the pointer, and what it does is up to
these alone. -/
theorem effect_eq (capabilities : Capabilities) (pass : Pass) (directive : Directive) :
    directive.effect capabilities pass =
      (⟨directive.speed?.getD pass.speed, pass.afterDirective,
          directive.moved capabilities pass.mouse⟩,
        (directive.effect capabilities { speed := pass.speed, mouse := pass.mouse }).2) := by
  cases directive with
  | mouse command =>
    unfold effect moved
    dsimp only
    split
    · rfl
    · rfl
  | delay ms => rfl
  | speed ms => rfl
  | key spec => rfl
  | text t => rfl
  | gamepad command => rfl
  | audio command => rfl
  | unknown body => rfl

end Directive

namespace Segment

/-- Segments without the line breaks directly after directives. -/
def withoutBreaks : List Segment → List Segment
  | [] => []
  | directive body :: literal t :: rest =>
    directive body :: literal t.afterBreak :: withoutBreaks rest
  | segment :: rest => segment :: withoutBreaks rest

/-- The speed that a segment sets, if it sets one. -/
def speed? : Segment → Option UInt32
  | literal _ => none
  | directive body => (Directive.parse body).speed?

/-- Where the pointer is thought to be after a segment, on a device with some capabilities. -/
def moved (capabilities : Capabilities) (mouse : MouseTracker) : Segment → MouseTracker
  | literal _ => mouse
  | directive body => (Directive.parse body).moved capabilities mouse

/-- What a segment does at a typing speed and from a place of the pointer: each character is typed
and followed by one pause if there is any, and a directive is carried out. -/
def actions (capabilities : Capabilities) (speed : UInt32) (mouse : MouseTracker) :
    Segment → List Action
  | literal t => t.flatMap fun c => .type c :: if 0 < speed then [.delay speed] else []
  | directive body => ((Directive.parse body).effect capabilities { speed, mouse }).2.all

/-- The speed that the latest of some segments set, or the default one. -/
def latestSpeed (default : UInt32) (segments : List Segment) : UInt32 :=
  (segments.filterMap speed?).getLast?.getD default

/-- Where the pointer is thought to be after some segments. -/
def pointer (capabilities : Capabilities) (mouse : MouseTracker) (segments : List Segment) :
    MouseTracker := segments.foldl (moved capabilities) mouse

/-- What segments do one after another, given those before them. -/
def batch (capabilities : Capabilities) (engine : MacroEngine) :
    List Segment → List Segment → List Action
  | _, [] => []
  | earlier, segment :: rest =>
    segment.actions capabilities (latestSpeed engine.defaultSpeed earlier)
        (pointer capabilities engine.mouse earlier) ++
      batch capabilities engine (earlier ++ [segment]) rest

/-! ## Following the speed and the pointer -/

/-- What segments do from a speed and a place of the pointer on, and where they leave it. -/
def follow (capabilities : Capabilities) :
    UInt32 → MouseTracker → List Segment → MouseTracker × List Action
  | _, mouse, [] => (mouse, [])
  | speed, mouse, segment :: rest =>
    let (last, later) := follow capabilities (segment.speed?.getD speed)
      (segment.moved capabilities mouse) rest
    (last, segment.actions capabilities speed mouse ++ later)

/-- Looking back at the segments before is following the speed and the pointer. -/
theorem follow_eq (capabilities : Capabilities) (engine : MacroEngine)
    (earlier segments : List Segment) :
    follow capabilities (latestSpeed engine.defaultSpeed earlier)
        (pointer capabilities engine.mouse earlier) segments =
      (pointer capabilities engine.mouse (earlier ++ segments),
        batch capabilities engine earlier segments) := by
  induction segments generalizing earlier with
  | nil => rw [List.append_nil]; rfl
  | cons segment rest ih =>
    have speed : segment.speed?.getD (latestSpeed engine.defaultSpeed earlier) =
        latestSpeed engine.defaultSpeed (earlier ++ [segment]) := by
      unfold latestSpeed
      rw [List.filterMap_append]
      cases set : segment.speed? with
      | none => simp [set]
      | some ms => simp [set]
    have mouse : segment.moved capabilities (pointer capabilities engine.mouse earlier) =
        pointer capabilities engine.mouse (earlier ++ [segment]) := by
      unfold pointer
      rw [List.foldl_append]
      rfl
    rw [follow, speed, mouse, ih, batch, List.append_assoc]
    rfl

/-- Segments that come directly after a directive: a text at their front loses its line break. -/
def withoutBreak : List Segment → List Segment
  | literal t :: rest => literal t.afterBreak :: rest
  | segments => segments

/-- Line breaks are taken out behind a directive. -/
theorem withoutBreaks_directive (body : Text) (segments : List Segment) :
    withoutBreaks (directive body :: segments) =
      directive body :: withoutBreaks (withoutBreak segments) := by
  cases segments with
  | nil => rfl
  | cons segment rest =>
    cases segment with
    | literal t => rfl
    | directive other => rfl

/-- The first character of a text is typed before the others. -/
theorem follow_character (capabilities : Capabilities) (speed : UInt32) (mouse : MouseTracker)
    (c : Char) (t : Text) (segments : List Segment) :
    follow capabilities speed mouse (literal (c :: t) :: segments) =
      ((follow capabilities speed mouse (literal t :: segments)).1,
        Action.typePaced speed c ++
          (follow capabilities speed mouse (literal t :: segments)).2) := by
  have paced : (Action.type c :: if 0 < speed then [Action.delay speed] else []) =
      Action.typePaced speed c := by
    unfold Action.typePaced Action.pause
    by_cases zero : speed = 0
    · subst zero
      rfl
    · rw [if_pos (UInt32.pos_iff_ne_zero.mpr zero), if_neg zero]
  simp only [follow, actions, List.flatMap_cons, paced, List.append_assoc]
  rfl

/-- A character that is scanned begins a text, in which what is scanned after it goes on. -/
theorem ofPieces_literal (c : Char) (pieces : List Piece) :
    ∃ t rest, ofPieces (.literal c :: pieces) = literal (c :: t) :: rest ∧
      ∀ capabilities speed mouse,
        follow capabilities speed mouse (withoutBreaks (ofPieces pieces)) =
            follow capabilities speed mouse (literal t :: withoutBreaks rest) ∧
          follow capabilities speed mouse (withoutBreaks (withoutBreak (ofPieces pieces))) =
            follow capabilities speed mouse
              (literal (Text.afterBreak t) :: withoutBreaks rest) := by
  rw [ofPieces]
  cases ofPieces pieces with
  | nil => exact ⟨[], [], rfl, fun _ _ _ => ⟨rfl, rfl⟩⟩
  | cons segment rest =>
    cases segment with
    | literal t => exact ⟨t, rest, rfl, fun _ _ _ => ⟨rfl, rfl⟩⟩
    | directive body => exact ⟨[], directive body :: rest, rfl, fun _ _ _ => ⟨rfl, rfl⟩⟩

end Segment

namespace Text

/-- A carriage return at the front belongs to the line break. -/
theorem afterBreak_return (t : Text) : afterBreak ('\r' :: t) = afterBreak t := rfl

/-- A line feed at the front ends the line break. -/
theorem afterBreak_feed (t : Text) : afterBreak ('\n' :: t) = t := rfl

/-- Any other character ends the line break, and stays. -/
theorem afterBreak_other {c : Char} (t : Text) (noReturn : c ≠ '\r') (noFeed : c ≠ '\n') :
    afterBreak (c :: t) = c :: t := by
  have stays : List.dropWhile (· == '\r') (c :: t) = c :: t := by
    rw [List.dropWhile_cons, if_neg (by rwa [beq_iff_eq])]
  unfold afterBreak
  rw [stays]
  split
  · next same =>
    cases same
    exact absurd rfl noFeed
  · rfl

end Text

namespace Pass

/-- The segments of pieces as they come in a pass: directly after a directive, a text at their front
loses its line break. -/
def segments (pass : Pass) (pieces : List Piece) : List Segment :=
  Segment.withoutBreaks (if pass.afterDirective then Segment.withoutBreak (Segment.ofPieces pieces)
    else Segment.ofPieces pieces)

/-- Behind a piece, a pass goes on from where the piece leaves it. -/
theorem run_cons (capabilities : Capabilities) (pass : Pass) (piece : Piece)
    (pieces : List Piece) :
    (next capabilities).run pass (piece :: pieces) =
      (((next capabilities).run (next capabilities pass piece).1 pieces).1,
        (next capabilities pass piece).2.all ++
          ((next capabilities).run (next capabilities pass piece).1 pieces).2) := rfl

/-- A character that is no part of a line break directly after a directive is typed. -/
theorem next_typed (capabilities : Capabilities) {pass : Pass} {c : Char}
    (kept : ¬(pass.afterDirective = true ∧ (c = '\r' ∨ c = '\n'))) :
    next capabilities pass (.literal c) =
      ({ pass with afterDirective := false }, .once (Action.typePaced pass.speed c)) := by
  obtain ⟨speed, after, mouse⟩ := pass
  cases after with
  | false => rfl
  | true =>
    have other : ¬(c = '\r' ∨ c = '\n') := fun which => kept ⟨rfl, which⟩
    rw [not_or] at other
    simp [next, other.1, other.2]

/-- From piece to piece, a pass does what is said of its segments. -/
theorem run_eq_follow (capabilities : Capabilities) (pass : Pass) (pieces : List Piece) :
    (((next capabilities).run pass pieces).1.mouse, ((next capabilities).run pass pieces).2) =
      Segment.follow capabilities pass.speed pass.mouse (pass.segments pieces) := by
  induction pieces generalizing pass with
  | nil =>
    unfold segments
    split <;> rfl
  | cons piece pieces ih =>
    rw [run_cons]
    obtain ⟨speed, after, mouse⟩ := pass
    cases piece with
    | directive body =>
      have first : segments ⟨speed, after, mouse⟩ (.directive body :: pieces) =
          .directive body :: segments ⟨speed, true, mouse⟩ pieces := by
        cases after <;> exact Segment.withoutBreaks_directive body _
      have acted : next capabilities ⟨speed, after, mouse⟩ (.directive body) = _ :=
        (Directive.parse body).effect_eq capabilities ⟨speed, true, mouse⟩
      obtain ⟨last, later⟩ := Prod.mk.inj (ih (next capabilities ⟨speed, after, mouse⟩
        (.directive body)).1)
      rw [first, Segment.follow]
      rw [acted] at last later ⊢
      exact Prod.ext last (congrArg (_ ++ ·) later)
    | literal c =>
      -- What is scanned behind the character goes on in the text that it begins.
      obtain ⟨t, rest, made, goesOn⟩ := Segment.ofPieces_literal c pieces
      obtain ⟨plain, broken⟩ := goesOn capabilities speed mouse
      by_cases dropped : after = true ∧ (c = '\r' ∨ c = '\n')
      · obtain ⟨rfl, which⟩ := dropped
        have front : segments ⟨speed, true, mouse⟩ (.literal c :: pieces) =
            .literal (Text.afterBreak (c :: t)) :: Segment.withoutBreaks rest := by
          rw [segments, made]
          rfl
        rw [front]
        obtain rfl | rfl := which
        · rw [Text.afterBreak_return]
          exact (ih ⟨speed, true, mouse⟩).trans broken
        · rw [Text.afterBreak_feed]
          exact (ih ⟨speed, false, mouse⟩).trans plain
      · have front : segments ⟨speed, after, mouse⟩ (.literal c :: pieces) =
            .literal (c :: t) :: Segment.withoutBreaks rest := by
          rw [segments, made]
          cases after with
          | false => rfl
          | true =>
            have other : ¬(c = '\r' ∨ c = '\n') := fun which => dropped ⟨rfl, which⟩
            rw [not_or] at other
            change Segment.literal (Text.afterBreak (c :: t)) :: Segment.withoutBreaks rest = _
            rw [Text.afterBreak_other t other.1 other.2]
        obtain ⟨last, later⟩ := Prod.mk.inj ((ih ⟨speed, false, mouse⟩).trans plain)
        rw [front, Segment.follow_character, next_typed capabilities dropped, Burst.all_once]
        exact Prod.ext last (congrArg (_ ++ ·) later)

end Pass

/-- What an interpreter does on any device is what its inputs call for, up to the first action that
is refused; it comes to its end where none is. -/
theorem drive_eq_performAll {σ ι δ : Type} [Device δ] (next : Interpreter σ ι) (state : σ)
    (inputs : List ι) (device : δ) :
    ((drive next state inputs device).1, (drive next state inputs device).2.2) =
        performAll (next.run state inputs).2 device ∧
      ((drive next state inputs device).1 = .ok () →
        (drive next state inputs device).2.1 = (next.run state inputs).1) := by
  induction inputs generalizing state device with
  | nil => exact ⟨rfl, fun _ => rfl⟩
  | cons input inputs ih =>
    simp only [drive, Interpreter.run, perform_eq_performAll, performAll_append]
    cases performAll (next state input).2.all device with
    | mk result after =>
      cases result with
      | ok _ => exact ih (next state input).1 after
      | error e =>
        refine ⟨rfl, fun done => ?_⟩
        cases done

namespace MacroEngine

/-- What is left of a text when line breaks directly after directives are taken out of it. -/
def segments (t : Text) : List Segment := Segment.withoutBreaks (Segment.ofText t)

/-- Run texts one after another, each in a pass of its own, up to the first that fails. -/
def runAll {δ : Type} [Device δ] : MacroEngine → List Text → δ →
    Except HidError Unit × MacroEngine × δ
  | engine, [], device => (.ok (), engine, device)
  | engine, t :: texts, device =>
    match engine.run t device with
    | (.ok (), engine, device) => runAll engine texts device
    | (.error e, engine, device) => (.error e, engine, device)

/-- What texts do one after another, each at the default speed from the start, and where they leave
the pointer. -/
def batches (capabilities : Capabilities) (engine : MacroEngine) :
    List Text → MouseTracker × List Action
  | [] => (engine.mouse, [])
  | t :: texts =>
    let mouse := Segment.pointer capabilities engine.mouse (segments t)
    let (last, later) := batches capabilities { engine with mouse := mouse } texts
    (last, Segment.batch capabilities engine [] (segments t) ++ later)

/-- The engine works through a text on any device as is said of its segments, up to the first
action that is refused. The pointer is where they leave it if none is, and the default speed
stays. -/
theorem run_segments {δ : Type} [Device δ] (engine : MacroEngine) (t : Text) (device : δ) :
    ((engine.run t device).1, (engine.run t device).2.2) =
        performAll (Segment.batch (capabilities device) engine [] (segments t)) device ∧
      (engine.run t device).2.1.defaultSpeed = engine.defaultSpeed ∧
      ((engine.run t device).1 = .ok () → (engine.run t device).2.1.mouse =
        Segment.pointer (capabilities device) engine.mouse (segments t)) := by
  have driven := drive_eq_performAll (Pass.next (capabilities device)) engine.newPass
    (Piece.ofText t) device
  have followed := Pass.run_eq_follow (capabilities device) engine.newPass (Piece.ofText t)
  have looked := Segment.follow_eq (capabilities device) engine [] (segments t)
  obtain ⟨mouse, actions⟩ := Prod.mk.inj (followed.trans looked)
  obtain ⟨outcome, ended⟩ := driven
  rw [actions] at outcome
  refine ⟨outcome, rfl, fun done => ?_⟩
  exact (congrArg Pass.mouse (ended done)).trans mouse

/-- A recording keeps what is said of the segments. -/
theorem run_recording (engine : MacroEngine) (t : Text) (recording : Recording) :
    engine.run t recording =
      (.ok (), { engine with
          mouse := Segment.pointer recording.abilities engine.mouse (segments t) },
        carriedOut (Segment.batch recording.abilities engine [] (segments t)) recording) := by
  obtain ⟨emitted, default, moved⟩ := engine.run_segments t recording
  rw [performAll_eq_of_accepts] at emitted
  obtain ⟨done, after⟩ := Prod.mk.inj emitted
  have left : (engine.run t recording).2.1 = { engine with
      mouse := Segment.pointer recording.abilities engine.mouse (segments t) } :=
    congrArg₂ MacroEngine.mk default (moved done)
  exact Prod.ext done (Prod.ext left after)

/-- Macro text is worked through segment by segment: line breaks directly after directives are
dropped, every directive is carried out and every other character typed at the speed that the
latest directive of this pass set, or the default one. So it is on every device up to the first
action that it refuses; and pass after pass, each pass starts afresh and only the pointer is where
the pass before left it. -/
theorem run_batch (engine : MacroEngine) :
    (∀ {δ : Type} [Device δ] (t : Text) (device : δ),
      ((engine.run t device).1, (engine.run t device).2.2) =
          performAll (Segment.batch (capabilities device) engine [] (segments t)) device ∧
        (engine.run t device).2.1.defaultSpeed = engine.defaultSpeed ∧
        ((engine.run t device).1 = .ok () → (engine.run t device).2.1.mouse =
          Segment.pointer (capabilities device) engine.mouse (segments t))) ∧
      ∀ (texts : List Text) (recording : Recording),
        let outcome := engine.runAll texts recording
        let done := engine.batches recording.abilities texts
        outcome.1 = .ok () ∧ outcome.2.1 = ⟨engine.defaultSpeed, done.1⟩ ∧
          outcome.2.2.actions = recording.actions ++ done.2 := by
  refine ⟨fun t device => engine.run_segments t device, fun texts recording => ?_⟩
  induction texts generalizing engine recording with
  | nil => exact ⟨rfl, rfl, (List.append_nil _).symm⟩
  | cons t texts ih =>
    have ran := engine.run_recording t recording
    have carried := Recording.actions_carriedOut
      (Segment.batch recording.abilities engine [] (segments t)) recording
    obtain ⟨-, -, able⟩ := @performAll_of_dependable Recording _ _ Recording.dependable
      (Segment.batch recording.abilities engine [] (segments t)) recording trivial
    have later := ih
      { engine with
        mouse := Segment.pointer recording.abilities engine.mouse (segments t) }
      (carriedOut (Segment.batch recording.abilities engine [] (segments t)) recording)
    change Recording.abilities _ = recording.abilities at able
    dsimp only at later ⊢
    rw [able] at later
    obtain ⟨done, left, emitted⟩ := later
    rw [runAll, ran, batches]
    refine ⟨done, left, ?_⟩
    rw [emitted, carried, List.append_assoc]

example : (Segment.batch .everything (ofSpeed 5) []
    (segments "a\x7b\x7bSPEED:0\x7d\x7d\r\n\nb\x7b\x7bX")) =
    Action.typePaced 5 'a' ++ Action.typeText 0 "\nb\x7b\x7bX" := by
  decide +kernel

end MacroEngine

end Keyfob
