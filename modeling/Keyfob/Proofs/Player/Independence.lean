import Keyfob.Proofs.Player.Score

/-!
# One text after another

A player keeps a script engine and a DuckyScript interpreter from text to text, and is lent the same
macro engine for each. Whatever was played before, and wherever a device broke it off, the next text
is played as by a player with the same settings that has played nothing (`Player.play_after`): of
all that earlier texts left behind only the estimate of where the pointer is counts.
-/
namespace Keyfob

variable {δ ε : Type} [Device δ] [Device ε]

/-- DuckyScript acts the same whatever default delay was noted before. -/
theorem Ducky.actions_run (ducky other : Ducky) (lines : List Text) :
    (next.run ducky lines).2 = (next.run other lines).2 := by
  induction lines generalizing ducky other with
  | nil => rfl
  | cons line lines ih =>
    cases parsed : DuckyCommand.parse? line with
    | none =>
      simp only [Interpreter.run, next, parsed]
      exact congrArg (Burst.none.all ++ ·) (ih ducky other)
    | some command =>
      simp only [Interpreter.run, next, parsed]
      exact congrArg ((Burst.once command.actions).all ++ ·)
        (ih (ducky.noting command) (other.noting command))

/-! ## The default typing speed -/

/-- Doing what a script asks for changes no default speed. -/
theorem Request.defaultSpeed_perform (request : Request) (engine : MacroEngine) (device : δ) :
    (request.perform engine device).2.1.defaultSpeed = engine.defaultSpeed := by
  cases request with
  | delay ms => rfl
  | button held down => rfl
  | typed t => rfl

/-- A script changes no default speed, wherever it ends. -/
theorem Script.defaultSpeed_runFrom (program : List Instruction) (steps budget : Nat)
    (machine : Machine) (engine : MacroEngine) (device : δ) :
    (runFrom program steps budget machine engine device).2.2.1.defaultSpeed =
      engine.defaultSpeed := by
  induction budget generalizing steps machine engine device with
  | zero => rfl
  | succ budget ih =>
    unfold runFrom
    cases machine.step program with
    | none => rfl
    | some visit =>
      obtain ⟨next, request⟩ := visit
      cases request with
      | none => exact ih (steps + 1) next engine device
      | some request =>
        have first := request.defaultSpeed_perform engine device
        dsimp only
        cases outcome : request.perform engine device with
        | mk result after =>
          obtain ⟨moved, later⟩ := after
          rw [outcome] at first
          cases result with
          | error e => exact first
          | ok _ => exact (ih (steps + 1) next moved later).trans first

namespace Player

/-- Playing a text changes no default speed. -/
theorem defaultSpeed_play (player : Player) (content : Text) (engine : MacroEngine) (device : δ) :
    (player.play content engine device).2.2.1.defaultSpeed = engine.defaultSpeed := by
  unfold play
  cases Dialect.detect content with
  | script => exact Script.defaultSpeed_runFrom _ _ _ _ _ _
  | ducky => rfl
  | tokens => rfl

/-! ## What a player keeps -/

/-- A player with the settings of another that has played nothing. -/
def fresh (player : Player) : Player :=
  { script := { budget := player.script.budget }, pacing := player.pacing }

/-- Playing a text changes no settings. -/
theorem fresh_play (player : Player) (content : Text) (engine : MacroEngine) (device : δ) :
    (player.play content engine device).2.1.fresh = player.fresh := by
  unfold play
  cases Dialect.detect content with
  | script => rfl
  | ducky => rfl
  | tokens => rfl

/-- What a player has played before changes nothing about how it plays a text, and where the text is
a script nothing about the variables that are left. -/
theorem play_eq_fresh (player : Player) (content : Text) (engine : MacroEngine) (device : δ) :
    let played := player.play content engine device
    let alone := player.fresh.play content engine device
    played.1 = alone.1 ∧ played.2.2 = alone.2.2 ∧
      (Dialect.detect content = .script → played.2.1.script = alone.2.1.script) := by
  unfold play
  cases Dialect.detect content with
  | script => exact ⟨rfl, rfl, fun _ => rfl⟩
  | ducky =>
    -- The default delay is kept from text to text, but no action depends on it.
    have driven := (drive_eq_performAll Ducky.next player.ducky content.lines device).1
    have alone := (drive_eq_performAll Ducky.next player.fresh.ducky content.lines device).1
    rw [Ducky.actions_run player.ducky player.fresh.ducky] at driven
    obtain ⟨result, after⟩ := Prod.mk.inj (driven.trans alone.symm)
    have told := congrArg
      (fun result => (Except.map (fun _ => Dialect.ducky) result).mapError Fault.error) result
    exact ⟨told, congrArg (engine, ·) after, nofun⟩
  | tokens => exact ⟨rfl, rfl, nofun⟩

/-- Play texts one after another, each to its end or up to what the device refuses. -/
def playAll : Player → List Text → MacroEngine → δ → Player × MacroEngine × δ
  | player, [], engine, device => (player, engine, device)
  | player, content :: contents, engine, device =>
    let (_, player, engine, device) := player.play content engine device
    playAll player contents engine device

/-- Playing texts changes neither the settings nor the default speed. -/
theorem settings_playAll (player : Player) (contents : List Text) (engine : MacroEngine)
    (device : δ) :
    let left := player.playAll contents engine device
    left.1.fresh = player.fresh ∧ left.2.1.defaultSpeed = engine.defaultSpeed := by
  induction contents generalizing player engine device with
  | nil => exact ⟨rfl, rfl⟩
  | cons content contents ih =>
    obtain ⟨settings, speed⟩ := ih (player.play content engine device).2.1
      (player.play content engine device).2.2.1 (player.play content engine device).2.2.2
    exact ⟨settings.trans (player.fresh_play content engine device),
      speed.trans (player.defaultSpeed_play content engine device)⟩

/-- After any texts, each played to its end, until its budget was used up, until it crashed or until
the device refused something, a text is played on any device as by a fresh player with the same
settings, from the same default speed and where the pointer is thought to be. -/
theorem play_after (player : Player) (earlier : List Text) (engine : MacroEngine) (device : δ)
    (content : Text) (next : ε) :
    let left := player.playAll earlier engine device
    let resumed : MacroEngine := ⟨engine.defaultSpeed, left.2.1.mouse⟩
    let played := left.1.play content left.2.1 next
    let alone := player.fresh.play content resumed next
    played.1 = alone.1 ∧ played.2.2 = alone.2.2 ∧
      (Dialect.detect content = .script → played.2.1.script = alone.2.1.script) ∧
      ∀ capabilities, left.1.events capabilities content left.2.1 =
        player.fresh.events capabilities content resumed := by
  intro left resumed played alone
  obtain ⟨settings, speed⟩ := player.settings_playAll earlier engine device
  have same : left.2.1 = resumed := congrArg (MacroEngine.mk · left.2.1.mouse) speed
  have resumes : played = left.1.play content resumed next :=
    congrArg (left.1.play content · next) same
  obtain ⟨result, after, script⟩ := left.1.play_eq_fresh content resumed next
  rw [settings, ← resumes] at result after script
  refine ⟨result, after, script, fun capabilities => ?_⟩
  have recorded := (left.1.play_eq_fresh content resumed
    ({ abilities := capabilities } : Recording)).2.1
  rw [settings] at recorded
  rw [same]
  exact congrArg (fun after => after.2.actions) recorded

end Player

end Keyfob
