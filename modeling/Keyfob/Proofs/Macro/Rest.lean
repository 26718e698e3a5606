import Keyfob.Player
import Keyfob.Proofs.Hid.Gestures

/-!
# Playing leaves a device at rest

Macro text, DuckyScript and scripts do to the keyboard only what are gestures, whatever they say.
So whatever is played, relayed or typed leaves a restful device at rest, unless one of its actions
is refused (`Player.playFile_rests`). A crash between two steps of a script leaves it at rest too.
-/
namespace Keyfob

/-- Commands of the mouse press no key. -/
theorem MouseCommand.gestures_effect (tracker : MouseTracker) (command : MouseCommand) :
    Action.Gestures (command.effect tracker).2.actions := by
  have moves (steps : List MotionStep) : Action.Gestures (steps.map .move) := by
    apply Action.Gestures.of_plain
    intro action listed
    obtain ⟨step, _, rfl⟩ := List.mem_map.mp listed
    rfl
  cases command with
  | reset => exact moves _
  | moveTo target => exact moves _
  | moveBy displacement => exact moves _
  | button use held =>
    cases use with
    | down => exact .plain rfl .nil
    | up => exact .plain rfl .nil
    | click => exact .plain rfl (.plain rfl .nil)
  | scroll clicks => exact .plain rfl (.plain rfl .nil)
  | panning clicks => exact .plain rfl (.plain rfl .nil)
  | invalid args => exact .nil

/-- Nor do commands of the gamepad. -/
theorem PadCommand.gestures_actions (command : PadCommand) : Action.Gestures command.actions := by
  cases command with
  | press button => exact .plain rfl .nil
  | release button => exact .plain rfl .nil
  | hat position => exact .plain rfl .nil
  | stick left x y => cases left <;> exact .plain rfl (.plain rfl .nil)
  | trigger left value => cases left <;> exact .plain rfl .nil
  | invalid args => exact .nil

/-- Nor do media keys. -/
theorem AudioCommand.gestures_actions (capabilities : Capabilities) (command : AudioCommand) :
    Action.Gestures (command.actions capabilities).actions := by
  cases command with
  | tap key times =>
    simp only [actions]
    split
    · exact .tapMedia key
    · exact .nil
  | invalid args => exact .nil

/-- A directive makes gestures. -/
theorem Directive.gestures_effect (capabilities : Capabilities) (pass : Pass)
    (directive : Directive) : Action.Gestures (directive.effect capabilities pass).2.actions := by
  cases directive with
  | delay ms => exact .pause ms
  | speed ms => exact .nil
  | key spec =>
    change Action.Gestures ((Chord.parse? spec).elim [] Action.tap)
    cases Chord.parse? spec with
    | none => exact .nil
    | some chord => exact .of_tap chord
  | text t => exact .typeText pass.speed t
  | mouse command =>
    simp only [effect]
    split
    · exact command.gestures_effect pass.mouse
    · exact .nil
  | gamepad command =>
    change Action.Gestures (if capabilities.gamepad then command.actions else [])
    split
    · exact command.gestures_actions
    · exact .nil
  | audio command => exact command.gestures_actions capabilities
  | unknown body => exact .typeText pass.speed _

/-- Macro text makes gestures. -/
theorem Pass.gestural (capabilities : Capabilities) : (Pass.next capabilities).Gestural := by
  intro pass piece
  cases piece with
  | directive body => exact Directive.gestures_effect capabilities _ _
  | literal c =>
    simp only [next]
    split
    · exact .nil
    · split
      · exact .nil
      · exact .typePaced pass.speed c

/-- A command of DuckyScript makes gestures. -/
theorem DuckyCommand.gestures_actions (command : DuckyCommand) :
    Action.Gestures command.actions := by
  cases command with
  | rem => exact .nil
  | delay ms => exact .pause ms
  | defaultDelay ms => exact .nil
  | string t => exact (Action.Gestures.typeText 0 t).append (.plain rfl .nil)
  | stringLine t => exact (Action.Gestures.typeText 0 t).append (.plain rfl (.plain rfl .nil))
  | again count => exact .pause _
  | keys chord =>
    cases chord with
    | none => exact .nil
    | some chord => exact .tap chord (.plain rfl .nil)

/-- DuckyScript makes gestures. -/
theorem Ducky.gestural : Ducky.next.Gestural := by
  intro ducky line
  unfold next
  split
  · exact .nil
  · exact DuckyCommand.gestures_actions _

section Rest

variable {δ : Type} [Device δ] {rest : δ → Prop} (restful : Device.Restful rest) {device : δ}
  (resting : rest device)

include restful resting

/-- Running macro text leaves a device at rest. -/
theorem MacroEngine.run_rests (engine : MacroEngine) (t : Text)
    (done : (engine.run t device).1 = .ok ()) : rest (engine.run t device).2.2 :=
  drive_rests restful (Pass.gestural _) _ _ resting done

/-- A directive that is carried out at once leaves a device at rest. -/
theorem MacroEngine.runDirective_rests (engine : MacroEngine) (directive : Directive)
    (done : (engine.runDirective directive device).1 = .ok ()) :
    rest (engine.runDirective directive device).2.2 :=
  Burst.perform_rests restful (directive.gestures_effect _ _) resting done

/-- What a step of a script asks for leaves a device at rest. -/
theorem Request.perform_rests (engine : MacroEngine) (request : Request)
    (done : (request.perform engine device).1 = .ok ()) :
    rest (request.perform engine device).2.2 := by
  cases request with
  | delay ms => exact restful.stays (.plain rfl .nil) resting done
  | button held down =>
    have gestures : Action.Gestures (if (capabilities device).gamepad then [.padButton held down]
        else []) := by
      split
      · exact .plain rfl .nil
      · exact .nil
    exact restful.stays gestures resting done
  | typed t => exact engine.run_rests restful resting t done

/-- Running a script leaves a device at rest, also where it crashes. -/
theorem Script.runFrom_rests (program : List Instruction) (steps budget : Nat)
    (machine : Machine) (engine : MacroEngine)
    (done : Fault.answer (runFrom program steps budget machine engine device).1 = .ok ()) :
    rest (runFrom program steps budget machine engine device).2.2.2 := by
  induction budget generalizing steps machine engine device with
  | zero => exact resting
  | succ budget ih =>
    unfold runFrom at done ⊢
    cases visited : machine.step program with
    | none => exact resting
    | some visit =>
      obtain ⟨next, request⟩ := visit
      simp only [visited] at done ⊢
      cases request with
      | none => exact ih resting _ next engine done
      | some request =>
        have step := request.perform_rests restful resting engine
        cases outcome : request.perform engine device with
        | mk result after =>
          rw [outcome] at step
          simp only [outcome] at done ⊢
          cases result with
          | ok _ => exact ih (step rfl) _ next after.1 done
          | error e => cases done

/-- Running a script from its start leaves a device at rest. -/
theorem ScriptEngine.run_rests (script : ScriptEngine) (source : Text) (engine : MacroEngine)
    (done : Fault.answer (script.run source engine device).1 = .ok ()) :
    rest (script.run source engine device).2.2.2 :=
  Script.runFrom_rests restful resting (Script.compile source) 0 script.budget _ engine done

/-- Running DuckyScript leaves a device at rest. -/
theorem Ducky.run_rests (ducky : Ducky) (script : Text)
    (done : (ducky.run script device).1 = .ok ()) : rest (ducky.run script device).2.2 :=
  drive_rests restful Ducky.gestural _ _ resting done

/-- Playing a text leaves a device at rest, whatever it is written in. -/
theorem Player.play_rests (player : Player) (content : Text) (engine : MacroEngine)
    (done : Fault.answer (player.play content engine device).1 = .ok ()) :
    rest (player.play content engine device).2.2.2 := by
  unfold play at done ⊢
  cases written : Dialect.detect content with
  | script =>
    simp only [written, Fault.answer_map] at done ⊢
    exact player.script.run_rests restful resting content engine done
  | ducky =>
    simp only [written, Fault.answer_told] at done ⊢
    exact player.ducky.run_rests restful resting content done
  | tokens =>
    simp only [written, Fault.answer_told] at done ⊢
    exact engine.run_rests restful resting content done

variable {φ : Type} [FileStore φ]

/-- Playing a file leaves a device at rest. -/
theorem Player.playFile_rests (player : Player) (files : φ) (name : Text) (engine : MacroEngine)
    (done : Fault.answer (player.playFile files name engine device).1 = .ok ()) :
    rest (player.playFile files name engine device).2.2.2 := by
  unfold playFile at done ⊢
  cases found : FileStore.read name files with
  | error e =>
    rw [found] at done
    cases done
  | ok bytes =>
    simp only [found, Fault.answer_mapError_map] at done ⊢
    refine player.play_rests restful resting _ engine ?_
    cases ended : Fault.answer (player.play (Text.decode bytes) engine device).1 with
    | ok _ => rfl
    | error e =>
      rw [ended] at done
      cases done

/-- A file that cannot be read leaves a device as it is, and typing one leaves it at rest. -/
theorem Player.typeFile_rests (player : Player) (files : φ) (name : Text) :
    rest (player.typeFile files name device).2 ∨
      ∃ e, (player.typeFile files name device).1 = .error (.hid e) := by
  unfold typeFile
  cases FileStore.read name files with
  | error e => exact .inl resting
  | ok bytes =>
    have typed := restful.stays (.typeText player.pacing (bytes.map fun b => Char.ofNat b.toNat))
      resting
    dsimp only
    cases ended : (performAll (Action.typeText player.pacing
        (bytes.map fun b => Char.ofNat b.toNat)) device).1 with
    | ok _ => exact .inl (typed ended)
    | error e => exact .inr ⟨e, rfl⟩

end Rest

end Keyfob
