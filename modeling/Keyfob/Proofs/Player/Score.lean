import Keyfob.Player
import Keyfob.Proofs.Hid.Steady
import Keyfob.Proofs.Macro.Batch

/-!
# What is played, said without a device

What a text calls for can be told from the text, the budget and what the device can do, in whichever
dialect the text is written (`Player.score`). A steady device carries out just that, up to the first
action that it refuses, and where it refuses none, everything else is left as the score says, and so
is whether the text crashes (`Player.play_eq_score`).
-/
namespace Keyfob

/-- What a run of macro text calls for, and the engine after it. -/
def MacroEngine.score (capabilities : Capabilities) (engine : MacroEngine) (t : Text) :
    MacroEngine × List Action :=
  let (pass, actions) := (Pass.next capabilities).run engine.newPass (Piece.ofText t)
  ({ engine with mouse := pass.mouse }, actions)

/-- What a step of a script calls for, and the engine after it. -/
def Request.score (capabilities : Capabilities) (engine : MacroEngine) :
    Request → MacroEngine × List Action
  | delay ms => (engine, [.delay ms])
  | button held down => (engine, if capabilities.gamepad then [.padButton held down] else [])
  | typed t => engine.score capabilities t

/-- How a script ends that is run from a machine, what is left then, and what it calls for. -/
def Script.score (capabilities : Capabilities) (program : List Instruction) (steps : Nat) :
    (budget : Nat) → Machine → MacroEngine →
      (Except Crash ScriptRun × Machine × MacroEngine) × List Action
  | 0, machine, engine => ((.ok ⟨steps, machine.place < program.length⟩, machine, engine), [])
  | budget + 1, machine, engine =>
    match machine.step program with
    | none =>
      ((if machine.overflows program then .error .overflow else .ok ⟨steps, false⟩,
        machine, engine), [])
    | some (machine, none) => score capabilities program (steps + 1) budget machine engine
    | some (machine, some request) =>
      let (engine, first) := request.score capabilities engine
      let (ending, later) := score capabilities program (steps + 1) budget machine engine
      (ending, first ++ later)

/-- What a script calls for that is run with no variables set. -/
def ScriptEngine.score (capabilities : Capabilities) (script : ScriptEngine) (source : Text)
    (engine : MacroEngine) : (Except Crash ScriptRun × Machine × MacroEngine) × List Action :=
  Script.score capabilities (Script.compile source) 0 script.budget {} engine

/-- How playing a text ends, the player and the engine after it, and what it calls for. -/
def Player.score (capabilities : Capabilities) (player : Player) (content : Text)
    (engine : MacroEngine) : (Except Crash Dialect × Player × MacroEngine) × List Action :=
  match Dialect.detect content with
  | .script =>
    let ((ending, machine, engine), actions) :=
      player.script.score capabilities content engine
    ((ending.map fun _ => .script,
      { player with script := { player.script with memory := machine.memory } }, engine), actions)
  | .ducky =>
    let (ducky, actions) := Ducky.next.run player.ducky content.lines
    ((.ok .ducky, { player with ducky := ducky }, engine), actions)
  | .tokens =>
    let (engine, actions) := engine.score capabilities content
    ((.ok .tokens, player, engine), actions)

variable {δ : Type}

variable [Device δ]

/-- Macro text is run as its score says. -/
theorem MacroEngine.run_eq_score (engine : MacroEngine) (t : Text) (device : δ) :
    let ran := engine.run t device
    let score := engine.score (capabilities device) t
    (ran.1, ran.2.2) = performAll score.2 device ∧ (ran.1 = .ok () → ran.2.1 = score.1) := by
  obtain ⟨carried, ended⟩ := drive_eq_performAll (Pass.next (capabilities device)) engine.newPass
    (Piece.ofText t) device
  refine ⟨carried, fun done => ?_⟩
  exact congrArg (fun pass => ({ engine with mouse := pass.mouse } : MacroEngine)) (ended done)

/-- What a step of a script asks for is done as its score says. -/
theorem Request.perform_eq_score (request : Request) (engine : MacroEngine) (device : δ) :
    let performed := request.perform engine device
    let score := request.score (capabilities device) engine
    (performed.1, performed.2.2) = performAll score.2 device ∧
      (performed.1 = .ok () → performed.2.1 = score.1) := by
  cases request with
  | delay ms => exact ⟨rfl, fun _ => rfl⟩
  | button held down => exact ⟨rfl, fun _ => rfl⟩
  | typed t => exact engine.run_eq_score t device

/-- A script is run as its score says. -/
theorem Script.runFrom_eq_score (steady : Device.Steady δ) (program : List Instruction)
    (steps budget : Nat) (machine : Machine) (engine : MacroEngine) (device : δ) :
    let ran := runFrom program steps budget machine engine device
    let score := score (capabilities device) program steps budget machine engine
    (Fault.answer ran.1, ran.2.2.2) = performAll score.2 device ∧
      (Fault.answer ran.1 = .ok () →
        (ran.1, ran.2.1, ran.2.2.1) = (score.1.1.mapError .crash, score.1.2)) := by
  induction budget generalizing steps machine engine device with
  | zero => exact ⟨rfl, fun _ => rfl⟩
  | succ budget ih =>
    unfold runFrom score
    cases machine.step program with
    | none =>
      dsimp only
      cases machine.overflows program with
      | true => exact ⟨rfl, fun _ => rfl⟩
      | false => exact ⟨rfl, fun _ => rfl⟩
    | some visit =>
      obtain ⟨next, request⟩ := visit
      cases request with
      | none => exact ih (steps + 1) next engine device
      | some request =>
        obtain ⟨carried, left⟩ := request.perform_eq_score engine device
        have able := capabilities_performAll steady (request.score (capabilities device) engine).2
          device
        dsimp only at carried left ⊢
        rw [performAll_append, ← carried]
        rw [← carried] at able
        cases outcome : request.perform engine device with
        | mk result after =>
          obtain ⟨moved, later⟩ := after
          rw [outcome] at left able
          cases result with
          | error e => exact ⟨rfl, fun done => nomatch done⟩
          | ok _ =>
            have rest := ih (steps + 1) next moved later
            dsimp only at left able rest ⊢
            -- The device can do what it could before, so the score of the rest is the same.
            rw [able, left rfl] at rest
            rw [left rfl]
            exact rest

/-- A script is run from its start as its score says. -/
theorem ScriptEngine.run_eq_score (steady : Device.Steady δ) (script : ScriptEngine)
    (source : Text) (engine : MacroEngine) (device : δ) :
    let ran := script.run source engine device
    let score := script.score (capabilities device) source engine
    (Fault.answer ran.1, ran.2.2.2) = performAll score.2 device ∧
      (Fault.answer ran.1 = .ok () →
        ran.1 = score.1.1.mapError .crash ∧ ran.2.2.1 = score.1.2.2 ∧
          ran.2.1 = { script with memory := score.1.2.1.memory }) := by
  obtain ⟨carried, left⟩ := Script.runFrom_eq_score steady (Script.compile source) 0 script.budget
    {} engine device
  refine ⟨carried, fun done => ?_⟩
  obtain ⟨same, rest⟩ := Prod.mk.inj (left done)
  obtain ⟨machine, moved⟩ := Prod.mk.inj rest
  exact ⟨same, moved,
    congrArg (fun machine => ({ script with memory := machine.memory } : ScriptEngine)) machine⟩

/-- A text is played as its score says. -/
theorem Player.play_eq_score (steady : Device.Steady δ) (player : Player) (content : Text)
    (engine : MacroEngine) (device : δ) :
    let played := player.play content engine device
    let score := player.score (capabilities device) content engine
    (Fault.answer played.1, played.2.2.2) = performAll score.2 device ∧
      (Fault.answer played.1 = .ok () →
        (played.1, played.2.1, played.2.2.1) = (score.1.1.mapError .crash, score.1.2)) := by
  unfold play score
  cases Dialect.detect content with
  | script =>
    obtain ⟨carried, left⟩ := player.script.run_eq_score steady content engine device
    dsimp only at carried left ⊢
    rw [Fault.answer_map]
    refine ⟨carried, fun done => ?_⟩
    obtain ⟨ended, moved, kept⟩ := left done
    rw [ended, moved, kept]
    cases (player.script.score (capabilities device) content engine).1.1 <;> rfl
  | ducky =>
    obtain ⟨carried, left⟩ := drive_eq_performAll Ducky.next player.ducky content.lines device
    dsimp only [Ducky.run]
    rw [Fault.answer_told]
    refine ⟨carried, fun done => ?_⟩
    rw [done, left done]
    rfl
  | tokens =>
    obtain ⟨carried, left⟩ := engine.run_eq_score content device
    dsimp only at carried left ⊢
    rw [Fault.answer_told]
    refine ⟨carried, fun done => ?_⟩
    rw [done, left done]
    rfl

/-- A steady device that refuses nothing carries out a whole score, and all else is left as the
score says. -/
theorem Player.play_of_accepts [Accepts δ] (steady : Device.Steady δ) (player : Player)
    (content : Text) (engine : MacroEngine) (device : δ) :
    let score := player.score (capabilities device) content engine
    player.play content engine device =
      (score.1.1.mapError .crash, score.1.2.1, score.1.2.2, carriedOut score.2 device) := by
  obtain ⟨carried, left⟩ := player.play_eq_score steady content engine device
  dsimp only at carried left ⊢
  rw [performAll_eq_of_accepts] at carried
  obtain ⟨done, after⟩ := Prod.mk.inj carried
  obtain ⟨ended, states⟩ := Prod.mk.inj (left done)
  obtain ⟨kept, moved⟩ := Prod.mk.inj states
  exact Prod.ext ended (Prod.ext kept (Prod.ext moved after))

/-- A steady device that refuses nothing answers a text with no error. -/
theorem Player.answer_of_accepts [Accepts δ] (steady : Device.Steady δ) (player : Player)
    (content : Text) (engine : MacroEngine) (device : δ) :
    Fault.answer (player.play content engine device).1 = .ok () := by
  have carried := (player.play_eq_score steady content engine device).1
  rw [performAll_eq_of_accepts] at carried
  exact congrArg Prod.fst carried

/-- The events of playing a text on a device that can do some things, and refuses nothing. -/
def Player.events (player : Player) (capabilities : Capabilities) (content : Text)
    (engine : MacroEngine) : List Action :=
  (player.play content engine ({ abilities := capabilities } : Recording)).2.2.2.actions

/-- The events of playing a text are those of its score. -/
theorem Player.events_eq (player : Player) (capabilities : Capabilities) (content : Text)
    (engine : MacroEngine) :
    player.events capabilities content engine = (player.score capabilities content engine).2 := by
  have played := player.play_of_accepts Recording.steady content engine
    ({ abilities := capabilities } : Recording)
  dsimp only at played
  rw [events, played]
  exact Recording.actions_carriedOut _ _

end Keyfob
