import Keyfob.Proofs.Player.Score

/-!
# Playing on a device that lacks something

Commands for what a device does not have do nothing, and nothing else changes because of them. What
is done on a device is therefore what is done on one that has everything, less the actions that it
cannot perform and the pauses that belong to them (`Capabilities.possible`). What the two players
keep is the same as well, but for where the pointer is thought to be
(`Player.play_lacking`).
-/
namespace Keyfob

/-- Whether an action is done on the keyboard: keys that are pressed and let go, and characters that
are typed. -/
def Action.isKeyboard : Action → Bool
  | press _ => true
  | release _ => true
  | releaseAll => true
  | type _ => true
  | _ => false

/-- Whether an action is a pause. -/
def Action.isDelay : Action → Bool
  | delay _ => true
  | _ => false

/-- Whether a pause belongs to an action and comes directly after it. -/
def Action.isPaused : Action → Bool
  | scroll _ _ => true
  | media _ down => down
  | _ => false

/-- A pause is not made on the keyboard. -/
theorem Action.isKeyboard_of_isDelay {action : Action} (pause : action.isDelay = true) :
    action.isKeyboard = false := by
  cases action with
  | delay ms => rfl
  | _ => cases pause

namespace Capabilities

/-- Whether an action can be performed with what there is. The keyboard is always there. -/
def performs (capabilities : Capabilities) : Action → Bool
  | .move _ => capabilities.mouse
  | .mouseButton _ _ => capabilities.mouse
  | .scroll _ _ => capabilities.mouse
  | .padButton _ _ => capabilities.gamepad
  | .padAxis _ _ => capabilities.gamepad
  | .padHat _ => capabilities.gamepad
  | .media key _ => capabilities.supports key
  | _ => true

/-- What is left of some actions where only those are done that can be performed, behind an action
that is left out and whose pause goes with it, or behind any other. -/
def remaining (capabilities : Capabilities) : (behindPaused : Bool) → List Action → List Action
  | _, [] => []
  | behindPaused, action :: rest =>
    if behindPaused && action.isDelay then remaining capabilities false rest
    else if capabilities.performs action then action :: remaining capabilities false rest
    else remaining capabilities action.isPaused rest

/-- What is left of some actions where only those are done that can be performed. The pause after a
click of the wheel and the one for which a media key is held go with the action before them, and all
other pauses are kept. -/
def possible (capabilities : Capabilities) (actions : List Action) : List Action :=
  capabilities.remaining false actions

/-- Whatever is left can be performed. -/
theorem performs_of_mem_remaining (capabilities : Capabilities) (behindPaused : Bool)
    (actions : List Action) :
    ∀ action ∈ capabilities.remaining behindPaused actions,
      capabilities.performs action = true := by
  induction actions generalizing behindPaused with
  | nil => exact nofun
  | cons action rest ih =>
    unfold remaining
    split
    · exact ih false
    · split
      · next able => exact List.forall_mem_cons.mpr ⟨able, ih false⟩
      · exact ih action.isPaused

/-- An action that cannot be performed is not done on the keyboard. -/
theorem isKeyboard_of_lacking {capabilities : Capabilities} {action : Action}
    (lacking : ¬capabilities.performs action = true) : action.isKeyboard = false := by
  cases action with
  | press code => exact absurd rfl lacking
  | release code => exact absurd rfl lacking
  | releaseAll => exact absurd rfl lacking
  | type c => exact absurd rfl lacking
  | _ => rfl

/-- All that is done on the keyboard is left, in order. -/
theorem keyboard_remaining (capabilities : Capabilities) (behindPaused : Bool)
    (actions : List Action) :
    (capabilities.remaining behindPaused actions).filter Action.isKeyboard =
      actions.filter Action.isKeyboard := by
  induction actions generalizing behindPaused with
  | nil => rfl
  | cons action rest ih =>
    unfold remaining
    split
    · next dropped =>
      have pause := Action.isKeyboard_of_isDelay (Bool.and_eq_true_iff.mp dropped).2
      rw [List.filter_cons_of_neg (by simp [pause]), ih]
    · split
      · rw [List.filter_cons, List.filter_cons, ih]
      · next lacking =>
        rw [List.filter_cons_of_neg (by simp [isKeyboard_of_lacking lacking]), ih]

/-- Of nothing nothing is left. -/
theorem possible_nil (capabilities : Capabilities) : capabilities.possible [] = [] := rfl

/-- An action that can be performed is left. -/
theorem possible_cons {capabilities : Capabilities} {action : Action}
    (able : capabilities.performs action = true) (rest : List Action) :
    capabilities.possible (action :: rest) = action :: capabilities.possible rest := by
  simp [possible, remaining, able]

/-- An action that cannot be performed is not, and where no pause belongs to it that is all. -/
theorem possible_cons_of_lacking {capabilities : Capabilities} {action : Action}
    (lacking : capabilities.performs action = false) (alone : action.isPaused = false)
    (rest : List Action) : capabilities.possible (action :: rest) = capabilities.possible rest := by
  simp [possible, remaining, lacking, alone]

/-- Where a pause belongs to it, the pause is not left either. -/
theorem possible_cons_pause {capabilities : Capabilities} {action : Action}
    (lacking : capabilities.performs action = false) (paused : action.isPaused = true)
    (ms : UInt32) (rest : List Action) :
    capabilities.possible (action :: .delay ms :: rest) = capabilities.possible rest := by
  simp [possible, remaining, lacking, paused, Action.isDelay]

/-- Of some actions others are what is left, whatever comes after them. -/
def Leaves (capabilities : Capabilities) (all few : List Action) : Prop :=
  ∀ later, capabilities.possible (all ++ later) = few ++ capabilities.possible later

namespace Leaves

variable {capabilities : Capabilities} {all few actions : List Action}

/-- Of nothing nothing is left. -/
theorem nil : capabilities.Leaves [] [] := fun _ => rfl

/-- What is left of actions one after another. -/
theorem append {later rest : List Action} (first : capabilities.Leaves all few)
    (second : capabilities.Leaves later rest) :
    capabilities.Leaves (all ++ later) (few ++ rest) := by
  intro after
  rw [List.append_assoc, first, second, List.append_assoc]

/-- Where nothing comes after them. -/
theorem possible_eq (left : capabilities.Leaves all few) : capabilities.possible all = few := by
  have alone := left []
  rwa [List.append_nil, possible_nil, List.append_nil] at alone

/-- Actions that can be performed are all left. -/
theorem of_performs (able : ∀ action ∈ actions, capabilities.performs action = true) :
    capabilities.Leaves actions actions := by
  intro later
  induction actions with
  | nil => rfl
  | cons action actions ih =>
    have rest := ih fun other listed => able other (List.mem_cons_of_mem _ listed)
    rw [List.cons_append, possible_cons (able action List.mem_cons_self), rest, List.cons_append]

/-- Actions that can be performed just where there is one thing, and to which no pause belongs. -/
theorem gated {there : Bool} (gate : ∀ action ∈ actions, capabilities.performs action = there)
    (alone : ∀ action ∈ actions, action.isPaused = false) :
    capabilities.Leaves actions (if there then actions else []) := by
  cases there with
  | true => exact of_performs gate
  | false =>
    intro later
    induction actions with
    | nil => rfl
    | cons action actions ih =>
      -- It has no pause of its own, so nothing behind it goes with it.
      rw [List.cons_append, possible_cons_of_lacking (gate action List.mem_cons_self)
        (alone action List.mem_cons_self)]
      exact ih (fun other listed => alone other (List.mem_cons_of_mem _ listed))
        fun other listed => gate other (List.mem_cons_of_mem _ listed)

/-- An action goes with the pause that belongs to it. -/
theorem paused {there : Bool} {action : Action} (gate : capabilities.performs action = there)
    (paused : action.isPaused = true) (ms : UInt32) :
    capabilities.Leaves [action, .delay ms] (if there then [action, .delay ms] else []) := by
  intro later
  cases there with
  | true =>
    have pause : capabilities.performs (.delay ms) = true := rfl
    exact (possible_cons gate _).trans (congrArg _ (possible_cons pause later))
  | false => exact possible_cons_pause gate paused ms later

/-- A media key that is tapped goes with the time for which it is held. -/
theorem tapMedia (key : MediaKey) :
    capabilities.Leaves (Action.tapMedia key)
      (if capabilities.supports key then Action.tapMedia key else []) := by
  have pressed : capabilities.Leaves [.media key true, .delay Action.holdTime]
      (if capabilities.supports key then [.media key true, .delay Action.holdTime] else []) :=
    paused rfl rfl Action.holdTime
  have released : capabilities.Leaves [.media key false]
      (if capabilities.supports key then [.media key false] else []) :=
    gated (List.forall_mem_singleton.mpr rfl) (List.forall_mem_singleton.mpr rfl)
  have tapped := pressed.append released
  cases supported : capabilities.supports key with
  | _ =>
    rw [supported] at tapped
    exact tapped

/-- What is done many times over is left as often. -/
theorem times (count : Nat) (left : capabilities.Leaves all few) :
    capabilities.Leaves (Burst.mk count all).all (Burst.mk count few).all := by
  induction count with
  | zero => exact nil
  | succ count ih =>
    simp only [Burst.all, List.replicate_succ, List.flatten_cons] at ih ⊢
    exact left.append ih

/-- What is done many times over is left where each time is. -/
theorem burst {there : Bool} (count : Nat)
    (left : capabilities.Leaves actions (if there then actions else [])) :
    capabilities.Leaves (Burst.mk count actions).all
      (if there then Burst.mk count actions else .none).all := by
  cases there with
  | true => exact left.times count
  | false =>
    have none := left.times count
    simpa [Burst.all, Burst.none, Burst.once] using none

/-- What is done once is left where it can be performed. -/
theorem once {there : Bool}
    (left : capabilities.Leaves actions (if there then actions else [])) :
    capabilities.Leaves (Burst.once actions).all
      (if there then Burst.once actions else .none).all := left.burst 1

end Leaves

end Capabilities

section Leaves

variable (capabilities : Capabilities)

/-! ## Commands for what may be lacking -/

/-- What a command of the mouse does is left where there is a mouse. -/
theorem MouseCommand.leaves_effect (tracker : MouseTracker) (command : MouseCommand) :
    let burst := (command.effect tracker).2
    capabilities.Leaves burst.all (if capabilities.mouse then burst else .none).all := by
  have moves (steps : List MotionStep) : capabilities.Leaves (Burst.once (steps.map .move)).all
      (if capabilities.mouse then Burst.once (steps.map .move) else .none).all := by
    refine .once (.gated ?_ ?_)
    · exact List.forall_mem_map.mpr fun _ _ => rfl
    · exact List.forall_mem_map.mpr fun _ _ => rfl
  cases command with
  | reset => exact moves _
  | moveTo target => exact moves _
  | moveBy displacement => exact moves _
  | button use held =>
    cases use with
    | down => exact .once (.gated (by simp [Capabilities.performs]) (by simp [Action.isPaused]))
    | up => exact .once (.gated (by simp [Capabilities.performs]) (by simp [Action.isPaused]))
    | click => exact .once (.gated (by simp [Capabilities.performs]) (by simp [Action.isPaused]))
  | scroll clicks => exact .burst clicks.natAbs (.paused rfl rfl Action.wheelPause)
  | panning clicks => exact .burst clicks.natAbs (.paused rfl rfl Action.wheelPause)
  | invalid args => exact .once (.gated nofun nofun)

/-- What a command of the gamepad does is left where there is a gamepad. -/
theorem PadCommand.leaves_actions (command : PadCommand) :
    capabilities.Leaves command.actions (if capabilities.gamepad then command.actions else []) := by
  have each : ∀ action ∈ command.actions,
      capabilities.performs action = capabilities.gamepad ∧ action.isPaused = false := by
    cases command with
    | stick left x y => cases left <;> simp [actions, Capabilities.performs, Action.isPaused]
    | trigger left value => cases left <;> simp [actions, Capabilities.performs, Action.isPaused]
    | _ => simp [actions, Capabilities.performs, Action.isPaused]
  exact .gated (fun action listed => (each action listed).1) fun action listed =>
    (each action listed).2

/-- There is every media key where there is everything. -/
theorem Capabilities.supports_everything (key : MediaKey) :
    Capabilities.everything.supports key = true := by
  cases key <;> rfl

/-- What a command of the media keys does on a device that has them all is left as far as there is
the key. -/
theorem AudioCommand.leaves_actions (command : AudioCommand) :
    capabilities.Leaves (command.actions .everything).all (command.actions capabilities).all := by
  cases command with
  | tap key times =>
    simp only [actions, Capabilities.supports_everything, if_true]
    exact .burst times (.tapMedia key)
  | invalid args => exact .nil

/-- A chord can always be tapped. -/
theorem Action.performs_tap (chord : Chord) :
    ∀ action ∈ Action.tap chord, capabilities.performs action = true := by
  simp [Action.tap, Capabilities.performs, or_imp, forall_and]

/-- A pause can always be made. -/
theorem Action.performs_pause (ms : UInt32) :
    ∀ action ∈ Action.pause ms, capabilities.performs action = true := by
  unfold Action.pause
  split <;> simp [Capabilities.performs]

/-- A character can always be typed. -/
theorem Action.performs_typePaced (pace : UInt32) (c : Char) :
    ∀ action ∈ Action.typePaced pace c, capabilities.performs action = true :=
  List.forall_mem_cons.mpr ⟨rfl, performs_pause capabilities pace⟩

/-- A text can always be typed. -/
theorem Action.performs_typeText (pace : UInt32) (t : Text) :
    ∀ action ∈ Action.typeText pace t, capabilities.performs action = true :=
  List.forall_mem_flatMap.mpr fun c _ => performs_typePaced capabilities pace c

/-- DuckyScript does what can always be done. -/
theorem DuckyCommand.performs_actions (command : DuckyCommand) :
    ∀ action ∈ command.actions, capabilities.performs action = true := by
  have typed (t : Text) := Action.performs_typeText capabilities 0 t
  cases command with
  | rem => exact nofun
  | delay ms => exact Action.performs_pause capabilities ms
  | defaultDelay ms => exact nofun
  | string t => exact List.forall_mem_append.mpr ⟨typed t, by simp [Capabilities.performs]⟩
  | stringLine t => exact List.forall_mem_append.mpr ⟨typed t, by simp [Capabilities.performs]⟩
  | again count => exact Action.performs_pause capabilities _
  | keys chord =>
    cases chord with
    | none => exact nofun
    | some chord =>
      exact List.forall_mem_append.mpr
        ⟨Action.performs_tap capabilities chord, by simp [Capabilities.performs]⟩

/-! ## Macro text -/

/-- Two passes differ in no more than the place of a mouse that is not there. -/
structure Pass.Alike (few all : Pass) : Prop where
  /-- The typing speed is the same. -/
  speed : few.speed = all.speed
  /-- A directive came last in both or in neither. -/
  afterDirective : few.afterDirective = all.afterDirective
  /-- Where there is a mouse its place is the same. -/
  mouse : capabilities.mouse = true → few.mouse = all.mouse

/-- Two engines differ in no more than the place of a mouse that is not there. -/
structure MacroEngine.Alike (few all : MacroEngine) : Prop where
  /-- The default speed is the same. -/
  defaultSpeed : few.defaultSpeed = all.defaultSpeed
  /-- Where there is a mouse its place is the same. -/
  mouse : capabilities.mouse = true → few.mouse = all.mouse

variable {capabilities : Capabilities}

/-- An interpreter that does on each input what is left of what another does, and goes on alike,
does so on all of them. -/
theorem Interpreter.run_leaves {σ ι : Type} {alike : σ → σ → Prop}
    {lacking complete : Interpreter σ ι}
    (step : ∀ few all input, alike few all →
      alike (lacking few input).1 (complete all input).1 ∧
        capabilities.Leaves (complete all input).2.all (lacking few input).2.all)
    {few all : σ} (same : alike few all) (inputs : List ι) :
    alike (lacking.run few inputs).1 (complete.run all inputs).1 ∧
      capabilities.Leaves (complete.run all inputs).2 (lacking.run few inputs).2 := by
  induction inputs generalizing few all with
  | nil => exact ⟨same, .nil⟩
  | cons input inputs ih =>
    obtain ⟨next, first⟩ := step few all input same
    obtain ⟨final, later⟩ := ih next
    exact ⟨final, first.append later⟩

/-- A directive does what is left of it where everything is there. -/
theorem Directive.effect_leaves {few all : Pass} (alike : few.Alike capabilities all)
    (directive : Directive) :
    (directive.effect capabilities few).1.Alike capabilities (directive.effect .everything all).1 ∧
      capabilities.Leaves (directive.effect .everything all).2.all
        (directive.effect capabilities few).2.all := by
  obtain ⟨speed, afterDirective, mouse⟩ := alike
  cases directive with
  | delay ms =>
    refine ⟨⟨speed, afterDirective, mouse⟩, .times 1 (.of_performs ?_)⟩
    exact Action.performs_pause capabilities ms
  | speed ms => exact ⟨⟨rfl, afterDirective, mouse⟩, .nil⟩
  | key spec =>
    refine ⟨⟨speed, afterDirective, mouse⟩, .times 1 (.of_performs ?_)⟩
    cases Chord.parse? spec with
    | none => exact nofun
    | some chord => exact Action.performs_tap capabilities chord
  | text t =>
    refine ⟨⟨speed, afterDirective, mouse⟩, ?_⟩
    unfold effect
    rw [speed]
    exact .times 1 (.of_performs (Action.performs_typeText capabilities all.speed t))
  | mouse command =>
    have left := command.leaves_effect capabilities all.mouse
    cases there : capabilities.mouse with
    | true =>
      simp only [there, effect, if_true, mouse there] at left ⊢
      exact ⟨⟨speed, afterDirective, fun _ => rfl⟩, left⟩
    | false =>
      simp only [there, effect] at left ⊢
      exact ⟨⟨speed, afterDirective, fun absent => absurd absent (by simp [there])⟩, left⟩
  | gamepad command =>
    exact ⟨⟨speed, afterDirective, mouse⟩, .times 1 (command.leaves_actions capabilities)⟩
  | audio command =>
    exact ⟨⟨speed, afterDirective, mouse⟩, command.leaves_actions capabilities⟩
  | unknown body =>
    refine ⟨⟨speed, afterDirective, mouse⟩, ?_⟩
    unfold effect
    rw [speed]
    exact .times 1 (.of_performs (Action.performs_typeText capabilities all.speed _))

/-- So does a piece of macro text. -/
theorem Pass.next_leaves (few all : Pass) (piece : Piece) (alike : few.Alike capabilities all) :
    (next capabilities few piece).1.Alike capabilities (next .everything all piece).1 ∧
      capabilities.Leaves (next .everything all piece).2.all
        (next capabilities few piece).2.all := by
  obtain ⟨speed, afterDirective, mouse⟩ := alike
  cases piece with
  | directive body =>
    have noted : Alike capabilities { few with afterDirective := true }
        { all with afterDirective := true } := ⟨speed, rfl, mouse⟩
    exact Directive.effect_leaves noted (Directive.parse body)
  | literal c =>
    simp only [next, afterDirective, speed]
    split
    · exact ⟨⟨speed, afterDirective, mouse⟩, .nil⟩
    · split
      · exact ⟨⟨rfl, rfl, mouse⟩, .nil⟩
      · refine ⟨⟨rfl, rfl, mouse⟩, .times 1 (.of_performs ?_)⟩
        exact Action.performs_typePaced capabilities all.speed c

/-- So does macro text. -/
theorem MacroEngine.score_leaves {few all : MacroEngine} (alike : few.Alike capabilities all)
    (t : Text) :
    (few.score capabilities t).1.Alike capabilities (all.score .everything t).1 ∧
      capabilities.Leaves (all.score .everything t).2 (few.score capabilities t).2 := by
  have start : few.newPass.Alike capabilities all.newPass := ⟨alike.defaultSpeed, rfl, alike.mouse⟩
  obtain ⟨passes, left⟩ := Interpreter.run_leaves Pass.next_leaves start (Piece.ofText t)
  exact ⟨⟨alike.defaultSpeed, passes.mouse⟩, left⟩

/-! ## Scripts -/

/-- What a step of a script asks for is done as far as it is possible. -/
theorem Request.score_leaves {few all : MacroEngine} (alike : few.Alike capabilities all)
    (request : Request) :
    (request.score capabilities few).1.Alike capabilities (request.score .everything all).1 ∧
      capabilities.Leaves (request.score .everything all).2
        (request.score capabilities few).2 := by
  cases request with
  | delay ms => exact ⟨alike, .of_performs (List.forall_mem_singleton.mpr rfl)⟩
  | button held down =>
    exact ⟨alike, .gated (List.forall_mem_singleton.mpr rfl) (List.forall_mem_singleton.mpr rfl)⟩
  | typed t => exact MacroEngine.score_leaves alike t

/-- A script ends the same way, takes the same steps and sets the same variables. -/
theorem Script.score_leaves (program : List Instruction) (steps budget : Nat) (machine : Machine)
    {few all : MacroEngine} (alike : few.Alike capabilities all) :
    let lacking := score capabilities program steps budget machine few
    let complete := score .everything program steps budget machine all
    lacking.1.1 = complete.1.1 ∧ lacking.1.2.1 = complete.1.2.1 ∧
      lacking.1.2.2.Alike capabilities complete.1.2.2 ∧
      capabilities.Leaves complete.2 lacking.2 := by
  induction budget generalizing steps machine few all with
  | zero => exact ⟨rfl, rfl, alike, .nil⟩
  | succ budget ih =>
    unfold score
    cases machine.step program with
    | none => exact ⟨rfl, rfl, alike, .nil⟩
    | some visit =>
      obtain ⟨next, request⟩ := visit
      cases request with
      | none => exact ih (steps + 1) next alike
      | some request =>
        obtain ⟨after, first⟩ := request.score_leaves alike
        obtain ⟨ending, left, final, later⟩ := ih (steps + 1) next after
        exact ⟨ending, left, final, first.append later⟩

/-! ## DuckyScript -/

/-- DuckyScript does the same whatever is there. -/
theorem Ducky.run_leaves (ducky : Ducky) (lines : List Text) :
    capabilities.Leaves (next.run ducky lines).2 (next.run ducky lines).2 := by
  have step (few all : Ducky) (line : Text) (same : few = all) :
      (next few line).1 = (next all line).1 ∧
        capabilities.Leaves (next all line).2.all (next few line).2.all := by
    subst same
    refine ⟨rfl, ?_⟩
    unfold next
    cases DuckyCommand.parse? line with
    | none => exact .nil
    | some command => exact .times 1 (.of_performs (command.performs_actions capabilities))
  exact (Interpreter.run_leaves step rfl lines).2

end Leaves

/-! ## Playing -/

/-- What a text calls for on a device that lacks something is what is possible of what it calls for
on one that has everything, and it ends the same way and leaves the player the same. -/
theorem Player.score_possible (player : Player) (there : Capabilities) (content : Text)
    (engine : MacroEngine) :
    let lacking := player.score there content engine
    let complete := player.score .everything content engine
    lacking.1.1 = complete.1.1 ∧ lacking.1.2.1 = complete.1.2.1 ∧
      lacking.2 = there.possible complete.2 := by
  have same : engine.Alike there engine := ⟨rfl, fun _ => rfl⟩
  unfold score
  cases Dialect.detect content with
  | script =>
    obtain ⟨ending, machine, _, left⟩ := Script.score_leaves (Script.compile content) 0
      player.script.budget {} same
    refine ⟨congrArg (Except.map fun _ => Dialect.script) ending, ?_, left.possible_eq.symm⟩
    exact congrArg (fun machine : Machine =>
      { player with script := { player.script with memory := machine.memory } }) machine
  | ducky => exact ⟨rfl, rfl, (Ducky.run_leaves player.ducky content.lines).possible_eq.symm⟩
  | tokens => exact ⟨rfl, rfl, (MacroEngine.score_leaves same content).2.possible_eq.symm⟩

variable {δ ε : Type} [Device δ] [Device ε]

/-- Played on a device that lacks something, a text has the events that are possible of those it has
on a device with everything: none is of what is lacking, and on the keyboard the same is done. Where
neither device refuses one of its events, how it ends, what the player keeps and the steps of a
script are the same too. -/
theorem Player.play_lacking (steady : Device.Steady δ) (constant : Device.Steady ε)
    (player : Player) (content : Text) (engine : MacroEngine) (device : δ) (able : ε)
    (everything : capabilities able = .everything) :
    let there := capabilities device
    let events := player.events there content engine
    let all := player.events .everything content engine
    let played := player.play content engine device
    let complete := player.play content engine able
    let ran := player.script.run content engine device
    let completeRun := player.script.run content engine able
    (Fault.answer played.1, played.2.2.2) = performAll events device ∧
      (Fault.answer complete.1, complete.2.2.2) = performAll all able ∧
      (∀ action ∈ events, there.performs action = true) ∧
      events.filter Action.isKeyboard = all.filter Action.isKeyboard ∧
      events = there.possible all ∧
      (Fault.answer played.1 = .ok () → Fault.answer complete.1 = .ok () →
        played.1 = complete.1 ∧ played.2.1 = complete.2.1) ∧
      (Fault.answer ran.1 = .ok () → Fault.answer completeRun.1 = .ok () →
        ran.1 = completeRun.1) := by
  intro there events all played complete ran completeRun
  obtain ⟨carried, left⟩ := player.play_eq_score steady content engine device
  obtain ⟨carriedAll, leftAll⟩ := player.play_eq_score constant content engine able
  obtain ⟨ending, kept, possible⟩ := player.score_possible there content engine
  rw [everything] at carriedAll leftAll
  rw [← events_eq] at carried carriedAll
  rw [← events_eq, ← events_eq] at possible
  replace possible : events = there.possible all := possible
  refine ⟨carried, carriedAll, ?_, ?_, possible, fun done doneAll => ?_, fun done doneAll => ?_⟩
  · rw [possible]
    exact there.performs_of_mem_remaining false all
  · rw [possible]
    exact there.keyboard_remaining false all
  · obtain ⟨ended, states⟩ := Prod.mk.inj (left done)
    obtain ⟨endedAll, statesAll⟩ := Prod.mk.inj (leftAll doneAll)
    rw [ending] at ended
    exact ⟨ended.trans endedAll.symm, ((congrArg Prod.fst states).trans kept).trans
      (congrArg Prod.fst statesAll).symm⟩
  · have same : engine.Alike there engine := ⟨rfl, fun _ => rfl⟩
    obtain ⟨alike, _⟩ :=
      Script.score_leaves (Script.compile content) 0 player.script.budget {} same
    have few := ((player.script.run_eq_score steady content engine device).2 done).1
    have every := ((player.script.run_eq_score constant content engine able).2 doneAll).1
    rw [everything] at every
    exact (few.trans (congrArg (Except.mapError Fault.crash) alike)).trans every.symm

/-- A script that asks for a gamepad, a media key, the wheel and the keyboard. -/
def Player.variedScript : Text :=
  "x = 2\nset_val(XB1_A, 100)\n\x7b\x7bAUDIO:MUTE\x7d\x7d".toList ++
    "\x7b\x7bMOUSE:SCROLL:1\x7d\x7d\x7b\x7bDELAY:20\x7d\x7db"

/-- Of this script a gamepad and a keyboard are left where there is nothing else, and its variables
are the same. -/
theorem Player.play_lacking_variedScript :
    let there : Capabilities := ⟨false, true, []⟩
    let player : Player := { script := { budget := 20 } }
    let left : List Action := [.padButton .a true, .delay 20, .type 'b']
    player.events there variedScript ⟨0, {}⟩ = left ∧
      there.possible (player.events .everything variedScript ⟨0, {}⟩) = left ∧
      (player.play variedScript ⟨0, {}⟩ ({ abilities := there } : Recording)).2.1 =
        (player.play variedScript ⟨0, {}⟩ ({} : Recording)).2.1 := by
  intro there player left
  obtain ⟨_, _, _, _, possible, same, _⟩ := player.play_lacking Recording.steady Recording.steady
    variedScript ⟨0, {}⟩ ({ abilities := there } : Recording) ({} : Recording) rfl
  have events : player.events there variedScript ⟨0, {}⟩ = left := by decide +kernel
  have done :=
    player.answer_of_accepts Recording.steady variedScript ⟨0, {}⟩ { abilities := there }
  have doneAll := player.answer_of_accepts Recording.steady variedScript ⟨0, {}⟩ {}
  exact ⟨events, possible.symm.trans events, (same done doneAll).2⟩

end Keyfob
