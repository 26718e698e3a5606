import Keyfob.Proofs.Hid.Pointer
import Keyfob.Proofs.Macro.Batch

/-!
# A move of the pointer that is cut

A command that moves the pointer has its steps reported one by one, and the host may be gone after
any of them. The estimate of the pointer's place is that of the whole move all the same
(`MacroEngine.runDirective_of_travel`), wherever the steps are cut. So it is off by the motion that
was not reported, and the next target is missed by as much, unless the estimate has come to an edge
of its range that the rest of the move would not have taken it beyond (`MacroEngine.aim_of_cut`).
-/
namespace Keyfob

namespace MouseTracker

/-- The tracker after some motion, of which an edge of its range takes what goes beyond. -/
def shifted (tracker : MouseTracker) (travel : Vector2) : MouseTracker :=
  ⟨⟨Text.clamp (-4096) 8192 (tracker.position.x + travel.x),
    Text.clamp (-4096) 8192 (tracker.position.y + travel.y)⟩⟩

variable {tracker : MouseTracker}

/-- After any motion the estimate is within one extent around the tracked area. -/
theorem tracked_shifted (tracker : MouseTracker) (travel : Vector2) :
    Tracked (tracker.shifted travel) := by
  have inside := Text.clamp_bounds (show (-4096 : Int) ≤ 8192 by decide)
  exact ⟨(inside _).1, (inside _).2, (inside _).1, (inside _).2⟩

/-- A move to a target makes all steps from the estimate to it. -/
theorem moveTo_eq (tracked : Tracked tracker) (target : Vector2) :
    tracker.moveTo target = (tracker.shifted (tracker.aim target),
      Motion.allSteps (tracker.aim target)) := by
  have place : tracker.shifted (tracker.aim target) =
      ⟨⟨Text.clamp 0 4096 target.x, Text.clamp 0 4096 target.y⟩⟩ := by
    simp only [shifted, aim, Text.clamp, MouseTracker.mk.injEq, Vector2.mk.injEq]
    omega
  have whole := Motion.steps_eq (tracker.aim target)
  rw [capped_aim tracked] at whole
  rw [place, ← whole]
  rfl

/-- A move by a displacement makes all steps that a move may travel. -/
theorem moveBy_eq (tracker : MouseTracker) (displacement : Vector2) :
    tracker.moveBy displacement = (tracker.shifted (Motion.capped displacement),
      Motion.allSteps (Motion.capped displacement)) := by
  have whole := Motion.steps_eq (Motion.capped displacement)
  rw [Motion.capped_capped] at whole
  rw [← whole]
  rfl

end MouseTracker

namespace MouseCommand

/-- The displacement that a command to move the pointer asks for. -/
def travel? (tracker : MouseTracker) : MouseCommand → Option Vector2
  | moveTo target => some (tracker.aim target)
  | moveBy displacement => some (Motion.capped displacement)
  | _ => none

/-- A command to move the pointer makes all steps of its displacement, and the estimate is shifted
by all of it. -/
theorem effect_of_travel {tracker : MouseTracker} (tracked : tracker.Tracked)
    {command : MouseCommand} {travel : Vector2} (asked : command.travel? tracker = some travel) :
    command.effect tracker =
      (tracker.shifted travel, .once ((Motion.allSteps travel).map .move)) := by
  cases command with
  | moveTo target =>
    cases asked
    rw [effect, MouseTracker.moveTo_eq tracked]
  | moveBy displacement =>
    cases asked
    rw [effect, MouseTracker.moveBy_eq]
  | _ => cases asked

/-- After any command the estimate is within one extent around the tracked area. -/
theorem tracked_effect {tracker : MouseTracker} (tracked : tracker.Tracked)
    (command : MouseCommand) : (command.effect tracker).1.Tracked := by
  cases command with
  | reset => exact MouseTracker.tracked_new
  | moveTo target => exact tracker.tracked_moveTo target
  | moveBy displacement => exact tracker.tracked_moveBy displacement
  | button use held => cases use <;> exact tracked
  | _ => exact tracked

end MouseCommand

/-! ## The steps that are not made -/

namespace Motion

/-- On one axis, some motion from a place would not take the estimate any further: there is none, or
the place is at the edge of the estimate's range, or beyond it, on the side that it goes to. -/
def Idle (place rest : Int) : Prop :=
  rest = 0 ∨ 0 < rest ∧ 8192 ≤ place ∨ rest < 0 ∧ place ≤ -4096

/-- On one axis, a whole displacement takes the estimate as far as the first steps of it just where
the rest would not take it any further. -/
theorem clamp_eq_clamp_iff {place travel part : Int} (low : -4096 ≤ place) (high : place ≤ 8192)
    {n : Nat} (first : part = Text.clamp (-(127 * n)) (127 * n) travel) :
    Text.clamp (-4096) 8192 (place + travel) = Text.clamp (-4096) 8192 (place + part) ↔
      Idle (place + part) (travel - part) := by
  -- The steps go one way, so the first ones stay between nothing and all.
  have forth : 0 ≤ travel → 0 ≤ part ∧ part ≤ travel := by
    rw [first, Text.clamp]
    omega
  have back : travel ≤ 0 → travel ≤ part ∧ part ≤ 0 := by
    rw [first, Text.clamp]
    omega
  clear first
  simp only [Idle, Text.clamp]
  omega

/-- On one axis, the rest of a displacement to a place within the tracked area is idle only if
nothing of it is left. -/
theorem natAbs_le_of_idle {place goal part : Int} (low : 0 ≤ goal) (high : goal ≤ 4096) {n : Nat}
    (first : part = Text.clamp (-(127 * n)) (127 * n) (goal - place))
    (idle : Idle (place + part) (goal - place - part)) : (goal - place).natAbs ≤ 127 * n := by
  -- Going on from the part that was made ends at the goal, which is at no edge.
  have done : goal - place - part = 0 := by
    rcases idle with none' | ⟨right, edge⟩ | ⟨left, edge⟩
    · exact none'
    · omega
    · omega
  rw [Text.clamp] at first
  omega

end Motion

namespace MouseTracker

variable {tracker : MouseTracker}

/-- A whole displacement shifts the estimate as far as the first steps of it just where, on both
axes, the rest would not take it any further. -/
theorem shifted_eq_iff (tracked : Tracked tracker) {travel part : Vector2} {n : Nat}
    (first : Motion.total ((Motion.allSteps travel).take n) = part) :
    tracker.shifted travel = tracker.shifted part ↔
      Motion.Idle (tracker.position.x + part.x) (travel.x - part.x) ∧
        Motion.Idle (tracker.position.y + part.y) (travel.y - part.y) := by
  obtain ⟨lowX, highX, lowY, highY⟩ := tracked
  rw [Motion.total_take] at first
  subst first
  simp only [shifted, MouseTracker.mk.injEq, Vector2.mk.injEq]
  exact and_congr (Motion.clamp_eq_clamp_iff lowX highX rfl)
    (Motion.clamp_eq_clamp_iff lowY highY rfl)

/-- Two estimates ask for the same displacement to a target only if they are the same. -/
theorem aim_eq_iff (tracker other : MouseTracker) (target : Vector2) :
    tracker.aim target = other.aim target ↔ tracker = other := by
  obtain ⟨⟨x, y⟩⟩ := tracker
  obtain ⟨⟨x', y'⟩⟩ := other
  simp only [aim, Vector2.mk.injEq, MouseTracker.mk.injEq]
  omega

/-- A move to a target that is cut never has come as far as the target. -/
theorem shifted_aim_ne (tracked : Tracked tracker) (target : Vector2) {n : Nat}
    (cut : n < (Motion.allSteps (tracker.aim target)).length) :
    tracker.shifted (tracker.aim target) ≠
      tracker.shifted (Motion.total ((Motion.allSteps (tracker.aim target)).take n)) := by
  rw [ne_eq, shifted_eq_iff tracked rfl, Motion.total_take]
  rintro ⟨idleX, idleY⟩
  have inside := Text.clamp_bounds (show (0 : Int) ≤ 4096 by decide)
  have shortX := Motion.natAbs_le_of_idle (inside target.x).1 (inside target.x).2 rfl idleX
  have shortY := Motion.natAbs_le_of_idle (inside target.y).1 (inside target.y).2 rfl idleY
  rw [Motion.length_allSteps, Motion.stepCount] at cut
  dsimp only [aim] at cut
  omega

end MouseTracker

/-! ## What engines come to -/

section Reach

variable {δ : Type} [Device δ]

/-- After any directive the estimate is within one extent around the tracked area. -/
theorem Directive.tracked_moved (capabilities : Capabilities) {tracker : MouseTracker}
    (tracked : tracker.Tracked) (directive : Directive) :
    (directive.moved capabilities tracker).Tracked := by
  cases directive with
  | mouse command =>
    rw [moved]
    by_cases mouse : capabilities.mouse = true
    · rw [if_pos mouse]
      exact MouseCommand.tracked_effect tracked command
    · rw [if_neg mouse]
      exact tracked
  | _ => exact tracked

/-- So it is after any piece of macro text. -/
theorem Pass.tracked_next (capabilities : Capabilities) {pass : Pass}
    (tracked : pass.mouse.Tracked) (piece : Piece) :
    (Pass.next capabilities pass piece).1.mouse.Tracked := by
  cases piece with
  | directive body =>
    rw [Pass.next, Directive.effect_eq]
    exact Directive.tracked_moved capabilities tracked _
  | literal c =>
    unfold Pass.next
    dsimp only
    split
    · exact tracked
    · split <;> exact tracked

/-- What an interpreter keeps with every input it has kept when it stops, also where it is
stopped. -/
theorem drive_keeps {σ ι : Type} {next : Interpreter σ ι} (Keeps : σ → Prop)
    (step : ∀ state input, Keeps state → Keeps (next state input).1) {state : σ}
    (kept : Keeps state) (inputs : List ι) (device : δ) :
    Keeps (drive next state inputs device).2.1 := by
  induction inputs generalizing state device with
  | nil => exact kept
  | cons input inputs ih =>
    rw [drive]
    dsimp only
    split
    · exact ih (step state input kept) _
    · exact step state input kept

/-- Inputs after others are worked through from where those were, unless one of them was refused. -/
theorem drive_append {σ ι : Type} (next : Interpreter σ ι) (state : σ) (first second : List ι)
    (device : δ) : drive next state (first ++ second) device =
      match drive next state first device with
      | (.ok (), state, device) => drive next state second device
      | (.error e, state, device) => (.error e, state, device) := by
  induction first generalizing state device with
  | nil => rfl
  | cons input first ih =>
    rw [List.cons_append, drive, drive]
    dsimp only
    split
    · exact ih _ _
    · rfl

/-- Actions of which some are carried out and the next one is refused end with that one. -/
theorem performAll_of_refused {actions : List Action} {n : Nat} {device between after : δ}
    (carried : performAll (actions.take n) device = (.ok (), between)) {action : Action}
    (listed : actions[n]? = some action) {e : HidError}
    (refused : Device.perform action between = (.error e, after)) :
    performAll actions device = (.error e, after) := by
  have whole : actions = actions.take n ++ action :: actions.drop (n + 1) := by
    obtain ⟨inside, rfl⟩ := List.getElem?_eq_some_iff.mp listed
    rw [← List.drop_eq_getElem_cons inside, List.take_append_drop]
  rw [whole, performAll_append, carried]
  dsimp only
  rw [performAll, refused]

end Reach

namespace MacroEngine

/-- What engines come to by single directives and by passes over macro text, carried out or refused
by any devices. -/
inductive Reached : MacroEngine → Prop where
  /-- A new engine. -/
  | start (speed : UInt32) : Reached (.ofSpeed speed)
  /-- A single directive. -/
  | directive {engine : MacroEngine} (earlier : Reached engine) {δ : Type} [Device δ]
    (directive : Directive) (device : δ) : Reached (engine.runDirective directive device).2.1
  /-- A pass over pieces of macro text. -/
  | pass {engine : MacroEngine} (earlier : Reached engine) {δ : Type} [Device δ]
    (pieces : List Piece) (device : δ) : Reached (engine.perform pieces device).2.1

/-- In every engine the estimate is within one extent around the tracked area. -/
theorem Reached.tracked {engine : MacroEngine} (reached : Reached engine) :
    engine.mouse.Tracked := by
  induction reached with
  | start speed => exact MouseTracker.tracked_new
  | @directive engine _ _ _ directive device ih =>
    rw [runDirective, Directive.effect_eq]
    exact Directive.tracked_moved (capabilities device) ih directive
  | @pass engine _ _ _ pieces device ih =>
    have step (pass : Pass) (piece : Piece) (tracked : pass.mouse.Tracked) :
        (Pass.next (capabilities device) pass piece).1.mouse.Tracked :=
      Pass.tracked_next (capabilities device) tracked piece
    exact drive_keeps (fun pass : Pass => pass.mouse.Tracked) step ih pieces device

section Cut

variable {δ : Type} [Device δ] {engine : MacroEngine} (tracked : engine.mouse.Tracked)
  {command : MouseCommand} {travel : Vector2}
  (asked : command.travel? engine.mouse = some travel)

include tracked asked

/-- A command to move the pointer has all steps of its displacement carried out, up to the first
that is refused, and the estimate is shifted by all of it either way. -/
theorem runDirective_of_travel {device : δ} (mouse : (capabilities device).mouse = true) :
    engine.runDirective (.mouse command) device =
      ((performAll ((Motion.allSteps travel).map .move) device).1,
        { engine with mouse := engine.mouse.shifted travel },
        (performAll ((Motion.allSteps travel).map .move) device).2) := by
  have effect : command.effect engine.newPass.mouse = _ :=
    MouseCommand.effect_of_travel tracked asked
  rw [runDirective, Directive.effect, if_pos mouse, effect]
  dsimp only
  rw [perform_eq_performAll, Burst.all_once]

/-- So it is where the command stands in macro text and one of its steps is refused. -/
theorem perform_of_travel {start : MacroEngine} {front : List Piece} {origin device after : δ}
    (mouse : (capabilities origin).mouse = true)
    (before : start.perform front origin = (.ok (), engine, device)) {body : Text}
    (parsed : Directive.parse body = .mouse command) {e : HidError}
    (refused : performAll ((Motion.allSteps travel).map .move) device = (.error e, after))
    (back : List Piece) :
    start.perform (front ++ .directive body :: back) origin =
      (.error e, { engine with mouse := engine.mouse.shifted travel }, after) := by
  unfold perform at before ⊢
  rw [drive_append]
  cases run : drive (Pass.next (capabilities origin)) start.newPass front origin with
  | mk result rest =>
    obtain ⟨pass, device'⟩ := rest
    rw [run] at before
    cases before
    have effect : command.effect pass.mouse = _ := MouseCommand.effect_of_travel tracked asked
    dsimp only
    rw [drive, Pass.next, parsed, Directive.effect, if_pos mouse]
    dsimp only
    rw [effect]
    dsimp only
    rw [perform_eq_performAll, Burst.all_once, refused]

end Cut

/-- A command to move the pointer, to a target or by a displacement, of whose steps a device carries
out the first ones and refuses the next. The engine then takes the pointer to be where the whole
move would have brought it, also where the command stands in macro text. This is the place that the
steps brought it to, within the range of the estimate, just where the steps that were not made
would not take it any further; so it never is after a move to a target. On any other device, a
target is then aimed at from there: it is met from where the pointer really is in the same cases
only. -/
theorem aim_of_cut {engine : MacroEngine} (reached : Reached engine) {command : MouseCommand}
    {travel : Vector2} (asked : command.travel? engine.mouse = some travel)
    {δ : Type} [Device δ] {device between after : δ} (mouse : (capabilities device).mouse = true)
    {n : Nat} (carried : performAll (((Motion.allSteps travel).take n).map .move) device =
      (.ok (), between))
    {step : MotionStep} (listed : (Motion.allSteps travel)[n]? = some step) {e : HidError}
    (refused : Device.perform (.move step) between = (.error e, after)) :
    let later : MacroEngine := { engine with mouse := engine.mouse.shifted travel }
    let part := Motion.total ((Motion.allSteps travel).take n)
    let delivered := engine.mouse.shifted part
    let idle := Motion.Idle (engine.mouse.position.x + part.x) (travel.x - part.x) ∧
      Motion.Idle (engine.mouse.position.y + part.y) (travel.y - part.y)
    engine.runDirective (.mouse command) device = (.error e, later, after) ∧
    (∀ {start : MacroEngine} {front : List Piece} {origin : δ} {body : Text},
      (capabilities origin).mouse = true → start.perform front origin = (.ok (), engine, device) →
      Directive.parse body = .mouse command → ∀ back,
        start.perform (front ++ .directive body :: back) origin = (.error e, later, after)) ∧
    (later.mouse = delivered ↔ idle) ∧
    (∀ target, command = .moveTo target → later.mouse ≠ delivered) ∧
    ∀ target {ε : Type} [Device ε] {working : ε}, (capabilities working).mouse = true →
      let moves := Motion.allSteps (later.mouse.aim target)
      let aimed := later.runDirective (.mouse (.moveTo target)) working
      (aimed.1, aimed.2.2) = performAll (moves.map .move) working ∧
        (Motion.total moves = delivered.aim target ↔ idle) := by
  intro later part delivered idle
  have tracked := reached.tracked
  have shifted : later.mouse = delivered ↔ idle := MouseTracker.shifted_eq_iff tracked rfl
  have stopped : performAll ((Motion.allSteps travel).map .move) device = (.error e, after) := by
    rw [List.map_take] at carried
    refine performAll_of_refused carried ?_ refused
    rw [List.getElem?_map, listed]
    rfl
  refine ⟨?_, ?_, shifted, ?_, fun target ε _ working present => ?_⟩
  · rw [runDirective_of_travel tracked asked mouse, stopped]
  · intro start front origin body present before parsed back
    exact perform_of_travel tracked asked present before parsed stopped back
  · rintro target rfl
    cases asked
    exact MouseTracker.shifted_aim_ne tracked target (List.getElem?_eq_some_iff.mp listed).1
  · intro moves aimed
    have trackedLater : later.mouse.Tracked := MouseTracker.tracked_shifted _ _
    have wanted : (MouseCommand.moveTo target).travel? later.mouse =
        some (later.mouse.aim target) := rfl
    have made : aimed = _ := runDirective_of_travel trackedLater wanted present
    rw [made, Motion.total_allSteps, MouseTracker.aim_eq_iff]
    exact ⟨rfl, shifted⟩

/-- At the right edge of its range the estimate is right, although a move farther to the right was
cut after one of its steps. -/
theorem aim_of_cut_edge :
    let gadget := Gadget.having true false false
    let start := MacroEngine.ofSpeed 0
    let engine := (start.runDirective (.mouse (.moveBy ⟨8192, 0⟩)) gadget).2.1
    let cut := engine.runDirective (.mouse (.moveBy ⟨300, 0⟩)) (gadget.allowing (some 1))
    engine.mouse.position = ⟨8192, 0⟩ ∧ cut.1 = .error Endpoint.lost ∧
      cut.2.1.mouse = engine.mouse.shifted ⟨127, 0⟩ := by
  intro gadget start engine cut
  have reached : Reached engine := (Reached.start 0).directive _ gadget
  have edge : engine.mouse.position = ⟨8192, 0⟩ := by decide +kernel
  have asked : (MouseCommand.moveBy ⟨300, 0⟩).travel? engine.mouse = some ⟨300, 0⟩ := rfl
  have mouse : (capabilities (gadget.allowing (some 1))).mouse = true := rfl
  let between : Gadget := { gadget.allowing (some 1) with
    mouse := some { latest := [mouseBytes 0 127 0 0 0], allowance := some 0 } }
  have carried : performAll (((Motion.allSteps ⟨300, 0⟩).take 1).map .move)
      (gadget.allowing (some 1)) = (.ok (), between) := rfl
  have refused : Device.perform (.move ⟨127, 0⟩) between = (.error Endpoint.lost, between) := rfl
  obtain ⟨run, -, right, -⟩ := aim_of_cut reached asked mouse carried rfl refused
  have part : Motion.total ((Motion.allSteps ⟨300, 0⟩).take 1) = ⟨127, 0⟩ := by decide
  rw [part] at right
  have idleX : Motion.Idle (engine.mouse.position.x + 127) (300 - 127) := by
    rw [edge]
    exact .inr (.inl ⟨by decide, by decide⟩)
  have idleY : Motion.Idle (engine.mouse.position.y + 0) (0 - 0) := .inl rfl
  have estimate : cut.2.1.mouse = engine.mouse.shifted ⟨300, 0⟩ :=
    congrArg (fun result => result.2.1.mouse) run
  exact ⟨edge, congrArg Prod.fst run, estimate.trans (right.mpr ⟨idleX, idleY⟩)⟩

/-- The host goes away after one of three steps to the right. The engine takes the pointer to be
where all three would have brought it, and so it sends nothing to bring it there afterwards. -/
theorem aim_of_cut_short :
    let gadget := Gadget.having true false false
    let cut := (MacroEngine.ofSpeed 0).runDirective (.mouse (.moveBy ⟨300, 0⟩))
      (gadget.allowing (some 1))
    let aimed := cut.2.1.runDirective (.mouse (.moveTo ⟨300, 0⟩)) gadget
    cut.1 = .error Endpoint.lost ∧
      cut.2.2.mouse.map (·.latest) = some [mouseBytes 0 127 0 0 0] ∧
      cut.2.1.mouse.position = ⟨300, 0⟩ ∧
      aimed.1.isOk = true ∧ aimed.2.2 = gadget := by
  intro gadget cut aimed
  exact ⟨rfl, rfl, rfl, by decide +kernel, by decide +kernel⟩

end MacroEngine

end Keyfob
