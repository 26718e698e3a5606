import Keyfob.Proofs.Script.Flattening
import Mathlib.Control.Monad.Basic

/-!
# Counted blocks

A counted block goes through its body as often as its count says, and once at least, if the body
always ends. The counter is a 32-bit number that is counted down after each round, and in every
state that a run comes to it is positive or as it was when its block was opened
(`counter_of_reaches`). So it leaves its range only where a block was opened with the least number
there is: from that one there is no counting down, and the run crashes at the end of the first
round.
-/
namespace Keyfob

namespace Machine

/-- After a step, a counter is one that was there before, or it is positive, or its block has just
been opened. -/
theorem Move.counter {program : List Instruction} {before after : Machine}
    (move : Move program before after) {remaining : Int32} {body : Nat}
    (listed : Frame.loop remaining body ∈ Frame.repeating after.frames) :
    Frame.loop remaining body ∈ Frame.repeating before.frames ∨ 0 < remaining ∨
      before.skipping = 0 ∧ before.place + 1 = body ∧
        ∃ count, program[before.place]? = some (.loop count) ∧
          before.memory.evaluate count = remaining := by
  cases move.origin listed with
  | older listed => exact .inl listed
  | openedLoop found acting opened =>
    obtain ⟨rfl, rfl⟩ := Frame.loop.inj opened
    exact .inr (.inr ⟨acting, rfl, _, found, rfl⟩)
  | openedRange found opened => cases opened
  | counted left counted =>
    obtain ⟨rfl, rfl⟩ := Frame.loop.inj counted
    exact .inr (.inl left)

end Machine

namespace Script

namespace Progress

variable {δ : Type} [Device δ] {program : List Instruction} {visits : Nat}
  {start before now after : Progress δ}

/-! ## The counters of a run -/

/-- A run has opened the counted block of some body, with some value of its count. -/
def Opened (program : List Instruction) (start : Progress δ) (visits : Nat) (value : Int32)
    (body : Nat) : Prop :=
  ∃ earlier < visits, ∃ opening, Reaches program earlier start opening ∧
    opening.machine.skipping = 0 ∧ opening.machine.place + 1 = body ∧
      ∃ count, program[opening.machine.place]? = some (.loop count) ∧
        opening.machine.memory.evaluate count = value

/-- In every state of a run a counter is positive, or it is the value with which its block was
opened. The induction is on the visits. -/
theorem counter_of_reaches (closed : start.machine.frames = [])
    (reaches : Reaches program visits start now) {remaining : Int32} {body : Nat}
    (listed : Frame.loop remaining body ∈ Frame.repeating now.machine.frames) :
    0 < remaining ∨ Opened program start visits remaining body := by
  induction visits generalizing now with
  | zero =>
    obtain rfl := reaches
    rw [closed] at listed
    cases listed
  | succ visits ih =>
    obtain ⟨middle, run, last⟩ := reaches_succ_iff.mp reaches
    obtain ⟨request, step⟩ := step_of_advance last
    rcases (Machine.move_of_step step).counter listed with there | positive | opening
    · refine (ih run there).imp_right ?_
      rintro ⟨earlier, before, opened⟩
      exact ⟨earlier, Nat.lt_succ_of_lt before, opened⟩
    · exact .inl positive
    · exact .inr ⟨visits, Nat.lt_succ_self _, middle, run, opening⟩

/-- A counter leaves its range only in a block that was opened with the least number. -/
theorem opened_of_overflows (closed : start.machine.frames = [])
    (reaches : Reaches program visits start now)
    (overflows : now.machine.overflows program = true) :
    ∃ body, Opened program start visits Int32.minValue body := by
  obtain ⟨-, -, body, around, innermost⟩ := Machine.overflows_iff.mp overflows
  obtain ⟨inner, -, opened⟩ := Frame.repeating_of_innermostLoop innermost
  have listed : Frame.loop Int32.minValue body ∈ Frame.repeating now.machine.frames := by
    rw [opened]
    exact List.mem_append_right _ List.mem_cons_self
  exact ⟨body, (counter_of_reaches closed reaches listed).resolve_left (by decide)⟩

end Progress

/-! ## The rounds of a counted block -/

/-- A counted block runs as often as its count says, and once at least. -/
theorem rounds_eq (n : Int32) : (rounds n : Int) = max 1 n.toInt := by
  rw [rounds]
  omega

variable {δ : Type} [Device δ] {program : List Instruction} {place : Nat} {body : Block}
  {start middle after : Scene δ} {count visits more : Nat} {actions later : List Action}

/-- A round may be added behind others. -/
theorem Rounds.snoc (last : Runs body middle more later after) :
    ∀ {count visits actions} {start : Scene δ}, Rounds body count start visits actions middle →
      Rounds body (count + 1) start (visits + (more + 1)) (actions ++ later) after
  | _, _, _, _, .none => by
    have single := Rounds.more last .none
    rwa [Nat.add_zero, List.append_nil, Nat.add_comm, ← List.nil_append later] at single
  | _, _, _, _, .more first rest => by
    have whole := Rounds.more first (Rounds.snoc last rest)
    rwa [← Nat.add_assoc, ← List.append_assoc] at whole

/-- The body has a course whenever it has been gone through some number of times. -/
def Repeatable (body : Block) (start : Scene δ) : Prop :=
  ∀ {count visits actions scene}, Rounds body count start visits actions scene →
    ∃ more later middle, Runs body scene more later middle

/-- A body that can be repeated can be gone through any number of times. -/
theorem Repeatable.exists_rounds (repeatable : Repeatable body start) (count : Nat) :
    ∃ visits actions after, Rounds body count start visits actions after := by
  induction count with
  | zero => exact ⟨0, [], start, .none⟩
  | succ count ih =>
    obtain ⟨visits, actions, scene, rounds⟩ := ih
    obtain ⟨more, later, after, last⟩ := repeatable rounds
    exact ⟨_, _, after, rounds.snoc last⟩

/-- Where the body of a counted block has a course whenever it is begun, and the count is not the
least number, the block goes through it as often as the count says, and once at least, and a run
with budget for that goes on behind the end of the block with the rest of its budget. If the count
is the least number, the run crashes at the end of the first round. In any program at all, a run
from no open block comes to a counter that leaves its range only after it has opened a block with
the least number. -/
theorem runFrom_loop [Accepts δ] (program : List Instruction) :
    (∀ {place : Nat} {text : Text} {body : Block} (before : Scene δ) (frames : List Frame),
      Located program place (Block.loop text body).flat → Repeatable body before →
        let count := before.memory.evaluate text
        (count ≠ Int32.minValue → ∃ visits actions after,
          Rounds body (rounds count) before visits actions after ∧
          (rounds count : Int) = max 1 count.toInt ∧
          ∀ steps budget,
            runFrom program steps (1 + visits + budget) ⟨place, frames, 0, before.memory⟩
                before.engine before.device =
              runFrom program (steps + (1 + visits)) budget
                ⟨place + (Block.loop text body).flat.length, frames, 0, after.memory⟩
                after.engine after.device) ∧
        (count = Int32.minValue → ∃ visits actions middle,
          Runs body before visits actions middle ∧
          ∀ steps budget,
            runFrom program steps (1 + visits + (budget + 1)) ⟨place, frames, 0, before.memory⟩
                before.engine before.device =
              (.error (.crash .overflow),
                ⟨place + 1 + body.flat.length, .loop count (place + 1) :: frames, 0,
                  middle.memory⟩, middle.engine, middle.device))) ∧
    (∀ {start now : Progress δ} {visits : Nat}, start.machine.frames = [] →
      Progress.Reaches program visits start now → now.machine.overflows program = true →
        ∃ body, Progress.Opened program start visits Int32.minValue body) := by
  refine ⟨fun {place text body} before frames located repeatable => ?_,
    fun closed reaches overflows => Progress.opened_of_overflows closed reaches overflows⟩
  intro count
  obtain ⟨opening, inside, closing⟩ := located.between
  have first := Progress.reaches_one (Progress.advance_loop opening before frames)
  refine ⟨fun notLeast => ?_, fun least => ?_⟩
  · obtain ⟨visits, actions, after, runs⟩ := repeatable.exists_rounds (rounds count)
    have reaches := first.trans
      (Progress.reaches_of_rounds frames notLeast inside closing rfl runs)
    refine ⟨visits, actions, after, runs, rounds_eq count, fun steps budget => ?_⟩
    have length : place + (Block.loop text body).flat.length =
        place + 1 + body.flat.length + 1 := by
      rw [Block.flat, List.length_append, List.length_append, ← Nat.add_assoc, ← Nat.add_assoc]
      rfl
    rw [length]
    exact reaches.runFrom_eq steps budget
  · obtain ⟨visits, actions, middle, run⟩ := repeatable .none
    have reaches := first.trans
      (Progress.reaches_of_runs (.loop count (place + 1) :: frames) inside run)
    have overflows :=
      (Progress.overflows_standing_iff closing middle count (place + 1) frames).mpr least
    refine ⟨visits, actions, middle, run, fun steps budget => ?_⟩
    exact (reaches.runFrom_eq steps (budget + 1)).trans
      (Progress.runFrom_of_overflows overflows _ budget)

/-- A pause that is made a number of times. -/
def pauses (count : Text) : Block := .loop count (.plain (.wait "1") rfl)

/-- A body of one instruction has a course whenever it is begun. -/
theorem repeatable_wait (ms : Text) (start : Scene δ) :
    Repeatable (.plain (.wait ms) rfl) start :=
  fun _ => ⟨_, _, _, .plain rfl⟩

/-- A pause is made three times, and what stands behind it is visited then. A run that counts from
the least number crashes after one pause, and has opened its block with that number. -/
theorem runFrom_loop_three :
    let program := (pauses "3").flat ++ [.combo "y"]
    let before : Scene Recording := ⟨{}, ⟨0, {}⟩, {}⟩
    let least := (pauses "2147483648").flat
    let start : Progress Recording := ⟨{}, ⟨0, {}⟩, {}⟩
    Located program 0 (pauses "3").flat ∧
      (∃ visits actions after, Rounds (.plain (.wait "1") rfl) 3 before visits actions after ∧
        ∀ steps budget,
          runFrom program steps (1 + visits + budget) ⟨0, [], 0, before.memory⟩ before.engine
              before.device =
            runFrom program (steps + (1 + visits)) budget ⟨3, [], 0, after.memory⟩ after.engine
              after.device) ∧
      (∃ visits actions middle,
        Runs (.plain (.wait "1") rfl) before visits actions middle ∧
        ∀ steps budget,
          (runFrom least steps (1 + visits + (budget + 1)) ⟨0, [], 0, before.memory⟩ before.engine
            before.device).1 = .error (.crash .overflow)) ∧
      ∃ visits now, Progress.Reaches least visits start now ∧
        now.machine.overflows least = true ∧
        ∃ body, Progress.Opened least start visits Int32.minValue body := by
  intro program before least start
  have located : Located program 0 (pauses "3").flat := List.prefix_append _ _
  have three : before.memory.evaluate "3" ≠ Int32.minValue := by decide +kernel
  obtain ⟨visits, actions, after, runs, -, onwards⟩ :=
    ((runFrom_loop program).1 before [] located (repeatable_wait "1" before)).1 three
  have count : rounds (before.memory.evaluate "3") = 3 := by decide +kernel
  rw [count] at runs
  have counted : before.memory.evaluate "2147483648" = Int32.minValue := by decide +kernel
  obtain ⟨more, later, middle, run, crashes⟩ :=
    ((runFrom_loop least).1 before [] (located_self least) (repeatable_wait "1" before)).2 counted
  obtain ⟨opening, inside, closing⟩ := (located_self least).between
  have first := Progress.reaches_one (Progress.advance_loop opening before [])
  have reaches := first.trans (Progress.reaches_of_runs _ inside run)
  have overflows :=
    (Progress.overflows_standing_iff closing middle _ 1 []).mpr counted
  exact ⟨located, ⟨visits, actions, after, runs, onwards⟩,
    ⟨more, later, middle, run, fun steps budget => congrArg Prod.fst (crashes steps budget)⟩,
    _, _, reaches, overflows, (runFrom_loop least).2 rfl reaches overflows⟩

/-- A block that is opened with the least number does not run once: its counter leaves its range,
and the run crashes. -/
theorem execute_least :
    let program := (pauses "2147483648").flat
    let script : ScriptEngine := { budget := 50 }
    let count := script.memory.evaluate "2147483648"
    count = Int32.minValue ∧ max 1 count.toInt = 1 ∧
      (script.execute program ⟨0, {}⟩ ({} : Recording)).1 = .error (.crash .overflow) := by
  intro program script count
  refine ⟨?_, ?_, ?_⟩
  · decide +kernel
  · decide +kernel
  · decide +kernel

end Script

end Keyfob
