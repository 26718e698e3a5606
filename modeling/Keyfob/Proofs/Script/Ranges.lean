import Keyfob.Proofs.Script.Flattening

/-!
# Blocks over a range

A block over a range goes through its body once for each value of its variable, if the body leaves
the variable and the last value alone. The variable goes up by one after each round, wrapping, and
is then compared with the last value; so the number of rounds is settled by the value that the
second round would begin with (`turns`). It is the number of values from the first to the last, or
one, unless the first is the greatest number: then the second round begins with the least. No value
is past the greatest number, so a block that runs up to that one is never left.
-/
namespace Keyfob

/-- The variables whose number an instruction sets. -/
def Instruction.numbersSet : Instruction → List Text
  | .assign name (.expr _) => [name]
  | .forRange name _ _ => [name, Machine.lastName name]
  | _ => []

/-- What a variable holds after one is set. -/
theorem Variables.value_set (memory : Variables) (name other : Text) (value : Int32) :
    (memory.set name value).value other = if name = other then value else memory.value other := by
  unfold Variables.value set
  rw [Table.get?_insert]
  split
  · rfl
  · rfl

/-- The last value of a range is kept under another name than its variable. -/
theorem Machine.ne_lastName (name : Text) : name ≠ lastName name := by
  intro same
  have lengths := congrArg List.length same
  have longer : (lastName name).length = 10 + name.length := List.length_append
  omega

namespace Script

/-! ## Variables that a block leaves alone -/

/-- No instruction of a block sets the number of a variable. -/
def Block.Keeps (block : Block) (name : Text) : Prop :=
  ∀ instruction ∈ block.flat, name ∉ instruction.numbersSet

instance (block : Block) (name : Text) : Decidable (block.Keeps name) :=
  inferInstanceAs (Decidable (∀ instruction ∈ block.flat, name ∉ instruction.numbersSet))

/-- An instruction that is no block word leaves the variables that it does not set. -/
theorem value_effect {instruction : Instruction} {name : Text}
    (kept : name ∉ instruction.numbersSet) (capabilities : Capabilities) (memory : Variables)
    (engine : MacroEngine) :
    (instruction.effect capabilities memory engine).1.value name = memory.value name := by
  cases instruction with
  | assign other value =>
    cases value with
    | string t => rfl
    | expr expr =>
      have apart : other ≠ name := fun same => kept (same ▸ List.mem_singleton_self other)
      exact (Variables.value_set ..).trans (if_neg apart)
  | setButton button value =>
    rw [Instruction.effect]
    split
    · rfl
    · rfl
  | _ => rfl

/-- A scene at the first round over a range holds the first value and the last. -/
theorem value_entering {δ : Type} (before : Scene δ) (name first last : Text) :
    (before.entering name first last).memory.value name = before.memory.evaluate first ∧
      (before.entering name first last).memory.value (Machine.lastName name) =
        before.memory.evaluate last := by
  constructor
  · rw [Scene.entering, Variables.value_set, if_neg (Machine.ne_lastName name).symm,
      Variables.value_set, if_pos rfl]
  · rw [Scene.entering, Variables.value_set, if_pos rfl]

section Kept

variable {δ : Type} [Device δ] {name : Text}

mutual

/-- A run of a block leaves the variables that the block keeps. -/
theorem Runs.value_eq {block : Block} {before after : Scene δ} {visits : Nat}
    {actions : List Action} (kept : block.Keeps name) :
    Runs block before visits actions after →
      after.memory.value name = before.memory.value name
  | .empty => rfl
  | .plain _ => value_effect (kept _ List.mem_cons_self) _ _ _
  | .seq first second => by
    simp only [Block.Keeps, Block.flat, List.forall_mem_append] at kept
    exact (second.value_eq kept.2).trans (first.value_eq kept.1)
  | .holds _ run => by
    simp only [Block.Keeps, Block.flat, List.forall_mem_append] at kept
    exact run.value_eq kept.1.2
  | .fails _ => rfl
  | .either _ run => by
    simp only [Block.Keeps, Block.flat, List.forall_mem_append] at kept
    exact run.value_eq kept.1.1.1.2
  | .other _ run => by
    simp only [Block.Keeps, Block.flat, List.forall_mem_append] at kept
    exact run.value_eq kept.1.2
  | .loop _ run => by
    simp only [Block.Keeps, Block.flat, List.forall_mem_append] at kept
    exact run.value_eq kept.1.2
  | @Runs.range _ _ other low high _ scene _ _ _ run => by
    simp only [Block.Keeps, Block.flat, List.forall_mem_append] at kept
    obtain ⟨⟨opening, inside⟩, -⟩ := kept
    have notSet : name ∉ [other, Machine.lastName other] := opening _ List.mem_cons_self
    have apart : other ≠ name := fun same => notSet (same ▸ List.mem_cons_self)
    have apartLast : Machine.lastName other ≠ name := fun same =>
      notSet (same ▸ List.mem_cons_of_mem _ List.mem_cons_self)
    have entered : (scene.entering other low high).memory.value name =
        scene.memory.value name := by
      rw [Scene.entering, Variables.value_set, if_neg apartLast, Variables.value_set, if_neg apart]
    exact (run.value_eq apart inside).trans entered

/-- The rounds of a counted block leave the variables that its body keeps. -/
theorem Rounds.value_eq {body : Block} {count : Nat} {before after : Scene δ} {visits : Nat}
    {actions : List Action} (kept : body.Keeps name) :
    Rounds body count before visits actions after →
      after.memory.value name = before.memory.value name
  | .none => rfl
  | .more first second => (second.value_eq kept).trans (first.value_eq kept)

/-- The rounds of a block over a range leave the other variables that its body keeps. -/
theorem Ranges.value_eq {other : Text} {body : Block} {before after : Scene δ} {visits : Nat}
    {actions : List Action} (apart : other ≠ name) (kept : body.Keeps name) :
    Ranges other body before visits actions after →
      after.memory.value name = before.memory.value name
  | .last run _ => by
    rw [Scene.setting, Variables.value_set, if_neg apart]
    exact run.value_eq kept
  | .again run _ later => by
    have rest := later.value_eq apart kept
    rw [Scene.setting, Variables.value_set, if_neg apart] at rest
    exact rest.trans (run.value_eq kept)

end

end Kept

/-! ## Values in a row -/

/-- Numbers that go up by one from a first one, wrapping. -/
def consecutive (first : Int32) (count : Nat) : List Int32 :=
  (List.range count).map fun i => first + Int32.ofNat i

/-- How many rounds a block over a range takes: one, and one for each value from that of the second
round, which is one more than the first, wrapping, to the last. -/
def turns (first last : Int32) : Nat := (last.toInt - (first + 1).toInt + 1).toNat + 1

/-- One number more in a row. -/
theorem consecutive_succ (first : Int32) (count : Nat) :
    consecutive first (count + 1) = consecutive first count ++ [first + Int32.ofNat count] := by
  rw [consecutive, List.range_succ, List.map_append]
  rfl

/-- The number after one in a row. -/
theorem ofNat_succ (first : Int32) (count : Nat) :
    first + Int32.ofNat (count + 1) = first + Int32.ofNat count + 1 := by
  rw [Int32.ofNat_add, ← Int32.add_assoc]
  rfl

/-- A number that is not the greatest is less than it. -/
theorem toInt_lt_top {a : Int32} (other : a ≠ Int32.maxValue) : a.toInt < Int32.maxValue.toInt := by
  have most := a.toInt_le
  have apart : a.toInt ≠ Int32.maxValue.toInt := fun same => other (Int32.toInt_inj.mp same)
  omega

/-- Numbers in a row go up as long as there is room for them. -/
theorem toInt_later {first : Int32} {count : Nat}
    (room : (first + 1).toInt + count ≤ Int32.maxValue.toInt) :
    (first + Int32.ofNat (count + 1)).toInt = (first + 1).toInt + count := by
  have low := (first + 1).le_toInt
  have top : Int32.maxValue.toInt = 2 ^ 31 - 1 := by decide
  have split : first + Int32.ofNat (count + 1) = first + 1 + Int32.ofNat count := by
    rw [Nat.add_comm, Int32.ofNat_add, ← Int32.add_assoc]
    rfl
  rw [split, Int32.toInt_add, Int32.toInt_ofNat', show Int32.size = 2 ^ 32 from rfl,
    Int.add_bmod_bmod]
  apply Int.bmod_eq_of_le <;> omega

/-- Before a block over a range takes its last round, the next value is not past the last. -/
theorem le_of_lt_turns {first last : Int32} {count : Nat} (more : count + 1 < turns first last) :
    first + Int32.ofNat (count + 1) ≤ last := by
  have left : (first + 1).toInt + count ≤ last.toInt := by
    unfold turns at more
    omega
  rw [Int32.le_iff_toInt_le, toInt_later (Int.le_trans left last.toInt_le)]
  exact left

/-- After the last round of a block over a range, the next value is past the last, unless nothing
can be. -/
theorem not_le_turns {first last : Int32} (bounded : last ≠ Int32.maxValue) :
    ¬first + Int32.ofNat (turns first last) ≤ last := by
  have high := (first + 1).toInt_le
  have below := toInt_lt_top bounded
  have past : last.toInt < (first + 1).toInt + (last.toInt - (first + 1).toInt + 1).toNat := by
    omega
  rw [turns, Int32.le_iff_toInt_le, toInt_later (by omega)]
  omega

/-- A block over a range takes one round for each value from the first to the last, and one at
least, just where its first value is not the greatest number. -/
theorem turns_eq_iff {first last : Int32} (bounded : last ≠ Int32.maxValue) :
    (turns first last : Int) = max 1 (last.toInt - first.toInt + 1) ↔
      first ≠ Int32.maxValue := by
  have low := first.le_toInt
  have lastLow := last.le_toInt
  have below := toInt_lt_top bounded
  have top : Int32.maxValue.toInt = 2 ^ 31 - 1 := by decide
  by_cases greatest : first = Int32.maxValue
  · subst greatest
    refine iff_of_false ?_ (not_not_intro rfl)
    have wrapped : (Int32.maxValue + 1).toInt = -2 ^ 31 := by decide
    rw [turns, wrapped, top]
    omega
  · refine iff_of_true ?_ greatest
    have room := toInt_lt_top greatest
    have next : (first + 1).toInt = first.toInt + 1 := by
      rw [Int32.toInt_add, show (1 : Int32).toInt = 1 from rfl]
      apply Int.bmod_eq_of_le <;> omega
    rw [turns, next]
    omega

/-! ## Rounds with their values -/

section Rounds

variable {δ : Type} [Device δ]

/-- A block over a range has been gone through for some values of its variable, each time with a
further round to come, and is back at its body. -/
inductive Returns (name : Text) (body : Block) (start : Scene δ) :
    List Int32 → Nat → List Action → Scene δ → Prop
  | start : Returns name body start [] 0 [] start
  | again {values visits actions scene more later middle} :
    Returns name body start values visits actions scene → Runs body scene more later middle →
      middle.repeats name →
      Returns name body start (values ++ [scene.memory.value name]) (visits + (more + 1))
        (actions ++ later) (middle.setting name (middle.nextValue name))

/-- A block over a range has been gone through for some values of its variable, and is left. -/
inductive Leaves (name : Text) (body : Block) (start : Scene δ) :
    List Int32 → Nat → List Action → Scene δ → Prop
  | last {values visits actions scene more later middle} :
    Returns name body start values visits actions scene → Runs body scene more later middle →
      ¬middle.repeats name →
      Leaves name body start (values ++ [scene.memory.value name]) (visits + (more + 1))
        (actions ++ later) (middle.setting name (middle.nextValue name))

variable {name : Text} {body : Block} {start scene : Scene δ} {first last : Int32}
  {values : List Int32} {visits : Nat} {actions : List Action}

/-- How a block over a range stands at its body again: its variable has taken the values from the
first on, none past the last. -/
structure Returned (name : Text) (first last : Int32) (values : List Int32) (scene : Scene δ) :
    Prop where
  /-- The variable has taken values in a row. -/
  row : values = consecutive first values.length
  /-- The variable holds the next of them. -/
  current : scene.memory.value name = first + Int32.ofNat values.length
  /-- The last value is as it was. -/
  bound : scene.memory.value (Machine.lastName name) = last
  /-- No value that a further round began with is past the last. -/
  within : ∀ i < values.length, first + Int32.ofNat (i + 1) ≤ last

/-- After a round the variable holds what it did before, and so does the last value; the next value
is one more. -/
theorem Returned.after_round (returned : Returned name first last values scene)
    (keeps : body.Keeps name) (keepsLast : body.Keeps (Machine.lastName name)) {more : Nat}
    {later : List Action} {middle : Scene δ} (run : Runs body scene more later middle) :
    middle.nextValue name = first + Int32.ofNat (values.length + 1) ∧
      middle.memory.value (Machine.lastName name) = last := by
  constructor
  · rw [Scene.nextValue, run.value_eq keeps, returned.current, ofNat_succ]
  · rw [run.value_eq keepsLast, returned.bound]

/-- Every round visits an instruction at least. -/
theorem Returns.length_le (returns : Returns name body start values visits actions scene) :
    values.length ≤ visits := by
  induction returns with
  | start => exact Nat.le_refl 0
  | again _ _ _ ih =>
    rw [List.length_append, List.length_singleton]
    omega

/-- The body has a course whenever it is begun. -/
def Terminates (name : Text) (body : Block) (start : Scene δ) : Prop :=
  ∀ {values visits actions scene}, Returns name body start values visits actions scene →
    ∃ more later middle, Runs body scene more later middle

section

variable (keeps : body.Keeps name) (keepsLast : body.Keeps (Machine.lastName name))
  (low : start.memory.value name = first)
  (high : start.memory.value (Machine.lastName name) = last)
include keeps keepsLast low high

/-- A block whose body keeps the variable and the last value goes through the values in a row. -/
theorem Returns.returned (returns : Returns name body start values visits actions scene) :
    Returned name first last values scene := by
  induction returns with
  | start =>
    refine ⟨rfl, ?_, high, nofun⟩
    rw [low]
    exact (Int32.add_zero first).symm
  | @again values visits actions scene more later middle _ run repeats ih =>
    obtain ⟨next, bound⟩ := ih.after_round keeps keepsLast run
    have count : (values ++ [scene.memory.value name]).length = values.length + 1 :=
      List.length_append
    have further : first + Int32.ofNat (values.length + 1) ≤ last := by
      rw [Scene.repeats, next, bound] at repeats
      exact repeats
    constructor
    · rw [count, consecutive_succ, ← ih.row, ih.current]
    · rw [Scene.setting, Variables.value_set, if_pos rfl, next, count]
    · rw [Scene.setting, Variables.value_set, if_neg (Machine.ne_lastName name), bound]
    · intro i inside
      rw [count] at inside
      by_cases newest : i = values.length
      · rw [newest]
        exact further
      · exact ih.within i (by omega)

/-- A block over a range comes back to its body as often as the values in a row are not past the
last. -/
theorem exists_returns (terminates : Terminates name body start) (count : Nat)
    (within : ∀ i < count, first + Int32.ofNat (i + 1) ≤ last) :
    ∃ values visits actions scene, values.length = count ∧
      Returns name body start values visits actions scene := by
  induction count with
  | zero => exact ⟨[], 0, [], start, rfl, .start⟩
  | succ count ih =>
    obtain ⟨values, visits, actions, scene, counted, returns⟩ :=
      ih fun i inside => within i (Nat.lt_succ_of_lt inside)
    obtain ⟨more, later, middle, run⟩ := terminates returns
    have returned := returns.returned keeps keepsLast low high
    obtain ⟨next, bound⟩ := returned.after_round keeps keepsLast run
    have repeats : middle.repeats name := by
      rw [Scene.repeats, next, bound, counted]
      exact within count (Nat.lt_succ_self count)
    refine ⟨_, _, _, _, ?_, returns.again run repeats⟩
    rw [List.length_append, counted]
    rfl

/-- A block over a range is left after its turns and with its values, where the last value is not
the greatest number; and otherwise never. -/
theorem Leaves.values_eq (leaves : Leaves name body start values visits actions scene) :
    last ≠ Int32.maxValue ∧ values = consecutive first (turns first last) := by
  obtain ⟨returns, run, past⟩ := leaves
  next values _ _ scene _ _ middle =>
  have returned := returns.returned keeps keepsLast low high
  obtain ⟨next, bound⟩ := returned.after_round keeps keepsLast run
  rw [Scene.repeats, next, bound] at past
  have bounded : last ≠ Int32.maxValue := by
    rintro rfl
    exact past (Int32.le_maxValue _)
  -- The turns are the least number of rounds after which the next value is past the last.
  have enough : turns first last ≤ values.length + 1 := by
    refine Nat.le_of_not_lt fun more => ?_
    exact past (le_of_lt_turns more)
  have needed : values.length + 1 ≤ turns first last := by
    obtain ⟨count, counted⟩ : ∃ count, turns first last = count + 1 := ⟨_, rfl⟩
    refine Nat.le_of_not_lt fun fewer => ?_
    have within := returned.within count (by omega)
    rw [← counted] at within
    exact not_le_turns bounded within
  have counted : turns first last = values.length + 1 := by omega
  refine ⟨bounded, ?_⟩
  rw [counted, consecutive_succ, ← returned.row, returned.current]

/-- A block over a range is left, where its body has a course whenever it is begun and the last
value is not the greatest number. -/
theorem exists_leaves (terminates : Terminates name body start) (bounded : last ≠ Int32.maxValue) :
    ∃ visits actions after,
      Leaves name body start (consecutive first (turns first last)) visits actions after := by
  obtain ⟨values, visits, actions, scene, counted, returns⟩ :=
    exists_returns keeps keepsLast low high terminates (turns first last - 1)
      fun i inside => le_of_lt_turns (by omega)
  obtain ⟨more, later, middle, run⟩ := terminates returns
  have returned := returns.returned keeps keepsLast low high
  obtain ⟨next, bound⟩ := returned.after_round keeps keepsLast run
  have past : ¬middle.repeats name := by
    have positive : 0 < turns first last := Nat.succ_pos _
    rw [Scene.repeats, next, bound, counted, Nat.sub_add_cancel positive]
    exact not_le_turns bounded
  have leaves := Leaves.last returns run past
  rw [(leaves.values_eq keeps keepsLast low high).2] at leaves
  exact ⟨_, _, _, leaves⟩

end

end Rounds

/-! ## Running a block over a range -/

section Runs

variable {δ : Type} [Device δ] {program : List Instruction} {place : Nat} {name first last : Text}
  {body : Block} {start after scene : Scene δ} {values : List Int32} {visits : Nat}
  {actions : List Action}

/-- A run goes through the rounds of a block over a range as these come back to the body. -/
theorem Returns.reaches [Accepts δ] (frames : List Frame)
    (located : Located program place body.flat)
    (closing : program[place + body.flat.length]? = some .next)
    (returns : Returns name body start values visits actions scene) :
    Progress.Reaches program visits (start.standing place (.range name place :: frames) 0)
      (scene.standing place (.range name place :: frames) 0) := by
  induction returns with
  | start => rfl
  | @again _ _ _ _ _ _ middle _ run repeats ih =>
    have round := Progress.reaches_of_runs (.range name place :: frames) located run
    have step := Progress.advance_next closing middle name place frames
    rw [if_pos repeats] at step
    exact ih.trans (round.trans (Progress.reaches_one step))

/-- A run leaves a block over a range behind its end. -/
theorem Leaves.reaches [Accepts δ] (frames : List Frame)
    (located : Located program place body.flat)
    (closing : program[place + body.flat.length]? = some .next)
    (leaves : Leaves name body start values visits actions after) :
    Progress.Reaches program visits (start.standing place (.range name place :: frames) 0)
      (after.standing (place + body.flat.length + 1) frames 0) := by
  obtain ⟨returns, run, past⟩ := leaves
  next middle =>
  have round := Progress.reaches_of_runs (.range name place :: frames) located run
  have step := Progress.advance_next closing middle name place frames
  rw [if_neg past] at step
  exact (returns.reaches frames located closing).trans (round.trans (Progress.reaches_one step))

/-- A run that visits more instructions than its budget allows is stopped when it has used up the
budget. -/
theorem runFrom_of_reaches_more [Accepts δ] {before later : Progress δ} {budget : Nat}
    (reaches : Progress.Reaches program visits before later) (more : budget < visits)
    (steps : Nat) :
    (runFrom program steps budget before.machine before.engine before.device).1 =
      .ok ⟨steps + budget, true⟩ := by
  induction budget generalizing before visits steps with
  | zero =>
    cases visits with
    | zero => cases more
    | succ visits =>
      obtain ⟨middle, step, -⟩ := reaches
      obtain ⟨request, stepped⟩ := Progress.step_of_advance step
      have inside := (Machine.not_ended_of_step stepped).1
      rw [runFrom, decide_eq_true inside, Nat.add_zero]
  | succ budget ih =>
    cases visits with
    | zero => cases more
    | succ visits =>
      obtain ⟨middle, step, rest⟩ := reaches
      rw [Progress.runFrom_succ, step]
      have stopped := ih rest (Nat.lt_of_succ_lt_succ more) (steps + 1)
      rw [Nat.add_right_comm, Nat.add_assoc] at stopped
      exact stopped

/-- No budget is enough for a block over a range whose last value is the greatest number. -/
theorem runFrom_range_unbounded [Accepts δ]
    (located : Located program place (Block.range name first last body).flat)
    (keeps : body.Keeps name) (keepsLast : body.Keeps (Machine.lastName name)) (before : Scene δ)
    (frames : List Frame) (terminates : Terminates name body (before.entering name first last))
    (unbounded : before.memory.evaluate last = Int32.maxValue) (steps budget : Nat) :
    (runFrom program steps budget ⟨place, frames, 0, before.memory⟩ before.engine
      before.device).1 = .ok ⟨steps + budget, true⟩ := by
  obtain ⟨low, high⟩ := value_entering before name first last
  obtain ⟨opening, inside, closing⟩ := located.between
  obtain ⟨values, visits, actions, scene, counted, returns⟩ :=
    exists_returns keeps keepsLast low high terminates budget fun i _ => by
      rw [unbounded]
      exact Int32.le_maxValue _
  have many := returns.length_le
  have step := Progress.reaches_one (Progress.advance_forRange opening before frames)
  have reaches := step.trans (returns.reaches frames inside closing)
  exact runFrom_of_reaches_more reaches (by omega) steps

/-- Where the body of a block over a range has a course whenever it is begun and leaves the variable
and the last value alone: if the last value is not the greatest number, the block is gone through
for values in a row, in as many rounds as there are values from the first to the last, and in one at
least, just where the first value is not the greatest number; a run with budget for that goes on
behind the end of the block with the rest of its budget. If the last value is the greatest number,
the block is never left, and every budget is used up. -/
theorem runFrom_range [Accepts δ]
    (located : Located program place (Block.range name first last body).flat)
    (keeps : body.Keeps name) (keepsLast : body.Keeps (Machine.lastName name)) (before : Scene δ)
    (frames : List Frame)
    (terminates : Terminates name body (before.entering name first last)) :
    let start := before.entering name first last
    let low := before.memory.evaluate first
    let high := before.memory.evaluate last
    (high ≠ Int32.maxValue →
      ∃ visits actions after,
        Leaves name body start (consecutive low (turns low high)) visits actions after ∧
          ((turns low high : Int) = max 1 (high.toInt - low.toInt + 1) ↔
            low ≠ Int32.maxValue) ∧
          ∀ steps budget,
            runFrom program steps (1 + visits + budget) ⟨place, frames, 0, before.memory⟩
                before.engine before.device =
              runFrom program (steps + (1 + visits)) budget
                ⟨place + (Block.range name first last body).flat.length, frames, 0, after.memory⟩
                after.engine after.device) ∧
      (∀ values visits actions after, Leaves name body start values visits actions after →
        high ≠ Int32.maxValue ∧ values = consecutive low (turns low high)) ∧
      (high = Int32.maxValue → ∀ steps budget,
        (runFrom program steps budget ⟨place, frames, 0, before.memory⟩ before.engine
          before.device).1 = .ok ⟨steps + budget, true⟩) := by
  intro start low high
  obtain ⟨lowHeld, highHeld⟩ := value_entering before name first last
  obtain ⟨opening, inside, closing⟩ := located.between
  refine ⟨fun bounded => ?_, fun _ _ _ _ leaves => ?_, fun unbounded => ?_⟩
  · obtain ⟨visits, actions, after, leaves⟩ :=
      exists_leaves keeps keepsLast lowHeld highHeld terminates bounded
    have step := Progress.reaches_one (Progress.advance_forRange opening before frames)
    have reaches := step.trans (leaves.reaches frames inside closing)
    refine ⟨visits, actions, after, leaves, turns_eq_iff bounded, fun steps budget => ?_⟩
    have length : place + (Block.range name first last body).flat.length =
        place + 1 + body.flat.length + 1 := by
      rw [Block.flat, List.length_append, List.length_append, ← Nat.add_assoc, ← Nat.add_assoc]
      rfl
    rw [length]
    exact reaches.runFrom_eq steps budget
  · exact leaves.values_eq keeps keepsLast lowHeld highHeld
  · exact runFrom_range_unbounded located keeps keepsLast before frames terminates unbounded

/-- A combination for each value from a first to a last one. -/
def combinations (first last : Text) : Block := .range "i" first last (.plain (.combo "x") rfl)

/-- A body of one instruction has a course whenever it is begun. -/
theorem terminates_combo (name other : Text) (start : Scene δ) :
    Terminates name (.plain (.combo other) rfl) start :=
  fun _ => ⟨_, _, _, .plain rfl⟩

/-- A block from 1 to 3 takes three rounds, and what stands behind it is visited then. -/
theorem runFrom_range_three :
    let program := (combinations "1" "3").flat ++ [.combo "y"]
    let before : Scene Recording := ⟨{}, ⟨0, {}⟩, {}⟩
    Located program 0 (combinations "1" "3").flat ∧
      before.memory.evaluate "3" ≠ Int32.maxValue ∧
      ∃ visits actions after,
        Leaves "i" (.plain (.combo "x") rfl) (before.entering "i" "1" "3") [1, 2, 3] visits actions
            after ∧
          ∀ steps budget,
            runFrom program steps (1 + visits + budget) ⟨0, [], 0, before.memory⟩ before.engine
                before.device =
              runFrom program (steps + (1 + visits)) budget ⟨3, [], 0, after.memory⟩ after.engine
                after.device := by
  intro program before
  have located : Located program 0 (combinations "1" "3").flat := List.prefix_append _ _
  have low : before.memory.evaluate "1" = 1 := by decide +kernel
  have high : before.memory.evaluate "3" = 3 := by decide +kernel
  have bounded : before.memory.evaluate "3" ≠ Int32.maxValue := by
    rw [high]
    decide
  obtain ⟨visits, actions, after, leaves, -, onwards⟩ :=
    (runFrom_range located (by decide) (by decide) before [] (terminates_combo "i" "x" _)).1 bounded
  rw [low, high] at leaves
  have row : consecutive 1 (turns 1 3) = [1, 2, 3] := by decide
  rw [row] at leaves
  exact ⟨located, bounded, visits, actions, after, leaves, onwards⟩

/-- A block up to the greatest number is never left, though two values are all that it has to go
through. -/
theorem runFrom_range_greatest :
    let program := (combinations "2147483646" "2147483647").flat
    let memory : Variables := {}
    memory.evaluate "2147483646" = Int32.maxValue - 1 ∧
      memory.evaluate "2147483647" = Int32.maxValue ∧
      ∀ budget, (({ budget := budget } : ScriptEngine).execute program ⟨0, {}⟩
        ({} : Recording)).1 = .ok ⟨budget, true⟩ := by
  intro program memory
  have low : memory.evaluate "2147483646" = Int32.maxValue - 1 := by decide +kernel
  have high : memory.evaluate "2147483647" = Int32.maxValue := by decide +kernel
  refine ⟨low, high, fun budget => ?_⟩
  have stopped := runFrom_range_unbounded (located_self program) (by decide) (by decide)
    (⟨memory, ⟨0, {}⟩, {}⟩ : Scene Recording) [] (terminates_combo "i" "x" _) high 0 budget
  rw [Nat.zero_add] at stopped
  exact stopped

end Runs

end Script

end Keyfob
