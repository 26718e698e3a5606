import Keyfob.Proofs.Hid.Steps

/-!
# The estimate of the pointer's place

A tracker that is asked for any targets, displacements and sweeps keeps its estimate within one
extent around the tracked area (`MouseTracker.tracked_after`), so that what a target asks for is
never more than one move may travel. A machine holds the estimate in words of 32 bits and walks a
displacement in a loop; on these words no sum and no difference leaves its range, none stops at a
bound, and the loop makes the steps that are counted beforehand (`MouseTracker.steps_of_calls`).
-/
namespace Keyfob

/-! ## Words -/

namespace Word

/-- The word that an integer is, if it is one. -/
def ofInt? (n : Int) : Option Int32 :=
  if Int32.minValue.toInt ≤ n ∧ n ≤ Int32.maxValue.toInt then some (Int32.ofInt n) else none

/-- The sum of two words, if it is a word. -/
def sum? (first second : Int32) : Option Int32 := ofInt? (first.toInt + second.toInt)

/-- The difference of two words, if it is a word. -/
def difference? (first second : Int32) : Option Int32 := ofInt? (first.toInt - second.toInt)

/-- The difference of two words, taken to the nearest word. -/
def nearestDifference (first second : Int32) : Int32 :=
  Int32.ofInt (Text.clamp Int32.minValue.toInt Int32.maxValue.toInt (first.toInt - second.toInt))

/-- The nearest word between two bounds. -/
def clamp (low high value : Int32) : Int32 :=
  if value < low then low else if high < value then high else value

/-- An integer that is a word is found as that word. -/
theorem ofInt?_of_le {n : Int} (low : -2147483648 ≤ n) (high : n ≤ 2147483647) :
    ∃ word, ofInt? n = some word ∧ word.toInt = n :=
  ⟨Int32.ofInt n, if_pos ⟨low, high⟩, Int32.toInt_ofInt_of_le low (Int.lt_add_one_of_le high)⟩

/-- Only an integer that is a word is found as one. -/
theorem toInt_of_ofInt? {n : Int} {word : Int32} (found : ofInt? n = some word) :
    word.toInt = n := by
  unfold ofInt? at found
  split at found
  · next inside =>
    cases found
    exact Int32.toInt_ofInt_of_le inside.1 (Int.lt_add_one_of_le inside.2)
  · cases found

/-- A difference that is a word is taken as it is. -/
theorem toInt_nearestDifference {first second : Int32}
    (low : -2147483648 ≤ first.toInt - second.toInt)
    (high : first.toInt - second.toInt ≤ 2147483647) :
    (nearestDifference first second).toInt = first.toInt - second.toInt := by
  have inside : Text.clamp Int32.minValue.toInt Int32.maxValue.toInt
      (first.toInt - second.toInt) = first.toInt - second.toInt := by
    rw [show Int32.minValue.toInt = -2147483648 from rfl,
      show Int32.maxValue.toInt = 2147483647 from rfl, Text.clamp]
    omega
  rw [nearestDifference, inside]
  exact Int32.toInt_ofInt_of_le low (Int.lt_add_one_of_le high)

/-- The nearest word between two bounds is the nearest integer. -/
theorem toInt_clamp {low high : Int32} (ordered : low.toInt ≤ high.toInt) (value : Int32) :
    (clamp low high value).toInt = Text.clamp low.toInt high.toInt value.toInt := by
  unfold clamp Text.clamp
  simp only [Int32.lt_iff_toInt_lt]
  split
  · omega
  · split <;> omega

/-- A step on words is the word's step. -/
theorem toInt8_eq (word : Int32) : word.toInt8 = Int8.ofInt word.toInt := by
  rw [← Int32.toInt8_ofInt, Int32.ofInt_toInt]

end Word

/-! ## Walking in words -/

namespace Motion

/-- The displacement that two words are. -/
def ofWords (dx dy : Int32) : Vector2 := ⟨dx.toInt, dy.toInt⟩

/-- The part of a word that one step walks. -/
def firstWord (word : Int32) : Int32 := Word.clamp (-127) 127 word

/-- What a step walks of a word is what it walks of the integer. -/
theorem toInt_firstWord (word : Int32) :
    (firstWord word).toInt = Text.clamp (-stepBound) stepBound word.toInt :=
  Word.toInt_clamp (by decide) word

/-- What a step leaves of a word is what it leaves of the integer. -/
theorem natAbs_of_left {word left : Int32}
    (found : Word.difference? word (firstWord word) = some left) :
    left.toInt.natAbs = word.toInt.natAbs - 127 := by
  rw [Word.toInt_of_ofInt? found, toInt_firstWord, natAbs_sub_clamp]

/-- What a step leaves of a word is a word. -/
theorem exists_left (word : Int32) :
    ∃ left, Word.difference? word (firstWord word) = some left ∧
      left.toInt = word.toInt - Text.clamp (-stepBound) stepBound word.toInt := by
  have low := word.le_toInt
  have high := word.toInt_lt
  have less := natAbs_sub_clamp word.toInt
  rw [Word.difference?, toInt_firstWord]
  apply Word.ofInt?_of_le <;> omega

/-- Walk a displacement in words until it is used up on both axes; a difference that is no word ends
the walk without a result. -/
def walkWords? (dx dy : Int32) : Option (List MotionStep) :=
  if dx = 0 ∧ dy = 0 then some []
  else
    match _ : Word.difference? dx (firstWord dx), _ : Word.difference? dy (firstWord dy) with
    | some leftX, some leftY =>
      (walkWords? leftX leftY).map (⟨(firstWord dx).toInt8, (firstWord dy).toInt8⟩ :: ·)
    | _, _ => none
termination_by dx.toInt.natAbs + dy.toInt.natAbs
decreasing_by
  next far foundX foundY =>
  have lessX := natAbs_of_left foundX
  have lessY := natAbs_of_left foundY
  have moved : dx.toInt ≠ 0 ∨ dy.toInt ≠ 0 := by
    rw [← Decidable.not_and_iff_not_or_not, ← Int32.toInt_zero, Int32.toInt_inj, Int32.toInt_inj]
    exact far
  omega

/-- Walking in words always has a result, which is all steps of the displacement. -/
theorem walkWords?_eq (dx dy : Int32) : walkWords? dx dy = some (allSteps (ofWords dx dy)) := by
  generalize whole : ofWords dx dy = travel
  induction travel using induction_on_left generalizing dx dy with
  | origin =>
    obtain ⟨x, y⟩ := Vector2.mk.inj whole
    rw [walkWords?, if_pos ⟨Int32.toInt_inj.mp x, Int32.toInt_inj.mp y⟩]
    rfl
  | walked travel far ih =>
    subst whole
    have some' : ¬(dx = 0 ∧ dy = 0) := by
      rintro ⟨rfl, rfl⟩
      exact far rfl
    obtain ⟨leftX, thereX, valueX⟩ := exists_left dx
    obtain ⟨leftY, thereY, valueY⟩ := exists_left dy
    have rest : ofWords leftX leftY = left (ofWords dx dy) := by
      rw [ofWords, valueX, valueY]
      rfl
    have told : ⟨(firstWord dx).toInt8, (firstWord dy).toInt8⟩ = step (ofWords dx dy) := by
      rw [Word.toInt8_eq, Word.toInt8_eq, toInt_firstWord, toInt_firstWord]
      rfl
    rw [walkWords?, if_neg some']
    split
    · next foundX foundY =>
      cases thereX.symm.trans foundX
      cases thereY.symm.trans foundY
      rw [ih leftX leftY rest, Option.map_some, told, allSteps_left far]
    · next missing => exact (missing leftX leftY thereX thereY).elim

/-- The steps of a displacement in words. -/
def stepsWords? (dx dy : Int32) : Option (List MotionStep) :=
  walkWords? (Word.clamp (-8192) 8192 dx) (Word.clamp (-8192) 8192 dy)

/-- The steps of a displacement in words are those of the displacement. -/
theorem stepsWords?_eq (dx dy : Int32) : stepsWords? dx dy = some (steps (ofWords dx dy)) := by
  rw [stepsWords?, walkWords?_eq, ofWords, Word.toInt_clamp (by decide), Word.toInt_clamp (by decide)]
  rfl

end Motion

/-! ## Calls -/

namespace MouseTracker

/-- A call of a tracker, with any words. -/
inductive Call where
  /-- Move to a target. -/
  | moveTo (x y : Int32)
  /-- Move by a displacement. -/
  | moveBy (dx dy : Int32)
  /-- Sweep into the corner. -/
  | reset
deriving DecidableEq

/-- Make a call: the tracker from then on, and the steps. -/
def call (tracker : MouseTracker) : Call → MouseTracker × List MotionStep
  | .moveTo x y => tracker.moveTo (Motion.ofWords x y)
  | .moveBy dx dy => tracker.moveBy (Motion.ofWords dx dy)
  | .reset => tracker.reset

/-- The tracker after calls. -/
def after (tracker : MouseTracker) (calls : List Call) : MouseTracker :=
  calls.foldl (fun tracker call => (tracker.call call).1) tracker

/-- The displacement that a call is about: from the estimate to the nearest place of the tracked
area, or the given one within what a move may travel, or the sweep. -/
def Call.travel (tracker : MouseTracker) : Call → Vector2
  | .moveTo x y =>
    ⟨Text.clamp 0 4096 x.toInt - tracker.position.x, Text.clamp 0 4096 y.toInt - tracker.position.y⟩
  | .moveBy dx dy => ⟨Text.clamp (-8192) 8192 dx.toInt, Text.clamp (-8192) 8192 dy.toInt⟩
  | .reset => ⟨-4096, -4096⟩

/-- An estimate within one extent around the tracked area. -/
structure Tracked (tracker : MouseTracker) : Prop where
  /-- Not too far to the left. -/
  lowX : -4096 ≤ tracker.position.x
  /-- Not too far to the right. -/
  highX : tracker.position.x ≤ 8192
  /-- Not too far up. -/
  lowY : -4096 ≤ tracker.position.y
  /-- Not too far down. -/
  highY : tracker.position.y ≤ 8192

/-- A new tracker takes the pointer to be in the corner. -/
theorem tracked_new : Tracked {} := by constructor <;> decide

/-- After a move to any target the estimate is within one extent around the tracked area. -/
theorem tracked_moveTo (tracker : MouseTracker) (target : Vector2) :
    Tracked (tracker.moveTo target).1 := by
  constructor <;> simp only [moveTo, Text.clamp, Motion.extent] <;> omega

/-- After a move by any displacement the estimate is within one extent around the tracked area. -/
theorem tracked_moveBy (tracker : MouseTracker) (displacement : Vector2) :
    Tracked (tracker.moveBy displacement).1 := by
  constructor <;> simp only [moveBy, Text.clamp, Motion.extent] <;> omega

/-- After any call the estimate is within one extent around the tracked area. -/
theorem tracked_call (tracker : MouseTracker) (call : Call) : Tracked (tracker.call call).1 := by
  cases call with
  | moveTo x y => exact tracked_moveTo tracker _
  | moveBy dx dy => exact tracked_moveBy tracker _
  | reset => exact tracked_new

/-- So it is after any calls of a tracker whose estimate was there before. -/
theorem tracked_after {tracker : MouseTracker} (tracked : Tracked tracker) (calls : List Call) :
    Tracked (tracker.after calls) := by
  induction calls generalizing tracker with
  | nil => exact tracked
  | cons call calls ih => exact ih (tracked_call tracker call)

/-- The displacement from the estimate to the nearest place of the tracked area. -/
def aim (tracker : MouseTracker) (target : Vector2) : Vector2 :=
  ⟨Text.clamp 0 4096 target.x - tracker.position.x, Text.clamp 0 4096 target.y - tracker.position.y⟩

/-- No target is farther away than a move may travel. -/
theorem capped_aim {tracker : MouseTracker} (tracked : Tracked tracker) (target : Vector2) :
    Motion.capped (tracker.aim target) = tracker.aim target := by
  obtain ⟨lowX, highX, lowY, highY⟩ := tracked
  simp only [Motion.capped, aim, Text.clamp, Motion.travelBound, Vector2.mk.injEq]
  omega

/-- No call asks for more than a move may travel. -/
theorem capped_travel {tracker : MouseTracker} (tracked : Tracked tracker) (call : Call) :
    Motion.capped (call.travel tracker) = call.travel tracker := by
  cases call with
  | moveTo x y => exact capped_aim tracked (Motion.ofWords x y)
  | moveBy dx dy => exact Motion.capped_capped (Motion.ofWords dx dy)
  | reset => rfl

/-- The steps of a call are all those of its displacement. -/
theorem steps_call {tracker : MouseTracker} (tracked : Tracked tracker) (call : Call) :
    (tracker.call call).2 = Motion.allSteps (call.travel tracker) := by
  have whole : (tracker.call call).2 = Motion.steps (call.travel tracker) := by
    cases call with
    | moveTo x y => rfl
    | moveBy dx dy => rfl
    | reset => rfl
  rw [whole, Motion.steps_eq, capped_travel tracked]

/-! ## Calls on words -/

/-- A tracker as a machine holds it. -/
structure Words where
  /-- The estimate to the right. -/
  x : Int32 := 0
  /-- The estimate downwards. -/
  y : Int32 := 0
deriving DecidableEq

namespace Words

/-- The tracker that words are. -/
def tracker (words : Words) : MouseTracker := ⟨Motion.ofWords words.x words.y⟩

/-- Make a call on words: no result where a sum or a difference is no word. -/
def call? (words : Words) : Call → Option (Words × List MotionStep)
  | .moveTo x y => do
    let x := Word.clamp 0 4096 x
    let y := Word.clamp 0 4096 y
    let steps ← Motion.stepsWords? (Word.nearestDifference x words.x)
      (Word.nearestDifference y words.y)
    return (⟨x, y⟩, steps)
  | .moveBy dx dy => do
    let dx := Word.clamp (-8192) 8192 dx
    let dy := Word.clamp (-8192) 8192 dy
    let x ← Word.sum? words.x dx
    let y ← Word.sum? words.y dy
    let steps ← Motion.stepsWords? dx dy
    return (⟨Word.clamp (-4096) 8192 x, Word.clamp (-4096) 8192 y⟩, steps)
  | .reset => do
    let steps ← Motion.stepsWords? (-4096) (-4096)
    return ({}, steps)

/-- The words after calls, if every one of these has a result. -/
def after? (words : Words) : List Call → Option Words
  | [] => some words
  | call :: calls => do
    let (words, _) ← words.call? call
    words.after? calls

/-- A call on words has a result, which is that of the tracker that they are. -/
theorem call?_eq {words : Words} (tracked : Tracked words.tracker) (call : Call) :
    ∃ later, words.call? call = some (later, (words.tracker.call call).2) ∧
      later.tracker = (words.tracker.call call).1 := by
  obtain ⟨lowX, highX, lowY, highY⟩ := tracked
  cases call with
  | moveTo x y =>
    have place (value : Int32) :
        (Word.clamp 0 4096 value).toInt = Text.clamp 0 Motion.extent value.toInt :=
      Word.toInt_clamp (by decide) value
    have apart {value old : Int32} (low : -4096 ≤ old.toInt) (high : old.toInt ≤ 8192) :
        (Word.nearestDifference (Word.clamp 0 4096 value) old).toInt =
          Text.clamp 0 Motion.extent value.toInt - old.toInt := by
      rw [← place]
      apply Word.toInt_nearestDifference <;> rw [place, Text.clamp, Motion.extent] <;> omega
    refine ⟨⟨Word.clamp 0 4096 x, Word.clamp 0 4096 y⟩, ?_, ?_⟩
    · simp only [call?, Motion.stepsWords?_eq, Motion.ofWords, apart lowX highX, apart lowY highY]
      rfl
    · simp only [tracker, Motion.ofWords, place]
      rfl
  | moveBy dx dy =>
    have cut (value : Int32) : (Word.clamp (-8192) 8192 value).toInt =
        Text.clamp (-Motion.travelBound) Motion.travelBound value.toInt :=
      Word.toInt_clamp (by decide) value
    have place (value : Int32) : (Word.clamp (-4096) 8192 value).toInt =
        Text.clamp (-Motion.extent) (2 * Motion.extent) value.toInt :=
      Word.toInt_clamp (by decide) value
    have moved {value old : Int32} (low : -4096 ≤ old.toInt) (high : old.toInt ≤ 8192) :
        ∃ sum, Word.sum? old (Word.clamp (-8192) 8192 value) = some sum ∧ sum.toInt =
          old.toInt + Text.clamp (-Motion.travelBound) Motion.travelBound value.toInt := by
      rw [Word.sum?, cut]
      apply Word.ofInt?_of_le <;> rw [Text.clamp, Motion.travelBound] <;> omega
    obtain ⟨newX, thereX, valueX⟩ := @moved dx words.x lowX highX
    obtain ⟨newY, thereY, valueY⟩ := @moved dy words.y lowY highY
    refine ⟨⟨Word.clamp (-4096) 8192 newX, Word.clamp (-4096) 8192 newY⟩, ?_, ?_⟩
    · simp only [call?, thereX, thereY, Motion.stepsWords?_eq, Motion.ofWords, cut]
      rfl
    · simp only [tracker, Motion.ofWords, place, valueX, valueY]
      rfl
  | reset =>
    refine ⟨{}, ?_, rfl⟩
    simp only [call?, Motion.stepsWords?_eq]
    rfl

/-- Calls on words all have results, and lead to the words of the tracker after them. -/
theorem after?_eq {words : Words} (tracked : Tracked words.tracker) (calls : List Call) :
    ∃ later, words.after? calls = some later ∧ later.tracker = words.tracker.after calls := by
  induction calls generalizing words with
  | nil => exact ⟨words, rfl, rfl⟩
  | cons call calls ih =>
    obtain ⟨next, made, same⟩ := call?_eq tracked call
    have trackedNext : Tracked next.tracker := same ▸ tracked_call words.tracker call
    obtain ⟨later, rest, whole⟩ := ih trackedNext
    refine ⟨later, ?_, ?_⟩
    · rw [after?, made]
      exact rest
    · rw [whole, same]
      rfl

end Words

/-- For any calls of a new tracker and one call after them: on words of 32 bits every call has its
result, which is that of the tracker, no sum or difference being out of range. The estimate is
within one extent around the tracked area. The steps of the call make up exactly its displacement,
each of them moves and is within the bound of a step, there are as many as the longer axis takes,
and no other steps within that bound make up the displacement in fewer. -/
theorem steps_of_calls (calls : List Call) (call : Call) :
    let before := ({} : MouseTracker).after calls
    let travel := call.travel before
    let steps := (before.call call).2
    (∃ words later : Words, Words.after? {} calls = some words ∧ words.tracker = before ∧
      words.call? call = some (later, steps) ∧ later.tracker = (before.call call).1) ∧
    (Tracked before ∧ Tracked (before.call call).1) ∧
    Motion.total steps = travel ∧
    (∀ each ∈ steps, Motion.Telling each) ∧
    steps.length = (max travel.x.natAbs travel.y.natAbs + 126) / 127 ∧
    ∀ others : List MotionStep,
      (∀ each ∈ others, each.dx.toInt.natAbs ≤ 127 ∧ each.dy.toInt.natAbs ≤ 127) →
        Motion.total others = travel → steps.length ≤ others.length := by
  intro before travel steps
  have tracked : Tracked before := tracked_after tracked_new calls
  have all : steps = Motion.allSteps travel := steps_call tracked call
  have start : Tracked (Words.tracker {}) := tracked_new
  obtain ⟨words, reached, same⟩ := Words.after?_eq start calls
  have trackedWords : Tracked words.tracker := same ▸ tracked
  obtain ⟨later, made, after⟩ := Words.call?_eq trackedWords call
  rw [same] at made after
  refine ⟨⟨words, later, reached, same, made, after⟩, ⟨tracked, tracked_call before call⟩, ?_⟩
  rw [all]
  exact ⟨Motion.total_allSteps travel, fun _ => Motion.telling_of_mem_allSteps,
    Motion.length_allSteps travel, fun _ => Motion.length_le⟩

/-- From the estimate that is farthest off, a target takes the most steps. -/
example :
    let far := ({} : MouseTracker).after [.moveBy Int32.minValue Int32.maxValue]
    far.position = ⟨-4096, 8192⟩ ∧ (far.call (.moveTo 4096 0)).2.length = 65 := by
  decide +kernel

end MouseTracker

end Keyfob
