import Keyfob.Hid.Action
import Keyfob.Proofs.Text.Number

/-!
# The steps of a displacement

A displacement is walked in steps that go as far as one report can tell, and what is left after a
step takes one step less (`Motion.stepCount_left`). So the steps make up the displacement, each of
them moves, and no other steps that reports can tell make it up in fewer (`Motion.length_le`).
-/
namespace Keyfob.Motion

/-! ## One step -/

/-- The part of a displacement that one step walks. -/
def first (travel : Vector2) : Vector2 :=
  ⟨Text.clamp (-stepBound) stepBound travel.x, Text.clamp (-stepBound) stepBound travel.y⟩

/-- The part of a displacement that is left after one step. -/
def left (travel : Vector2) : Vector2 :=
  ⟨travel.x - (first travel).x, travel.y - (first travel).y⟩

/-- One step of a displacement as a report tells it. -/
def step (travel : Vector2) : MotionStep :=
  ⟨Int8.ofInt (first travel).x, Int8.ofInt (first travel).y⟩

/-- A step that a report can tell without its least value, and which moves. -/
structure Telling (step : MotionStep) : Prop where
  /-- The motion to the right is within the bound of a step. -/
  dx : step.dx.toInt.natAbs ≤ 127
  /-- The motion downwards is within the bound of a step. -/
  dy : step.dy.toInt.natAbs ≤ 127
  /-- The step is not empty. -/
  moves : step.dx.toInt ≠ 0 ∨ step.dy.toInt ≠ 0

/-- A step walks no more than its bound on an axis. -/
theorem natAbs_clamp_le (n : Int) : (Text.clamp (-stepBound) stepBound n).natAbs ≤ 127 := by
  rw [Text.clamp, stepBound]
  omega

/-- A step walks nothing on an axis just where nothing is to be walked. -/
theorem clamp_eq_zero_iff {n : Int} : Text.clamp (-stepBound) stepBound n = 0 ↔ n = 0 := by
  rw [Text.clamp, stepBound]
  omega

/-- On an axis a step leaves so much less than there was. -/
theorem natAbs_sub_clamp (n : Int) :
    (n - Text.clamp (-stepBound) stepBound n).natAbs = n.natAbs - 127 := by
  rw [Text.clamp, stepBound]
  omega

/-- A report tells exactly the part of a displacement that its step walks. -/
theorem toInt_step (travel : Vector2) :
    (step travel).dx.toInt = (first travel).x ∧ (step travel).dy.toInt = (first travel).y := by
  have told {part : Int} (bounded : part.natAbs ≤ 127) : (Int8.ofInt part).toInt = part :=
    Int8.toInt_ofInt_of_le (by omega) (by omega)
  exact ⟨told (natAbs_clamp_le travel.x), told (natAbs_clamp_le travel.y)⟩

/-- A displacement is empty where it is so on both axes. -/
theorem ne_origin_iff {travel : Vector2} : travel ≠ ⟨0, 0⟩ ↔ travel.x ≠ 0 ∨ travel.y ≠ 0 := by
  obtain ⟨x, y⟩ := travel
  rw [ne_eq, Vector2.mk.injEq]
  exact Decidable.not_and_iff_not_or_not

/-- Where something is left to walk, a step moves. -/
theorem telling_step {travel : Vector2} (far : travel ≠ ⟨0, 0⟩) : Telling (step travel) := by
  obtain ⟨dx, dy⟩ := toInt_step travel
  refine ⟨dx ▸ natAbs_clamp_le travel.x, dy ▸ natAbs_clamp_le travel.y, ?_⟩
  rw [dx, dy]
  exact (ne_origin_iff.mp far).imp (mt clamp_eq_zero_iff.mp) (mt clamp_eq_zero_iff.mp)

/-- What is left after a step takes one step less. -/
theorem stepCount_left {travel : Vector2} (far : travel ≠ ⟨0, 0⟩) :
    stepCount travel = stepCount (left travel) + 1 := by
  have moved : max travel.x.natAbs travel.y.natAbs ≠ 0 := by
    have some' := ne_origin_iff.mp far
    omega
  have leftX : (left travel).x.natAbs = travel.x.natAbs - 127 := natAbs_sub_clamp travel.x
  have leftY : (left travel).y.natAbs = travel.y.natAbs - 127 := natAbs_sub_clamp travel.y
  rw [stepCount, stepCount, leftX, leftY, Nat.sub_max_sub_right]
  omega

/-! ## All steps -/

/-- What holds when nothing is left to walk, and of a displacement if it holds of what is left after
a step, holds of every displacement. -/
theorem induction_on_left {motive : Vector2 → Prop} (travel : Vector2) (origin : motive ⟨0, 0⟩)
    (walked : ∀ travel, travel ≠ ⟨0, 0⟩ → motive (left travel) → motive travel) :
    motive travel := by
  generalize count : stepCount travel = steps
  induction steps generalizing travel with
  | zero =>
    by_cases far : travel = ⟨0, 0⟩
    · rwa [far]
    · rw [stepCount_left far] at count
      cases count
  | succ steps ih =>
    by_cases far : travel = ⟨0, 0⟩
    · rwa [far]
    · rw [stepCount_left far] at count
      exact walked travel far (ih (left travel) (Nat.succ.inj count))

/-- All steps of a displacement. -/
def allSteps (travel : Vector2) : List MotionStep := walk (stepCount travel) travel

/-- The steps of a move are all those of the displacement that it may travel. -/
theorem steps_eq (travel : Vector2) : steps travel = allSteps (capped travel) := rfl

/-- A displacement is cut down once. -/
theorem capped_capped (travel : Vector2) : capped (capped travel) = capped travel := by
  simp only [capped, Text.clamp_clamp (show -travelBound ≤ travelBound by decide)]

/-- Where something is left to walk, there is one step and then those of what it leaves. -/
theorem allSteps_left {travel : Vector2} (far : travel ≠ ⟨0, 0⟩) :
    allSteps travel = step travel :: allSteps (left travel) := by
  rw [allSteps, stepCount_left far]
  rfl

/-- There are as many steps as are counted. -/
theorem length_allSteps (travel : Vector2) : (allSteps travel).length = stepCount travel := by
  induction travel using induction_on_left with
  | origin => rfl
  | walked travel far ih => rw [allSteps_left far, List.length_cons, ih, stepCount_left far]

/-- Every step moves. -/
theorem telling_of_mem_allSteps {travel : Vector2} {each : MotionStep}
    (listed : each ∈ allSteps travel) : Telling each := by
  induction travel using induction_on_left with
  | origin => cases listed
  | walked travel far ih =>
    rw [allSteps_left far] at listed
    cases List.mem_cons.mp listed with
    | inl same => exact same ▸ telling_step far
    | inr later => exact ih later

/-! ## What steps make up -/

/-- The displacement that steps make up. -/
def total (steps : List MotionStep) : Vector2 := Action.motion (steps.map .move)

/-- One step more in front. -/
theorem total_cons (each : MotionStep) (steps : List MotionStep) :
    total (each :: steps) =
      ⟨each.dx.toInt + (total steps).x, each.dy.toInt + (total steps).y⟩ := by
  have whole (steps : List MotionStep) : total steps = steps.foldl
      (fun sum each => (⟨sum.x + each.dx.toInt, sum.y + each.dy.toInt⟩ : Vector2)) ⟨0, 0⟩ :=
    List.foldl_map
  have added (sum : Vector2) : steps.foldl
      (fun sum each => (⟨sum.x + each.dx.toInt, sum.y + each.dy.toInt⟩ : Vector2)) sum =
        ⟨sum.x + (total steps).x, sum.y + (total steps).y⟩ := by
    rw [whole]
    induction steps generalizing sum with
    | nil => simp only [List.foldl_nil, Int.add_zero]
    | cons next steps ih =>
      rw [List.foldl_cons, ih, List.foldl_cons, ih ⟨0 + _, 0 + _⟩]
      simp only [Int.add_assoc, Int.zero_add]
  rw [whole, List.foldl_cons, added]
  simp only [Int.zero_add]

/-- All steps of a displacement make it up. -/
theorem total_allSteps (travel : Vector2) : total (allSteps travel) = travel := by
  induction travel using induction_on_left with
  | origin => rfl
  | walked travel far ih =>
    obtain ⟨dx, dy⟩ := toInt_step travel
    obtain ⟨x, y⟩ := travel
    rw [allSteps_left far, total_cons, ih, dx, dy]
    simp only [left, Vector2.mk.injEq]
    omega

/-- On an axis, one step and then a way on from where it leaves off go as far as the whole way. -/
theorem clamp_add_clamp {reach : Int} (onward : 0 ≤ reach) (distance : Int) :
    Text.clamp (-127) 127 distance +
        Text.clamp (-reach) reach (distance - Text.clamp (-127) 127 distance) =
      Text.clamp (-(reach + 127)) (reach + 127) distance := by
  have one : distance.natAbs ≤ 127 ∧ Text.clamp (-127) 127 distance = distance ∨
      127 ≤ distance ∧ Text.clamp (-127) 127 distance = 127 ∨
      distance ≤ -127 ∧ Text.clamp (-127) 127 distance = -127 := by
    rw [Text.clamp]
    omega
  rcases one with ⟨near, all⟩ | ⟨far, right⟩ | ⟨far, left⟩
  · rw [all, Int.sub_self, Text.clamp, Text.clamp]
    omega
  · rw [right, Text.clamp, Text.clamp]
    omega
  · rw [left, Text.clamp, Text.clamp]
    omega

/-- The first steps of a displacement walk each axis as far as so many steps go. -/
theorem total_take (travel : Vector2) (n : Nat) :
    total ((allSteps travel).take n) =
      ⟨Text.clamp (-(127 * n)) (127 * n) travel.x, Text.clamp (-(127 * n)) (127 * n) travel.y⟩ := by
  have still {reach : Int} (onward : 0 ≤ reach) : Text.clamp (-reach) reach 0 = 0 := by
    rw [Text.clamp]
    omega
  have none' (distance : Int) : Text.clamp (-(127 * (0 : Nat))) (127 * (0 : Nat)) distance = 0 := by
    rw [Text.clamp]
    omega
  induction travel using induction_on_left generalizing n with
  | origin =>
    rw [still (by omega), show allSteps ⟨0, 0⟩ = [] from rfl, List.take_nil]
    rfl
  | walked travel far ih =>
    cases n with
    | zero =>
      rw [none', none', List.take_zero]
      rfl
    | succ n =>
      obtain ⟨dx, dy⟩ := toInt_step travel
      have further : 127 * ((n + 1 : Nat) : Int) = 127 * n + 127 := by omega
      have onward : 0 ≤ (127 * n : Int) := by omega
      rw [allSteps_left far, List.take_succ_cons, total_cons, ih, dx, dy, further,
        ← clamp_add_clamp onward, ← clamp_add_clamp onward]
      rfl

/-- Steps within the bound make up no more than so many of them can. -/
theorem natAbs_total_le {steps : List MotionStep}
    (bounded : ∀ each ∈ steps, each.dx.toInt.natAbs ≤ 127 ∧ each.dy.toInt.natAbs ≤ 127) :
    max (total steps).x.natAbs (total steps).y.natAbs ≤ 127 * steps.length := by
  induction steps with
  | nil => exact Nat.le_refl 0
  | cons each steps ih =>
    obtain ⟨first, later⟩ := List.forall_mem_cons.mp bounded
    obtain ⟨restX, restY⟩ := Nat.max_le.mp (ih later)
    rw [total_cons, List.length_cons, Nat.max_le]
    dsimp only
    constructor <;> omega

/-- No other steps within the bound make up the same displacement in fewer. -/
theorem length_le {travel : Vector2} {others : List MotionStep}
    (bounded : ∀ each ∈ others, each.dx.toInt.natAbs ≤ 127 ∧ each.dy.toInt.natAbs ≤ 127)
    (same : total others = travel) : (allSteps travel).length ≤ others.length := by
  have reach := natAbs_total_le bounded
  rw [same] at reach
  rw [length_allSteps, stepCount]
  omega

end Keyfob.Motion
