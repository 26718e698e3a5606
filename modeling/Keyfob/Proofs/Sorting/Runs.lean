import Keyfob.Sorting.Runs
import Keyfob.Proofs.Sorting.Merging

/-!
# A list is sorted by its runs

The runs of a list hold its elements, and joining runs keeps them. What a run has to be for this to
end in a sorted list is that it is in order already, or is left to a way of sorting that can be
relied on (`Run.Ready`). In which order the runs are joined makes no difference.
-/
namespace Keyfob.Sorting

variable {α : Type} {before : α → α → Bool} {P : α → Prop} {a b : α} {as : List α}

/-- Every list of some elements is sorted. -/
def IsSort (before : α → α → Bool) (P : α → Prop) (sort : List α → Option (List α)) : Prop :=
  ∀ as : List α, (∀ a ∈ as, P a) → ∃ sorted, sort as = some sorted ∧ Sorts before P sorted as

/-! ## Finding runs -/

/-- Elements that go on in one direction are a run, whatever relation holds between neighbours in
that direction and from each element to all that follow. -/
theorem climb_run {R : α → α → Prop} (down : Bool)
    (step : ∀ {a b}, P a → P b → before b a = down → R a b)
    (trans : ∀ {a b c}, R a b → R b c → R a c) (isLast : P a) (inside : ∀ x ∈ as, P x) :
    as = (climb before down a as).1 ++ (climb before down a as).2 ∧
      (a :: (climb before down a as).1).Pairwise R := by
  induction as generalizing a with
  | nil => exact ⟨rfl, List.pairwise_singleton R a⟩
  | cons b as ih =>
    obtain ⟨isNext, insideLater⟩ := List.forall_mem_cons.mp inside
    rw [climb]
    split
    · next onward =>
      obtain ⟨divided, later⟩ := ih isNext insideLater
      have next := step isLast isNext onward
      refine ⟨congrArg (b :: ·) divided, List.pairwise_cons.mpr ⟨fun x listed => ?_, later⟩⟩
      obtain rfl | among := List.mem_cons.mp listed
      · exact next
      · exact trans next ((List.pairwise_cons.mp later).1 x among)
    · exact ⟨rfl, List.pairwise_singleton R a⟩

/-- A natural run is sorted, and takes an element where there is one. -/
theorem naturalRun_sorts (orders : Orders before P) (inside : ∀ a ∈ as, P a) :
    ∃ stretch, as = stretch ++ (naturalRun before as).2 ∧
      Sorts before P (naturalRun before as).1 stretch ∧ (as ≠ [] → stretch ≠ []) := by
  match as, inside with
  | [], _ => exact ⟨[], rfl, ⟨inOrder_nil, List.Perm.refl _⟩, id⟩
  | [a], inside =>
    exact ⟨[a], rfl, ⟨⟨inside, List.pairwise_singleton _ a⟩, List.Perm.refl _⟩, nofun⟩
  | a :: b :: as, inside =>
    obtain ⟨isFirst, insideLater⟩ := List.forall_mem_cons.mp inside
    rw [naturalRun]
    -- The second element goes on from the first in the direction that it decides.
    have onward (down : Bool) (same : before b a = down) : climb before down a (b :: as) =
        (b :: (climb before down b as).1, (climb before down b as).2) := by
      rw [climb, if_pos same]
    cases direction : before b a with
    | true =>
      obtain ⟨divided, falling⟩ := climb_run (R := NotAfter (fun a b => before b a) P) true
        (fun isX isY ahead => (orders.of_before isY isX ahead).flip) orders.flip.trans isFirst
        insideLater
      rw [onward true direction] at divided falling
      have whole := congrArg (a :: ·) divided
      refine ⟨a :: b :: (climb before true b as).1, whole, ?_, nofun⟩
      exact Sorts.of_pairwise (fun x listed => inside x (whole ▸ List.mem_append_left _ listed))
        (List.reverse_perm _) (pairwise_reverse falling)
    | false =>
      obtain ⟨divided, rising⟩ := climb_run (R := NotAfter before P) false
        (fun isX isY level => ⟨isX, isY, level⟩) orders.trans isFirst insideLater
      rw [onward false direction] at divided rising
      have whole := congrArg (a :: ·) divided
      refine ⟨a :: b :: (climb before false b as).1, whole, ?_, nofun⟩
      exact Sorts.of_pairwise (fun x listed => inside x (whole ▸ List.mem_append_left _ listed))
        (List.Perm.refl _) rising

section

variable {finish : List α → Option (List α)} {run left right : Run α} {atOnce : Bool}

/-- A run of some elements can be brought in order: it is in order already, or what is left to be
sorted later can be sorted then. -/
structure Run.Ready (before : α → α → Bool) (P : α → Prop) (finish : List α → Option (List α))
    (run : Run α) : Prop where
  /-- The run is of elements that the order is about. -/
  inside : ∀ a ∈ run.elements, P a
  /-- A run that is said to be in order is. -/
  sorted : run.isSorted = true → run.elements.Pairwise (NotAfter before P)
  /-- A run that is not in order is sorted later. -/
  later : run.isSorted = false → IsSort before P finish

/-- The first run of a list is ready, where runs are left for later only if they are sorted then,
and it takes an element. -/
theorem nextRun?_ready (orders : Orders before P) (length : Nat)
    (later : atOnce = false → IsSort before P finish)
    (inside : ∀ a ∈ as, P a) (some : as ≠ []) :
    ∃ run rest, nextRun? before length atOnce as = .some (run, rest) ∧
      run.Ready before P finish ∧ (run.elements ++ rest).Perm as ∧ rest.length < as.length := by
  obtain ⟨stretch, divided, sorts, taken⟩ := naturalRun_sorts orders inside
  have positive : 0 < as.length := List.length_pos_iff.mpr some
  have insideTake (count : Nat) : ∀ a ∈ as.take count, P a :=
    fun a listed => inside a (List.mem_of_mem_take listed)
  unfold nextRun?
  generalize naturalRun before as = natural at divided sorts ⊢
  obtain ⟨natural, rest⟩ := natural
  dsimp only at divided sorts ⊢
  split
  · refine ⟨_, _, rfl, ⟨sorts.inside, fun _ => sorts.pairwise, nofun⟩, ?_, ?_⟩
    · rw [divided]
      exact sorts.perm.append_right rest
    · have lengths := congrArg List.length divided
      have taken := List.length_pos_iff.mpr (taken some)
      rw [List.length_append] at lengths
      omega
  · next short =>
    split
    · obtain ⟨sorted, result, sorts⟩ := halves?_sorts orders (insideTake shortLength)
      rw [result]
      refine ⟨_, _, rfl, ⟨sorts.inside, fun _ => sorts.pairwise, nofun⟩, ?_, ?_⟩
      · refine (sorts.perm.append_right _).trans ?_
        rw [List.take_append_drop]
      · rw [List.length_drop, shortLength]
        omega
    · next notAtOnce =>
      refine ⟨_, _, rfl, ⟨insideTake length, nofun, fun _ => later (eq_false_of_ne_true notAtOnce)⟩,
        ?_, ?_⟩
      · rw [List.take_append_drop]
      · rw [List.length_drop]
        omega

/-- The runs of a list are ready and hold its elements. -/
theorem runs?_ready (orders : Orders before P) (length : Nat)
    (later : atOnce = false → IsSort before P finish) {count : Nat} (inside : ∀ a ∈ as, P a)
    (enough : as.length ≤ count) :
    ∃ runs, runs? before length atOnce count as = some runs ∧
      (∀ run ∈ runs, run.Ready before P finish) ∧ (runs.flatMap Run.elements).Perm as := by
  induction count generalizing as with
  | zero =>
    obtain rfl := List.eq_nil_of_length_eq_zero (Nat.le_zero.mp enough)
    exact ⟨[], rfl, nofun, List.Perm.refl _⟩
  | succ count ih =>
    cases as with
    | nil => exact ⟨[], rfl, nofun, List.Perm.refl _⟩
    | cons a as =>
      obtain ⟨run, rest, next, ready, perm, shorter⟩ :=
        nextRun?_ready orders length later inside (List.cons_ne_nil a as)
      have insideRest : ∀ x ∈ rest, P x :=
        fun x listed => inside x (perm.mem_iff.mp (List.mem_append_right _ listed))
      obtain ⟨runs, others, allReady, restPerm⟩ :=
        ih insideRest (Nat.le_of_lt_succ (Nat.lt_of_lt_of_le shorter enough))
      refine ⟨run :: runs, ?_, List.forall_mem_cons.mpr ⟨ready, allReady⟩, ?_⟩
      · rw [runs?, next]
        · show (runs? before length atOnce count rest).bind (fun runs => some (run :: runs)) = _
          rw [others, Option.bind_some]
        · nofun
      · exact (restPerm.append_left run.elements).trans perm

/-! ## Joining runs -/

/-- A run that is ready is brought in order. -/
theorem Run.Ready.settled (ready : run.Ready before P finish) :
    ∃ sorted, (if run.isSorted then some run.elements else finish run.elements) = some sorted ∧
      Sorts before P sorted run.elements := by
  split
  · next isSorted =>
    exact ⟨run.elements, rfl, ⟨ready.inside, ready.sorted isSorted⟩, List.Perm.refl _⟩
  · next unsorted => exact ready.later (eq_false_of_ne_true unsorted) run.elements ready.inside

/-- Two neighbouring runs are joined. -/
theorem Run.Ready.join? (orders : Orders before P) (readyLeft : left.Ready before P finish)
    (readyRight : right.Ready before P finish) :
    ∃ run, left.join? before finish right = some run ∧ run.Ready before P finish ∧
      run.elements.Perm (left.elements ++ right.elements) := by
  have inside : ∀ a ∈ left.elements ++ right.elements, P a :=
    List.forall_mem_append.mpr ⟨readyLeft.inside, readyRight.inside⟩
  unfold Run.join?
  dsimp only
  split
  · obtain ⟨sortedLeft, settledLeft, sortsLeft⟩ := readyLeft.settled
    obtain ⟨sortedRight, settledRight, sortsRight⟩ := readyRight.settled
    rw [settledLeft, settledRight]
    have sorts := (merge_sorts orders sortsLeft.toInOrder sortsRight.toInOrder).of_perm
      (sortsLeft.perm.append sortsRight.perm)
    exact ⟨_, rfl, ⟨sorts.inside, fun _ => sorts.pairwise, nofun⟩, sorts.perm⟩
  · next unsorted =>
    have leftUnsorted : left.isSorted = false := by
      rw [Bool.or_eq_true, not_or] at unsorted
      exact eq_false_of_ne_true unsorted.1
    exact ⟨_, rfl, ⟨inside, nofun, fun _ => readyLeft.later leftUnsorted⟩, List.Perm.refl _⟩

/-- The elements of the runs that wait. -/
def pending (waiting : List (Run α × Nat)) : List α :=
  waiting.flatMap fun entry => entry.1.elements

/-- Runs that wait are joined with the one in hand. None waits any longer where all part from what
follows no higher than at the depth that is asked for. -/
theorem gather?_ready (orders : Orders before P) (depth : Nat) {waiting : List (Run α × Nat)}
    (readyAll : ∀ entry ∈ waiting, entry.1.Ready before P finish)
    (ready : run.Ready before P finish) :
    ∃ waiting' run', gather? before finish depth waiting run = some (waiting', run') ∧
      (∀ entry ∈ waiting', entry.1.Ready before P finish) ∧ run'.Ready before P finish ∧
      (pending waiting' ++ run'.elements).Perm (pending waiting ++ run.elements) ∧
      (depth = 0 → waiting' = []) := by
  induction waiting generalizing run with
  | nil => exact ⟨[], run, rfl, nofun, ready, List.Perm.refl _, fun _ => rfl⟩
  | cons entry waiting ih =>
    obtain ⟨readyLeft, readyLater⟩ := List.forall_mem_cons.mp readyAll
    obtain ⟨left, parted⟩ := entry
    rw [gather?]
    split
    · obtain ⟨joined, result, readyJoined, perm⟩ := readyLeft.join? orders ready
      obtain ⟨waiting', run', gathered, readyAll', ready', perm', all⟩ := ih readyLater readyJoined
      refine ⟨waiting', run', ?_, readyAll', ready', perm'.trans ?_, all⟩
      · rw [result]
        exact gathered
      · refine (perm.append_left (pending waiting)).trans ?_
        rw [← List.append_assoc]
        exact List.perm_append_comm.append_right run.elements
    · next higher =>
      refine ⟨_, run, rfl, readyAll, ready, List.Perm.refl _, fun zero => ?_⟩
      rw [zero] at higher
      exact absurd (Nat.zero_le parted) higher

/-- All runs of a list are joined into one. -/
theorem joinAll?_ready (orders : Orders before P) (total stop : Nat) {later : List (Run α)}
    {waiting : List (Run α × Nat)} (readyAll : ∀ entry ∈ waiting, entry.1.Ready before P finish)
    (ready : run.Ready before P finish) (readyLater : ∀ next ∈ later, next.Ready before P finish) :
    ∃ whole, joinAll? before finish total waiting stop run later = some whole ∧
      whole.Ready before P finish ∧
      whole.elements.Perm (pending waiting ++ run.elements ++ later.flatMap Run.elements) := by
  induction later generalizing waiting stop run with
  | nil =>
    obtain ⟨waiting', whole, gathered, -, readyWhole, perm, all⟩ :=
      gather?_ready orders 0 readyAll ready
    obtain rfl := all rfl
    refine ⟨whole, ?_, readyWhole, ?_⟩
    · rw [joinAll?, gathered]
      rfl
    · rw [List.flatMap_nil, List.append_nil]
      exact perm
  | cons next later ih =>
    obtain ⟨readyNext, readyLater⟩ := List.forall_mem_cons.mp readyLater
    rw [joinAll?]
    dsimp only
    obtain ⟨waiting', run', gathered, readyAll', ready', perm, -⟩ := gather?_ready orders
      (depth total (stop - run.elements.length) stop (stop + next.elements.length)) readyAll ready
    have readyPending (parted : Nat) :
        ∀ entry ∈ (run', parted) :: waiting', entry.1.Ready before P finish :=
      List.forall_mem_cons.mpr ⟨ready', readyAll'⟩
    obtain ⟨whole, result, readyWhole, wholePerm⟩ := ih (stop + next.elements.length)
      (readyPending _) readyNext readyLater
    refine ⟨whole, ?_, readyWhole, wholePerm.trans ?_⟩
    · rw [gathered]
      exact result
    · have turned : (run'.elements ++ pending waiting').Perm (pending waiting ++ run.elements) :=
        List.perm_append_comm.trans perm
      rw [List.flatMap_cons, ← List.append_assoc]
      exact (turned.append_right next.elements).append_right (later.flatMap Run.elements)

end

/-- A list is sorted by its runs where runs are sorted at once, or those that are left for later can
be sorted. -/
theorem byRuns?_isSort (orders : Orders before P) {finish : List α → Option (List α)}
    {atOnce : Bool} (later : atOnce = false → IsSort before P finish) :
    IsSort before P (byRuns? before finish atOnce) := by
  intro as inside
  obtain ⟨runs, found, ready, perm⟩ := runs?_ready orders (runLength as.length) later
    inside (Nat.le_refl _)
  unfold byRuns?
  rw [found]
  cases runs with
  | nil => exact ⟨[], rfl, inOrder_nil, perm⟩
  | cons first runs =>
    obtain ⟨readyFirst, readyLater⟩ := List.forall_mem_cons.mp ready
    have noneWaits : ∀ entry ∈ ([] : List (Run α × Nat)), entry.1.Ready before P finish := nofun
    obtain ⟨whole, joined, readyWhole, wholePerm⟩ := joinAll?_ready orders as.length
      first.elements.length noneWaits readyFirst readyLater
    obtain ⟨sorted, settled, sorts⟩ := readyWhole.settled
    refine ⟨sorted, ?_, sorts.of_perm (wholePerm.trans perm)⟩
    show (joinAll? before finish as.length [] first.elements.length first runs).bind _ = _
    rw [joined, Option.bind_some]
    exact settled

end Keyfob.Sorting
