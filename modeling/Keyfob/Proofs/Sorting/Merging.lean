import Keyfob.Proofs.Sorting.Inserting

/-!
# Sorted lists are merged

Two sorted lists are merged from the front, from the back, or from both ends at once. A merge from
both ends takes no element twice where the answers fit an order (`Front.meet`), so it does have a
result, and a short list is sorted by its halves.
-/
namespace Keyfob.Sorting

variable {α : Type} {before : α → α → Bool} {P : α → Prop}
  {as bs taken restFirst restSecond first second : List α}

/-! ## Two sorted lists -/

/-- What is taken from the fronts of two lists: of each its first elements, sorted together, of
which none comes after what is left. Those of the first list may stand level with what is left of
the second, and those of the second list come before what is left of the first. -/
structure Front (before : α → α → Bool) (P : α → Prop)
    (as bs taken restFirst restSecond first second : List α) : Prop where
  /-- The first list is divided. -/
  left : as = first ++ restFirst
  /-- The second list is divided. -/
  right : bs = second ++ restSecond
  /-- The elements that are taken are those of the two fronts. -/
  perm : taken.Perm (first ++ second)
  /-- They stand in order. -/
  pairwise : taken.Pairwise (NotAfter before P)
  /-- What is left of the second list does not come before what is taken of the first. -/
  level : ∀ x ∈ first, ∀ y ∈ restSecond, before y x = false
  /-- What is taken of the second list comes before what is left of the first. -/
  strict : ∀ y ∈ second, ∀ x ∈ restFirst, before y x = true

/-- Elements are taken from the fronts of two sorted lists in order. -/
theorem takeFront_front (orders : Orders before P) (count : Nat) (orderedA : InOrder before P as)
    (orderedB : InOrder before P bs) :
    ∃ first second, Front before P as bs (takeFront before count as bs).1
      (takeFront before count as bs).2.1 (takeFront before count as bs).2.2 first second := by
  induction count generalizing as bs with
  | zero => exact ⟨[], [], rfl, rfl, List.Perm.refl _, List.Pairwise.nil, nofun, nofun⟩
  | succ count ih =>
    cases as with
    | nil => exact ⟨[], [], rfl, rfl, List.Perm.refl _, List.Pairwise.nil, nofun, nofun⟩
    | cons a as =>
      cases bs with
      | nil => exact ⟨[], [], rfl, rfl, List.Perm.refl _, List.Pairwise.nil, nofun, nofun⟩
      | cons b bs =>
        obtain ⟨isA, insideA⟩ := List.forall_mem_cons.mp orderedA.inside
        obtain ⟨isB, insideB⟩ := List.forall_mem_cons.mp orderedB.inside
        obtain ⟨leastA, sortedA⟩ := List.pairwise_cons.mp orderedA.pairwise
        obtain ⟨leastB, sortedB⟩ := List.pairwise_cons.mp orderedB.pairwise
        rw [takeFront]
        split
        · next ahead =>
          obtain ⟨first, second, front⟩ := ih orderedA ⟨insideB, sortedB⟩
          -- The element that is taken comes before all of the first list.
          have strictly : ∀ x ∈ a :: as, before b x = true := by
            intro x listed
            obtain rfl | among := List.mem_cons.mp listed
            · exact ahead
            · exact orders.before_of_before isB ahead (leastA x among)
          refine ⟨first, b :: second, front.left, congrArg (b :: ·) front.right,
            (front.perm.cons b).trans List.perm_middle.symm, ?_, front.level, ?_⟩
          · refine List.pairwise_cons.mpr ⟨fun x listed => ?_, front.pairwise⟩
            obtain inFirst | inSecond := List.mem_append.mp (front.perm.mem_iff.mp listed)
            · have among : x ∈ a :: as := front.left ▸ List.mem_append_left _ inFirst
              exact orders.of_before isB (orderedA.inside x among) (strictly x among)
            · exact leastB x (front.right ▸ List.mem_append_left _ inSecond)
          · refine List.forall_mem_cons.mpr ⟨fun x listed => ?_, front.strict⟩
            exact strictly x (front.left ▸ List.mem_append_right _ listed)
        · next behind =>
          obtain ⟨first, second, front⟩ := ih ⟨insideA, sortedA⟩ orderedB
          -- No element of the second list comes before the one that is taken.
          have level : NotAfter before P a b := ⟨isA, isB, eq_false_of_ne_true behind⟩
          have levels : ∀ y ∈ b :: bs, NotAfter before P a y := by
            intro y listed
            obtain rfl | among := List.mem_cons.mp listed
            · exact level
            · exact orders.trans level (leastB y among)
          refine ⟨a :: first, second, congrArg (a :: ·) front.left, front.right,
            front.perm.cons a, ?_, ?_, front.strict⟩
          · refine List.pairwise_cons.mpr ⟨fun x listed => ?_, front.pairwise⟩
            obtain inFirst | inSecond := List.mem_append.mp (front.perm.mem_iff.mp listed)
            · exact leastA x (front.left ▸ List.mem_append_left _ inFirst)
            · exact levels x (front.right ▸ List.mem_append_left _ inSecond)
          · refine List.forall_mem_cons.mpr ⟨fun y listed => ?_, front.level⟩
            exact (levels y (front.right ▸ List.mem_append_right _ listed)).answer

/-- As many elements are taken as were asked for where both lists have as many. -/
theorem length_takeFront (before : α → α → Bool) {count : Nat} (enoughA : count ≤ as.length)
    (enoughB : count ≤ bs.length) : (takeFront before count as bs).1.length = count := by
  induction count generalizing as bs with
  | zero => rfl
  | succ count ih =>
    cases as with
    | nil => cases enoughA
    | cons a as =>
      cases bs with
      | nil => cases enoughB
      | cons b bs =>
        rw [takeFront]
        split
        · exact congrArg Nat.succ (ih (Nat.le_of_succ_le enoughA) (Nat.le_of_succ_le_succ enoughB))
        · exact congrArg Nat.succ (ih (Nat.le_of_succ_le_succ enoughA) (Nat.le_of_succ_le enoughB))

/-- Taking as many elements as there are uses up one of two lists. -/
theorem rest_takeFront (before : α → α → Bool) {count : Nat}
    (all : as.length + bs.length ≤ count) :
    (takeFront before count as bs).2.1 = [] ∨ (takeFront before count as bs).2.2 = [] := by
  induction count generalizing as bs with
  | zero =>
    refine .inl (show as = [] from List.eq_nil_of_length_eq_zero ?_)
    omega
  | succ count ih =>
    cases as with
    | nil => exact .inl rfl
    | cons a as =>
      cases bs with
      | nil => exact .inr rfl
      | cons b bs =>
        simp only [List.length_cons] at all
        rw [takeFront]
        split
        · refine ih ?_
          rw [List.length_cons]
          omega
        · refine ih ?_
          rw [List.length_cons]
          omega

/-- What is taken does not come after what is left. -/
theorem Front.notAfter (orders : Orders before P)
    (front : Front before P as bs taken restFirst restSecond first second)
    (orderedA : InOrder before P as) (orderedB : InOrder before P bs) :
    ∀ x ∈ taken, ∀ y ∈ restFirst ++ restSecond, NotAfter before P x y := by
  intro x isTaken y isLeft
  obtain ⟨dividedA, dividedB, perm, -, level, strict⟩ := front
  subst dividedA dividedB
  obtain inFirst | inSecond := List.mem_append.mp (perm.mem_iff.mp isTaken)
  · obtain leftA | leftB := List.mem_append.mp isLeft
    · exact (List.pairwise_append.mp orderedA.pairwise).2.2 x inFirst y leftA
    · exact ⟨orderedA.inside x (List.mem_append_left _ inFirst),
        orderedB.inside y (List.mem_append_right _ leftB), level x inFirst y leftB⟩
  · obtain leftA | leftB := List.mem_append.mp isLeft
    · exact orders.of_before (orderedB.inside x (List.mem_append_left _ inSecond))
        (orderedA.inside y (List.mem_append_right _ leftA)) (strict x inSecond y leftA)
    · exact (List.pairwise_append.mp orderedB.pairwise).2.2 x inSecond y leftB

/-- Two sorted lists are merged by taking all of both from the front. -/
theorem takeFront_sorts (orders : Orders before P) {count : Nat}
    (all : as.length + bs.length ≤ count) (orderedA : InOrder before P as)
    (orderedB : InOrder before P bs) :
    Sorts before P ((takeFront before count as bs).1 ++ (takeFront before count as bs).2.1 ++
      (takeFront before count as bs).2.2) (as ++ bs) := by
  obtain ⟨first, second, front⟩ := takeFront_front orders count orderedA orderedB
  have notAfter := front.notAfter orders orderedA orderedB
  have rest := rest_takeFront before all
  generalize takeFront before count as bs = outcome at front notAfter rest ⊢
  obtain ⟨taken, restFirst, restSecond⟩ := outcome
  dsimp only at front notAfter rest ⊢
  have inside := List.forall_mem_append.mpr ⟨orderedA.inside, orderedB.inside⟩
  obtain ⟨rfl, rfl, perm, pairwise, -, -⟩ := front
  rw [List.append_assoc]
  refine Sorts.of_pairwise inside ?_ (List.pairwise_append.mpr ⟨pairwise, ?_, notAfter⟩)
  · refine (perm.append_right _).trans ?_
    rw [List.append_assoc, List.append_assoc]
    refine List.Perm.append_left first ?_
    rw [← List.append_assoc, ← List.append_assoc]
    exact List.perm_append_comm.append_right restSecond
  · obtain rfl | rfl := rest
    · exact (List.pairwise_append.mp orderedB.pairwise).2.1
    · rw [List.append_nil]
      exact (List.pairwise_append.mp orderedA.pairwise).2.1

/-- Two sorted lists are merged. -/
theorem merge_sorts (orders : Orders before P) (orderedA : InOrder before P as)
    (orderedB : InOrder before P bs) : Sorts before P (merge before as bs) (as ++ bs) := by
  unfold merge
  dsimp only
  split
  · exact takeFront_sorts orders (Nat.le_refl _) orderedA orderedB
  · have all : bs.reverse.length + as.reverse.length ≤ as.length + bs.length := by
      rw [List.length_reverse, List.length_reverse]
      omega
    refine (takeFront_sorts orders.flip all orderedB.flip orderedA.flip).of_flip.of_perm ?_
    rw [← List.reverse_append]
    exact List.reverse_perm _

/-! ## Both ends at once -/

/-- Of two divisions of a list, the one with the shorter front has the elements in between at the
front of its rest. -/
theorem exists_between {front rest front' rest' : List α}
    (same : front ++ rest = front' ++ rest') (short : front.length ≤ front'.length) :
    ∃ between, front' = front ++ between ∧ rest = between ++ rest' := by
  have frontPrefix : front <+: front' ++ rest' := ⟨rest, same⟩
  obtain ⟨between, rfl⟩ :=
    List.prefix_of_prefix_length_le frontPrefix (List.prefix_append front' rest') short
  refine ⟨between, rfl, ?_⟩
  rw [List.append_assoc] at same
  exact List.append_cancel_left same

/-- Two divisions of a list share an element where the front of one is longer than that of the
other: it is in the longer front and in the longer rest. -/
theorem exists_mem_both {front rest front' rest' : List α}
    (same : front ++ rest = front' ++ rest') (short : front.length < front'.length) :
    ∃ x, x ∈ rest ∧ x ∈ front' := by
  obtain ⟨between, rfl, rfl⟩ := exists_between same (Nat.le_of_lt short)
  cases between with
  | nil =>
    rw [List.append_nil] at short
    exact absurd short (Nat.lt_irrefl _)
  | cons x between =>
    exact ⟨x, List.mem_cons_self, List.mem_append_right _ List.mem_cons_self⟩

/-- What is taken from the backs of two lists, given with the last element first. -/
abbrev Back (before : α → α → Bool) (P : α → Prop)
    (as bs taken restFirst restSecond first second : List α) : Prop :=
  Front (fun a b => before b a) P bs.reverse as.reverse taken restSecond restFirst second first

/-- The first list is divided into what is left of it and what is taken from its back. -/
theorem Back.left (back : Back before P as bs taken restFirst restSecond first second) :
    as = restFirst.reverse ++ first.reverse := by
  rw [← List.reverse_append, ← Front.right back, List.reverse_reverse]

/-- The second list is divided into what is left of it and what is taken from its back. -/
theorem Back.right (back : Back before P as bs taken restFirst restSecond first second) :
    bs = restSecond.reverse ++ second.reverse := by
  rw [← List.reverse_append, ← Front.left back, List.reverse_reverse]

section

variable {taken' restFirst' restSecond' first' second' : List α}

/-- No element is taken from both ends of two lists where as many are taken from each end as the
first list has, and the second list has no fewer. Otherwise one list would have an element that is
taken twice and the other one that is never taken, and these would stand in no order. -/
theorem Front.meet (front : Front before P as bs taken restFirst restSecond first second)
    (back : Back before P as bs taken' restFirst' restSecond' first' second')
    (count : taken.length = as.length) (count' : taken'.length = as.length)
    (short : as.length ≤ bs.length) :
    first.length ≤ restFirst'.reverse.length ∧ second.length ≤ restSecond'.reverse.length := by
  have dividedA := back.left.symm.trans front.left
  have dividedB := back.right.symm.trans front.right
  have lengthA := congrArg List.length front.left
  have lengthB := congrArg List.length front.right
  have lengthA' := congrArg List.length back.left
  have lengthB' := congrArg List.length back.right
  have total := front.perm.length_eq
  have total' := Front.perm back |>.length_eq
  simp only [List.length_append, List.length_reverse]
    at lengthA lengthB lengthA' lengthB' total total'
  constructor
  · refine Nat.le_of_not_lt fun twice => ?_
    obtain ⟨x, atBack, atFront⟩ := exists_mem_both dividedA twice
    have never : second.length < restSecond'.reverse.length := by
      rw [List.length_reverse] at twice ⊢
      omega
    obtain ⟨y, leftFront, leftBack⟩ := exists_mem_both dividedB.symm never
    have strict := Front.strict back x (List.mem_reverse.mp atBack) y (List.mem_reverse.mp leftBack)
    rw [front.level x atFront y leftFront] at strict
    cases strict
  · refine Nat.le_of_not_lt fun twice => ?_
    obtain ⟨y, atBack, atFront⟩ := exists_mem_both dividedB twice
    have never : first.length < restFirst'.reverse.length := by
      rw [List.length_reverse] at twice ⊢
      omega
    obtain ⟨x, leftFront, leftBack⟩ := exists_mem_both dividedA.symm never
    have strict := front.strict y atFront x leftFront
    rw [Front.level back y (List.mem_reverse.mp atBack) x (List.mem_reverse.mp leftBack)] at strict
    cases strict

/-- What is taken from the fronts and the backs of two sorted lists stands in order with what is
left between, where that is one element at most. -/
theorem Front.sorts_between (orders : Orders before P) {betweenA betweenB : List α}
    (front : Front before P as bs taken (betweenA ++ first'.reverse)
      (betweenB ++ second'.reverse) first second)
    (back : Back before P as bs taken' restFirst' restSecond' first' second')
    (restA : restFirst'.reverse = first ++ betweenA)
    (restB : restSecond'.reverse = second ++ betweenB)
    (few : (betweenA ++ betweenB).length ≤ 1) (orderedA : InOrder before P as)
    (orderedB : InOrder before P bs) :
    Sorts before P (taken ++ betweenA ++ betweenB ++ taken'.reverse) (as ++ bs) := by
  have fromFront := front.notAfter orders orderedA orderedB
  have fromBack := Front.notAfter orders.flip back orderedB.flip orderedA.flip
  have perm' : taken'.Perm (second' ++ first') := Front.perm back
  have single : (betweenA ++ betweenB).Pairwise (NotAfter before P) := by
    generalize betweenA ++ betweenB = between at few
    match between, few with
    | [], _ => exact List.Pairwise.nil
    | [x], _ => exact List.pairwise_singleton _ x
  rw [List.append_assoc taken, List.append_assoc taken]
  refine Sorts.of_pairwise (List.forall_mem_append.mpr ⟨orderedA.inside, orderedB.inside⟩) ?_
    (List.pairwise_append.mpr ⟨front.pairwise, List.pairwise_append.mpr ⟨single, ?_, ?_⟩, ?_⟩)
  · classical
    refine List.perm_iff_count.mpr fun x => ?_
    have count := List.perm_iff_count.mp front.perm x
    have count' := List.perm_iff_count.mp perm' x
    rw [front.left, front.right]
    simp only [List.count_append, List.count_reverse] at count count' ⊢
    omega
  · exact pairwise_reverse (Front.pairwise back)
  · intro x isBetween y isTaken
    refine (fromBack y (List.mem_reverse.mp isTaken) x ?_).flip
    obtain ofA | ofB := List.mem_append.mp isBetween
    · refine List.mem_append_right _ (List.mem_reverse.mp ?_)
      exact restA ▸ List.mem_append_right _ ofA
    · refine List.mem_append_left _ (List.mem_reverse.mp ?_)
      exact restB ▸ List.mem_append_right _ ofB
  · intro x isTaken y isLater
    refine fromFront x isTaken y ?_
    obtain isBetween | atBack := List.mem_append.mp isLater
    · obtain ofA | ofB := List.mem_append.mp isBetween
      · exact List.mem_append_left _ (List.mem_append_left _ ofA)
      · exact List.mem_append_right _ (List.mem_append_left _ ofB)
    · obtain ofB | ofA := List.mem_append.mp (perm'.mem_iff.mp (List.mem_reverse.mp atBack))
      · exact List.mem_append_right _ (List.mem_append_right _ (List.mem_reverse.mpr ofB))
      · exact List.mem_append_left _ (List.mem_append_right _ (List.mem_reverse.mpr ofA))

end

/-- Two sorted lists of about the same length are merged from both ends at once. -/
theorem mergeEnds?_sorts (orders : Orders before P) (short : as.length ≤ bs.length)
    (near : bs.length ≤ as.length + 1) (orderedA : InOrder before P as)
    (orderedB : InOrder before P bs) :
    ∃ sorted, mergeEnds? before as bs = some sorted ∧ Sorts before P sorted (as ++ bs) := by
  obtain ⟨first, second, front⟩ := takeFront_front orders as.length orderedA orderedB
  have reverseShort : as.length ≤ bs.reverse.length := by
    rw [List.length_reverse]
    exact short
  obtain ⟨second', first', back⟩ :=
    takeFront_front orders.flip as.length orderedB.flip orderedA.flip
  have count := length_takeFront before (Nat.le_refl as.length) short
  have count' := length_takeFront (fun a b => before b a) reverseShort
    (Nat.le_of_eq List.length_reverse.symm)
  unfold mergeEnds? takeBack
  generalize takeFront before as.length as bs = atFront at front count ⊢
  generalize takeFront (fun a b => before b a) as.length bs.reverse as.reverse = atBack
    at back count' ⊢
  obtain ⟨taken, restFirst, restSecond⟩ := atFront
  obtain ⟨taken', restSecond', restFirst'⟩ := atBack
  dsimp only at front back count count' ⊢
  obtain ⟨meetA, meetB⟩ := front.meet back count count' short
  obtain ⟨betweenA, restA, rfl⟩ := exists_between (front.left.symm.trans (Back.left back)) meetA
  obtain ⟨betweenB, restB, rfl⟩ := exists_between (front.right.symm.trans (Back.right back)) meetB
  have lengthA := congrArg List.length front.left
  have lengthB := congrArg List.length front.right
  have lengthA' := congrArg List.length restA
  have lengthB' := congrArg List.length restB
  have total := front.perm.length_eq
  have total' := (Front.perm back).length_eq
  simp only [List.length_append, List.length_reverse]
    at lengthA lengthB lengthA' lengthB' total total'
  have few : (betweenA ++ betweenB).length ≤ 1 := by
    rw [List.length_append]
    omega
  have bothA : (betweenA ++ first'.reverse).length + restFirst'.length - as.length =
      betweenA.length := by
    rw [List.length_append, List.length_reverse]
    omega
  have bothB : (betweenB ++ second'.reverse).length + restSecond'.length - bs.length =
      betweenB.length := by
    rw [List.length_append, List.length_reverse]
    omega
  rw [if_pos, bothA, bothB, List.take_left, List.take_left]
  · exact ⟨_, rfl, front.sorts_between orders back restA restB few orderedA orderedB⟩
  · simp only [List.length_append, List.length_reverse]
    omega

/-! ## Short lists -/

/-- A short list is sorted by its halves. -/
theorem halves?_sorts (orders : Orders before P) (inside : ∀ a ∈ as, P a) :
    ∃ sorted, halves? before as = some sorted ∧ Sorts before P sorted as := by
  have insideFront : ∀ a ∈ as.take (as.length / 2), P a :=
    fun a listed => inside a (List.mem_of_mem_take listed)
  have insideBack : ∀ a ∈ as.drop (as.length / 2), P a :=
    fun a listed => inside a (List.mem_of_mem_drop listed)
  have front := half_sorts orders (decide (8 ≤ as.length)) insideFront
  have back := half_sorts orders (decide (8 ≤ as.length)) insideBack
  have lengthFront := front.perm.length_eq
  have lengthBack := back.perm.length_eq
  rw [List.length_take] at lengthFront
  rw [List.length_drop] at lengthBack
  obtain ⟨sorted, result, sorts⟩ :=
    mergeEnds?_sorts orders (by omega) (by omega) front.toInOrder back.toInOrder
  refine ⟨sorted, result, sorts.of_perm ?_⟩
  refine (front.perm.append back.perm).trans ?_
  rw [List.take_append_drop]

end Keyfob.Sorting
