import Keyfob.Sorting.Merge

/-!
# Elements are put in their places

Where the answers to a sort's questions fit an order (`Sorting.Orders`), elements that are put in
their places one after another are sorted. Elements may stand level in the order, and the answers
need to fit it only among the elements that are sorted.
-/
namespace Keyfob.Sorting

variable {α : Type} {before : α → α → Bool} {P : α → Prop} {a b c d : α}
  {as bs sorted others : List α}

/-! ## Orders -/

/-- Among some elements, one does not come after another. -/
structure NotAfter (before : α → α → Bool) (P : α → Prop) (a b : α) : Prop where
  /-- The one is among the elements. -/
  left : P a
  /-- The other is among the elements. -/
  right : P b
  /-- The other does not come before the one. -/
  answer : before b a = false

/-- Among some elements, the answers fit an order. -/
structure Orders (before : α → α → Bool) (P : α → Prop) : Prop where
  /-- No two elements come before each other. -/
  asymm : ∀ {a b}, P a → P b → before a b = true → before b a = false
  /-- What does not come after an element does not come after what that does not come after. -/
  trans : ∀ {a b c}, NotAfter before P a b → NotAfter before P b c → NotAfter before P a c

/-- What comes before an element does not come after it. -/
theorem Orders.of_before (orders : Orders before P) (left : P a) (right : P b)
    (first : before a b = true) : NotAfter before P a b :=
  ⟨left, right, orders.asymm left right first⟩

/-- No element comes after itself. -/
theorem Orders.refl (orders : Orders before P) (inside : P a) : NotAfter before P a a := by
  refine ⟨inside, inside, ?_⟩
  by_cases ahead : before a a = true
  · exact orders.asymm inside inside ahead
  · exact eq_false_of_ne_true ahead

/-- What comes before an element comes before what that does not come after. -/
theorem Orders.before_of_before (orders : Orders before P) (left : P a)
    (first : before a b = true) (later : NotAfter before P b c) : before a c = true := by
  by_cases level : before a c = true
  · exact level
  · have back : NotAfter before P c a := ⟨later.right, left, eq_false_of_ne_true level⟩
    have contra := (orders.trans later back).answer
    rw [first] at contra
    cases contra

/-- The opposite of an order is one. -/
theorem Orders.flip (orders : Orders before P) : Orders (fun a b => before b a) P where
  asymm left right first := orders.asymm right left first
  trans first second :=
    have whole := orders.trans ⟨second.right, second.left, second.answer⟩
      ⟨first.right, first.left, first.answer⟩
    ⟨whole.right, whole.left, whole.answer⟩

/-- In the opposite order, elements stand the other way round. -/
theorem NotAfter.flip (notAfter : NotAfter before P a b) :
    NotAfter (fun a b => before b a) P b a :=
  ⟨notAfter.right, notAfter.left, notAfter.answer⟩

/-- Elements in order are in the opposite order when they are turned round. -/
theorem pairwise_reverse (pairwise : as.Pairwise (NotAfter before P)) :
    as.reverse.Pairwise (NotAfter (fun a b => before b a) P) :=
  List.pairwise_reverse.mpr (pairwise.imp fun notAfter => notAfter.flip)

/-- A list of some elements is in order. -/
structure InOrder (before : α → α → Bool) (P : α → Prop) (as : List α) : Prop where
  /-- The elements are among those that the order is about. -/
  inside : ∀ a ∈ as, P a
  /-- None comes after a later one. -/
  pairwise : as.Pairwise (NotAfter before P)

/-- The empty list is in order. -/
theorem inOrder_nil : InOrder before P [] := ⟨nofun, List.Pairwise.nil⟩

/-- A list in order is in the opposite order when it is turned round. -/
theorem InOrder.flip (inOrder : InOrder before P as) :
    InOrder (fun a b => before b a) P as.reverse :=
  ⟨fun a listed => inOrder.inside a (List.mem_reverse.mp listed),
    pairwise_reverse inOrder.pairwise⟩

/-- A list in order holds the elements of another one. -/
structure Sorts (before : α → α → Bool) (P : α → Prop) (sorted as : List α) : Prop extends
    InOrder before P sorted where
  /-- The elements are the same. -/
  perm : sorted.Perm as

/-- Elements that stand in order sort a list that they are the elements of. -/
theorem Sorts.of_pairwise (inside : ∀ a ∈ as, P a) (perm : sorted.Perm as)
    (pairwise : sorted.Pairwise (NotAfter before P)) : Sorts before P sorted as :=
  ⟨⟨fun a listed => inside a (perm.mem_iff.mp listed), pairwise⟩, perm⟩

/-- The same elements in another arrangement are sorted by the same list. -/
theorem Sorts.of_perm (sorts : Sorts before P sorted as) (perm : as.Perm bs) :
    Sorts before P sorted bs :=
  ⟨sorts.toInOrder, sorts.perm.trans perm⟩

/-- A list that is sorted in the opposite order is sorted when the outcome is turned round. -/
theorem Sorts.of_flip (sorts : Sorts (fun a b => before b a) P sorted as) :
    Sorts before P sorted.reverse as :=
  ⟨sorts.toInOrder.flip, (List.reverse_perm sorted).trans sorts.perm⟩

/-! ## One element after another -/

/-- Putting an element in its place adds it. -/
theorem place_perm (before : α → α → Bool) (a : α) (placed : List α) :
    (place before a placed).Perm (a :: placed) := by
  induction placed with
  | nil => exact List.Perm.refl _
  | cons last earlier ih =>
    rw [place]
    split
    · exact (ih.cons last).trans (List.Perm.swap a last earlier)
    · exact List.Perm.refl _

/-- An element is put in its place among elements in order, the last one first. -/
theorem place_pairwise (orders : Orders before P) (new : P a) {placed : List α}
    (inOrder : InOrder (fun a b => before b a) P placed) :
    (place before a placed).Pairwise (NotAfter (fun a b => before b a) P) := by
  induction placed with
  | nil => exact List.pairwise_singleton _ _
  | cons last earlier ih =>
    obtain ⟨isLast, insideEarlier⟩ := List.forall_mem_cons.mp inOrder.inside
    obtain ⟨afterAll, sortedEarlier⟩ := List.pairwise_cons.mp inOrder.pairwise
    rw [place]
    split
    · next ahead =>
      refine List.pairwise_cons.mpr ⟨fun x listed => ?_, ih ⟨insideEarlier, sortedEarlier⟩⟩
      obtain rfl | among := List.mem_cons.mp ((place_perm before a earlier).mem_iff.mp listed)
      · exact (orders.of_before new isLast ahead).flip
      · exact afterAll x among
    · next behind =>
      have level : NotAfter (fun a b => before b a) P a last :=
        ⟨new, isLast, eq_false_of_ne_true behind⟩
      refine List.pairwise_cons.mpr ⟨fun x listed => ?_, inOrder.pairwise⟩
      obtain rfl | among := List.mem_cons.mp listed
      · exact level
      · exact orders.flip.trans level (afterAll x among)

/-- Elements that are put in their places one after another are sorted with those that stand there
already, the last one first. -/
theorem foldl_place_sorts (orders : Orders before P) {placed : List α}
    (inOrder : InOrder (fun a b => before b a) P placed) (inside : ∀ a ∈ others, P a) :
    Sorts (fun a b => before b a) P
      (others.foldl (fun placed a => place before a placed) placed) (placed ++ others) := by
  induction others generalizing placed with
  | nil => exact ⟨inOrder, by rw [List.append_nil]; rfl⟩
  | cons a others ih =>
    obtain ⟨new, insideLater⟩ := List.forall_mem_cons.mp inside
    have added : Sorts (fun a b => before b a) P (place before a placed) (a :: placed) :=
      Sorts.of_pairwise (List.forall_mem_cons.mpr ⟨new, inOrder.inside⟩)
        (place_perm before a placed) (place_pairwise orders new inOrder)
    refine (ih added.toInOrder insideLater).of_perm ?_
    exact (added.perm.append_right others).trans List.perm_middle.symm

/-- Elements that are put in their places among sorted ones are sorted with these. -/
theorem insertAll_sorts (orders : Orders before P) (inOrder : InOrder before P sorted)
    (inside : ∀ a ∈ others, P a) :
    Sorts before P (insertAll before sorted others) (sorted ++ others) := by
  refine (foldl_place_sorts orders inOrder.flip inside).of_flip.of_perm ?_
  exact (List.reverse_perm sorted).append_right others

/-- Two elements are put in order. -/
theorem ordered_sorts (orders : Orders before P) (left : P a) (right : P b) :
    Sorts before P [(ordered before a b).1, (ordered before a b).2] [a, b] := by
  have inside : ∀ x ∈ [a, b], P x :=
    List.forall_mem_cons.mpr ⟨left, List.forall_mem_singleton.mpr right⟩
  unfold ordered
  split
  · next turned =>
    exact Sorts.of_pairwise inside (List.Perm.swap a b [])
      (List.pairwise_pair.mpr (orders.of_before right left turned))
  · next kept =>
    exact Sorts.of_pairwise inside (List.Perm.refl _)
      (List.pairwise_pair.mpr ⟨left, right, eq_false_of_ne_true kept⟩)

/-- Of four elements two are the least and the greatest, and the others are put in order between
these. -/
theorem between_sorts (orders : Orders before P) {least x y greatest : α}
    (lowX : NotAfter before P least x) (lowY : NotAfter before P least y)
    (highX : NotAfter before P x greatest) (highY : NotAfter before P y greatest) :
    Sorts before P [least, (ordered before x y).1, (ordered before x y).2, greatest]
      [least, x, y, greatest] := by
  have middle := ordered_sorts orders lowX.right lowY.right
  have members (z : α) (listed : z ∈ [(ordered before x y).1, (ordered before x y).2]) :
      NotAfter before P least z ∧ NotAfter before P z greatest := by
    obtain rfl | rest := List.mem_cons.mp (middle.perm.mem_iff.mp listed)
    · exact ⟨lowX, highX⟩
    · obtain rfl := List.mem_singleton.mp rest
      exact ⟨lowY, highY⟩
  have inside : ∀ z ∈ [least, x, y, greatest], P z := by
    simp only [List.forall_mem_cons]
    exact ⟨lowX.left, lowX.right, lowY.right, highX.right, nofun⟩
  refine Sorts.of_pairwise inside ((middle.perm.append_right [greatest]).cons least)
    (List.pairwise_cons.mpr ⟨?_, ?_⟩)
  · intro z listed
    obtain among | rest := List.mem_append.mp
      (show z ∈ [(ordered before x y).1, (ordered before x y).2] ++ [greatest] from listed)
    · exact (members z among).1
    · obtain rfl := List.mem_singleton.mp rest
      exact orders.trans lowX highX
  · refine List.pairwise_append.mpr
      ⟨middle.pairwise, List.pairwise_singleton _ _, fun z listed w last => ?_⟩
    obtain rfl := List.mem_singleton.mp last
    exact (members z listed).2

/-- Four elements are put in order. -/
theorem four_sorts (orders : Orders before P) (isA : P a) (isB : P b) (isC : P c) (isD : P d) :
    Sorts before P (four before a b c d) [a, b, c, d] := by
  have first := ordered_sorts orders isA isB
  have second := ordered_sorts orders isC isD
  rw [four]
  generalize ordered before a b = one at first ⊢
  generalize ordered before c d = other at second ⊢
  obtain ⟨low, high⟩ := one
  obtain ⟨low', high'⟩ := other
  have one := List.pairwise_pair.mp first.pairwise
  have other := List.pairwise_pair.mp second.pairwise
  refine Sorts.of_perm ?_ (first.perm.append second.perm)
  dsimp only at one other ⊢
  have lowestFirst : ([low, high] ++ low' :: [high']).Perm (low' :: ([low, high] ++ [high'])) :=
    List.perm_middle
  cases lowest : before low' low with
  | true =>
    have least := orders.of_before other.left one.left lowest
    cases highest : before high' high with
    | true =>
      have greatest := orders.of_before other.right one.right highest
      refine (between_sorts orders least other one greatest).of_perm ?_
      exact (((List.Perm.swap high high' []).cons low).cons low').trans lowestFirst.symm
    | false =>
      have greatest : NotAfter before P high high' := ⟨one.right, other.right, highest⟩
      refine (between_sorts orders least (orders.trans least one) (orders.trans one greatest)
        greatest).of_perm ?_
      exact lowestFirst.symm
  | false =>
    have least : NotAfter before P low low' := ⟨one.left, other.left, lowest⟩
    cases highest : before high' high with
    | true =>
      have greatest := orders.of_before other.right one.right highest
      refine (between_sorts orders least (orders.trans least other) (orders.trans other greatest)
        greatest).of_perm ?_
      have highFirst : ([low', high'] ++ [high]).Perm ([high] ++ [low', high']) :=
        List.perm_append_comm
      exact highFirst.cons low
    | false =>
      have greatest : NotAfter before P high high' := ⟨one.right, other.right, highest⟩
      exact between_sorts orders one least greatest other

/-- A half of a list is sorted. -/
theorem half_sorts (orders : Orders before P) (wide : Bool) (inside : ∀ a ∈ as, P a) :
    Sorts before P (half before wide as) as := by
  unfold half
  split
  · next a b c d rest =>
    split
    · obtain ⟨isA, isB, isC, isD, insideRest⟩ : P a ∧ P b ∧ P c ∧ P d ∧ ∀ x ∈ rest, P x := by
        simpa only [List.forall_mem_cons] using inside
      have first := four_sorts orders isA isB isC isD
      refine (insertAll_sorts orders first.toInOrder insideRest).of_perm ?_
      exact first.perm.append_right rest
    · exact insertAll_sorts orders inOrder_nil inside
  · exact insertAll_sorts orders inOrder_nil inside

end Keyfob.Sorting
