import Keyfob.Sorting.Basic
import Keyfob.Proofs.Sorting.Runs

/-!
# Lists are sorted

A list without runs is parted at pivots. That a pivot is parted from the elements after it together
with all that are like it relies on a pivot that none of the elements comes before: it shows that
none comes before the new one either. However often a list is parted, and whichever way its parts
are sorted, the whole is sorted where the answers fit an order (`sort?_isSort`). Two elements that
stand level may still change places; where no two do, the elements alone decide the outcome.
-/
namespace Keyfob.Sorting

variable {α : Type} {before : α → α → Bool} {P : α → Prop} {pivot : α} {as front back : List α}

/-! ## Pivots -/

/-- The middle one of three places is one of them. -/
theorem median_cases (before : Nat → Nat → Bool) (a b c : Nat) :
    median before a b c = a ∨ median before a b c = b ∨ median before a b c = c := by
  unfold median
  split
  · split
    · exact .inr (.inl rfl)
    · exact .inr (.inr rfl)
  · exact .inl rfl

/-- A pivot is found within its stretch. -/
theorem pivotPlace_mem (before : Nat → Nat → Bool) (start : Nat) {length : Nat}
    (positive : 0 < length) :
    start ≤ pivotPlace before start length ∧ pivotPlace before start length < start + length := by
  induction length using Nat.strongRecOn generalizing start with
  | ind length ih =>
    -- Each of the three places begins an eighth of the stretch.
    have near (place : Nat) (least : start ≤ place) (most : place + length / 8 ≤ start + length)
        (strict : place < start + length) :
        start ≤ (if _long : 8 ≤ length / 8 then pivotPlace before place (length / 8) else place) ∧
          (if _long : 8 ≤ length / 8 then pivotPlace before place (length / 8) else place) <
            start + length := by
      split
      · next long =>
        obtain ⟨low, high⟩ := ih (length / 8) (by omega) place (by omega)
        exact ⟨Nat.le_trans least low, Nat.lt_of_lt_of_le high most⟩
      · exact ⟨least, strict⟩
    rw [pivotPlace]
    dsimp only
    obtain first | second | third := median_cases before _ _ _
    · rw [first]
      exact near start (by omega) (by omega) (by omega)
    · rw [second]
      exact near (start + 4 * (length / 8)) (by omega) (by omega) (by omega)
    · rw [third]
      exact near (start + 7 * (length / 8)) (by omega) (by omega) (by omega)

/-- A list that has elements has a pivot among them. -/
theorem exists_pivot? (before : α → α → Bool) (some : as ≠ []) :
    ∃ front pivot back, pivot? before as = .some (front, pivot, back) ∧
      as = front ++ pivot :: back := by
  unfold pivot?
  dsimp only
  generalize choice : pivotPlace _ 0 as.length = place
  have within : place < as.length := by
    have bound (asked : Nat → Nat → Bool) : pivotPlace asked 0 as.length < 0 + as.length :=
      (pivotPlace_mem asked 0 (List.length_pos_iff.mpr some)).2
    rw [← choice]
    exact Nat.lt_of_lt_of_eq (bound _) (Nat.zero_add _)
  refine ⟨as.take place, as[place], as.drop (place + 1), ?_, ?_⟩
  · rw [List.getElem?_toArray, List.getElem?_eq_getElem within]
    rfl
  · rw [← List.drop_eq_getElem_cons within, List.take_append_drop]

/-- Parting a list that has a pivot keeps its elements. -/
theorem parted_perm (isLower : α → Bool) (front : List α) (pivot : α) (back : List α) :
    ((front ++ back).filter isLower ++ (front.filter (fun a => !isLower a) ++
      pivot :: back.filter (fun a => !isLower a))).Perm (front ++ pivot :: back) := by
  refine (List.perm_middle.append_left _).trans (List.perm_middle.trans ?_)
  rw [← List.filter_append]
  exact ((List.filter_append_perm isLower (front ++ back)).cons pivot).trans List.perm_middle.symm

/-- What stays with a pivot is the pivot and other elements of the list. -/
theorem eq_or_mem_of_stays {stays : α → Bool} {a : α}
    (listed : a ∈ front.filter stays ++ pivot :: back.filter stays) :
    a = pivot ∨ a ∈ front ++ back ∧ stays a = true := by
  obtain rfl | other := List.mem_cons.mp (List.perm_middle.mem_iff.mp listed)
  · exact .inl rfl
  · rw [← List.filter_append] at other
    exact .inr (List.mem_filter.mp other)

/-- The pivot and the other elements of a list are among those that the order is about. -/
theorem inside_parted (inside : ∀ a ∈ front ++ pivot :: back, P a) :
    P pivot ∧ ∀ a ∈ front ++ back, P a :=
  List.forall_mem_cons.mp fun a listed => inside a (List.perm_middle.mem_iff.mpr listed)

section

variable (orders : Orders before P) (inside : ∀ a ∈ front ++ pivot :: back, P a)
include orders inside

/-- The pivot does not come after the elements that do not come before it. -/
theorem notAfter_of_upper {a : α} (listed : a ∈ front.filter (fun a => !before a pivot) ++
    pivot :: back.filter (fun a => !before a pivot)) : NotAfter before P pivot a := by
  obtain ⟨isPivot, insideOthers⟩ := inside_parted inside
  obtain rfl | ⟨other, notBefore⟩ := eq_or_mem_of_stays listed
  · exact orders.refl isPivot
  · exact ⟨isPivot, insideOthers a other, Bool.not_eq_true' _ ▸ notBefore⟩

/-- A list is sorted when the elements that come before a pivot are sorted, and the others with the
pivot. -/
theorem parted_sorts {lower upper : List α}
    (sortsLower : Sorts before P lower ((front ++ back).filter (before · pivot)))
    (sortsUpper : Sorts before P upper (front.filter (fun a => !before a pivot) ++
      pivot :: back.filter (fun a => !before a pivot))) :
    Sorts before P (lower ++ upper) (front ++ pivot :: back) := by
  refine Sorts.of_pairwise inside ?_
    (List.pairwise_append.mpr ⟨sortsLower.pairwise, sortsUpper.pairwise, ?_⟩)
  · exact (sortsLower.perm.append sortsUpper.perm).trans (parted_perm _ front pivot back)
  · intro x isLower y isUpper
    obtain ⟨-, ahead⟩ := List.mem_filter.mp (sortsLower.perm.mem_iff.mp isLower)
    have later := notAfter_of_upper orders inside (sortsUpper.perm.mem_iff.mp isUpper)
    exact orders.trans (orders.of_before (sortsLower.inside x isLower) later.left ahead) later

/-- A list none of whose elements comes before a pivot is sorted when those that come after it are
sorted, and all others put ahead of these. -/
theorem level_sorts {greater : List α} (least : ∀ a ∈ front ++ back, before a pivot = false)
    (sorts : Sorts before P greater ((front ++ back).filter (before pivot ·))) :
    Sorts before P (front.filter (fun a => !before pivot a) ++
      pivot :: back.filter (fun a => !before pivot a) ++ greater) (front ++ pivot :: back) := by
  obtain ⟨isPivot, insideOthers⟩ := inside_parted inside
  -- The elements ahead of those that come after the pivot stand level with it.
  have level (a : α) (listed : a ∈ front.filter (fun a => !before pivot a) ++
      pivot :: back.filter (fun a => !before pivot a)) :
      NotAfter before P a pivot ∧ NotAfter before P pivot a := by
    obtain rfl | ⟨other, notBehind⟩ := eq_or_mem_of_stays listed
    · exact ⟨orders.refl isPivot, orders.refl isPivot⟩
    · exact ⟨⟨insideOthers a other, isPivot, Bool.not_eq_true' _ ▸ notBehind⟩,
        ⟨isPivot, insideOthers a other, least a other⟩⟩
  refine Sorts.of_pairwise inside ?_ (List.pairwise_append.mpr ⟨?_, sorts.pairwise, ?_⟩)
  · refine List.perm_append_comm.trans ((sorts.perm.append_right _).trans ?_)
    exact parted_perm _ front pivot back
  · refine List.pairwise_of_forall_mem_list fun x isX y isY => ?_
    exact orders.trans (level x isX).1 (level y isY).2
  · intro x isLevel y isGreater
    obtain ⟨-, ahead⟩ := List.mem_filter.mp (sorts.perm.mem_iff.mp isGreater)
    exact orders.trans (level x isLevel).1
      (orders.of_before isPivot (sorts.inside y isGreater) ahead)

end

/-! ## Sorting -/

/-- None of some elements comes before a least one, if there is one that is known. -/
def IsLeast (before : α → α → Bool) (P : α → Prop) (least : Option α) (as : List α) : Prop :=
  ∀ low, least = some low → ∀ a ∈ as, NotAfter before P low a

/-- No element comes before a pivot where none is found to, or where the pivot does not come after
a least element. -/
theorem before_pivot_of_unparted (orders : Orders before P) {least : Option α}
    (inside : ∀ a ∈ front ++ pivot :: back, P a)
    (isLeast : IsLeast before P least (front ++ pivot :: back))
    (unparted : (((front ++ back).filter (before · pivot)).isEmpty ||
      least.any (!before · pivot)) = true) :
    ∀ a ∈ front ++ back, before a pivot = false := by
  intro a listed
  obtain none | later := (Bool.or_eq_true _ _).mp unparted
  · have noneAhead := List.filter_eq_nil_iff.mp (List.isEmpty_iff.mp none) a listed
    exact eq_false_of_ne_true noneAhead
  · cases least with
    | none => cases later
    | some low =>
      have notAfter := isLeast low rfl
      have isPivot := (inside_parted inside).1
      have level : NotAfter before P pivot low :=
        ⟨isPivot, (notAfter pivot List.mem_append_cons_self).left, Bool.not_eq_true' _ ▸ later⟩
      have whole : a ∈ front ++ pivot :: back :=
        List.perm_middle.mem_iff.mpr (List.mem_cons_of_mem pivot listed)
      exact (orders.trans level (notAfter a whole)).answer

/-- A list is sorted by pivots, given an element that comes after none of its elements if one is
known. -/
theorem byPivots?_sorts (orders : Orders before P) (count : Nat) {least : Option α}
    (inside : ∀ a ∈ as, P a) (isLeast : IsLeast before P least as) :
    ∃ sorted, byPivots? before count least as = some sorted ∧ Sorts before P sorted as := by
  induction count generalizing least as with
  | zero =>
    unfold byPivots?
    split
    · exact halves?_sorts orders inside
    · have atOnce : true = false → IsSort before P some := nofun
      exact byRuns?_isSort orders atOnce as inside
  | succ count ih =>
    unfold byPivots?
    split
    · exact halves?_sorts orders inside
    · next long =>
      have some : as ≠ [] := by
        rintro rfl
        exact long (Nat.zero_le _)
      obtain ⟨front, pivot, back, found, rfl⟩ := exists_pivot? before some
      obtain ⟨isPivot, insideOthers⟩ := inside_parted inside
      have insideFilter (p : α → Bool) : ∀ a ∈ (front ++ back).filter p, P a :=
        fun a listed => insideOthers a (List.mem_filter.mp listed).1
      rw [found, Option.bind_eq_bind, Option.bind_some]
      dsimp only
      split
      · next unparted =>
        have noneKnown : IsLeast before P none ((front ++ back).filter (before pivot ·)) := nofun
        obtain ⟨greater, result, sorts⟩ := ih (insideFilter (before pivot ·)) noneKnown
        have ahead := before_pivot_of_unparted orders inside isLeast unparted
        rw [result]
        exact ⟨_, rfl, level_sorts orders inside ahead sorts⟩
      · have leastLower : IsLeast before P least ((front ++ back).filter (before · pivot)) := by
          intro low known a listed
          have other := (List.mem_filter.mp listed).1
          exact isLeast low known a
            (List.perm_middle.mem_iff.mpr (List.mem_cons_of_mem pivot other))
        have leastUpper : IsLeast before P (.some pivot) (front.filter (fun a => !before a pivot) ++
            pivot :: back.filter (fun a => !before a pivot)) := by
          rintro _ ⟨⟩ a listed
          exact notAfter_of_upper orders inside listed
        obtain ⟨lower, resultLower, sortsLower⟩ := ih (insideFilter (before · pivot)) leastLower
        obtain ⟨upper, resultUpper, sortsUpper⟩ :=
          ih (fun a listed => (leastUpper pivot rfl a listed).right) leastUpper
        rw [resultLower, resultUpper]
        exact ⟨_, rfl, parted_sorts orders inside sortsLower sortsUpper⟩

/-- Where the answers fit an order, sorting has a result, and it is in order. -/
theorem sort?_isSort (orders : Orders before P) : IsSort before P (sort? before) := by
  intro as inside
  unfold sort?
  split
  · exact ⟨_, rfl, insertAll_sorts orders inOrder_nil inside⟩
  · refine byRuns?_isSort orders (fun _ stretch inside => ?_) as inside
    have noneKnown : IsLeast before P none stretch := nofun
    exact byPivots?_sorts orders _ inside noneKnown

/-- Where no two elements stand level, sorting does not depend on how the elements are arranged. -/
theorem sort?_eq_of_perm (orders : Orders before P)
    (apart : ∀ {a b}, NotAfter before P a b → NotAfter before P b a → a = b) {bs : List α}
    (inside : ∀ a ∈ as, P a) (perm : bs.Perm as) : sort? before bs = sort? before as := by
  have insideOther : ∀ b ∈ bs, P b := fun b listed => inside b (perm.mem_iff.mp listed)
  obtain ⟨sorted, result, sorts⟩ := sort?_isSort orders as inside
  obtain ⟨sorted', result', sorts'⟩ := sort?_isSort orders bs insideOther
  have same : sorted' = sorted :=
    List.Perm.eq_of_pairwise (fun _ _ _ _ first second => apart first second) sorts'.pairwise
      sorts.pairwise (sorts'.perm.trans (perm.trans sorts.perm.symm))
  rw [result, result', same]

end Keyfob.Sorting
