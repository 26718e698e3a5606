import Keyfob.Files.Basic
import Keyfob.Proofs.Store.Ordered
import Keyfob.Proofs.Sorting.Pivots

/-!
# Files are listed in order

Any two names compare one way round and the other way in reverse, and only a name and itself compare
as the same. Three names can still stand in a circle: two numbers and a name between them that is
none, where the numbers are in one order by value and in the other by their characters (`Circle`).
That is the only way in which names are in no order (`transitive_iff_not_circular`). Files whose
names stand in no circle are listed in order, however a store arranges them; the three names of a
circle are listed as they happen to be arranged (`listing?_of_circle`).
-/
namespace Keyfob.FileName

variable {a b c : Text} {names : List Text}

/-! ## Two names -/

/-- A name that is a number, but for its ending. -/
abbrev Numeric (name : Text) : Prop := isNumeric (stem name) = true

/-- Two numbers are compared by their lengths without leading zeros, then by the digits, then by
the whole names. -/
theorem compare_of_numeric (first : Numeric a) (second : Numeric b) :
    compare a b =
      (Ord.compare (significant (stem a)).length (significant (stem b)).length).then
        ((Text.compare (significant (stem a)) (significant (stem b))).then (Text.compare a b)) := by
  unfold compare
  dsimp only
  rw [first, second, Bool.and_self, if_pos rfl]

/-- Two names that are not both numbers are compared as texts. -/
theorem compare_of_not_numeric (other : ¬(Numeric a ∧ Numeric b)) :
    compare a b = Text.compare a b := by
  unfold compare
  dsimp only
  rw [if_neg]
  rw [Bool.and_eq_true]
  exact other

/-- Two names in the other order compare the other way. -/
theorem compare_swap (a b : Text) : compare b a = (compare a b).swap := by
  by_cases numeric : Numeric a ∧ Numeric b
  · rw [compare_of_numeric numeric.1 numeric.2, compare_of_numeric numeric.2 numeric.1,
      Ordering.swap_then, Ordering.swap_then, Nat.compare_swap, ← Text.compare_swap,
      ← Text.compare_swap]
  · rw [compare_of_not_numeric numeric, compare_of_not_numeric (numeric ∘ And.symm)]
    exact Text.compare_swap a b

/-- Only a name and itself compare as the same. -/
theorem compare_eq_iff : compare a b = .eq ↔ a = b := by
  by_cases numeric : Numeric a ∧ Numeric b
  · rw [compare_of_numeric numeric.1 numeric.2, Ordering.then_eq_eq, Ordering.then_eq_eq,
      Text.compare_eq_iff, Text.compare_eq_iff, Nat.compare_eq_eq]
    constructor
    · exact fun same => same.2.2
    · rintro rfl
      exact ⟨rfl, rfl, rfl⟩
  · rw [compare_of_not_numeric numeric]
    exact Text.compare_eq_iff

/-- Of two different names one comes before the other. -/
theorem compare_of_not (apart : a ≠ b) (late : compare a b ≠ .lt) : compare b a = .lt := by
  rw [compare_swap]
  cases outcome : compare a b with
  | lt => exact absurd outcome late
  | eq => exact absurd (compare_eq_iff.mp outcome) apart
  | gt => rfl

/-- Of two names only one comes before the other. -/
theorem compare_asymm (first : compare a b = .lt) : compare b a ≠ .lt := by
  rw [compare_swap, first]
  nofun

/-! ## Three names -/

/-- Numbers come one after another. -/
theorem compare_trans_of_numeric (isA : Numeric a) (isB : Numeric b) (isC : Numeric c)
    (first : compare a b = .lt) (second : compare b c = .lt) : compare a c = .lt := by
  rw [compare_of_numeric isA isB, Ordering.then_eq_lt, Ordering.then_eq_lt, Nat.compare_eq_lt,
    Nat.compare_eq_eq, Text.compare_eq_iff] at first
  rw [compare_of_numeric isB isC, Ordering.then_eq_lt, Ordering.then_eq_lt, Nat.compare_eq_lt,
    Nat.compare_eq_eq, Text.compare_eq_iff] at second
  rw [compare_of_numeric isA isC, Ordering.then_eq_lt, Ordering.then_eq_lt, Nat.compare_eq_lt,
    Nat.compare_eq_eq, Text.compare_eq_iff]
  obtain shorter | ⟨sameLength, first⟩ := first
  · left
    obtain shorter' | ⟨sameLength', -⟩ := second
    · exact Nat.lt_trans shorter shorter'
    · exact sameLength' ▸ shorter
  · obtain shorter' | ⟨sameLength', second⟩ := second
    · exact .inl (sameLength ▸ shorter')
    · refine .inr ⟨sameLength.trans sameLength', ?_⟩
      obtain lower | ⟨sameDigits, first⟩ := first
      · left
        obtain lower' | ⟨sameDigits', -⟩ := second
        · exact Text.compare_trans lower lower'
        · exact sameDigits' ▸ lower
      · obtain lower' | ⟨sameDigits', second⟩ := second
        · exact .inl (sameDigits ▸ lower')
        · exact .inr ⟨sameDigits.trans sameDigits', Text.compare_trans first second⟩

/-- Two numbers and a name that is none stand in a circle: each comes before the next, and the last
before the first. -/
structure Circle (low high other : Text) : Prop where
  /-- The first name is a number. -/
  isLow : Numeric low
  /-- The second name is a number. -/
  isHigh : Numeric high
  /-- The third name is not a number. -/
  isOther : ¬Numeric other
  /-- The first number comes before the second. -/
  ascends : compare low high = .lt
  /-- The second number comes before the other name. -/
  follows : compare high other = .lt
  /-- The other name comes before the first number. -/
  returns : compare other low = .lt

instance (low high other : Text) : Decidable (Circle low high other) :=
  decidable_of_iff (Numeric low ∧ Numeric high ∧ ¬Numeric other ∧ compare low high = .lt ∧
      compare high other = .lt ∧ compare other low = .lt)
    ⟨fun ⟨isLow, isHigh, isOther, ascends, follows, returns⟩ =>
      ⟨isLow, isHigh, isOther, ascends, follows, returns⟩,
    fun ⟨isLow, isHigh, isOther, ascends, follows, returns⟩ =>
      ⟨isLow, isHigh, isOther, ascends, follows, returns⟩⟩

/-- Of three names that come one before another in a circle, two are numbers and the third is
none. -/
theorem circle_of_cycle (first : compare a b = .lt) (second : compare b c = .lt)
    (third : compare c a = .lt) : Circle a b c ∨ Circle b c a ∨ Circle c a b := by
  have textual (ab : ¬(Numeric a ∧ Numeric b)) (bc : ¬(Numeric b ∧ Numeric c))
      (ca : ¬(Numeric c ∧ Numeric a)) : Circle a b c ∨ Circle b c a ∨ Circle c a b := by
    rw [compare_of_not_numeric ab] at first
    rw [compare_of_not_numeric bc] at second
    rw [compare_of_not_numeric ca] at third
    exact absurd (Text.compare_trans (Text.compare_trans first second) third) (Text.compare_self a)
  by_cases isA : Numeric a
  · by_cases isB : Numeric b
    · by_cases isC : Numeric c
      · have onward := compare_trans_of_numeric isA isB isC first second
        exact absurd third (compare_asymm onward)
      · exact .inl ⟨isA, isB, isC, first, second, third⟩
    · by_cases isC : Numeric c
      · exact .inr (.inr ⟨isC, isA, isB, third, first, second⟩)
      · exact textual (isB ·.2) (isB ·.1) (isC ·.1)
  · by_cases both : Numeric b ∧ Numeric c
    · exact .inr (.inl ⟨both.1, both.2, isA, second, third, first⟩)
    · exact textual (isA ·.1) both (isA ·.2)

/-- Three of some names stand in a circle. -/
def Circular (names : List Text) : Prop :=
  ∃ low ∈ names, ∃ high ∈ names, ∃ other ∈ names, Circle low high other

instance (names : List Text) : Decidable (Circular names) :=
  inferInstanceAs (Decidable (∃ low ∈ names, ∃ high ∈ names, ∃ other ∈ names,
    Circle low high other))

/-- Among some names, what comes before a name comes before all that the name comes before. -/
def Transitive (names : List Text) : Prop :=
  ∀ a ∈ names, ∀ b ∈ names, ∀ c ∈ names,
    compare a b = .lt → compare b c = .lt → compare a c = .lt

/-- Names are in an order exactly when no three of them stand in a circle. -/
theorem transitive_iff_not_circular (names : List Text) :
    Transitive names ↔ ¬Circular names := by
  constructor
  · rintro transitive ⟨low, isLow, high, isHigh, other, isOther, circle⟩
    have onward := transitive low isLow high isHigh other isOther circle.ascends circle.follows
    exact compare_asymm onward circle.returns
  · intro straight a isA b isB c isC first second
    refine Decidable.not_not.mp fun late => straight ?_
    have apart : a ≠ c := by
      rintro rfl
      exact compare_asymm first second
    obtain circle | circle | circle :=
      circle_of_cycle first second (compare_of_not apart late)
    · exact ⟨a, isA, b, isB, c, isC, circle⟩
    · exact ⟨b, isB, c, isC, a, isA, circle⟩
    · exact ⟨c, isC, a, isA, b, isB, circle⟩

/-! ## Listings -/

open Sorting (Orders NotAfter)

/-- Whether a name comes before another, as a listing asks. -/
abbrev precedes (a b : Text) : Bool := compare a b = .lt

/-- A name that does not come after another comes before it, or is the same. -/
theorem lt_or_eq_of_notAfter {P : Text → Prop} (notAfter : NotAfter precedes P a b) :
    compare a b = .lt ∨ a = b := by
  by_cases same : a = b
  · exact .inr same
  · exact .inl (compare_of_not (Ne.symm same) (of_decide_eq_false notAfter.answer))

/-- Two names of which neither comes after the other are the same. -/
theorem eq_of_notAfter {P : Text → Prop} (first : NotAfter precedes P a b)
    (second : NotAfter precedes P b a) : a = b := by
  obtain before | same := lt_or_eq_of_notAfter first
  · exact absurd before (of_decide_eq_false second.answer)
  · exact same

/-- Names of which no three stand in a circle are sorted in an order. -/
theorem orders_of_transitive (transitive : Transitive names) :
    Orders precedes (· ∈ names) where
  asymm _ _ first := decide_eq_false (compare_asymm (of_decide_eq_true first))
  trans {a b c} first second := by
    refine ⟨first.left, second.right, decide_eq_false ?_⟩
    obtain before | rfl := lt_or_eq_of_notAfter first
    · obtain before' | rfl := lt_or_eq_of_notAfter second
      · exact compare_asymm
          (transitive a first.left b first.right c second.right before before')
      · exact compare_asymm before
    · exact of_decide_eq_false second.answer

/-- Names of which no three stand in a circle are listed in order, the same in whichever arrangement
they are given. -/
theorem exists_listing? (straight : ¬Circular (names.filter isText)) :
    ∃ sorted : List Text, sorted.Perm (names.filter isText) ∧
      (sorted.Pairwise fun a b => compare a b = .lt ∨ a = b) ∧
      ∀ others, others.Perm names → listing? others = some (sorted.take 15) := by
  have orders := orders_of_transitive ((transitive_iff_not_circular _).mpr straight)
  obtain ⟨sorted, result, sorts⟩ := Sorting.sort?_isSort orders (names.filter isText) fun _ => id
  refine ⟨sorted, sorts.perm, sorts.pairwise.imp lt_or_eq_of_notAfter, fun others perm => ?_⟩
  have same := Sorting.sort?_eq_of_perm orders eq_of_notAfter (fun _ => id) (perm.filter isText)
  rw [listing?, same, result]
  rfl

/-- The three names of a circle are listed as they are arranged. -/
theorem listing?_of_circle {low high other : Text} (circle : Circle low high other)
    (text : ∀ name ∈ [low, high, other], isText name = true) :
    listing? [low, high, other] = some [low, high, other] ∧
      listing? [other, low, high] = some [other, low, high] := by
  have ascends : ¬compare high low = .lt := compare_asymm circle.ascends
  have follows : ¬compare other high = .lt := compare_asymm circle.follows
  have returns : ¬compare low other = .lt := compare_asymm circle.returns
  have textLow := text low (by simp)
  have textHigh := text high (by simp)
  have textOther := text other (by simp)
  constructor
  · simp [listing?, Sorting.sort?, Sorting.insertAll, Sorting.place, textLow, textHigh, textOther,
      ascends, follows]
  · simp [listing?, Sorting.sort?, Sorting.insertAll, Sorting.place, textLow, textHigh, textOther,
      ascends, returns]

/-- Any two names compare one way round and the other way in reverse, and as the same only if they
are. Names are in an order exactly when no three of them stand in a circle, and files with such
names are listed in that order by every store, however it arranges them. -/
theorem listing_of_not_circular (names : List Text)
    (straight : ¬Circular (names.filter isText)) :
    (∀ a b, compare b a = (compare a b).swap) ∧
    (∀ a b, compare a b = .eq ↔ a = b) ∧
    (∀ others, Transitive others ↔ ¬Circular others) ∧
    ∃ sorted : List Text, sorted.Perm (names.filter isText) ∧
      (sorted.Pairwise fun a b => compare a b = .lt ∨ a = b) ∧
      ∀ (φ : Type) [FileStore φ] (files : φ) (others : List Text),
        FileStore.names files = .ok others → others.Perm names →
          FileStore.listing files = .ok (sorted.take 15) := by
  refine ⟨compare_swap, fun a b => compare_eq_iff, transitive_iff_not_circular, ?_⟩
  obtain ⟨sorted, perm, pairwise, listed⟩ := exists_listing? straight
  refine ⟨sorted, perm, pairwise, fun φ _ files others held arranged => ?_⟩
  unfold FileStore.listing
  rw [held]
  dsimp only
  rw [listed others arranged]

/-- A directory lists three of its files in order, which stand in no circle. -/
theorem listing_two_ten_letter :
    ¬Circular (["10.txt".toList, "2.txt".toList, "b.txt".toList].filter isText) ∧
      ∃ sorted : List Text, sorted.length = 3 ∧
        FileStore.listing (DirectoryFiles.mk (some ⟨[("b.txt".toList, .file []),
          ("2.txt".toList, .file []), ("10.txt".toList, .file [])]⟩)) = .ok sorted := by
  have straight : ¬Circular (["10.txt".toList, "2.txt".toList, "b.txt".toList].filter isText) := by
    decide
  obtain ⟨-, -, -, sorted, perm, -, listed⟩ := listing_of_not_circular _ straight
  have three : sorted.length = 3 := perm.length_eq
  have arranged : ["b.txt".toList, "2.txt".toList, "10.txt".toList].Perm
      ["10.txt".toList, "2.txt".toList, "b.txt".toList] := by decide
  refine ⟨straight, sorted, three, ?_⟩
  rw [listed DirectoryFiles _ _ rfl arranged, List.take_of_length_le]
  exact three ▸ by decide

/-- The numbers two and ten and a name that begins with a one stand in a circle: two comes before
ten, ten before that name, and that name before two. Their files are listed as they are
arranged. -/
theorem circle_one_two_ten :
    compare "2.txt".toList "10.txt".toList = .lt ∧
      compare "10.txt".toList "1a.txt".toList = .lt ∧
      compare "2.txt".toList "1a.txt".toList ≠ .lt ∧
      listing? ["2.txt".toList, "10.txt".toList, "1a.txt".toList] ≠
        listing? ["1a.txt".toList, "2.txt".toList, "10.txt".toList] := by
  have circle : Circle "2.txt".toList "10.txt".toList "1a.txt".toList := by decide
  have text : ∀ name ∈ ["2.txt".toList, "10.txt".toList, "1a.txt".toList], isText name = true := by
    decide
  obtain ⟨first, second⟩ := listing?_of_circle circle text
  refine ⟨circle.ascends, circle.follows, compare_asymm circle.returns, ?_⟩
  rw [first, second]
  decide

end Keyfob.FileName
