/-!
# Sorting and merging short lists

A sort asks only whether one element comes before another. Where the answers fit an order, all
stable sorts agree, and how one goes about it does not show. Elements can also stand in a
circle, each before the next. Then the questions that are asked decide what comes out, and a
merge from both ends (`mergeEnds?`) can find out that there is no order.
-/
namespace Keyfob.Sorting

variable {α : Type}

section

variable (before : α → α → Bool)

/-- Put an element among sorted ones, the last one first: it goes ahead of those at the end that
it comes before, as far as these reach without a break. -/
def place (a : α) : List α → List α
  | [] => [a]
  | last :: earlier => if before a last then last :: place a earlier else a :: last :: earlier

/-- Sorted elements with others put in their places one after another. -/
def insertAll (sorted others : List α) : List α :=
  (others.foldl (fun placed a => place before a placed) sorted.reverse).reverse

/-- Two elements, turned round if the second comes before the first. -/
def ordered (a b : α) : α × α := if before b a then (b, a) else (a, b)

/-- Four elements in order: each half first, then the least of all and the greatest, then the
two that are left. -/
def four (a b c d : α) : List α :=
  let (low, high) := ordered before a b
  let (low', high') := ordered before c d
  let lowest := before low' low
  let highest := before high' high
  let first := if lowest then low else if highest then low' else high
  let second := if highest then high' else if lowest then high else low'
  let (lower, upper) := ordered before first second
  [if lowest then low' else low, lower, upper, if highest then high else high']

/-- Take some elements from the fronts of two sorted lists, one of the second list only where it
comes before that of the first: those taken, and what is left of each list. -/
def takeFront : Nat → List α → List α → List α × List α × List α
  | count + 1, a :: as, b :: bs =>
    if before b a then
      let (taken, rest) := takeFront count (a :: as) bs
      (b :: taken, rest)
    else
      let (taken, rest) := takeFront count as (b :: bs)
      (a :: taken, rest)
  | _, as, bs => ([], as, bs)

end

/-- Take some elements from the backs of two sorted lists, both given with the last element
first: those taken, and what is left of each list. -/
def takeBack (before : α → α → Bool) (count : Nat) (as bs : List α) : List α × List α × List α :=
  let (taken, bs, as) := takeFront (fun b a => before a b) count bs as
  (taken, as, bs)

variable (before : α → α → Bool)

/-- Merge two sorted lists, from the front where the first is not the longer one and from the
back otherwise. -/
def merge (as bs : List α) : List α :=
  let count := as.length + bs.length
  if as.length ≤ bs.length then
    let (taken, as, bs) := takeFront before count as bs
    taken ++ as ++ bs
  else
    let (taken, as, bs) := takeBack before count as.reverse bs.reverse
    (taken ++ bs ++ as).reverse

/-- Merge two sorted lists, the second no shorter than the first, by taking as many elements as
the first has from each end. None if an element was taken at both ends, for then the elements
are in no order. -/
def mergeEnds? (as bs : List α) : Option (List α) :=
  let (front, asFront, bsFront) := takeFront before as.length as bs
  let (back, asBack, bsBack) := takeBack before as.length as.reverse bs.reverse
  if as.length ≤ asFront.length + asBack.length ∧ bs.length ≤ bsFront.length + bsBack.length then
    some (front ++ asFront.take (asFront.length + asBack.length - as.length) ++
      bsFront.take (bsFront.length + bsBack.length - bs.length) ++ back.reverse)
  else none

/-- A half of a list, sorted by putting one element after another in its place. The first four
are sorted as such where the half is of a list of eight or more. -/
def half (wide : Bool) : List α → List α
  | a :: b :: c :: d :: rest =>
    if wide then insertAll before (four before a b c d) rest
    else insertAll before [] (a :: b :: c :: d :: rest)
  | as => insertAll before [] as

/-- A short list, sorted by its halves. -/
def halves? (as : List α) : Option (List α) :=
  let wide := 8 ≤ as.length
  mergeEnds? before (half before wide (as.take (as.length / 2)))
    (half before wide (as.drop (as.length / 2)))

end Keyfob.Sorting
