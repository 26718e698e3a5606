import Keyfob.Sorting.Runs

/-!
# Sorting

`sort?` sorts a list by the answers to one question, whether an element comes before another. In
an order it is the stable sort. Where elements stand in a circle its result is still determined,
by the way in which short lists are sorted one element at a time, longer ones by runs, and
stretches without runs by pivots; or there is no result.
-/
namespace Keyfob.Sorting

variable {α : Type}

/-- Of three places the one in the middle, as far as the answers tell. -/
def median (before : Nat → Nat → Bool) (a b c : Nat) : Nat :=
  if before a b = before a c then if before b c = before a b then b else c else a

/-- The place of an element near the middle of a stretch: of its first element and those after
four and seven eighths, or of such elements of three eighths of a stretch of 64 or more. -/
def pivotPlace (before : Nat → Nat → Bool) (start length : Nat) : Nat :=
  let eighth := length / 8
  let near (place : Nat) : Nat :=
    if _long : 8 ≤ length / 8 then pivotPlace before place (length / 8) else place
  median before (near start) (near (start + 4 * eighth)) (near (start + 7 * eighth))
termination_by length
decreasing_by omega

variable (before : α → α → Bool)

/-- An element of a list near its middle, with the elements before it and after it. -/
def pivot? (as : List α) : Option (List α × α × List α) :=
  let elements := as.toArray
  let asked (i j : Nat) : Bool :=
    match elements[i]?, elements[j]? with
    | some a, some b => before a b
    | _, _ => false
  let place := pivotPlace asked 0 as.length
  elements[place]?.map fun pivot => (as.take place, pivot, as.drop (place + 1))

/-- Sort a list by parting it at pivots, for a number of times at most, given a pivot that none
of its elements comes before. A pivot that does not come after that one, or that no element
comes before, is parted from the elements after it together with all that are like it. -/
def byPivots? : Nat → Option α → List α → Option (List α)
  | 0, _, as => if as.length ≤ shortLength then halves? before as else byRuns? before some true as
  | count + 1, least, as =>
    if as.length ≤ shortLength then halves? before as
    else do
      let (front, pivot, back) ← pivot? before as
      let lower := (front ++ back).filter (before · pivot)
      if lower.isEmpty || least.any (!before · pivot) then
        let notAfter := fun a => !before pivot a
        let greater := (front ++ back).filter (before pivot ·)
        return front.filter notAfter ++ pivot :: back.filter notAfter ++
          (← byPivots? count none greater)
      else
        let notBefore := fun a => !before a pivot
        let upper := front.filter notBefore ++ pivot :: back.filter notBefore
        return (← byPivots? count least lower) ++ (← byPivots? count (some pivot) upper)

/-- A list sorted, or none where its elements were found to be in no order. -/
def sort? (as : List α) : Option (List α) :=
  if as.length ≤ 20 then some (insertAll before [] as)
  else
    let finish (stretch : List α) : Option (List α) :=
      byPivots? before (2 * Nat.log2 stretch.length) none stretch
    byRuns? before finish (as.length ≤ 2 * shortLength) as

end Keyfob.Sorting
