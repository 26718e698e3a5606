import Keyfob.Sorting.Merge

/-!
# Sorting by runs

A list is divided into runs, which are merged with one another in the order of a balanced tree
over the whole list (`depth`). A run is a stretch that was found in order, or one that is sorted
on its own, at once or later.
-/
namespace Keyfob.Sorting

variable {α : Type}

/-- A stretch of a list that is being sorted. -/
structure Run (α : Type) where
  /-- The elements of the stretch. -/
  elements : List α
  /-- Whether they are in order already. -/
  isSorted : Bool

/-- How many elements a short list has at most. -/
def shortLength : Nat := 32

section

variable (before : α → α → Bool)

/-- The elements at the front that go on in one direction from a last one, and the rest. -/
def climb (down : Bool) : α → List α → List α × List α
  | _, [] => ([], [])
  | last, a :: as =>
    if before a last = down then
      let (run, rest) := climb down a as
      (a :: run, rest)
    else ([], a :: as)

/-- The elements at the front that are in order, or were in the opposite order and are turned
round, and the rest. -/
def naturalRun : List α → List α × List α
  | a :: b :: as =>
    let down := before b a
    let (run, rest) := climb before down b as
    (if down then (a :: b :: run).reverse else a :: b :: run, rest)
  | as => (as, [])

/-- The first run of a list and the rest: what is in order already where it is long enough, and
otherwise a stretch that is short enough to be sorted at once, or one of the least length to be
sorted later. -/
def nextRun? (length : Nat) (atOnce : Bool) (as : List α) : Option (Run α × List α) :=
  let (natural, rest) := naturalRun before as
  if length ≤ natural.length then some (⟨natural, true⟩, rest)
  else if atOnce then
    (halves? before (as.take shortLength)).map fun sorted =>
      (⟨sorted, true⟩, as.drop shortLength)
  else some (⟨as.take length, false⟩, as.drop length)

/-- The runs of a list; each takes one element at least, so that as many as there are elements
are enough. -/
def runs? (length : Nat) (atOnce : Bool) : Nat → List α → Option (List (Run α))
  | _, [] => some []
  | 0, as => some [⟨as, false⟩]
  | count + 1, as => do
    let (run, rest) ← nextRun? before length atOnce as
    return run :: (← runs? length atOnce count rest)

end

/-- The least length of a run that is worth finding in a list of some length: half of the list,
64 where that is less, and about the square root of a long list's length. -/
def runLength (total : Nat) : Nat :=
  let shift := (1 + Nat.log2 total) / 2
  if total ≤ 64 * 64 then min (total - total / 2) 64 else (1 <<< shift + total >>> shift) / 2

/-- How deep two neighbouring runs part in a balanced tree over a list: the number of leading
bits, of 64, that the middles of the two have in common, as fractions of the whole. -/
def depth (total start middle stop : Nat) : Nat :=
  let scale := (1 <<< 62 + total - 1) / total
  let parted := (scale * (start + middle)) ^^^ (scale * (middle + stop))
  if parted = 0 then 64 else 63 - Nat.log2 parted

variable (before : α → α → Bool) (finish : List α → Option (List α))

/-- Two neighbouring runs as one. Where neither is in order yet they are joined as they are, and
sorted together later; otherwise what is not in order is brought in order first. -/
def Run.join? (left right : Run α) : Option (Run α) :=
  let settled (run : Run α) : Option (List α) :=
    if run.isSorted then some run.elements else finish run.elements
  if left.isSorted || right.isSorted then do
    return ⟨merge before (← settled left) (← settled right), true⟩
  else some ⟨left.elements ++ right.elements, false⟩

/-- Join a run with the waiting runs before it, as far as these part from what follows them no
higher than at a depth. The nearest of the waiting runs comes first. -/
def gather? (depth : Nat) : List (Run α × Nat) → Run α → Option (List (Run α × Nat) × Run α)
  | [], run => some ([], run)
  | (left, parted) :: waiting, run =>
    if depth ≤ parted then do gather? depth waiting (← left.join? before finish run)
    else some ((left, parted) :: waiting, run)

/-- Join all runs of a list into one. The run in hand stops at a place, and those after it
follow. -/
def joinAll? (total : Nat) : List (Run α × Nat) → Nat → Run α → List (Run α) → Option (Run α)
  | waiting, _, run, [] => (gather? before finish 0 waiting run).map (·.2)
  | waiting, stop, run, next :: later => do
    let parted := depth total (stop - run.elements.length) stop (stop + next.elements.length)
    let (waiting, run) ← gather? before finish parted waiting run
    joinAll? total ((run, parted) :: waiting) (stop + next.elements.length) next later

/-- Sort a list by its runs, given how to sort a stretch that was left for later. -/
def byRuns? (atOnce : Bool) (as : List α) : Option (List α) := do
  match ← runs? before (runLength as.length) atOnce as.length as with
  | [] => return []
  | first :: later =>
    let run ← joinAll? before finish as.length [] first.elements.length first later
    if run.isSorted then return run.elements else finish run.elements

end Keyfob.Sorting
