/-!
# Allowances

Whatever can fail from the outside, a host, a store, a directory, is given an allowance: how
many further operations succeed before all later ones fail. It makes every point at which such
a failure begins a value that statements can range over. Where operations can also fail one by one
and go on afterwards, there is a list of lapses beside the allowance.
-/
namespace Keyfob

/-- How many more operations succeed; none for no limit. -/
abbrev Allowance := Option Nat

namespace Allowance

/-- Use an allowance for one operation: what is left of it, or nothing if it is used up. -/
def spend? : Allowance → Option Allowance
  | none => some none
  | some 0 => none
  | some (n + 1) => some (some n)

end Allowance

/-- Which of the next operations fail on their own, whatever is allowed; none of those after them
does. -/
abbrev Lapses := List Bool

namespace Lapses

/-- Whether the next operation fails on its own. -/
def fails (lapses : Lapses) : Bool := lapses.headD false

end Lapses

end Keyfob
