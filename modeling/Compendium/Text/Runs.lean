/-!
# Runs of code points

A set of code points as the lengths of the runs outside and inside of it, which take turns.
-/

namespace Compendium.Text

/-- The lengths of runs: the first is outside of the set, the second inside, and so on. -/
abbrev Runs := List Nat

/-- Whether a run inside of the set holds the code point. -/
def Runs.covers : Runs → Nat → Bool
  | outside :: inside :: rest, n =>
    outside ≤ n && (n < outside + inside || Runs.covers rest (n - (outside + inside)))
  | _, _ => false

end Compendium.Text
