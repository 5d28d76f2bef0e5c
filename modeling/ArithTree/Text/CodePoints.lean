/-!
# Sets of code points

A Unicode property is a set of code points that falls into runs of neighbours.
It is written down here as the list of those runs, lowest first, and
`CodePoints.contains` looks a character up in it.
-/

namespace ArithTree

/-- A set of code points as its runs: each pair is the first and the last code
point of one run, and the runs stand in ascending order. -/
abbrev CodePoints := List (Nat × Nat)

namespace CodePoints

/-- Is the code point `n` in one of the runs? The search ends at the first run
that starts above `n`, which is enough because the runs ascend. -/
def containsCode : CodePoints → Nat → Bool
  | [], _ => false
  | (first, last) :: runs, n =>
    if n < first then false else if n ≤ last then true else containsCode runs n

/-- Is the character `c` in the set? -/
def contains (set : CodePoints) (c : Char) : Bool :=
  set.containsCode c.toNat

end CodePoints

end ArithTree
