import DocLint.Text.Basic

/-!
# Sets of code points

A property of characters that a standard defines by a table is kept as the list of its inclusive
ranges, in increasing order.
-/

namespace DocLint.Text

/-- A set of code points: inclusive ranges, in increasing order and without overlap. -/
abbrev Ranges := List (Nat × Nat)

/-- Is the character in one of the ranges? -/
def Ranges.has (ranges : Ranges) (c : Char) : Bool :=
  ranges.any fun (low, high) => low ≤ c.toNat && c.toNat ≤ high

end DocLint.Text
