/-!
# `Text.CodeRange` — sets of characters as ranges of code points

A character class is carried as a list of closed ranges of code points, ascending and apart. The
tables of `Text.Blank`, `Text.Printable` and `Text.Combining` are such lists.
-/

namespace GameContent
namespace Text

/-- A closed range of code points. -/
structure CodeRange where
  /-- The first code point of the range. -/
  first : Nat
  /-- The last code point of the range. -/
  last : Nat
deriving DecidableEq, Repr

/-- Whether a character lies in a range, ends included. -/
def CodeRange.covers (r : CodeRange) (c : Char) : Bool :=
  r.first ≤ c.toNat && c.toNat ≤ r.last

/-- Whether a character lies in one of the ranges. -/
def inRanges (rs : List CodeRange) (c : Char) : Bool :=
  rs.any (·.covers c)

theorem inRanges_iff {rs : List CodeRange} {c : Char} :
    inRanges rs c = true ↔ ∃ r ∈ rs, r.first ≤ c.toNat ∧ c.toNat ≤ r.last := by
  simp [inRanges, CodeRange.covers]

end Text
end GameContent
