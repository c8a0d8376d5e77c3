/-!
# Text

Classes of characters beyond the first hundred and twenty-eight, given by closed
ranges of code points in ascending order.  Here is the class of spaces; a text
is stripped of them at both ends.
-/

namespace Deduction

namespace Text

/-- Whether a character lies in one of some closed ranges of code points. -/
def inRanges (ranges : List (Nat × Nat)) (c : Char) : Bool :=
  ranges.any fun range => range.1 ≤ c.toNat && c.toNat ≤ range.2

/-- The characters that only make room. -/
def spaceRanges : List (Nat × Nat) :=
  [(0x9, 0xD), (0x20, 0x20), (0x85, 0x85), (0xA0, 0xA0), (0x1680, 0x1680), (0x2000, 0x200A),
    (0x2028, 0x2029), (0x202F, 0x202F), (0x205F, 0x205F), (0x3000, 0x3000)]

/-- A character that only makes room. -/
def isSpace (c : Char) : Bool :=
  inRanges spaceRanges c

/-- A text without the spaces around it. -/
def strip (cs : List Char) : List Char :=
  ((cs.dropWhile isSpace).reverse.dropWhile isSpace).reverse

end Text

end Deduction
