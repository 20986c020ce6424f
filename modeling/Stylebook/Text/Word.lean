import Stylebook.Text.Basic
import Stylebook.Text.WordData

/-! Word characters, of which names in selectors are made. -/

namespace Stylebook
namespace Text

/-- Whether the code point of `c` lies in one of the inclusive ranges. -/
def inRanges (ranges : List (Nat × Nat)) (c : Char) : Bool :=
  ranges.any fun (first, last) => first ≤ c.toNat && c.toNat ≤ last

/-- Letters, digits, other numerics and the underscore. -/
def isWord (c : Char) : Bool :=
  if c.toNat < 128 then isLetter c || isDigit c || c == '_' else inRanges wordRanges c

end Text
end Stylebook
