import Descent.Text.Ranges

/-!
# White space

The characters with the White_Space property of Unicode.
-/

namespace Descent.Text

/-- Tabs and line breaks, the space, the next-line character, and the spaces of fixed width. -/
def blankRanges : Ranges := #[
  (0x9, 0xD), (0x20, 0x20), (0x85, 0x85), (0xA0, 0xA0), (0x1680, 0x1680), (0x2000, 0x200A),
  (0x2028, 0x2029), (0x202F, 0x202F), (0x205F, 0x205F), (0x3000, 0x3000)]

def isBlank (c : Char) : Bool :=
  blankRanges.any fun (first, last) => first ≤ c.toNat && c.toNat ≤ last

end Descent.Text
