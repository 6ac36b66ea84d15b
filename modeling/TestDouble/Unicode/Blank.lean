import TestDouble.Unicode.Intervals

/-!
# Blanks

The code points with the property White_Space, which is what trimming removes.
-/

namespace TestDouble.Unicode

/-- The code points with the property White_Space. -/
def blanks : Intervals :=
  [(0x9, 0xD), (0x20, 0x20), (0x85, 0x85), (0xA0, 0xA0), (0x1680, 0x1680), (0x2000, 0x200A),
   (0x2028, 0x2029), (0x202F, 0x202F), (0x205F, 0x205F), (0x3000, 0x3000)]

/-- Whether a character is white space. -/
def isBlank (c : Char) : Bool := blanks.contains c.toNat

end TestDouble.Unicode
