import Calculator.Text.Basic

/-!
# Blank characters

`isSpace` is the white space that an expression may contain anywhere, the Unicode property
`White_Space`. Lines are trimmed of a slightly larger class, `isBlank`, that also holds the four
information separators.
-/

namespace Calculator

def spaceRanges : List (Nat × Nat) :=
  [(0x09, 0x0D), (0x20, 0x20), (0x85, 0x85), (0xA0, 0xA0), (0x1680, 0x1680), (0x2000, 0x200A),
    (0x2028, 0x2029), (0x202F, 0x202F), (0x205F, 0x205F), (0x3000, 0x3000)]

/-- The Unicode property `White_Space`. -/
def isSpace (c : Char) : Bool := inRanges spaceRanges c.toNat

/-- White space and the information separators U+001C to U+001F. -/
def isBlank (c : Char) : Bool :=
  isSpace c || (decide (0x1C ≤ c.toNat) && decide (c.toNat ≤ 0x1F))

/-- The white space of ASCII. -/
def isAsciiSpace (c : Char) : Bool :=
  c == ' ' || (decide ('\t' ≤ c) && decide (c ≤ '\r'))

theorem isBlank_of_isSpace {c : Char} (h : isSpace c = true) : isBlank c = true := by
  simp [isBlank, h]

end Calculator
