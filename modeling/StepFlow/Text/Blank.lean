/-
  StepFlow.Text.Blank — three classes of white space, which differ in a few control
  characters, and trimming.

  - `isBlank`: the characters that a blank script consists of; Unicode white space and the
    four separators U+001C to U+001F.
  - `isWhite`: the Unicode property White_Space, without those four.
  - `isAsciiBlank`: tab, line feed, vertical tab, form feed, return and space.
-/

import StepFlow.Text.Letter

namespace StepFlow.Text

/-- White space from U+0080 on. -/
def blankSpans : List (Nat × Nat) :=
  [(0x85, 0x85), (0xA0, 0xA0), (0x1680, 0x1680), (0x2000, 0x200A), (0x2028, 0x2029),
   (0x202F, 0x202F), (0x205F, 0x205F), (0x3000, 0x3000)]

def isAsciiBlank (c : Char) : Bool :=
  c == ' ' || (decide (9 ≤ c.toNat) && decide (c.toNat ≤ 13))

def isWhite (c : Char) : Bool :=
  if c.toNat < 128 then isAsciiBlank c else inSpans blankSpans c.toNat

def isBlank (c : Char) : Bool :=
  isWhite c || (decide (0x1C ≤ c.toNat) && decide (c.toNat ≤ 0x1F))

/-- The text without the characters of a class at its two ends. -/
def trim (p : Char → Bool) (cs : List Char) : List Char :=
  ((cs.dropWhile p).reverse.dropWhile p).reverse

end StepFlow.Text
