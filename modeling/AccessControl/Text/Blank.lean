/-
  AccessControl/Text/Blank.lean
  =============================
  **Blank characters and the pieces of a text.**

  Blank is every character with the Unicode property `White_Space`, twenty-five
  in all; `trim` takes them off both ends.  The zero-width space and the
  byte-order mark are not blank.
-/

namespace AccessControl.Text

/-- The characters with the property `White_Space`, as ranges. -/
def blankRanges : List (Nat × Nat) :=
  [(0x9, 0xd), (0x20, 0x20), (0x85, 0x85), (0xa0, 0xa0), (0x1680, 0x1680), (0x2000, 0x200a),
    (0x2028, 0x2029), (0x202f, 0x202f), (0x205f, 0x205f), (0x3000, 0x3000)]

/-- A character code lies in one of the ranges. -/
def inRanges (ranges : List (Nat × Nat)) (c : Char) : Bool :=
  ranges.any fun range => range.1 ≤ c.toNat && c.toNat ≤ range.2

/-- Every range holds a code, and lies below the next with a gap between them. -/
def inOrder : List (Nat × Nat) → Bool
  | [] => true
  | [range] => range.1 ≤ range.2
  | range :: next :: rest => range.1 ≤ range.2 && range.2 + 1 < next.1 && inOrder (next :: rest)

/-- How many codes the ranges hold, if they are in order. -/
def codeCount : List (Nat × Nat) → Nat
  | [] => 0
  | range :: rest => range.2 + 1 - range.1 + codeCount rest

example : inOrder blankRanges ∧ codeCount blankRanges = 25 := by decide

/-- The character is blank. -/
def isBlank (c : Char) : Bool := inRanges blankRanges c

/-- The text without the characters in `p` at its ends. -/
def trimWith (p : Char → Bool) (cs : List Char) : List Char :=
  ((cs.dropWhile p).reverse.dropWhile p).reverse

/-- The text without the blanks at its ends. -/
def trim (cs : List Char) : List Char := trimWith isBlank cs

end AccessControl.Text
