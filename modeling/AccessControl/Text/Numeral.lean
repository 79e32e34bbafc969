/-
  AccessControl/Text/Numeral.lean
  ===============================
  **Numbers as text.**

  Writing: hexadecimal and octal digits are written in lower case and without a
  mark; `hex8` pads to the eight digits of a word.  Reading: `decimal?` takes a
  run of ASCII digits and nothing else, so neither signs nor blanks nor digits
  of other scripts; leading zeros change nothing.
-/
import AccessControl.Bits

namespace AccessControl.Numeral

/-- The digits of `n` in base sixteen. -/
def hex (n : Nat) : String := String.ofList (Nat.toDigits 16 n)

/-- All eight hexadecimal digits of a word. -/
def hex8 (w : Word) : String := String.ofList ((Nat.toDigits 16 w.toNat).leftpad 8 '0')

/-- The digits of `n` in base eight. -/
def octal (n : Nat) : String := String.ofList (Nat.toDigits 8 n)

/-- A non-empty run of ASCII digits and nothing else. -/
def isDecimal (cs : List Char) : Bool := !cs.isEmpty && cs.all Char.isDigit

/-- The value of a run of ASCII digits. -/
def decimal? (cs : List Char) : Option Nat :=
  if isDecimal cs then some (Nat.ofDigitChars 10 cs 0) else none

/-- The value of a run of ASCII digits, where it is at most `limit`. -/
def boundedDecimal? (limit : Nat) (cs : List Char) : Option Nat :=
  (decimal? cs).filter (· ≤ limit)

/-- The same with one plus sign allowed in front. -/
def signedDecimal? (limit : Nat) : List Char → Option Nat
  | '+' :: digits => boundedDecimal? limit digits
  | digits => boundedDecimal? limit digits

end AccessControl.Numeral
