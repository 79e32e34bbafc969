/-
  AccessControl/Json/Magnitude.lean
  =================================
  **Which decimal literals are too large for 64-bit floating point.**

  Digits are taken as long as they fit in 64 bits; further digits before the
  point only scale by ten, and further digits after it are dropped.  What is
  kept is rounded to 53 bits and multiplied by the likewise rounded power of
  ten.  The literal is too large when the product lies beyond the largest
  finite value by half a unit or more.
-/

namespace AccessControl.Magnitude

/-- The largest number of 64 bits. -/
def wordLimit : Nat := 0xFFFFFFFFFFFFFFFF

/-- The least product that rounds to infinity. -/
def limit : Nat := Nat.pow 2 1024 - Nat.pow 2 970

/-- The nearest number with at most 53 significant bits; a tie goes to the even
    one. -/
def round (n : Nat) : Nat :=
  if n < Nat.pow 2 53 then n
  else
    let unit := Nat.pow 2 (n.log2 - 52)
    let (kept, left) := (n / unit, n % unit)
    if 2 * left < unit ∨ (2 * left = unit ∧ kept % 2 = 0) then kept * unit
    else (kept + 1) * unit

/-- The value of a digit. -/
def digit (c : Char) : Nat := c.toNat - '0'.toNat

/-- Digits before the point: those that fit, and how many do not. -/
def whole (digits : List Char) : Nat × Nat :=
  digits.foldl
    (fun (kept, dropped) c =>
      if dropped = 0 ∧ kept * 10 + digit c ≤ wordLimit then (kept * 10 + digit c, 0)
      else (kept, dropped + 1))
    (0, 0)

/-- Digits after the point: what they add to `kept` as long as they fit, and how
    many do. -/
def fraction (kept : Nat) (taken : Nat) : List Char → Nat × Nat
  | [] => (kept, taken)
  | c :: rest =>
    if kept * 10 + digit c ≤ wordLimit then fraction (kept * 10 + digit c) (taken + 1) rest
    else (kept, taken)

/-- A literal with these digits before and after the point and this exponent is
    too large. -/
def tooLarge (before after : List Char) (exponent : Int) : Bool :=
  let (kept, dropped) := whole before
  let (kept, taken) := fraction kept 0 after
  let scale : Int := dropped - taken + exponent
  if kept = 0 ∨ scale < 0 then false
  else if scale > 308 then true
  else round kept * round (Nat.pow 10 scale.toNat) ≥ limit

end AccessControl.Magnitude
