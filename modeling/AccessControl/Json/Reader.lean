/-
  AccessControl/Json/Reader.lean
  ==============================
  **Reading JSON text.**

  A `Reader` takes a value off the front of a text.  One that stops early says
  what is left of the text behind the character that it stopped at; the line of
  the fault is found from that, as the line of that character.

  A value that is read `strictly` has to make sense: escapes give whole
  characters, numbers are within floating point, and there are at most
  `maxDepth` levels of brackets.  A value that is only skipped need not.
-/
import AccessControl.Json.Magnitude
import AccessControl.Json.Value

namespace AccessControl.Json

/-- A reader gives a value and what follows it, or what is left of the text
    behind the character that it stopped at. -/
abbrev Reader (α : Type) := List Char → Except (List Char) (α × List Char)

/-- The largest number of nested brackets. -/
def maxDepth : Nat := 127

def isBlank (c : Char) : Bool := c = ' ' || c = '\n' || c = '\t' || c = '\r'

def skipBlanks (cs : List Char) : List Char := cs.dropWhile isBlank

/-- The text has to go on with these characters. -/
def expect : List Char → List Char → Except (List Char) (List Char)
  | [], cs => .ok cs
  | _ :: _, [] => .error []
  | e :: es, c :: cs => if c = e then expect es cs else .error cs

/-- After blanks, the text has to go on with this character. -/
def expectNext (e : Char) (cs : List Char) : Except (List Char) (List Char) :=
  expect [e] (skipBlanks cs)

/-! ### Strings -/

/-- The value of a hexadecimal digit. -/
def hexDigit? (c : Char) : Option Nat :=
  if '0' ≤ c ∧ c ≤ '9' then some (c.toNat - 0x30)
  else if 'a' ≤ c ∧ c ≤ 'f' then some (c.toNat - 0x57)
  else if 'A' ≤ c ∧ c ≤ 'F' then some (c.toNat - 0x37)
  else none

/-- The text without its first `n` bytes, and without the rest of a character
    that they cut. -/
def dropBytes (n : Nat) : List Char → List Char
  | [] => []
  | c :: cs => if n = 0 then c :: cs else dropBytes (n - c.utf8Size) cs

/-- What is left of `cs` once something has been taken off it. -/
abbrev Rest (cs : List Char) := { rest : List Char // rest.length ≤ cs.length }

/-- Four hexadecimal digits.  A fault is one of all four bytes. -/
def hex4 (cs : List Char) : Except (List Char) (Nat × Rest cs) :=
  match cs with
  | a :: b :: c :: d :: rest =>
    match hexDigit? a, hexDigit? b, hexDigit? c, hexDigit? d with
    | some a, some b, some c, some d =>
      .ok (((a * 16 + b) * 16 + c) * 16 + d, ⟨rest, by simp; omega⟩)
    | _, _, _, _ => .error (dropBytes 4 cs)
  | _ => .error (dropBytes 4 cs)

/-- The character of a pair of surrogates. -/
def joinSurrogates (lead trail : Nat) : Char :=
  Char.ofNat ((lead - 0xd800) * 0x400 + (trail - 0xdc00) + 0x10000)

/-- The second half of a pair of surrogates, as an escape of its own. -/
def trailing (lead : Nat) (cs : List Char) : Except (List Char) (Char × Rest cs) :=
  match cs with
  | [] => .error []
  | '\\' :: [] => .error []
  | '\\' :: 'u' :: rest =>
    match hex4 rest with
    | .error left => .error left
    | .ok (trail, ⟨left, short⟩) =>
      if 0xdc00 ≤ trail ∧ trail ≤ 0xdfff then
        .ok (joinSurrogates lead trail, ⟨left, by simp; omega⟩)
      else .error left
  | '\\' :: _ :: rest => .error rest
  | _ :: rest => .error rest

/-- The character of an escape, from behind its backslash. -/
def escaped (strict : Bool) (cs : List Char) : Except (List Char) (Char × Rest cs) :=
  match cs with
  | [] => .error []
  | 'u' :: rest =>
    match hex4 rest with
    | .error left => .error left
    | .ok (code, ⟨left, short⟩) =>
      if !strict || code < 0xd800 || code > 0xdfff then
        .ok (Char.ofNat code, ⟨left, by simp; omega⟩)
      else if code ≥ 0xdc00 then .error left
      else
        match trailing code left with
        | .error left => .error left
        | .ok (c, ⟨left', short'⟩) => .ok (c, ⟨left', by simp; omega⟩)
  | '"' :: rest => .ok ('"', ⟨rest, by simp⟩)
  | '\\' :: rest => .ok ('\\', ⟨rest, by simp⟩)
  | '/' :: rest => .ok ('/', ⟨rest, by simp⟩)
  | 'b' :: rest => .ok ('\x08', ⟨rest, by simp⟩)
  | 'f' :: rest => .ok ('\x0c', ⟨rest, by simp⟩)
  | 'n' :: rest => .ok ('\n', ⟨rest, by simp⟩)
  | 'r' :: rest => .ok ('\r', ⟨rest, by simp⟩)
  | 't' :: rest => .ok ('\t', ⟨rest, by simp⟩)
  | _ :: rest => .error rest

/-- The rest of a string, from behind its opening quote, after the characters
    `before`. -/
def stringFrom (strict : Bool) (before : List Char) (cs : List Char) :
    Except (List Char) (String × List Char) :=
  match cs with
  | [] => .error []
  | '"' :: rest => .ok (String.ofList before.reverse, rest)
  | '\\' :: rest =>
    match escaped strict rest with
    | .error left => .error left
    | .ok (c, ⟨left, _⟩) => stringFrom strict (c :: before) left
  | c :: rest => if c.toNat < 0x20 then .error rest else stringFrom strict (c :: before) rest
termination_by cs.length
decreasing_by
  all_goals simp
  omega

/-- A string, after blanks. -/
def stringValue (strict : Bool) : Reader String := fun cs => do
  stringFrom strict [] (← expectNext '"' cs)

/-! ### Numbers -/

/-- The digits at the front of a text, and what follows them. -/
def spanDigits (cs : List Char) : List Char × List Char :=
  (cs.takeWhile Char.isDigit, cs.dropWhile Char.isDigit)

/-- The number with a sign and digits before and after the point.  Without
    fraction and exponent it is an integer, but negative zero is not. -/
def Number.ofDigits (negative : Bool) (before after : List Char) (exponent : Option Int) :
    Number :=
  let digits := Nat.ofDigitChars 10 (before ++ after) 0
  match after, exponent with
  | [], none =>
    if negative then
      if digits = 0 then .decimal true 0 0 else .integer (-digits)
    else .integer digits
  | _, _ => .decimal negative digits (exponent.getD 0 - after.length)

/-- The exponent of a number, if it has one. -/
def exponent : Reader (Option Int) := fun cs =>
  match cs with
  | c :: rest =>
    if c = 'e' ∨ c = 'E' then
      let (negative, rest) : Bool × List Char := match rest with
        | '+' :: rest => (false, rest)
        | '-' :: rest => (true, rest)
        | _ => (false, rest)
      match spanDigits rest with
      | ([], left) => .error left.tail
      | (digits, left) =>
        let value : Int := Nat.ofDigitChars 10 digits 0
        .ok (some (if negative then -value else value), left)
    else .ok (none, cs)
  | [] => .ok (none, [])

/-- The digits behind the point of a number, if it has one. -/
def fraction : Reader (List Char) := fun cs =>
  match cs with
  | '.' :: rest =>
    match spanDigits rest with
    | ([], left) => .error left.tail
    | (digits, left) => .ok (digits, left)
  | _ => .ok ([], cs)

/-- The digits before the point: no zero in front of others. -/
def wholeDigits : Reader (List Char) := fun cs =>
  match cs with
  | [] => .error []
  | '0' :: rest =>
    match rest with
    | c :: left => if c.isDigit then .error left else .ok (['0'], rest)
    | [] => .ok (['0'], [])
  | c :: rest => if c.isDigit then .ok (spanDigits cs) else .error rest

/-- A number. -/
def numberValue (strict : Bool) : Reader Number := fun cs => do
  let (negative, cs) : Bool × List Char := match cs with
    | '-' :: rest => (true, rest)
    | _ => (false, cs)
  let (before, cs) ← wholeDigits cs
  let (after, cs) ← fraction cs
  let (exponent, cs) ← exponent cs
  if strict && Magnitude.tooLarge before after (exponent.getD 0) then .error cs
  else return (Number.ofDigits negative before after exponent, cs)

/-! ### Values -/

/-- Elements with commas between them up to the closing bracket, after those
    that were read before; at most `fuel` of them.  Every element takes something
    off the text, so the length of the text is fuel enough. -/
def elementsFrom {α : Type} (close : Char) (element : Reader α) :
    Nat → List α → Reader (List α)
  | 0, _, cs => .error cs
  | fuel + 1, before, cs => do
    let (e, cs) ← element cs
    match skipBlanks cs with
    | [] => .error []
    | c :: cs =>
      if c = ',' then elementsFrom close element fuel (e :: before) cs
      else if c = close then return ((e :: before).reverse, cs)
      else .error cs

/-- The elements of a bracket, from behind the opening one; at most `fuel` of
    them. -/
def elements {α : Type} (close : Char) (element : Reader α) (fuel : Nat) :
    Reader (List α) := fun cs =>
  match skipBlanks cs with
  | [] => .error []
  | c :: rest =>
    if c = close then .ok ([], rest)
    else elementsFrom close element fuel [] (c :: rest)

/-- A member of an object: key, colon, value. -/
def member (strict : Bool) (value : Reader Json) : Reader (String × Json) := fun cs => do
  let (key, cs) ← stringValue strict cs
  let (v, cs) ← value (← expectNext ':' cs)
  return ((key, v), cs)

/-- A value with at most `depth` levels of brackets and `fuel` elements in each;
    the length of the text is fuel enough. -/
def value (strict : Bool) (fuel depth : Nat) : Reader Json := fun cs =>
  match skipBlanks cs with
  | [] => .error []
  | '"' :: rest => (stringFrom strict [] rest).map fun (s, cs) => (.string s, cs)
  | 'n' :: rest => (expect "ull".toList rest).map (Json.null, ·)
  | 't' :: rest => (expect "rue".toList rest).map (Json.bool true, ·)
  | 'f' :: rest => (expect "alse".toList rest).map (Json.bool false, ·)
  | '[' :: rest =>
    match depth with
    | 0 => .error rest
    | depth + 1 =>
      (elements ']' (value strict fuel depth) fuel rest).map fun (items, cs) =>
        (.array items, cs)
  | '{' :: rest =>
    match depth with
    | 0 => .error rest
    | depth + 1 =>
      (elements '}' (member strict (value strict fuel depth)) fuel rest).map
        fun (members, cs) => (ofMembers members, cs)
  | c :: rest =>
    if c = '-' ∨ c.isDigit then
      (numberValue strict (c :: rest)).map fun (n, cs) => (.number n, cs)
    else .error rest

/-- A value that is passed over; the length of the text is fuel enough for its
    elements and for its levels. -/
def skip (fuel : Nat) : Reader Unit := fun cs =>
  (value false fuel fuel cs).map fun (_, cs) => ((), cs)

/-- The line on which a reader stopped, given what was left. -/
def lineOf (text left : List Char) : Nat := 1 + (text.count '\n' - left.count '\n')

/-- A whole text, or the line on which reading stopped. -/
def readAll {α : Type} (reader : Reader α) (text : String) : Except Nat α :=
  let cs := text.toList
  match reader cs with
  | .error left => .error (lineOf cs left)
  | .ok (a, left) =>
    match skipBlanks left with
    | [] => .ok a
    | _ :: left => .error (lineOf cs left)

/-- The value that a text stands for, or the line of the first fault. -/
def parse (text : String) : Except Nat Json :=
  readAll (value true text.length maxDepth) text

end AccessControl.Json
