/-
  AccessControl/Diagnostics/Verbosity.lean
  ========================================
  **How much is said about each topic.**

  Each topic has a level from 0, at which nothing is said, to 255; above 3 there
  is no more to say.  Levels are set by tokens such as `xdr2`: the name of a
  topic, `all` or `none`, then the level in decimal, which is 1 if it is left out.
  A list of tokens is applied from left to right up to the first one that is
  refused, and what was set before that one stays set.
-/
import AccessControl.Diagnostics.Topic
import AccessControl.Json.Record
import AccessControl.Text.Blank

namespace AccessControl

/-- The level of each topic. -/
structure Verbosity where
  level : Topic → UInt8

/-- Why a token is refused. -/
inductive TokenFault where
  | empty
  | badLevel (token : String)
  | unknown (name : String)
deriving DecidableEq

/-- The one place where refused tokens are worded. -/
def TokenFault.message : TokenFault → String
  | .empty => "empty flag token"
  | .badLevel token => "invalid level in flag: " ++ token
  | .unknown name => "unknown debug flag: " ++ name

namespace Verbosity

/-- One level for every topic. -/
def uniform (level : UInt8) : Verbosity := ⟨fun _ => level⟩

/-- Nothing is said. -/
def silent : Verbosity := uniform 0

/-- The level of one topic changed. -/
def set (v : Verbosity) (topic : Topic) (level : UInt8) : Verbosity :=
  ⟨fun t => if t = topic then level else v.level t⟩

/-- The levels for a number of `-v` options. -/
def ofCount (count : UInt8) : Verbosity :=
  if count = 0 then silent
  else if count = 1 then silent.set .store 2
  else if count = 2 then ((silent.set .store 2).set .list 2).set .inheritance 2
  else if count = 3 then uniform 2
  else uniform 3

def isSilent (v : Verbosity) : Bool := Topic.all.all fun topic => v.level topic == 0

@[simp] theorem level_uniform (level : UInt8) (topic : Topic) :
    (uniform level).level topic = level := rfl

/-! ### Tokens -/

/-- A token as a name and a level. -/
def splitToken (token : List Char) : Except TokenFault (List Char × UInt8) :=
  if token = [] then .error .empty
  else
    let isName (c : Char) : Bool := !c.isDigit
    match token.dropWhile isName with
    | [] => .ok (token, 1)
    | digits =>
      match Numeral.boundedDecimal? 255 digits with
      | some level => .ok (token.takeWhile isName, UInt8.ofNat level)
      | none => .error (.badLevel (String.ofList token))

/-- The levels after a token. -/
def applyToken (v : Verbosity) (token : List Char) : Except TokenFault Verbosity := do
  let (name, level) ← splitToken token
  if name = "all".toList then return uniform level
  else if name = "none".toList then return silent
  else
    match Topic.ofName? (String.ofList name) with
    | some topic => return v.set topic level
    | none => throw (.unknown (String.ofList name))

/-- The levels after the tokens before the first one that is refused, and why it
    is. -/
def applyTokens (v : Verbosity) : List (List Char) → Verbosity × Option TokenFault
  | [] => (v, none)
  | token :: rest =>
    match v.applyToken token with
    | .ok changed => changed.applyTokens rest
    | .error fault => (v, some fault)

/-- The tokens of a list: what is between commas, without the blanks around it.
    Where nothing is left, there is no token. -/
def tokensOf (text : List Char) : List (List Char) :=
  ((text.splitOn ',').map Text.trim).filter (· ≠ [])

/-- The levels after a list of tokens. -/
def applyList (v : Verbosity) (text : String) : Verbosity × Option TokenFault :=
  v.applyTokens (tokensOf text.toList)

/-! ### Directives -/

/-- The word for a level, which is the word for the least urgent severity that it
    lets through. -/
def levelWord? (level : UInt8) : Option String :=
  if level = 0 then none
  else if level = 1 then some "info"
  else if level = 2 then some "debug"
  else some "trace"

/-- What is said about a topic, if anything. -/
def directive? (v : Verbosity) (topic : Topic) : Option String :=
  (levelWord? (v.level topic)).map fun word => topic.target ++ "=" ++ word

/-- The levels as directives, joined by commas. -/
def directives (v : Verbosity) : String :=
  match Topic.all.filterMap v.directive? with
  | [] => "off"
  | directives => ",".intercalate directives

/-! ### Settings -/

/-- The level of a topic as a field. -/
def levelField (topic : Topic) : Json.Field Verbosity :=
  ⟨topic.name, fun cs => do
    let (level, cs) ← Json.byteValue cs
    return (fun v => v.set topic level, cs)⟩

/-- The levels as a field. -/
def levelsField : Json.Field Verbosity :=
  ⟨"debug", fun cs => do
    let (levels, cs) ← Json.record (Topic.all.map levelField) silent cs
    return (fun _ => levels, cs)⟩

/-- The levels in a JSON text, if it is one.  What is left out is 0. -/
def ofText? (text : String) : Option Verbosity :=
  (Json.readAll (Json.record [levelsField] silent) text).toOption

/-- The levels as a JSON text. -/
def text (v : Verbosity) : String :=
  (Json.object
    [("debug", .object (Topic.all.map fun topic =>
      (topic.name, .number (.integer (v.level topic).toNat))))]).compact

end Verbosity

end AccessControl
