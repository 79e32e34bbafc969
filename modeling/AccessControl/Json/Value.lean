/-
  AccessControl/Json/Value.lean
  =============================
  **JSON values and how they are written.**

  The members of an object are a list of pairs.  `Json.ofMembers` puts them in
  the order of their keys and keeps the last value of each key, which is the form
  in which objects are read and encoded; `pretty` and `compact` write members in
  the order in which they stand.
-/
import AccessControl.Text.Numeral

namespace AccessControl

/-- A JSON number: an integer, or decimal digits with a power of ten.  Negative
    zero and all literals with a fraction or an exponent are of the second
    form. -/
inductive Number where
  | integer (value : Int)
  | decimal (negative : Bool) (digits : Nat) (exponent : Int)
deriving DecidableEq

/-- A JSON value. -/
inductive Json where
  | null
  | bool (value : Bool)
  | number (value : Number)
  | string (value : String)
  | array (items : List Json)
  | object (members : List (String × Json))

namespace Json

/-! ### Objects -/

/-- `members`, which are in the order of their keys, with `value` under `key`. -/
def insertMember (key : String) (value : Json) : List (String × Json) → List (String × Json)
  | [] => [(key, value)]
  | (k, v) :: rest =>
    if key < k then (key, value) :: (k, v) :: rest
    else if key = k then (key, value) :: rest
    else (k, v) :: insertMember key value rest

/-- The object with these members: in the order of their keys, each key with the
    last value given to it. -/
def ofMembers (members : List (String × Json)) : Json :=
  .object (members.foldl (fun sorted member => insertMember member.1 member.2 sorted) [])

/-- The value under a key. -/
def find? (members : List (String × Json)) (key : String) : Option Json :=
  (members.find? fun member => member.1 = key).map (·.2)

/-! ### Looking into a value -/

def members? : Json → Option (List (String × Json))
  | .object members => some members
  | _ => none

def items? : Json → Option (List Json)
  | .array items => some items
  | _ => none

def string? : Json → Option String
  | .string value => some value
  | _ => none

def bool? : Json → Option Bool
  | .bool value => some value
  | _ => none

/-- The value of an integer literal that fits in 64 bits with a sign. -/
def int64? : Json → Option Int
  | .number (.integer value) =>
    if -0x8000000000000000 ≤ value ∧ value < 0x8000000000000000 then some value else none
  | _ => none

theorem members?_eq_some_iff {value : Json} {members : List (String × Json)} :
    value.members? = some members ↔ value = .object members := by
  cases value <;> simp [members?]

theorem items?_eq_some_iff {value : Json} {items : List Json} :
    value.items? = some items ↔ value = .array items := by
  cases value <;> simp [items?]

theorem string?_eq_some_iff {value : Json} {text : String} :
    value.string? = some text ↔ value = .string text := by
  cases value <;> simp [string?]

theorem bool?_eq_some_iff {value : Json} {set : Bool} :
    value.bool? = some set ↔ value = .bool set := by
  cases value <;> simp [bool?]

/-! ### Writing -/

/-- A character inside a string. -/
def escape (c : Char) : String :=
  if c = '"' then "\\\""
  else if c = '\\' then "\\\\"
  else if c = '\n' then "\\n"
  else if c = '\r' then "\\r"
  else if c = '\t' then "\\t"
  else if c = '\x08' then "\\b"
  else if c = '\x0c' then "\\f"
  else if c.toNat < 0x20 then
    "\\u" ++ String.ofList ((Nat.toDigits 16 c.toNat).leftpad 4 '0')
  else c.toString

/-- A string between quotes. -/
def quote (s : String) : String :=
  "\"" ++ s.toList.foldl (fun said c => said ++ escape c) "" ++ "\""

/-- A number; digits with a power of ten are written with an exponent. -/
def numberText : Number → String
  | .integer value => toString value
  | .decimal negative digits exponent =>
    (if negative then "-" else "") ++ toString digits ++ "e" ++ toString exponent

/-- A bracketed block with one element a line, indented to `depth`. -/
def block (opening closing : String) (depth : Nat) (elements : List String) : String :=
  let margin := String.ofList (List.replicate (2 * depth) ' ')
  opening ++ "\n" ++ ",\n".intercalate (elements.map fun e => margin ++ "  " ++ e) ++ "\n" ++
    margin ++ closing

mutual

/-- A value with one element a line, indented by two spaces a level. -/
def pretty (depth : Nat) : Json → String
  | .null => "null"
  | .bool value => if value then "true" else "false"
  | .number value => numberText value
  | .string value => quote value
  | .array items =>
    if items.isEmpty then "[]" else block "[" "]" depth (prettyItems (depth + 1) items)
  | .object members =>
    if members.isEmpty then "\x7b\x7d"
    else block "\x7b" "\x7d" depth (prettyMembers (depth + 1) members)

def prettyItems (depth : Nat) : List Json → List String
  | [] => []
  | item :: rest => pretty depth item :: prettyItems depth rest

def prettyMembers (depth : Nat) : List (String × Json) → List String
  | [] => []
  | (key, value) :: rest => (quote key ++ ": " ++ pretty depth value) :: prettyMembers depth rest

end

mutual

/-- A value without any blanks. -/
def compact : Json → String
  | .null => "null"
  | .bool value => if value then "true" else "false"
  | .number value => numberText value
  | .string value => quote value
  | .array items => "[" ++ ",".intercalate (compactItems items) ++ "]"
  | .object members => "\x7b" ++ ",".intercalate (compactMembers members) ++ "\x7d"

def compactItems : List Json → List String
  | [] => []
  | item :: rest => compact item :: compactItems rest

def compactMembers : List (String × Json) → List String
  | [] => []
  | (key, value) :: rest => (quote key ++ ":" ++ compact value) :: compactMembers rest

end

end Json

end AccessControl
