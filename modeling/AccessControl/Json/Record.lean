/-
  AccessControl/Json/Record.lean
  ==============================
  **Reading settings from JSON.**

  A record has fields, each with a key and a reader for its value.  It is read
  from an object, in which each key may occur once and unknown keys are passed
  over, or from an array of the values in the order of the fields, which may end
  early.  Fields that are not given keep their defaults.
-/
import AccessControl.Json.Reader

namespace AccessControl.Json

variable {α : Type}

/-- A field: its key, and a reader of what its value does to a record. -/
structure Field (α : Type) where
  key : String
  read : Reader (α → α)

/-- A member of a record: what a known one does, or nothing. -/
def fieldMember (fields : List (Field α)) (fuel : Nat) :
    Reader (Option (String × (α → α))) := fun cs => do
  let (key, cs) ← stringValue true cs
  let cs ← expectNext ':' cs
  match fields.find? fun field => field.key = key with
  | some field =>
    let (update, cs) ← field.read cs
    return (some (key, update), cs)
  | none =>
    let (_, cs) ← skip fuel cs
    return (none, cs)

/-- The members of a record, from behind the opening brace. -/
def named (fields : List (Field α)) (default : α) : Reader α := fun cs => do
  let fuel := cs.length
  let (members, cs) ← elements '}' (fieldMember fields fuel) fuel cs
  let known := members.filterMap id
  if (known.map (·.1)).Nodup then
    return (known.foldl (fun record (_, update) => update record) default, cs)
  else .error cs

/-- The values of a record in the order of its fields, from behind the opening
    bracket or a value. -/
def positional (first : Bool) (record : α) : List (Field α) → Reader α
  | [], cs => do return (record, ← expectNext ']' cs)
  | field :: fields, cs =>
    match skipBlanks cs with
    | [] => .error []
    | c :: rest =>
      if c = ']' then .ok (record, rest)
      else if first then do
        let (update, cs) ← field.read (c :: rest)
        positional false (update record) fields cs
      else if c = ',' then do
        let (update, cs) ← field.read rest
        positional false (update record) fields cs
      else .error rest

/-- A record. -/
def record (fields : List (Field α)) (default : α) : Reader α := fun cs =>
  match skipBlanks cs with
  | [] => .error []
  | c :: rest =>
    if c = '{' then named fields default rest
    else if c = '[' then positional true default fields rest
    else .error rest

/-! ### Values of fields -/

/-- A truth value. -/
def boolValue : Reader Bool := fun cs =>
  match skipBlanks cs with
  | 't' :: rest => (expect "rue".toList rest).map (true, ·)
  | 'f' :: rest => (expect "alse".toList rest).map (false, ·)
  | cs => .error cs.tail

/-- An integer from 0 to 255. -/
def byteValue : Reader UInt8 := fun cs => do
  let (n, cs) ← numberValue true (skipBlanks cs)
  match n with
  | .integer n => if 0 ≤ n ∧ n < 256 then return (UInt8.ofNat n.toNat, cs) else .error cs
  | .decimal .. => .error cs

/-- One of several names, alone or as the only key of an object with the value
    null. -/
def choiceValue (choices : List (String × α)) : Reader α := fun cs => do
  let pick (name : String) (cs : List Char) : Except (List Char) (α × List Char) :=
    match choices.find? fun choice => choice.1 = name with
    | some choice => .ok (choice.2, cs)
    | none => .error cs
  match skipBlanks cs with
  | '{' :: rest =>
    let (name, cs) ← stringValue true rest
    let (a, cs) ← pick name cs
    let cs ← expect "null".toList (skipBlanks (← expectNext ':' cs))
    return (a, ← expectNext '}' cs)
  | cs =>
    let (name, cs) ← stringValue true cs
    pick name cs

end AccessControl.Json
