/-
  AccessControl/Listing/Entry.lean
  ================================
  **One entry as a line of text.**

      tag[:qualifier]:permissions[:flags]:type[:id]

  The tag is a well-known principal, or `user` or `group` (short `u`, `g`) with a
  name or id as its qualifier.  Reading goes in two steps.  `Layout.ofLine` cuts
  a line into its fields and knows nothing of what they mean, but for one
  ambiguity: of two fields at the end, the first is the type if it is a type and
  the second an id, and otherwise the flags.  `Layout.entry` then reads the
  fields, in this order: permissions, flags, type, id, principal.

  An id after the type settles whom a named entry is for; without one the
  qualifier is read as an id if it can be, and looked up as a name if not.
-/
import AccessControl.Diagnostics.Traced
import AccessControl.Listing.Style
import AccessControl.Listing.Vocabulary
import AccessControl.Names
import AccessControl.Text.Blank

namespace AccessControl.Listing

/-! ### Writing -/

/-- The least width of the column for tag and qualifier. -/
def whoWidth : Nat := 18

/-- Tag and qualifier of an entry. -/
def whoText (style : Style) (names : NameService) (e : Entry) : String :=
  match e.principal.tag? with
  | some tag => tag
  | none =>
    let tag := if e.isGroup then "group" else "user"
    let name := if style.has .numericIds then none else names.name? e.principal.id e.isGroup
    tag ++ ":" ++ name.getD e.principal.text

/-- The id that is written after the type, where the style asks for it. -/
def idText (style : Style) (e : Entry) : List Char :=
  match e.principal with
  | .named _ => if style.has .appendId then ':' :: e.principal.text.toList else []
  | _ => []

/-- An entry as text, the tag pushed to the right of its column. -/
def formatChars (style : Style) (names : NameService) (e : Entry) : List Char :=
  (whoText style names e).toList.leftpad whoWidth ' ' ++
    ':' :: Vocabulary.rights.write (style.has .verbose) e.mask ++
    ':' :: Vocabulary.flags.write (style.has .verbose) e.shownFlags ++
    ':' :: e.type.word.toList ++ idText style e

def format (style : Style) (names : NameService) (e : Entry) : String :=
  String.ofList (formatChars style names e)

/-! ### Fields -/

/-- Whom a line speaks about, before names are looked up. -/
inductive Subject where
  | wellKnown (principal : Principal)
  | named (isGroup : Bool) (qualifier : List Char)
deriving DecidableEq

/-- What a tag announces. -/
inductive Tag where
  | wellKnown (principal : Principal)
  | named (isGroup : Bool)
deriving DecidableEq

def Tag.ofWord? (word : List Char) : Option Tag :=
  if word = "owner@".toList then some (.wellKnown .owner)
  else if word = "group@".toList then some (.wellKnown .group)
  else if word = "everyone@".toList then some (.wellKnown .everyone)
  else if word = "user".toList ∨ word = "u".toList then some (.named false)
  else if word = "group".toList ∨ word = "g".toList then some (.named true)
  else none

/-- The fields of a line. -/
structure Layout where
  subject : Subject
  permissions : List Char
  flags : Option (List Char)
  type : List Char
  id : Option (List Char)
deriving DecidableEq

/-- The blanks that may stand around a tag. -/
def isTagBlank (c : Char) : Bool := c = ' ' || c = '\t'

/-- An id in ASCII digits. -/
def id? (text : List Char) : Option Int32 :=
  (Numeral.boundedDecimal? Principal.maxId text).map Int32.ofNat

namespace Layout

/-- The fields after the permissions: flags, type and id. -/
def endings : List (List Char) →
    Except Malformed (Option (List Char) × List Char × Option (List Char))
  | [] => .error (.truncated .type)
  | [type] => .ok (none, type, none)
  | [first, second] =>
    if (EntryType.ofWord? first).isSome ∧ (id? second).isSome then .ok (none, first, some second)
    else .ok (some first, second, none)
  | [flags, type, id] => .ok (some flags, type, some id)
  | _ => .error .tooManyFields

/-- The fields after tag and qualifier. -/
def afterSubject (subject : Subject) : List (List Char) → Except Malformed Layout
  | [] => .error (.truncated .permissions)
  | permissions :: rest => do
    let (flags, type, id) ← endings rest
    return { subject, permissions, flags, type, id }

/-- A line cut into its fields. -/
def ofLine (line : List Char) : Except Malformed Layout :=
  match line.splitOn ':' with
  | [] => .error (.tag "")
  | first :: rest =>
    let word := Text.trimWith isTagBlank first
    match Tag.ofWord? word with
    | none => .error (.tag (String.ofList word))
    | some (.wellKnown principal) => afterSubject (.wellKnown principal) rest
    | some (.named isGroup) =>
      match rest with
      | [] => .error (.truncated .qualifier)
      | [] :: _ => .error .emptyQualifier
      | qualifier :: rest => afterSubject (.named isGroup qualifier) rest

/-- The id after the type, if there is one. -/
def appended (layout : Layout) : Except Malformed (Option Int32) :=
  match layout.id with
  | none => .ok none
  | some text =>
    match id? text with
    | some id => .ok (some id)
    | none => .error (.id (String.ofList text))

end Layout

/-! ### Reading -/

/-- The id that a qualifier stands for: itself, if it is one, or that of the
    name. -/
def resolve (names : NameService) (isGroup : Bool) (qualifier : List Char) : Except Fault Int32 :=
  match (id? qualifier).or (names.id? (String.ofList qualifier) isGroup) with
  | some id => .ok id
  | none => .error (.unknownName isGroup (String.ofList qualifier))

namespace Layout

/-- The principal of a line, given the id after its type. -/
def principal (names : NameService) (layout : Layout) (appended : Option Int32) :
    Except Fault Principal :=
  match layout.subject, appended with
  | .wellKnown principal, _ => .ok principal
  | .named _ _, some id => .ok (.named id)
  | .named isGroup qualifier, none => (resolve names isGroup qualifier).map .named

/-- The flags that the tag adds to those that are written. -/
def subjectFlags (layout : Layout) : EntryFlags :=
  match layout.subject with
  | .named true _ => EntryFlags.identifierGroup
  | _ => Flags.none

/-- The bits of the flags field, which may be missing. -/
def flagBits (layout : Layout) : Except Malformed (EntryFlags × Bool) :=
  match layout.flags with
  | some text => Vocabulary.flags.read text
  | none => .ok (Flags.none, false)

/-- The entry that the fields stand for, and which of its two fields of bits
    were written as letters. -/
def entry (kind : ObjectKind) (names : NameService) (layout : Layout) :
    Except Fault (Entry × Bool × Bool) := do
  let (mask, compactRights) ←
    (Vocabulary.rights.read layout.permissions).mapError Fault.malformed
  let (flags, compactFlags) ← layout.flagBits.mapError Fault.malformed
  let type ← match EntryType.ofWord? layout.type with
    | some type => pure type
    | none => throw (.malformed (.type (String.ofList layout.type)))
  let appended ← layout.appended.mapError Fault.malformed
  let principal ← layout.principal names appended
  let e ← Entry.build kind type (flags ∪ layout.subjectFlags) mask principal
  return (e, compactRights, compactFlags)

end Layout

/-- The entry on a line, or nothing for an empty line or a comment. -/
def parseChars (kind : ObjectKind) (names : NameService) (line : List Char) :
    Attempt Fault (Option Entry) :=
  let line := Text.trim line
  if line = [] ∨ line.head? = some '#' then return none
  else do
    let layout ← Attempt.silent ((Layout.ofLine line).mapError Fault.malformed)
    let (e, compactRights, compactFlags) ← Attempt.silent (layout.entry kind names)
    Traced.emit (.entryParsed (String.ofList line) compactRights compactFlags)
    return some e

def parse (kind : ObjectKind) (names : NameService) (line : String) : Attempt Fault (Option Entry) :=
  parseChars kind names line.toList

end AccessControl.Listing
