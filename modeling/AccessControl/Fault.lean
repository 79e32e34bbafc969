/-
  AccessControl/Fault.lean
  ========================
  **Why an operation on access lists can fail, and how each failure is worded.**

  A `Fault` names the cause and carries the values that its message shows;
  `Fault.message` is the one place where the wording stands.  Grammar faults are
  a type of their own, `Malformed`, because each has a place (`Malformed.field`)
  beside its wording.  Faults found in a document are gathered as a list of
  `Issue`s, in the order in which they were found.
-/
import AccessControl.Entry.Flag
import AccessControl.Right
import AccessControl.Text.Numeral

namespace AccessControl

/-- The two kinds of object that an access list can belong to. -/
inductive ObjectKind where
  | file
  | directory
deriving DecidableEq, Repr, Inhabited

namespace ObjectKind

def isDirectory (kind : ObjectKind) : Bool := kind == .directory

def ofDirectory (isDirectory : Bool) : ObjectKind := if isDirectory then .directory else .file

def text : ObjectKind → String
  | .file => "file"
  | .directory => "directory"

end ObjectKind

/-- The fields of a written entry that hold bits. -/
inductive BitField where
  | permissions
  | flags
deriving DecidableEq, Repr

def BitField.text : BitField → String
  | .permissions => "permissions"
  | .flags => "flags"

/-- The fields of a written entry whose absence cuts it short. -/
inductive RequiredField where
  | qualifier
  | permissions
  | type
deriving DecidableEq, Repr

def RequiredField.text : RequiredField → String
  | .qualifier => "qualifier"
  | .permissions => "permissions"
  | .type => "type"

/-- A text or document that breaks its grammar. -/
inductive Malformed where
  | tag (word : String)
  | truncated (field : RequiredField)
  | emptyQualifier
  | tooManyFields
  | bitName (field : BitField) (name : String)
  | bitLetter (field : BitField) (letter : Char)
  | type (word : String)
  | id (word : String)
  | noEntries
  | holdsNoEntry (text : String)
  | listFlag (word : String)
  | documentNotObject
  | entriesMissing
  | json (line : Nat)
deriving DecidableEq

namespace Malformed

/-- The field at fault, where there is one. -/
def field : Malformed → Option String
  | .tag _ => some "tag"
  | .truncated field => some field.text
  | .emptyQualifier => some "qualifier"
  | .tooManyFields => some "appended id"
  | .bitName field _ => some field.text
  | .bitLetter field _ => some field.text
  | .type _ => some "type"
  | .id _ => some "appended id"
  | .noEntries => none
  | .holdsNoEntry _ => none
  | .listFlag _ => some "aclflags"
  | .documentNotObject => some "acl"
  | .entriesMissing => some "acl"
  | .json _ => none

/-- What is wrong there. -/
def detail : Malformed → String
  | .tag word => "invalid tag \"" ++ word ++ "\""
  | .truncated _ => "truncated entry"
  | .emptyQualifier => "empty qualifier"
  | .tooManyFields => "too many fields"
  | .bitName field name =>
    "\"" ++ field.text ++ "\" field contains invalid name \"" ++ name ++ "\""
  | .bitLetter field letter =>
    "\"" ++ field.text ++ "\" field contains invalid letter \"" ++ letter.toString ++ "\""
  | .type word => "invalid type \"" ++ word ++ "\""
  | .id word => "invalid id \"" ++ word ++ "\""
  | .noEntries => "specification contains no entries"
  | .holdsNoEntry text => "\"" ++ text ++ "\" holds no entry"
  | .listFlag word => "invalid aclflag \"" ++ word ++ "\""
  | .documentNotObject => "JSON document is not an object"
  | .entriesMissing => "ACES array not found"
  | .json line => "JSON error on line " ++ toString line

/-- The wording of a grammar fault: its place, where it has one, then the detail. -/
def render (field : Option String) (detail : String) : String :=
  match field with
  | some field => "malformed ACL: " ++ field ++ ": " ++ detail
  | none => "malformed ACL: " ++ detail

def message (m : Malformed) : String := render m.field m.detail

end Malformed

/-- One thing wrong with a document: the member at fault, as a dotted path, and
    what is wrong with it. -/
structure Issue where
  field : String
  message : String
deriving DecidableEq

namespace Issue

def text (issue : Issue) : String := issue.field ++ ": " ++ issue.message

/-- The wording of a list of issues: how many there are, then each. -/
def summary (issues : List Issue) : String :=
  issues.foldl (fun said issue => said ++ "; " ++ issue.text)
    ("ACL validation failed with " ++ toString issues.length ++ " error(s)")

end Issue

/-- The largest number of entries that the wire form can carry. -/
def maxEntries : Nat := 128

/-- The largest size of a specification, in bytes. -/
def maxSpecSize : Nat := 65536

/-- Why an operation failed. -/
inductive Fault where
  | unknownType (value : Word)
  | directoryOnlyFlags (flags : EntryFlags)
  | doesNotFit (flags : EntryFlags) (mask : Rights)
  | nothingToInherit
  | kindMismatch (expected : ObjectKind)
  | specTooLong
  | negativeId (id : Int32)
  | idTooLarge (who : Word)
  | unknownWho (who : Word)
  | unknownName (isGroup : Bool) (name : String)
  | outOfRange (index count : Nat)
  | absent
  | badLength (length : Nat)
  | tooMany (count : Nat)
  | notUnicode
  | malformed (cause : Malformed)
  | invalid (issues : List Issue)
deriving DecidableEq

namespace Fault

/-- The one place where faults are worded. -/
def message : Fault → String
  | .unknownType value => "invalid argument: invalid NFSv4 ACE type: " ++ toString value.toNat
  | .directoryOnlyFlags flags =>
    "invalid argument: flags 0x" ++ Numeral.hex8 flags.word ++ " are only valid on directories"
  | .doesNotFit flags mask =>
    "invalid argument: ACE with flags 0x" ++ Numeral.hex8 flags.word ++ " and mask 0x" ++
      Numeral.hex8 mask.word ++ " is only valid on directories"
  | .nothingToInherit =>
    "invalid argument: no parent ACL and mode skipped: nothing to inherit"
  | .kindMismatch expected =>
    "invalid argument: target is a " ++ expected.text ++ "; ACL kind does not match"
  | .specTooLong =>
    "invalid argument: ACL specification exceeds " ++ toString maxSpecSize ++ " bytes"
  | .negativeId id =>
    "invalid principal: named principal requires a non-negative id, got " ++ toString id.toInt
  | .idTooLarge who =>
    "invalid principal: named id " ++ toString who.toNat ++ " is outside 0..=2147483647"
  | .unknownWho who => "invalid principal: unknown special principal " ++ toString who.toNat
  | .unknownName isGroup name =>
    "invalid principal: unknown " ++ (if isGroup then "group" else "user") ++ " name \"" ++
      name ++ "\""
  | .outOfRange index count =>
    "index " ++ toString index ++ " out of range for ACL with " ++ toString count ++ " entries"
  | .absent => "ACE not found in ACL"
  | .badLength length => "invalid ACL payload size: " ++ toString length ++ " bytes"
  | .tooMany count =>
    "ACL holds " ++ toString count ++ " entries, maximum is " ++ toString maxEntries
  | .notUnicode => "I/O error: stream did not contain valid UTF-8"
  | .malformed cause => cause.message
  | .invalid issues => Issue.summary issues

end Fault

end AccessControl
