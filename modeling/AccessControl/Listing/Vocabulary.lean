/-
  AccessControl/Listing/Vocabulary.lean
  =====================================
  **The words and letters of written entries.**

  A field of bits is written in one of two ways: as names joined by slashes, or
  as a column of letters with a dash for every bit that is not set.  Reading is
  more liberal.  If the first name is known, the field is read as names, and
  some names are read that are never written.  Otherwise it is read as letters,
  as a set: order, repeats and dashes do not matter.
-/
import AccessControl.Entry.Basic

namespace AccessControl

/-- How the names in `κ` are written in a field: each with its word and its
    letter, in the order of writing, and words for sets that are only read. -/
structure Vocabulary (κ : Type) where
  field : BitField
  words : List (κ × String × Char)
  aliases : List (String × Flags κ)

namespace Vocabulary

variable {κ : Type} [Named κ]

/-! ### Writing -/

/-- The set as letters, with a dash for what is not in it. -/
def letters (v : Vocabulary κ) (s : Flags κ) : List Char :=
  v.words.map fun (name, _, letter) => if s.has name then letter else '-'

/-- The set as names, joined by slashes. -/
def names (v : Vocabulary κ) (s : Flags κ) : List Char :=
  ['/'].intercalate
    ((v.words.filter fun (name, _, _) => s.has name).map fun (_, word, _) => word.toList)

def write (v : Vocabulary κ) (verbose : Bool) (s : Flags κ) : List Char :=
  if verbose then v.names s else v.letters s

/-! ### Reading -/

/-- The bits that a word stands for. -/
def ofWord? (v : Vocabulary κ) (word : List Char) : Option (Flags κ) :=
  match v.words.find? fun (_, known, _) => known.toList = word with
  | some (name, _, _) => some (Flags.of [name])
  | none => (v.aliases.find? fun (known, _) => known.toList = word).map (·.2)

/-- The bit that a letter stands for. -/
def ofLetter? (v : Vocabulary κ) (letter : Char) : Option (Flags κ) :=
  (v.words.find? fun (_, _, known) => known = letter).map fun (name, _, _) => Flags.of [name]

/-- The bits of further names, added to those that were read before. -/
def readNames (v : Vocabulary κ) (bits : Flags κ) : List (List Char) → Except Malformed (Flags κ)
  | [] => .ok bits
  | word :: rest =>
    match v.ofWord? word with
    | some more => v.readNames (bits ∪ more) rest
    | none => .error (.bitName v.field (String.ofList word))

/-- The bits of letters, added to those that were read before. -/
def readLetters (v : Vocabulary κ) (bits : Flags κ) : List Char → Except Malformed (Flags κ)
  | [] => .ok bits
  | letter :: rest =>
    if letter = '-' then v.readLetters bits rest
    else
      match v.ofLetter? letter with
      | some more => v.readLetters (bits ∪ more) rest
      | none => .error (.bitLetter v.field letter)

/-- The bits of a field, and whether it was read as letters. -/
def read (v : Vocabulary κ) (text : List Char) : Except Malformed (Flags κ × Bool) :=
  match text.splitOn '/' with
  | [] => .ok (Flags.none, true)
  | first :: rest =>
    match v.ofWord? first with
    | some bits => (v.readNames bits rest).map (·, false)
    | none => (v.readLetters Flags.none text).map (·, true)

end Vocabulary

/-- The permissions field. -/
def Vocabulary.rights : Vocabulary Right where
  field := .permissions
  words := [
    (.readData, "read_data", 'r'),
    (.writeData, "write_data", 'w'),
    (.execute, "execute", 'x'),
    (.appendData, "append_data", 'p'),
    (.deleteChild, "delete_child", 'D'),
    (.delete, "delete", 'd'),
    (.readAttributes, "read_attributes", 'a'),
    (.writeAttributes, "write_attributes", 'A'),
    (.readNamedAttributes, "read_xattr", 'R'),
    (.writeNamedAttributes, "write_xattr", 'W'),
    (.readAcl, "read_acl", 'c'),
    (.writeAcl, "write_acl", 'C'),
    (.writeOwner, "write_owner", 'o'),
    (.synchronize, "synchronize", 's')]
  aliases := [
    ("full_set", Rights.full),
    ("modify_set", Rights.modify),
    ("read_set", Rights.read),
    ("write_set", Rights.write)]

/-- The flags field. -/
def Vocabulary.flags : Vocabulary EntryFlag where
  field := .flags
  words := [
    (.fileInherit, "file_inherit", 'f'),
    (.directoryInherit, "dir_inherit", 'd'),
    (.inheritOnly, "inherit_only", 'i'),
    (.noPropagate, "no_propagate", 'n'),
    (.successfulAccess, "successful_access", 'S'),
    (.failedAccess, "failed_access", 'F'),
    (.inherited, "inherited", 'I')]
  aliases := [("successfull_access", Flags.of [.successfulAccess])]

namespace EntryType

/-- The word for a type. -/
def word : EntryType → String
  | .allow => "allow"
  | .deny => "deny"
  | .audit => "audit"
  | .alarm => "alarm"

def ofWord? (text : List Char) : Option EntryType := all.find? fun type => type.word.toList = text

end EntryType

end AccessControl
