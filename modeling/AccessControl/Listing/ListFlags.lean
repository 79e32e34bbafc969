/-
  AccessControl/Listing/ListFlags.lean
  ====================================
  **The flags of a list as words.**

  The words are joined by commas, and `none` stands for no flag.  Reading takes
  words in any order and any number; blanks are not taken off.
-/
import AccessControl.Entry.Basic

namespace AccessControl

namespace ListFlag

/-- The word for a flag of a list. -/
def word : ListFlag → String
  | .autoInherit => "auto-inherit"
  | .protect => "protected"
  | .defaulted => "defaulted"

def ofWord? (text : List Char) : Option ListFlag := all.find? fun flag => flag.word.toList = text

end ListFlag

namespace ListFlags

/-- The flags as words. -/
def text (flags : ListFlags) : String :=
  match (ListFlag.all.filter fun flag => flags.has flag).map ListFlag.word with
  | [] => "none"
  | words => ",".intercalate words

/-- The flags of words, added to those that were read before. -/
def readWords (flags : ListFlags) : List (List Char) → Except Fault ListFlags
  | [] => .ok flags
  | word :: rest =>
    if word = "none".toList then readWords flags rest
    else
      match ListFlag.ofWord? word with
      | some flag => readWords (flags ∪ Flags.of [flag]) rest
      | none => .error (.malformed (.listFlag (String.ofList word)))

/-- The flags that a text stands for. -/
def ofText (text : String) : Except Fault ListFlags :=
  readWords Flags.none (text.toList.splitOn ',')

end ListFlags

end AccessControl
