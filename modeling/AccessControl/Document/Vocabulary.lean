/-
  AccessControl/Document/Vocabulary.lean
  ======================================
  **The keys and words of documents.**

  Rights and flags are the keys of an object whose values say whether they are
  set.  Some sets have a name of their own, an alias, which may stand for the
  whole object.
-/
import AccessControl.Entry.Basic

namespace AccessControl.Document

/-- How the names in `κ` are written in a document: the member that holds them,
    the word for one of them in messages, the key of each, and the aliases. -/
structure Keys (κ : Type) where
  member : String
  noun : String
  keys : List (κ × String)
  aliases : List (Flags κ × String)

namespace Keys

variable {κ : Type}

/-- The name that a key stands for. -/
def ofKey? (k : Keys κ) (key : String) : Option κ :=
  (k.keys.find? fun (_, known) => known = key).map (·.1)

/-- The set that an alias stands for. -/
def ofAlias? (k : Keys κ) (word : String) : Option (Flags κ) :=
  (k.aliases.find? fun (_, known) => known = word).map (·.1)

/-- The alias of a set. -/
def alias? (k : Keys κ) (s : Flags κ) : Option String :=
  (k.aliases.find? fun (bits, _) => bits.word = s.word).map (·.2)

def rights : Keys Right where
  member := "perms"
  noun := "perm"
  keys := [
    (.readData, "READ_DATA"),
    (.writeData, "WRITE_DATA"),
    (.execute, "EXECUTE"),
    (.appendData, "APPEND_DATA"),
    (.deleteChild, "DELETE_CHILD"),
    (.delete, "DELETE"),
    (.readAttributes, "READ_ATTRIBUTES"),
    (.writeAttributes, "WRITE_ATTRIBUTES"),
    (.readNamedAttributes, "READ_NAMED_ATTRS"),
    (.writeNamedAttributes, "WRITE_NAMED_ATTRS"),
    (.readAcl, "READ_ACL"),
    (.writeAcl, "WRITE_ACL"),
    (.writeOwner, "WRITE_OWNER"),
    (.synchronize, "SYNCHRONIZE")]
  aliases := [
    (Rights.full, "FULL_CONTROL"),
    (Rights.modify, "MODIFY"),
    (Rights.read ∪ Flags.of [.execute], "READ"),
    (Flags.of [.execute, .readAttributes, .readNamedAttributes, .readAcl], "TRAVERSE")]

def flags : Keys EntryFlag where
  member := "flags"
  noun := "flag"
  keys := [
    (.fileInherit, "FILE_INHERIT"),
    (.directoryInherit, "DIRECTORY_INHERIT"),
    (.inheritOnly, "INHERIT_ONLY"),
    (.noPropagate, "NO_PROPAGATE_INHERIT"),
    (.successfulAccess, "SUCCESSFUL_ACCESS"),
    (.failedAccess, "FAILED_ACCESS"),
    (.inherited, "INHERITED")]
  aliases := [
    (EntryFlags.inheritable, "INHERIT"),
    (Flags.none, "NOINHERIT")]

end Keys

/-- The word for a type. -/
def typeWord : EntryType → String
  | .allow => "ALLOW"
  | .deny => "DENY"
  | .audit => "AUDIT"
  | .alarm => "ALARM"

def typeOfWord? (word : String) : Option EntryType :=
  EntryType.all.find? fun type => typeWord type = word

/-- The key for a flag of the whole list. -/
def listFlagKey : ListFlag → String
  | .autoInherit => "AUTOINHERIT"
  | .protect => "PROTECTED"
  | .defaulted => "DEFAULTED"

def listFlagOfKey? (key : String) : Option ListFlag :=
  ListFlag.all.find? fun flag => listFlagKey flag = key

end AccessControl.Document
