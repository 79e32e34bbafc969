/-
  AccessControl/Entry/Flag.lean
  =============================
  **The flags of an entry and the flags of a whole list.**

  Entry flags fall into four groups: the four that say how a directory passes
  the entry on (`directoryOnly`), the two that say which accesses an audit or
  alarm entry records, the mark of an inherited entry, and the bits that repeat
  what the principal already says (`identifierGroup` and the three `markers`).
-/
import AccessControl.Bits

namespace AccessControl

/-- A flag of a single entry. -/
inductive EntryFlag where
  | fileInherit
  | directoryInherit
  | inheritOnly
  | noPropagate
  | successfulAccess
  | failedAccess
  | inherited
  | identifierGroup
  | ownerMark
  | groupMark
  | everyoneMark
deriving DecidableEq, Repr, Inhabited

namespace EntryFlag

def bit : EntryFlag → Word
  | .fileInherit => 0x1
  | .directoryInherit => 0x2
  | .noPropagate => 0x4
  | .inheritOnly => 0x8
  | .successfulAccess => 0x10
  | .failedAccess => 0x20
  | .identifierGroup => 0x40
  | .inherited => 0x80
  | .ownerMark => 0x1000
  | .groupMark => 0x2000
  | .everyoneMark => 0x4000

/-- The flags that have a written form, in the order in which they are written.
    The others follow from the principal. -/
def shown : List EntryFlag :=
  [.fileInherit, .directoryInherit, .inheritOnly, .noPropagate, .successfulAccess,
    .failedAccess, .inherited]

def all : List EntryFlag :=
  shown ++ [.identifierGroup, .ownerMark, .groupMark, .everyoneMark]

instance : Named EntryFlag := ⟨bit, all⟩

end EntryFlag

/-- The flags of an entry. -/
abbrev EntryFlags := Flags EntryFlag

namespace EntryFlags

/-- The flags that only a directory's entry can carry. -/
def directoryOnly : EntryFlags :=
  Flags.of [.fileInherit, .directoryInherit, .noPropagate, .inheritOnly]

/-- The flags that make an entry inheritable. -/
def inheritable : EntryFlags := Flags.of [.fileInherit, .directoryInherit]

/-- The marks of the three well-known principals. -/
def markers : EntryFlags := Flags.of [.ownerMark, .groupMark, .everyoneMark]

/-- The flags with a written form. -/
def shown : EntryFlags := Flags.of EntryFlag.shown

def identifierGroup : EntryFlags := Flags.of [.identifierGroup]

theorem word_all : (Flags.all : EntryFlags).word = 0x70FF#32 := by decide

theorem word_shown : shown.word = 0xBF#32 := by decide

theorem word_directoryOnly : directoryOnly.word = 0xF#32 := by decide

theorem word_markers : markers.word = 0x7000#32 := by decide

end EntryFlags

/-- A flag of a whole list. -/
inductive ListFlag where
  | autoInherit
  | protect
  | defaulted
deriving DecidableEq, Repr, Inhabited

namespace ListFlag

def bit : ListFlag → Word
  | .autoInherit => 0x1
  | .protect => 0x2
  | .defaulted => 0x4

def all : List ListFlag := [.autoInherit, .protect, .defaulted]

instance : Named ListFlag := ⟨bit, all⟩

end ListFlag

/-- The flags of a whole list.  Bits without a name are kept. -/
abbrev ListFlags := Flags ListFlag

theorem ListFlags.word_all : (Flags.all : ListFlags).word = 0x7#32 := by decide

end AccessControl
