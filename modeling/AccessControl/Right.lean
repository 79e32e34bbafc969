/-
  AccessControl/Right.lean
  ========================
  **The fourteen rights of an access mask, and the sets that have names.**

  A mask is a word with one bit per right.  The order of `Right` is the order in
  which rights are printed, which is not the order of their bits.
-/
import AccessControl.Bits

namespace AccessControl

/-- What an entry grants, refuses or records. -/
inductive Right where
  | readData
  | writeData
  | execute
  | appendData
  | deleteChild
  | delete
  | readAttributes
  | writeAttributes
  | readNamedAttributes
  | writeNamedAttributes
  | readAcl
  | writeAcl
  | writeOwner
  | synchronize
deriving DecidableEq, Repr, Inhabited

namespace Right

/-- The bit of each right on the wire. -/
def bit : Right → Word
  | .readData => 0x1
  | .writeData => 0x2
  | .appendData => 0x4
  | .readNamedAttributes => 0x8
  | .writeNamedAttributes => 0x10
  | .execute => 0x20
  | .deleteChild => 0x40
  | .readAttributes => 0x80
  | .writeAttributes => 0x100
  | .delete => 0x10000
  | .readAcl => 0x20000
  | .writeAcl => 0x40000
  | .writeOwner => 0x80000
  | .synchronize => 0x100000

def all : List Right :=
  [.readData, .writeData, .execute, .appendData, .deleteChild, .delete, .readAttributes,
    .writeAttributes, .readNamedAttributes, .writeNamedAttributes, .readAcl, .writeAcl,
    .writeOwner, .synchronize]

instance : Named Right := ⟨bit, all⟩

end Right

/-- An access mask. -/
abbrev Rights := Flags Right

namespace Rights

/-- Every right there is. -/
def full : Rights := Flags.all

/-- Everything but changing the list itself or the owner. -/
def modify : Rights := full \ Flags.of [.writeAcl, .writeOwner]

/-- Reading the data, the attributes and the list. -/
def read : Rights :=
  Flags.of [.readData, .readAttributes, .readNamedAttributes, .readAcl]

/-- Writing the data and the attributes. -/
def write : Rights :=
  Flags.of [.writeData, .appendData, .writeAttributes, .writeNamedAttributes]

/-- The right that only a directory can give: removing what is in it. -/
def deleteChild : Rights := Flags.of [.deleteChild]

example : full.word = 0x1F01FF ∧ read.word = 0x20089 ∧ write.word = 0x116 := by decide

end Rights

end AccessControl
