/-
  AccessControl/AccessList/Mode.lean
  ==================================
  **Access lists and permission modes.**

  A mode gives each class of requester (owner, group, others) the right to read,
  write and execute, as nine bits of a word.  `AccessList.ofMode` builds the
  list that says the same: allow entries for the three classes, preceded by deny
  entries wherever a later, wider entry would grant the owner or the group
  something that the mode withholds.  Entries are evaluated in order and the
  first that decides counts, so what a group is denied but its owner is not has
  to be allowed to the owner first.

  `AccessList.mode` goes back: it folds the entries for the well-known
  principals into mode bits, deny entries winning over allow entries.  A list is
  trivial when it is the list of its own mode.
-/
import AccessControl.AccessList.Inherit

namespace AccessControl

/-- A permission mode.  Bits beyond the nine permissions are kept. -/
abbrev Mode := Word

/-- The classes of requester that a mode tells apart. -/
inductive Requester where
  | owner
  | group
  | other
deriving DecidableEq, Repr

/-- The permissions that a mode grants to each class. -/
inductive Permission where
  | read
  | write
  | execute
deriving DecidableEq, Repr

namespace Requester

def all : List Requester := [.owner, .group, .other]

end Requester

namespace Permission

def all : List Permission := [.read, .write, .execute]

/-- The right that a permission is read off from. -/
def right : Permission → Right
  | .read => .readData
  | .write => .writeData
  | .execute => .execute

/-- The rights that a permission gives. -/
def rights : Permission → Rights
  | .read => Flags.of [.readData]
  | .write => Flags.of [.writeData, .appendData]
  | .execute => Flags.of [.execute]

end Permission

namespace Mode

/-- The bit of a permission for a class. -/
def bit : Requester → Permission → Mode
  | .owner, .read => 0x100
  | .owner, .write => 0x80
  | .owner, .execute => 0x40
  | .group, .read => 0x20
  | .group, .write => 0x10
  | .group, .execute => 0x8
  | .other, .read => 0x4
  | .other, .write => 0x2
  | .other, .execute => 0x1

/-- The mode grants a permission to a class. -/
def grants (mode : Mode) (who : Requester) (p : Permission) : Bool := mode &&& bit who p != 0

/-- The rights that a class has under a mode, the basic ones aside. -/
def rightsOf (mode : Mode) (who : Requester) : Rights :=
  (Permission.all.filter (mode.grants who)).foldl (fun given p => given ∪ p.rights) Flags.none

/-- The rights that every class has under every mode. -/
def basic : Rights :=
  Flags.of [.readAcl, .readAttributes, .synchronize, .readNamedAttributes]

/-- The further rights that the owner has under every mode. -/
def ownerBasic : Rights :=
  Flags.of [.writeAcl, .appendData, .writeOwner, .writeAttributes, .writeNamedAttributes]

/-- The rights of a class under a mode. -/
def allowed (mode : Mode) : Requester → Rights
  | .owner => (basic ∪ ownerBasic) ∪ mode.rightsOf .owner
  | .group => basic ∪ mode.rightsOf .group
  | .other => basic ∪ mode.rightsOf .other

/-- What the owner is denied: rights of a wider class that are not its own. -/
def ownerDenied (mode : Mode) : Rights :=
  (mode.allowed .group ∪ mode.allowed .other) \ mode.allowed .owner

/-- What the group is denied: rights of everyone that are not its own. -/
def groupDenied (mode : Mode) : Rights := mode.allowed .other \ mode.allowed .group

/-- What the owner has to be allowed before the group is denied it. -/
def ownerFirst (mode : Mode) : Rights := mode.groupDenied \ mode.ownerDenied

end Mode

/-! ### From a mode to a list -/

namespace AccessList

/-- An entry for a class at the end of a list. -/
def pushClass (list : AccessList) (kind : ObjectKind) (type : EntryType) (mask : Rights)
    (principal : Principal) : Attempt Fault AccessList := do
  let flags := if principal = .group then EntryFlags.identifierGroup else Flags.none
  let e ← Attempt.silent (Entry.build kind type flags mask principal)
  list.push e

/-- The same, unless there is nothing to say. -/
def pushNonempty (list : AccessList) (kind : ObjectKind) (type : EntryType) (mask : Rights)
    (principal : Principal) : Attempt Fault AccessList :=
  if mask.isEmpty then return list else list.pushClass kind type mask principal

/-- The entries of a mode that stand before inherited ones. -/
def pushDenied (list : AccessList) (kind : ObjectKind) (mode : Mode) :
    Attempt Fault AccessList := do
  let list ← list.pushNonempty kind .allow mode.ownerFirst .owner
  let list ← list.pushNonempty kind .deny mode.ownerDenied .owner
  list.pushNonempty kind .deny mode.groupDenied .group

/-- The entries of a mode that stand after inherited ones. -/
def pushAllowed (list : AccessList) (kind : ObjectKind) (mode : Mode) :
    Attempt Fault AccessList := do
  let list ← list.pushClass kind .allow (mode.allowed .owner) .owner
  let list ← list.pushClass kind .allow (mode.allowed .group) .group
  list.pushClass kind .allow (mode.allowed .other) .everyone

/-- `list` extended for a new object: by the entries of its mode, unless that is
    skipped, around those that it inherits, if it has a parent. -/
def extend (list : AccessList) (parent : Option AccessList) (mode : Mode) (skipMode : Bool)
    (kind : ObjectKind) : Attempt Fault AccessList := do
  if parent.isNone && skipMode then
    throw .nothingToInherit
  let list ← if skipMode then pure list else list.pushDenied kind mode
  let list ← match parent with
    | some parent => inherit parent list kind
    | none => pure list
  let list ← if skipMode then pure list else list.pushAllowed kind mode
  Traced.emit (.listInherited mode skipMode kind list.size)
  return list

/-- The list that says what a mode says. -/
def ofMode (mode : Mode) (kind : ObjectKind) : Attempt Fault AccessList :=
  (empty kind).extend none mode false kind

end AccessList

/-! ### From a list to a mode -/

/-- The classes that an entry for a principal speaks about. -/
def Principal.classes : Principal → List Requester
  | .owner => [.owner]
  | .group => [.group]
  | .everyone => Requester.all
  | .named _ => []

/-- The mode bits that an entry speaks about. -/
def Entry.modeBits (e : Entry) : Mode :=
  (Permission.all.filter fun p => e.mask.has p.right).foldl
    (fun bits p => e.principal.classes.foldl (fun bits who => bits ||| Mode.bit who p) bits) 0

namespace AccessList

/-- The mode bits that the entries of a type speak about. -/
def modeBits (list : AccessList) (type : EntryType) : Mode :=
  (list.entries.filter fun e => e.type == type).foldl (fun bits e => bits ||| e.modeBits) 0

/-- The mode of a list, added to the bits that are there already.  What is
    denied anywhere is not allowed. -/
def mode (list : AccessList) (existing : Mode) : Traced Mode := do
  let folded := (list.modeBits .allow &&& ~~~list.modeBits .deny) ||| existing
  Traced.emit (.modeSynced folded)
  return folded

/-- The list of the mode of a list. -/
def strip (list : AccessList) : Attempt Fault AccessList := do
  let mode ← list.mode 0
  ofMode mode list.kind

/-- A list is trivial when a mode says all that it says. -/
def isTrivial (list : AccessList) : Traced Bool := do
  match ← list.strip.run with
  | .ok stripped => list.sameEntries stripped
  | .error _ => return false

end AccessList

end AccessControl
