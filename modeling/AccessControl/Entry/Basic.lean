/-
  AccessControl/Entry/Basic.lean
  ==============================
  **Access control entries in canonical form.**

  An entry says what (`type`), to whom (`principal`), which rights (`mask`) and
  how it is passed on (`flags`).  Raw words reach it only through `Entry.build`,
  which keeps what has a meaning and settles the rest, so that every `Entry` is
  canonical:

  * the mask holds rights only (`mask_defined`);
  * the flags hold known bits only, with the principal's own mark and no other,
    and the group bit agrees with a well-known principal (`flags_settled`);
  * an id is not negative (`principal_valid`).

  `Entry.fits` says which kinds of object can hold the entry: a file holds
  neither inheritance flags nor the right to remove children.
-/
import AccessControl.Fault
import AccessControl.Principal

namespace AccessControl

/-- What an entry does. -/
inductive EntryType where
  | allow
  | deny
  | audit
  | alarm
deriving DecidableEq, Repr, Inhabited

namespace EntryType

def all : List EntryType := [.allow, .deny, .audit, .alarm]

/-- The number of the type on the wire. -/
def wire : EntryType → Word
  | .allow => 0
  | .deny => 1
  | .audit => 2
  | .alarm => 3

def ofWire? (value : Word) : Option EntryType := all.find? (·.wire == value)

/-- The type with a wire number, refused where there is none. -/
def ofWire (value : Word) : Except Fault EntryType :=
  match ofWire? value with
  | some type => .ok type
  | none => .error (.unknownType value)

/-- Allow and deny entries decide about access; the other two only record it. -/
def isAccess : EntryType → Bool
  | .allow | .deny => true
  | .audit | .alarm => false

def name : EntryType → String
  | .allow => "Allow"
  | .deny => "Deny"
  | .audit => "Audit"
  | .alarm => "Alarm"

theorem ofWire?_wire (type : EntryType) : ofWire? type.wire = some type := by
  cases type <;> decide

end EntryType

/-- The flags that an entry for `p` carries: known bits only, the mark of `p`
    and no other, and the group bit as a well-known `p` has it. -/
def EntryFlags.settle (p : Principal) (flags : EntryFlags) : EntryFlags :=
  let kept := (flags ∩ Flags.all) \ EntryFlags.markers
  match p with
  | .owner | .everyone => (kept \ EntryFlags.identifierGroup) ∪ p.marker
  | .group => (kept ∪ EntryFlags.identifierGroup) ∪ p.marker
  | .named _ => kept ∪ p.marker

/-- Settling settled flags changes nothing. -/
theorem EntryFlags.settle_settle (p : Principal) (flags : EntryFlags) :
    (flags.settle p).settle p = flags.settle p := by
  apply Flags.ext_word
  apply BitVec.eq_of_getLsbD_eq
  intro i hi
  have bits : (Flags.all : EntryFlags).word = 0x70FF#32 := EntryFlags.word_all
  have marks : EntryFlags.markers.word = 0x7000#32 := EntryFlags.word_markers
  have owner : (Principal.marker .owner).word = 0x1000#32 := by decide
  have group : (Principal.marker .group).word = 0x2000#32 := by decide
  have everyone : (Principal.marker .everyone).word = 0x4000#32 := by decide
  have groupBit : EntryFlags.identifierGroup.word = 0x40#32 := by decide
  cases p with
  | owner =>
    simp only [settle, Flags.word_union, Flags.word_sdiff, Flags.word_inter, bits, marks, owner,
      groupBit, BitVec.getLsbD_or, BitVec.getLsbD_and, BitVec.getLsbD_not]
    cases flags.word.getLsbD i <;> (revert i; decide)
  | group =>
    simp only [settle, Flags.word_union, Flags.word_sdiff, Flags.word_inter, bits, marks, group,
      groupBit, BitVec.getLsbD_or, BitVec.getLsbD_and, BitVec.getLsbD_not]
    cases flags.word.getLsbD i <;> (revert i; decide)
  | everyone =>
    simp only [settle, Flags.word_union, Flags.word_sdiff, Flags.word_inter, bits, marks, everyone,
      groupBit, BitVec.getLsbD_or, BitVec.getLsbD_and, BitVec.getLsbD_not]
    cases flags.word.getLsbD i <;> (revert i; decide)
  | named id =>
    simp only [settle, Principal.marker, Flags.word_none, Flags.word_union, Flags.word_sdiff,
      Flags.word_inter, bits, marks, BitVec.getLsbD_or, BitVec.getLsbD_and, BitVec.getLsbD_not]
    cases flags.word.getLsbD i <;> (revert i; decide)

/-- The rights that an object of a kind can give: those that are defined, for a
    file without the right to remove children. -/
def Rights.givenBy (kind : ObjectKind) (mask : Rights) : Rights :=
  match kind with
  | .directory => mask ∩ Rights.full
  | .file => (mask ∩ Rights.full) \ Rights.deleteChild

theorem Rights.givenBy_inter_full (kind : ObjectKind) (mask : Rights) :
    mask.givenBy kind ∩ Rights.full = mask.givenBy kind := by
  cases kind with
  | directory => exact Flags.inter_inter_self mask Rights.full
  | file =>
    apply Flags.ext_word
    simp only [givenBy, Flags.word_inter, Flags.word_sdiff]
    rw [BitVec.and_assoc, BitVec.and_comm (~~~_) , ← BitVec.and_assoc, BitVec.and_assoc mask.word,
      BitVec.and_self]

/-- An access control entry in canonical form. -/
structure Entry where
  type : EntryType
  flags : EntryFlags
  mask : Rights
  principal : Principal
  mask_defined : mask ∩ Rights.full = mask
  flags_settled : flags.settle principal = flags
  principal_valid : principal.Valid
deriving DecidableEq

namespace Entry

/-- An entry from raw words, for an object of the given kind. -/
def build (kind : ObjectKind) (type : EntryType) (flags : EntryFlags) (mask : Rights)
    (principal : Principal) : Except Fault Entry :=
  if kind = .file ∧ flags.meets EntryFlags.directoryOnly then
    .error (.directoryOnlyFlags flags)
  else if valid : principal.Valid then
    .ok {
      type
      flags := flags.settle principal
      mask := mask.givenBy kind
      principal
      mask_defined := Rights.givenBy_inter_full kind mask
      flags_settled := EntryFlags.settle_settle principal flags
      principal_valid := valid }
  else
    .error (.negativeId principal.id)

/-- An id in this entry is a group's. -/
def isGroup (e : Entry) : Bool := e.flags.has .identifierGroup

/-- An object of this kind can hold the entry. -/
def fits (kind : ObjectKind) (e : Entry) : Bool :=
  kind.isDirectory || !(e.flags.meets EntryFlags.directoryOnly || e.mask.has .deleteChild)

/-- The flags of the entry that have a written form. -/
def shownFlags (e : Entry) : EntryFlags := e.flags ∩ EntryFlags.shown

/-- Entries are equal when the four things that they say are. -/
theorem ext_fields {a b : Entry} (type : a.type = b.type) (flags : a.flags = b.flags)
    (mask : a.mask = b.mask) (principal : a.principal = b.principal) : a = b := by
  cases a; cases b; simp_all

end Entry

end AccessControl
