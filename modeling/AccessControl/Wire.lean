/-
  AccessControl/Wire.lean
  =======================
  **The binary form of an access list.**

  A payload is a run of big-endian words: a header of two (the list's flags and
  the number of entries), then five for each entry (type, flags, a word whose
  lowest bit marks a well-known principal, mask, and whom it applies to).  The
  payload says nothing about the kind of object; the reader has to know it.

  Refusals come in this order: a length that no number of entries has, more
  entries than `maxEntries`, a header that disagrees with the length, and then
  the first record with a fault, its type before its principal before its flags.
-/
import AccessControl.AccessList.Basic

namespace AccessControl

namespace Word

/-- The four bytes of a word, the most significant first. -/
def bytes (w : Word) : List UInt8 :=
  [UInt8.ofBitVec (w.extractLsb' 24 8), UInt8.ofBitVec (w.extractLsb' 16 8),
    UInt8.ofBitVec (w.extractLsb' 8 8), UInt8.ofBitVec (w.extractLsb' 0 8)]

/-- The word with the given bytes, the most significant first. -/
def ofBytes (a b c d : UInt8) : Word :=
  a.toBitVec ++ b.toBitVec ++ c.toBitVec ++ d.toBitVec

end Word

namespace Wire

def headerSize : Nat := 8

def recordSize : Nat := 20

/-- The size of a payload with so many entries. -/
def sizeFor (count : Nat) : Nat := headerSize + recordSize * count

/-- The number of entries in a payload of so many bytes. -/
def countFor? (size : Nat) : Option Nat :=
  if size < headerSize ∨ (size - headerSize) % recordSize ≠ 0 then none
  else some ((size - headerSize) / recordSize)

/-- The words in a run of bytes; up to three bytes may be left over. -/
def words : List UInt8 → List Word
  | a :: b :: c :: d :: rest => Word.ofBytes a b c d :: words rest
  | _ => []

/-- One entry as it is on the wire. -/
structure Record where
  type : Word
  flags : Word
  marks : Word
  mask : Word
  who : Word
deriving DecidableEq

/-- The records in a run of words. -/
def records : List Word → List Record
  | type :: flags :: marks :: mask :: who :: rest =>
    ⟨type, flags, marks, mask, who⟩ :: records rest
  | _ => []

namespace Record

/-- The bit of `marks` that says that `who` is a well-known principal. -/
def wellKnownBit : Word := 0x1

/-- The principal of a record.  Ids past the largest signed one are refused. -/
def principal (r : Record) : Except Fault Principal :=
  if r.marks &&& wellKnownBit = 0 then
    if r.who.toNat ≤ Principal.maxId then .ok (.named (Int32.ofNat r.who.toNat))
    else .error (.idTooLarge r.who)
  else if r.who = 1 then .ok .owner
  else if r.who = 2 then .ok .group
  else if r.who = 3 then .ok .everyone
  else .error (.unknownWho r.who)

/-- The entry that a record stands for. -/
def entry (kind : ObjectKind) (r : Record) : Except Fault Entry := do
  let type ← EntryType.ofWire r.type
  let principal ← r.principal
  Entry.build kind type ⟨r.flags⟩ ⟨r.mask⟩ principal

/-- The record of an entry. -/
def ofEntry (e : Entry) : Record :=
  let (marks, who) : Word × Word := match e.principal with
    | .owner => (wellKnownBit, 1)
    | .group => (wellKnownBit, 2)
    | .everyone => (wellKnownBit, 3)
    | .named id => (0, BitVec.ofNat 32 id.toInt.natAbs)
  ⟨e.type.wire, e.flags.word, marks, e.mask.word, who⟩

def words (r : Record) : List Word := [r.type, r.flags, r.marks, r.mask, r.who]

end Record

/-- `list` followed by the entries of records. -/
def pushRecords (list : AccessList) : List Record → Attempt Fault AccessList
  | [] => return list
  | r :: rest => do
    let e ← Attempt.silent (r.entry list.kind)
    let longer ← list.push e
    pushRecords longer rest

/-- A payload refused before its records are looked at. -/
def reject (payload : List UInt8) (cause : Rejection) (fault : Fault) :
    Attempt Fault AccessList := do
  Traced.emit (.payloadRejected payload.length cause)
  throw fault

/-- The list that a payload stands for, for an object of the given kind. -/
def decode (kind : ObjectKind) (payload : List UInt8) : Attempt Fault AccessList := do
  let size := payload.length
  match countFor? size with
  | none => reject payload .size (.badLength size)
  | some count =>
    if count > maxEntries then
      reject payload .tooLarge (.tooMany count)
    else
      match words payload with
      | flags :: declared :: body =>
        if declared.toNat = count then
          let list ← pushRecords ((AccessList.empty kind).setFlags ⟨flags⟩) (records body)
          Traced.emit (.payloadDecoded size list.size kind)
          return list
        else
          reject payload .count (.badLength size)
      | _ => reject payload .count (.badLength size)

/-- The words of a payload: header, then records. -/
def payloadWords (list : AccessList) : List Word :=
  list.flags.word :: BitVec.ofNat 32 list.size ::
    list.entries.flatMap fun e => (Record.ofEntry e).words

/-- The payload of a list, refused for one with too many entries. -/
def encode (list : AccessList) : Attempt Fault (List UInt8) := do
  if list.size > maxEntries then
    throw (.tooMany list.size)
  let payload := (payloadWords list).flatMap Word.bytes
  Traced.emit (.payloadEncoded list.size payload.length)
  return payload

end Wire

end AccessControl
