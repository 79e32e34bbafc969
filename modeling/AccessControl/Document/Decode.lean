/-
  AccessControl/Document/Decode.lean
  ==================================
  **Access lists from JSON documents.**

  Every entry is looked at before anything is refused, so all that is wrong is
  said at once.  Each of an entry's members has at most one `Complaint`, and they
  come in the order type, permissions, flags, principal; an entry whose members
  are all in order can still be refused as a whole, which counts against its
  flags.  Complaints about the flags of the list come last.
-/
import AccessControl.Diagnostics.Traced
import AccessControl.Document.Vocabulary
import AccessControl.AccessList.Basic
import AccessControl.Json.Reader
import AccessControl.Names
import AccessControl.Text.Numeral

namespace AccessControl.Document

/-- What can be wrong with an entry of a document. -/
inductive Problem where
  | missing (member : String)
  | typeNotString
  | typeUnknown (word : String)
  | notObject (member : String)
  | aliasNotString (noun : String)
  | aliasUnknown (noun word : String)
  | notTruth (noun key : String)
  | keyUnknown (noun key : String)
  | tagNotString
  | tagUnknown (word : String)
  | idNotInteger
  | idOutOfRange (id : Int)
  | whoNotString
  | whoUnknown (who : String)
  | unspecified (tag : String)
  | entryNotObject
  | refused (fault : Fault)

/-- The one place where problems are worded. -/
def Problem.message : Problem → String
  | .missing member => "ACE '" ++ member ++ "' field is required."
  | .typeNotString => "ACE type must be a string."
  | .typeUnknown word => "Invalid ACE type: " ++ word
  | .notObject member => "ACE " ++ member ++ " is not a JSON object."
  | .aliasNotString noun => "BASIC ACE " ++ noun ++ "set is not a string."
  | .aliasUnknown noun word => "Invalid BASIC ACE " ++ noun ++ "set: " ++ word
  | .notTruth noun key => "ACE " ++ noun ++ " [" ++ key ++ "] is not boolean."
  | .keyUnknown noun key => "Invalid ACE " ++ noun ++ ": " ++ key
  | .tagNotString => "ACE tag is not a string."
  | .tagUnknown word => "ACE tag [" ++ word ++ "] is invalid."
  | .idNotInteger => "ACE id is not an integer."
  | .idOutOfRange id => "ACE id [" ++ toString id ++ "] is not a valid user or group id."
  | .whoNotString => "ACE who is not a string."
  | .whoUnknown who => "ACE who [" ++ who ++ "] could not be resolved."
  | .unspecified tag => "ACE principal for [" ++ tag ++ "] is unspecified."
  | .entryNotObject => "ACE is not a JSON object."
  | .refused fault => fault.message

/-- A problem and the member that has it; without a member it is the whole
    entry's. -/
structure Complaint where
  member : Option String
  problem : Problem

/-- A complaint about the entry at an index. -/
def Complaint.issue (index : Nat) (c : Complaint) : Issue where
  field := "acl." ++ toString index ++ (c.member.map ("." ++ ·)).getD ""
  message := c.problem.message

/-- A complaint about a member. -/
def complain {α : Type} (member : String) (problem : Problem) : Except Complaint α :=
  .error ⟨some member, problem⟩

abbrev Members := List (String × Json)

/-! ### Members of an entry -/

def decodeType (entry : Members) : Except Complaint EntryType :=
  match Json.find? entry "type" with
  | none => complain "type" (.missing "type")
  | some value =>
    match value.string? with
    | none => complain "type" .typeNotString
    | some word =>
      match typeOfWord? word with
      | none => complain "type" (.typeUnknown word)
      | some type => .ok type

/-- The names whose keys are true, added to those before.  The first key that is
    wrong ends the reading. -/
def decodeKeys {κ : Type} [Named κ] (k : Keys κ) (bits : Flags κ) :
    Members → Except Complaint (Flags κ)
  | [] => .ok bits
  | (key, value) :: rest =>
    match value.bool? with
    | none => complain k.member (.notTruth k.noun key)
    | some set =>
      match k.ofKey? key with
      | none => complain k.member (.keyUnknown k.noun key)
      | some name => decodeKeys k (if set then bits ∪ Flags.of [name] else bits) rest

/-- A set from its object: its alias, if it has that key, and else its keys. -/
def decodeSet {κ : Type} [Named κ] (k : Keys κ) (entry : Members) :
    Except Complaint (Flags κ) :=
  match Json.find? entry k.member with
  | none => complain k.member (.missing k.member)
  | some value =>
    match value.members? with
    | none => complain k.member (.notObject k.member)
    | some members =>
      match Json.find? members "BASIC" with
      | none => decodeKeys k Flags.none members
      | some word =>
        match word.string? with
        | none => complain k.member (.aliasNotString k.noun)
        | some word =>
          match k.ofAlias? word with
          | none => complain k.member (.aliasUnknown k.noun word)
          | some bits => .ok bits

/-- The id that a text stands for: itself, if it is a number that is an id, or
    that of the name. -/
def resolveWho (names : NameService) (isGroup : Bool) (who : String) : Option Int32 :=
  ((Numeral.signedDecimal? Principal.maxId who.toList).map Int32.ofNat).or (names.id? who isGroup)

/-- The id of a named principal: `id` if there is one, and else `who`. -/
def decodeNamed (names : NameService) (tag : String) (isGroup : Bool) (entry : Members) :
    Except Complaint Int32 :=
  match Json.find? entry "id" with
  | some value =>
    match value.int64? with
    | none => complain "id" .idNotInteger
    | some id =>
      if 0 ≤ id ∧ id ≤ Principal.maxId then .ok (Int32.ofInt id)
      else complain "id" (.idOutOfRange id)
  | none =>
    match Json.find? entry "who" with
    | some value =>
      match value.string? with
      | none => complain "who" .whoNotString
      | some who =>
        match resolveWho names isGroup who with
        | none => complain "who" (.whoUnknown who)
        | some id => .ok id
    | none => complain "id" (.unspecified tag)

/-- The principal of an entry, and whether it is a group. -/
def decodePrincipal (names : NameService) (entry : Members) : Except Complaint (Principal × Bool) :=
  match Json.find? entry "tag" with
  | none => complain "tag" (.missing "tag")
  | some value =>
    match value.string? with
    | none => complain "tag" .tagNotString
    | some tag =>
      if tag = "owner@" then .ok (.owner, false)
      else if tag = "group@" then .ok (.group, true)
      else if tag = "everyone@" then .ok (.everyone, false)
      else if tag = "USER" ∨ tag = "user" then
        (decodeNamed names tag false entry).map fun id => (.named id, false)
      else if tag = "GROUP" ∨ tag = "group" then
        (decodeNamed names tag true entry).map fun id => (.named id, true)
      else complain "tag" (.tagUnknown tag)

/-! ### Entries -/

/-- The complaint of a member, if it has one. -/
def complaint? {α : Type} : Except Complaint α → List Complaint
  | .ok _ => []
  | .error c => [c]

/-- An entry, or everything that is wrong with it. -/
def decodeMembers (kind : ObjectKind) (names : NameService) (entry : Members) :
    Except (List Complaint) Entry :=
  let type := decodeType entry
  let mask := decodeSet Keys.rights entry
  let flags := decodeSet Keys.flags entry
  let principal := decodePrincipal names entry
  match type, mask, flags, principal with
  | .ok type, .ok mask, .ok flags, .ok (principal, isGroup) =>
    let flags := if isGroup then flags ∪ EntryFlags.identifierGroup else flags
    (Entry.build kind type flags mask principal).mapError fun fault =>
      [⟨some Keys.flags.member, .refused fault⟩]
  | _, _, _, _ =>
    .error (complaint? type ++ complaint? mask ++ complaint? flags ++ complaint? principal)

/-- An entry from an element of a document. -/
def decodeEntry (kind : ObjectKind) (names : NameService) (value : Json) :
    Except (List Complaint) Entry :=
  match value.members? with
  | none => .error [⟨none, .entryNotObject⟩]
  | some entry => decodeMembers kind names entry

/-- The entries of a document that are in order, and the issues of the others;
    `index` counts the elements. -/
def decodeEntries (kind : ObjectKind) (names : NameService) (index : Nat) :
    List Json → List Entry × List Issue
  | [] => ([], [])
  | value :: rest =>
    let (entries, issues) := decodeEntries kind names (index + 1) rest
    match decodeEntry kind names value with
    | .ok e => (e :: entries, issues)
    | .error complaints => (entries, complaints.map (Complaint.issue index) ++ issues)

/-! ### The flags of the list -/

/-- The field that issues with the flags of a list are put under. -/
def listFlagsField : String := "acl.nfs41_flags"

/-- What one key says about the flags of a list. -/
def decodeListFlag (key : String) (value : Json) : Except Issue ListFlags :=
  match value.bool? with
  | none => .error ⟨listFlagsField, "ACL flag [" ++ key ++ "] is not boolean."⟩
  | some set =>
    match listFlagOfKey? key with
    | none => .error ⟨listFlagsField, "Invalid ACL flag: " ++ key⟩
    | some flag => .ok (if set then Flags.of [flag] else Flags.none)

/-- The flags of a list from their keys, and the issues of the keys that are
    wrong. -/
def decodeListFlagKeys : Members → ListFlags × List Issue
  | [] => (Flags.none, [])
  | (key, value) :: rest =>
    let (flags, issues) := decodeListFlagKeys rest
    match decodeListFlag key value with
    | .ok bits => (bits ∪ flags, issues)
    | .error issue => (flags, issue :: issues)

/-- The flags of a list, which a document need not give. -/
def decodeListFlags (document : Members) : ListFlags × List Issue :=
  match Json.find? document "nfs41_flags" with
  | none => (Flags.none, [])
  | some value =>
    match value.members? with
    | none => (Flags.none, [⟨listFlagsField, "'nfs41_flags' field must be JSON object."⟩])
    | some members => decodeListFlagKeys members

/-! ### Documents -/

/-- The elements of a document, and its members. -/
def elementsOf (document : Json) : Except Malformed (List Json × Members) :=
  match document.members? with
  | none => .error .documentNotObject
  | some members =>
    match (Json.find? members "acl").bind Json.items? with
    | none => .error .entriesMissing
    | some items => .ok (items, members)

/-- The list that a document stands for, for an object of the given kind. -/
def decode (kind : ObjectKind) (names : NameService) (document : Json) :
    Attempt Fault AccessList := do
  let (items, members) ← Attempt.silent ((elementsOf document).mapError Fault.malformed)
  let (entries, entryIssues) := decodeEntries kind names 0 items
  let (flags, flagIssues) := decodeListFlags members
  let issues := entryIssues ++ flagIssues
  Traced.emit (.documentDecoded entries.length issues.length)
  if issues ≠ [] then
    throw (.invalid issues)
  ((AccessList.empty kind).setFlags flags).append entries

/-- The list that a text stands for, by the document that a parser finds in it or by the
    line on which it finds none. -/
def decodeTextBy (parse : String → Except Nat Json) (kind : ObjectKind) (names : NameService)
    (text : String) : Attempt Fault AccessList := do
  match parse text with
  | .error line => throw (.malformed (.json line))
  | .ok document => decode kind names document

/-- The list that the text of a document stands for. -/
def decodeText (kind : ObjectKind) (names : NameService) (text : String) :
    Attempt Fault AccessList :=
  decodeTextBy Json.parse kind names text

end AccessControl.Document
