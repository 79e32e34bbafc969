/-
  AccessControl/Proofs/Document/Collecting.lean
  =============================================
  **Reading a document with one list of issues.**

  Here the readers work the other way round: there is one list of issues for the
  whole document, each reader puts its own at the end of it, and whether it has a
  value to give is another matter (`Noting`).  Nothing in this form keeps a reader
  from ending without a value and without an issue, or from giving a value after
  all.

  None does.  Each reader of a member gives a value and notes nothing, or notes
  one issue and gives no value, just as its reading says (`Pairs`).  So all that
  is noted of an element or of the flags of the list is what is said of them, in
  the same order, and the document comes to the same (`collect_eq`).
-/
import AccessControl.Proofs.Bits
import AccessControl.Proofs.Document.Elements

namespace AccessControl.Document

/-- A reader that puts issues at the end of a list, and may end without a value. -/
abbrev Noting (α : Type) := OptionT (StateM (List Issue)) α

variable {α β : Type} {kind : ObjectKind} {names : NameService} {index : Nat} {entry : Members}

namespace Noting

/-- The value of a reader, and the list of issues as the reader leaves it. -/
def onto (x : Noting α) (issues : List Issue) : Option α × List Issue := x.run.run issues

/-- A complaint about the element at an index is noted, and the reader goes on. -/
def note (index : Nat) (member : String) (problem : Problem) : Noting Unit :=
  OptionT.mk fun issues => (some (), issues ++ [Complaint.issue index ⟨some member, problem⟩])

/-- A complaint about the element as a whole. -/
def noteWhole (index : Nat) (problem : Problem) : Noting Unit :=
  OptionT.mk fun issues => (some (), issues ++ [Complaint.issue index ⟨none, problem⟩])

/-- A reader is followed by another one in any case, which is told what has come of it. -/
def each (x : Noting α) (f : Option α → Noting β) : Noting β := OptionT.mk do
  let found ← x.run
  (f found).run

theorem onto_each (x : Noting α) (f : Option α → Noting β) (issues : List Issue) :
    (x.each f).onto issues = (f (x.onto issues).1).onto (x.onto issues).2 := rfl

/-- Without a value the rest is not read. -/
theorem onto_bind (x : Noting α) (f : α → Noting β) (issues : List Issue) :
    (x >>= f).onto issues = match x.onto issues with
      | (some a, noted) => (f a).onto noted
      | (none, noted) => (none, noted) := by
  unfold onto OptionT.run StateT.run
  simp only [bind, OptionT.bind, OptionT.mk, StateT.bind]
  rcases x issues with ⟨found, noted⟩
  cases found <;> rfl

end Noting

open Noting (note noteWhole)

/-! ### Members of an entry -/

def collectType (index : Nat) (entry : Members) : Noting EntryType := do
  let some value := Json.find? entry "type" | do
    note index "type" (.missing "type")
    failure
  let some word := value.string? | do
    note index "type" .typeNotString
    failure
  let found := typeOfWord? word
  if found.isNone then
    note index "type" (.typeUnknown word)
  OptionT.mk (return found)

def collectKeys {κ : Type} [Named κ] (k : Keys κ) (index : Nat) (bits : Flags κ) :
    Members → Noting (Flags κ)
  | [] => return bits
  | (key, value) :: rest => do
    let some set := value.bool? | do
      note index k.member (.notTruth k.noun key)
      failure
    let some name := k.ofKey? key | do
      note index k.member (.keyUnknown k.noun key)
      failure
    collectKeys k index (if set then bits ∪ Flags.of [name] else bits) rest

def collectSet {κ : Type} [Named κ] (k : Keys κ) (index : Nat) (entry : Members) :
    Noting (Flags κ) := do
  let some value := Json.find? entry k.member | do
    note index k.member (.missing k.member)
    failure
  let some members := value.members? | do
    note index k.member (.notObject k.member)
    failure
  match Json.find? members "BASIC" with
  | some word => do
    let some word := word.string? | do
      note index k.member (.aliasNotString k.noun)
      failure
    let found := k.ofAlias? word
    if found.isNone then
      note index k.member (.aliasUnknown k.noun word)
    OptionT.mk (return found)
  | none => collectKeys k index Flags.none members

def collectNamed (names : NameService) (index : Nat) (tag : String) (isGroup : Bool)
    (entry : Members) : Noting Int32 := do
  match Json.find? entry "id" with
  | some value => do
    let some id := value.int64? | do
      note index "id" .idNotInteger
      failure
    if 0 ≤ id ∧ id ≤ Principal.maxId then
      return Int32.ofInt id
    else
      note index "id" (.idOutOfRange id)
      failure
  | none =>
    match Json.find? entry "who" with
    | some value => do
      let some who := value.string? | do
        note index "who" .whoNotString
        failure
      let found := resolveWho names isGroup who
      if found.isNone then
        note index "who" (.whoUnknown who)
      OptionT.mk (return found)
    | none =>
      note index "id" (.unspecified tag)
      failure

def collectPrincipal (names : NameService) (index : Nat) (entry : Members) :
    Noting (Principal × Bool) := do
  let some value := Json.find? entry "tag" | do
    note index "tag" (.missing "tag")
    failure
  let some tag := value.string? | do
    note index "tag" .tagNotString
    failure
  if tag = "owner@" then return (.owner, false)
  else if tag = "group@" then return (.group, true)
  else if tag = "everyone@" then return (.everyone, false)
  else if tag = "USER" ∨ tag = "user" then
    let id ← collectNamed names index tag false entry
    return (.named id, false)
  else if tag = "GROUP" ∨ tag = "group" then
    let id ← collectNamed names index tag true entry
    return (.named id, true)
  else
    note index "tag" (.tagUnknown tag)
    failure

/-- A reader and a reading are of one mind: there is a value and nothing is noted, or no
    value and the one complaint that there is. -/
def Pairs (index : Nat) (x : Noting α) (reading : Except Complaint α) : Prop :=
  ∀ issues, x.onto issues =
    (reading.toOption, issues ++ (complaint? reading).map (Complaint.issue index))

namespace Pairs

theorem value (a : α) : Pairs index (pure a) (.ok a) := by
  intro issues
  rw [complaint?, List.map_nil, List.append_nil]
  rfl

theorem complaint (member : String) (problem : Problem) :
    Pairs index (do note index member problem; failure)
      (complain member problem : Except Complaint α) :=
  fun _ => rfl

theorem map {x : Noting α} {reading : Except Complaint α} (f : α → β)
    (hx : Pairs index x reading) : Pairs index (do let a ← x; return f a) (reading.map f) := by
  intro issues
  rw [Noting.onto_bind, hx issues]
  cases reading <;> rfl

end Pairs

theorem pairs_type (index : Nat) (entry : Members) :
    Pairs index (collectType index entry) (decodeType entry) := by
  unfold collectType decodeType
  cases Json.find? entry "type" with
  | none => exact .complaint _ _
  | some value =>
    dsimp only
    cases value.string? with
    | none => exact .complaint _ _
    | some word =>
      dsimp only
      cases typeOfWord? word with
      | none => exact .complaint _ _
      | some type => exact .value type

theorem pairs_keys {κ : Type} [Named κ] (k : Keys κ) (index : Nat) (bits : Flags κ)
    (keys : Members) : Pairs index (collectKeys k index bits keys) (decodeKeys k bits keys) := by
  induction keys generalizing bits with
  | nil => exact .value bits
  | cons member rest ih =>
    unfold collectKeys decodeKeys
    cases member.2.bool? with
    | none => exact .complaint _ _
    | some set =>
      dsimp only
      cases k.ofKey? member.1 with
      | none => exact .complaint _ _
      | some name => exact ih _

theorem pairs_set {κ : Type} [Named κ] (k : Keys κ) (index : Nat) (entry : Members) :
    Pairs index (collectSet k index entry) (decodeSet k entry) := by
  unfold collectSet decodeSet
  cases Json.find? entry k.member with
  | none => exact .complaint _ _
  | some value =>
    dsimp only
    cases value.members? with
    | none => exact .complaint _ _
    | some members =>
      dsimp only
      cases Json.find? members "BASIC" with
      | none => exact pairs_keys k index Flags.none members
      | some word =>
        dsimp only
        cases word.string? with
        | none => exact .complaint _ _
        | some word =>
          dsimp only
          cases k.ofAlias? word with
          | none => exact .complaint _ _
          | some bits => exact .value bits

theorem pairs_named (names : NameService) (index : Nat) (tag : String) (isGroup : Bool)
    (entry : Members) :
    Pairs index (collectNamed names index tag isGroup entry) (decodeNamed names tag isGroup entry) := by
  unfold collectNamed decodeNamed
  cases Json.find? entry "id" with
  | some value =>
    dsimp only
    cases value.int64? with
    | none => exact .complaint _ _
    | some id =>
      dsimp only
      split
      · exact .value _
      · exact .complaint _ _
  | none =>
    cases Json.find? entry "who" with
    | none => exact .complaint _ _
    | some value =>
      dsimp only
      cases value.string? with
      | none => exact .complaint _ _
      | some who =>
        dsimp only
        cases resolveWho names isGroup who with
        | none => exact .complaint _ _
        | some id => exact .value id

theorem pairs_principal (names : NameService) (index : Nat) (entry : Members) :
    Pairs index (collectPrincipal names index entry) (decodePrincipal names entry) := by
  unfold collectPrincipal decodePrincipal
  cases Json.find? entry "tag" with
  | none => exact .complaint _ _
  | some value =>
    dsimp only
    cases value.string? with
    | none => exact .complaint _ _
    | some tag =>
      dsimp only
      split_ifs
      · exact .value _
      · exact .value _
      · exact .value _
      · exact (pairs_named names index tag false entry).map _
      · exact (pairs_named names index tag true entry).map _
      · exact .complaint _ _

/-! ### Entries -/

/-- An entry from what has come of its members. -/
def collectBuilt (kind : ObjectKind) (index : Nat) : Option EntryType → Option Rights →
    Option EntryFlags → Option (Principal × Bool) → Noting Entry
  | some type, some mask, some flags, some (principal, isGroup) => do
    let flags := if isGroup then flags ∪ EntryFlags.identifierGroup else flags
    match Entry.build kind type flags mask principal with
    | .ok e => return e
    | .error fault =>
      note index Keys.flags.member (.refused fault)
      failure
  | _, _, _, _ => failure

/-- All members of an entry are read, whatever comes of them. -/
def collectMembers (kind : ObjectKind) (names : NameService) (index : Nat) (entry : Members) :
    Noting Entry :=
  (collectType index entry).each fun type =>
  (collectSet Keys.rights index entry).each fun mask =>
  (collectSet Keys.flags index entry).each fun flags =>
  (collectPrincipal names index entry).each fun principal =>
  collectBuilt kind index type mask flags principal

def collectEntry (kind : ObjectKind) (names : NameService) (index : Nat) (value : Json) :
    Noting Entry :=
  match value.members? with
  | none => do
    noteWhole index .entryNotObject
    failure
  | some entry => collectMembers kind names index entry

theorem collectBuilt_of_complaints (hcomplaints : memberComplaints names entry ≠ []) :
    collectBuilt kind index (decodeType entry).toOption (decodeSet Keys.rights entry).toOption
      (decodeSet Keys.flags entry).toOption (decodePrincipal names entry).toOption = failure := by
  unfold collectBuilt
  split
  next type mask flags principal isGroup htype hmask hflags hprincipal =>
    have hnone : memberComplaints names entry = [] :=
      memberComplaints_eq_nil_iff.2 ⟨⟨type, toOption_eq_some_iff.1 htype⟩,
        ⟨mask, toOption_eq_some_iff.1 hmask⟩, ⟨flags, toOption_eq_some_iff.1 hflags⟩,
        (principal, isGroup), toOption_eq_some_iff.1 hprincipal⟩
    exact absurd hnone hcomplaints
  next => rfl

theorem onto_collectMembers (issues : List Issue) :
    (collectMembers kind names index entry).onto issues =
      match decodeMembers kind names entry with
      | .ok e => (some e, issues)
      | .error complaints => (none, issues ++ complaints.map (Complaint.issue index)) := by
  simp only [collectMembers, Noting.onto_each, pairs_type index entry _, pairs_set _ index entry _,
    pairs_principal names index entry _, List.append_assoc, ← List.map_append]
  have hnoted : complaint? (decodeType entry) ++ (complaint? (decodeSet Keys.rights entry) ++
      (complaint? (decodeSet Keys.flags entry) ++ complaint? (decodePrincipal names entry))) =
      memberComplaints names entry := by
    simp only [memberComplaints, List.append_assoc]
  rw [hnoted]
  by_cases hnone : memberComplaints names entry = []
  · obtain ⟨⟨type, htype⟩, ⟨mask, hmask⟩, ⟨flags, hflags⟩, ⟨principal, isGroup⟩, hprincipal⟩ :=
      memberComplaints_eq_nil_iff.1 hnone
    rw [hnone, List.map_nil, List.append_nil]
    unfold decodeMembers collectBuilt
    simp only [htype, hmask, hflags, hprincipal, Except.toOption]
    cases Entry.build kind type _ mask principal <;> rfl
  · rw [collectBuilt_of_complaints hnone, decodeMembers_of_complaints hnone]
    rfl

/-- An element is noted as it is told of: its entry, or its issues behind those that there
    are. -/
theorem onto_collectEntry (kind : ObjectKind) (names : NameService) (index : Nat) (value : Json)
    (issues : List Issue) :
    (collectEntry kind names index value).onto issues =
      (decoded? kind names value, issues ++ elementIssues kind names index value) := by
  unfold collectEntry decoded? elementIssues decodeEntry
  cases value.members? with
  | none => rfl
  | some entry =>
    dsimp only
    rw [onto_collectMembers]
    cases decodeMembers kind names entry with
    | ok e => simp [Except.toOption]
    | error complaints => rfl

/-! ### Elements and flags -/

/-- The entries that are found among the elements. -/
def collectEntries (kind : ObjectKind) (names : NameService) (index : Nat) :
    List Json → StateM (List Issue) (List Entry)
  | [] => return []
  | value :: rest => do
    let found ← (collectEntry kind names index value).run
    let entries ← collectEntries kind names (index + 1) rest
    return found.toList ++ entries

/-- What the keys add to the flags of a list.  A key that is wrong is passed over. -/
def collectListFlagKeys (bits : ListFlags) : Members → StateM (List Issue) ListFlags
  | [] => return bits
  | (key, value) :: rest =>
    match value.bool? with
    | none => do
      modify (· ++ [⟨listFlagsField, "ACL flag [" ++ key ++ "] is not boolean."⟩])
      collectListFlagKeys bits rest
    | some set =>
      match listFlagOfKey? key with
      | some flag => collectListFlagKeys (if set then bits ∪ Flags.of [flag] else bits) rest
      | none => do
        modify (· ++ [⟨listFlagsField, "Invalid ACL flag: " ++ key⟩])
        collectListFlagKeys bits rest

def collectListFlags (document : Members) : StateM (List Issue) ListFlags :=
  match Json.find? document "nfs41_flags" with
  | none => return Flags.none
  | some value =>
    match value.members? with
    | none => do
      modify (· ++ [⟨listFlagsField, "'nfs41_flags' field must be JSON object."⟩])
      return Flags.none
    | some members => collectListFlagKeys Flags.none members

/-- The list that a document stands for, if no issue has been noted in the end. -/
def collect (kind : ObjectKind) (names : NameService) (document : Json) :
    Except Fault AccessList := do
  let (items, members) ← (elementsOf document).mapError Fault.malformed
  let (entries, issues) := (collectEntries kind names 0 items).run []
  let (flags, issues) := (collectListFlags members).run issues
  if issues ≠ [] then .error (.invalid issues)
  else (((AccessList.empty kind).setFlags flags).append entries).result

theorem run_collectEntries (index : Nat) (items : List Json) (issues : List Issue) :
    (collectEntries kind names index items).run issues =
      ((decodeEntries kind names index items).1,
        issues ++ (decodeEntries kind names index items).2) := by
  induction items generalizing index issues with
  | nil => exact congrArg (Prod.mk _) (List.append_nil issues).symm
  | cons value rest ih =>
    have hstep : (collectEntries kind names index (value :: rest)).run issues =
        let (found, noted) := (collectEntry kind names index value).onto issues
        let (entries, noted) := (collectEntries kind names (index + 1) rest).run noted
        (found.toList ++ entries, noted) := rfl
    rw [hstep, onto_collectEntry]
    dsimp only
    rw [ih, decodeEntries, decoded?, elementIssues]
    cases decodeEntry kind names value <;> simp [Except.toOption]

theorem run_collectListFlagKeys (bits : ListFlags) (members : Members) (issues : List Issue) :
    (collectListFlagKeys bits members).run issues =
      (bits ∪ (decodeListFlagKeys members).1, issues ++ (decodeListFlagKeys members).2) := by
  induction members generalizing bits issues with
  | nil =>
    rw [decodeListFlagKeys, Flags.union_none, List.append_nil]
    rfl
  | cons member rest ih =>
    unfold collectListFlagKeys decodeListFlagKeys decodeListFlag
    -- A key that is wrong leaves its issue to the rest, one that is in order its flag.
    have hwrong : ∀ issue : Issue, (do
        modify (· ++ [issue])
        collectListFlagKeys bits rest : StateM (List Issue) ListFlags).run issues =
          (bits ∪ (decodeListFlagKeys rest).1, issues ++ issue :: (decodeListFlagKeys rest).2) := by
      intro issue
      exact (ih bits (issues ++ [issue])).trans (by rw [List.append_assoc]; rfl)
    cases member.2.bool? with
    | none => exact hwrong _
    | some set =>
      dsimp only
      cases listFlagOfKey? member.1 with
      | none => exact hwrong _
      | some flag =>
        dsimp only
        rw [ih]
        cases set <;> simp [Flags.union_assoc]

theorem run_collectListFlags (members : Members) (issues : List Issue) :
    (collectListFlags members).run issues =
      ((decodeListFlags members).1, issues ++ (decodeListFlags members).2) := by
  unfold collectListFlags decodeListFlags
  cases Json.find? members "nfs41_flags" with
  | none => exact congrArg (Prod.mk _) (List.append_nil issues).symm
  | some value =>
    dsimp only
    cases value.members? with
    | none => rfl
    | some flagMembers =>
      dsimp only
      rw [run_collectListFlagKeys, Flags.none_union]

theorem collect_eq (kind : ObjectKind) (names : NameService) (document : Json) :
    collect kind names document = (decode kind names document).result := by
  unfold collect decode
  cases elementsOf document with
  | error cause => rfl
  | ok found =>
    obtain ⟨items, members⟩ := found
    simp only [Attempt.result_bind, Attempt.result_silent, Except.mapError, ok_bind,
      run_collectEntries, run_collectListFlags, List.nil_append, Attempt.result_lift]
    split <;> simp_all

end AccessControl.Document
