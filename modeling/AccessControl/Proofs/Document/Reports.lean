/-
  AccessControl/Proofs/Document/Reports.lean
  ==========================================
  **Reading a document loses nothing and says all that is wrong.**

  Elements do not know of each other: the entries that are found and the issues
  that are raised are those of the elements, one after the other
  (`decodeEntries_eq`).  The flags of the list raise one issue for each key that
  is wrong.  Nothing else is added or left out (`documentIssues`), so a document
  is read exactly if there are no issues, and then there is one entry for each
  element (`Accounted`).
-/
import AccessControl.Proofs.AccessList.Append
import AccessControl.Proofs.Bits
import AccessControl.Proofs.Document.Collecting
import Mathlib.Data.List.Forall2

namespace AccessControl.Document

variable {kind : ObjectKind} {names : NameService} {document : Json} {members flagMembers : Members}
  {items : List Json} {flag : ListFlag}

/-! ### Elements one after the other -/

theorem decodeEntries_eq (index : Nat) (items : List Json) :
    decodeEntries kind names index items =
      (items.filterMap (decoded? kind names),
        (items.mapIdx fun i value => elementIssues kind names (index + i) value).flatten) := by
  induction items generalizing index with
  | nil => rfl
  | cons value rest ih =>
    -- The rest is counted from the next index on.
    have hshift : ∀ i, index + 1 + i = index + (i + 1) := by omega
    rw [decodeEntries, ih, List.mapIdx_cons, List.flatten_cons]
    simp only [hshift]
    cases hdecoded : decodeEntry kind names value with
    | ok e =>
      have hentry : decoded? kind names value = some e := toOption_eq_some_iff.2 hdecoded
      rw [List.filterMap_cons_some hentry]
      simp [elementIssues, hdecoded]
    | error complaints =>
      have hentry : decoded? kind names value = none := by
        simp [decoded?, hdecoded, Except.toOption]
      rw [List.filterMap_cons_none hentry]
      simp [elementIssues, hdecoded]

theorem decoded?_of_elementIssues {index : Nat} {value : Json}
    (hclear : elementIssues kind names index value = []) :
    ∃ e, decoded? kind names value = some e := by
  rcases decoded_or_issues kind names index value with ⟨e, hentry, -⟩ | ⟨-, hfields⟩
  · exact ⟨e, hentry⟩
  · rw [hclear] at hfields
    exact absurd List.map_nil hfields.ne_nil

theorem forall₂_filterMap {α β : Type} {f : α → Option β} {as : List α}
    (hf : ∀ a ∈ as, ∃ b, f a = some b) :
    List.Forall₂ (fun a b => f a = some b) as (as.filterMap f) := by
  induction as with
  | nil => exact .nil
  | cons a as ih =>
    obtain ⟨b, hb⟩ := hf a List.mem_cons_self
    rw [List.filterMap_cons_some hb]
    exact .cons hb (ih fun a' hmem => hf a' (List.mem_cons_of_mem a hmem))

/-! ### The flags of the list -/

@[simp] theorem listFlagOfKey?_listFlagKey (flag : ListFlag) :
    listFlagOfKey? (listFlagKey flag) = some flag := by
  cases flag <;> decide

theorem listFlagOfKey?_eq_some_iff {key : String} :
    listFlagOfKey? key = some flag ↔ listFlagKey flag = key := by
  constructor
  · intro hfound
    simpa using List.find?_some hfound
  · rintro rfl
    exact listFlagOfKey?_listFlagKey flag

/-- Whether a key with its value says something about a flag of the list. -/
def saysListFlag (member : String × Json) : Bool :=
  member.2.bool?.isSome && (listFlagOfKey? member.1).isSome

def listFlagIssue (member : String × Json) : Issue where
  field := listFlagsField
  message :=
    if member.2.bool?.isSome then "Invalid ACL flag: " ++ member.1
    else "ACL flag [" ++ member.1 ++ "] is not boolean."

def wrongListFlags (flagMembers : Members) : Members :=
  flagMembers.filter fun member => !saysListFlag member

/-- All that is wrong with the flags of the list that a document gives. -/
def listFlagIssues (members : Members) : List Issue :=
  match Json.find? members "nfs41_flags" with
  | none => []
  | some (.object flagMembers) => (wrongListFlags flagMembers).map listFlagIssue
  | some _ => [⟨listFlagsField, "'nfs41_flags' field must be JSON object."⟩]

/-- The flags of the list are in order: not given, or an object whose keys are
    all known and whose values are all truth values. -/
def ListFlagsInOrder (members : Members) : Prop :=
  Json.find? members "nfs41_flags" = none ∨
    ∃ flagMembers, Json.find? members "nfs41_flags" = some (.object flagMembers) ∧
      ∀ key value, (key, value) ∈ flagMembers →
        (∃ flag, listFlagKey flag = key) ∧ ∃ set, value = .bool set

def SetsListFlag (members : Members) (flag : ListFlag) : Prop :=
  ∃ flagMembers, Json.find? members "nfs41_flags" = some (.object flagMembers) ∧
    (listFlagKey flag, .bool true) ∈ flagMembers

theorem saysListFlag_iff {key : String} {value : Json} : saysListFlag (key, value) ↔
    (∃ flag, listFlagKey flag = key) ∧ ∃ set, value = .bool set := by
  simp only [saysListFlag, Bool.and_eq_true, Option.isSome_iff_exists, Json.bool?_eq_some_iff,
    listFlagOfKey?_eq_some_iff]
  exact and_comm

/-- A key that is wrong raises its issue and sets nothing. -/
theorem decodeListFlagKeys_wrong {member : String × Json} (hwrong : saysListFlag member = false)
    (rest : Members) : decodeListFlagKeys (member :: rest) =
      ((decodeListFlagKeys rest).1, listFlagIssue member :: (decodeListFlagKeys rest).2) := by
  obtain ⟨key, value⟩ := member
  have hissue : decodeListFlag key value = .error (listFlagIssue (key, value)) := by
    unfold decodeListFlag
    cases hset : value.bool? with
    | none => simp [listFlagIssue, hset]
    | some set =>
      cases hflag : listFlagOfKey? key with
      | none => simp [listFlagIssue, hset]
      | some flag => simp [saysListFlag, hset, hflag] at hwrong
  rw [decodeListFlagKeys, hissue]

/-- A key that is in order raises no issue and sets its flag if its value is true. -/
theorem decodeListFlagKeys_known (flag : ListFlag) (set : Bool) (rest : Members) :
    decodeListFlagKeys ((listFlagKey flag, .bool set) :: rest) =
      ((if set then Flags.of [flag] else Flags.none) ∪ (decodeListFlagKeys rest).1,
        (decodeListFlagKeys rest).2) := by
  have hflag : decodeListFlag (listFlagKey flag) (.bool set) =
      .ok (if set then Flags.of [flag] else Flags.none) := by
    simp [decodeListFlag, Json.bool?]
  rw [decodeListFlagKeys, hflag]

theorem issues_decodeListFlagKeys (flagMembers : Members) :
    (decodeListFlagKeys flagMembers).2 = (wrongListFlags flagMembers).map listFlagIssue := by
  unfold wrongListFlags
  induction flagMembers with
  | nil => rfl
  | cons member rest ih =>
    cases hsaid : saysListFlag member with
    | false =>
      rw [decodeListFlagKeys_wrong hsaid, List.filter_cons_of_pos (by simp [hsaid]),
        List.map_cons, ih]
    | true =>
      rw [List.filter_cons_of_neg (by simp [hsaid]), ← ih]
      obtain ⟨⟨flag, hkey⟩, set, hvalue⟩ := saysListFlag_iff.1 hsaid
      obtain rfl : (listFlagKey flag, .bool set) = member := Prod.ext hkey hvalue.symm
      rw [decodeListFlagKeys_known]

theorem has_decodeListFlagKeys (flagMembers : Members) :
    (decodeListFlagKeys flagMembers).1.has flag ↔ (listFlagKey flag, .bool true) ∈ flagMembers := by
  induction flagMembers with
  | nil => simp [decodeListFlagKeys]
  | cons member rest ih =>
    cases hsaid : saysListFlag member with
    | false =>
      -- A key that is wrong is not the flag's own key with a truth value.
      have hother : (listFlagKey flag, .bool true) ≠ member := by
        rintro rfl
        rw [saysListFlag_iff.2 ⟨⟨flag, rfl⟩, true, rfl⟩] at hsaid
        exact Bool.noConfusion hsaid
      rw [decodeListFlagKeys_wrong hsaid, ih, List.mem_cons, or_iff_right hother]
    | true =>
      obtain ⟨⟨other, hkey⟩, set, hvalue⟩ := saysListFlag_iff.1 hsaid
      obtain rfl : (listFlagKey other, .bool set) = member := Prod.ext hkey hvalue.symm
      rw [decodeListFlagKeys_known, Flags.has_union, Bool.or_eq_true, ih, List.mem_cons]
      refine or_congr_left ?_
      have hkeys : listFlagKey flag = listFlagKey other ↔ flag = other := by
        rw [← listFlagOfKey?_eq_some_iff, listFlagOfKey?_listFlagKey, Option.some_inj, eq_comm]
      cases set <;> simp [hkeys]

theorem issues_decodeListFlags (members : Members) :
    (decodeListFlags members).2 = listFlagIssues members := by
  unfold decodeListFlags listFlagIssues
  cases Json.find? members "nfs41_flags" with
  | none => rfl
  | some value =>
    cases value with
    | object flagMembers => exact issues_decodeListFlagKeys flagMembers
    | null | bool _ | number _ | string _ | array _ => rfl

theorem has_decodeListFlags (members : Members) :
    (decodeListFlags members).1.has flag ↔ SetsListFlag members flag := by
  unfold decodeListFlags SetsListFlag
  cases Json.find? members "nfs41_flags" with
  | none => simp
  | some value =>
    cases value with
    | object flagMembers => simp [Json.members?, has_decodeListFlagKeys]
    | null | bool _ | number _ | string _ | array _ => simp [Json.members?]

theorem listFlagIssues_eq_nil_iff : listFlagIssues members = [] ↔ ListFlagsInOrder members := by
  unfold listFlagIssues ListFlagsInOrder
  cases Json.find? members "nfs41_flags" with
  | none => simp
  | some value =>
    cases value with
    | object flagMembers =>
      simp [wrongListFlags, List.filter_eq_nil_iff, saysListFlag_iff]
    | null | bool _ | number _ | string _ | array _ => simp

theorem field_of_mem_listFlagIssues {issue : Issue} (hmem : issue ∈ listFlagIssues members) :
    issue.field = listFlagsField := by
  unfold listFlagIssues at hmem
  split at hmem
  · nomatch hmem
  · obtain ⟨member, -, rfl⟩ := List.mem_map.1 hmem
    rfl
  · rw [List.mem_singleton.1 hmem]

/-! ### Documents -/

/-- A document that can be looked into: an object with an array of elements. -/
structure Holds (document : Json) (members : Members) (items : List Json) : Prop where
  object : document = .object members
  elements : Json.find? members "acl" = some (.array items)

theorem elementsOf_eq_ok_iff :
    elementsOf document = .ok (items, members) ↔ Holds document members items := by
  constructor
  · intro hok
    unfold elementsOf at hok
    split at hok
    · nomatch hok
    next hmembers =>
      split at hok
      · nomatch hok
      next hitems =>
        cases hok
        obtain ⟨value, hvalue, hvalueItems⟩ := Option.bind_eq_some_iff.1 hitems
        rw [Json.items?_eq_some_iff.1 hvalueItems] at hvalue
        exact ⟨Json.members?_eq_some_iff.1 hmembers, hvalue⟩
  · rintro ⟨rfl, helements⟩
    simp [elementsOf, Json.members?, Json.items?, helements]

/-- All that is wrong with a document: first with its elements, in their order,
    then with the flags of the list. -/
def documentIssues (kind : ObjectKind) (names : NameService) (members : Members)
    (items : List Json) : List Issue :=
  (items.mapIdx (elementIssues kind names)).flatten ++ listFlagIssues members

theorem documentIssues_eq_nil_iff : documentIssues kind names members items = [] ↔
    (∀ index value, items[index]? = some value → elementIssues kind names index value = []) ∧
      ListFlagsInOrder members := by
  rw [documentIssues, List.append_eq_nil_iff, listFlagIssues_eq_nil_iff,
    List.flatten_eq_nil_iff]
  refine and_congr_left' ?_
  simp only [List.mem_mapIdx, List.getElem?_eq_some_iff]
  constructor
  · rintro hclear index value ⟨hindex, rfl⟩
    exact hclear _ ⟨index, hindex, rfl⟩
  · rintro hclear _ ⟨index, hindex, rfl⟩
    exact hclear index _ ⟨hindex, rfl⟩

theorem result_decode_of_not_holds (hlacks : ¬ ∃ members items, Holds document members items) :
    ∃ cause, (decode kind names document).result = .error (.malformed cause) := by
  cases helements : elementsOf document with
  | ok found => exact absurd ⟨found.2, found.1, elementsOf_eq_ok_iff.1 helements⟩ hlacks
  | error cause =>
    refine ⟨cause, ?_⟩
    rw [decode, helements]
    rfl

theorem decode_of_holds (hholds : Holds document members items) :
    decode kind names document = (do
      Traced.emit (.documentDecoded (items.filterMap (decoded? kind names)).length
        (documentIssues kind names members items).length)
      if documentIssues kind names members items ≠ [] then
        throw (.invalid (documentIssues kind names members items))
      ((AccessList.empty kind).setFlags (decodeListFlags members).1).append
        (items.filterMap (decoded? kind names))) := by
  have hissues : documentIssues kind names members items =
      (decodeEntries kind names 0 items).2 ++ (decodeListFlags members).2 := by
    rw [decodeEntries_eq, issues_decodeListFlags, documentIssues]
    simp only [Nat.zero_add]
  have hentries : items.filterMap (decoded? kind names) = (decodeEntries kind names 0 items).1 := by
    rw [decodeEntries_eq]
  rw [hissues, hentries, decode, elementsOf_eq_ok_iff.2 hholds]
  rfl

theorem fits_of_mem_decoded {e : Entry} (hmem : e ∈ items.filterMap (decoded? kind names)) :
    e.fits kind := by
  obtain ⟨value, -, hdecoded⟩ := List.mem_filterMap.1 hmem
  exact fits_of_decodeEntry (toOption_eq_some_iff.1 hdecoded)

/-- A document that can be looked into is refused exactly if there are issues. -/
theorem result_decode_of_holds (hholds : Holds document members items) :
    (decode kind names document).result =
      if documentIssues kind names members items = [] then
        .ok (((AccessList.empty kind).setFlags (decodeListFlags members).1).concat
          (items.filterMap (decoded? kind names)) fun _ => fits_of_mem_decoded)
      else .error (.invalid (documentIssues kind names members items)) := by
  rw [decode_of_holds hholds, Attempt.result_bind, Attempt.result_lift, ok_bind]
  by_cases hissues : documentIssues kind names members items = []
  · simp only [hissues, ne_eq, not_true_eq_false, if_false, if_true]
    exact AccessList.append_of_fits _
  · simp only [hissues, ne_eq, not_false_eq_true, if_true, if_false, Attempt.result_bind,
      Attempt.result_throw, error_bind]

/-! ### The account of a document -/

def KeysInOrder (members : Members) : Prop := members.Pairwise fun a b => a.1 < b.1

/-- What an attempt to read a document with these elements comes to when nothing
    is lost and nothing left unsaid. -/
structure Accounted (kind : ObjectKind) (names : NameService) (members : Members)
    (items : List Json) (reading : Attempt Fault AccessList) : Prop where
  ok_iff : (∃ list, reading.result = .ok list) ↔
    (∀ index value, items[index]? = some value → elementIssues kind names index value = []) ∧
      ListFlagsInOrder members
  complete : ∀ list, reading.result = .ok list → list.kind = kind ∧
    List.Forall₂ (fun value e => decoded? kind names value = some e) items list.entries ∧
    ∀ flag, list.flags.has flag ↔ SetsListFlag members flag
  refused : ∀ fault, reading.result = .error fault →
    fault = .invalid (documentIssues kind names members items)
  counted : Event.documentDecoded (items.filterMap (decoded? kind names)).length
    (documentIssues kind names members items).length ∈ reading.events
  flags_field : ∀ issue ∈ listFlagIssues members, issue.field = "acl.nfs41_flags"
  flags_issues : ∀ flagMembers, Json.find? members "nfs41_flags" = some (.object flagMembers) →
    ∃ wrong : Members, listFlagIssues members = wrong.map listFlagIssue ∧
      (∀ key value, (key, value) ∈ wrong ↔ (key, value) ∈ flagMembers ∧
        ¬ ((∃ flag, listFlagKey flag = key) ∧ ∃ set, value = .bool set)) ∧
      wrong.Sublist flagMembers ∧ (KeysInOrder flagMembers → KeysInOrder wrong)

theorem accounted_of_holds (hholds : Holds document members items) :
    Accounted kind names members items (decode kind names document) where
  ok_iff := by
    rw [result_decode_of_holds hholds, ← documentIssues_eq_nil_iff]
    split_ifs with hissues <;> simp [hissues]
  complete := by
    intro list hok
    rw [result_decode_of_holds hholds] at hok
    split_ifs at hok with hissues
    cases hok
    refine ⟨rfl, ?_, fun flag => has_decodeListFlags members⟩
    refine forall₂_filterMap fun value hmem => ?_
    obtain ⟨index, hindex⟩ := List.getElem?_of_mem hmem
    exact decoded?_of_elementIssues ((documentIssues_eq_nil_iff.1 hissues).1 index value hindex)
  refused := by
    intro fault herror
    rw [result_decode_of_holds hholds] at herror
    split_ifs at herror with hissues
    cases herror
    rfl
  counted := by
    rw [decode_of_holds hholds, Attempt.events_bind]
    exact List.mem_append_left _ (by simp)
  flags_field := fun _ => field_of_mem_listFlagIssues
  flags_issues := by
    intro flagMembers hgiven
    refine ⟨wrongListFlags flagMembers, ?_, ?_, List.filter_sublist, ?_⟩
    · simp only [listFlagIssues, hgiven]
    · intro key value
      rw [wrongListFlags, List.mem_filter, ← saysListFlag_iff, Bool.not_eq_true', Bool.not_eq_true]
    · exact fun hsorted => hsorted.sublist List.filter_sublist

/-- **Nothing lost, nothing left unsaid.**  A document either cannot be looked into,
    or is accounted for element by element and key by key.  An element comes to an
    entry or to issues, never to both or neither, and its issues are those of all
    its members that are wrong.  Readers that share one list of issues, in which each
    puts its own whether it gives a value or not, come to the same. -/
theorem malformed_or_accounted (kind : ObjectKind) (names : NameService) (document : Json) :
    ((∃ cause, (decode kind names document).result = .error (.malformed cause)) ↔
      ¬ ∃ members items, Holds document members items) ∧
    (∀ members items, Holds document members items →
      Accounted kind names members items (decode kind names document)) ∧
    (∀ index value,
      (∃ e, decoded? kind names value = some e ∧ elementIssues kind names index value = []) ∨
        (decoded? kind names value = none ∧
          ElementFields index ((elementIssues kind names index value).map Issue.field))) ∧
    (∀ index entry, memberComplaints names entry ≠ [] →
      elementIssues kind names index (.object entry) =
        (memberComplaints names entry).map (Complaint.issue index)) ∧
    (∀ index value issues, (collectEntry kind names index value).onto issues =
      (decoded? kind names value, issues ++ elementIssues kind names index value)) ∧
    collect kind names document = (decode kind names document).result := by
  refine ⟨⟨?_, result_decode_of_not_holds⟩, fun _ _ => accounted_of_holds,
    decoded_or_issues kind names, fun index _ => elementIssues_object index,
    onto_collectEntry kind names, collect_eq kind names document⟩
  rintro ⟨cause, hmalformed⟩ ⟨members, items, hholds⟩
  nomatch (accounted_of_holds hholds).refused _ hmalformed

/-- An element that lacks everything, one in order, and a key that names no flag. -/
theorem malformed_or_accounted_two_elements :
    let good : Json := .object [("flags", .object []), ("perms", .object []),
      ("tag", .string "owner@"), ("type", .string "ALLOW")]
    let members : Members := [("acl", .array [.object [], good]),
      ("nfs41_flags", .object [("PROTECTED", .bool true), ("SEALED", .bool true)])]
    ∃ issues, (decode .file Names.empty (.object members)).result = .error (.invalid issues) ∧
      issues.map Issue.field = ["acl.0.type", "acl.0.perms", "acl.0.flags", "acl.0.tag",
        "acl.nfs41_flags"] := by
  intro good members
  obtain ⟨-, haccounted, -⟩ :=
    malformed_or_accounted .file Names.empty.service (.object members)
  have haccount := haccounted members [.object [], good] ⟨rfl, rfl⟩
  cases hresult : (decode .file Names.empty.service (.object members)).result with
  | ok list =>
    have hclear := (haccount.ok_iff.1 ⟨list, hresult⟩).1 0 (.object []) rfl
    exact absurd hclear (by decide)
  | error fault =>
    obtain rfl := haccount.refused fault hresult
    exact ⟨_, rfl, by decide +kernel⟩

end AccessControl.Document
