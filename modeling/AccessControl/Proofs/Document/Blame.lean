/-
  AccessControl/Proofs/Document/Blame.lean
  ========================================
  **Which member of an entry is blamed.**

  The fields of issues are apart: the field of a member of one element is that of no
  other member, of no other element and not that of the flags of the list
  (`field_issue_eq_iff`).  So what is said of a member comes from that member of that
  element alone.

  A principal that cannot be read is blamed on the member that it comes from
  (`PrincipalFault`).  There is one more that no entry can be built for: a name that
  the name service has a negative id for (`NegativeName`).  It is read without a
  complaint, and the entry is then refused as a whole.  What is refused as a whole
  counts against the flags, so flags that are in order take the blame for the name,
  and where another member is wrong the name is not blamed at all.
-/
import AccessControl.Proofs.Document.Sets
import AccessControl.Proofs.Text

namespace AccessControl.Document

variable {kind : ObjectKind} {names : NameService} {document value : Json} {members entry : Members}
  {items : List Json} {index other : Nat} {member who : String} {isGroup : Bool}
  {complaint : Complaint} {flags : EntryFlags} {id : Int32}

/-! ### Fields -/

/-- The document is refused, with an issue under this field. -/
def Reported (kind : ObjectKind) (names : NameService) (document : Json) (field : String) : Prop :=
  ∃ issues, (decode kind names document).result = .error (.invalid issues) ∧
    ∃ issue ∈ issues, issue.field = field

theorem toList_elementField (index : Nat) :
    (elementField index).toList = "acl.".toList ++ Nat.toDigits 10 index := by
  rw [elementField, String.toList_append]
  exact congrArg ("acl.".toList ++ ·) Nat.toList_repr

theorem toList_memberField (index : Nat) (member : String) : (memberField index member).toList =
    "acl.".toList ++ (Nat.toDigits 10 index ++ '.' :: member.toList) := by
  rw [memberField, String.toList_append, String.toList_append, toList_elementField]
  simp

theorem dot_not_mem_toDigits (index : Nat) : '.' ∉ Nat.toDigits 10 index := by
  intro hdot
  exact absurd (Nat.isDigit_of_mem_toDigits (by decide) (by decide) hdot) (by decide)

/-- What stands before the first dot, and what stands behind it. -/
theorem append_dot_inj {a b x y : List Char} (ha : '.' ∉ a) (hb : '.' ∉ b)
    (hsame : a ++ '.' :: x = b ++ '.' :: y) : a = b ∧ x = y := by
  have hstart : ∀ {a x : List Char}, '.' ∉ a → (a ++ '.' :: x).takeWhile (· ≠ '.') = a := by
    intro a x ha
    have hall : ∀ c ∈ a, decide (c ≠ '.') = true := fun c hc =>
      decide_eq_true fun hdot => ha (hdot ▸ hc)
    rw [List.takeWhile_append_of_pos hall]
    simp
  have hab : a = b := by rw [← hstart ha (x := x), hsame, hstart hb]
  subst hab
  exact ⟨rfl, (List.cons.inj (List.append_cancel_left hsame)).2⟩

theorem memberField_inj {named : String} (hsame : memberField other named = memberField index member) :
    other = index ∧ named = member := by
  have hlists := congrArg String.toList hsame
  rw [toList_memberField, toList_memberField] at hlists
  obtain ⟨hindex, hmember⟩ := append_dot_inj (dot_not_mem_toDigits other)
    (dot_not_mem_toDigits index) (List.append_cancel_left hlists)
  have hnumber := congrArg (Nat.ofDigitChars 10 · 0) hindex
  simp only [Nat.ofDigitChars_ten_toDigits] at hnumber
  exact ⟨hnumber, String.toList_inj.1 hmember⟩

theorem elementField_ne_memberField : elementField other ≠ memberField index member := by
  intro hsame
  have hlists := congrArg String.toList hsame
  rw [toList_memberField, toList_elementField] at hlists
  have hdot := List.append_cancel_left hlists ▸ dot_not_mem_toDigits other
  simp at hdot

theorem listFlagsField_ne_memberField : listFlagsField ≠ memberField index member := by
  intro hsame
  have hlists := congrArg String.toList hsame
  rw [toList_memberField] at hlists
  have hsplit : listFlagsField.toList = "acl.".toList ++ "nfs41_flags".toList := by decide
  rw [hsplit] at hlists
  have hclean : '.' ∉ "nfs41_flags".toList := by decide
  rw [List.append_cancel_left hlists] at hclean
  simp at hclean

theorem field_issue_eq_iff : (complaint.issue other).field = memberField index member ↔
    other = index ∧ complaint.member = some member := by
  rw [field_issue]
  cases complaint.member with
  | none => exact iff_of_false elementField_ne_memberField nofun
  | some named =>
    constructor
    · intro hsame
      obtain ⟨rfl, rfl⟩ := memberField_inj hsame
      exact ⟨rfl, rfl⟩
    · rintro ⟨rfl, ⟨⟩⟩
      rfl

/-! ### What is said of a member -/

/-- All that is wrong with an entry. -/
def complaints (kind : ObjectKind) (names : NameService) (entry : Members) : List Complaint :=
  match decodeMembers kind names entry with
  | .ok _ => []
  | .error complaints => complaints

theorem elementIssues_eq (index : Nat) : elementIssues kind names index (.object entry) =
    (complaints kind names entry).map (Complaint.issue index) := by
  show (match decodeMembers kind names entry with
    | .ok _ => []
    | .error complaints => complaints.map (Complaint.issue index)) = _
  rw [complaints]
  cases decodeMembers kind names entry <;> rfl

theorem index_of_mem_elementIssues {issue : Issue}
    (hmem : issue ∈ elementIssues kind names other value)
    (hfield : issue.field = memberField index member) : other = index := by
  rw [elementIssues] at hmem
  split at hmem
  · exact absurd hmem List.not_mem_nil
  · obtain ⟨complaint, -, rfl⟩ := List.mem_map.1 hmem
    exact (field_issue_eq_iff.1 hfield).1

/-- A member is reported exactly if there is a complaint about it. -/
theorem reported_member_iff (hholds : Holds document members items)
    (hentry : items[index]? = some (.object entry)) :
    Reported kind names document (memberField index member) ↔
      ∃ complaint ∈ complaints kind names entry, complaint.member = some member := by
  have hissues : Reported kind names document (memberField index member) ↔
      ∃ issue ∈ documentIssues kind names members items, issue.field = memberField index member := by
    rw [Reported, result_decode_of_holds hholds]
    by_cases hnone : documentIssues kind names members items = []
    · simp [hnone]
    · simp [hnone]
  rw [hissues]
  constructor
  · rintro ⟨issue, hmem, hfield⟩
    rcases List.mem_append.1 hmem with helement | hflags
    · obtain ⟨_, hpart, hissue⟩ := List.mem_flatten.1 helement
      obtain ⟨other, hother, rfl⟩ := List.mem_mapIdx.1 hpart
      obtain rfl := index_of_mem_elementIssues hissue hfield
      obtain ⟨hlt, hvalue⟩ := List.getElem?_eq_some_iff.1 hentry
      rw [hvalue, elementIssues_eq] at hissue
      obtain ⟨complaint, hcomplaint, rfl⟩ := List.mem_map.1 hissue
      exact ⟨complaint, hcomplaint, (field_issue_eq_iff.1 hfield).2⟩
    · rw [field_of_mem_listFlagIssues hflags] at hfield
      exact absurd hfield listFlagsField_ne_memberField
  · rintro ⟨complaint, hcomplaint, hmember⟩
    refine ⟨complaint.issue index, List.mem_append_left _ ?_, field_issue_eq_iff.2 ⟨rfl, hmember⟩⟩
    obtain ⟨hlt, hvalue⟩ := List.getElem?_eq_some_iff.1 hentry
    refine List.mem_flatten.2 ⟨elementIssues kind names index (.object entry), ?_, ?_⟩
    · exact List.mem_mapIdx.2 ⟨index, hlt, by rw [hvalue]⟩
    · rw [elementIssues_eq]
      exact List.mem_map_of_mem hcomplaint

/-! ### Members in order -/

/-- The entry has an object for the set that is read as these bits. -/
def Keys.Given {κ : Type} [Named κ] (k : Keys κ) (entry : Members) (bits : Flags κ) : Prop :=
  ∃ object, Json.find? entry k.member = some (.object object) ∧ k.Accepts object bits

theorem Keys.decodeSet_eq_ok_iff_given {κ : Type} [Named κ] [SingleBits κ] [DecidableEq κ]
    {k : Keys κ} (hk : k.Legible) {bits : Flags κ} :
    decodeSet k entry = .ok bits ↔ k.Given entry bits := by
  constructor
  · intro hok
    cases hfound : Json.find? entry k.member with
    | none =>
      rw [decodeSet, hfound] at hok
      cases hok
    | some value =>
      cases hmembers : value.members? with
      | none =>
        simp only [decodeSet, hfound, hmembers] at hok
        cases hok
      | some object =>
        rw [Json.members?_eq_some_iff.1 hmembers] at hfound
        exact ⟨object, hfound, (decodeSet_eq_ok_iff hk hfound).1 hok⟩
  · rintro ⟨object, hfound, haccepts⟩
    exact (decodeSet_eq_ok_iff hk hfound).2 haccepts

/-- The tags of named principals, and whether they are for groups. -/
inductive NamedTag : String → Bool → Prop
  | upperUser : NamedTag "USER" false
  | user : NamedTag "user" false
  | upperGroup : NamedTag "GROUP" true
  | group : NamedTag "group" true

/-- The tags that say who is meant by themselves. -/
def wellKnownTags : List String := ["owner@", "group@", "everyone@"]

/-- The entry is for somebody named. -/
def IsNamed (entry : Members) (isGroup : Bool) : Prop :=
  ∃ tag, Json.find? entry "tag" = some (.string tag) ∧ NamedTag tag isGroup

/-- The value is a number that is an id. -/
def IsId (value : Json) : Prop :=
  ∃ id : Int, value = .number (.integer id) ∧ 0 ≤ id ∧ id ≤ Principal.maxId

/-- A principal cannot be read, and this is the member that it comes from.  Nothing
    besides the tag is looked at until the tag asks for it, and no name where there is
    an id. -/
inductive PrincipalFault (names : NameService) (entry : Members) : String → Prop
  | tag (hunknown : ∀ tag, Json.find? entry "tag" = some (.string tag) →
      tag ∉ wellKnownTags ∧ ∀ isGroup, ¬ NamedTag tag isGroup) :
      PrincipalFault names entry "tag"
  | id {isGroup : Bool} {value : Json} (hnamed : IsNamed entry isGroup)
      (hid : Json.find? entry "id" = some value) (hno : ¬ IsId value) :
      PrincipalFault names entry "id"
  | unspecified {isGroup : Bool} (hnamed : IsNamed entry isGroup)
      (hid : Json.find? entry "id" = none) (hwho : Json.find? entry "who" = none) :
      PrincipalFault names entry "id"
  | who {isGroup : Bool} {value : Json} (hnamed : IsNamed entry isGroup)
      (hid : Json.find? entry "id" = none) (hwho : Json.find? entry "who" = some value)
      (hunknown : ∀ who, value = .string who → resolveWho names isGroup who = none) :
      PrincipalFault names entry "who"

/-- The entry names somebody for whom the name service has a negative id. -/
def NegativeName (names : NameService) (entry : Members) : Prop :=
  ∃ isGroup who id, IsNamed entry isGroup ∧ Json.find? entry "id" = none ∧
    Json.find? entry "who" = some (.string who) ∧
    Numeral.signedDecimal? Principal.maxId who.toList = none ∧
    names.id? who isGroup = some id ∧ id < 0

/-- Each member of the entry is in order by itself, with these flags. -/
structure AllGiven (names : NameService) (entry : Members) (flags : EntryFlags) : Prop where
  type : ∃ word type, Json.find? entry "type" = some (.string word) ∧
    typeOfWord? word = some type
  mask : ∃ mask, Keys.rights.Given entry mask
  flags : Keys.flags.Given entry flags
  principal : ∀ member, ¬ PrincipalFault names entry member

theorem decodeType_eq_ok_iff : (∃ type, decodeType entry = .ok type) ↔
    ∃ word type, Json.find? entry "type" = some (.string word) ∧ typeOfWord? word = some type := by
  constructor
  · rintro ⟨type, hok⟩
    unfold decodeType at hok
    split at hok
    · nomatch hok
    next value hvalue =>
      split at hok
      · nomatch hok
      next word hword =>
        split at hok
        · nomatch hok
        next type htype =>
          rw [Json.string?_eq_some_iff.1 hword] at hvalue
          exact ⟨word, type, hvalue, htype⟩
  · rintro ⟨word, type, hvalue, htype⟩
    exact ⟨type, by simp [decodeType, hvalue, Json.string?, htype]⟩

/-! ### Principals -/

theorem isId_iff : IsId value ↔ ∃ id, value.int64? = some id ∧ 0 ≤ id ∧ id ≤ Principal.maxId := by
  constructor
  · rintro ⟨id, rfl, hrange⟩
    have hfits : -0x8000000000000000 ≤ id ∧ id < 0x8000000000000000 := by
      unfold Principal.maxId at hrange
      omega
    exact ⟨id, by rw [Json.int64?, if_pos hfits], hrange⟩
  · rintro ⟨id, hid, hrange⟩
    unfold Json.int64? at hid
    split at hid
    · split_ifs at hid
      cases hid
      exact ⟨_, rfl, hrange⟩
    · nomatch hid

theorem decodePrincipal_named (hnamed : IsNamed entry isGroup) (names : NameService) :
    ∃ tag, decodePrincipal names entry =
      (decodeNamed names tag isGroup entry).map fun id => (.named id, isGroup) := by
  obtain ⟨tag, htag, hnamed⟩ := hnamed
  refine ⟨tag, ?_⟩
  cases hnamed <;> simp [decodePrincipal, htag, Json.string?]

theorem complain_of_named (hnamed : IsNamed entry isGroup)
    (hcomplain : ∀ tag, ∃ problem, decodeNamed names tag isGroup entry = complain member problem) :
    ∃ problem, decodePrincipal names entry = complain member problem := by
  obtain ⟨tag, hread⟩ := decodePrincipal_named hnamed names
  obtain ⟨problem, hcomplain⟩ := hcomplain tag
  refine ⟨problem, ?_⟩
  rw [hread, hcomplain]
  rfl

theorem decodePrincipal_unknown (hunknown : ∀ tag, Json.find? entry "tag" = some (.string tag) →
    tag ∉ wellKnownTags ∧ ∀ isGroup, ¬ NamedTag tag isGroup) :
    ∃ problem, decodePrincipal names entry = complain "tag" problem := by
  cases htag : Json.find? entry "tag" with
  | none => exact ⟨_, by rw [decodePrincipal, htag]⟩
  | some value =>
    cases hword : value.string? with
    | none => exact ⟨.tagNotString, by simp only [decodePrincipal, htag, hword]⟩
    | some tag =>
      rw [Json.string?_eq_some_iff.1 hword] at htag
      obtain ⟨hwellKnown, hnamed⟩ := hunknown tag htag
      simp only [wellKnownTags, List.mem_cons, List.not_mem_nil, or_false, not_or] at hwellKnown
      have huser : ¬ (tag = "USER" ∨ tag = "user") := by
        rintro (rfl | rfl)
        · exact hnamed false .upperUser
        · exact hnamed false .user
      have hgroup : ¬ (tag = "GROUP" ∨ tag = "group") := by
        rintro (rfl | rfl)
        · exact hnamed true .upperGroup
        · exact hnamed true .group
      refine ⟨.tagUnknown tag, ?_⟩
      simp only [decodePrincipal, htag, Json.string?, if_neg hwellKnown.1, if_neg hwellKnown.2.1,
        if_neg hwellKnown.2.2, if_neg huser, if_neg hgroup]

/-- What is wrong with the principal is said of the member that it comes from. -/
theorem PrincipalFault.complain (hfault : PrincipalFault names entry member) :
    ∃ problem, decodePrincipal names entry = complain member problem := by
  cases hfault with
  | tag hunknown => exact decodePrincipal_unknown hunknown
  | @id isGroup value hnamed hid hno =>
    refine complain_of_named hnamed fun tag => ?_
    cases hvalue : value.int64? with
    | none => exact ⟨.idNotInteger, by simp only [decodeNamed, hid, hvalue]⟩
    | some id =>
      have hrange : ¬ (0 ≤ id ∧ id ≤ Principal.maxId) := fun hrange =>
        hno (isId_iff.2 ⟨id, hvalue, hrange⟩)
      exact ⟨.idOutOfRange id, by simp only [decodeNamed, hid, hvalue, if_neg hrange]⟩
  | unspecified hnamed hid hwho =>
    refine complain_of_named hnamed fun tag => ⟨.unspecified tag, ?_⟩
    simp only [decodeNamed, hid, hwho]
  | @who isGroup value hnamed hid hwho hunknown =>
    refine complain_of_named hnamed fun tag => ?_
    cases hvalue : value.string? with
    | none => exact ⟨.whoNotString, by simp only [decodeNamed, hid, hwho, hvalue]⟩
    | some who =>
      have hnobody := hunknown who (Json.string?_eq_some_iff.1 hvalue)
      exact ⟨.whoUnknown who, by simp only [decodeNamed, hid, hwho, hvalue, hnobody]⟩

/-- A number that is read is no negative id, so a negative one is the name service's. -/
theorem resolveWho_negative_iff : (resolveWho names isGroup who = some id ∧ id < 0) ↔
    Numeral.signedDecimal? Principal.maxId who.toList = none ∧ names.id? who isGroup = some id ∧
      id < 0 := by
  rw [resolveWho]
  cases hnumber : Numeral.signedDecimal? Principal.maxId who.toList with
  | none => simp
  | some n =>
    have hvalid : 0 ≤ Int32.ofNat n := Principal.valid_ofNat (Numeral.le_of_signedDecimal? hnumber)
    have hle : ¬ Int32.ofNat n < 0 := Int32.not_lt.2 hvalid
    simp only [Option.map_some, Option.some_or, Option.some.injEq, reduceCtorEq, false_and,
      iff_false, not_and]
    rintro rfl
    exact hle

/-- Somebody named cannot be read, or has an id, or has a negative one. -/
theorem named_cases (hnamed : IsNamed entry isGroup) (names : NameService) :
    (∃ member, PrincipalFault names entry member) ∨
      ∃ p, decodePrincipal names entry = .ok (p, isGroup) ∧ (p.Valid ∨ NegativeName names entry) := by
  obtain ⟨tag, hread⟩ := decodePrincipal_named hnamed names
  have hok : ∀ id, decodeNamed names tag isGroup entry = .ok id →
      decodePrincipal names entry = .ok (.named id, isGroup) := by
    intro id hid
    rw [hread, hid]
    rfl
  cases hid : Json.find? entry "id" with
  | some value =>
    by_cases hvalue : IsId value
    · obtain ⟨id, hint, hrange⟩ := isId_iff.1 hvalue
      have hnamedId : decodeNamed names tag isGroup entry = .ok (Int32.ofInt id) := by
        simp only [decodeNamed, hid, hint, if_pos hrange]
      exact .inr ⟨_, hok _ hnamedId, .inl (Principal.valid_ofInt hrange.1 hrange.2)⟩
    · exact .inl ⟨"id", .id hnamed hid hvalue⟩
  | none =>
    cases hwho : Json.find? entry "who" with
    | none => exact .inl ⟨"id", .unspecified hnamed hid hwho⟩
    | some value =>
      by_cases hunknown : ∀ who, value = .string who → resolveWho names isGroup who = none
      · exact .inl ⟨"who", .who hnamed hid hwho hunknown⟩
      · obtain ⟨who, hresolved⟩ := not_forall.1 hunknown
        obtain ⟨rfl, hsome⟩ := Classical.not_imp.1 hresolved
        obtain ⟨id, hid'⟩ := Option.ne_none_iff_exists'.1 hsome
        have hnamedWho : decodeNamed names tag isGroup entry = .ok id := by
          simp only [decodeNamed, hid, hwho, Json.string?, hid']
        refine .inr ⟨_, hok id hnamedWho, ?_⟩
        by_cases hvalid : 0 ≤ id
        · exact .inl hvalid
        · obtain ⟨hnumber, hname, hneg⟩ := resolveWho_negative_iff.1 ⟨hid', Int32.not_le.1 hvalid⟩
          exact .inr ⟨isGroup, who, id, hnamed, hid, hwho, hnumber, hname, hneg⟩

/-- A principal that no entry can be built for is one that cannot be read, or a name
    with a negative id. -/
theorem principal_cases (names : NameService) (entry : Members) :
    (∃ member, PrincipalFault names entry member) ∨ ∃ p isGroup,
      decodePrincipal names entry = .ok (p, isGroup) ∧ (p.Valid ∨ NegativeName names entry) := by
  by_cases hunknown : ∀ tag, Json.find? entry "tag" = some (.string tag) →
      tag ∉ wellKnownTags ∧ ∀ isGroup, ¬ NamedTag tag isGroup
  · exact .inl ⟨"tag", .tag hunknown⟩
  · obtain ⟨tag, htag⟩ := not_forall.1 hunknown
    obtain ⟨htag, hknown⟩ := Classical.not_imp.1 htag
    by_cases hwellKnown : tag ∈ wellKnownTags
    · simp only [wellKnownTags, List.mem_cons, List.not_mem_nil, or_false] at hwellKnown
      rcases hwellKnown with rfl | rfl | rfl
      · exact .inr ⟨.owner, false, by simp [decodePrincipal, htag, Json.string?], .inl trivial⟩
      · exact .inr ⟨.group, true, by simp [decodePrincipal, htag, Json.string?], .inl trivial⟩
      · exact .inr ⟨.everyone, false, by simp [decodePrincipal, htag, Json.string?], .inl trivial⟩
    · obtain ⟨isGroup, hnamed⟩ : ∃ isGroup, NamedTag tag isGroup := by
        by_contra hnone
        exact hknown ⟨hwellKnown, not_exists.1 hnone⟩
      obtain hfault | ⟨p, hread⟩ := named_cases ⟨tag, htag, hnamed⟩ names
      · exact .inl hfault
      · exact .inr ⟨p, isGroup, hread⟩

/-- A name with a negative id is read, and no entry can be built for it. -/
theorem NegativeName.read (hnegative : NegativeName names entry) :
    ∃ p isGroup, decodePrincipal names entry = .ok (p, isGroup) ∧ ¬ p.Valid := by
  obtain ⟨isGroup, who, id, hnamed, hid, hwho, hnumber, hname, hneg⟩ := hnegative
  obtain ⟨tag, hread⟩ := decodePrincipal_named hnamed names
  obtain ⟨hresolved, -⟩ := resolveWho_negative_iff.2 ⟨hnumber, hname, hneg⟩
  have hok : decodeNamed names tag isGroup entry = .ok id := by
    simp only [decodeNamed, hid, hwho, Json.string?, hresolved]
  refine ⟨.named id, isGroup, ?_, Int32.not_le.2 hneg⟩
  rw [hread, hok]
  rfl

theorem PrincipalFault.not_ok (hfault : PrincipalFault names entry member) {read : Principal × Bool} :
    decodePrincipal names entry ≠ .ok read := by
  obtain ⟨problem, hcomplain⟩ := hfault.complain
  rw [hcomplain]
  nofun

theorem exists_decodePrincipal_iff : (∃ read, decodePrincipal names entry = .ok read) ↔
    ∀ member, ¬ PrincipalFault names entry member := by
  constructor
  · rintro ⟨read, hread⟩ member hfault
    exact hfault.not_ok hread
  · intro hnone
    obtain ⟨member, hfault⟩ | ⟨p, isGroup, hread, -⟩ := principal_cases names entry
    · exact absurd hfault (hnone member)
    · exact ⟨_, hread⟩

/-! ### Complaints about members -/

theorem complaint?_complain {α : Type} (member : String) (problem : Problem) :
    complaint? (complain member problem : Except Complaint α) = [⟨some member, problem⟩] := rfl

/-- The complaint about a principal names the member that it comes from. -/
theorem principal_blamed_iff :
    (∃ complaint ∈ complaint? (decodePrincipal names entry), complaint.member = some member) ↔
      PrincipalFault names entry member := by
  constructor
  · rintro ⟨complaint, hmem, hmember⟩
    obtain ⟨other, hfault⟩ | ⟨p, isGroup, hread, -⟩ := principal_cases names entry
    · obtain ⟨problem, hcomplain⟩ := hfault.complain
      rw [hcomplain, complaint?_complain, List.mem_singleton] at hmem
      rw [hmem] at hmember
      cases hmember
      exact hfault
    · rw [hread] at hmem
      nomatch hmem
  · intro hfault
    obtain ⟨problem, hcomplain⟩ := hfault.complain
    rw [hcomplain]
    exact ⟨_, List.mem_cons_self, rfl⟩

theorem blamed_iff {α : Type} {reading : Except Complaint α} {blamed : String}
    (hblames : Blames reading blamed) :
    (∃ complaint ∈ complaint? reading, complaint.member = some member) ↔
      member = blamed ∧ ¬ ∃ a, reading = .ok a := by
  cases reading with
  | ok a => simp [complaint?]
  | error complaint =>
    have hmember := hblames complaint rfl
    simp [complaint?, hmember, eq_comm]

theorem PrincipalFault.mem (hfault : PrincipalFault names entry member) :
    member ∈ principalMembers := by
  cases hfault <;> simp [principalMembers]

theorem member_blamed_iff :
    (∃ complaint ∈ memberComplaints names entry, complaint.member = some member) ↔
      (member = "type" ∧ ¬ ∃ type, decodeType entry = .ok type) ∨
      (member = "perms" ∧ ¬ ∃ mask, decodeSet Keys.rights entry = .ok mask) ∨
      (member = "flags" ∧ ¬ ∃ flags, decodeSet Keys.flags entry = .ok flags) ∨
      PrincipalFault names entry member := by
  simp only [memberComplaints, List.mem_append, or_and_right, exists_or, or_assoc,
    principal_blamed_iff, blamed_iff (blames_decodeType entry),
    blamed_iff (blames_decodeSet Keys.rights entry), blamed_iff (blames_decodeSet Keys.flags entry)]
  rfl

theorem memberComplaints_eq_nil_iff_given : memberComplaints names entry = [] ↔
    ∃ flags, AllGiven names entry flags := by
  simp only [memberComplaints_eq_nil_iff, decodeType_eq_ok_iff, exists_decodePrincipal_iff,
    Keys.decodeSet_eq_ok_iff_given Keys.legible_rights,
    Keys.decodeSet_eq_ok_iff_given Keys.legible_flags]
  constructor
  · rintro ⟨htype, hmask, ⟨flags, hflags⟩, hprincipal⟩
    exact ⟨flags, htype, hmask, hflags, hprincipal⟩
  · rintro ⟨flags, htype, hmask, hflags, hprincipal⟩
    exact ⟨htype, hmask, ⟨flags, hflags⟩, hprincipal⟩

/-! ### Entries that are refused as a whole -/

theorem meets_directoryOnly_withGroup (isGroup : Bool) (flags : EntryFlags) :
    (withGroup isGroup flags).meets EntryFlags.directoryOnly =
      flags.meets EntryFlags.directoryOnly := by
  cases isGroup with
  | false => rfl
  | true =>
    have hapart : EntryFlags.identifierGroup.word &&& EntryFlags.directoryOnly.word = 0#32 := by decide
    rw [withGroup, if_pos rfl, Flags.meets, Flags.word_union, BitVec.and_or_distrib_right, hapart,
      BitVec.or_zero, Flags.meets]

/-- An entry whose members are all in order is refused for its flags or for its name. -/
theorem blamed_of_allGiven (hgiven : AllGiven names entry flags) :
    (∃ complaint ∈ complaints kind names entry, complaint.member = some member) ↔
      member = "flags" ∧
        (kind = .file ∧ flags.meets EntryFlags.directoryOnly ∨ NegativeName names entry) := by
  obtain ⟨type, htype⟩ := decodeType_eq_ok_iff.2 hgiven.type
  obtain ⟨mask, hmask⟩ := hgiven.mask
  have hmask := (Keys.decodeSet_eq_ok_iff_given Keys.legible_rights).2 hmask
  have hflags := (Keys.decodeSet_eq_ok_iff_given Keys.legible_flags).2 hgiven.flags
  obtain ⟨⟨p, isGroup⟩, hprincipal⟩ := exists_decodePrincipal_iff.2 hgiven.principal
  have hvalid : ¬ p.Valid ↔ NegativeName names entry := by
    constructor
    · intro hinvalid
      obtain ⟨member, hfault⟩ | ⟨p', isGroup', hread, hcase⟩ := principal_cases names entry
      · exact absurd hfault (hgiven.principal member)
      · rw [hprincipal] at hread
        cases hread
        exact hcase.resolve_left hinvalid
    · intro hnegative
      obtain ⟨p', isGroup', hread, hinvalid⟩ := hnegative.read
      rw [hprincipal] at hread
      cases hread
      exact hinvalid
  have hmembers : decodeMembers kind names entry =
      (Entry.build kind type (withGroup isGroup flags) mask p).mapError fun fault =>
        [⟨some Keys.flags.member, .refused fault⟩] := by
    unfold decodeMembers
    simp only [htype, hmask, hflags, hprincipal]
    rfl
  rw [← hvalid, ← meets_directoryOnly_withGroup isGroup flags, complaints, hmembers]
  rw [← @Entry.exists_build_error_iff kind type _ mask p]
  cases Entry.build kind type (withGroup isGroup flags) mask p with
  | ok e => simp [Except.mapError]
  | error fault => simp [Except.mapError, Keys.flags, eq_comm]

/-- A member is blamed by itself, or the flags are for the whole entry. -/
theorem blamed_in_complaints_iff :
    (∃ complaint ∈ complaints kind names entry, complaint.member = some member) ↔
      (∃ complaint ∈ memberComplaints names entry, complaint.member = some member) ∨
      ∃ flags, AllGiven names entry flags ∧ member = "flags" ∧
        (kind = .file ∧ flags.meets EntryFlags.directoryOnly ∨ NegativeName names entry) := by
  by_cases hnone : memberComplaints names entry = []
  · obtain ⟨flags, hgiven⟩ := memberComplaints_eq_nil_iff_given.1 hnone
    rw [blamed_of_allGiven hgiven, hnone]
    constructor
    · intro hwhole
      exact .inr ⟨flags, hgiven, hwhole⟩
    · rintro (⟨_, hmem, -⟩ | ⟨flags', hgiven', hwhole⟩)
      · nomatch hmem
      · rwa [← blamed_of_allGiven hgiven', blamed_of_allGiven hgiven] at hwhole
  · have hwhole : ∀ flags, ¬ AllGiven names entry flags := fun flags hgiven =>
      hnone (memberComplaints_eq_nil_iff_given.2 ⟨flags, hgiven⟩)
    rw [complaints, decodeMembers_of_complaints hnone]
    simp [hwhole]

/-- **Who is blamed.**  In a document that can be looked into, the flags of an entry
    are reported if they are missing or malformed, or if all of the entry is in order by
    itself and either a file is given flags that are for directories or the principal
    is a name with a negative id.  The members of the principal are reported if the
    principal cannot be read from them.  So a name with a negative id is never reported
    under a member that it comes from; everything else that is reported is reported
    where it stands. -/
theorem reported_under_members (kind : ObjectKind) (names : NameService) (document : Json)
    (members : Members) (items : List Json) (index : Nat) (entry : Members)
    (hholds : Holds document members items) (hentry : items[index]? = some (.object entry)) :
    (Reported kind names document (memberField index "flags") ↔
      (¬ ∃ flags, Keys.flags.Given entry flags) ∨
      ∃ flags, AllGiven names entry flags ∧
        (kind = .file ∧ flags.meets EntryFlags.directoryOnly ∨ NegativeName names entry)) ∧
    (∀ member ∈ principalMembers,
      (Reported kind names document (memberField index member) ↔
        PrincipalFault names entry member)) ∧
    (NegativeName names entry → ∀ member, ¬ PrincipalFault names entry member) ∧
    ((∃ member, PrincipalFault names entry member) ∨ NegativeName names entry ∨
      ∃ p isGroup, decodePrincipal names entry = .ok (p, isGroup) ∧ p.Valid) := by
  refine ⟨?_, fun member hmember => ?_, fun hnegative member hfault => ?_, ?_⟩
  · rw [reported_member_iff hholds hentry, blamed_in_complaints_iff, member_blamed_iff]
    have hprincipal : ¬ PrincipalFault names entry "flags" := fun hfault =>
      absurd hfault.mem (by decide)
    simp [hprincipal, Keys.decodeSet_eq_ok_iff_given Keys.legible_flags]
  · rw [reported_member_iff hholds hentry, blamed_in_complaints_iff, member_blamed_iff]
    have hother : member ≠ "type" ∧ member ≠ "perms" ∧ member ≠ "flags" := by
      revert member
      decide
    simp [hother]
  · obtain ⟨p, isGroup, hread, -⟩ := hnegative.read
    exact hfault.not_ok hread
  · obtain hfault | ⟨p, isGroup, hread, hvalid | hnegative⟩ := principal_cases names entry
    · exact .inl hfault
    · exact .inr (.inr ⟨p, isGroup, hread, hvalid⟩)
    · exact .inr (.inl hnegative)

/-- An unknown name on a file with flags for directories: the name is reported, and the
    flags are not. -/
theorem reported_under_members_eve :
    let names := Names.empty.service
    let entry : Members := [("flags", .object [("FILE_INHERIT", .bool true)]),
      ("perms", .object []), ("tag", .string "USER"), ("type", .string "ALLOW"),
      ("who", .string "eve")]
    let members : Members := [("acl", .array [.object entry])]
    Reported .file names (.object members) (memberField 0 "who") ∧
      ¬ Reported .file names (.object members) (memberField 0 "flags") := by
  intro names entry members
  have hfault : PrincipalFault names entry "who" := by
    refine .who ⟨"USER", rfl, .upperUser⟩ rfl rfl ?_
    rintro _ ⟨⟩
    decide
  have hread : decodeSet Keys.flags entry = .ok (Flags.of [.fileInherit]) :=
    toOption_eq_some_iff.1 (by decide)
  have hflags : ∃ flags, Keys.flags.Given entry flags :=
    ⟨_, (Keys.decodeSet_eq_ok_iff_given Keys.legible_flags).1 hread⟩
  obtain ⟨hflagsIff, hprincipal, -⟩ := reported_under_members .file names (.object members) members
    [.object entry] 0 entry ⟨rfl, rfl⟩ rfl
  refine ⟨(hprincipal "who" (by decide)).2 hfault, fun hreported => ?_⟩
  obtain hmissing | ⟨flags, hgiven, -⟩ := hflagsIff.1 hreported
  · exact hmissing hflags
  · exact hgiven.principal "who" hfault

/-- A name with a negative id on a directory: the flags are in order, and the one issue
    is under them. -/
theorem reported_under_flags_bob :
    let names := (Names.empty.withUser "bob" (-5)).service
    let entry : Members := [("flags", .object []), ("perms", .object [("READ_DATA", .bool true)]),
      ("tag", .string "USER"), ("type", .string "ALLOW"), ("who", .string "bob")]
    let members : Members := [("acl", .array [.object entry])]
    Keys.flags.Given entry Flags.none ∧
      (decode .directory names (.object members)).result = .error (.invalid [⟨"acl.0.flags",
        "invalid principal: named principal requires a non-negative id, got -5"⟩]) ∧
      Reported .directory names (.object members) (memberField 0 "flags") ∧
      ∀ member ∈ principalMembers,
        ¬ Reported .directory names (.object members) (memberField 0 member) := by
  intro names entry members
  have hflags : decodeSet Keys.flags entry = .ok Flags.none := toOption_eq_some_iff.1 (by decide)
  have hresult : (decode .directory names (.object members)).result =
      .error (.invalid [⟨"acl.0.flags",
        "invalid principal: named principal requires a non-negative id, got -5"⟩]) := by
    decide +kernel
  refine ⟨(Keys.decodeSet_eq_ok_iff_given Keys.legible_flags).1 hflags, hresult,
    ⟨_, hresult, _, List.mem_cons_self, by decide⟩, fun member hmember hreported => ?_⟩
  obtain ⟨issues, hissues, issue, hmem, hfield⟩ := hreported
  rw [hresult] at hissues
  cases hissues
  rw [List.mem_singleton.1 hmem] at hfield
  revert member
  decide

end AccessControl.Document
