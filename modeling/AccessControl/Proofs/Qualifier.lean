/-
  AccessControl/Proofs/Qualifier.lean
  ===================================
  **The same user or group, in a line and in an element.**

  Both written forms name a user or group by an id or by a name that is looked up,
  and differ in one thing: an element reads a number after a plus sign as an id
  (`plusId?`), a line takes it for a name.  So a line and an element that say the
  same are read alike except there (`line_and_element_agree_iff`), and `+5` tells them apart.
-/
import AccessControl.Proofs.Document.Reading
import AccessControl.Proofs.Listing.Layout
import AccessControl.Proofs.Listing.Reading

namespace AccessControl

open Listing (id? Tag Layout IsRemark IsTag)
open Document (Members decodeEntry resolveWho withGroup)

variable {kind : ObjectKind} {names : NameService} {isGroup : Bool} {who line : String}
  {type : EntryType} {flags : EntryFlags} {mask : Rights} {layout : Layout} {entry : Members}
  {e : Entry}

/-! ### Saying the same -/

/-- A line for a user or group: a tag, the qualifier, and then fields that are read as
    type, flags and rights, with no id after them. -/
structure LineFor (isGroup : Bool) (who : String) (type : EntryType) (flags : EntryFlags)
    (mask : Rights) (layout : Layout) (line : String) : Prop where
  fields : ∃ word rest, Tag.ofWord? word = some (.named isGroup) ∧
    Text.trim line.toList = word ++ ':' :: (who.toList ++ ':' :: rest) ∧
    Layout.afterSubject (.named isGroup who.toList) (rest.splitOn ':') = .ok layout
  noId : layout.id = none
  type : EntryType.ofWord? layout.type = some type
  flags : ∃ compact, layout.flagBits = .ok (flags, compact)
  mask : ∃ compact, Vocabulary.rights.read layout.permissions = .ok (mask, compact)

/-- An element for a user or group: a tag, whom it is for, and members that are read as
    type, flags and rights, with no id among them. -/
structure ElementFor (isGroup : Bool) (who : String) (type : EntryType) (flags : EntryFlags)
    (mask : Rights) (entry : Members) : Prop where
  tag : ∃ tag, tag ∈ (if isGroup then ["GROUP", "group"] else ["USER", "user"]) ∧
    Json.find? entry "tag" = some (.string tag)
  noId : Json.find? entry "id" = none
  who : Json.find? entry "who" = some (.string who)
  type : Document.decodeType entry = .ok type
  flags : Document.decodeSet Document.Keys.flags entry = .ok flags
  mask : Document.decodeSet Document.Keys.rights entry = .ok mask

/-- Both readings fail, or both give the same entry. -/
def SameReading (ofLine : Except Fault (Option Entry))
    (ofElement : Except (List Document.Complaint) Entry) : Prop :=
  ofLine.toOption = ofElement.toOption.map some

/-! ### Looking up -/

/-- The number after a plus sign, where it is an id. -/
def plusId? : List Char → Option Int32
  | '+' :: digits => id? digits
  | _ => none

/-- The id that a line takes a qualifier for. -/
def lineId? (names : NameService) (isGroup : Bool) (who : String) : Option Int32 :=
  (id? who.toList).or (names.id? who isGroup)

theorem resolve_eq_ok_iff {id : Int32} : Listing.resolve names isGroup who.toList = .ok id ↔
    lineId? names isGroup who = some id := by
  unfold Listing.resolve lineId?
  rw [String.ofList_toList]
  split
  case h_1 found hfound => rw [hfound, Except.ok.injEq, Option.some.injEq]
  case h_2 hnone =>
    rw [hnone]
    exact ⟨nofun, nofun⟩

theorem id?_plus (digits : List Char) : id? ('+' :: digits) = none := by
  simp [id?, Numeral.boundedDecimal?, Numeral.decimal?, Numeral.isDecimal]

theorem map_signedDecimal? (cs : List Char) :
    (Numeral.signedDecimal? Principal.maxId cs).map Int32.ofNat = (plusId? cs).or (id? cs) := by
  unfold Numeral.signedDecimal?
  split
  case h_1 digits =>
    rw [id?_plus, Option.or_none]
    rfl
  case h_2 hother =>
    have hnone : plusId? cs = none := by
      unfold plusId?
      split
      case h_1 digits => exact absurd rfl (hother digits)
      case h_2 => rfl
    rw [hnone, Option.none_or]
    rfl

theorem resolveWho_eq (names : NameService) (isGroup : Bool) (who : String) :
    resolveWho names isGroup who = (plusId? who.toList).or (lineId? names isGroup who) := by
  rw [resolveWho, map_signedDecimal?, lineId?, Option.or_assoc]

/-! ### What a line is read as -/

theorem ofLine_of_lineFor (hne : who ≠ "") (hcolon : ':' ∉ who.toList)
    (hline : LineFor isGroup who type flags mask layout line) :
    ¬ IsRemark line.toList ∧ Layout.ofLine (Text.trim line.toList) = .ok layout := by
  rcases hline.fields with ⟨word, rest, hword, htrim, hfields⟩
  have htag := Listing.isTag_of_ofWord? hword
  constructor
  · rcases htag.start with ⟨c, hc, -, hcomment⟩
    have hhead : (Text.trim line.toList).head? = some c := by
      rw [htrim, List.head?_append, hc]
      rfl
    rintro (hempty | hsharp)
    · rw [hempty] at hhead
      cases hhead
    · rw [hhead] at hsharp
      exact hcomment (Option.some.inj hsharp)
  · have hwho : who.toList ≠ [] := by simpa using hne
    rcases List.exists_cons_of_ne_nil hwho with ⟨first, others, hcons⟩
    rw [Layout.ofLine, htrim, List.splitOn_append_cons_self, List.splitOn_append_cons_self,
      List.splitOn_eq_singleton htag.no_colon, List.splitOn_eq_singleton hcolon]
    simp only [List.cons_append, List.nil_append, htag.trimmed, hword, hcons]
    rw [← hcons]
    exact hfields

theorem union_subjectFlags (hsubject : layout.subject = .named isGroup who.toList) :
    flags ∪ layout.subjectFlags = withGroup isGroup flags := by
  unfold Layout.subjectFlags withGroup
  rw [hsubject]
  cases isGroup with
  | true => rfl
  | false => exact Flags.union_of_nil flags

theorem parse_eq_some_iff (hne : who ≠ "") (hcolon : ':' ∉ who.toList)
    (hline : LineFor isGroup who type flags mask layout line) :
    (Listing.parse kind names line).result = .ok (some e) ↔
      ∃ id, lineId? names isGroup who = some id ∧
        Entry.build kind type (withGroup isGroup flags) mask (.named id) = .ok e := by
  rcases ofLine_of_lineFor hne hcolon hline with ⟨hentry, hlayout⟩
  rcases hline.fields with ⟨word, rest, -, -, hfields⟩
  have hsubject := Listing.subject_of_afterSubject hfields
  have happended : layout.appended = .ok none := by rw [Layout.appended, hline.noId]
  have hprincipal : ∀ p, layout.principal names none = .ok p ↔
      ∃ id, lineId? names isGroup who = some id ∧ p = .named id := by
    intro p
    unfold Layout.principal
    simp only [hsubject, ← resolve_eq_ok_iff]
    cases Listing.resolve names isGroup who.toList <;> simp [Except.map, eq_comm]
  rw [Listing.parse, Listing.parseChars_eq_some_iff, hlayout]
  simp only [Except.ok.injEq, exists_eq_left', Layout.exists_entry_eq_ok_iff,
    union_subjectFlags hsubject]
  constructor
  · rintro ⟨-, type', flags', mask', principal, hreads, hbuild⟩
    rcases hreads with ⟨⟨_, hmask'⟩, ⟨_, hflags'⟩, htype', _, happended', hprincipal'⟩
    rcases hline with ⟨-, -, htype, ⟨_, hflags⟩, ⟨_, hmask⟩⟩
    -- A layout is read in one way only.
    cases htype.symm.trans htype'
    cases hflags.symm.trans hflags'
    cases hmask.symm.trans hmask'
    cases happended.symm.trans happended'
    rcases (hprincipal principal).1 hprincipal' with ⟨id, hid, rfl⟩
    exact ⟨id, hid, hbuild⟩
  · rintro ⟨id, hid, hbuild⟩
    exact ⟨hentry, type, flags, mask, .named id, ⟨hline.mask, hline.flags, hline.type, none,
      happended, (hprincipal _).2 ⟨id, hid, rfl⟩⟩, hbuild⟩

/-! ### What an element is read as -/

theorem decodePrincipal_eq_ok_iff {p : Principal} {group : Bool}
    (helement : ElementFor isGroup who type flags mask entry) :
    Document.decodePrincipal names entry = .ok (p, group) ↔
      group = isGroup ∧ ∃ id, resolveWho names isGroup who = some id ∧ p = .named id := by
  rcases helement.tag with ⟨tag, htag, hfound⟩
  have hnamed : ∀ id, Document.decodeNamed names tag isGroup entry = .ok id ↔
      resolveWho names isGroup who = some id := by
    intro id
    simp only [Document.decodeNamed, helement.noId, helement.who, Json.string?]
    cases resolveWho names isGroup who <;> simp [Document.complain]
  have hdecode : Document.decodePrincipal names entry =
      (Document.decodeNamed names tag isGroup entry).map fun id => (.named id, isGroup) := by
    rw [Document.decodePrincipal, hfound]
    cases isGroup <;> rcases List.mem_pair.1 htag with rfl | rfl <;> rfl
  rw [hdecode]
  simp only [← hnamed]
  cases Document.decodeNamed names tag isGroup entry <;> simp [Except.map, eq_comm, and_comm]

theorem decodeEntry_elementFor (helement : ElementFor isGroup who type flags mask entry) :
    decodeEntry kind names (.object entry) = .ok e ↔
      ∃ id, resolveWho names isGroup who = some id ∧
        Entry.build kind type (withGroup isGroup flags) mask (.named id) = .ok e := by
  rw [Document.decodeEntry_eq_ok_iff]
  constructor
  · rintro ⟨entry', type', flags', mask', principal, group, hobject, hread, hbuild⟩
    cases hobject
    rcases hread with ⟨htype', hmask', hflags', hprincipal'⟩
    cases helement.type.symm.trans htype'
    cases helement.mask.symm.trans hmask'
    cases helement.flags.symm.trans hflags'
    rcases (decodePrincipal_eq_ok_iff helement).1 hprincipal' with ⟨rfl, id, hid, rfl⟩
    exact ⟨id, hid, hbuild⟩
  · rintro ⟨id, hid, hbuild⟩
    exact ⟨entry, type, flags, mask, .named id, isGroup, rfl, ⟨helement.type, helement.mask,
      helement.flags, (decodePrincipal_eq_ok_iff helement).2 ⟨rfl, id, hid, rfl⟩⟩, hbuild⟩

/-! ### Agreement -/

theorem valid_of_plusId? {cs : List Char} {id : Int32} (hplus : plusId? cs = some id) :
    id? cs = none ∧ (Principal.named id).Valid := by
  unfold plusId? at hplus
  split at hplus
  case h_1 digits =>
    rcases Listing.id?_eq_some_iff.1 hplus with ⟨-, hle, rfl⟩
    exact ⟨id?_plus digits, Principal.valid_ofNat hle⟩
  case h_2 => cases hplus

theorem sameReading_iff {ofLine : Except Fault (Option Entry)}
    {ofElement : Except (List Document.Complaint) Entry} (hsome : ofLine ≠ .ok none) :
    SameReading ofLine ofElement ↔ ∀ e, ofLine = .ok (some e) ↔ ofElement = .ok e := by
  cases ofLine with
  | error fault => cases ofElement <;> simp [SameReading, Except.toOption]
  | ok entry? =>
    cases entry? with
    | none => exact absurd rfl hsome
    | some e => cases ofElement <;> simp [SameReading, Except.toOption, eq_comm]

/-- **A line and an element for the same user or group.**  If they are otherwise read as
    the same type, flags and rights, both are refused or both give the same entry,
    whatever the names are; but not if what they call the user or group is a number
    after a plus sign, this is an id that such an entry can be for, and it is not what
    the text as a name stands for. -/
theorem line_and_element_agree_iff (hne : who ≠ "") (hcolon : ':' ∉ who.toList)
    (hline : LineFor isGroup who type flags mask layout line)
    (helement : ElementFor isGroup who type flags mask entry) :
    SameReading (Listing.parse kind names line).result (decodeEntry kind names (.object entry)) ↔
      ¬ ∃ id e, plusId? who.toList = some id ∧ names.id? who isGroup ≠ some id ∧
        Entry.build kind type (withGroup isGroup flags) mask (.named id) = .ok e := by
  have hentry := (ofLine_of_lineFor hne hcolon hline).1
  have hsome : (Listing.parse kind names line).result ≠ .ok none := fun hnone =>
    hentry (Listing.parseChars_eq_none_iff.1 hnone)
  rw [sameReading_iff hsome]
  simp only [parse_eq_some_iff hne hcolon hline, decodeEntry_elementFor helement, resolveWho_eq]
  cases hplus : plusId? who.toList with
  | none => simp
  | some id =>
    -- A text with a plus sign is never an id for the line, so there it can only be a name.
    rcases valid_of_plusId? hplus with ⟨hdigits, hvalid⟩
    simp only [lineId?, hdigits, Option.none_or, Option.some_or, Option.some.injEq, exists_eq_left']
    constructor
    · rintro hagree ⟨_, e, rfl, hname, hbuild⟩
      rcases (hagree e).2 hbuild with ⟨other, hother, hbuild'⟩
      rcases Entry.build_eq_ok_iff.1 hbuild with ⟨-, -, -, -, -, hid⟩
      rcases Entry.build_eq_ok_iff.1 hbuild' with ⟨-, -, -, -, -, hid'⟩
      cases hid'.symm.trans hid
      exact hname hother
    · intro hsame e
      have hname : ∀ e, Entry.build kind type (withGroup isGroup flags) mask (.named id) = .ok e →
          names.id? who isGroup = some id := by
        intro e hbuild
        by_contra hname
        exact hsame ⟨id, e, rfl, hname, hbuild⟩
      constructor
      · rintro ⟨other, hother, hbuild⟩
        rcases Entry.exists_build_of_build hbuild hvalid with ⟨e', hbuild'⟩
        cases hother.symm.trans (hname e' hbuild')
        exact hbuild
      · intro hbuild
        exact ⟨id, hname e hbuild, hbuild⟩

/-- Zeros in front of a number change nothing in either form. -/
theorem line_and_element_agree_zeros :
    let mask : Rights := Flags.of [.readData]
    let layout : Layout := ⟨.named true "007".toList, "r".toList, none, "deny".toList, none⟩
    let entry : Members := [("flags", .object []), ("perms", .object [("READ_DATA", .bool true)]),
      ("tag", .string "GROUP"), ("type", .string "DENY"), ("who", .string "007")]
    LineFor true "007" .deny Flags.none mask layout " g:007:r:deny" ∧
      ElementFor true "007" .deny Flags.none mask entry ∧
      SameReading (Listing.parse .file Names.empty " g:007:r:deny").result
        (decodeEntry .file Names.empty (.object entry)) := by
  intro mask layout entry
  have hline : LineFor true "007" .deny Flags.none mask layout " g:007:r:deny" :=
    ⟨⟨"g".toList, "r:deny".toList, by decide, by decide, by decide⟩, rfl, by decide,
      ⟨false, rfl⟩, ⟨true, by decide⟩⟩
  have helement : ElementFor true "007" .deny Flags.none mask entry :=
    ⟨⟨"GROUP", by decide, by rfl⟩, by rfl, by rfl, by rfl, by rfl, by rfl⟩
  refine ⟨hline, helement, (line_and_element_agree_iff (by decide) (by decide) hline helement).2 ?_⟩
  rintro ⟨id, e, hplus, -⟩
  cases hplus

/-- With `+5` the line is refused for an unknown name, and the element is an entry for
    the id 5. -/
theorem line_and_element_disagree_plus_five :
    let mask : Rights := Flags.of [.readData]
    let layout : Layout := ⟨.named false "+5".toList, "r".toList, some [], "allow".toList, none⟩
    let entry : Members := [("flags", .object []), ("perms", .object [("READ_DATA", .bool true)]),
      ("tag", .string "USER"), ("type", .string "ALLOW"), ("who", .string "+5")]
    LineFor false "+5" .allow Flags.none mask layout "user:+5:r::allow" ∧
      ElementFor false "+5" .allow Flags.none mask entry ∧
      (Listing.parse .directory Names.empty "user:+5:r::allow").result =
        .error (.unknownName false "+5") ∧
      (∃ e, decodeEntry .directory Names.empty (.object entry) = .ok e ∧ e.principal = .named 5) ∧
      ¬ SameReading (Listing.parse .directory Names.empty "user:+5:r::allow").result
        (decodeEntry .directory Names.empty (.object entry)) := by
  intro mask layout entry
  have hline : LineFor false "+5" .allow Flags.none mask layout "user:+5:r::allow" :=
    ⟨⟨"user".toList, "r::allow".toList, by decide, by decide, by decide⟩, rfl, by decide,
      ⟨true, by decide⟩, ⟨true, by decide⟩⟩
  have helement : ElementFor false "+5" .allow Flags.none mask entry :=
    ⟨⟨"USER", by decide, by rfl⟩, by rfl, by rfl, by rfl, by rfl, by rfl⟩
  have hrefused : (Listing.parse .directory Names.empty "user:+5:r::allow").result =
      .error (.unknownName false "+5") := by
    decide +kernel
  let five : Entry := ⟨.allow, Flags.none, mask, .named 5, by decide, by decide, by decide⟩
  have hread : decodeEntry .directory Names.empty (.object entry) = .ok five := by rfl
  refine ⟨hline, helement, hrefused, ⟨five, hread, rfl⟩, ?_⟩
  rw [hrefused, hread]
  nofun

end AccessControl
