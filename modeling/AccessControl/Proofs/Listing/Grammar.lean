/-
  AccessControl/Proofs/Listing/Grammar.lean
  =========================================
  **The lines that are entries, and the entry on each.**

  What a line says is its `Content`: whom it is for, two sets of bits, a type and
  perhaps an id.  `Says` is the grammar: which lines say it.  It speaks of fields
  and words only and not of the order in which a reader decides what a field is.
  The two fields that may be missing can be told apart all the same, since no type
  is an id and only an id can follow a type (`endings_of_content`).

  So a line is read as an entry exactly if it says something that makes the entry,
  and two lines that say the same are read alike, faults included
  (`parse_reads_grammar`).
-/
import AccessControl.Proofs.Listing.Reading
import AccessControl.Proofs.Listing.RoundTrip
import AccessControl.Proofs.Listing.Spelling

namespace AccessControl.Listing

/-! ### The grammar -/

/-- What a line says, however it is spelled. -/
structure Content where
  subject : Subject
  rights : Rights
  flags : EntryFlags
  type : EntryType
  id : Option Int32

/-- The words for a tag. -/
def Tag.words : Tag → List String
  | .wellKnown p => p.tag?.toList
  | .named false => ["user", "u"]
  | .named true => ["group", "g"]

/-- The field is a tag: one of its words, with or without blanks around it. -/
def IsTagField (field : List Char) (tag : Tag) : Prop :=
  ∃ word ∈ tag.words, Text.trimWith isTagBlank field = word.toList

/-- The fields before the permissions: a tag, and for a user or group a qualifier. -/
inductive Subject.StandsIn : Subject → List (List Char) → Prop
  | wellKnown {p : Principal} {tag : List Char} (htag : IsTagField tag (.wellKnown p)) :
      StandsIn (.wellKnown p) [tag]
  | named {isGroup : Bool} {tag qualifier : List Char} (htag : IsTagField tag (.named isGroup))
      (hne : qualifier ≠ []) : StandsIn (.named isGroup qualifier) [tag, qualifier]

/-- The text is a run of ASCII digits whose value is the id. -/
structure IsId (text : List Char) (id : Int32) : Prop where
  ne_nil : text ≠ []
  digits : ∀ c ∈ text, c.isDigit
  le_maxId : Nat.ofDigitChars 10 text 0 ≤ Principal.maxId
  value : id = Int32.ofNat (Nat.ofDigitChars 10 text 0)

/-- Between its colons the line holds the fields of the layout, in their order. -/
def HasLayout (line : List Char) (layout : Layout) : Prop :=
  ∃ head, layout.subject.StandsIn head ∧ line.splitOn ':' =
    head ++ layout.permissions :: (layout.flags.toList ++ layout.type :: layout.id.toList)

/-- The fields of the layout say what the content is.  A field of flags that is
    missing says that there are none. -/
structure Layout.Says (layout : Layout) (content : Content) : Prop where
  subject : layout.subject = content.subject
  rights : Vocabulary.rights.Spells layout.permissions content.rights
  flags : layout.flags.elim (content.flags = Flags.none) (Vocabulary.flags.Spells · content.flags)
  type : layout.type = content.type.word.toList
  id : Option.Rel IsId layout.id content.id

/-- The line says what the content is. -/
def Says (line : List Char) (content : Content) : Prop :=
  ∃ layout, HasLayout line layout ∧ layout.Says content

/-- Whom the content is for.  An id comes first; without one the qualifier is an id
    if it can be, and a name if not. -/
inductive Content.IsFor (content : Content) (names : NameService) : Principal → Prop
  | wellKnown {p : Principal} (hsubject : content.subject = .wellKnown p) : IsFor content names p
  | appended {isGroup : Bool} {qualifier : List Char} {id : Int32}
      (hsubject : content.subject = .named isGroup qualifier) (hid : content.id = some id) :
      IsFor content names (.named id)
  | qualifier {isGroup : Bool} {qualifier : List Char} {id : Int32}
      (hsubject : content.subject = .named isGroup qualifier) (hnone : content.id = none)
      (hid : IsId qualifier id) : IsFor content names (.named id)
  | name {isGroup : Bool} {qualifier : List Char} {id : Int32}
      (hsubject : content.subject = .named isGroup qualifier) (hnone : content.id = none)
      (hother : ∀ id, ¬ IsId qualifier id)
      (hname : names.id? (String.ofList qualifier) isGroup = some id) (hvalid : 0 ≤ id) :
      IsFor content names (.named id)

/-- The content makes the entry, for an object of the given kind. -/
structure Content.Makes (content : Content) (kind : ObjectKind) (names : NameService)
    (e : Entry) : Prop where
  plain : kind = .file → ∀ flag ∈ [EntryFlag.fileInherit, .directoryInherit, .inheritOnly,
    .noPropagate], content.flags.has flag = false
  type : e.type = content.type
  mask : ∀ right, e.mask.has right ↔
    content.rights.has right ∧ ¬ (kind = .file ∧ right = .deleteChild)
  flags : e.shownFlags = content.flags
  isGroup : ∀ isGroup qualifier, content.subject = .named isGroup qualifier → e.isGroup = isGroup
  principal : content.IsFor names e.principal

variable {kind : ObjectKind} {names : NameService} {line text : List Char} {layout other : Layout}
  {subject : Subject} {content : Content} {e : Entry} {p : Principal}

/-! ### Fields -/

theorem ofWord?_eq_some_iff {word : List Char} {tag : Tag} :
    Tag.ofWord? word = some tag ↔ ∃ known ∈ tag.words, word = known.toList := by
  constructor
  · intro hword
    unfold Tag.ofWord? at hword
    split_ifs at hword with howner hgroup heveryone huser hgroups
    · cases hword
      exact ⟨_, List.mem_singleton_self _, howner⟩
    · cases hword
      exact ⟨_, List.mem_singleton_self _, hgroup⟩
    · cases hword
      exact ⟨_, List.mem_singleton_self _, heveryone⟩
    · cases hword
      rcases huser with rfl | rfl
      · exact ⟨"user", by decide, rfl⟩
      · exact ⟨"u", by decide, rfl⟩
    · cases hword
      rcases hgroups with rfl | rfl
      · exact ⟨"group", by decide, rfl⟩
      · exact ⟨"g", by decide, rfl⟩
  · have hknown : ∀ tag : Tag, ∀ known ∈ tag.words, Tag.ofWord? known.toList = some tag := by
      intro tag
      cases tag with
      | wellKnown p =>
        cases p with
        | owner | group | everyone => decide
        | named id => nofun
      | named isGroup => cases isGroup <;> decide
    rintro ⟨known, hmem, rfl⟩
    exact hknown tag known hmem

theorem id?_eq_some_iff_isId {id : Int32} : id? text = some id ↔ IsId text id := by
  rw [id?_eq_some_iff]
  simp only [Numeral.isDecimal, Bool.and_eq_true, Bool.not_eq_true', List.isEmpty_eq_false_iff,
    List.all_eq_true]
  constructor
  · rintro ⟨⟨hne, hdigits⟩, hle, hid⟩
    exact ⟨hne, hdigits, hle, hid⟩
  · rintro ⟨hne, hdigits, hle, hid⟩
    exact ⟨⟨hne, hdigits⟩, hle, hid⟩

theorem ofWord?_type_iff {type : EntryType} :
    EntryType.ofWord? text = some type ↔ text = type.word.toList := by
  constructor
  · intro hfound
    have hword : type.word.toList = text := by simpa using List.find?_some hfound
    exact hword.symm
  · rintro rfl
    exact ofWord?_word type

theorem flagBits_eq_ok_iff {flags : EntryFlags} :
    (∃ compact, layout.flagBits = .ok (flags, compact)) ↔
      layout.flags.elim (flags = Flags.none) (Vocabulary.flags.Spells · flags) := by
  unfold Layout.flagBits
  cases layout.flags with
  | none => simp [eq_comm]
  | some text => exact Vocabulary.read_eq_ok_iff Vocabulary.unambiguous_flags

theorem appended_eq_ok_iff {id : Option Int32} :
    layout.appended = .ok id ↔ Option.Rel IsId layout.id id := by
  unfold Layout.appended
  cases layout.id with
  | none => cases id <;> simp
  | some text =>
    cases id with
    | none => cases hid : id? text <;> simp [hid]
    | some id =>
      rw [Option.rel_some_some, ← id?_eq_some_iff_isId]
      cases hid : id? text <;> simp [hid]

/-- A layout says what its fields are read as. -/
theorem says_iff : layout.Says content ↔ layout.subject = content.subject ∧
    (∃ compact, Vocabulary.rights.read layout.permissions = .ok (content.rights, compact)) ∧
    (∃ compact, layout.flagBits = .ok (content.flags, compact)) ∧
    EntryType.ofWord? layout.type = some content.type ∧ layout.appended = .ok content.id := by
  rw [Vocabulary.read_eq_ok_iff Vocabulary.unambiguous_rights, flagBits_eq_ok_iff,
    ofWord?_type_iff, appended_eq_ok_iff]
  exact ⟨fun h => ⟨h.subject, h.rights, h.flags, h.type, h.id⟩,
    fun ⟨hsubject, hrights, hflags, htype, hid⟩ => ⟨hsubject, hrights, hflags, htype, hid⟩⟩

/-! ### Lines and layouts -/

theorem fields_of_endings {fields : List (List Char)} {flags id : Option (List Char)}
    {type : List Char} (hok : Layout.endings fields = .ok (flags, type, id)) :
    fields = flags.toList ++ type :: id.toList := by
  unfold Layout.endings at hok
  split at hok
  · cases hok
  · cases hok
    rfl
  · split at hok <;> cases hok <;> rfl
  · cases hok
    rfl
  · cases hok

theorem endings_of_content (hsaid : layout.Says content) :
    Layout.endings (layout.flags.toList ++ layout.type :: layout.id.toList) =
      .ok (layout.flags, layout.type, layout.id) := by
  have hnoId : ∀ type : EntryType, id? type.word.toList = none := by
    intro type
    cases type <;> decide
  have htype : EntryType.ofWord? layout.type = some content.type := (says_iff.1 hsaid).2.2.2.1
  cases hflags : layout.flags with
  | none =>
    cases hid : layout.id with
    | none => rfl
    | some text =>
      have hrel := hsaid.id
      rw [hid] at hrel
      obtain ⟨id, hisId⟩ : ∃ id, IsId text id := by
        generalize content.id = id? at hrel
        cases hrel with
        | some hisId => exact ⟨_, hisId⟩
      simp [Layout.endings, htype, id?_eq_some_iff_isId.2 hisId]
  | some flags =>
    cases hid : layout.id with
    | none => simp [Layout.endings, hsaid.type, hnoId]
    | some text => rfl

theorem afterSubject_eq_ok_iff {fields : List (List Char)} :
    Layout.afterSubject subject fields = .ok layout ↔ layout.subject = subject ∧
      ∃ rest, fields = layout.permissions :: rest ∧
        Layout.endings rest = .ok (layout.flags, layout.type, layout.id) := by
  cases fields with
  | nil =>
    constructor
    · nofun
    · rintro ⟨-, rest, hfields, -⟩
      nomatch hfields
  | cons permissions rest =>
    rw [Layout.afterSubject, bind_eq_ok_iff]
    constructor
    · rintro ⟨⟨flags, type, id⟩, hendings, hlayout⟩
      cases hlayout
      exact ⟨rfl, rest, rfl, hendings⟩
    · rintro ⟨rfl, _, hfields, hendings⟩
      cases hfields
      exact ⟨_, hendings, rfl⟩

theorem hasLayout_of_ofLine (hok : Layout.ofLine line = .ok layout) : HasLayout line layout := by
  obtain ⟨tag, fields, hline⟩ := List.exists_cons_of_ne_nil (List.splitOn_ne_nil ':' line)
  rw [Layout.ofLine, hline] at hok
  dsimp only at hok
  rw [HasLayout, hline]
  split at hok
  · cases hok
  next p htag =>
    obtain ⟨hsubject, rest, rfl, hendings⟩ := afterSubject_eq_ok_iff.1 hok
    rw [hsubject, ← fields_of_endings hendings]
    exact ⟨[tag], .wellKnown (ofWord?_eq_some_iff.1 htag), rfl⟩
  next isGroup htag =>
    split at hok
    · cases hok
    · cases hok
    next qualifier others hne =>
      obtain ⟨hsubject, rest, rfl, hendings⟩ := afterSubject_eq_ok_iff.1 hok
      rw [hsubject, ← fields_of_endings hendings]
      refine ⟨[tag, qualifier], .named (ofWord?_eq_some_iff.1 htag) ?_, rfl⟩
      rintro rfl
      exact hne rfl

theorem ofLine_of_content (hcut : HasLayout line layout) (hsaid : layout.Says content) :
    Layout.ofLine line = .ok layout := by
  obtain ⟨head, hhead, hline⟩ := hcut
  have hafter : Layout.afterSubject layout.subject
      (layout.permissions :: (layout.flags.toList ++ layout.type :: layout.id.toList)) =
        .ok layout :=
    afterSubject_eq_ok_iff.2 ⟨rfl, _, rfl, endings_of_content hsaid⟩
  generalize hsubject : layout.subject = subject at hhead hafter
  cases hhead with
  | wellKnown htag =>
    rw [Layout.ofLine, hline]
    simp only [List.cons_append, List.nil_append, ofWord?_eq_some_iff.2 htag]
    exact hafter
  | named htag hne =>
    obtain ⟨c, cs, rfl⟩ := List.exists_cons_of_ne_nil hne
    rw [Layout.ofLine, hline]
    simp only [List.cons_append, List.nil_append, ofWord?_eq_some_iff.2 htag]
    exact hafter

theorem head?_of_isTagField {field : List Char} {tag : Tag} (htag : IsTagField field tag) :
    field.head? ≠ some '#' := by
  have hwords : ∀ tag : Tag, ∀ word ∈ tag.words, word.toList.head? ≠ some '#' := by
    intro tag
    cases tag with
    | wellKnown p =>
      cases p with
      | owner | group | everyone => decide
      | named id => nofun
    | named isGroup => cases isGroup <;> decide
  obtain ⟨word, hmem, htrim⟩ := htag
  intro hhead
  obtain ⟨cs, rfl⟩ := List.head?_eq_some_iff.1 hhead
  obtain ⟨rest, hrest⟩ := Text.exists_trimWith_cons cs (show isTagBlank '#' = false by decide)
  apply hwords tag word hmem
  rw [← htrim, hrest]
  rfl

/-- A line that says something is no remark. -/
theorem not_isRemark_of_content (hsaid : Says (Text.trim line) content) : ¬ IsRemark line := by
  obtain ⟨layout, ⟨head, hhead, hline⟩, -⟩ := hsaid
  obtain ⟨tag, field, others, htag, hcut⟩ : ∃ tag field others,
      IsTagField field tag ∧ (Text.trim line).splitOn ':' = field :: others ∧ others ≠ [] := by
    generalize layout.subject = subject at hhead
    cases hhead with
    | wellKnown htag => exact ⟨_, _, _, htag, hline, by simp⟩
    | named htag hne => exact ⟨_, _, _, htag, hline, by simp⟩
  rintro (hempty | hnumber)
  · rw [hempty, List.splitOn_nil, List.cons.injEq] at hcut
    exact hcut.2 hcut.1.2.symm
  · obtain ⟨cs, hcs⟩ := List.head?_eq_some_iff.1 hnumber
    rw [hcs, List.splitOn_cons_eq_if_modifyHead, if_neg (by decide)] at hcut
    obtain ⟨first, rest, hfirst⟩ := List.exists_cons_of_ne_nil (List.splitOn_ne_nil ':' cs)
    rw [hfirst, List.modifyHead_cons, List.cons.injEq] at hcut
    apply head?_of_isTagField htag
    rw [← hcut.1.1]
    rfl

/-! ### Entries -/

theorem resolve_eq_ok_iff_isId {isGroup : Bool} {qualifier : List Char} {id : Int32} :
    resolve names isGroup qualifier = .ok id ↔ IsId qualifier id ∨
      (∀ other, ¬ IsId qualifier other) ∧
        names.id? (String.ofList qualifier) isGroup = some id := by
  simp only [resolve, ← id?_eq_some_iff_isId]
  cases id? qualifier with
  | some own => simp
  | none => cases names.id? (String.ofList qualifier) isGroup <;> simp

theorem isFor_of_principal (hsaid : layout.Says content)
    (hprincipal : layout.principal names content.id = .ok p) (hvalid : p.Valid) :
    content.IsFor names p := by
  unfold Layout.principal at hprincipal
  rw [hsaid.subject] at hprincipal
  cases hsubject : content.subject with
  | wellKnown q =>
    simp only [hsubject, Except.ok.injEq] at hprincipal
    exact hprincipal ▸ .wellKnown hsubject
  | named isGroup qualifier =>
    cases hid : content.id with
    | some id =>
      simp only [hsubject, hid, Except.ok.injEq] at hprincipal
      exact hprincipal ▸ .appended hsubject hid
    | none =>
      simp only [hsubject, hid] at hprincipal
      cases hresolve : resolve names isGroup qualifier with
      | error fault =>
        rw [hresolve] at hprincipal
        nomatch hprincipal
      | ok id =>
        rw [hresolve] at hprincipal
        cases hprincipal
        rcases resolve_eq_ok_iff_isId.1 hresolve with hown | ⟨hother, hname⟩
        · exact .qualifier hsubject hid hown
        · exact .name hsubject hid hother hname hvalid

theorem principal_of_isFor (hsaid : layout.Says content) (hfor : content.IsFor names p) :
    layout.principal names content.id = .ok p := by
  unfold Layout.principal
  rw [hsaid.subject]
  cases hfor with
  | wellKnown hsubject => rw [hsubject]
  | appended hsubject hid => rw [hsubject, hid]
  | qualifier hsubject hnone hid =>
    simp only [hsubject, hnone, resolve_eq_ok_iff_isId.2 (.inl hid)]
    rfl
  | name hsubject hnone hother hname hvalid =>
    simp only [hsubject, hnone, resolve_eq_ok_iff_isId.2 (.inr ⟨hother, hname⟩)]
    rfl

theorem Content.IsFor.eq_of_wellKnown {q : Principal} (hfor : content.IsFor names p)
    (hsubject : content.subject = .wellKnown q) : p = q := by
  cases hfor with
  | wellKnown hown =>
    rw [hown] at hsubject
    exact Subject.wellKnown.inj hsubject
  | appended hown | qualifier hown | name hown =>
    rw [hown] at hsubject
    nomatch hsubject

theorem Content.IsFor.exists_of_named {isGroup : Bool} {qualifier : List Char}
    (hfor : content.IsFor names p) (hsubject : content.subject = .named isGroup qualifier) :
    ∃ id, p = .named id := by
  cases hfor with
  | wellKnown hown =>
    rw [hown] at hsubject
    nomatch hsubject
  | appended | qualifier | name => exact ⟨_, rfl⟩

theorem isWellKnown_of_hasLayout (hcut : HasLayout line layout)
    (hsubject : layout.subject = .wellKnown p) : p.isWellKnown := by
  obtain ⟨head, hhead, -⟩ := hcut
  rw [hsubject] at hhead
  cases hhead with
  | wellKnown htag =>
    obtain ⟨word, hword, -⟩ := htag
    cases p with
    | owner | group | everyone => rfl
    | named id => nomatch hword

theorem has_subjectFlags {flag : EntryFlag} (hflag : flag ≠ .identifierGroup) :
    layout.subjectFlags.has flag = false := by
  unfold Layout.subjectFlags
  split <;> simp [EntryFlags.identifierGroup, hflag]

theorem has_identifierGroup_subjectFlags {isGroup : Bool} {qualifier : List Char}
    (hsubject : layout.subject = .named isGroup qualifier) :
    layout.subjectFlags.has .identifierGroup = isGroup := by
  unfold Layout.subjectFlags
  rw [hsubject]
  cases isGroup <;> simp [EntryFlags.identifierGroup]

/-- The flags of a content have a written form. -/
theorem Layout.Says.inter_shown (hsaid : layout.Says content) :
    content.flags ∩ EntryFlags.shown = content.flags := by
  have hflags := hsaid.flags
  cases hfield : layout.flags with
  | none =>
    rw [hfield] at hflags
    rw [show content.flags = Flags.none from hflags]
    exact Flags.ext_word BitVec.zero_and
  | some text =>
    rw [hfield] at hflags
    exact Vocabulary.Spells.inter_shown Vocabulary.unambiguous_flags hflags

/-- The tag adds none of the flags that have a written form. -/
theorem union_subjectFlags_inter_shown {flags : EntryFlags}
    (hshown : flags ∩ EntryFlags.shown = flags) :
    (flags ∪ layout.subjectFlags) ∩ EntryFlags.shown = flags := by
  rw [← hshown]
  refine Flags.eq_of_has (Flags.inter_inter_all (Flags.of_inter_all _))
    (Flags.inter_inter_all (Flags.of_inter_all _)) fun name => ?_
  by_cases hname : name = .identifierGroup
  · simp [hname, EntryFlags.shown, EntryFlag.shown]
  · simp [has_subjectFlags hname]

theorem meets_directoryOnly_eq_false_iff {flags : EntryFlags} :
    (flags ∪ layout.subjectFlags).meets EntryFlags.directoryOnly = false ↔
      ∀ flag ∈ [EntryFlag.fileInherit, .directoryInherit, .inheritOnly, .noPropagate],
        flags.has flag = false := by
  simp [EntryFlags.directoryOnly, Flags.meets_of, has_subjectFlags, and_comm, and_left_comm]

/-- The tag and the flags with a written form settle all flags. -/
theorem settle_union_subjectFlags (hcut : HasLayout line layout)
    (hsubject : layout.subject = content.subject) (hfor : content.IsFor names e.principal)
    (hgroup : ∀ isGroup qualifier, content.subject = .named isGroup qualifier →
      e.isGroup = isGroup) :
    (e.shownFlags ∪ layout.subjectFlags).settle e.principal = e.flags := by
  cases hwhom : content.subject with
  | wellKnown p =>
    rw [hwhom] at hsubject
    have hnone : layout.subjectFlags = Flags.none := by rw [Layout.subjectFlags, hsubject]
    rw [hnone]
    exact settle_wellKnown (hfor.eq_of_wellKnown hwhom ▸ isWellKnown_of_hasLayout hcut hsubject)
  | named isGroup qualifier =>
    rw [hwhom] at hsubject
    have hflags : layout.subjectFlags =
        if e.isGroup then EntryFlags.identifierGroup else Flags.none := by
      rw [hgroup isGroup qualifier hwhom, Layout.subjectFlags, hsubject]
      cases isGroup <;> rfl
    obtain ⟨id, hid⟩ := hfor.exists_of_named hwhom
    rw [hflags]
    exact settle_named hid

/-- Who is named is a group exactly if the tag says so. -/
theorem has_identifierGroup_settle {id : Int32} {isGroup : Bool} {qualifier : List Char}
    (hshown : content.flags ∩ EntryFlags.shown = content.flags)
    (hsubject : layout.subject = .named isGroup qualifier) :
    ((content.flags ∪ layout.subjectFlags).settle (.named id)).has .identifierGroup = isGroup := by
  have hflags : content.flags.has .identifierGroup = false := by
    rw [← hshown, Flags.has_inter, EntryFlags.shown, Flags.has_of, Bool.and_eq_false_iff]
    exact .inr (by decide)
  have hkept : (EntryFlags.kept (.named id)).has .identifierGroup = true := by
    simp [EntryFlags.kept, EntryFlags.identifierGroup]
  have hforced : (EntryFlags.forced (.named id)).has .identifierGroup = false := Flags.has_none _
  rw [EntryFlags.has_settle, Flags.has_union, hflags, hkept, hforced,
    has_identifierGroup_subjectFlags hsubject, Bool.false_or, Bool.and_true, Bool.or_false]

/-- What a content makes is what is built from it. -/
theorem makes_iff (hcut : HasLayout line layout) (hsaid : layout.Says content) :
    content.Makes kind names e ↔ ∃ p, layout.principal names content.id = .ok p ∧
      Entry.build kind content.type (content.flags ∪ layout.subjectFlags) content.rights p =
        .ok e := by
  have hshown := hsaid.inter_shown
  simp only [Entry.build_eq_ok_iff, meets_directoryOnly_eq_false_iff]
  constructor
  · intro hmakes
    refine ⟨e.principal, principal_of_isFor hsaid hmakes.principal, hmakes.plain,
      e.principal_valid, hmakes.type, ?_, ?_, rfl⟩
    · rw [← hmakes.flags,
        settle_union_subjectFlags hcut hsaid.subject hmakes.principal hmakes.isGroup]
    · refine Flags.eq_of_has e.mask_defined (Rights.givenBy_inter_full _ _) fun right => ?_
      rw [Bool.eq_iff_iff, hmakes.mask, Rights.has_givenBy, Bool.and_eq_true, Bool.not_eq_true',
        decide_eq_false_iff_not]
  · rintro ⟨p, hp, hplain, hvalid, htype, hflags, hmask, rfl⟩
    have hfor := isFor_of_principal hsaid hp hvalid
    refine ⟨hplain, htype, fun right => ?_, ?_, ?_, hfor⟩
    · rw [hmask, Rights.has_givenBy, Bool.and_eq_true, Bool.not_eq_true', decide_eq_false_iff_not]
    · rw [Entry.shownFlags, hflags, EntryFlags.settle_inter_shown,
        union_subjectFlags_inter_shown hshown]
    · intro isGroup qualifier hsubject
      obtain ⟨id, hid⟩ := hfor.exists_of_named hsubject
      rw [Entry.isGroup, hflags, hid]
      exact has_identifierGroup_settle hshown (hsaid.subject.trans hsubject)

/-! ### Reading a line -/

/-- A line that says something is read by looking up whom it is for and building
    the entry. -/
theorem result_of_content (hcut : HasLayout (Text.trim line) layout) (hsaid : layout.Says content) :
    (parseChars kind names line).result =
      (layout.principal names content.id >>= fun p =>
        (Entry.build kind content.type (content.flags ∪ layout.subjectFlags) content.rights p).map
          some) := by
  obtain ⟨hsubject, ⟨compactRights, hrights⟩, ⟨compactFlags, hflags⟩, htype, happended⟩ :=
    says_iff.1 hsaid
  rw [parseChars_entry (not_isRemark_of_content ⟨layout, hcut, hsaid⟩), ofLine_of_content hcut hsaid]
  simp only [Except.mapError, ok_bind, Layout.entry, hrights, hflags, htype, happended, pure_bind]
  cases layout.principal names content.id with
  | error fault => rfl
  | ok p =>
    simp only [ok_bind]
    cases Entry.build kind content.type (content.flags ∪ layout.subjectFlags) content.rights p <;>
      rfl

/-- Only lines that say something are read as an entry. -/
theorem exists_says_of_parseChars (hok : (parseChars kind names line).result = .ok (some e)) :
    ∃ content, Says (Text.trim line) content := by
  obtain ⟨-, layout, hlayout, hentry⟩ := parseChars_eq_some_iff.1 hok
  obtain ⟨type, flags, mask, p, hreads, -⟩ := Layout.exists_entry_eq_ok_iff.1 hentry
  obtain ⟨appended, happended, -⟩ := hreads.principal
  exact ⟨⟨layout.subject, mask, flags, type, appended⟩, layout, hasLayout_of_ofLine hlayout,
    says_iff.2 ⟨rfl, hreads.mask, hreads.flags, hreads.type, happended⟩⟩

theorem parseChars_eq_some_iff_says : (parseChars kind names line).result = .ok (some e) ↔
    ∃ content, Says (Text.trim line) content ∧ content.Makes kind names e := by
  have hread : ∀ content, Says (Text.trim line) content →
      ((parseChars kind names line).result = .ok (some e) ↔ content.Makes kind names e) := by
    rintro content ⟨layout, hcut, hsaid⟩
    rw [result_of_content hcut hsaid, makes_iff hcut hsaid, bind_eq_ok_iff]
    refine exists_congr fun p => and_congr_right fun _ => ?_
    cases Entry.build kind content.type (content.flags ∪ layout.subjectFlags) content.rights p <;>
      simp [Except.map]
  constructor
  · intro hok
    obtain ⟨content, hsaid⟩ := exists_says_of_parseChars hok
    exact ⟨content, hsaid, (hread content hsaid).1 hok⟩
  · rintro ⟨content, hsaid, hmakes⟩
    exact (hread content hsaid).2 hmakes

/-- How a line says what it says makes no difference. -/
theorem parseChars_congr {first second : List Char} (hfirst : Says (Text.trim first) content)
    (hsecond : Says (Text.trim second) content) :
    (parseChars kind names first).result = (parseChars kind names second).result := by
  obtain ⟨layout, hcut, hsaid⟩ := hfirst
  obtain ⟨other, hother, hsame⟩ := hsecond
  have hsubject : layout.subject = other.subject := hsaid.subject.trans hsame.subject.symm
  have hprincipal : layout.principal names content.id = other.principal names content.id := by
    simp only [Layout.principal, hsubject]
  have hflags : layout.subjectFlags = other.subjectFlags := by
    simp only [Layout.subjectFlags, hsubject]
  rw [result_of_content hcut hsaid, result_of_content hother hsame, hprincipal, hflags]

/-- **The lines that are read.**  Trimmed, a line is read as no entry exactly if it
    is empty or starts with a number sign, and as an entry exactly if it says
    something that makes the entry.  Lines that say the same are read alike, be it
    as an entry or with a fault. -/
theorem parse_reads_grammar (kind : ObjectKind) (names : NameService) (line : String) :
    ((parse kind names line).result = .ok none ↔
      Text.trim line.toList = [] ∨ (Text.trim line.toList).head? = some '#') ∧
    (∀ e, (parse kind names line).result = .ok (some e) ↔
      ∃ content, Says (Text.trim line.toList) content ∧ content.Makes kind names e) ∧
    ∀ (other : String) (content : Content), Says (Text.trim line.toList) content →
      Says (Text.trim other.toList) content →
        (parse kind names other).result = (parse kind names line).result :=
  ⟨parseChars_eq_none_iff, fun _ => parseChars_eq_some_iff_says,
    fun _ _ hline hother => parseChars_congr hother hline⟩

/-- Two lines for one entry: letters without a field of flags, and words, one of them
    twice, with an empty one. -/
theorem parse_reads_grammar_two_spellings :
    let content : Content :=
      ⟨.named false "5".toList, Flags.of [.readData, .execute], Flags.none, .allow, none⟩
    let e : Entry := ⟨.allow, Flags.none, Flags.of [.readData, .execute], .named 5,
      by decide, by decide, by decide⟩
    Says (Text.trim "u:5:xr:allow".toList) content ∧
      Says (Text.trim " user :5:execute/read_data/execute::allow".toList) content ∧
      content.Makes .file Names.empty.service e ∧
      (parse .file Names.empty.service "u:5:xr:allow").result = .ok (some e) ∧
      (parse .file Names.empty.service " user :5:execute/read_data/execute::allow").result =
        .ok (some e) := by
  intro content e
  have hshort : Says (Text.trim "u:5:xr:allow".toList) content :=
    ⟨⟨.named false "5".toList, "xr".toList, none, "allow".toList, none⟩,
      ⟨["u".toList, "5".toList], .named ⟨"u", by decide, by decide⟩ (by decide), by decide⟩,
      says_iff.2 ⟨rfl, ⟨true, by decide⟩, ⟨false, by decide⟩, by decide, by decide⟩⟩
  have hlong : Says (Text.trim " user :5:execute/read_data/execute::allow".toList) content :=
    ⟨⟨.named false "5".toList, "execute/read_data/execute".toList, some [], "allow".toList, none⟩,
      ⟨["user ".toList, "5".toList], .named ⟨"user", by decide, by decide⟩ (by decide), by decide⟩,
      says_iff.2 ⟨rfl, ⟨false, by decide⟩, ⟨true, by decide⟩, by decide, by decide⟩⟩
  have hmakes : content.Makes .file Names.empty.service e := by
    refine ⟨fun _ => by decide, rfl, fun right => by cases right <;> decide, by decide, ?_, ?_⟩
    · rintro isGroup qualifier ⟨⟩
      decide
    · exact .qualifier rfl rfl (id?_eq_some_iff_isId.1 (by decide))
  obtain ⟨-, hread, hsame⟩ := parse_reads_grammar .file Names.empty.service "u:5:xr:allow"
  have hparse := (hread e).2 ⟨content, hshort, hmakes⟩
  exact ⟨hshort, hlong, hmakes, hparse, (hsame _ content hshort hlong).trans hparse⟩

end AccessControl.Listing
