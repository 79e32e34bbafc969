/-
  AccessControl/Proofs/Listing/RoundTrip.lean
  ===========================================
  **When a written entry is read back as itself.**

  All but the principal is read back from every line whose fields stand in their
  places (`entry_layoutOf`).  A well-known principal and an id are read back as
  well.  A name is not always: it may be empty, or hold a colon, and without an
  id after the type it may look like the id of another.  These are all the
  exceptions there are (`parse_format_iff`).
-/
import AccessControl.Proofs.Listing.Layout
import AccessControl.Proofs.Names

namespace AccessControl.Listing

variable {kind : ObjectKind} {style : Style} {names : Names} {e : Entry} {subject : Subject}

/-! ### Reading in two steps -/

theorem parse_format_eq_ok_iff :
    (parse kind names (format style names e)).result = .ok (some e) ↔
      ∃ layout, Layout.ofLine (written style names e) = .ok layout ∧
        ∃ compact, layout.entry kind names = .ok (e, compact) := by
  obtain ⟨c, hc, -, hnumber⟩ := head_whoText style names e
  have hhead : (written style names e).head? = some c := by
    rw [written, List.head?_append, hc]
    rfl
  have hentry : ¬ (written style names e = [] ∨ (written style names e).head? = some '#') := by
    rintro (hnil | hsame)
    · rw [hnil] at hhead
      cases hhead
    · rw [hhead, Option.some.injEq] at hsame
      exact hnumber hsame
  simp only [parse, format, String.toList_ofList, parseChars, trim_formatChars, if_neg hentry,
    Attempt.result_bind, Attempt.result_silent, Attempt.result_lift, Attempt.result_pure,
    bind_eq_ok_iff, mapError_eq_ok_iff]
  constructor
  · rintro ⟨layout, hlayout, ⟨e', compactRights, compactFlags⟩, hread, -, -, hsame⟩
    cases hsame
    exact ⟨layout, hlayout, _, hread⟩
  · rintro ⟨layout, hlayout, ⟨compactRights, compactFlags⟩, hread⟩
    exact ⟨layout, hlayout, _, hread, (), trivial, rfl⟩

/-! ### All but the principal -/

theorem read_permissionsField (style : Style) (e : Entry) :
    ∃ compact, Vocabulary.rights.read (permissionsField style e) = .ok (e.mask, compact) := by
  obtain ⟨compact, hread⟩ :=
    Vocabulary.read_write Vocabulary.legible_rights (style.has .verbose) e.mask
  rw [Vocabulary.shown_rights, e.mask_defined] at hread
  exact ⟨compact, hread⟩

theorem read_flagsField (style : Style) (e : Entry) :
    ∃ compact, Vocabulary.flags.read (flagsField style e) = .ok (e.shownFlags, compact) := by
  obtain ⟨compact, hread⟩ :=
    Vocabulary.read_write Vocabulary.legible_flags (style.has .verbose) e.shownFlags
  rw [Vocabulary.shown_flags, Entry.shownFlags, Flags.inter_inter_self] at hread
  exact ⟨compact, hread⟩

theorem ofWord?_word (type : EntryType) : EntryType.ofWord? type.word.toList = some type := by
  cases type <;> decide

theorem appended_layoutOf (style : Style) (e : Entry) (subject : Subject) :
    (layoutOf style e subject).appended =
      .ok ((idField style e).map fun _ => e.principal.id) := by
  unfold Layout.appended layoutOf
  cases hid : idField style e with
  | none => rfl
  | some text =>
    obtain ⟨-, -, hread⟩ := digits_of_idField hid
    simp only [hread]
    rfl

/-- The entry is read back from its fields exactly if its principal is, provided
    that the flags that are not shown come with the tag. -/
theorem entry_layoutOf (names : Names) (hfits : e.fits kind)
    (hflags : (e.shownFlags ∪ (layoutOf style e subject).subjectFlags).settle e.principal =
      e.flags) :
    (∃ compact, (layoutOf style e subject).entry kind names = .ok (e, compact)) ↔
      (layoutOf style e subject).principal names
        ((idField style e).map fun _ => e.principal.id) = .ok e.principal := by
  obtain ⟨compactRights, hrights⟩ := read_permissionsField style e
  obtain ⟨compactFlags, hbits⟩ := read_flagsField style e
  have hentry : (layoutOf style e subject).entry kind names =
      (layoutOf style e subject).principal names
        ((idField style e).map fun _ => e.principal.id) >>= fun p =>
      Entry.build kind e.type (e.shownFlags ∪ (layoutOf style e subject).subjectFlags) e.mask p
        >>= fun e' => .ok (e', compactRights, compactFlags) := by
    rw [Layout.entry, appended_layoutOf]
    simp only [layoutOf, Layout.flagBits, hrights, hbits, ofWord?_word]
    rfl
  rw [hentry]
  constructor
  · rintro ⟨compact, hok⟩
    obtain ⟨p, hp, hrest⟩ := bind_eq_ok_iff.1 hok
    obtain ⟨e', hbuild, hsame⟩ := bind_eq_ok_iff.1 hrest
    obtain ⟨-, -, -, -, -, hprincipal⟩ := Entry.build_eq_ok_iff.1 hbuild
    cases hsame
    rw [hp, hprincipal]
  · intro hp
    rw [hp, ok_bind, Entry.build_of_settle hfits hflags]
    exact ⟨_, rfl⟩

theorem entry_of_no_type {layout : Layout} (htype : EntryType.ofWord? layout.type = none)
    (compact : Bool × Bool) : layout.entry kind names ≠ .ok (e, compact) := by
  intro hok
  rw [Layout.entry, bind_eq_ok_iff] at hok
  obtain ⟨⟨mask, compactRights⟩, -, hok⟩ := hok
  obtain ⟨⟨flags, compactFlags⟩, -, hok⟩ := bind_eq_ok_iff.1 hok
  simp only [htype] at hok
  cases hok

/-! ### Flags that come with the tag -/

theorem settle_wellKnown (hp : e.principal.isWellKnown) :
    (e.shownFlags ∪ Flags.none).settle e.principal = e.flags := by
  have hkept : EntryFlags.kept e.principal = EntryFlags.shown := by
    cases hprincipal : e.principal with
    | named id =>
      rw [hprincipal] at hp
      cases hp
    | owner | group | everyone => rfl
  calc (e.shownFlags ∪ Flags.none).settle e.principal
      = e.flags.settle e.principal := by
        apply EntryFlags.settle_congr
        rw [hkept, Entry.shownFlags]
        apply Flags.ext_word
        simp [BitVec.and_assoc]
    _ = e.flags := e.flags_settled

theorem settle_named {id : Int32} (hp : e.principal = .named id) :
    (e.shownFlags ∪ if e.isGroup then EntryFlags.identifierGroup else Flags.none).settle
      e.principal = e.flags := by
  have hkept : EntryFlags.kept e.principal = EntryFlags.shown ∪ EntryFlags.identifierGroup := by
    rw [hp]
    rfl
  calc (e.shownFlags ∪ if e.isGroup then EntryFlags.identifierGroup else Flags.none).settle
        e.principal
      = e.flags.settle e.principal := by
        apply EntryFlags.settle_congr
        refine Flags.eq_of_has (Flags.inter_inter_all (EntryFlags.kept_inter_all _))
          (Flags.inter_inter_all (EntryFlags.kept_inter_all _)) fun name => ?_
        rw [hkept]
        by_cases hname : name = .identifierGroup
        · subst hname
          cases hgroup : e.isGroup <;>
            simp_all [Entry.isGroup, Entry.shownFlags, EntryFlags.identifierGroup]
        · cases e.isGroup <;>
            simp [Entry.shownFlags, EntryFlags.identifierGroup, hname]
    _ = e.flags := e.flags_settled

/-! ### Names that are read back -/

/-- The name is a run of digits that is read as an id, but not as this one. -/
def ReadsAsOther (name : String) (id : Int32) : Prop :=
  name.toList.all Char.isDigit ∧ Nat.ofDigitChars 10 name.toList 0 ≤ 2147483647 ∧
    (Nat.ofDigitChars 10 name.toList 0 : Int) ≠ id.toInt

instance (name : String) (id : Int32) : Decidable (ReadsAsOther name id) := by
  unfold ReadsAsOther
  infer_instance

theorem printedName?_eq_none_iff : printedName? style names e = none ↔
    style.has .numericIds ∨ names.name? e.principal.id e.isGroup = none := by
  unfold printedName?
  by_cases hnumeric : style.has .numericIds <;> simp [hnumeric]

theorem printedName?_eq_some_iff {name : String} : printedName? style names e = some name ↔
    ¬ style.has .numericIds ∧ names.name? e.principal.id e.isGroup = some name := by
  unfold printedName?
  by_cases hnumeric : style.has .numericIds <;> simp [hnumeric]

/-- What is read for a name is its id, unless it reads as another. -/
theorem resolve_name_iff {name : String} {id : Int32} {isGroup : Bool} (hne : name ≠ "")
    (hname : names.name? id isGroup = some name) :
    resolve names isGroup name.toList = .ok id ↔ ¬ ReadsAsOther name id := by
  have hlookup : names.service.id? (String.ofList name.toList) isGroup = some id := by
    rw [String.ofList_toList]
    exact Names.id?_of_name? hname
  have hdecimal : Numeral.isDecimal name.toList = name.toList.all Char.isDigit := by
    have hnil : name.toList.isEmpty = false := by simpa using hne
    rw [Numeral.isDecimal, hnil, Bool.not_false, Bool.true_and]
  unfold resolve
  rw [hlookup]
  cases hread : id? name.toList with
  | none =>
    refine ⟨fun _ hother => ?_, fun _ => rfl⟩
    have hsome := id?_eq_some_iff.2 ⟨hdecimal.trans hother.1, hother.2.1, rfl⟩
    rw [hread] at hsome
    cases hsome
  | some other =>
    obtain ⟨hdigits, hle, rfl⟩ := id?_eq_some_iff.1 hread
    rw [Option.some_or]
    show Except.ok _ = Except.ok id ↔ _
    rw [Except.ok.injEq, ← Int32.toInt_inj, Principal.toInt_ofNat hle]
    constructor
    · rintro hsame ⟨-, -, hne⟩
      exact hne hsame
    · intro hother
      exact Decidable.byContradiction fun hne => hother ⟨hdecimal.symm.trans hdigits, hle, hne⟩

/-! ### Lines that are read back -/

theorem parse_format_wellKnown (hfits : e.fits kind) (hp : e.principal.isWellKnown) :
    (parse kind names (format style names e)).result = .ok (some e) := by
  obtain ⟨tag, htag⟩ : ∃ tag, e.principal.tag? = some tag := by
    cases hprincipal : e.principal with
    | named id =>
      rw [hprincipal] at hp
      cases hp
    | owner | group | everyone => exact ⟨_, rfl⟩
  have hflags : (layoutOf style e (.wellKnown e.principal)).subjectFlags = Flags.none := rfl
  have hentry := entry_layoutOf names hfits (hflags ▸ settle_wellKnown hp)
  have hprincipal : (layoutOf style e (.wellKnown e.principal)).principal names
      ((idField style e).map fun _ => e.principal.id) = .ok e.principal := rfl
  exact parse_format_eq_ok_iff.2 ⟨_, ofLine_wellKnown htag, hentry.2 hprincipal⟩

/-- A qualifier that keeps the fields in their places need only be read as the id,
    and not even that if the id stands after the type. -/
theorem parse_format_plain {id : Int32} (hfits : e.fits kind) (hp : e.principal = .named id)
    (hne : qualifier style names e ≠ []) (hcolon : ':' ∉ qualifier style names e) :
    (parse kind names (format style names e)).result = .ok (some e) ↔
      style.has .appendId ∨ resolve names e.isGroup (qualifier style names e) = .ok id := by
  have hflags : (layoutOf style e (.named e.isGroup (qualifier style names e))).subjectFlags =
      if e.isGroup then EntryFlags.identifierGroup else Flags.none := by
    unfold Layout.subjectFlags layoutOf
    cases e.isGroup <;> rfl
  have hentry := entry_layoutOf names hfits (hflags ▸ settle_named hp)
  have hline : (parse kind names (format style names e)).result = .ok (some e) ↔
      (layoutOf style e (.named e.isGroup (qualifier style names e))).principal names
        ((idField style e).map fun _ => e.principal.id) = .ok e.principal := by
    rw [parse_format_eq_ok_iff, ofLine_plain hp hne hcolon, ← hentry]
    constructor
    · rintro ⟨layout, hlayout, hread⟩
      cases hlayout
      exact hread
    · intro hread
      exact ⟨_, rfl, hread⟩
  rw [hline]
  by_cases happend : style.has .appendId
  · have hid : idField style e = some e.principal.text.toList := by
      simp [idField, happend, hp, Principal.isWellKnown]
    rw [hid, hp]
    exact iff_of_true rfl (.inl happend)
  · have hid : idField style e = none := by simp [idField, happend]
    rw [hid, hp]
    show (resolve names e.isGroup (qualifier style names e)).map Principal.named =
      .ok (.named id) ↔ _
    rw [or_iff_right happend]
    cases resolve names e.isGroup (qualifier style names e) with
    | ok other => simp [Except.map]
    | error fault => simp [Except.map]

/-- A qualifier that is empty or holds a colon is not read back. -/
theorem parse_format_broken {id : Int32} (hp : e.principal = .named id)
    (hbad : qualifier style names e = [] ∨ ':' ∈ qualifier style names e) :
    (parse kind names (format style names e)).result ≠ .ok (some e) := by
  intro hok
  obtain ⟨layout, hlayout, compact, hread⟩ := parse_format_eq_ok_iff.1 hok
  rcases hbad with hempty | hcolon
  · rw [ofLine_empty hp hempty] at hlayout
    cases hlayout
  · exact entry_of_no_type (ofLine_colon hp hcolon hlayout) compact hread

/-- Without a name the id itself is the qualifier, and is read back. -/
theorem parse_format_id {id : Int32} (hfits : e.fits kind) (hp : e.principal = .named id)
    (hprinted : printedName? style names e = none) :
    (parse kind names (format style names e)).result = .ok (some e) := by
  have hvalid : (Principal.named id).Valid := hp ▸ e.principal_valid
  have hqualifier : qualifier style names e = (Principal.named id).text.toList := by
    rw [qualifier, hprinted, hp]
    rfl
  have hcolon := colon_not_mem_of_digits fun _ hc => isDigit_of_mem_text hvalid hc
  rw [parse_format_plain hfits hp (hqualifier ▸ text_ne_nil hvalid) (hqualifier ▸ hcolon),
    hqualifier, resolve, id?_text hvalid]
  exact .inr rfl

theorem parse_format_name {id : Int32} {name : String} (hfits : e.fits kind)
    (hp : e.principal = .named id) (hprinted : printedName? style names e = some name) :
    (parse kind names (format style names e)).result = .ok (some e) ↔
      name ≠ "" ∧ ':' ∉ name.toList ∧ (style.has .appendId ∨ ¬ ReadsAsOther name id) := by
  have hqualifier : qualifier style names e = name.toList := by
    rw [qualifier, hprinted]
    rfl
  have hname : names.name? id e.isGroup = some name := by
    have hboth := (printedName?_eq_some_iff.1 hprinted).2
    rwa [hp] at hboth
  by_cases hbad : name = "" ∨ ':' ∈ name.toList
  · have hbroken : qualifier style names e = [] ∨ ':' ∈ qualifier style names e := by
      rwa [hqualifier, String.toList_eq_nil_iff]
    refine iff_of_false (parse_format_broken hp hbroken) ?_
    rintro ⟨hne, hcolon, -⟩
    exact hbad.elim hne hcolon
  · obtain ⟨hne, hcolon⟩ := not_or.1 hbad
    have hnil : name.toList ≠ [] := mt String.toList_eq_nil_iff.1 hne
    rw [parse_format_plain hfits hp (hqualifier ▸ hnil) (hqualifier ▸ hcolon), hqualifier,
      resolve_name_iff hne hname, and_iff_right hne, and_iff_right hcolon]

/-- **When a written entry is read back.**  Written in whatever style and with
    whatever names, an entry that the kind of object can hold is read back as
    itself exactly if its principal is well known, or no name is written for its
    id, or the name that is written has characters, no colon among them, and does
    not read as the id of another where the line has no id after the type. -/
theorem parse_format_iff (kind : ObjectKind) (style : Style) (names : Names) (e : Entry)
    (hfits : e.fits kind) :
    (parse kind names (format style names e)).result = .ok (some e) ↔
      e.principal.isWellKnown ∨
      (style.has .numericIds ∨ names.name? e.principal.id e.isGroup = none) ∨
      ∃ name, names.name? e.principal.id e.isGroup = some name ∧ name ≠ "" ∧
        ':' ∉ name.toList ∧ (style.has .appendId ∨ ¬ ReadsAsOther name e.principal.id) := by
  rw [← printedName?_eq_none_iff]
  cases hp : e.principal with
  | owner | group | everyone =>
    exact iff_of_true (parse_format_wellKnown hfits (by rw [hp]; rfl)) (.inl rfl)
  | named id =>
    rw [or_iff_right (by simp [Principal.isWellKnown])]
    cases hprinted : printedName? style names e with
    | none => exact iff_of_true (parse_format_id hfits hp hprinted) (.inl rfl)
    | some name =>
      have hname := (printedName?_eq_some_iff.1 hprinted).2
      rw [hp] at hname
      rw [or_iff_right (by simp), parse_format_name hfits hp hprinted, hname]
      constructor
      · rintro ⟨hne, hcolon, hgood⟩
        exact ⟨name, rfl, hne, hcolon, hgood⟩
      · rintro ⟨_, ⟨⟩, hne, hcolon, hgood⟩
        exact ⟨hne, hcolon, hgood⟩

/-- The user with id 5 has the name `7`: its entry is read back only with the id
    after the type. -/
theorem parse_format_iff_seven :
    let names := Names.empty.withUser "7" 5
    let e : Entry := ⟨.allow, Flags.none, Rights.read, .named 5, by decide, by decide, by decide⟩
    e.fits .file ∧ (parse .file names (format Flags.none names e)).result ≠ .ok (some e) ∧
      (parse .file names (format (Flags.of [.appendId]) names e)).result = .ok (some e) := by
  intro names e
  have hfits : e.fits .file := by decide
  have hname : names.name? e.principal.id e.isGroup = some "7" := by decide
  refine ⟨hfits, ?_, ?_⟩
  · rw [ne_eq, parse_format_iff .file Flags.none names e hfits, hname]
    simp only [Option.some.injEq, exists_eq_left', reduceCtorEq]
    decide
  · exact (parse_format_iff .file (Flags.of [.appendId]) names e hfits).2
      (.inr (.inr ⟨"7", hname, by decide, by decide, .inl (by decide)⟩))

end AccessControl.Listing
