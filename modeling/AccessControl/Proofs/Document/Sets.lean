/-
  AccessControl/Proofs/Document/Sets.lean
  =======================================
  **Which objects stand for a set.**

  There are two forms that an object for a set should have: an alias by itself, or
  known keys with truth values (`Keys.Documented`).  All of these are read, and
  what is wrong with another object is said once, under the member that holds it.
  There is one exception.  Once an alias is found no other key is looked at, so an
  alias among other keys is read as if it stood alone, be those keys known or not
  (`Keys.Mixed`, `decodeSet_eq_ok_iff`).

  The main result is about a whole document (`decode_reads_sets`).  With all the
  rest in order the document is read exactly if the object is, and the entry has
  the bits of the object; otherwise there is one issue and no list.
-/
import AccessControl.Proofs.Document.Reading
import AccessControl.Proofs.Document.Vocabulary

namespace AccessControl.Document

namespace Keys

variable {κ : Type} {k : Keys κ} {object entry : Members} {bits read : Flags κ}

/-! ### Forms of an object -/

/-- The object has one of the two forms for these bits. -/
inductive Documented [Named κ] (k : Keys κ) : Members → Flags κ → Prop
  | aliased {word : String} {bits : Flags κ} (halias : (bits, word) ∈ k.aliases) :
      Documented k [("BASIC", .string word)] bits
  | spelled {object : Members} {bits : Flags κ}
      (known : ∀ member ∈ object,
        (∃ name, (name, member.1) ∈ k.keys) ∧ ∃ set, member.2 = .bool set)
      (union : bits.IsSetOf fun name =>
        ∃ key, (name, key) ∈ k.keys ∧ (key, .bool true) ∈ object) :
      Documented k object bits

/-- The object has an alias for these bits, but other members too. -/
structure Mixed (k : Keys κ) (object : Members) (bits : Flags κ) : Prop where
  aliased : ∃ word, Json.find? object "BASIC" = some (.string word) ∧ (bits, word) ∈ k.aliases
  others : 1 < object.length

/-- The object is read as these bits. -/
def Accepts [Named κ] (k : Keys κ) (object : Members) (bits : Flags κ) : Prop :=
  k.Documented object bits ∨ k.Mixed object bits

/-! ### Keys and aliases -/

theorem mem_of_spelling {α : Type} {pairs : List (α × String)} {spelling : String} {a : α}
    (hfound : (pairs.find? fun (_, known) => known = spelling).map (·.1) = some a) :
    (a, spelling) ∈ pairs := by
  obtain ⟨⟨found, known⟩, hpair, rfl⟩ := Option.map_eq_some_iff.1 hfound
  obtain rfl : known = spelling := by simpa using List.find?_some hpair
  exact List.mem_of_find?_eq_some hpair

theorem ofKey?_eq_some_iff (hk : k.Legible) {key : String} {name : κ} :
    k.ofKey? key = some name ↔ (name, key) ∈ k.keys :=
  ⟨mem_of_spelling, hk.ofKey (name, key)⟩

theorem ofAlias?_eq_some_iff (hk : k.Legible) {word : String} :
    k.ofAlias? word = some bits ↔ (bits, word) ∈ k.aliases :=
  ⟨mem_of_spelling, hk.ofAlias (bits, word)⟩

variable [Named κ]

/-- Keys are read only if all of them are known. -/
theorem known_of_decodeKeys (hok : decodeKeys k bits object = .ok read) :
    ∀ member ∈ object, ∃ name set, k.ofKey? member.1 = some name ∧ member.2 = .bool set := by
  induction object generalizing bits with
  | nil => exact fun _ hmem => absurd hmem List.not_mem_nil
  | cons member rest ih =>
    obtain ⟨key, value⟩ := member
    unfold decodeKeys at hok
    split at hok
    · cases hok
    next set hset =>
      split at hok
      · cases hok
      next name hname =>
        rw [List.forall_mem_cons]
        exact ⟨⟨name, set, hname, Json.bool?_eq_some_iff.1 hset⟩, ih hok⟩

variable [SingleBits κ] [DecidableEq κ]

theorem decodeKeys_eq_ok_iff (hk : k.Legible) :
    decodeKeys k Flags.none object = .ok bits ↔
      (∀ member ∈ object, (∃ name, (name, member.1) ∈ k.keys) ∧ ∃ set, member.2 = .bool set) ∧
        bits.IsSetOf fun name => ∃ key, (name, key) ∈ k.keys ∧ (key, .bool true) ∈ object := by
  have hread : (∀ member ∈ object, ∃ name set,
      k.ofKey? member.1 = some name ∧ member.2 = .bool set) →
      ∃ read, decodeKeys k Flags.none object = .ok read ∧ read.IsSetOf fun name =>
        ∃ key, (name, key) ∈ k.keys ∧ (key, .bool true) ∈ object := by
    intro hknown
    have hnone : (Flags.none : Flags κ) ∩ Flags.all = Flags.none := Flags.ext_word BitVec.zero_and
    obtain ⟨read, hread, hall, hhas⟩ := exists_decodeKeys hnone hknown
    refine ⟨read, hread, hall, fun name => ?_⟩
    rw [hhas, Flags.has_none]
    simp only [Bool.false_eq_true, false_or, ofKey?_eq_some_iff hk]
  constructor
  · intro hok
    have hknown := known_of_decodeKeys hok
    obtain ⟨read, hsame, hset⟩ := hread hknown
    rw [hok] at hsame
    cases hsame
    refine ⟨fun member hmem => ?_, hset⟩
    obtain ⟨name, set, hname, hvalue⟩ := hknown member hmem
    exact ⟨⟨name, (ofKey?_eq_some_iff hk).1 hname⟩, set, hvalue⟩
  · rintro ⟨hknown, hset⟩
    obtain ⟨read, hok, hother⟩ := hread fun member hmem => by
      obtain ⟨⟨name, hname⟩, set, hvalue⟩ := hknown member hmem
      exact ⟨name, set, (ofKey?_eq_some_iff hk).2 hname, hvalue⟩
    rw [hok, hset.unique hother]

/-! ### Objects -/

/-- An object is read if it has one of the two forms, and also if it has other
    members next to an alias. -/
theorem decodeSet_eq_ok_iff (hk : k.Legible)
    (hfound : Json.find? entry k.member = some (.object object)) :
    decodeSet k entry = .ok bits ↔ k.Accepts object bits := by
  cases hbasic : Json.find? object "BASIC" with
  | none =>
    have hread : decodeSet k entry = decodeKeys k Flags.none object := by
      simp only [decodeSet, hfound, Json.members?, hbasic]
    rw [hread, decodeKeys_eq_ok_iff hk]
    constructor
    · rintro ⟨hknown, hset⟩
      exact .inl (.spelled hknown hset)
    · rintro (hform | hmixed)
      · cases hform with
        | aliased halias => cases hbasic
        | spelled hknown hset => exact ⟨hknown, hset⟩
      · obtain ⟨word, hword, -⟩ := hmixed.aliased
        rw [hbasic] at hword
        cases hword
  | some value =>
    have hread : decodeSet k entry = .ok bits ↔
        ∃ word, value = .string word ∧ (bits, word) ∈ k.aliases := by
      simp only [decodeSet, hfound, Json.members?, hbasic]
      cases value with
      | string word =>
        simp only [Json.string?, Json.string.injEq, exists_eq_left', ← ofAlias?_eq_some_iff hk]
        cases k.ofAlias? word <;> simp [complain]
      | null | bool _ | number _ | array _ | object _ => simp [Json.string?, complain]
    rw [hread]
    constructor
    · rintro ⟨word, rfl, halias⟩
      by_cases hothers : 1 < object.length
      · exact .inr ⟨⟨word, hbasic, halias⟩, hothers⟩
      · obtain ⟨member, rfl⟩ : ∃ member, object = [member] := by
          have hmem := Json.mem_of_find? hbasic
          rw [← List.length_eq_one_iff]
          have hpos := List.length_pos_of_mem hmem
          omega
        obtain rfl := List.mem_singleton.1 (Json.mem_of_find? hbasic)
        exact .inl (.aliased halias)
    · rintro (hform | hmixed)
      · cases hform with
        | aliased halias =>
          cases hbasic
          exact ⟨_, rfl, halias⟩
        | spelled hknown hset =>
          obtain ⟨⟨name, hname⟩, -⟩ := hknown _ (Json.mem_of_find? hbasic)
          exact absurd (List.mem_map_of_mem hname) hk.notBasic
      · obtain ⟨word, hword, halias⟩ := hmixed.aliased
        rw [hbasic] at hword
        cases hword
        exact ⟨word, rfl, halias⟩

/-- An object is read as names with keys only. -/
theorem inter_shown_of_accepts (haliases : ∀ pair ∈ k.aliases, pair.1 ∩ k.shown = pair.1)
    (haccepts : k.Accepts object bits) : bits ∩ k.shown = bits := by
  rcases haccepts with hform | hmixed
  · cases hform with
    | aliased halias => exact haliases _ halias
    | spelled hknown hset =>
      refine Flags.eq_of_has (Flags.inter_inter_all (Flags.of_inter_all _)) hset.defined ?_
      intro name
      rw [Flags.has_inter, Bool.and_eq_left_iff_imp]
      intro hname
      obtain ⟨key, hkey, -⟩ := (hset.has_iff name).1 hname
      rw [shown, Flags.has_of, decide_eq_true_eq]
      exact List.mem_map_of_mem hkey
  · obtain ⟨word, -, halias⟩ := hmixed.aliased
    exact haliases _ halias

end Keys

/-! ### One element among others -/

variable {names : NameService} {document : Json} {entry members object : Members}
  {items : List Json} {index : Nat} {e : Entry}

/-- A document for a directory in which everything else than one element is in
    order. -/
structure InOrderElsewhere (names : NameService) (document : Json) (members : Members)
    (items : List Json) (index : Nat) (entry : Members) : Prop where
  holds : Holds document members items
  listFlags : ListFlagsInOrder members
  element : items[index]? = some (.object entry)
  others : ∀ other value, other ≠ index → items[other]? = some value →
    ∃ e, decodeEntry .directory names value = .ok e

/-- Where there is no other element, nothing else can be wrong. -/
theorem inOrderElsewhere_single (entry : Members) :
    InOrderElsewhere names (.object [("acl", .array [.object entry])])
      [("acl", .array [.object entry])] [.object entry] 0 entry where
  holds := ⟨rfl, rfl⟩
  listFlags := .inl rfl
  element := rfl
  others := by
    intro other value hne hvalue
    obtain ⟨hlength, -⟩ := List.getElem?_eq_some_iff.1 hvalue
    rw [List.length_singleton] at hlength
    omega

/-- With the element in order as well, the document is read. -/
theorem exists_decode (helsewhere : InOrderElsewhere names document members items index entry)
    (hok : decodeEntry .directory names (.object entry) = .ok e) :
    ∃ list, (decode .directory names document).result = .ok list ∧
      list.entries[index]? = some e := by
  have hclear : documentIssues .directory names members items = [] := by
    refine documentIssues_eq_nil_iff.2 ⟨fun other value hvalue => ?_, helsewhere.listFlags⟩
    rw [elementIssues_eq_nil_iff]
    by_cases hother : other = index
    · subst hother
      rw [helsewhere.element] at hvalue
      cases hvalue
      exact ⟨e, hok⟩
    · exact helsewhere.others other value hother hvalue
  have hread : (decode .directory names document).result = _ :=
    result_decode_of_holds helsewhere.holds
  rw [if_pos hclear] at hread
  refine ⟨_, hread, ?_⟩
  obtain ⟨-, -, -, hentries⟩ := (decode_eq_ok_iff helsewhere.holds).1 hread
  obtain ⟨hindex, helement⟩ := List.getElem?_eq_some_iff.1 helsewhere.element
  have hlength := hentries.length_eq
  have hentry := hentries.get hindex (hlength ▸ hindex)
  rw [List.get_eq_getElem, helement, hok] at hentry
  exact List.getElem?_eq_some_iff.2 ⟨hlength ▸ hindex, (Except.ok.inj hentry).symm⟩

/-- Issues with one element only are the issues of them all. -/
theorem flatten_mapIdx_eq {α β : Type} {f : Nat → α → List β} {as : List α} {index : Nat} {a : α}
    (ha : as[index]? = some a)
    (hothers : ∀ other b, other ≠ index → as[other]? = some b → f other b = []) :
    (as.mapIdx f).flatten = f index a := by
  induction as generalizing index f with
  | nil => nomatch ha
  | cons first rest ih =>
    rw [List.mapIdx_cons, List.flatten_cons]
    cases index with
    | zero =>
      cases ha
      have hrest : (rest.mapIdx fun i => f (i + 1)).flatten = [] := by
        rw [List.flatten_eq_nil_iff]
        intro bs hmem
        obtain ⟨other, hother, rfl⟩ := List.mem_mapIdx.1 hmem
        exact hothers (other + 1) _ (by omega) (List.getElem?_eq_getElem hother)
      rw [hrest, List.append_nil]
    | succ index =>
      rw [hothers 0 first (by omega) rfl, List.nil_append]
      refine ih ha fun other b hne hb => ?_
      exact hothers (other + 1) b (by omega) hb

theorem decode_of_complaint {complaint : Complaint}
    (helsewhere : InOrderElsewhere names document members items index entry)
    (hbad : decodeEntry .directory names (.object entry) = .error [complaint]) :
    (decode .directory names document).result = .error (.invalid [complaint.issue index]) := by
  have hissues : documentIssues .directory names members items = [complaint.issue index] := by
    rw [documentIssues, listFlagIssues_eq_nil_iff.2 helsewhere.listFlags, List.append_nil,
      flatten_mapIdx_eq helsewhere.element fun other value hother hvalue =>
        elementIssues_eq_nil_iff.2 (helsewhere.others other value hother hvalue),
      elementIssues, hbad]
    rfl
  rw [result_decode_of_holds helsewhere.holds, hissues, if_neg (List.cons_ne_nil _ _)]

/-! ### The two sets of an element -/

/-- What comes of a document in which only this object may not be in order: the
    object's bits in the entry at its place, or one issue under the object's member. -/
structure ReadsSet {κ : Type} [Named κ] (k : Keys κ) (object : Members)
    (reading : Except Fault AccessList) (index : Nat) (given : Entry → Flags κ) : Prop where
  ok_iff : (∃ list, reading = .ok list) ↔ ∃ bits, k.Accepts object bits
  bits : ∀ bits, k.Accepts object bits →
    ∃ list e, reading = .ok list ∧ list.entries[index]? = some e ∧ given e = bits
  refused : (¬ ∃ bits, k.Accepts object bits) →
    ∃ issue, reading = .error (.invalid [issue]) ∧ issue.field = memberField index k.member

/-- It is enough that the element is read with the bits of the object, and that a
    complaint about the object is the only one. -/
theorem readsSet_of_element {κ : Type} [Named κ] [SingleBits κ] [DecidableEq κ] {k : Keys κ}
    {given : Entry → Flags κ} (hk : k.Legible)
    (helsewhere : InOrderElsewhere names document members items index entry)
    (hfound : Json.find? entry k.member = some (.object object))
    (hread : ∀ bits, decodeSet k entry = .ok bits →
      ∃ e, decodeEntry .directory names (.object entry) = .ok e ∧ given e = bits)
    (hwrong : ∀ complaint, decodeSet k entry = .error complaint →
      decodeEntry .directory names (.object entry) = .error [complaint]) :
    ReadsSet k object (decode .directory names document).result index given := by
  have hbits : ∀ bits, k.Accepts object bits →
      ∃ list e, (decode .directory names document).result = .ok list ∧
        list.entries[index]? = some e ∧ given e = bits := by
    intro bits haccepts
    obtain ⟨e, hok, hgiven⟩ := hread bits ((Keys.decodeSet_eq_ok_iff hk hfound).2 haccepts)
    obtain ⟨list, hlist, hentry⟩ := exists_decode helsewhere hok
    exact ⟨list, e, hlist, hentry, hgiven⟩
  have hrefused : (¬ ∃ bits, k.Accepts object bits) →
      ∃ issue, (decode .directory names document).result = .error (.invalid [issue]) ∧
        issue.field = memberField index k.member := by
    intro hnone
    cases hset : decodeSet k entry with
    | ok bits => exact absurd ⟨bits, (Keys.decodeSet_eq_ok_iff hk hfound).1 hset⟩ hnone
    | error complaint =>
      refine ⟨_, decode_of_complaint helsewhere (hwrong complaint hset), ?_⟩
      rw [field_issue, blames_decodeSet k entry complaint hset, Option.map_some, Option.getD_some]
  refine ⟨⟨?_, ?_⟩, hbits, hrefused⟩
  · rintro ⟨list, hlist⟩
    by_contra hnone
    obtain ⟨issue, herror, -⟩ := hrefused hnone
    rw [hlist] at herror
    nomatch herror
  · rintro ⟨bits, haccepts⟩
    obtain ⟨list, -, hlist, -⟩ := hbits bits haccepts
    exact ⟨list, hlist⟩

/-- The flag that the tag of a group adds has no key. -/
theorem withGroup_inter_shown (isGroup : Bool) {flags : EntryFlags}
    (hflags : flags ∩ EntryFlags.shown = flags) :
    withGroup isGroup flags ∩ EntryFlags.shown = flags := by
  have hgroup : EntryFlags.identifierGroup ∩ EntryFlags.shown = Flags.none := by decide
  cases isGroup with
  | false => exact hflags
  | true =>
    apply Flags.ext_word
    have hword := congrArg Flags.word hflags
    have hnone := congrArg Flags.word hgroup
    simp only [withGroup, if_true, Flags.word_inter, Flags.word_union,
      BitVec.and_or_distrib_right] at hword hnone ⊢
    rw [hword, hnone]
    exact BitVec.or_zero

/-- Where all members of an element are read, nothing keeps a directory from having
    the entry. -/
theorem exists_decodeEntry {type : EntryType} {flags : EntryFlags} {mask : Rights}
    {principal : Principal} {isGroup : Bool}
    (hread : MembersRead names entry type flags mask principal isGroup) (hvalid : principal.Valid) :
    ∃ e, decodeEntry .directory names (.object entry) = .ok e ∧
      e.flags = (withGroup isGroup flags).settle principal ∧
      e.mask = Rights.givenBy .directory mask := by
  obtain ⟨e, hbuild⟩ : ∃ e,
      Entry.build .directory type (withGroup isGroup flags) mask principal = .ok e := by
    rw [Entry.build, if_neg (by simp), dif_pos hvalid]
    exact ⟨_, rfl⟩
  obtain ⟨-, -, -, hflags, hmask, -⟩ := Entry.build_eq_ok_iff.1 hbuild
  exact ⟨e, decodeEntry_eq_ok_iff.2 ⟨entry, type, flags, mask, principal, isGroup, rfl, hread,
    hbuild⟩, hflags, hmask⟩

/-- **What is read for a set.**  In a document for a directory with all the rest in
    order, an object for permissions or flags is read exactly if it has one of the
    two forms or an alias among other members, and the entry has its bits.  Any other
    object raises one issue, and there is no list. -/
theorem decode_reads_sets (names : NameService) (document : Json) (members : Members)
    (items : List Json) (index : Nat) (entry : Members)
    (helsewhere : InOrderElsewhere names document members items index entry)
    (type : EntryType) (htype : decodeType entry = .ok type) (principal : Principal)
    (isGroup : Bool) (hprincipal : decodePrincipal names entry = .ok (principal, isGroup))
    (hvalid : principal.Valid) (object : Members) :
    (∀ flags, decodeSet Keys.flags entry = .ok flags →
      Json.find? entry "perms" = some (.object object) →
        ReadsSet Keys.rights object (decode .directory names document).result index Entry.mask) ∧
    (∀ mask, decodeSet Keys.rights entry = .ok mask →
      Json.find? entry "flags" = some (.object object) →
        ReadsSet Keys.flags object (decode .directory names document).result index
          Entry.shownFlags) := by
  -- One complaint alone is all that there is to say about the element.
  have hcomplaint : ∀ complaint, memberComplaints names entry = [complaint] →
      decodeEntry .directory names (.object entry) = .error [complaint] := by
    intro complaint halone
    rw [← halone]
    exact decodeMembers_of_complaints (halone ▸ List.cons_ne_nil _ _)
  constructor
  · intro flags hflags hfound
    refine readsSet_of_element Keys.legible_rights helsewhere hfound (fun mask hmask => ?_) ?_
    · obtain ⟨e, hok, -, hgiven⟩ := exists_decodeEntry ⟨htype, hmask, hflags, hprincipal⟩ hvalid
      have haccepts := (Keys.decodeSet_eq_ok_iff Keys.legible_rights hfound).1 hmask
      have hall : mask ∩ Rights.full = mask :=
        Keys.inter_shown_of_accepts (k := Keys.rights) (by decide) haccepts
      exact ⟨e, hok, hgiven.trans (Rights.givenBy_eq_self hall nofun)⟩
    · intro complaint hwrong
      apply hcomplaint
      simp [memberComplaints, complaint?, htype, hwrong, hflags, hprincipal]
  · intro mask hmask hfound
    refine readsSet_of_element Keys.legible_flags helsewhere hfound (fun flags hflags => ?_) ?_
    · obtain ⟨e, hok, hgiven, -⟩ := exists_decodeEntry ⟨htype, hmask, hflags, hprincipal⟩ hvalid
      have haccepts := (Keys.decodeSet_eq_ok_iff Keys.legible_flags hfound).1 hflags
      have hshown : flags ∩ EntryFlags.shown = flags :=
        Keys.inter_shown_of_accepts (k := Keys.flags) (by decide) haccepts
      refine ⟨e, hok, ?_⟩
      rw [Entry.shownFlags, hgiven, EntryFlags.settle_inter_shown,
        withGroup_inter_shown isGroup hshown]
    · intro complaint hwrong
      apply hcomplaint
      simp [memberComplaints, complaint?, htype, hwrong, hmask, hprincipal]

/-- One right of two keys, for a user. -/
theorem decode_reads_sets_read_data :
    let object : Members := [("EXECUTE", .bool false), ("READ_DATA", .bool true)]
    let entry : Members := [("flags", .object [("BASIC", .string "INHERIT")]),
      ("perms", .object object), ("tag", .string "USER"), ("type", .string "ALLOW"),
      ("who", .string "7")]
    let members : Members := [("acl", .array [.object entry])]
    InOrderElsewhere Names.empty.service (.object members) members [.object entry] 0 entry ∧
      ∃ list e, (decode .directory Names.empty.service (.object members)).result = .ok list ∧
        list.entries[0]? = some e ∧ e.mask = Flags.of [.readData] := by
  intro object entry members
  have helsewhere : InOrderElsewhere Names.empty.service (.object members) members
      [.object entry] 0 entry := inOrderElsewhere_single entry
  have hmask : decodeSet Keys.rights entry = .ok (Flags.of [.readData]) := rfl
  have haccepts := (Keys.decodeSet_eq_ok_iff Keys.legible_rights rfl).1 hmask
  have hreads := (decode_reads_sets Names.empty.service (.object members) members
    [.object entry] 0 entry helsewhere .allow rfl (.named 7) false rfl (by decide) object).1
    EntryFlags.inheritable rfl rfl
  exact ⟨helsewhere, hreads.bits _ haccepts⟩

/-- An alias next to a key that is not known: read as the alias alone. -/
theorem decode_reads_mixed :
    let object : Members := [("BASIC", .string "READ"), ("BOGUS", .bool true)]
    let entry : Members := [("flags", .object []), ("perms", .object object),
      ("tag", .string "owner@"), ("type", .string "ALLOW")]
    let members : Members := [("acl", .array [.object entry])]
    InOrderElsewhere Names.empty.service (.object members) members [.object entry] 0 entry ∧
      (∀ bits, ¬ Keys.rights.Documented object bits) ∧
      ∃ list e, (decode .directory Names.empty.service (.object members)).result = .ok list ∧
        list.entries[0]? = some e ∧ e.mask = Rights.read ∪ Flags.of [.execute] := by
  intro object entry members
  have helsewhere : InOrderElsewhere Names.empty.service (.object members) members
      [.object entry] 0 entry := inOrderElsewhere_single entry
  have hneither : ∀ bits, ¬ Keys.rights.Documented object bits := by
    intro bits hform
    have hbogus : ("BOGUS", .bool true) ∈ object := List.mem_cons_of_mem _ List.mem_cons_self
    have hunknown : "BOGUS" ∉ Keys.rights.keys.map (·.2) := by decide
    generalize hobject : object = given at hform
    cases hform with
    | aliased halias => simp [object] at hobject
    | spelled hknown hset =>
      obtain ⟨⟨name, hname⟩, -⟩ := hknown _ (hobject ▸ hbogus)
      exact hunknown (List.mem_map_of_mem hname)
  have hread : MembersRead Names.empty.service entry .allow Flags.none
      (Rights.read ∪ Flags.of [.execute]) .owner false := ⟨rfl, rfl, rfl, rfl⟩
  obtain ⟨e, hok, -, hmask⟩ := exists_decodeEntry hread trivial
  obtain ⟨list, hlist, hentry⟩ := exists_decode helsewhere hok
  exact ⟨helsewhere, hneither, list, e, hlist, hentry, hmask.trans (by decide)⟩

end AccessControl.Document
