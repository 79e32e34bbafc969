/-
  AccessControl/Proofs/Document/RoundTrip.lean
  ============================================
  **A written document is read as the list that it was written from.**

  The tag and the id of an entry tell its principal, so no name is ever looked
  up, neither the one that was written nor any other; and of the flags that a
  document does not show, the group bit comes with the tag and the others with
  the principal (`settle_withGroup`).  So each element is read as its entry
  (`decodeEntry_encodeEntry`), and only the nameless bits of the list's own flags
  are lost.  The text of a document is read as the document (`parse_pretty_encode`),
  since all that documents are made of is writable.
-/
import AccessControl.Proofs.Document.Reading
import AccessControl.Proofs.Document.Vocabulary
import AccessControl.Proofs.Json.RoundTrip

namespace AccessControl.Document

variable {kind : ObjectKind} {style : Style} {read : NameService} {entry : Members} {e : Entry}

/-! ### The object of an entry -/

theorem whoMember_eq (style : Style) (names : NameService) (e : Entry) :
    whoMember style names e = [] ∨ ∃ who, whoMember style names e = [("who", .string who)] := by
  unfold whoMember
  split
  · split
    · exact .inl rfl
    · exact .inr ⟨_, rfl⟩
  · exact .inl rfl

/-- The members of the object of an entry, as they are put in. -/
def entryMembers (style : Style) (names : NameService) (e : Entry) : Members :=
  [("tag", .string (tagOf e)), ("id", .number (.integer e.principal.id.toInt))] ++
    whoMember style names e ++
    [("perms", encodeSet Keys.rights (style.has .verbose) e.mask),
      ("flags", encodeSet Keys.flags (style.has .verbose) e.shownFlags),
      ("type", .string (typeWord e.type))]

theorem encodeEntry_eq (style : Style) (names : NameService) (e : Entry) :
    encodeEntry style names e = .object (Json.sorted (entryMembers style names e)) := rfl

theorem distinct_entryMembers (style : Style) (names : NameService) (e : Entry) :
    Json.Distinct (entryMembers style names e) := by
  unfold Json.Distinct entryMembers
  rcases whoMember_eq style names e with hwho | ⟨who, hwho⟩
  · rw [hwho]
    show ["tag", "id", "perms", "flags", "type"].Nodup
    decide
  · rw [hwho]
    show ["tag", "id", "who", "perms", "flags", "type"].Nodup
    decide

/-- What is found in the object of an entry. -/
structure Found (entry : Members) (style : Style) (e : Entry) : Prop where
  tag : Json.find? entry "tag" = some (.string (tagOf e))
  id : Json.find? entry "id" = some (.number (.integer e.principal.id.toInt))
  perms : Json.find? entry "perms" =
    some (encodeSet Keys.rights (style.has .verbose) e.mask)
  flags : Json.find? entry "flags" =
    some (encodeSet Keys.flags (style.has .verbose) e.shownFlags)
  type : Json.find? entry "type" = some (.string (typeWord e.type))

theorem found_entryMembers (style : Style) (names : NameService) (e : Entry) :
    Found (Json.sorted (entryMembers style names e)) style e := by
  have hfind : ∀ key value, (key, value) ∈ entryMembers style names e →
      Json.find? (Json.sorted (entryMembers style names e)) key = some value := by
    intro key value hmem
    exact (Json.find?_sorted_eq_some_iff (distinct_entryMembers style names e)).2 hmem
  constructor <;> exact hfind _ _ (by simp [entryMembers])

/-! ### Members of an entry -/

theorem typeOfWord?_typeWord (type : EntryType) : typeOfWord? (typeWord type) = some type := by
  cases type <;> decide

theorem decodeType_found (hfound : Found entry style e) : decodeType entry = .ok e.type := by
  simp only [decodeType, hfound.type, Json.string?, typeOfWord?_typeWord]

theorem isGroup_of_wellKnown {tag : String} (htag : e.principal.tag? = some tag) :
    e.isGroup = decide (e.principal = .group) := by
  rw [Entry.isGroup, ← e.flags_settled, EntryFlags.has_settle]
  cases hprincipal : e.principal with
  | owner | group | everyone =>
    simp [EntryFlags.kept, EntryFlags.forced, EntryFlags.shown, EntryFlag.shown,
      EntryFlags.identifierGroup, Principal.marker]
  | named id =>
    rw [hprincipal] at htag
    cases htag

theorem int64?_natCast {n : Nat} (hn : n ≤ Principal.maxId) :
    (Json.number (.integer n)).int64? = some (n : Int) := by
  have hrange : -0x8000000000000000 ≤ (n : Int) ∧ (n : Int) < 0x8000000000000000 := by
    unfold Principal.maxId at hn
    omega
  simp only [Json.int64?, if_pos hrange]

theorem decodeNamed_found (read : NameService) (hfound : Found entry style e) {id : Int32}
    (hprincipal : e.principal = .named id) (tag : String) (isGroup : Bool) :
    decodeNamed read tag isGroup entry = .ok id := by
  have hid := hfound.id
  rw [hprincipal, Principal.id] at hid
  have hvalid := e.principal_valid
  rw [hprincipal] at hvalid
  rcases Principal.exists_ofNat_of_valid hvalid with ⟨n, hn, rfl⟩
  rw [Principal.toInt_ofNat hn] at hid
  have hofInt : Int32.ofInt (n : Int) = Int32.ofNat n := by
    rw [← Principal.toInt_ofNat hn, Int32.ofInt_toInt]
  unfold decodeNamed
  split
  next value hvalue =>
    rw [hid] at hvalue
    cases hvalue
    split
    next hnone =>
      rw [int64?_natCast hn] at hnone
      nomatch hnone
    next found hsome =>
      rw [int64?_natCast hn] at hsome
      cases hsome
      split
      next => rw [hofInt]
      next hrange => exact absurd ⟨Int.natCast_nonneg n, Int.ofNat_le.2 hn⟩ hrange
  next hnone =>
    rw [hid] at hnone
    nomatch hnone

theorem decodePrincipal_found (hfound : Found entry style e) :
    decodePrincipal read entry = .ok (e.principal, e.isGroup) := by
  unfold decodePrincipal
  simp only [hfound.tag, Json.string?, tagOf]
  cases hprincipal : e.principal with
  | owner | group | everyone =>
    have hgroup : e.isGroup = decide (e.principal = .group) :=
      isGroup_of_wellKnown (by rw [hprincipal]; rfl)
    rw [hgroup, hprincipal]
    rfl
  | named id =>
    have hid := decodeNamed_found read hfound hprincipal
    cases hgroup : e.isGroup <;> simp [Principal.tag?, hid, Except.map]

/-! ### Entries -/

/-- What a document says about the flags of an entry: those that are shown, and
    the group bit by the tag. -/
theorem has_withGroup (e : Entry) (name : EntryFlag) :
    (withGroup e.isGroup e.shownFlags).has name =
      (e.flags.has name && (EntryFlags.shown ∪ EntryFlags.identifierGroup).has name) := by
  unfold withGroup Entry.shownFlags
  by_cases hname : name = .identifierGroup
  · subst hname
    cases hgroup : e.isGroup <;> rw [Entry.isGroup] at hgroup <;>
      simp [EntryFlags.identifierGroup, hgroup]
  · cases e.isGroup <;> simp [EntryFlags.identifierGroup, hname]

/-- The other flags are the same for all entries of a principal. -/
theorem settle_withGroup (e : Entry) :
    (withGroup e.isGroup e.shownFlags).settle e.principal = e.flags := by
  have hkept : withGroup e.isGroup e.shownFlags ∩ EntryFlags.kept e.principal =
      e.flags ∩ EntryFlags.kept e.principal := by
    refine Flags.eq_of_has (Flags.inter_inter_all (EntryFlags.kept_inter_all _))
      (Flags.inter_inter_all (EntryFlags.kept_inter_all _)) ?_
    intro name
    rw [Flags.has_inter, Flags.has_inter, has_withGroup, Bool.and_assoc]
    cases e.principal with
    | named id => exact congrArg (e.flags.has name && ·) (Bool.and_self _)
    | owner | group | everyone =>
      show (e.flags.has name && (_ && EntryFlags.shown.has name)) =
        (e.flags.has name && EntryFlags.shown.has name)
      rw [Flags.has_union]
      cases EntryFlags.shown.has name <;> simp
  rw [EntryFlags.settle_congr hkept]
  exact e.flags_settled

/-- An element is read as the entry that it was written from, for every kind of
    object that can hold the entry. -/
theorem decodeEntry_encodeEntry (style : Style) (written read : NameService)
    (hfits : e.fits kind) :
    decodeEntry kind read (encodeEntry style written e) = .ok e := by
  have hfound := found_entryMembers style written e
  have hmask : decodeSet Keys.rights (Json.sorted (entryMembers style written e)) = .ok e.mask :=
    Keys.decodeSet_encodeSet Keys.legible_rights e.mask_defined hfound.perms
  have hflags : decodeSet Keys.flags (Json.sorted (entryMembers style written e)) =
      .ok e.shownFlags :=
    Keys.decodeSet_encodeSet Keys.legible_flags (Flags.inter_inter_self _ _) hfound.flags
  exact decodeEntry_eq_ok_iff.2 ⟨_, e.type, e.shownFlags, e.mask, e.principal, e.isGroup,
    encodeEntry_eq style written e,
    ⟨decodeType_found hfound, hmask, hflags, decodePrincipal_found hfound⟩,
    Entry.build_of_settle hfits (settle_withGroup e)⟩

/-! ### The flags of the list -/

variable {members : Members} {flags : ListFlags}

theorem decodeListFlagKeys_inter_all (flagMembers : Members) :
    (decodeListFlagKeys flagMembers).1 ∩ Flags.all = (decodeListFlagKeys flagMembers).1 := by
  induction flagMembers with
  | nil => exact Flags.of_inter_all []
  | cons member rest ih =>
    cases hsaid : saysListFlag member with
    | false =>
      rw [decodeListFlagKeys_wrong hsaid]
      exact ih
    | true =>
      rcases saysListFlag_iff.1 hsaid with ⟨⟨flag, hkey⟩, set, hvalue⟩
      obtain rfl : (listFlagKey flag, .bool set) = member := Prod.ext hkey hvalue.symm
      rw [decodeListFlagKeys_known]
      cases set with
      | false => exact Flags.union_inter_all (Flags.of_inter_all []) ih
      | true => exact Flags.union_inter_all (Flags.of_inter_all _) ih

/-- The flags of a list key by key. -/
def listFlagMembers (flags : ListFlags) : Members :=
  ListFlag.all.map fun flag => (listFlagKey flag, .bool (flags.has flag))

theorem mem_sorted_listFlagMembers (flags : ListFlags) (m : String × Json) :
    m ∈ Json.sorted (listFlagMembers flags) ↔
      ∃ flag, (listFlagKey flag, Json.bool (flags.has flag)) = m := by
  have hdistinct : Json.Distinct (listFlagMembers flags) := by
    show (ListFlag.all.map listFlagKey).Nodup
    decide
  rw [(Json.sorted_perm hdistinct).mem_iff, listFlagMembers, List.mem_map]
  have hall : ∀ flag : ListFlag, flag ∈ ListFlag.all := SingleBits.mem_all
  simp [hall]

/-- The flags that have a name are read back, and no others. -/
theorem decodeListFlags_encodeListFlags
    (hfound : Json.find? members "nfs41_flags" = some (encodeListFlags flags)) :
    ListFlagsInOrder members ∧ (decodeListFlags members).1 = flags ∩ Flags.all := by
  have hobject : encodeListFlags flags = .object (Json.sorted (listFlagMembers flags)) := rfl
  rw [hobject] at hfound
  constructor
  · refine .inr ⟨_, hfound, ?_⟩
    intro key value hmem
    rcases (mem_sorted_listFlagMembers flags _).1 hmem with ⟨flag, hflag⟩
    cases hflag
    exact ⟨⟨flag, rfl⟩, _, rfl⟩
  · have hnamed : (decodeListFlags members).1 ∩ Flags.all = (decodeListFlags members).1 := by
      rw [decodeListFlags, hfound]
      exact decodeListFlagKeys_inter_all _
    refine Flags.eq_of_has hnamed (Flags.inter_inter_self _ _) ?_
    intro flag
    rw [Bool.eq_iff_iff, has_decodeListFlags, Flags.has_inter, Flags.has_all, Bool.and_true]
    constructor
    · rintro ⟨flagMembers, hfound', hset⟩
      rw [hfound] at hfound'
      cases hfound'
      rcases (mem_sorted_listFlagMembers flags _).1 hset with ⟨other, hother⟩
      simp only [Prod.mk.injEq, Json.bool.injEq] at hother
      rcases hother with ⟨hkey, htrue⟩
      have hsame : some flag = some other := by
        rw [← listFlagOfKey?_listFlagKey flag, ← hkey, listFlagOfKey?_listFlagKey]
      cases hsame
      exact htrue
    · intro hset
      refine ⟨_, hfound, (mem_sorted_listFlagMembers flags _).2 ⟨flag, ?_⟩⟩
      rw [hset]

/-! ### Documents -/

/-- The members of the object of a list. -/
def documentMembers (style : Style) (names : NameService) (list : AccessList) : Members :=
  [("acl", .array (list.entries.map (encodeEntry style names))),
    ("nfs41_flags", encodeListFlags list.flags)]

theorem value_encode (style : Style) (names : NameService) (list : AccessList) :
    (encode style names list).value = .object (Json.sorted (documentMembers style names list)) := rfl

theorem find?_document {style : Style} {names : NameService} {list : AccessList} {key : String}
    {value : Json} (hmem : (key, value) ∈ documentMembers style names list) :
    Json.find? (Json.sorted (documentMembers style names list)) key = some value := by
  have hdistinct : Json.Distinct (documentMembers style names list) := by
    show ["acl", "nfs41_flags"].Nodup
    decide
  exact (Json.find?_sorted_eq_some_iff hdistinct).2 hmem

/-- A document is read as the list that it was written from, without the nameless
    bits of the list's own flags. -/
theorem decode_encode_eq (list : AccessList) (style : Style) (written read : NameService) :
    (decode list.kind read (encode style written list).value).result =
      .ok (list.setFlags (list.flags ∩ Flags.all)) := by
  have hholds : Holds (encode style written list).value
      (Json.sorted (documentMembers style written list))
      (list.entries.map (encodeEntry style written)) :=
    ⟨value_encode style written list, find?_document (by simp [documentMembers])⟩
  have hfound : Json.find? (Json.sorted (documentMembers style written list)) "nfs41_flags" =
      some (encodeListFlags list.flags) := find?_document (by simp [documentMembers])
  rcases decodeListFlags_encodeListFlags hfound with ⟨horder, hflags⟩
  rw [decode_eq_ok_iff hholds]
  refine ⟨horder, rfl, hflags.symm, ?_⟩
  -- The names that are read with are asked for nothing: every id is found.
  rw [AccessList.entries_setFlags, List.forall₂_map_left_iff, List.forall₂_same]
  intro e hmem
  exact decodeEntry_encodeEntry style written read (list.all_fit e hmem)

/-! ### Text -/

section

open Json

variable {depth : Nat}

theorem writable_ofMembers {members : Members} (hmembers : ∀ m ∈ members, Writable depth m.2) :
    Writable (depth + 1) (ofMembers members) :=
  .object (inOrder_sorted members) fun m hmem => hmembers m (mem_of_mem_sorted hmem)

theorem writable_encodeSet {κ : Type} [Named κ] (k : Keys κ) (verbose : Bool) (s : Flags κ) :
    Writable (depth + 1) (encodeSet k verbose s) := by
  have hspelled : Writable (depth + 1) (ofMembers (k.spelled s)) := by
    apply writable_ofMembers
    intro m hmem
    rcases List.mem_map.1 hmem with ⟨pair, -, rfl⟩
    exact .bool _
  unfold encodeSet
  dsimp only
  split
  · exact hspelled
  · split
    · apply writable_ofMembers
      intro m hmem
      rw [List.mem_singleton.1 hmem]
      exact .string _
    · exact hspelled

theorem writable_encodeEntry (style : Style) (names : NameService) (e : Entry) :
    Writable (depth + 2) (encodeEntry style names e) := by
  have hid : e.principal.id.toInt.natAbs < 2 ^ 53 := by
    have hlow := e.principal.id.le_toInt
    have hhigh := e.principal.id.toInt_lt
    omega
  have hwho : ∀ m ∈ whoMember style names e, Writable (depth + 1) m.2 := by
    intro m hmem
    rcases whoMember_eq style names e with hnone | ⟨who, hsome⟩
    · rw [hnone] at hmem
      nomatch hmem
    · rw [hsome] at hmem
      rw [List.mem_singleton.1 hmem]
      exact .string _
  apply writable_ofMembers
  intro m hmem
  simp only [List.cons_append, List.nil_append, List.mem_cons, List.mem_append,
    List.not_mem_nil, or_false] at hmem
  rcases hmem with rfl | rfl | hmem | rfl | rfl | rfl
  · exact .string _
  · exact .integer hid
  · exact hwho m hmem
  · exact writable_encodeSet _ _ _
  · exact writable_encodeSet _ _ _
  · exact .string _

theorem writable_encodeListFlags (flags : ListFlags) :
    Writable (depth + 1) (encodeListFlags flags) := by
  apply writable_ofMembers
  intro m hmem
  rcases List.mem_map.1 hmem with ⟨flag, -, rfl⟩
  exact .bool _

theorem writable_encode (style : Style) (names : NameService) (list : AccessList) :
    Writable (depth + 4) (encode style names list).value := by
  apply writable_ofMembers
  intro m hmem
  simp only [List.mem_cons, List.not_mem_nil, or_false] at hmem
  rcases hmem with rfl | rfl
  · apply Writable.array
    intro item hitem
    rcases List.mem_map.1 hitem with ⟨e, -, rfl⟩
    exact writable_encodeEntry style names e
  · exact writable_encodeListFlags _

/-- The text of a document is read as the document. -/
theorem parse_pretty_encode (style : Style) (names : NameService) (list : AccessList) :
    parse ((encode style names list).value.pretty 0) = .ok (encode style names list).value :=
  parse_pretty (writable_encode style names list)

end

theorem decodeTextBy_encodeTextBy {print : Json → String} {parse : String → Except Nat Json}
    {list : AccessList} {written : NameService}
    (hparse : parse (print (encode style written list).value) =
      .ok (encode style written list).value) :
    decodeTextBy parse kind read (encodeTextBy print style written list).value =
      decode kind read (encode style written list).value := by
  show decodeTextBy parse kind read (print (encode style written list).value) = _
  rw [decodeTextBy, hparse]

/-- **Documents do not depend on names.**  Whatever names a list is written with and
    read with, and however it is written, as a value or as text, the same entries
    in the same order come back for the same kind of object, and of the list's own
    flags those that have a name.  The text may be that of any printer and read by any
    parser that gives the document back. -/
theorem decode_encoded (list : AccessList) (style : Style) (written read : NameService) :
    ∃ back : AccessList, back.kind = list.kind ∧ back.entries = list.entries ∧
      back.flags.word = list.flags.word &&& 0x7 ∧
      (decode list.kind read (encode style written list).value).result = .ok back ∧
      (decodeText list.kind read (encodeText style written list).value).result = .ok back ∧
      ∀ (print : Json → String) (parse : String → Except Nat Json),
        parse (print (encode style written list).value) = .ok (encode style written list).value →
        (decodeTextBy parse list.kind read (encodeTextBy print style written list).value).result =
          .ok back := by
  have hvalue := decode_encode_eq list style written read
  refine ⟨list.setFlags (list.flags ∩ Flags.all), rfl, rfl, rfl, hvalue, ?_, ?_⟩
  · have hparse := parse_pretty_encode style written list
    rw [decodeText, encodeText, decodeTextBy_encodeTextBy hparse]
    exact hvalue
  · intro print parse hparse
    rw [decodeTextBy_encodeTextBy hparse]
    exact hvalue

/-- A directory's list is written with the names of one service and read with those of
    another, in which the user's name is that of somebody else.  The printer puts a byte
    order mark in front of the text, and the parser takes it off. -/
theorem decode_encoded_marked :
    let user : Entry := ⟨.allow, ⟨0x3⟩, Rights.read, .named 7, by decide, by decide, by decide⟩
    let list : AccessList := ⟨.directory, ⟨0x80000005⟩, [user], by decide⟩
    let written := (Names.empty.withUser "ann" 7).service
    let read := (Names.empty.withUser "ann" 8).service
    let print (value : Json) := String.ofList ('\uFEFF' :: (value.pretty 0).toList)
    let parse (text : String) := Json.parse (String.ofList text.toList.tail)
    ∃ back : AccessList, back.entries = [user] ∧ back.flags = ⟨5⟩ ∧
      (decodeTextBy parse .directory read (encodeTextBy print ⟨0⟩ written list).value).result =
        .ok back := by
  intro user list written read print parse
  have hmarked (value : Json) : parse (print value) = Json.parse (value.pretty 0) := by
    simp only [parse, print, String.toList_ofList, List.tail_cons, String.ofList_toList]
  have hparse := (hmarked _).trans (parse_pretty_encode ⟨0⟩ written list)
  obtain ⟨back, -, hentries, hflags, -, -, htext⟩ := decode_encoded list ⟨0⟩ written read
  exact ⟨back, hentries, Flags.ext_word (hflags.trans (by decide)), htext print parse hparse⟩

end AccessControl.Document
