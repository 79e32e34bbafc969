/-
  AccessControl/Proofs/KindSwitch.lean
  ====================================
  **The same input read for a file and for a directory.**

  In all three written forms an entry is built at the very end, from parts that do
  not depend on the kind of object (`Switches.of_build`, `of_asked`, `of_part`).
  So an item is read for a file exactly if it is read for a directory as an entry
  without flags that only directories know, and then the file holds this entry
  without the right to remove children (`Switches`).  What is true of items is true of runs of them
  (`forall₂_file_iff`), and so of payloads, specifications and documents
  (`readings_switch`).
-/
import AccessControl.Proofs.Document.Reading
import AccessControl.Proofs.Listing.Reading
import AccessControl.Proofs.Wire.Conversion

namespace AccessControl

/-! ### Entries -/

/-- The entry has no flag that only directories know. -/
def Entry.KnownToFiles (e : Entry) : Prop := e.flags.meets EntryFlags.directoryOnly = false

/-- Building for a file is building for a directory, and then taking away the right
    to remove children. -/
theorem Entry.build_file_eq_ok_iff {type : EntryType} {flags : EntryFlags} {mask : Rights}
    {p : Principal} {held : Entry} : build .file type flags mask p = .ok held ↔
      ∃ e, build .directory type flags mask p = .ok e ∧ e.KnownToFiles ∧
        e.heldBy .file = held := by
  constructor
  · intro hbuild
    obtain ⟨hflags, hvalid, htype, hsettled, hmask, hp⟩ := build_eq_ok_iff.1 hbuild
    refine ⟨⟨type, flags.settle p, mask.givenBy .directory, p,
      Rights.givenBy_inter_full .directory mask, EntryFlags.settle_settle p flags, hvalid⟩,
      build_eq_ok_iff.2 ⟨nofun, hvalid, rfl, rfl, rfl, rfl⟩, ?_, ?_⟩
    · exact (EntryFlags.meets_directoryOnly_settle p flags).trans (hflags rfl)
    · apply ext_fields htype.symm hsettled.symm _ hp.symm
      rw [mask_heldBy, hmask, Rights.givenBy_file_givenBy]
  · rintro ⟨e, hbuild, hknown, rfl⟩
    obtain ⟨-, hvalid, htype, hsettled, hmask, hp⟩ := build_eq_ok_iff.1 hbuild
    rw [KnownToFiles, hsettled, EntryFlags.meets_directoryOnly_settle] at hknown
    refine build_eq_ok_iff.2 ⟨fun _ => hknown, hvalid, htype, hsettled, ?_, hp⟩
    rw [mask_heldBy, hmask, Rights.givenBy_file_givenBy]

/-! ### Items and runs of items -/

/-- A way to read items as entries for a kind of object. -/
abbrev Reading (α : Type) := ObjectKind → α → Entry → Prop

/-- What the kind of object changes about reading one item. -/
def Switches {α : Type} (read : Reading α) : Prop :=
  ∀ item held, read .file item held ↔
    ∃ e, read .directory item e ∧ e.KnownToFiles ∧ e.heldBy .file = held

namespace Switches

variable {α β : Type}

theorem of_build (type : EntryType) (flags : α → EntryFlags) (mask : α → Rights) (p : Principal) :
    Switches fun kind item e => Entry.build kind type (flags item) (mask item) p = .ok e :=
  fun _ _ => Entry.build_file_eq_ok_iff

/-- What else is asked of an item has nothing to do with the kind. -/
theorem of_asked {read : Reading α} (Asked : α → Prop) (hread : Switches read) :
    Switches fun kind item e => Asked item ∧ read kind item e := by
  intro item held
  constructor
  · rintro ⟨hasked, hfile⟩
    obtain ⟨e, he, hheld⟩ := (hread item held).1 hfile
    exact ⟨e, ⟨hasked, he⟩, hheld⟩
  · rintro ⟨e, ⟨hasked, he⟩, hheld⟩
    exact ⟨hasked, (hread item held).2 ⟨e, he, hheld⟩⟩

/-- Nor have the parts of an item that its entry is built from. -/
theorem of_part {read : β → Reading α} (hread : ∀ part, Switches (read part)) :
    Switches fun kind item e => ∃ part, read part kind item e := by
  intro item held
  constructor
  · rintro ⟨part, hfile⟩
    obtain ⟨e, he, hheld⟩ := (hread part item held).1 hfile
    exact ⟨e, ⟨part, he⟩, hheld⟩
  · rintro ⟨e, ⟨part, he⟩, hheld⟩
    exact ⟨part, (hread part item held).2 ⟨e, he, hheld⟩⟩

end Switches

theorem forall₂_file_iff {α : Type} {read : Reading α} (hread : Switches read) {items : List α}
    {held : List Entry} : List.Forall₂ (read .file) items held ↔
      ∃ es, List.Forall₂ (read .directory) items es ∧ (∀ e ∈ es, e.KnownToFiles) ∧
        es.map (Entry.heldBy .file) = held := by
  induction items generalizing held with
  | nil =>
    constructor
    · rintro ⟨⟩
      exact ⟨[], .nil, nofun, rfl⟩
    · rintro ⟨_, ⟨⟩, -, rfl⟩
      exact .nil
  | cons item items ih =>
    constructor
    · intro hfile
      cases hfile with
      | cons hitem hitems =>
        obtain ⟨e, he, hknown, rfl⟩ := (hread item _).1 hitem
        obtain ⟨es, hes, hall, rfl⟩ := ih.1 hitems
        exact ⟨e :: es, .cons he hes, List.forall_mem_cons.2 ⟨hknown, hall⟩, rfl⟩
    · rintro ⟨_, hdirectory, hall, rfl⟩
      cases hdirectory with
      | cons he hes =>
        obtain ⟨hknown, hall⟩ := List.forall_mem_cons.1 hall
        exact .cons ((hread item _).2 ⟨_, he, hknown, rfl⟩) (ih.2 ⟨_, hes, hall, rfl⟩)

/-! ### Whole inputs -/

/-- What reading an input for a file comes to, given what reading it for a directory
    does.  It succeeds exactly if that does and no entry has a flag that only
    directories know, and then it gives the same flags and the same entries, each
    without the right to remove children. -/
structure KindSwitch {α : Type} (flags : α → ListFlags) (entries : α → List Entry)
    (directory file : Except Fault α) : Prop where
  readable : (∃ found, file = .ok found) ↔
    ∃ found, directory = .ok found ∧ ∀ e ∈ entries found, e.KnownToFiles
  same : ∀ forDirectory forFile, directory = .ok forDirectory → file = .ok forFile →
    flags forFile = flags forDirectory ∧
      entries forFile = (entries forDirectory).map (Entry.heldBy .file)

namespace KindSwitch

variable {α : Type} {flags : α → ListFlags} {entries : α → List Entry}
  {directory file : Except Fault α}

theorem of_iff
    (hfile : ∀ found, file = .ok found → ∃ e, directory = .ok e ∧
      (∀ e' ∈ entries e, e'.KnownToFiles) ∧ flags found = flags e ∧
      entries found = (entries e).map (Entry.heldBy .file))
    (hdirectory : ∀ found, directory = .ok found → (∀ e ∈ entries found, e.KnownToFiles) →
      ∃ held, file = .ok held) : KindSwitch flags entries directory file where
  readable := by
    constructor
    · rintro ⟨found, hfound⟩
      obtain ⟨e, he, hknown, -⟩ := hfile found hfound
      exact ⟨e, he, hknown⟩
    · rintro ⟨found, hfound, hknown⟩
      exact hdirectory found hfound hknown
  same := by
    intro forDirectory forFile hforDirectory hforFile
    obtain ⟨e, he, -, hsame⟩ := hfile forFile hforFile
    rw [hforDirectory] at he
    cases he
    exact hsame

theorem of_refused (hdirectory : ∀ found, directory ≠ .ok found)
    (hfile : ∀ found, file ≠ .ok found) : KindSwitch flags entries directory file :=
  of_iff (fun found hfound => absurd hfound (hfile found))
    fun found hfound => absurd hfound (hdirectory found)

/-- A list that is read item by item, its flags apart from them, switches kinds as
    its items do. -/
theorem of_items {β : Type} {read : Reading β} (hread : Switches read)
    (decode : ObjectKind → Except Fault AccessList) {listFlags : ListFlags} {items : List β}
    (hdecode : ∀ kind list, decode kind = .ok list ↔ list.kind = kind ∧ list.flags = listFlags ∧
      List.Forall₂ (read kind) items list.entries) :
    KindSwitch AccessList.flags AccessList.entries (decode .directory) (decode .file) := by
  apply of_iff
  · intro list hok
    obtain ⟨-, hflags, hitems⟩ := (hdecode .file list).1 hok
    obtain ⟨es, hes, hknown, hheld⟩ := (forall₂_file_iff hread).1 hitems
    -- Every entry fits a directory.
    refine ⟨⟨.directory, listFlags, es, fun _ _ => rfl⟩, ?_, hknown, hflags, hheld.symm⟩
    exact (hdecode .directory _).2 ⟨rfl, rfl, hes⟩
  · intro list hok hknown
    obtain ⟨-, hflags, hitems⟩ := (hdecode .directory list).1 hok
    refine ⟨list.heldBy .file fun _ => hknown, (hdecode .file _).2 ⟨rfl, hflags, ?_⟩⟩
    exact (forall₂_file_iff hread).2 ⟨list.entries, hitems, hknown, rfl⟩

end KindSwitch

/-! ### Payloads -/

namespace Wire

theorem switches_records : Switches fun kind (r : Record) e => r.entry kind = .ok e := by
  unfold Record.entry
  simp only [bind_eq_ok_iff]
  refine .of_part fun type => .of_asked _ ?_
  refine .of_part fun principal => .of_asked _ ?_
  exact .of_build type _ _ principal

theorem forall₂_entry_iff {kind : ObjectKind} {rs : List Record} {es : List Entry} :
    List.Forall₂ (fun r e => r.entry kind = .ok e) rs es ↔
      rs.map (Record.entry kind) = es.map .ok := by
  rw [← List.forall₂_eq_eq_eq, List.forall₂_map_left_iff, List.forall₂_map_right_iff]

theorem decode_switches (payload : List UInt8) :
    KindSwitch AccessList.flags AccessList.entries (decode .directory payload).result
      (decode .file payload).result := by
  by_cases hheader : ∃ count, payload.length = 8 + 20 * count ∧ count ≤ 128 ∧
      (wordAt payload 1).toNat = count
  · obtain ⟨count, hsize, hcount, hdeclared⟩ := hheader
    apply KindSwitch.of_items switches_records fun kind => (decode kind payload).result
    intro kind list
    rw [decode_eq_ok_iff hsize hcount hdeclared, forall₂_entry_iff]
  · have hrefused : ∀ kind list, (decode kind payload).result ≠ .ok list := by
      intro kind list hok
      obtain ⟨count, hpayload⟩ := exists_decode_iff.1 ⟨list, hok⟩
      exact hheader ⟨count, hpayload.size, hpayload.count_le, hpayload.declared⟩
    exact .of_refused (hrefused .directory) (hrefused .file)

end Wire

/-! ### Specifications -/

namespace Listing

theorem switches_lines (names : NameService) :
    Switches fun kind line e => (parseChars kind names line).result = .ok (some e) := by
  simp only [parseChars_eq_some_iff, Layout.exists_entry_eq_ok_iff]
  refine .of_asked _ (.of_part fun layout => .of_asked _ ?_)
  refine .of_part fun type => .of_part fun flags => .of_part fun mask => .of_part fun principal => ?_
  exact .of_asked _ (.of_build type _ _ principal)

theorem entries_switches (names : NameService) (spec : String) :
    KindSwitch (fun _ => Flags.none) id (entries .directory names spec).result
      (entries .file names spec).result := by
  apply KindSwitch.of_iff
  · intro held hok
    obtain ⟨htokens, hsome⟩ := entries_eq_ok_iff.1 hok
    obtain ⟨es, hes, hknown, rfl⟩ := (forall₂_file_iff (switches_lines names)).1 htokens
    refine ⟨es, entries_eq_ok_iff.2 ⟨hes, fun hne hnil => hsome hne ?_⟩, hknown, rfl, rfl⟩
    rw [hnil, List.map_nil]
  · intro es hok hknown
    obtain ⟨htokens, hsome⟩ := entries_eq_ok_iff.1 hok
    refine ⟨es.map (Entry.heldBy .file), entries_eq_ok_iff.2 ⟨?_, fun hne hnil => ?_⟩⟩
    · exact (forall₂_file_iff (switches_lines names)).2 ⟨es, htokens, hknown, rfl⟩
    · exact hsome hne (List.map_eq_nil_iff.1 hnil)

end Listing

/-! ### Documents -/

namespace Document

theorem switches_elements (names : NameService) :
    Switches fun kind value e => decodeEntry kind names value = .ok e := by
  simp only [decodeEntry_eq_ok_iff]
  refine .of_part fun entry => .of_part fun type => .of_part fun flags => .of_part fun mask =>
    .of_part fun principal => .of_part fun isGroup => ?_
  exact .of_asked _ (.of_asked _ (.of_build type _ _ principal))

theorem decode_switches (names : NameService) (document : Json) :
    KindSwitch AccessList.flags AccessList.entries (decode .directory names document).result
      (decode .file names document).result := by
  by_cases hholds : ∃ members items, Holds document members items
  · obtain ⟨members, items, hholds⟩ := hholds
    by_cases hflags : ListFlagsInOrder members
    · apply KindSwitch.of_items (switches_elements names) fun kind =>
        (decode kind names document).result
      intro kind list
      rw [decode_eq_ok_iff hholds, and_iff_right hflags]
    · have hrefused : ∀ kind list, (decode kind names document).result ≠ .ok list :=
        fun kind list hok => hflags ((decode_eq_ok_iff hholds).1 hok).1
      exact .of_refused (hrefused .directory) (hrefused .file)
  · exact .of_refused (fun _ => not_ok_of_not_holds hholds) fun _ => not_ok_of_not_holds hholds

end Document

/-- **Reading for a file and reading for a directory.**  A payload, a specification
    or a document is read for a file exactly if it is read for a directory and no
    entry of it has a flag that only directories know.  The file then has the same
    flags and entry by entry the same types, flags, principals and rights, but for
    the right to remove children. -/
theorem readings_switch (names : NameService) (payload : List UInt8) (spec : String)
    (document : Json) :
    KindSwitch AccessList.flags AccessList.entries
      (Wire.decode .directory payload).result (Wire.decode .file payload).result ∧
    KindSwitch (fun _ => Flags.none) id
      (Listing.entries .directory names spec).result (Listing.entries .file names spec).result ∧
    KindSwitch AccessList.flags AccessList.entries
      (Document.decode .directory names document).result
      (Document.decode .file names document).result :=
  ⟨Wire.decode_switches payload, Listing.entries_switches names spec,
    Document.decode_switches names document⟩

end AccessControl
