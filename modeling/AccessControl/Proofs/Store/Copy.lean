/-
  AccessControl/Proofs/Store/Copy.lean
  ====================================
  **Copying a list from one object to another.**

  `CopyRefused` says when a list cannot be copied, and `CopiedTo` what has changed
  when it could be: one attribute of the destination.  Every copy is one or the
  other (`copyList_refused_or_copied`), in every store, also where source and
  destination are the same object.  What is copied is shown by the destination as
  it was written, so a second copy finds nothing to do (`copyList_again`).
-/
import AccessControl.Proofs.Store.Run

namespace AccessControl.Store

/-- Why a list cannot be copied: it cannot be read, there is no object to copy it
    to, or it has flags that the object at the destination does not know. -/
inductive CopyRefused (store : Store) (policy : Policy) (source destination : String) : Prop where
  | unreadable (fault : StoreFault)
      (hread : (store.readList policy source).result = .error fault)
  | noDestination (hnone : store.find? destination = none)
  | directoryOnly (list : AccessList) (object : StoredObject) (e : Entry)
      (hread : (store.readList policy source).result = .ok (some list))
      (hlist : list.kind = .directory) (hmem : e ∈ list.entries)
      (hflags : e.flags.meets EntryFlags.directoryOnly)
      (hobject : store.find? destination = some object) (hfile : object.kind = .file)

/-- What a copy has made of a store. -/
structure CopiedTo (store : Store) (policy : Policy) (source destination : String)
    (copied : Store) : Prop where
  removed : (store.readList policy source).result = .ok none →
    copied.readAttribute destination policy.attributeName = .ok none
  shown : ∀ list object, (store.readList policy source).result = .ok (some list) →
    store.find? destination = some object →
    ∃ copy, (copied.readList policy destination).result = .ok (some copy) ∧
      copy.kind = object.kind ∧ copy.flags = list.flags ∧
      copy.entries = list.entries.map (Entry.heldBy object.kind)
  elsewhere : ∀ path, Location.ofPath path ≠ Location.ofPath destination →
    copied.find? path = store.find? path
  there : ∃ before after, store.find? destination = some before ∧
    copied.find? destination = some after ∧ after.kind = before.kind ∧ after.mode = before.mode ∧
    ∀ name, name ≠ policy.attributeName →
      after.attributes.get? name = before.attributes.get? name
  again : (copyInPlace policy source destination).on copied = (.ok (), copied)

variable {store : Store} {policy : Policy} {source destination : String} {object : StoredObject}
  {found : Option AccessList} {payload : Option (List UInt8)}

/-! ### When a copy succeeds -/

theorem copyList_of_refused (hrefused : CopyRefused store policy source destination) :
    ∃ fault, (store.copyList policy source destination).result = .error fault := by
  cases hresult : (store.copyList policy source destination).result with
  | error fault => exact ⟨fault, rfl⟩
  | ok copied =>
    exfalso
    obtain ⟨found, object, payload, hread, hobject, hcarries, -⟩ := copyList_eq_ok_iff.1 hresult
    cases hrefused with
    | unreadable fault hfault =>
      rw [hread] at hfault
      cases hfault
    | noDestination hnone =>
      rw [hobject] at hnone
      cases hnone
    | directoryOnly list object' e hread' _ hmem hmeets hobject' hfile =>
      rw [hobject] at hobject'
      cases hobject'
      rw [hread] at hread'
      cases hread'
      cases hcarries with
      | list _ _ _ hflags =>
        rw [hflags hfile e hmem] at hmeets
        cases hmeets

/-- What an object shows can be carried to an object that knows its flags. -/
theorem exists_carries {kind : ObjectKind}
    (hread : (store.readList policy source).result = .ok found)
    (hflags : ∀ list ∈ found, kind = .file →
      ∀ e ∈ list.entries, e.flags.meets EntryFlags.directoryOnly = false) :
    ∃ payload, Carries kind found payload := by
  cases found with
  | none => exact ⟨none, .nothing⟩
  | some list =>
    obtain ⟨object, -, hshows⟩ := readList_eq_ok_iff.1 hread
    let held := list.heldBy kind (hflags list rfl)
    have hsize : held.size ≤ maxEntries := by
      show (list.entries.map (Entry.heldBy kind)).length ≤ maxEntries
      rw [List.length_map]
      exact hshows.kind_and_size.2
    exact ⟨_, .list list held _ (hflags list rfl) rfl rfl rfl (Wire.encode_of_size hsize)⟩

theorem copyList_of_not_refused (hgood : ¬ CopyRefused store policy source destination) :
    ∃ copied, (store.copyList policy source destination).result = .ok copied := by
  cases hread : (store.readList policy source).result with
  | error fault => exact absurd (.unreadable fault hread) hgood
  | ok found =>
    cases hobject : store.find? destination with
    | none => exact absurd (.noDestination hobject) hgood
    | some object =>
      have hflags : ∀ list ∈ found, object.kind = .file →
          ∀ e ∈ list.entries, e.flags.meets EntryFlags.directoryOnly = false := by
        rintro list rfl hfile e hmem
        rw [← Bool.not_eq_true]
        intro hmeets
        apply hgood
        -- A list with such a flag is a directory's, for a file's entries fit a file.
        have hlist : list.kind = .directory := by
          cases hkind : list.kind with
          | directory => rfl
          | file =>
            have hfits := (Entry.fits_iff.1 (list.all_fit e hmem) hkind).1
            rw [hmeets] at hfits
            cases hfits
        exact .directoryOnly list object e hread hlist hmem hmeets hobject hfile
      obtain ⟨payload, hcarries⟩ := exists_carries hread hflags
      exact ⟨_, copyList_eq_ok_iff.2 ⟨found, object, payload, hread, hobject, hcarries, rfl⟩⟩

/-! ### What has changed then -/

/-- A list is carried unchanged to an object of its own kind. -/
theorem carries_self {list : AccessList} {bytes : List UInt8}
    (hencode : (Wire.encode list).result = .ok bytes) :
    Carries list.kind (some list) (some bytes) := by
  have hsame : list.entries.map (Entry.heldBy list.kind) = list.entries :=
    calc list.entries.map (Entry.heldBy list.kind)
        = list.entries.map id := List.map_congr_left fun e hmem =>
          Entry.heldBy_eq_self (list.all_fit e hmem)
      _ = list.entries := List.map_id list.entries
  apply Carries.list list list bytes _ rfl rfl hsame.symm hencode
  intro hfile e hmem
  exact (Entry.fits_iff.1 (list.all_fit e hmem) hfile).1

/-- A copy leaves an object that shows what would be carried to it again. -/
theorem shows_of_carries (hread : (store.readList policy source).result = .ok found)
    (hcarries : Carries object.kind found payload) :
    ∃ shown, (object.keeping policy payload).Shows policy shown ∧
      Carries object.kind shown payload := by
  cases hcarries with
  | nothing =>
    obtain ⟨_, -, hshows⟩ := readList_eq_ok_iff.1 hread
    cases hshows with
    | nothing _ hsynthesize =>
      exact ⟨none, .nothing (StoredObject.get?_keeping_self policy object none) hsynthesize,
        .nothing⟩
  | list list converted bytes hflags hkind hlistFlags hentries hencode =>
    exact ⟨some converted, StoredObject.shows_keeping hkind hencode, hkind ▸ carries_self hencode⟩

/-- A second copy finds nothing to do, not even where an object is copied to itself. -/
theorem copyList_again {copied : Store}
    (hcopy : (store.copyList policy source destination).result = .ok copied) :
    (copied.copyList policy source destination).result = .ok copied := by
  obtain ⟨found, object, payload, hread, hobject, hcarries, rfl⟩ := copyList_eq_ok_iff.1 hcopy
  rw [copyList_eq_ok_iff]
  have hthere : (store.put destination (object.keeping policy payload)).find? destination =
      some (object.keeping policy payload) := find?_put_self store _ rfl
  have hagain : ∃ shown, ((store.put destination (object.keeping policy payload)).readList policy
      source).result = .ok shown ∧ Carries object.kind shown payload := by
    by_cases hsame : Location.ofPath source = Location.ofPath destination
    · obtain ⟨shown, hshows, hcarries'⟩ := shows_of_carries hread hcarries
      have hsource := find?_put_self store (object.keeping policy payload) hsame
      exact ⟨shown, readList_eq_ok_iff.2 ⟨_, hsource, hshows⟩, hcarries'⟩
    · obtain ⟨shower, hshower, hshows⟩ := readList_eq_ok_iff.1 hread
      have hsource := find?_put_of_ne store (object.keeping policy payload) hsame
      exact ⟨found, readList_eq_ok_iff.2 ⟨shower, hsource.trans hshower, hshows⟩, hcarries⟩
  obtain ⟨shown, hshown, hcarries'⟩ := hagain
  refine ⟨shown, object.keeping policy payload, payload, hshown, hthere, hcarries', ?_⟩
  rw [StoredObject.keeping_keeping, put_put]

theorem copiedTo_of_copyList {copied : Store}
    (hcopy : (store.copyList policy source destination).result = .ok copied) :
    CopiedTo store policy source destination copied := by
  have hagain : (copyInPlace policy source destination).on copied = (.ok (), copied) := by
    rw [copyInPlace_eq, InPlace.on_whole_of_ok (copyList_again hcopy)]
  obtain ⟨found, object, payload, hread, hobject, hcarries, rfl⟩ := copyList_eq_ok_iff.1 hcopy
  have hthere : (store.put destination (object.keeping policy payload)).find? destination =
      some (object.keeping policy payload) := find?_put_self store _ rfl
  have hchanged : ChangedOnly store destination policy.attributeName
      (store.put destination (object.keeping policy payload)) := changedOnly_put_keeping hobject _
  refine ⟨?_, ?_, hchanged.elsewhere, hchanged.there, hagain⟩
  · intro hnone
    rw [hread] at hnone
    cases hnone
    cases hcarries
    exact readAttribute_put_keeping none
  · intro list object' hsome hobject'
    rw [hread] at hsome
    cases hsome
    rw [hobject] at hobject'
    cases hobject'
    cases hcarries with
    | list _ converted bytes hflags hkind hlistFlags hentries hencode =>
      have hshown := readList_eq_ok_iff.2 ⟨_, hthere, StoredObject.shows_keeping hkind hencode⟩
      exact ⟨converted, hshown, hkind, hlistFlags, hentries⟩

/-- **Copying a list.**  In place, the source is read, the destination inspected, the list
    converted and encoded, and the payload written; or it is removed if the source shows
    no list.  That fails in just the three cases of `CopyRefused`, and then the store is
    left as it was.  Else the destination shows the list of the source as an object of
    its kind holds it, or none if the source shows none; nothing but one attribute of the
    destination has changed; and to copy again changes nothing. -/
theorem copyList_refused_or_copied (store : Store) (policy : Policy)
    (source destination : String) :
    let after := (copyInPlace policy source destination).on store
    (CopyRefused store policy source destination →
      ∃ fault, (store.copyList policy source destination).result = .error fault ∧
        after = (.error fault, store)) ∧
    (¬ CopyRefused store policy source destination →
      after.1 = .ok () ∧ (store.copyList policy source destination).result = .ok after.2 ∧
        CopiedTo store policy source destination after.2) := by
  intro after
  have hafter : after = (InPlace.whole fun store : Store =>
      (store.copyList policy source destination).result).on store := by rw [← copyInPlace_eq]
  constructor
  · intro hrefused
    obtain ⟨fault, hfault⟩ := copyList_of_refused hrefused
    exact ⟨fault, hfault, hafter.trans (InPlace.on_whole_of_error hfault)⟩
  · intro hgood
    obtain ⟨copied, hcopy⟩ := copyList_of_not_refused hgood
    rw [hafter, InPlace.on_whole_of_ok hcopy]
    exact ⟨rfl, hcopy, copiedTo_of_copyList hcopy⟩

/-- A file that gets the list of a directory does not get the right to remove children
    with it.  Where an entry passes on, it does not get the list. -/
theorem copyList_refused_or_copied_sweeper :
    let policy : Policy := ⟨.system, false⟩
    let sweeper : Entry :=
      ⟨.allow, Flags.none, Rights.full, .named 7, by decide, by decide, by decide⟩
    let passing : Entry :=
      ⟨.allow, Flags.of [.fileInherit], Rights.full, .named 7, by decide, by decide, by decide⟩
    let list : AccessList := ⟨.directory, ⟨5⟩, [sweeper], by decide⟩
    let store : Store :=
      run [.add "/d" .directory 0x1ED, .write policy "/d" list, .add "/f" .file 0x1A4,
        .add "/e" .directory 0x1ED, .write policy "/e" ⟨.directory, ⟨0⟩, [passing], by decide⟩]
    (∃ copied copy, (copyInPlace policy "/d" "/f").on store = (.ok (), copied) ∧
      (copied.readList policy "/f").result = .ok (some copy) ∧ copy.kind = .file ∧
      copy.flags = ⟨5⟩ ∧ copy.entries.map (fun e => e.mask.word) = [0x1F01BF]) ∧
    ∃ fault, (copyInPlace policy "/e" "/f").on store = (.error fault, store) := by
  intro policy sweeper passing list store
  have hread : (store.readList policy "/d").result = .ok (some list) :=
    toOption_eq_some_iff.1 (by decide +kernel)
  have hpassing : (store.readList policy "/e").result =
      .ok (some ⟨.directory, ⟨0⟩, [passing], by decide⟩) :=
    toOption_eq_some_iff.1 (by decide +kernel)
  have hkind : (store.find? "/f").map StoredObject.kind = some .file := by decide +kernel
  obtain ⟨object, hobject, hfile⟩ := Option.map_eq_some_iff.1 hkind
  have hgood : ¬ CopyRefused store policy "/d" "/f" := by
    intro hrefused
    cases hrefused with
    | unreadable fault hfault => rw [hread] at hfault; cases hfault
    | noDestination hnone => rw [hobject] at hnone; cases hnone
    | directoryOnly other _ e hread' _ hmem hflags =>
      rw [hread] at hread'
      cases hread'
      obtain rfl : e = sweeper := List.mem_singleton.1 hmem
      exact absurd hflags (by decide)
  have hrefused : CopyRefused store policy "/e" "/f" :=
    .directoryOnly _ object passing hpassing rfl (List.mem_singleton.2 rfl) (by decide) hobject hfile
  obtain ⟨hok, -, hcopied⟩ := (copyList_refused_or_copied store policy "/d" "/f").2 hgood
  obtain ⟨copy, hshown, hcopyKind, hcopyFlags, hentries⟩ :=
    hcopied.shown list object hread hobject
  obtain ⟨fault, -, hkept⟩ := (copyList_refused_or_copied store policy "/e" "/f").1 hrefused
  refine ⟨⟨_, copy, Prod.ext hok rfl, hshown, hcopyKind.trans hfile, hcopyFlags, ?_⟩, fault, hkept⟩
  rw [hentries, hfile]
  decide

end AccessControl.Store
