/-
  AccessControl/Proofs/Store/Write.lean
  =====================================
  **Writing a list to an object, and finding it there.**

  A list is written to an object of its own kind if it is not too long; all three
  reasons against it (`WriteRefused`) are found before the store is touched.
  What is written is then shown under every policy with the same namespace, also
  one that would make a list from the mode, until it is removed, and nothing
  else has changed (`writeList_written_or_refused`).
-/
import AccessControl.Proofs.Store.Run

namespace AccessControl

theorem AttributeNamespace.attributeName_injective {a b : AttributeNamespace}
    (hname : a.attributeName = b.attributeName) : a = b := by
  revert hname
  cases a <;> cases b <;> decide

namespace Store

/-- Why a list is not written: there is no object, or one of the other kind, or the
    list has too many entries.  The first of these that holds is the fault. -/
inductive WriteRefused (store : Store) (path : String) (list : AccessList) : StoreFault → Prop where
  | noObject (hnone : store.find? path = none) :
      WriteRefused store path list ⟨.inspect, path, .noObject ⟨path⟩⟩
  | wrongKind (object : StoredObject) (hobject : store.find? path = some object)
      (hkind : list.kind ≠ object.kind) :
      WriteRefused store path list ⟨.write, path, .list (.kindMismatch object.kind)⟩
  | tooMany (object : StoredObject) (hobject : store.find? path = some object)
      (hkind : list.kind = object.kind) (hsize : 128 < list.size) :
      WriteRefused store path list ⟨.encode, path, .list (.tooMany list.size)⟩

/-- What writing a list has made of a store. -/
structure WrittenTo (store : Store) (policy : Policy) (path : String) (list : AccessList)
    (written : Store) : Prop where
  shown : ∀ reading : Policy, reading.space = policy.space →
    (written.readList reading path).result = .ok (some list)
  trivial : ∀ reading : Policy, reading.space = policy.space →
    (written.isTrivialAt reading path).result = .ok list.isTrivial.value
  changed : ChangedOnly store path policy.attributeName written
  otherSpace : ∀ space, space ≠ policy.space →
    written.readAttribute path space.attributeName = store.readAttribute path space.attributeName
  removed : ∀ removing : Policy, removing.space = policy.space →
    ∃ removed, (written.removeList removing path).result = .ok removed ∧
      removed.readAttribute path policy.attributeName = .ok none ∧
      ChangedOnly written path policy.attributeName removed

variable {store written : Store} {policy : Policy} {path name : String} {list : AccessList}
  {object : StoredObject} {fault : StoreFault}

/-! ### When a list is written -/

theorem refused_or_writable (store : Store) (path : String) (list : AccessList) :
    (∃ fault, WriteRefused store path list fault) ∨
      ∃ object, store.find? path = some object ∧ list.kind = object.kind ∧ list.size ≤ 128 := by
  rcases hobject : store.find? path with _ | object
  · exact .inl ⟨_, .noObject hobject⟩
  · by_cases hkind : list.kind = object.kind
    · by_cases hsize : list.size ≤ 128
      · exact .inr ⟨object, rfl, hkind, hsize⟩
      · exact .inl ⟨_, .tooMany object hobject hkind (Nat.lt_of_not_le hsize)⟩
    · exact .inl ⟨_, .wrongKind object hobject hkind⟩

theorem not_writable_of_refused (hrefused : WriteRefused store path list fault) :
    ¬ ∃ object, store.find? path = some object ∧ list.kind = object.kind ∧ list.size ≤ 128 := by
  rintro ⟨object, hobject, hkind, hsize⟩
  rcases hrefused with hnone | ⟨other, hother, hwrong⟩ | ⟨other, -, -, hmany⟩
  · rw [hnone] at hobject
    cases hobject
  · obtain rfl : object = other := Option.some.inj (hobject.symm.trans hother)
    exact hwrong hkind
  · exact absurd hsize (Nat.not_le.2 hmany)

theorem result_writeList_none (hnone : store.find? path = none) :
    (store.writeList policy path list).result = .error ⟨.inspect, path, .noObject ⟨path⟩⟩ := by
  have hobject : store.object path = .error ⟨path⟩ := by rw [Store.object, hnone]
  rw [writeList, Attempt.result_bind, result_accessing, hobject]
  rfl

theorem result_writeList_some (hobject : store.find? path = some object) :
    (store.writeList policy path list).result =
      if list.kind = object.kind then (store.writePayload policy path list).result
      else .error ⟨.write, path, .list (.kindMismatch object.kind)⟩ := by
  rw [writeList, Attempt.result_bind, result_accessing, object_eq_ok_iff.2 hobject]
  show Attempt.result _ = _
  by_cases hkind : list.kind = object.kind <;> simp [hkind]

theorem writeList_of_refused (hrefused : WriteRefused store path list fault) :
    (store.writeList policy path list).result = .error fault := by
  rcases hrefused with hnone | ⟨object, hobject, hkind⟩ | ⟨object, hobject, hkind, hsize⟩
  · exact result_writeList_none hnone
  · rw [result_writeList_some hobject, if_neg hkind]
  · rw [result_writeList_some hobject, if_pos hkind, writePayload, Attempt.result_bind,
      result_working, Wire.encode_tooMany hsize]
    rfl

theorem writeList_of_writable (policy : Policy) (hobject : store.find? path = some object)
    (hkind : list.kind = object.kind) (hsize : list.size ≤ 128) :
    ∃ payload, (Wire.encode list).result = .ok payload ∧
      (store.writeList policy path list).result =
        .ok (store.put path (object.keeping policy (some payload))) := by
  have hencode := Wire.encode_of_size hsize
  refine ⟨_, hencode, ?_⟩
  rw [result_writeList_some hobject, if_pos hkind, writePayload_eq_ok_iff]
  exact ⟨_, object, hencode, hobject, rfl⟩

/-! ### What is found afterwards -/

theorem readAttribute_of_changedOnly {other : String}
    (hchanged : ChangedOnly store path name written) (hother : other ≠ name) :
    written.readAttribute path other = store.readAttribute path other := by
  obtain ⟨before, now, hbefore, hnow, -, -, hattributes⟩ := hchanged.there
  rw [readAttribute_of_found hbefore, readAttribute_of_found hnow, hattributes other hother]

theorem writtenTo_of_writeList (hwrite : (store.writeList policy path list).result = .ok written) :
    WrittenTo store policy path list written := by
  obtain ⟨object, hobject, hkind, hpayload⟩ := writeList_eq_ok_iff.1 hwrite
  obtain ⟨payload, object', hencode, hobject', rfl⟩ := writePayload_eq_ok_iff.1 hpayload
  obtain rfl : object = object' := Option.some.inj (hobject.symm.trans hobject')
  have hthere : (store.put path (object.keeping policy (some payload))).find? path =
      some (object.keeping policy (some payload)) := find?_put_self store _ rfl
  have hchanged : ChangedOnly store path policy.attributeName
      (store.put path (object.keeping policy (some payload))) :=
    changedOnly_put_keeping hobject (some payload)
  have hshown : ∀ reading : Policy, reading.space = policy.space →
      ((store.put path (object.keeping policy (some payload))).readList reading path).result =
        .ok (some list) := by
    intro reading hspace
    rw [readList_eq_ok_iff]
    refine ⟨_, hthere, ?_⟩
    rw [← StoredObject.keeping_congr hspace]
    exact StoredObject.shows_keeping hkind hencode
  refine ⟨hshown, ?_, hchanged, ?_, ?_⟩
  · intro reading hspace
    rw [result_isTrivialAt, hshown reading hspace]
    rfl
  · intro space hspace
    apply readAttribute_of_changedOnly hchanged
    intro hname
    exact hspace (AttributeNamespace.attributeName_injective hname)
  · intro removing hspace
    have hname : removing.attributeName = policy.attributeName :=
      congrArg AttributeNamespace.attributeName hspace
    refine ⟨_, removeList_eq_ok_iff.2 ⟨_, hthere, rfl⟩, ?_, ?_⟩
    · rw [← hname]
      exact readAttribute_put_keeping none
    · rw [← hname]
      exact changedOnly_put_keeping hthere none

/-- **Writing a list.**  In place, the object is inspected, the kinds are compared, the
    list is encoded and the payload written.  That succeeds exactly if there is an object
    of the list's kind and the list has at most 128 entries.  Then the object shows the
    list just as it was given, its kind and all 32 bits of its flags included, and
    nothing but one attribute has changed, which goes when the list is removed.  Else the
    fault says what is in the way, and the store is left as it was. -/
theorem writeList_written_or_refused (store : Store) (policy : Policy) (path : String)
    (list : AccessList) :
    let after := (writeInPlace policy path list).on store
    (after.1 = .ok () ↔
      ∃ object, store.find? path = some object ∧ list.kind = object.kind ∧ list.size ≤ 128) ∧
    (after.1 = .ok () →
      (store.writeList policy path list).result = .ok after.2 ∧
        WrittenTo store policy path list after.2) ∧
    ∀ fault, after.1 = .error fault →
      (store.writeList policy path list).result = .error fault ∧
        WriteRefused store path list fault ∧ after.2 = store := by
  intro after
  have hafter : after = (InPlace.whole fun store : Store =>
      (store.writeList policy path list).result).on store := by rw [← writeInPlace_eq]
  rcases refused_or_writable store path list with ⟨fault, hrefused⟩ | hwritable
  · have hwrite : (store.writeList policy path list).result = .error fault :=
      writeList_of_refused hrefused
    rw [InPlace.on_whole_of_error hwrite] at hafter
    rw [hafter]
    refine ⟨iff_of_false nofun (not_writable_of_refused hrefused), nofun, ?_⟩
    rintro _ ⟨⟩
    exact ⟨hwrite, hrefused, rfl⟩
  · obtain ⟨object, hobject, hkind, hsize⟩ := hwritable
    obtain ⟨payload, -, hwrite⟩ := writeList_of_writable policy hobject hkind hsize
    rw [InPlace.on_whole_of_ok hwrite] at hafter
    rw [hafter]
    exact ⟨iff_of_true rfl ⟨object, hobject, hkind, hsize⟩,
      fun _ => ⟨hwrite, writtenTo_of_writeList hwrite⟩, nofun⟩

/-- A directory keeps the list that a policy for the other namespace has given it, and
    shows the new one also where lists would be made from modes.  A file in the same
    store refuses the list, and the store is left as it was. -/
theorem writeList_written_or_refused_second_namespace :
    let policy : Policy := ⟨.security, false⟩
    let passing : Entry :=
      ⟨.deny, EntryFlags.settle (.named 7) ⟨0x43⟩, Rights.full, .named 7, by decide, by decide,
        by decide⟩
    let list : AccessList := ⟨.directory, ⟨0x80000005⟩, [passing, passing], by decide⟩
    let store : Store :=
      run [.add "/d" .directory 0x1ED, .write ⟨.system, false⟩ "/d" (.empty .directory),
        .add "/f" .file 0x1A4]
    (∃ written, (writeInPlace policy "/d" list).on store = (.ok (), written) ∧
      (written.readList ⟨.security, true⟩ "/d").result = .ok (some list) ∧
      written.readAttribute "/d" "system.nfs4_acl_xdr" = .ok (some (List.replicate 8 0))) ∧
    (writeInPlace policy "/f" list).on store =
      (.error ⟨.write, "/f", .list (.kindMismatch .file)⟩, store) := by
  intro policy passing list store
  have hkind : (store.find? "/d").map StoredObject.kind = some .directory := by decide +kernel
  obtain ⟨object, hobject, hdirectory⟩ := Option.map_eq_some_iff.1 hkind
  have hbefore : store.readAttribute "/d" "system.nfs4_acl_xdr" = .ok (some (List.replicate 8 0)) :=
    toOption_eq_some_iff.1 (by decide +kernel)
  obtain ⟨hwritable, hwritten, -⟩ := writeList_written_or_refused store policy "/d" list
  have hok := hwritable.2 ⟨object, hobject, hdirectory.symm, by decide⟩
  have hfound := (hwritten hok).2
  have hfileKind : (store.find? "/f").map StoredObject.kind = some .file := by decide +kernel
  obtain ⟨file, hfile, hother⟩ := Option.map_eq_some_iff.1 hfileKind
  have hwrong : list.kind ≠ file.kind := by
    rw [hother]
    decide
  have hfault : ((writeInPlace policy "/f" list).on store).1 =
      .error ⟨.write, "/f", .list (.kindMismatch .file)⟩ := by
    have hrefused : (store.writeList policy "/f" list).result =
        .error ⟨.write, "/f", .list (.kindMismatch file.kind)⟩ :=
      writeList_of_refused (.wrongKind file hfile hwrong)
    rw [writeInPlace_eq, InPlace.on_whole_of_error hrefused, hother]
  have hkept := ((writeList_written_or_refused store policy "/f" list).2.2 _ hfault).2.2
  refine ⟨⟨_, Prod.ext hok rfl, hfound.shown ⟨.security, true⟩ rfl, ?_⟩, Prod.ext hfault hkept⟩
  exact (hfound.otherSpace .system (by decide)).trans hbefore

end Store

end AccessControl
