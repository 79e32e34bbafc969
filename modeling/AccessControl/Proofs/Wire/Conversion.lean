/-
  AccessControl/Proofs/Wire/Conversion.lean
  =========================================
  **A payload read for an object of another kind.**

  A payload says nothing about the kind of object it was written for.  Read for a
  directory it gives the same entries, and read for a file it gives them without
  the right to remove children, unless one of them has a flag that files do not
  know (`decode_as_eq_ok_iff`).
-/
import AccessControl.Proofs.Wire.Acceptance

namespace AccessControl

namespace Entry

variable {kind : ObjectKind} {e : Entry}

/-- The entry as an object of a kind holds it: a file does not give the right to
    remove children. -/
def heldBy (kind : ObjectKind) (e : Entry) : Entry :=
  { e with
    mask := match kind with
      | .directory => e.mask
      | .file => e.mask \ Rights.deleteChild
    mask_defined := by
      cases kind with
      | directory => exact e.mask_defined
      | file =>
        have hfile := Rights.givenBy_inter_full .file e.mask
        rwa [Rights.givenBy, e.mask_defined] at hfile }

theorem mask_heldBy (kind : ObjectKind) (e : Entry) :
    (e.heldBy kind).mask = e.mask.givenBy kind := by
  cases kind with
  | directory => exact e.mask_defined.symm
  | file => rw [Rights.givenBy, e.mask_defined, heldBy]

theorem heldBy_eq_self (hfits : e.fits kind) : e.heldBy kind = e := by
  have hmask : (e.heldBy kind).mask = e.mask := (mask_heldBy kind e).trans (mask_givenBy hfits)
  exact ext_fields rfl rfl hmask rfl

/-- What an entry becomes when it is built anew for an object of a kind. -/
theorem build_heldBy (hflags : kind = .file → e.flags.meets EntryFlags.directoryOnly = false) :
    build kind e.type e.flags e.mask e.principal = .ok (e.heldBy kind) := by
  rw [build_eq_ok_iff]
  exact ⟨hflags, e.principal_valid, rfl, e.flags_settled.symm, mask_heldBy kind e, rfl⟩

end Entry

/-- The list as an object of another kind holds it, if that knows its flags. -/
def AccessList.heldBy (kind : ObjectKind) (list : AccessList)
    (hflags : kind = .file → ∀ e ∈ list.entries, e.flags.meets EntryFlags.directoryOnly = false) :
    AccessList where
  kind
  flags := list.flags
  entries := list.entries.map (Entry.heldBy kind)
  all_fit := by
    intro held hmem
    obtain ⟨e, he, rfl⟩ := List.mem_map.1 hmem
    exact Entry.fits_of_build (Entry.build_heldBy fun hfile => hflags hfile e he)

namespace Wire

variable {list read : AccessList} {kind : ObjectKind} {payload : List UInt8}

theorem encode_eq_ok_iff : (encode list).result = .ok payload ↔
    list.size ≤ maxEntries ∧ (payloadWords list).flatMap Word.bytes = payload := by
  by_cases hsize : list.size ≤ maxEntries
  · rw [encode_of_size hsize, Except.ok.injEq]
    simp [hsize]
  · rw [encode_tooMany (Nat.lt_of_not_le hsize)]
    simp [hsize]

theorem decode_of_encode (hencode : (encode list).result = .ok payload) :
    (decode list.kind payload).result = .ok list := by
  obtain ⟨hsize, rfl⟩ := encode_eq_ok_iff.1 hencode
  exact decode_payload hsize

theorem kind_and_size_of_decode (hread : (decode kind payload).result = .ok list) :
    list.kind = kind ∧ list.size ≤ maxEntries := by
  obtain ⟨count, hpayload⟩ := exists_decode_iff.1 ⟨list, hread⟩
  obtain ⟨hcount, -⟩ := entries_of_decode hpayload hread
  obtain ⟨hkind, -⟩ := (decode_eq_ok_iff hpayload.size hpayload.count_le hpayload.declared).1 hread
  exact ⟨hkind, hcount.symm ▸ hpayload.count_le⟩

/-- For what kinds of object a payload is read, and as what. -/
theorem decode_as_eq_ok_iff (hencode : (encode list).result = .ok payload) :
    (decode kind payload).result = .ok read ↔
      (kind = .file → ∀ e ∈ list.entries, e.flags.meets EntryFlags.directoryOnly = false) ∧
        read.kind = kind ∧ read.flags = list.flags ∧
        read.entries = list.entries.map (Entry.heldBy kind) := by
  obtain ⟨hsize, rfl⟩ := encode_eq_ok_iff.1 hencode
  rw [decode_payload_eq_ok_iff hsize]
  simp only [Record.entry_ofEntry_eq_build]
  have hbuilt : (kind = .file → ∀ e ∈ list.entries,
      e.flags.meets EntryFlags.directoryOnly = false) →
      list.entries.map (fun e => Entry.build kind e.type e.flags e.mask e.principal) =
        (list.entries.map (Entry.heldBy kind)).map .ok := by
    intro hflags
    rw [List.map_map]
    apply List.map_congr_left
    intro e hmem
    exact Entry.build_heldBy fun hfile => hflags hfile e hmem
  constructor
  · rintro ⟨hkind, hlistFlags, hentries⟩
    have hflags : kind = .file → ∀ e ∈ list.entries,
        e.flags.meets EntryFlags.directoryOnly = false := by
      intro hfile e hmem
      have hok : Entry.build kind e.type e.flags e.mask e.principal ∈
          read.entries.map (Except.ok (ε := Fault)) := by
        rw [← hentries]
        exact List.mem_map_of_mem hmem
      obtain ⟨built, -, hbuild⟩ := List.mem_map.1 hok
      exact (Entry.build_eq_ok_iff.1 hbuild.symm).1 hfile
    refine ⟨hflags, hkind, hlistFlags, ?_⟩
    rw [hbuilt hflags] at hentries
    exact ((List.map_inj_right fun _ _ => Except.ok.inj).1 hentries).symm
  · rintro ⟨hflags, hkind, hlistFlags, hentries⟩
    rw [hentries]
    exact ⟨hkind, hlistFlags, hbuilt hflags⟩

end Wire

end AccessControl
