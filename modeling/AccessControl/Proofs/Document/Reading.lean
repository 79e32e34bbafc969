/-
  AccessControl/Proofs/Document/Reading.lean
  ==========================================
  **What an element and a document are read as.**

  An element is read as an entry exactly if each of its members is read and the
  entry can be built (`decodeEntry_eq_ok_iff`); only the last step looks at the
  kind of object.  A document is read as a list exactly if the flags of the list
  are in order and each element is read as the entry at its place
  (`decode_eq_ok_iff`).
-/
import AccessControl.Proofs.Document.Reports

namespace AccessControl.Document

variable {kind : ObjectKind} {names : NameService} {document value : Json}
  {entry members : Members} {items : List Json} {e : Entry} {list : AccessList}

/-! ### Elements -/

/-- The members of an entry, each read by itself. -/
structure MembersRead (names : NameService) (entry : Members) (type : EntryType)
    (flags : EntryFlags) (mask : Rights) (principal : Principal) (isGroup : Bool) : Prop where
  type : decodeType entry = .ok type
  mask : decodeSet Keys.rights entry = .ok mask
  flags : decodeSet Keys.flags entry = .ok flags
  principal : decodePrincipal names entry = .ok (principal, isGroup)

/-- The flags of a member, with the one that the tag of a group adds. -/
def withGroup (isGroup : Bool) (flags : EntryFlags) : EntryFlags :=
  if isGroup then flags ∪ EntryFlags.identifierGroup else flags

theorem decodeEntry_eq_ok_iff : decodeEntry kind names value = .ok e ↔
    ∃ entry type flags mask principal isGroup, value = .object entry ∧
      MembersRead names entry type flags mask principal isGroup ∧
      Entry.build kind type (withGroup isGroup flags) mask principal = .ok e := by
  constructor
  · intro hok
    unfold decodeEntry at hok
    split at hok
    · nomatch hok
    next entry hmembers =>
      unfold decodeMembers at hok
      dsimp only at hok
      split at hok
      next type mask flags principal isGroup htype hmask hflags hprincipal =>
        exact ⟨entry, type, flags, mask, principal, isGroup, Json.members?_eq_some_iff.1 hmembers,
          ⟨htype, hmask, hflags, hprincipal⟩, mapError_eq_ok_iff.1 hok⟩
      next => nomatch hok
  · rintro ⟨entry, type, flags, mask, principal, isGroup, rfl,
      ⟨htype, hmask, hflags, hprincipal⟩, hbuild⟩
    show decodeMembers kind names entry = .ok e
    unfold decodeMembers
    simp only [htype, hmask, hflags, hprincipal]
    exact mapError_eq_ok_iff.2 hbuild

/-! ### Documents -/

theorem forall₂_decoded_iff {es : List Entry} :
    List.Forall₂ (fun value e => decodeEntry kind names value = .ok e) items es ↔
      (∀ value ∈ items, ∃ e, decodeEntry kind names value = .ok e) ∧
        es = items.filterMap (decoded? kind names) := by
  induction items generalizing es with
  | nil => simp [eq_comm]
  | cons value rest ih =>
    rw [List.forall₂_cons_left_iff, List.forall_mem_cons]
    constructor
    · rintro ⟨e, es, hvalue, hrest, rfl⟩
      obtain ⟨hread, rfl⟩ := ih.1 hrest
      have hdecoded : decoded? kind names value = some e := toOption_eq_some_iff.2 hvalue
      rw [List.filterMap_cons_some hdecoded]
      exact ⟨⟨⟨e, hvalue⟩, hread⟩, rfl⟩
    · rintro ⟨⟨⟨e, hvalue⟩, hread⟩, rfl⟩
      have hdecoded : decoded? kind names value = some e := toOption_eq_some_iff.2 hvalue
      exact ⟨e, _, hvalue, ih.2 ⟨hread, rfl⟩, List.filterMap_cons_some hdecoded⟩

theorem elementIssues_eq_nil_iff {index : Nat} : elementIssues kind names index value = [] ↔
    ∃ e, decodeEntry kind names value = .ok e := by
  constructor
  · intro hclear
    obtain ⟨e, hdecoded⟩ := decoded?_of_elementIssues hclear
    exact ⟨e, toOption_eq_some_iff.1 hdecoded⟩
  · rintro ⟨e, hok⟩
    rw [elementIssues, hok]

/-- A document that can be looked into is read element by element. -/
theorem decode_eq_ok_iff (hholds : Holds document members items) :
    (decode kind names document).result = .ok list ↔
      ListFlagsInOrder members ∧ list.kind = kind ∧ list.flags = (decodeListFlags members).1 ∧
        List.Forall₂ (fun value e => decodeEntry kind names value = .ok e) items list.entries := by
  have hclear : documentIssues kind names members items = [] ↔
      (∀ value ∈ items, ∃ e, decodeEntry kind names value = .ok e) ∧ ListFlagsInOrder members := by
    rw [documentIssues_eq_nil_iff]
    refine and_congr_left fun _ => ?_
    simp only [elementIssues_eq_nil_iff]
    constructor
    · intro hread value hmem
      obtain ⟨index, hindex⟩ := List.getElem?_of_mem hmem
      exact hread index value hindex
    · intro hread index value hindex
      exact hread value (List.mem_of_getElem? hindex)
  rw [result_decode_of_holds hholds, forall₂_decoded_iff]
  split_ifs with hissues
  · obtain ⟨hread, hflags⟩ := hclear.1 hissues
    rw [Except.ok.injEq]
    constructor
    · rintro rfl
      exact ⟨hflags, rfl, rfl, hread, rfl⟩
    · rintro ⟨-, hkind, hlistFlags, -, hentries⟩
      exact AccessList.ext_parts hkind.symm hlistFlags.symm hentries.symm
  · constructor
    · intro hok
      cases hok
    · rintro ⟨hflags, -, -, hread, -⟩
      exact absurd (hclear.2 ⟨hread, hflags⟩) hissues

theorem not_ok_of_not_holds (hlacks : ¬ ∃ members items, Holds document members items) :
    (decode kind names document).result ≠ .ok list := by
  intro hok
  obtain ⟨cause, herror⟩ := result_decode_of_not_holds hlacks
  rw [herror] at hok
  nomatch hok

end AccessControl.Document
