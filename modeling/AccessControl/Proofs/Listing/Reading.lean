/-
  AccessControl/Proofs/Listing/Reading.lean
  =========================================
  **What a line and a specification are read as.**

  Each step of reading is described by one equivalence.  A line that is no remark
  is read as an entry exactly if its layout is (`parseChars_eq_some_iff`), and a
  layout exactly if each of its fields is and the entry can be built
  (`Layout.exists_entry_eq_ok_iff`); only this last step looks at the kind of object.
  A specification is read as the entries of its tokens, remarks aside
  (`entries_eq_ok_iff`).
-/
import AccessControl.Listing.Spec
import AccessControl.Proofs.Outcome
import Mathlib.Data.List.Forall2

namespace AccessControl.Listing

variable {kind : ObjectKind} {names : NameService} {line : List Char} {layout : Layout} {e : Entry}
  {texts : List (List Char)} {spec : String} {es : List Entry}

/-! ### Lines -/

/-- The line holds no entry: there is nothing on it, or a comment. -/
def IsRemark (line : List Char) : Prop :=
  Text.trim line = [] ∨ (Text.trim line).head? = some '#'

instance (line : List Char) : Decidable (IsRemark line) := by
  unfold IsRemark
  infer_instance

theorem parseChars_remark (hremark : IsRemark line) :
    (parseChars kind names line).result = .ok none := by
  unfold IsRemark at hremark
  simp only [parseChars, if_pos hremark, Attempt.result_pure]

/-- A line that is no remark is never read as one. -/
theorem parseChars_entry (hentry : ¬ IsRemark line) :
    (parseChars kind names line).result = (do
      let layout ← (Layout.ofLine (Text.trim line)).mapError Fault.malformed
      let (e, _, _) ← layout.entry kind names
      return some e) := by
  unfold IsRemark at hentry
  simp only [parseChars, if_neg hentry, Attempt.result_bind, Attempt.result_silent,
    Attempt.result_lift, Attempt.result_pure, ok_bind]
  rfl

theorem parseChars_eq_some_iff : (parseChars kind names line).result = .ok (some e) ↔
    ¬ IsRemark line ∧ ∃ layout, Layout.ofLine (Text.trim line) = .ok layout ∧
      ∃ compact, layout.entry kind names = .ok (e, compact) := by
  by_cases hremark : IsRemark line
  · rw [parseChars_remark hremark]
    exact ⟨nofun, fun h => absurd hremark h.1⟩
  · rw [parseChars_entry hremark, bind_eq_ok_iff]
    simp only [bind_eq_ok_iff, mapError_eq_ok_iff]
    constructor
    · rintro ⟨layout, hlayout, ⟨e', compact⟩, hread, hsame⟩
      cases hsame
      exact ⟨hremark, layout, hlayout, compact, hread⟩
    · rintro ⟨-, layout, hlayout, compact, hread⟩
      exact ⟨layout, hlayout, (e, compact), hread, rfl⟩

theorem parseChars_eq_none_iff :
    (parseChars kind names line).result = .ok none ↔ IsRemark line := by
  refine ⟨fun hok => ?_, parseChars_remark⟩
  by_contra hentry
  rw [parseChars_entry hentry, bind_eq_ok_iff] at hok
  obtain ⟨layout, -, hok⟩ := hok
  obtain ⟨⟨e, compact⟩, -, hsame⟩ := bind_eq_ok_iff.1 hok
  cases hsame

/-! ### Layouts -/

/-- The fields of a layout, each read by itself. -/
structure Layout.Reads (names : NameService) (layout : Layout) (type : EntryType)
    (flags : EntryFlags) (mask : Rights) (principal : Principal) : Prop where
  mask : ∃ compact, Vocabulary.rights.read layout.permissions = .ok (mask, compact)
  flags : ∃ compact, layout.flagBits = .ok (flags, compact)
  type : EntryType.ofWord? layout.type = some type
  principal : ∃ appended, layout.appended = .ok appended ∧
    layout.principal names appended = .ok principal

/-- Reading a layout is reading its fields, and then building the entry. -/
theorem Layout.exists_entry_eq_ok_iff :
    (∃ compact, layout.entry kind names = .ok (e, compact)) ↔
      ∃ type flags mask principal, layout.Reads names type flags mask principal ∧
        Entry.build kind type (flags ∪ layout.subjectFlags) mask principal = .ok e := by
  constructor
  · rintro ⟨compact, hok⟩
    rw [Layout.entry, bind_eq_ok_iff] at hok
    obtain ⟨⟨mask, compactRights⟩, hmask, hok⟩ := hok
    obtain ⟨⟨flags, compactFlags⟩, hflags, hok⟩ := bind_eq_ok_iff.1 hok
    rw [mapError_eq_ok_iff] at hmask hflags
    cases htype : EntryType.ofWord? layout.type with
    | none =>
      simp only [htype] at hok
      cases hok
    | some type =>
      simp only [htype, pure_bind] at hok
      obtain ⟨appended, happended, hok⟩ := bind_eq_ok_iff.1 hok
      obtain ⟨principal, hprincipal, hok⟩ := bind_eq_ok_iff.1 hok
      obtain ⟨e', hbuild, hsame⟩ := bind_eq_ok_iff.1 hok
      cases hsame
      exact ⟨type, flags, mask, principal, ⟨⟨_, hmask⟩, ⟨_, hflags⟩, htype,
        appended, mapError_eq_ok_iff.1 happended, hprincipal⟩, hbuild⟩
  · rintro ⟨type, flags, mask, principal, ⟨⟨compactRights, hmask⟩, ⟨compactFlags, hflags⟩, htype,
      appended, happended, hprincipal⟩, hbuild⟩
    refine ⟨(compactRights, compactFlags), ?_⟩
    rw [Layout.entry, hmask, hflags, happended]
    simp only [htype]
    show (layout.principal names appended >>= fun principal => _) = _
    rw [hprincipal, ok_bind, hbuild]
    rfl

/-! ### Specifications -/

/-- The tokens that hold an entry. -/
def entryTokens (texts : List (List Char)) : List (List Char) := texts.filter (¬ IsRemark ·)

theorem tokenEntries_eq_ok_iff : (tokenEntries kind names texts).result = .ok es ↔
    List.Forall₂ (fun text e => (parseChars kind names text).result = .ok (some e))
      (entryTokens texts) es := by
  unfold entryTokens
  induction texts generalizing es with
  | nil => simp [tokenEntries, eq_comm]
  | cons text texts ih =>
    rw [tokenEntries, Attempt.result_bind, bind_eq_ok_iff]
    simp only [Attempt.result_bind, Attempt.result_pure, bind_eq_ok_iff, ih]
    by_cases hremark : IsRemark text
    · rw [List.filter_cons_of_neg (by simpa using hremark)]
      simp [parseChars_remark hremark]
    · rw [List.filter_cons_of_pos (by simpa using hremark), List.forall₂_cons_left_iff]
      constructor
      · rintro ⟨found, hfound, rest, hrest, hes⟩
        cases found with
        | none => exact absurd (parseChars_eq_none_iff.1 hfound) hremark
        | some e =>
          cases hes
          exact ⟨e, rest, hfound, hrest, rfl⟩
      · rintro ⟨e, rest, hfound, hrest, rfl⟩
        exact ⟨some e, hfound, rest, hrest, rfl⟩

/-- A specification is read as the entries of its tokens; if it has tokens, there
    has to be an entry. -/
theorem entries_eq_ok_iff : (entries kind names spec).result = .ok es ↔
    List.Forall₂ (fun text e => (parseChars kind names text).result = .ok (some e))
      (entryTokens (tokens spec.toList)) es ∧ (tokens spec.toList ≠ [] → es ≠ []) := by
  rw [entries, Attempt.result_bind, bind_eq_ok_iff]
  simp only [Attempt.result_bind, Attempt.result_lift, ok_bind, tokenEntries_eq_ok_iff]
  constructor
  · rintro ⟨found, hfound, hok⟩
    split at hok
    · nomatch hok
    next hsome =>
      cases hok
      exact ⟨hfound, fun htokens hnil => hsome ⟨htokens, hnil⟩⟩
  · rintro ⟨hfound, hsome⟩
    refine ⟨es, hfound, ?_⟩
    rw [if_neg fun h => hsome h.1 h.2]
    rfl

end AccessControl.Listing
