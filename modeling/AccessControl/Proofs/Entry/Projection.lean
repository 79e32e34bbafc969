/-
  AccessControl/Proofs/Entry/Projection.lean
  ==========================================
  **Building is a projection onto canonical entries.**

  A principal leaves open only some of the flags of its entry: those that are
  shown, and for an id whether it is a group's.  Flags settle alike exactly if
  they agree in these (`settle_eq_iff`).  So an entry is known by its type, its
  mask, its principal and these flags (`eq_iff`), and a written form that keeps
  them loses nothing.  An entry is its own canonical form, for each kind of object
  that it fits (`build_own_iff`).
-/
import AccessControl.Proofs.Entry.Canonical

namespace AccessControl

/-! ### What settles alike -/

namespace EntryFlags

variable {p : Principal} {flags other : EntryFlags}

/-- The flags agree in what the principal leaves open: in those that are shown, and
    for an id in whether it is a group's. -/
structure AgreeFor (p : Principal) (flags other : EntryFlags) : Prop where
  shown : ∀ name ∈ EntryFlag.shown, flags.has name = other.has name
  group : p.isWellKnown = false → flags.has .identifierGroup = other.has .identifierGroup

theorem has_kept_iff (p : Principal) (name : EntryFlag) : (kept p).has name ↔
    name ∈ EntryFlag.shown ∨ p.isWellKnown = false ∧ name = .identifierGroup := by
  cases p <;> simp [kept, EntryFlags.shown, identifierGroup, Principal.isWellKnown]

/-- What is kept as it is given is never forced. -/
theorem has_forced_of_kept {name : EntryFlag} (hkept : (kept p).has name) :
    (forced p).has name = false := by
  cases p <;> cases name <;> revert hkept <;>
    simp [kept, forced, EntryFlags.shown, EntryFlag.shown, identifierGroup, Principal.marker]

theorem agreeFor_iff : AgreeFor p flags other ↔
    ∀ name, (kept p).has name → flags.has name = other.has name := by
  constructor
  · intro hagree name hkept
    rcases (has_kept_iff p name).1 hkept with hshown | ⟨hnamed, rfl⟩
    · exact hagree.shown name hshown
    · exact hagree.group hnamed
  · intro hagree
    exact ⟨fun name hshown => hagree name ((has_kept_iff p name).2 (.inl hshown)),
      fun hnamed => hagree _ ((has_kept_iff p _).2 (.inr ⟨hnamed, rfl⟩))⟩

theorem settle_eq_iff : flags.settle p = other.settle p ↔ AgreeFor p flags other := by
  rw [agreeFor_iff]
  constructor
  · intro hsettle name hkept
    have hname := congrArg (·.has name) hsettle
    simpa [has_settle, hkept, has_forced_of_kept hkept] using hname
  · intro hagree
    refine Flags.eq_of_has (settle_inter_all p flags) (settle_inter_all p other) fun name => ?_
    rw [has_settle, has_settle]
    by_cases hkept : (kept p).has name
    · rw [hagree name hkept]
    · simp [hkept]

end EntryFlags

/-! ### Entries -/

namespace Entry

variable {kind : ObjectKind} {type : EntryType} {flags : EntryFlags} {mask : Rights}
  {p : Principal} {e : Entry}

theorem eq_iff (a b : Entry) : a = b ↔ a.type = b.type ∧ a.mask = b.mask ∧
    a.principal = b.principal ∧ EntryFlags.AgreeFor a.principal a.flags b.flags := by
  constructor
  · rintro rfl
    exact ⟨rfl, rfl, rfl, EntryFlags.settle_eq_iff.1 rfl⟩
  · rintro ⟨htype, hmask, hp, hagree⟩
    have hflags : a.flags = b.flags := calc
      a.flags = a.flags.settle a.principal := a.flags_settled.symm
      _ = b.flags.settle a.principal := EntryFlags.settle_eq_iff.2 hagree
      _ = b.flags := by rw [hp, b.flags_settled]
    exact ext_fields htype hflags hmask hp

/-- An entry is built anew from its own parts for the kinds that it fits, and for no
    other. -/
theorem build_own_iff : build kind e.type e.flags e.mask e.principal = .ok e ↔ e.fits kind :=
  ⟨fits_of_build, build_self⟩

/-- Of what a directory is given, a file holds just what it would have been given. -/
theorem fits_file_iff (hbuilt : build .directory type flags mask p = .ok e) :
    e.fits .file ↔ build .file type flags mask p = .ok e := by
  refine ⟨fun hfits => ?_, fits_of_build⟩
  obtain ⟨-, hvalid, htype, hsettled, hmask, hp⟩ := build_eq_ok_iff.1 hbuilt
  have hflags : flags.meets EntryFlags.directoryOnly = false := by
    rw [← EntryFlags.meets_directoryOnly_settle p flags, ← hsettled]
    exact (fits_iff.1 hfits rfl).1
  have hgiven : e.mask = mask.givenBy .file := calc
    e.mask = e.mask.givenBy .file := (mask_givenBy hfits).symm
    _ = mask.givenBy .file := by rw [hmask, Rights.givenBy_file_givenBy]
  exact build_eq_ok_iff.2 ⟨fun _ => hflags, hvalid, htype, hsettled, hgiven, hp⟩

/-- **Building is a projection onto canonical entries.**  What is built fits the kind
    of object that it was built for, and building it anew gives it back for just the
    kinds that it fits.  What is built for a directory fits a file exactly if the same
    is built for a file.  Two entries are equal exactly if they agree in type, mask,
    principal, shown flags and, for an id, whether it is a group's, and an entry is
    built anew from any flags that agree with its own so far. -/
theorem build_projects (hbuilt : build kind type flags mask p = .ok e) :
    e.fits kind ∧
    (∀ other, build other e.type e.flags e.mask e.principal = .ok e ↔ e.fits other) ∧
    (kind = .directory → (e.fits .file ↔ build .file type flags mask p = .ok e)) ∧
    (∀ other : Entry, e = other ↔
      e.type = other.type ∧ e.mask = other.mask ∧ e.principal = other.principal ∧
        (∀ flag ∈ EntryFlag.shown, e.flags.has flag = other.flags.has flag) ∧
        (e.principal.isWellKnown = false → e.isGroup = other.isGroup)) ∧
    (∀ other written, e.fits other → EntryFlags.AgreeFor e.principal written e.flags →
      build other e.type written e.mask e.principal = .ok e) := by
  refine ⟨fits_of_build hbuilt, fun other => build_own_iff, ?_, fun other => ?_, ?_⟩
  · rintro rfl
    exact fits_file_iff hbuilt
  · rw [eq_iff]
    constructor
    · rintro ⟨htype, hmask, hp, hagree⟩
      exact ⟨htype, hmask, hp, hagree.shown, hagree.group⟩
    · rintro ⟨htype, hmask, hp, hshown, hgroup⟩
      exact ⟨htype, hmask, hp, hshown, hgroup⟩
  · intro other written hfits hagree
    exact build_of_settle hfits ((EntryFlags.settle_eq_iff.2 hagree).trans e.flags_settled)

/-- Bits without a meaning and the marks of others are gone from an entry for the
    group, which a file holds as well, and which the shown flags alone bring back. -/
theorem build_projects_stray_bits :
    let e : Entry := ⟨.audit, ⟨0x20F0#32⟩, ⟨0x181#32⟩, .group, by decide, by decide, trivial⟩
    build .directory .audit ⟨0x8000D0B0#32⟩ ⟨0xFFE00181#32⟩ .group = .ok e ∧
      build .file .audit ⟨0x8000D0B0#32⟩ ⟨0xFFE00181#32⟩ .group = .ok e ∧
      build .file .audit ⟨0xB0#32⟩ e.mask .group = .ok e := by
  intro e
  have hbuilt : build .directory .audit ⟨0x8000D0B0#32⟩ ⟨0xFFE00181#32⟩ .group = .ok e :=
    build_eq_ok_iff.2 ⟨nofun, trivial, rfl, by decide, by decide, rfl⟩
  have hfits : e.fits .file := by decide
  obtain ⟨-, -, hfile, -, hwritten⟩ := build_projects hbuilt
  refine ⟨hbuilt, (hfile rfl).1 hfits, hwritten .file ⟨0xB0#32⟩ hfits ⟨?_, ?_⟩⟩ <;> decide

end Entry

end AccessControl
