/-
  AccessControl/Proofs/Entry/Canonical.lean
  =========================================
  **What building an entry keeps, and what it settles.**

  Building keeps the flags in `EntryFlags.kept`, which depend on the principal,
  and forces those in `EntryFlags.forced` (`settle_eq`).  Hence an entry is
  rebuilt from any flags that agree with its own on the kept ones
  (`build_of_settle`), and from its own (`build_self`), for every kind of object
  that it fits.  What is built fits the kind that it was built for
  (`fits_of_build`).
-/
import AccessControl.Entry.Basic
import AccessControl.Proofs.Bits

namespace AccessControl

/-! ### Ids -/

namespace Principal

theorem toInt_ofNat {n : Nat} (hn : n ≤ maxId) : (Int32.ofNat n).toInt = n :=
  Int32.toInt_ofNat_of_lt (by unfold maxId at hn; omega)

theorem valid_ofNat {n : Nat} (hn : n ≤ maxId) : (named (Int32.ofNat n)).Valid := by
  show 0 ≤ Int32.ofNat n
  rw [Int32.le_iff_toInt_le, toInt_ofNat hn]
  exact Int.natCast_nonneg n

theorem valid_ofInt {n : Int} (hpos : 0 ≤ n) (hle : n ≤ maxId) : (named (Int32.ofInt n)).Valid := by
  unfold maxId at hle
  show 0 ≤ Int32.ofInt n
  rw [Int32.le_iff_toInt_le, Int32.toInt_ofInt_of_le (by omega) (by omega)]
  exact hpos

theorem exists_ofNat_of_valid {id : Int32} (hvalid : (named id).Valid) :
    ∃ n, n ≤ maxId ∧ id = Int32.ofNat n := by
  refine ⟨id.toNatClampNeg, ?_, (Int32.ofNat_toNatClampNeg id hvalid).symm⟩
  have hlt := id.toNatClampNeg_lt
  unfold maxId
  omega

end Principal

/-! ### Flags -/

namespace EntryFlags

/-- The flags that an entry for a principal takes over as they are given. -/
def kept : Principal → EntryFlags
  | .named _ => shown ∪ identifierGroup
  | _ => shown

/-- The flags that an entry for a principal always has. -/
def forced : Principal → EntryFlags
  | .group => identifierGroup ∪ Principal.group.marker
  | p => p.marker

theorem settle_eq (p : Principal) (flags : EntryFlags) :
    flags.settle p = (flags ∩ kept p) ∪ forced p := by
  apply Flags.ext_word
  apply BitVec.eq_of_getLsbD_eq
  intro i hi
  have hall : (Flags.all : EntryFlags).word = 0x70FF#32 := word_all
  have hmarkers : markers.word = 0x7000#32 := word_markers
  have hshown : shown.word = 0xBF#32 := word_shown
  have hgroup : identifierGroup.word = 0x40#32 := by decide
  have howner : (Principal.marker .owner).word = 0x1000#32 := by decide
  have hgroupMark : (Principal.marker .group).word = 0x2000#32 := by decide
  have heveryone : (Principal.marker .everyone).word = 0x4000#32 := by decide
  have hnamed : ∀ id, (Principal.marker (.named id)).word = 0#32 := fun _ => rfl
  cases p <;>
    simp only [settle, kept, forced, Flags.word_union, Flags.word_sdiff, Flags.word_inter, hall,
      hmarkers, hshown, hgroup, howner, hgroupMark, heveryone, hnamed, BitVec.getLsbD_or,
      BitVec.getLsbD_and, BitVec.getLsbD_not] <;>
    cases flags.word.getLsbD i <;> (revert i; decide)

/-- What is kept of the flags decides how they settle. -/
theorem settle_congr {p : Principal} {flags other : EntryFlags}
    (hkept : flags ∩ kept p = other ∩ kept p) : flags.settle p = other.settle p := by
  rw [settle_eq, settle_eq, hkept]

theorem has_settle (p : Principal) (flags : EntryFlags) (name : EntryFlag) :
    (flags.settle p).has name = (flags.has name && (kept p).has name || (forced p).has name) := by
  rw [settle_eq, Flags.has_union, Flags.has_inter]

/-- Settling does not touch the flags that only directories know. -/
theorem meets_directoryOnly_settle (p : Principal) (flags : EntryFlags) :
    (flags.settle p).meets directoryOnly = flags.meets directoryOnly := by
  simp only [directoryOnly, Flags.meets_of, List.any_cons, List.any_nil, has_settle]
  cases p <;> simp [kept, forced, shown, identifierGroup, EntryFlag.shown, Principal.marker]

/-- What settles is not shown. -/
theorem settle_inter_shown (p : Principal) (flags : EntryFlags) :
    flags.settle p ∩ shown = flags ∩ shown := by
  refine Flags.eq_of_has (Flags.inter_inter_all (Flags.of_inter_all _))
    (Flags.inter_inter_all (Flags.of_inter_all _)) fun name => ?_
  rw [Flags.has_inter, Flags.has_inter, has_settle]
  cases p <;> cases name <;> simp [kept, forced, shown, identifierGroup, EntryFlag.shown,
    Principal.marker]

theorem kept_inter_all (p : Principal) : kept p ∩ Flags.all = kept p := by
  cases p with
  | named id =>
    exact Flags.union_inter_all (Flags.of_inter_all _) (Flags.of_inter_all _)
  | owner | group | everyone => exact Flags.of_inter_all _

theorem forced_inter_all (p : Principal) : forced p ∩ Flags.all = forced p := by
  cases p with
  | group => exact Flags.union_inter_all (Flags.of_inter_all _) (Flags.of_inter_all _)
  | owner | everyone => exact Flags.of_inter_all _
  | named id => exact Flags.of_inter_all []

/-- Settled flags are known ones. -/
theorem settle_inter_all (p : Principal) (flags : EntryFlags) :
    flags.settle p ∩ Flags.all = flags.settle p := by
  rw [settle_eq]
  exact Flags.union_inter_all (Flags.inter_inter_all (kept_inter_all p)) (forced_inter_all p)

end EntryFlags

/-! ### Building -/

namespace Rights

theorem has_givenBy (kind : ObjectKind) (mask : Rights) (right : Right) :
    (mask.givenBy kind).has right =
      (mask.has right && !decide (kind = .file ∧ right = .deleteChild)) := by
  have hfull : full.has right = true := Flags.has_all right
  cases kind <;> simp [givenBy, deleteChild, hfull]

/-- What a file gives of a mask, it gives of what a directory gives. -/
theorem givenBy_file_givenBy (mask : Rights) :
    (mask.givenBy .directory).givenBy .file = mask.givenBy .file := by
  rw [givenBy, givenBy, givenBy, Flags.inter_inter_self]

/-- A mask of known rights is given as it is, if the kind of object can give it. -/
theorem givenBy_eq_self {kind : ObjectKind} {mask : Rights} (hmask : mask ∩ full = mask)
    (hchild : kind = .file → mask.has .deleteChild = false) : mask.givenBy kind = mask := by
  refine Flags.eq_of_has (givenBy_inter_full kind mask) hmask fun right => ?_
  rw [has_givenBy]
  cases kind with
  | directory => simp
  | file =>
    by_cases hright : right = .deleteChild
    · simp [hright, hchild rfl]
    · simp [hright]

end Rights

namespace Entry

variable {kind : ObjectKind} {type : EntryType} {flags : EntryFlags} {mask : Rights}
  {p : Principal} {e : Entry}

theorem fits_iff : e.fits kind ↔
    (kind = .file → e.flags.meets EntryFlags.directoryOnly = false ∧
      e.mask.has .deleteChild = false) := by
  cases kind <;> simp [fits, ObjectKind.isDirectory]

/-- When building succeeds, and with what. -/
theorem build_eq_ok_iff : build kind type flags mask p = .ok e ↔
    (kind = .file → flags.meets EntryFlags.directoryOnly = false) ∧ p.Valid ∧
      e.type = type ∧ e.flags = flags.settle p ∧ e.mask = mask.givenBy kind ∧ e.principal = p := by
  unfold build
  split
  case isTrue hbad =>
    have hfile := hbad.1
    have hmeets := hbad.2
    simp [hfile, hmeets]
  case isFalse hgood =>
    have hflags : kind = .file → flags.meets EntryFlags.directoryOnly = false := by
      intro hfile
      simpa [hfile] using hgood
    split
    case isTrue hvalid =>
      constructor
      · intro hbuilt
        cases hbuilt
        exact ⟨hflags, hvalid, rfl, rfl, rfl, rfl⟩
      · rintro ⟨-, -, htype, hsettled, hmask, hp⟩
        exact congrArg Except.ok (ext_fields htype.symm hsettled.symm hmask.symm hp.symm)
    case isFalse hinvalid =>
      simp [hinvalid]

theorem exists_build_error_iff : (∃ fault, build kind type flags mask p = .error fault) ↔
    (kind = .file ∧ flags.meets EntryFlags.directoryOnly) ∨ ¬ p.Valid := by
  rw [build]
  split
  case isTrue hbad =>
    simp [hbad]
  case isFalse hgood =>
    split
    case isTrue hvalid => simp [hgood, hvalid]
    case isFalse hinvalid => simp [hinvalid]

/-- The fault of flags that the kind of object does not know comes first. -/
theorem build_directoryOnly (hmeets : flags.meets EntryFlags.directoryOnly) :
    build .file type flags mask p = .error (.directoryOnlyFlags flags) := by
  simp [build, hmeets]

/-- What is built for one principal is built for every other that is valid. -/
theorem exists_build_of_build {other : Principal} (hbuilt : build kind type flags mask p = .ok e)
    (hvalid : other.Valid) : ∃ e, build kind type flags mask other = .ok e := by
  have hgood : ¬ (kind = .file ∧ flags.meets EntryFlags.directoryOnly) := by
    rintro ⟨hfile, hmeets⟩
    rw [(build_eq_ok_iff.1 hbuilt).1 hfile] at hmeets
    cases hmeets
  rw [build, if_neg hgood, dif_pos hvalid]
  exact ⟨_, rfl⟩

theorem fits_of_build (hbuilt : build kind type flags mask p = .ok e) : e.fits kind := by
  obtain ⟨hflags, -, -, hsettled, hmask, -⟩ := build_eq_ok_iff.1 hbuilt
  rw [fits_iff]
  intro hfile
  rw [hsettled, EntryFlags.meets_directoryOnly_settle, hmask, Rights.has_givenBy, hfile]
  exact ⟨hflags hfile, by simp⟩

theorem mask_givenBy (hfits : e.fits kind) : e.mask.givenBy kind = e.mask :=
  Rights.givenBy_eq_self e.mask_defined fun hfile => (fits_iff.1 hfits hfile).2

/-- An entry is rebuilt from all flags that settle to its own. -/
theorem build_of_settle (hfits : e.fits kind) (hsettle : flags.settle e.principal = e.flags) :
    build kind e.type flags e.mask e.principal = .ok e := by
  refine build_eq_ok_iff.2
    ⟨?_, e.principal_valid, rfl, hsettle.symm, (mask_givenBy hfits).symm, rfl⟩
  intro hfile
  rw [← EntryFlags.meets_directoryOnly_settle e.principal flags, hsettle]
  exact (fits_iff.1 hfits hfile).1

theorem build_self (hfits : e.fits kind) :
    build kind e.type e.flags e.mask e.principal = .ok e :=
  build_of_settle hfits e.flags_settled

end Entry

end AccessControl
