/-
  AccessControl/Proofs/AccessList/Inherit.lean
  ============================================
  **Inheriting is adding what arrives.**

  Each entry of a parent passes on by itself, as at most one entry
  (`Entry.arrival?`): building what passes on never fails, since what a file gets
  has no flag left that only directories know.  So a list inherits by having the
  `arrivals` added to it, and fails only as adding them fails.
-/
import AccessControl.AccessList.Inherit
import AccessControl.Proofs.AccessList.Append
import AccessControl.Proofs.Outcome

namespace AccessControl

namespace Flags

/-- What is left without some bits has none of them. -/
theorem meets_sdiff_self {κ : Type} (s t : Flags κ) : (s \ t).meets t = false := by
  have hnone : s.word &&& ~~~t.word &&& t.word = 0#32 := by
    apply BitVec.eq_of_getLsbD_eq
    intro i hi
    simp only [BitVec.getLsbD_and, BitVec.getLsbD_not, BitVec.getLsbD_zero]
    cases t.word.getLsbD i <;> simp
  rw [meets, word_sdiff, hnone]
  rfl

end Flags

namespace Entry

variable {kind : ObjectKind} {e arrived : Entry} {flags : EntryFlags}

theorem directoryOnly_of_passedOn (hpassed : e.passedOn .file = .ok flags) :
    flags.meets EntryFlags.directoryOnly = false := by
  unfold passedOn at hpassed
  -- Of the branches only the last gives flags, and on a file it takes these off.
  repeat' split at hpassed
  all_goals cases hpassed
  exact Flags.meets_sdiff_self _ _

/-- The entry that arrives at a new object of a kind, if this one passes on to it. -/
def arrival? (kind : ObjectKind) (e : Entry) : Option Entry :=
  (e.passedOn kind).toOption.bind fun flags =>
    (build kind e.type flags e.mask e.principal).toOption

/-- What passes on can be built. -/
theorem exists_build_of_passedOn (hpassed : e.passedOn kind = .ok flags) :
    ∃ arrived, build kind e.type flags e.mask e.principal = .ok arrived := by
  refine ⟨⟨e.type, flags.settle e.principal, e.mask.givenBy kind, e.principal,
    Rights.givenBy_inter_full kind e.mask, EntryFlags.settle_settle e.principal flags,
    e.principal_valid⟩, build_eq_ok_iff.2 ⟨?_, e.principal_valid, rfl, rfl, rfl, rfl⟩⟩
  rintro rfl
  exact directoryOnly_of_passedOn hpassed

theorem arrival?_eq_some_iff : e.arrival? kind = some arrived ↔
    ∃ flags, e.passedOn kind = .ok flags ∧
      build kind e.type flags e.mask e.principal = .ok arrived := by
  unfold arrival?
  cases e.passedOn kind with
  | error skip => simp [Except.toOption]
  | ok flags =>
    cases hbuild : build kind e.type flags e.mask e.principal <;>
      simp [Except.toOption, hbuild]

theorem fits_of_arrival? (harrival : e.arrival? kind = some arrived) : arrived.fits kind := by
  obtain ⟨flags, -, hbuild⟩ := arrival?_eq_some_iff.1 harrival
  exact fits_of_build hbuild

end Entry

namespace AccessList

variable {kind : ObjectKind} {child : AccessList}

/-- The entries that arrive at a new object of a kind, in their order. -/
def arrivals (kind : ObjectKind) (es : List Entry) : List Entry :=
  es.filterMap (Entry.arrival? kind)

theorem fits_of_mem_arrivals {es : List Entry} : ∀ e ∈ arrivals kind es, e.fits kind := by
  intro arrived hmem
  obtain ⟨e, -, harrival⟩ := List.mem_filterMap.1 hmem
  exact Entry.fits_of_arrival? harrival

/-- Whatever kind the child has, inheriting comes to adding the arrivals. -/
theorem result_inheritEntries (kind : ObjectKind) (child : AccessList) (index : Nat)
    (es : List Entry) :
    (child.inheritEntries kind index es).result = (child.append (arrivals kind es)).result := by
  induction es generalizing child index with
  | nil => rfl
  | cons e es ih =>
    cases hpassed : e.passedOn kind with
    | error skip =>
      have hnone : e.arrival? kind = none := by simp [Entry.arrival?, hpassed, Except.toOption]
      rw [arrivals, List.filterMap_cons_none hnone, ← arrivals, ← ih child (index + 1)]
      simp [inheritEntries, hpassed]
    | ok flags =>
      obtain ⟨arrived, hbuild⟩ := Entry.exists_build_of_passedOn hpassed
      have hsome : e.arrival? kind = some arrived :=
        Entry.arrival?_eq_some_iff.2 ⟨flags, hpassed, hbuild⟩
      rw [arrivals, List.filterMap_cons_some hsome, ← arrivals]
      simp [inheritEntries, hpassed, hbuild, append, ih]

theorem result_inherit (parent child : AccessList) (kind : ObjectKind) :
    (inherit parent child kind).result = (child.append (arrivals kind parent.entries)).result :=
  result_inheritEntries kind child 0 parent.entries

end AccessList

end AccessControl
