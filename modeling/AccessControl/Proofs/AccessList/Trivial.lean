/-
  AccessControl/Proofs/AccessList/Trivial.lean
  ============================================
  **A list is trivial if some mode says all that it says.**

  The list of a mode depends on what the mode grants and on nothing else of it
  (`modeList_congr`), and folds back to just that (`folded_modeList`): what the list
  denies to a class is exactly what a wider class has and this one lacks.  So the
  test for triviality, which compares a list with the list of its own mode, finds
  every list of a mode, whatever the mode (`isTrivial_iff_ofMode`).
-/
import AccessControl.Proofs.AccessList.Folding
import Mathlib.Tactic.SplitIfs

namespace AccessControl.AccessList

open Mode (permissions)

variable {list : AccessList} {kind : ObjectKind} {type type' : EntryType} {mask : Rights}
  {who who' : Requester} {p : Permission} {mode : Mode}

/-! ### Comparing -/

theorem firstDifference_eq_none_iff {as bs : List Entry} {index : Nat}
    (hlength : as.length = bs.length) : firstDifference as bs index = none ↔ as = bs := by
  induction as generalizing bs index with
  | nil =>
    obtain rfl : bs = [] := List.length_eq_zero_iff.1 hlength.symm
    exact ⟨fun _ => rfl, fun _ => rfl⟩
  | cons a as ih =>
    cases bs with
    | nil => cases hlength
    | cons b bs =>
      rw [List.length_cons, List.length_cons, Nat.add_right_cancel_iff] at hlength
      rw [firstDifference]
      split_ifs with hsame
      · rw [ih hlength, hsame, List.cons.injEq, and_iff_right rfl]
      · simp [hsame]

theorem value_sameEntries (a b : AccessList) :
    (a.sameEntries b).value = decide (a.entries = b.entries) := by
  unfold sameEntries size
  split_ifs with hlength
  · cases hdifference : firstDifference a.entries b.entries 0 with
    | none => exact (decide_eq_true ((firstDifference_eq_none_iff hlength).1 hdifference)).symm
    | some difference =>
      have hne : a.entries ≠ b.entries := by
        intro hsame
        rw [(firstDifference_eq_none_iff hlength).2 hsame] at hdifference
        cases hdifference
      exact (decide_eq_false hne).symm
  · have hne : a.entries ≠ b.entries := fun hsame => hlength (congrArg List.length hsame)
    exact (decide_eq_false hne).symm

/-! ### What the entries of a mode say -/

theorem mem_classes : who ∈ who'.principal.classes ↔ who' = who ∨ who' = .other := by
  cases who' <;> cases who <;> decide

theorem mentions_append (before after : List Entry) :
    mentions type who p (before ++ after) =
      (mentions type who p before || mentions type who p after) :=
  List.any_append

theorem mentions_classEntry :
    mentions type who p [classEntry kind type' mask who'] =
      (type' == type && (mask.has p.right && decide (who' = who ∨ who' = .other))) := by
  have hright : (classEntry kind type' mask who').mask.has p.right = mask.has p.right :=
    Rights.has_right_givenBy kind mask p
  rw [mentions, List.any_cons, List.any_nil, Bool.or_false, Entry.speaksOf, hright]
  simp only [classEntry, mem_classes]

/-- An entry that is left out since it says nothing would say nothing. -/
theorem mentions_nonemptyEntry :
    mentions type who p (nonemptyEntry kind type' mask who') =
      (type' == type && (mask.has p.right && decide (who' = who ∨ who' = .other))) := by
  unfold nonemptyEntry
  split_ifs with hempty
  · rw [Flags.has_of_isEmpty hempty, Bool.false_and, Bool.and_false]
    rfl
  · exact mentions_classEntry

theorem mentions_deniedEntries :
    mentions type who p (deniedEntries kind mode) =
      ((EntryType.allow == type && (mode.ownerFirst.has p.right && decide (who = .owner))) ||
        (EntryType.deny == type && (mode.ownerDenied.has p.right && decide (who = .owner) ||
          mode.groupDenied.has p.right && decide (who = .group)))) := by
  rw [deniedEntries, mentions_append, mentions_append, mentions_nonemptyEntry,
    mentions_nonemptyEntry, mentions_nonemptyEntry]
  cases who <;> simp

theorem mentions_allowedEntries :
    mentions type who p (allowedEntries kind mode) =
      (EntryType.allow == type && (mode.grants who p || mode.grants .other p)) := by
  have hsplit : allowedEntries kind mode =
      [classEntry kind .allow (mode.allowed .owner) .owner] ++
        ([classEntry kind .allow (mode.allowed .group) .group] ++
          [classEntry kind .allow (mode.allowed .other) .other]) := rfl
  rw [hsplit, mentions_append, mentions_append, mentions_classEntry, mentions_classEntry,
    mentions_classEntry]
  cases who <;> simp [Mode.has_allowed, Bool.and_or_distrib_left]

/-! ### There and back -/

theorem grants_folded_modeList :
    (modeList kind mode).folded.grants who p = mode.grants who p := by
  rw [grants_folded, entries_modeList, mentions_append, mentions_append, mentions_deniedEntries,
    mentions_deniedEntries, mentions_allowedEntries, mentions_allowedEntries]
  -- What is left is about which of the three classes has the permission.
  simp only [Mode.has_ownerFirst, Mode.has_ownerDenied, Mode.has_groupDenied]
  cases who <;> cases mode.grants .owner p <;> cases mode.grants .group p <;>
    cases mode.grants .other p <;> rfl

/-- The list of a mode folds back to what the mode grants. -/
theorem folded_modeList : (modeList kind mode).folded = mode &&& permissions := by
  apply Mode.eq_of_grants (folded_and_permissions _)
  · rw [BitVec.and_assoc, BitVec.and_self]
  · intro who p
    rw [grants_folded_modeList, Mode.grants_and_permissions]

/-- Modes that grant the same have the same list. -/
theorem modeList_congr {a b : Mode} (hgrants : ∀ who p, a.grants who p = b.grants who p) :
    modeList kind a = modeList kind b := by
  have hallowed : ∀ who, a.allowed who = b.allowed who := by
    intro who
    have hsame : ∀ who, a.grants who = b.grants who := fun who => funext (hgrants who)
    cases who <;> simp only [Mode.allowed, Mode.rightsOf, hsame]
  have hentries : (modeList kind a).entries = (modeList kind b).entries := by
    simp only [entries_modeList, deniedEntries, allowedEntries, Mode.ownerFirst, Mode.groupDenied,
      Mode.ownerDenied, hallowed]
  exact ext_parts (kind_modeList.trans kind_modeList.symm)
    (flags_modeList.trans flags_modeList.symm) hentries

theorem modeList_and_permissions : modeList kind (mode &&& permissions) = modeList kind mode :=
  modeList_congr fun _ _ => Mode.grants_and_permissions

/-! ### Stripping -/

theorem result_strip (list : AccessList) :
    list.strip.result = .ok (modeList list.kind list.folded) := by
  have hvalue : (list.mode 0).value = list.folded := BitVec.or_zero
  rw [strip, Attempt.result_bind, Attempt.result_lift, ok_bind, hvalue, result_ofMode]

theorem value_isTrivial (list : AccessList) :
    list.isTrivial.value = decide (list.entries = (modeList list.kind list.folded).entries) := by
  have hstrip : list.strip.run.value = .ok (modeList list.kind list.folded) := result_strip list
  rw [isTrivial, Traced.value_bind, hstrip]
  exact value_sameEntries list _

/-- `made` is the list of a mode for a kind of object: nine bits of the mode make it,
    and it gives them back. -/
structure SaidBy (mode : Mode) (kind : ObjectKind) (made : AccessList) : Prop where
  result_eq : (ofMode mode kind).result = .ok made
  kind_eq : made.kind = kind
  nine_bits : ∀ other : Mode, other &&& 0x1FF = mode &&& 0x1FF →
    (ofMode other kind).result = .ok made
  mode_eq : ∀ existing, (made.mode existing).value = (mode &&& 0x1FF) ||| existing

/-- Stripping a list leaves `stripped`, which is trivial, of the same kind and mode, and
    stripped already. -/
structure StripsTo (list stripped : AccessList) : Prop where
  result_eq : list.strip.result = .ok stripped
  kind_eq : stripped.kind = list.kind
  mode_eq : (stripped.mode 0).value = (list.mode 0).value
  again : stripped.strip.result = .ok stripped
  trivial : stripped.isTrivial.value = true

theorem saidBy_modeList (mode : Mode) (kind : ObjectKind) :
    SaidBy mode kind (modeList kind mode) where
  result_eq := result_ofMode mode kind
  kind_eq := rfl
  nine_bits := by
    intro other hsame
    have hgranted : other &&& permissions = mode &&& permissions := hsame
    rw [result_ofMode, ← modeList_and_permissions, hgranted, modeList_and_permissions]
  mode_eq := by
    intro existing
    rw [value_mode, folded_modeList]
    rfl

theorem stripsTo_modeList (list : AccessList) : StripsTo list (modeList list.kind list.folded) := by
  have hfolded : (modeList list.kind list.folded).folded = list.folded :=
    folded_modeList.trans (folded_and_permissions list)
  refine ⟨result_strip list, rfl, ?_, ?_, ?_⟩
  · rw [value_mode, value_mode, hfolded]
  · rw [result_strip, hfolded, kind_modeList]
  · rw [value_isTrivial, hfolded, kind_modeList]
    exact decide_eq_true rfl

/-- **Trivial lists.**  A list is trivial exactly if it has the entries of the list of
    some mode.  Every mode has a list for both kinds of object, which depends on
    its nine permissions alone and gives them back; and every list can be
    stripped to a trivial one of the same kind and mode, and no further. -/
theorem isTrivial_iff_ofMode (list : AccessList) :
    (list.isTrivial.value = true ↔
      ∃ mode made, (ofMode mode list.kind).result = .ok made ∧ list.entries = made.entries) ∧
    (∀ mode kind, ∃ made, SaidBy mode kind made) ∧
    ∃ stripped, StripsTo list stripped := by
  refine ⟨?_, fun mode kind => ⟨_, saidBy_modeList mode kind⟩, ⟨_, stripsTo_modeList list⟩⟩
  rw [value_isTrivial, decide_eq_true_eq]
  constructor
  · intro hsame
    exact ⟨list.folded, modeList list.kind list.folded, result_ofMode _ _, hsame⟩
  · rintro ⟨mode, made, hmade, hsame⟩
    rw [result_ofMode] at hmade
    cases hmade
    -- Folding looks at entries alone, so the list has the mode that it was made from.
    have hfolded : list.folded = (modeList list.kind mode).folded := by
      simp only [folded, modeBits, hsame]
    rw [hfolded, folded_modeList, modeList_and_permissions, hsame]

end AccessControl.AccessList
