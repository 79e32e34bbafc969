/-
  AccessControl/Proofs/AccessList/Mode.lean
  =========================================
  **Extending by a mode is adding the entries of the mode.**

  The entries of a mode can always be built, for every kind of object, so they
  are written down here as values (`classEntry`, `deniedEntries`,
  `allowedEntries`), and extending a list comes to adding them before and after
  what arrives from the parent (`result_extend`).  A list made from a mode alone
  is `modeList`.  Which rights its entries hold follows from what the mode grants
  (`Mode.has_allowed` and the lemmas after it).
-/
import AccessControl.AccessList.Mode
import AccessControl.Proofs.AccessList.Inherit

namespace AccessControl

def Requester.principal : Requester → Principal
  | .owner => .owner
  | .group => .group
  | .other => .everyone

/-! ### The rights of a mode -/

namespace Mode

variable (mode : Mode) (p : Permission)

/-- The right of a permission comes from that permission alone. -/
theorem has_right_rights (q : Permission) : q.rights.has p.right = decide (q = p) := by
  cases q <;> cases p <;> decide

theorem has_rightsOf (who : Requester) :
    (mode.rightsOf who).has p.right = mode.grants who p := by
  unfold rightsOf
  cases hread : mode.grants who .read <;> cases hwrite : mode.grants who .write <;>
    cases hexecute : mode.grants who .execute <;> cases p <;>
      simp [Permission.all, hread, hwrite, hexecute, has_right_rights]

/-- Among the rights that are tied to permissions a class has those of its permissions. -/
theorem has_allowed (who : Requester) : (mode.allowed who).has p.right = mode.grants who p := by
  have hbasic : basic.has p.right = false := by cases p <;> decide
  have howner : ownerBasic.has p.right = false := by cases p <;> decide
  cases who <;> simp [allowed, has_rightsOf, hbasic, howner]

theorem has_ownerDenied : mode.ownerDenied.has p.right =
    ((mode.grants .group p || mode.grants .other p) && !mode.grants .owner p) := by
  simp [ownerDenied, has_allowed]

theorem has_groupDenied : mode.groupDenied.has p.right =
    (mode.grants .other p && !mode.grants .group p) := by
  simp [groupDenied, has_allowed]

theorem has_ownerFirst : mode.ownerFirst.has p.right =
    (mode.groupDenied.has p.right && !mode.ownerDenied.has p.right) := by
  simp [ownerFirst]

end Mode

namespace Rights

/-- The rights that objects of every kind can give. -/
def everywhere : Rights := full \ deleteChild

theorem has_deleteChild_of_everywhere {mask : Rights} (hmask : mask ∩ everywhere = mask) :
    mask.has .deleteChild = false := by
  have hnone : everywhere.has .deleteChild = false := by decide
  rw [← hmask, Flags.has_inter, hnone, Bool.and_false]

theorem givenBy_of_everywhere {mask : Rights} (hmask : mask ∩ everywhere = mask)
    (kind : ObjectKind) : mask.givenBy kind = mask := by
  refine givenBy_eq_self ?_ fun _ => has_deleteChild_of_everywhere hmask
  rw [← hmask]
  exact Flags.inter_inter_all (by decide)

end Rights

namespace Mode

open Rights (everywhere)

theorem rightsOf_inter_everywhere (mode : Mode) (who : Requester) :
    mode.rightsOf who ∩ everywhere = mode.rightsOf who := by
  refine List.foldlRecOn (motive := fun given : Rights => given ∩ everywhere = given) _ _
    (by decide) ?_
  intro given hgiven p _
  exact Flags.union_inter_of hgiven (by cases p <;> decide)

/-- No mode speaks of the one right that only directories give. -/
theorem allowed_inter_everywhere (mode : Mode) (who : Requester) :
    mode.allowed who ∩ everywhere = mode.allowed who := by
  rcases who with _ | _ | _ <;>
    exact Flags.union_inter_of (by decide) (rightsOf_inter_everywhere mode _)

theorem ownerDenied_inter_everywhere (mode : Mode) :
    mode.ownerDenied ∩ everywhere = mode.ownerDenied :=
  Flags.sdiff_inter_of (Flags.union_inter_of (allowed_inter_everywhere mode .group)
    (allowed_inter_everywhere mode .other)) _

theorem groupDenied_inter_everywhere (mode : Mode) :
    mode.groupDenied ∩ everywhere = mode.groupDenied :=
  Flags.sdiff_inter_of (allowed_inter_everywhere mode .other) _

theorem ownerFirst_inter_everywhere (mode : Mode) :
    mode.ownerFirst ∩ everywhere = mode.ownerFirst :=
  Flags.sdiff_inter_of (groupDenied_inter_everywhere mode) _

end Mode

theorem Flags.has_of_isEmpty {κ : Type} [Named κ] [SingleBits κ] {s : Flags κ}
    (hempty : s.isEmpty) (name : κ) : s.has name = false := by
  have hnone : s = Flags.none := Flags.ext_word (by simpa [Flags.isEmpty] using hempty)
  rw [hnone, Flags.has_none]

/-- Files and directories give the rights of permissions alike. -/
theorem Rights.has_right_givenBy (kind : ObjectKind) (mask : Rights) (p : Permission) :
    (mask.givenBy kind).has p.right = mask.has p.right := by
  rw [has_givenBy]
  cases p <;> simp [Permission.right]

namespace AccessList

variable {list : AccessList} {kind : ObjectKind} {type : EntryType} {mask : Rights}
  {who : Requester} {mode : Mode}

/-! ### Adding in steps -/

theorem append_append (list : AccessList) (before after : List Entry) :
    ((list.append before).result >>= fun longer => (longer.append after).result) =
      (list.append (before ++ after)).result := by
  induction before generalizing list with
  | nil => rfl
  | cons e before ih =>
    simp only [append, List.cons_append, Attempt.result_bind, ← ih]
    cases (list.push e).result <;> rfl

theorem append_singleton (list : AccessList) (e : Entry) :
    (list.append [e]).result = (list.push e).result := by
  rw [append, Attempt.result_bind]
  cases (list.push e).result <;> rfl

/-! ### The entries of a mode -/

/-- The entry for a class. -/
def classEntry (kind : ObjectKind) (type : EntryType) (mask : Rights) (who : Requester) :
    Entry where
  type
  flags := EntryFlags.settle who.principal Flags.none
  mask := mask.givenBy kind
  principal := who.principal
  mask_defined := Rights.givenBy_inter_full kind mask
  flags_settled := EntryFlags.settle_settle who.principal Flags.none
  principal_valid := by cases who <;> trivial

/-- The same, unless there is nothing to say. -/
def nonemptyEntry (kind : ObjectKind) (type : EntryType) (mask : Rights) (who : Requester) :
    List Entry :=
  if mask.isEmpty then [] else [classEntry kind type mask who]

/-- The entries of a mode before those that arrive. -/
def deniedEntries (kind : ObjectKind) (mode : Mode) : List Entry :=
  nonemptyEntry kind .allow mode.ownerFirst .owner ++
    (nonemptyEntry kind .deny mode.ownerDenied .owner ++
      nonemptyEntry kind .deny mode.groupDenied .group)

/-- The entries of a mode after those that arrive. -/
def allowedEntries (kind : ObjectKind) (mode : Mode) : List Entry :=
  Requester.all.map fun who => classEntry kind .allow (mode.allowed who) who

theorem build_classEntry (kind : ObjectKind) (type : EntryType) (mask : Rights) (who : Requester) :
    Entry.build kind type
        (if who.principal = .group then EntryFlags.identifierGroup else Flags.none) mask
        who.principal =
      .ok (classEntry kind type mask who) := by
  refine Entry.build_eq_ok_iff.2 ⟨fun _ => ?_, (classEntry kind type mask who).principal_valid,
    rfl, ?_, rfl, rfl⟩
  · cases who <;> decide
  · show EntryFlags.settle who.principal Flags.none = EntryFlags.settle who.principal _
    cases who <;> decide

theorem fits_classEntry : (classEntry kind type mask who).fits kind :=
  Entry.fits_of_build (build_classEntry kind type mask who)

theorem fits_of_mem_nonemptyEntry : ∀ e ∈ nonemptyEntry kind type mask who, e.fits kind := by
  intro e hmem
  unfold nonemptyEntry at hmem
  split at hmem
  case isTrue => cases hmem
  case isFalse => exact List.mem_singleton.1 hmem ▸ fits_classEntry

theorem fits_of_mem_deniedEntries : ∀ e ∈ deniedEntries kind mode, e.fits kind := by
  intro e hmem
  rcases List.mem_append.1 hmem with hfirst | hrest
  · exact fits_of_mem_nonemptyEntry e hfirst
  · rcases List.mem_append.1 hrest with howner | hgroup
    · exact fits_of_mem_nonemptyEntry e howner
    · exact fits_of_mem_nonemptyEntry e hgroup

theorem fits_of_mem_allowedEntries : ∀ e ∈ allowedEntries kind mode, e.fits kind := by
  intro e hmem
  obtain ⟨who, -, rfl⟩ := List.mem_map.1 hmem
  exact fits_classEntry

/-! ### Adding them -/

theorem result_pushClass (list : AccessList) (kind : ObjectKind) (type : EntryType)
    (mask : Rights) (who : Requester) :
    (list.pushClass kind type mask who.principal).result =
      (list.push (classEntry kind type mask who)).result := by
  simp only [pushClass, Attempt.result_bind, Attempt.result_silent, build_classEntry, ok_bind]

theorem result_pushNonempty (list : AccessList) (kind : ObjectKind) (type : EntryType)
    (mask : Rights) (who : Requester) :
    (list.pushNonempty kind type mask who.principal).result =
      (list.append (nonemptyEntry kind type mask who)).result := by
  unfold pushNonempty nonemptyEntry
  split
  case isTrue => rfl
  case isFalse => rw [result_pushClass, append_singleton]

theorem result_pushDenied (list : AccessList) (kind : ObjectKind) (mode : Mode) :
    (list.pushDenied kind mode).result = (list.append (deniedEntries kind mode)).result := by
  have howner := fun list type mask => result_pushNonempty list kind type mask .owner
  have hgroup := fun list type mask => result_pushNonempty list kind type mask .group
  simp only [Requester.principal] at howner hgroup
  simp only [pushDenied, Attempt.result_bind, howner, hgroup, append_append]
  rfl

theorem result_pushAllowed (list : AccessList) (kind : ObjectKind) (mode : Mode) :
    (list.pushAllowed kind mode).result = (list.append (allowedEntries kind mode)).result := by
  have howner := fun list type mask => result_pushClass list kind type mask .owner
  have hgroup := fun list type mask => result_pushClass list kind type mask .group
  have hother := fun list type mask => result_pushClass list kind type mask .other
  simp only [Requester.principal] at howner hgroup hother
  simp only [pushAllowed, Attempt.result_bind, howner, hgroup, hother, ← append_singleton,
    append_append]
  rfl

/-- The entries of a parent that may be missing. -/
def parentEntries (parent : Option AccessList) : List Entry := (parent.map entries).getD []

/-- Extending a list by a mode and a parent, in one piece. -/
theorem result_extend (list : AccessList) (parent : Option AccessList) (mode : Mode)
    (kind : ObjectKind) :
    (list.extend parent mode false kind).result =
      (list.append (deniedEntries kind mode ++ (arrivals kind (parentEntries parent) ++
        allowedEntries kind mode))).result := by
  cases parent with
  | none =>
    have hnothing : ∀ child : AccessList,
        (child.append (arrivals kind (parentEntries none))).result = .ok child := fun _ => rfl
    simp only [extend, Bool.and_false, Bool.false_eq_true, if_false, Attempt.result_bind,
      Attempt.result_pure, Attempt.result_lift, ok_bind, bind_ok, result_pushDenied,
      result_pushAllowed, ← append_append, hnothing]
  | some parent =>
    have hparent : parentEntries (some parent) = parent.entries := rfl
    simp only [extend, Bool.and_false, Bool.false_eq_true, if_false, Attempt.result_bind,
      Attempt.result_pure, Attempt.result_lift, ok_bind, bind_ok, result_pushDenied,
      result_inherit, result_pushAllowed, ← append_append, hparent]

/-- Extending without a mode is inheriting, which needs a parent. -/
theorem result_extend_skip (list : AccessList) (parent : Option AccessList) (mode : Mode)
    (kind : ObjectKind) :
    (list.extend parent mode true kind).result = match parent with
      | some parent => (inherit parent list kind).result
      | none => .error .nothingToInherit := by
  cases parent with
  | none => rfl
  | some parent =>
    simp only [extend, Bool.and_true, Option.isNone_some, Bool.false_eq_true, if_false, if_true,
      Attempt.result_bind, Attempt.result_pure, Attempt.result_lift, ok_bind, bind_ok]

theorem fits_of_mem_modeEntries :
    ∀ e ∈ deniedEntries kind mode ++ allowedEntries kind mode, e.fits kind := by
  intro e hmem
  rcases List.mem_append.1 hmem with hdenied | hallowed
  · exact fits_of_mem_deniedEntries e hdenied
  · exact fits_of_mem_allowedEntries e hallowed

/-- The list of a mode. -/
def modeList (kind : ObjectKind) (mode : Mode) : AccessList :=
  (empty kind).concat (deniedEntries kind mode ++ allowedEntries kind mode) fits_of_mem_modeEntries

@[simp] theorem kind_modeList : (modeList kind mode).kind = kind := rfl

@[simp] theorem flags_modeList : (modeList kind mode).flags = Flags.none := rfl

theorem entries_modeList (kind : ObjectKind) (mode : Mode) :
    (modeList kind mode).entries = deniedEntries kind mode ++ allowedEntries kind mode := rfl

/-- Every mode has its list, for every kind of object. -/
theorem result_ofMode (mode : Mode) (kind : ObjectKind) :
    (ofMode mode kind).result = .ok (modeList kind mode) := by
  rw [ofMode, result_extend]
  exact append_of_fits fits_of_mem_modeEntries

theorem exists_ofMode (mode : Mode) (kind : ObjectKind) :
    ∃ list, (ofMode mode kind).result = .ok list ∧ list.kind = kind ∧ list.size ≤ 6 := by
  refine ⟨modeList kind mode, result_ofMode mode kind, rfl, ?_⟩
  have hentry : ∀ type mask who, (nonemptyEntry kind type mask who).length ≤ 1 := by
    intro type mask who
    unfold nonemptyEntry
    split <;> simp
  have hfirst := hentry .allow mode.ownerFirst .owner
  have howner := hentry .deny mode.ownerDenied .owner
  have hgroup := hentry .deny mode.groupDenied .group
  have hallowed : (allowedEntries kind mode).length = 3 := rfl
  simp only [size, entries_modeList, List.length_append, deniedEntries, hallowed]
  omega

end AccessList

end AccessControl
