/-
  AccessControl/Proofs/AccessList/Folding.lean
  ============================================
  **The mode that a list folds to, class by class.**

  A mode is a set of grants, each of one permission to one class (`Grant`), with
  one bit for each, so words that hold nothing else are told apart by what they
  grant (`Mode.eq_of_grants`).  Folding adds up bits entry by entry; a grant is in
  the sum exactly if some entry speaks of it (`grants_modeBits`), in whatever order
  the entries stand, and no other bit ever gets in (`modeBits_and_permissions`).

  So the mode is settled class by class (`mode_by_class`), and neither the order of
  the entries nor those for named principals, nor audit and alarm entries, matter.
-/
import AccessControl.Proofs.AccessList.Mode

namespace AccessControl

/-! ### Modes as sets of grants -/

/-- A permission that a class of requester has. -/
structure Grant where
  who : Requester
  permission : Permission
deriving DecidableEq

namespace Grant

def all : List Grant := Requester.all.flatMap fun who => Permission.all.map fun p => ⟨who, p⟩

instance : Named Grant := ⟨fun grant => Mode.bit grant.who grant.permission, all⟩

instance : SingleBits Grant where
  place_lt grant := by rcases grant with ⟨who, p⟩; cases who <;> cases p <;> decide
  bit_eq grant := by rcases grant with ⟨who, p⟩; cases who <;> cases p <;> decide
  bit_injective a b := by
    rcases a with ⟨who, p⟩
    rcases b with ⟨who', q⟩
    cases who <;> cases p <;> cases who' <;> cases q <;> decide
  mem_all grant := by rcases grant with ⟨who, p⟩; cases who <;> cases p <;> decide

end Grant

namespace Mode

variable {a b : Mode} {who : Requester} {p : Permission}

/-- The nine bits that stand for grants. -/
def permissions : Mode := 0x1FF

theorem word_all_grants : (Flags.all : Flags Grant).word = permissions := by decide

theorem grants_eq_has (mode : Mode) (who : Requester) (p : Permission) :
    mode.grants who p = (⟨mode⟩ : Flags Grant).has ⟨who, p⟩ := by
  have hsingle : (Flags.of [(⟨who, p⟩ : Grant)]).word = bit who p := BitVec.or_zero
  rw [Flags.has, Flags.meets, hsingle]
  rfl

@[simp] theorem grants_zero : grants 0 who p = false := by
  rw [grants_eq_has]
  exact Flags.has_none _

@[simp] theorem grants_or : grants (a ||| b) who p = (a.grants who p || b.grants who p) := by
  simp only [grants_eq_has]
  exact Flags.has_union ⟨a⟩ ⟨b⟩ _

@[simp] theorem grants_and_not :
    grants (a &&& ~~~b) who p = (a.grants who p && !b.grants who p) := by
  simp only [grants_eq_has]
  exact Flags.has_sdiff ⟨a⟩ ⟨b⟩ _

@[simp] theorem grants_and_permissions : grants (a &&& permissions) who p = a.grants who p := by
  simp only [grants_eq_has, ← word_all_grants]
  rw [← Flags.word_inter ⟨a⟩]
  show ((⟨a⟩ : Flags Grant) ∩ Flags.all).has _ = _
  rw [Flags.has_inter, Flags.has_all, Bool.and_true]

theorem grants_bit (who' : Requester) (q : Permission) :
    grants (bit who' q) who p = decide (who' = who ∧ q = p) := by
  cases who' <;> cases q <;> cases who <;> cases p <;> decide

/-- Modes that are nothing but grants are equal if they grant the same. -/
theorem eq_of_grants (ha : a &&& permissions = a) (hb : b &&& permissions = b)
    (hgrants : ∀ who p, a.grants who p = b.grants who p) : a = b := by
  rw [← word_all_grants] at ha hb
  have hsame : (⟨a⟩ : Flags Grant) = ⟨b⟩ := by
    refine Flags.eq_of_has (Flags.ext_word ha) (Flags.ext_word hb) ?_
    rintro ⟨who, p⟩
    rw [← grants_eq_has, ← grants_eq_has, hgrants]
  exact congrArg Flags.word hsame

theorem or_and_permissions (ha : a &&& permissions = a) (hb : b &&& permissions = b) :
    (a ||| b) &&& permissions = a ||| b := by
  rw [BitVec.and_or_distrib_right, ha, hb]

theorem bit_and_permissions (who : Requester) (p : Permission) :
    bit who p &&& permissions = bit who p := by
  cases who <;> cases p <;> decide

/-- A fold that adds something at each step grants what it granted at first and
    what was added at some step. -/
theorem grants_foldl {α : Type} {step : Mode → α → Mode} {adds : α → Bool}
    (hstep : ∀ bits x, (step bits x).grants who p = (bits.grants who p || adds x))
    (xs : List α) (bits : Mode) :
    (xs.foldl step bits).grants who p = (bits.grants who p || xs.any adds) := by
  induction xs generalizing bits with
  | nil => simp
  | cons x xs ih => rw [List.foldl_cons, ih, hstep, List.any_cons, Bool.or_assoc]

end Mode

/-! ### Entries -/

namespace Entry

open Mode (permissions)

variable {who : Requester} {p : Permission}

/-- The entry is about a permission of a class. -/
def speaksOf (who : Requester) (p : Permission) (e : Entry) : Bool :=
  e.mask.has p.right && decide (who ∈ e.principal.classes)

theorem grants_modeBits (e : Entry) : Mode.grants e.modeBits who p = e.speaksOf who p := by
  have hclasses : ∀ (bits : Mode) (q : Permission),
      (e.principal.classes.foldl (fun bits who => bits ||| Mode.bit who q) bits).grants who p =
        (bits.grants who p || decide (who ∈ e.principal.classes ∧ q = p)) := by
    intro bits q
    have hstep : ∀ (bits : Mode) (who' : Requester), (bits ||| Mode.bit who' q).grants who p =
        (bits.grants who p || decide (who' = who ∧ q = p)) := by
      intro bits who'
      rw [Mode.grants_or, Mode.grants_bit]
    rw [Mode.grants_foldl hstep]
    by_cases hq : q = p <;> simp [hq, List.any_eq]
  rw [modeBits, Mode.grants_foldl hclasses, Mode.grants_zero, Bool.false_or, List.any_filter,
    speaksOf]
  cases p <;> simp [Permission.all]

/-- The entry is for the class itself or for everyone. -/
def IsFor (who : Requester) (e : Entry) : Prop :=
  e.principal = who.principal ∨ e.principal = .everyone

/-- The entry decides about access, and for a well-known principal. -/
def countsForMode (e : Entry) : Bool := e.type.isAccess && e.principal.isWellKnown

theorem mem_classes_iff (q : Principal) :
    who ∈ q.classes ↔ q = who.principal ∨ q = .everyone := by
  rcases q with _ | _ | _ | id <;> rcases who with _ | _ | _ <;>
    simp [Principal.classes, Requester.principal, Requester.all]

theorem speaksOf_iff {e : Entry} :
    e.speaksOf who p = true ↔ e.IsFor who ∧ e.mask.has p.right = true := by
  rw [speaksOf, Bool.and_eq_true, decide_eq_true_eq, mem_classes_iff, IsFor, and_comm]

theorem isWellKnown_of_speaksOf {e : Entry} (hspeaks : e.speaksOf who p = true) :
    e.principal.isWellKnown = true := by
  rcases (speaksOf_iff.1 hspeaks).1 with hown | heveryone
  · rw [hown]
    rcases who with _ | _ | _ <;> rfl
  · rw [heveryone]
    rfl

theorem modeBits_and_permissions (e : Entry) : e.modeBits &&& permissions = e.modeBits := by
  refine List.foldlRecOn (motive := fun bits => bits &&& permissions = bits) _ _ (by decide) ?_
  intro bits hbits q _
  refine List.foldlRecOn (motive := fun bits => bits &&& permissions = bits) _ _ hbits ?_
  intro bits hbits who _
  exact Mode.or_and_permissions hbits (Mode.bit_and_permissions who q)

end Entry

/-! ### Lists -/

namespace AccessList

open Mode (permissions)

variable {list : AccessList} {type : EntryType} {who : Requester} {p : Permission}

/-- Some entry of a type is about a permission of a class. -/
def mentions (type : EntryType) (who : Requester) (p : Permission) (es : List Entry) : Bool :=
  es.any fun e => e.type == type && e.speaksOf who p

theorem grants_modeBits (list : AccessList) (type : EntryType) :
    (list.modeBits type).grants who p = mentions type who p list.entries := by
  have hstep : ∀ (bits : Mode) (e : Entry), (bits ||| e.modeBits).grants who p =
      (bits.grants who p || e.speaksOf who p) := by
    intro bits e
    rw [Mode.grants_or, Entry.grants_modeBits]
  rw [modeBits, Mode.grants_foldl hstep, Mode.grants_zero, Bool.false_or, List.any_filter, mentions]

theorem modeBits_and_permissions (list : AccessList) (type : EntryType) :
    list.modeBits type &&& permissions = list.modeBits type := by
  refine List.foldlRecOn (motive := fun bits => bits &&& permissions = bits) _ _ (by decide) ?_
  intro bits hbits e _
  exact Mode.or_and_permissions hbits e.modeBits_and_permissions

/-- The mode that the entries come to. -/
def folded (list : AccessList) : Mode := list.modeBits .allow &&& ~~~list.modeBits .deny

theorem value_mode (list : AccessList) (existing : Mode) :
    (list.mode existing).value = list.folded ||| existing := rfl

/-- What is denied anywhere is not granted. -/
theorem grants_folded (list : AccessList) : list.folded.grants who p =
    (mentions .allow who p list.entries && !mentions .deny who p list.entries) := by
  rw [folded, Mode.grants_and_not, grants_modeBits, grants_modeBits]

theorem folded_and_permissions (list : AccessList) : list.folded &&& permissions = list.folded := by
  rw [folded, BitVec.and_assoc, BitVec.and_comm (~~~_), ← BitVec.and_assoc,
    modeBits_and_permissions]

/-! ### Class by class -/

theorem mentions_iff {es : List Entry} : mentions type who p es = true ↔
    ∃ e ∈ es, e.type = type ∧ e.IsFor who ∧ e.mask.has p.right = true := by
  simp only [mentions, List.any_eq_true, Bool.and_eq_true, beq_iff_eq, Entry.speaksOf_iff]

/-- What is not about any class is not heard, whichever type is asked for. -/
theorem mentions_filter_counts (htype : type.isAccess) (es : List Entry) :
    mentions type who p (es.filter Entry.countsForMode) = mentions type who p es := by
  rw [mentions, mentions, List.any_filter]
  refine congrArg (es.any ·) (funext fun e => ?_)
  by_cases hheard : e.type = type ∧ e.speaksOf who p = true
  · have hcounts : e.countsForMode = true := by
      rw [Entry.countsForMode, hheard.1, htype, Bool.true_and]
      exact Entry.isWellKnown_of_speaksOf hheard.2
    rw [hcounts, Bool.true_and]
  · have hsilent : (e.type == type && e.speaksOf who p) = false := by
      rw [Bool.and_eq_false_iff, beq_eq_false_iff_ne, ← Bool.not_eq_true]
      exact Decidable.not_and_iff_not_or_not.1 hheard
    rw [hsilent, Bool.and_false]

theorem folded_congr {other : AccessList}
    (hperm : (other.entries.filter Entry.countsForMode).Perm
      (list.entries.filter Entry.countsForMode)) : other.folded = list.folded := by
  have hmentions : ∀ type, type.isAccess → ∀ who p,
      mentions type who p other.entries = mentions type who p list.entries := by
    intro type htype who p
    rw [← mentions_filter_counts htype, ← mentions_filter_counts htype list.entries]
    exact hperm.any_eq
  apply Mode.eq_of_grants (folded_and_permissions other) (folded_and_permissions list)
  intro who p
  rw [grants_folded, grants_folded, hmentions .allow rfl, hmentions .deny rfl]

theorem mode_and_not_permissions (list : AccessList) (existing : Mode) :
    (list.mode existing).value &&& ~~~permissions = existing &&& ~~~permissions := by
  have hnone : list.folded &&& ~~~permissions = 0 := by
    rw [← folded_and_permissions, BitVec.and_assoc, BitVec.and_not_self]
    exact BitVec.and_zero
  rw [value_mode, BitVec.and_or_distrib_right, hnone]
  exact BitVec.zero_or

/-- **The mode of a list, class by class.**  A class has a permission if it was there
    before, or if the right is allowed to the class or to everyone and denied to
    neither; the bits beyond the nine permissions are those that were there.  So
    entries may be moved about, and entries for named principals, audit and alarm
    entries put in or taken out, and the mode stays. -/
theorem mode_by_class (list : AccessList) (existing : Mode) :
    (∀ who p, (list.mode existing).value.grants who p = true ↔
      existing.grants who p = true ∨
        (∃ e ∈ list.entries, e.type = .allow ∧ e.IsFor who ∧ e.mask.has p.right = true) ∧
        ∀ e ∈ list.entries, e.type = .deny → e.IsFor who → e.mask.has p.right = false) ∧
    (list.mode existing).value &&& ~~~0x1FF = existing &&& ~~~0x1FF ∧
    ∀ other : AccessList,
      (other.entries.filter Entry.countsForMode).Perm
        (list.entries.filter Entry.countsForMode) →
      (other.mode existing).value = (list.mode existing).value := by
  refine ⟨?_, mode_and_not_permissions list existing, ?_⟩
  · intro who p
    have hdenied : mentions .deny who p list.entries = false ↔
        ∀ e ∈ list.entries, e.type = .deny → e.IsFor who → e.mask.has p.right = false := by
      rw [← Bool.not_eq_true, mentions_iff]
      simp only [not_exists, not_and, Bool.not_eq_true]
    rw [value_mode, Mode.grants_or, grants_folded, Bool.or_eq_true, Bool.and_eq_true,
      Bool.not_eq_true', mentions_iff, hdenied]
    exact or_comm
  · intro other hperm
    rw [value_mode, value_mode, folded_congr hperm]

/-- A list with the right to write denied to the group at its end, and the same entries
    in another order with an alarm among them and without the entry for user 7. -/
theorem mode_by_class_reordered :
    let entry (type : EntryType) (who : Requester) : Entry := classEntry .file type Rights.full who
    let denied : Entry := classEntry .file .deny Rights.write .group
    let named : Entry :=
      ⟨.deny, Flags.none, Rights.read, .named 7, by decide, by decide, by decide⟩
    let list : AccessList := ⟨.file, Flags.none, [named, entry .allow .other, denied], by decide⟩
    let other : AccessList :=
      ⟨.file, Flags.none, [denied, entry .alarm .owner, entry .allow .other], by decide⟩
    (other.entries.filter Entry.countsForMode).Perm (list.entries.filter Entry.countsForMode) ∧
      (other.mode 0x800).value = (list.mode 0x800).value ∧
      (list.mode 0x800).value = 0x9EF := by
  intro entry denied named list other
  have hperm : (other.entries.filter Entry.countsForMode).Perm
      (list.entries.filter Entry.countsForMode) := by decide
  exact ⟨hperm, (mode_by_class list 0x800).2.2 other hperm, by decide⟩

end AccessList

end AccessControl
