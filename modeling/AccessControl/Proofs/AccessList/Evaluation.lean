/-
  AccessControl/Proofs/AccessList/Evaluation.lean
  ===============================================
  **A list made from a mode grants what the mode grants.**

  A list is evaluated from its first entry on, and the first entry that speaks
  about the right and applies to the caller decides (`verdict?`).  Entries that
  decide nothing can be left out (`verdict?_append`).  What each entry of a mode
  says about one of the three permissions follows from what the mode grants to
  the three classes, and then the verdict of the whole list is a matter of five
  Booleans (`granted_extend`).
-/
import AccessControl.Proofs.AccessList.Mode

namespace AccessControl

/-! ### Evaluation -/

/-- Who asks for access: whether as the owner and as a member of the object's
    group, and under which ids of users and groups. -/
structure Caller where
  isOwner : Bool
  inGroup : Bool
  hasUser : Int32 → Bool
  hasGroup : Int32 → Bool

namespace Caller

/-- The entry is about the caller. -/
def isMeantBy (caller : Caller) (e : Entry) : Bool :=
  match e.principal with
  | .owner => caller.isOwner
  | .group => caller.inGroup
  | .everyone => true
  | .named id => if e.isGroup then caller.hasGroup id else caller.hasUser id

/-- The entry counts when the caller's access is decided. -/
def heeds (caller : Caller) (e : Entry) : Bool :=
  e.type.isAccess && !e.flags.has .inheritOnly && caller.isMeantBy e

/-- The class of requester that the caller falls into. -/
def requester (caller : Caller) : Requester :=
  if caller.isOwner then .owner else if caller.inGroup then .group else .other

/-- The type of the first entry that decides about a right, if one does. -/
def verdict? (caller : Caller) (right : Right) : List Entry → Option EntryType
  | [] => none
  | e :: es => if caller.heeds e && e.mask.has right then some e.type else verdict? caller right es

/-- The entries grant a right to the caller. -/
def granted (caller : Caller) (right : Right) (es : List Entry) : Bool :=
  caller.verdict? right es == some .allow

variable {caller : Caller} {right : Right} {es : List Entry}

theorem verdict?_append (caller : Caller) (right : Right) (before after : List Entry) :
    caller.verdict? right (before ++ after) =
      (caller.verdict? right before).or (caller.verdict? right after) := by
  induction before with
  | nil => rfl
  | cons e before ih =>
    simp only [List.cons_append, verdict?]
    cases caller.heeds e && e.mask.has right with
    | true => rfl
    | false => exact ih

/-- Entries that the caller need not heed decide nothing. -/
theorem verdict?_unheeded (hunheeded : ∀ e ∈ es, caller.heeds e = false) :
    caller.verdict? right es = none := by
  induction es with
  | nil => rfl
  | cons e es ih =>
    have hfirst := hunheeded e List.mem_cons_self
    have hrest := ih fun other hmem => hunheeded other (List.mem_cons_of_mem e hmem)
    simp only [verdict?, hfirst, Bool.false_and, Bool.false_eq_true, if_false, hrest]

end Caller

/-! ### The entries of a mode -/

namespace Caller

/-- The entries for a class are about the caller. -/
def isIn (caller : Caller) : Requester → Bool
  | .owner => caller.isOwner
  | .group => caller.inGroup
  | .other => true

/-- What an entry for a class says about a permission. -/
def told (caller : Caller) (p : Permission) (type : EntryType) (mask : Rights) (who : Requester) :
    Option EntryType :=
  if caller.isIn who && mask.has p.right then some type else none

variable {caller : Caller} {kind : ObjectKind} {type : EntryType} {mask : Rights}
  {who : Requester} {mode : Mode}

theorem heeds_classEntry (htype : type.isAccess) :
    caller.heeds (AccessList.classEntry kind type mask who) = caller.isIn who := by
  have hflag : (EntryFlags.settle who.principal Flags.none).has .inheritOnly = false := by
    cases who <;> decide
  have hmeant : caller.isMeantBy (AccessList.classEntry kind type mask who) = caller.isIn who := by
    cases who <;> rfl
  rw [heeds, hmeant]
  simp [AccessList.classEntry, htype, hflag]

theorem verdict?_classEntry (htype : type.isAccess) (p : Permission) :
    caller.verdict? p.right [AccessList.classEntry kind type mask who] =
      caller.told p type mask who := by
  rw [verdict?, heeds_classEntry htype, told]
  show (if caller.isIn who && (mask.givenBy kind).has p.right then _ else _) = _
  rw [Rights.has_right_givenBy]
  rfl

/-- An entry that is left out since it says nothing would say nothing. -/
theorem verdict?_nonemptyEntry (htype : type.isAccess) (p : Permission) :
    caller.verdict? p.right (AccessList.nonemptyEntry kind type mask who) =
      caller.told p type mask who := by
  unfold AccessList.nonemptyEntry
  split
  case isTrue hempty => simp [verdict?, told, Flags.has_of_isEmpty hempty]
  case isFalse => exact verdict?_classEntry htype p

theorem verdict?_deniedEntries (p : Permission) :
    caller.verdict? p.right (AccessList.deniedEntries kind mode) =
      (caller.told p .allow mode.ownerFirst .owner).or
        ((caller.told p .deny mode.ownerDenied .owner).or
          (caller.told p .deny mode.groupDenied .group)) := by
  rw [AccessList.deniedEntries, verdict?_append, verdict?_append, verdict?_nonemptyEntry rfl,
    verdict?_nonemptyEntry rfl, verdict?_nonemptyEntry rfl]

theorem verdict?_allowedEntries (p : Permission) :
    caller.verdict? p.right (AccessList.allowedEntries kind mode) =
      (caller.told p .allow (mode.allowed .owner) .owner).or
        ((caller.told p .allow (mode.allowed .group) .group).or
          (caller.told p .allow (mode.allowed .other) .other)) := by
  have hsplit : AccessList.allowedEntries kind mode =
      [AccessList.classEntry kind .allow (mode.allowed .owner) .owner] ++
        ([AccessList.classEntry kind .allow (mode.allowed .group) .group] ++
          [AccessList.classEntry kind .allow (mode.allowed .other) .other]) := rfl
  rw [hsplit, verdict?_append, verdict?_append, verdict?_classEntry rfl, verdict?_classEntry rfl,
    verdict?_classEntry rfl]

/-- Both blocks together grant what the mode grants to the caller's class: an
    owner has its own rights even as a member of the group, and neither owner
    nor group gets what only a wider class has. -/
theorem verdict?_mode (p : Permission) :
    ((caller.verdict? p.right (AccessList.deniedEntries kind mode)).or
      (caller.verdict? p.right (AccessList.allowedEntries kind mode)) == some .allow) =
        mode.grants caller.requester p := by
  rw [verdict?_deniedEntries, verdict?_allowedEntries]
  simp only [told, isIn, requester, Mode.has_ownerFirst, Mode.has_ownerDenied,
    Mode.has_groupDenied, Mode.has_allowed]
  cases caller.isOwner <;> cases caller.inGroup <;>
    simp only [if_true, if_false, Bool.false_eq_true, Bool.true_and, Bool.false_and] <;>
    cases mode.grants .owner p <;> cases mode.grants .group p <;> cases mode.grants .other p <;>
    rfl

end Caller

/-! ### Access under an extended list -/

namespace AccessList

theorem entries_of_inherit {parent inherited : AccessList} {kind : ObjectKind}
    (hok : (inherit parent (empty kind) kind).result = .ok inherited) :
    inherited.entries = arrivals kind parent.entries := by
  rw [result_inherit] at hok
  exact (append_eq_ok_iff.1 hok).2.2

/-- **Who gets what by a mode.**  An empty list that is extended by a mode, and by
    what it inherits from a parent if it has one, grants reading, writing and
    executing just as the mode does to the class that the caller falls into,
    provided that the caller need heed nothing of what is inherited: no such
    entry is about the caller, or those that are do not count for this object. -/
theorem granted_extend (kind : ObjectKind) (flags : ListFlags) (parent : Option AccessList)
    (mode : Mode) (caller : Caller) (p : Permission)
    (hparent : ∀ source inherited, parent = some source →
      (inherit source (empty kind) kind).result = .ok inherited →
      ∀ e ∈ inherited.entries, caller.heeds e = false) :
    ∃ list, (((empty kind).setFlags flags).extend parent mode false kind).result = .ok list ∧
      caller.granted p.right list.entries = mode.grants caller.requester p := by
  have hfits : ∀ e ∈ deniedEntries kind mode ++ (arrivals kind (parentEntries parent) ++
      allowedEntries kind mode), e.fits ((empty kind).setFlags flags).kind := by
    intro e hmem
    rcases List.mem_append.1 hmem with hdenied | hrest
    · exact fits_of_mem_deniedEntries e hdenied
    · rcases List.mem_append.1 hrest with harrived | hallowed
      · exact fits_of_mem_arrivals e harrived
      · exact fits_of_mem_allowedEntries e hallowed
  have hunheeded : ∀ e ∈ arrivals kind (parentEntries parent), caller.heeds e = false := by
    cases parent with
    | none => exact nofun
    | some source =>
      have hadd : ((empty kind).append (arrivals kind source.entries)).result =
          .ok ((empty kind).concat _ fits_of_mem_arrivals) := append_of_fits _
      have hinherit := (result_inherit source (empty kind) kind).trans hadd
      rw [parentEntries, Option.map_some, Option.getD_some, ← entries_of_inherit hinherit]
      exact hparent source _ rfl hinherit
  refine ⟨_, (result_extend _ parent mode kind).trans (append_of_fits hfits), ?_⟩
  show (caller.verdict? p.right ([] ++ (deniedEntries kind mode ++
    (arrivals kind (parentEntries parent) ++ allowedEntries kind mode))) == some .allow) = _
  rw [List.nil_append, Caller.verdict?_append, Caller.verdict?_append,
    Caller.verdict?_unheeded hunheeded, Option.none_or, Caller.verdict?_mode]

/-- A group that may write does not let its owner write, whatever user 7 is
    denied by the parent. -/
theorem granted_extend_owner_in_group :
    let passing : Entry :=
      ⟨.deny, EntryFlags.inheritable, Rights.full, .named 7, by decide, by decide, by decide⟩
    let parent : AccessList := ⟨.directory, Flags.none, [passing], by decide⟩
    let caller : Caller := ⟨true, true, (· == 5), fun _ => false⟩
    (∀ e ∈ arrivals .file parent.entries, caller.heeds e = false) ∧
      ∃ list, (((empty .file).setFlags Flags.none).extend (some parent) 0x138 false .file).result =
        .ok list ∧ caller.granted .writeData list.entries = false := by
  intro passing parent caller
  have hunheeded : ∀ e ∈ arrivals .file parent.entries, caller.heeds e = false := by decide
  have hmode : Mode.grants 0x138 caller.requester .write = false := by decide
  obtain ⟨list, hlist, hgranted⟩ :=
    granted_extend .file Flags.none (some parent) 0x138 caller .write (by
      rintro source inherited ⟨⟩ hok
      rw [entries_of_inherit hok]
      exact hunheeded)
  exact ⟨hunheeded, list, hlist, hgranted.trans hmode⟩

end AccessList

end AccessControl
