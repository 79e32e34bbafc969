/-
  AccessControl/Proofs/AccessList/Generations.lean
  ================================================
  **What is inherited further and further down.**

  `Entry.reaches` says whether an entry gets to a new object, and
  `Entry.Arrives` how it looks there, flag by flag; together they are the rule of
  inheritance (`arrival?_eq_some_iff_arrives`).  An entry that has arrived in a
  directory passes on just as the entry it came from, unless that was not to
  propagate, and then not at all (`bind_arrival?`).  So in directories made in
  one another the lists are the same from the second on (`generation_settles`).
-/
import AccessControl.Proofs.AccessList.Inherit
import Mathlib.Data.List.Forall2
import Mathlib.Tactic.SplitIfs

namespace AccessControl

namespace Entry

variable {kind : ObjectKind} {e a b : Entry} {flags : EntryFlags}

/-! ### One entry, one step -/

/-- Some kind of new object is meant to get the entry. -/
def isInheritable (e : Entry) : Bool := e.flags.meets EntryFlags.inheritable

/-- The entry is passed on by the objects that get it, too. -/
def isLasting (e : Entry) : Bool := !e.flags.has .noPropagate

/-- The entry gets to a new object of a kind. -/
def reaches (kind : ObjectKind) (e : Entry) : Bool :=
  e.type.isAccess && match kind with
    | .file => e.flags.has .fileInherit
    | .directory => e.flags.has .directoryInherit || e.flags.has .fileInherit && e.isLasting

/-- The entry can be passed on from a new object of a kind. -/
def remainsInheritable (kind : ObjectKind) (e : Entry) : Bool := kind.isDirectory && e.isLasting

/-- Which flags the entry has at a new object of a kind. -/
def flagOnArrival (kind : ObjectKind) (e : Entry) : EntryFlag → Bool
  | .inherited => true
  | .noPropagate => false
  | .fileInherit => e.remainsInheritable kind && e.flags.has .fileInherit
  | .directoryInherit => e.remainsInheritable kind && e.flags.has .directoryInherit
  -- An entry for files waits in a directory without counting there.
  | .inheritOnly => e.remainsInheritable kind && !e.flags.has .directoryInherit
  | flag => e.flags.has flag

/-- `a` is how `e` looks at a new object of a kind. -/
structure Arrives (kind : ObjectKind) (e a : Entry) : Prop where
  type : a.type = e.type
  principal : a.principal = e.principal
  mask : a.mask = e.mask.givenBy kind
  flags : ∀ flag, a.flags.has flag = e.flagOnArrival kind flag

theorem isInheritable_eq (e : Entry) :
    e.isInheritable = (e.flags.has .fileInherit || e.flags.has .directoryInherit) := by
  simp [isInheritable, EntryFlags.inheritable, Flags.meets_of]

/-- Whatever is inheritable and decides about access gets somewhere. -/
theorem reaches_file_or_directory (e : Entry) :
    (e.reaches .file || e.reaches .directory) = (e.type.isAccess && e.isInheritable) := by
  simp only [reaches, isInheritable_eq, ← Bool.and_or_distrib_left]
  cases e.flags.has .fileInherit <;> simp

theorem isInheritable_of_reaches (hreaches : e.reaches kind) : e.isInheritable := by
  have hsomewhere : (e.reaches .file || e.reaches .directory) = true := by
    cases kind <;> simp [hreaches]
  rw [reaches_file_or_directory, Bool.and_eq_true] at hsomewhere
  exact hsomewhere.2

theorem flags_inter_all (e : Entry) : e.flags ∩ Flags.all = e.flags := by
  rw [← e.flags_settled]
  exact EntryFlags.settle_inter_all e.principal e.flags

/-- Nothing about an entry that arrives is left open. -/
theorem Arrives.unique (ha : e.Arrives kind a) (hb : e.Arrives kind b) : a = b := by
  apply ext_fields
  · rw [ha.type, hb.type]
  · apply Flags.eq_of_has a.flags_inter_all b.flags_inter_all
    intro flag
    rw [ha.flags, hb.flags]
  · rw [ha.mask, hb.mask]
  · rw [ha.principal, hb.principal]

theorem reaches_of_passedOn (hpassed : e.passedOn kind = .ok flags) : e.reaches kind := by
  have hmeets : e.flags.meets EntryFlags.inheritable = _ := e.isInheritable_eq
  unfold passedOn at hpassed
  rw [hmeets] at hpassed
  split_ifs at hpassed with hinheritable hfile hdirectory haccess
  rw [Bool.not_eq_true', Bool.not_eq_false] at haccess
  cases kind with
  | file => simpa [reaches, haccess] using hfile
  | directory =>
    by_cases hdirectories : e.flags.has .directoryInherit
    · simp [reaches, haccess, hdirectories]
    · have hfiles : e.flags.has .fileInherit := by simpa [hdirectories] using hinheritable
      have hno : e.flags.has .noPropagate = false := by simpa [hdirectories] using hdirectory
      simp [reaches, isLasting, haccess, hfiles, hno]

theorem exists_passedOn (hreaches : e.reaches kind) : ∃ flags, e.passedOn kind = .ok flags := by
  have hinheritable := isInheritable_of_reaches hreaches
  unfold passedOn
  dsimp only
  rw [← isInheritable, hinheritable]
  split_ifs with hnone hfile hdirectory haccess hlast hfirst
  · simp at hnone
  · obtain ⟨rfl, hfile⟩ := hfile
    rw [Bool.not_eq_true'] at hfile
    simp [reaches, hfile] at hreaches
  · obtain ⟨rfl, hdirectory, hno⟩ := hdirectory
    rw [Bool.not_eq_true'] at hdirectory
    simp [reaches, isLasting, hdirectory, hno] at hreaches
  · rw [Bool.not_eq_true'] at haccess
    simp [reaches, haccess] at hreaches
  all_goals exact ⟨_, rfl⟩

/-- The flags that are passed on, one by one. -/
theorem has_of_passedOn (hpassed : e.passedOn kind = .ok flags) (flag : EntryFlag) :
    flags.has flag = e.flagOnArrival kind flag := by
  have hmeets : e.flags.meets EntryFlags.inheritable = _ := e.isInheritable_eq
  unfold passedOn at hpassed
  dsimp only at hpassed
  rw [hmeets] at hpassed
  split_ifs at hpassed with hinheritable hfile hdirectory haccess hlast hfirst <;> cases hpassed
  · have hgone : e.remainsInheritable kind = false := by
      rcases hlast with rfl | hno
      · rfl
      · have hno : e.flags.has .noPropagate := by simpa using hno
        simp [remainsInheritable, isLasting, hno]
    cases flag <;> simp [flagOnArrival, hgone, EntryFlags.directoryOnly]
  all_goals
    obtain ⟨hkind, hno⟩ : kind ≠ .file ∧ e.flags.has .noPropagate = false := by simpa using hlast
    have hremains : e.remainsInheritable kind := by
      cases kind with
      | file => exact absurd rfl hkind
      | directory => simp [remainsInheritable, isLasting, hno, ObjectKind.isDirectory]
  · have hfiles : e.flags.has .directoryInherit = false := by simpa using hfirst.2
    cases flag <;> simp [flagOnArrival, hremains, hno, hfiles]
  · have hdirectories : e.flags.has .directoryInherit := by
      by_cases hfiles : e.flags.has .fileInherit
      · simpa [hfiles] using hfirst
      · simpa [hfiles] using hinheritable
    cases flag <;> simp [flagOnArrival, hremains, hno, hdirectories]

/-- Building the entry that arrives leaves those flags as they are. -/
theorem has_settle_of_passedOn (hpassed : e.passedOn kind = .ok flags) (flag : EntryFlag) :
    (flags.settle e.principal).has flag = e.flagOnArrival kind flag := by
  have hown := congrArg (fun own => own.has flag) e.flags_settled
  simp only [EntryFlags.has_settle] at hown
  rw [EntryFlags.has_settle, has_of_passedOn hpassed]
  cases flag
  case identifierGroup | ownerMark | groupMark | everyoneMark => exact hown
  all_goals
    cases e.principal <;>
      simp [EntryFlags.kept, EntryFlags.forced, EntryFlags.shown, EntryFlag.shown,
        EntryFlags.identifierGroup, Principal.marker]

/-- **The rule of inheritance.** -/
theorem arrival?_eq_some_iff_arrives :
    e.arrival? kind = some a ↔ e.reaches kind ∧ e.Arrives kind a := by
  rw [arrival?_eq_some_iff]
  constructor
  · rintro ⟨flags, hpassed, hbuild⟩
    obtain ⟨-, -, htype, hflags, hmask, hprincipal⟩ := build_eq_ok_iff.1 hbuild
    refine ⟨reaches_of_passedOn hpassed, htype, hprincipal, hmask, ?_⟩
    intro flag
    rw [hflags, has_settle_of_passedOn hpassed]
  · rintro ⟨hreaches, harrives⟩
    obtain ⟨flags, hpassed⟩ := exists_passedOn hreaches
    obtain ⟨built, hbuild⟩ := exists_build_of_passedOn hpassed
    obtain ⟨-, -, htype, hflags, hmask, hprincipal⟩ := build_eq_ok_iff.1 hbuild
    have hbuilt : e.Arrives kind built := by
      refine ⟨htype, hprincipal, hmask, ?_⟩
      intro flag
      rw [hflags, has_settle_of_passedOn hpassed]
    have hsame : built = a := hbuilt.unique harrives
    exact ⟨flags, hpassed, hsame ▸ hbuild⟩

theorem isSome_arrival? (kind : ObjectKind) (e : Entry) :
    (e.arrival? kind).isSome = e.reaches kind := by
  rw [Bool.eq_iff_iff, Option.isSome_iff_exists]
  constructor
  · rintro ⟨a, harrival⟩
    exact (arrival?_eq_some_iff_arrives.1 harrival).1
  · intro hreaches
    obtain ⟨flags, hpassed⟩ := exists_passedOn hreaches
    obtain ⟨a, hbuild⟩ := exists_build_of_passedOn hpassed
    exact ⟨a, arrival?_eq_some_iff.2 ⟨flags, hpassed, hbuild⟩⟩

theorem arrival?_eq_none_iff : e.arrival? kind = none ↔ e.reaches kind = false := by
  rw [← isSome_arrival?, Option.isSome_eq_false_iff, Option.isNone_iff_eq_none]

theorem reaches_directory_of_isLasting (hlasting : e.isLasting) :
    e.reaches .directory = (e.type.isAccess && e.isInheritable) := by
  simp [reaches, isInheritable_eq, hlasting, Bool.or_comm]

/-! ### One entry, two steps -/

theorem isLasting_of_arrives (harrives : e.Arrives kind a) : a.isLasting := by
  simp [isLasting, harrives.flags, flagOnArrival]

theorem isInheritable_of_arrives (hreaches : e.reaches .directory)
    (harrives : e.Arrives .directory a) : a.isInheritable = e.isLasting := by
  have hinheritable := isInheritable_of_reaches hreaches
  rw [isInheritable_eq] at hinheritable ⊢
  simp only [harrives.flags, flagOnArrival, remainsInheritable, ObjectKind.isDirectory]
  rw [← Bool.and_or_distrib_left, hinheritable]
  simp

theorem reaches_of_arrives (hlasting : e.isLasting) (harrives : e.Arrives .directory a) :
    a.reaches kind = e.reaches kind := by
  have hremains : e.remainsInheritable .directory = true := hlasting
  cases kind <;>
    simp [reaches, isLasting_of_arrives harrives, harrives.type, harrives.flags, flagOnArrival,
      hremains, hlasting]

theorem arrives_of_arrives (hlasting : e.isLasting) (harrives : e.Arrives .directory a) :
    a.Arrives kind b ↔ e.Arrives kind b := by
  have hmask : a.mask = e.mask := harrives.mask.trans e.mask_defined
  have hremains : e.remainsInheritable .directory = true := hlasting
  have hsame : a.remainsInheritable kind = e.remainsInheritable kind := by
    simp [remainsInheritable, isLasting_of_arrives harrives, hlasting]
  have hflags : ∀ flag, a.flagOnArrival kind flag = e.flagOnArrival kind flag := by
    intro flag
    cases flag <;> simp [flagOnArrival, hsame, harrives.flags, hremains]
  constructor
  · rintro ⟨htype, hprincipal, hmask', hflags'⟩
    refine ⟨htype.trans harrives.type, hprincipal.trans harrives.principal, hmask ▸ hmask', ?_⟩
    intro flag
    rw [hflags', hflags]
  · rintro ⟨htype, hprincipal, hmask', hflags'⟩
    refine ⟨htype.trans harrives.type.symm, hprincipal.trans harrives.principal.symm,
      hmask.symm ▸ hmask', ?_⟩
    intro flag
    rw [hflags', hflags]

/-- By way of a directory an entry gets where it gets directly, and looks the
    same, if it propagates; else it gets nowhere. -/
theorem bind_arrival? (kind : ObjectKind) (e : Entry) :
    (e.arrival? .directory).bind (arrival? kind) =
      if e.isLasting then e.arrival? kind else none := by
  cases harrival : e.arrival? .directory with
  | none =>
    rw [arrival?_eq_none_iff] at harrival
    rw [Option.bind_none]
    split_ifs with hlasting
    · -- An entry that propagates gets into directories if it gets anywhere.
      rw [reaches_directory_of_isLasting hlasting, ← reaches_file_or_directory,
        Bool.or_eq_false_iff] at harrival
      symm
      rw [arrival?_eq_none_iff]
      cases kind with
      | file => exact harrival.1
      | directory => exact harrival.2
    · rfl
  | some a =>
    obtain ⟨hreaches, harrives⟩ := arrival?_eq_some_iff_arrives.1 harrival
    rw [Option.bind_some]
    split_ifs with hlasting
    · apply Option.ext
      intro b
      rw [arrival?_eq_some_iff_arrives, arrival?_eq_some_iff_arrives,
        reaches_of_arrives hlasting harrives, arrives_of_arrives hlasting harrives]
    · rw [arrival?_eq_none_iff, ← Bool.not_eq_true]
      intro honward
      apply hlasting
      rw [← isInheritable_of_arrives hreaches harrives]
      exact isInheritable_of_reaches honward

end Entry

namespace AccessList

open Entry

/-! ### Lists -/

/-- The list without the entries that are not to propagate. -/
def lasting (list : AccessList) : AccessList :=
  { list with
    entries := list.entries.filter isLasting
    all_fit := fun e hmem => list.all_fit e (List.mem_filter.1 hmem).1 }

/-- The list of a directory so many levels below the one with the list `parent`,
    each made in the one above with nothing of its own. -/
def generation (parent : AccessList) : Nat → Attempt Fault AccessList
  | 0 => return parent
  | depth + 1 => do
    let above ← generation parent depth
    inherit above (empty .directory) .directory

/-- What a new object has that gets all it has from entries `es`. -/
def heir (kind : ObjectKind) (es : List Entry) : AccessList :=
  (empty kind).concat (arrivals kind es) fits_of_mem_arrivals

variable {kind : ObjectKind} {parent : AccessList} {es : List Entry}

@[simp] theorem entries_heir : (heir kind es).entries = arrivals kind es := rfl

theorem result_inherit_empty (parent : AccessList) (kind : ObjectKind) :
    (inherit parent (empty kind) kind).result = .ok (heir kind parent.entries) := by
  rw [result_inherit]
  exact append_of_fits fits_of_mem_arrivals

theorem arrivals_arrivals (kind : ObjectKind) (es : List Entry) :
    arrivals kind (arrivals .directory es) = arrivals kind (es.filter isLasting) := by
  unfold arrivals
  rw [List.filterMap_filterMap, List.filterMap_filter]
  apply List.filterMap_congr
  intro e _
  exact bind_arrival? kind e

/-- What is passed on from a directory is what can be. -/
theorem filter_isInheritable_arrivals (es : List Entry) :
    (arrivals .directory es).filter isInheritable = arrivals .directory (es.filter isLasting) := by
  unfold arrivals
  rw [List.filter_filterMap, List.filterMap_filter]
  apply List.filterMap_congr
  intro e _
  cases harrival : e.arrival? .directory with
  | none => simp
  | some a =>
    obtain ⟨hreaches, harrives⟩ := arrival?_eq_some_iff_arrives.1 harrival
    simp [Option.filter, isInheritable_of_arrives hreaches harrives]

theorem forall₂_arrivals (kind : ObjectKind) (es : List Entry) :
    List.Forall₂ (Arrives kind) (es.filter (reaches kind)) (arrivals kind es) := by
  induction es with
  | nil => exact .nil
  | cons e es ih =>
    have hsome := isSome_arrival? kind e
    cases harrival : e.arrival? kind with
    | none =>
      rw [harrival] at hsome
      rw [List.filter_cons_of_neg (by simp [← hsome]), arrivals, List.filterMap_cons_none harrival]
      exact ih
    | some a =>
      obtain ⟨hreaches, harrives⟩ := arrival?_eq_some_iff_arrives.1 harrival
      rw [List.filter_cons_of_pos hreaches, arrivals, List.filterMap_cons_some harrival]
      exact .cons harrives ih

/-! ### Generations -/

theorem result_generation_one (parent : AccessList) :
    (generation parent 1).result = .ok (heir .directory parent.entries) := by
  rw [generation, generation, pure_bind, result_inherit_empty]

/-- From the second generation on nothing changes. -/
theorem result_generation_add_two (parent : AccessList) (depth : Nat) :
    (generation parent (depth + 2)).result = .ok (heir .directory parent.lasting.entries) := by
  induction depth with
  | zero =>
    rw [generation, Attempt.result_bind, result_generation_one, ok_bind, result_inherit_empty,
      entries_heir]
    simp only [heir, arrivals_arrivals, lasting]
  | succ depth ih =>
    rw [generation, Attempt.result_bind, ih, ok_bind, result_inherit_empty, entries_heir]
    simp only [heir, arrivals_arrivals, lasting, List.filter_filter, Bool.and_self]

/-- Files get the same at every depth. -/
theorem result_file_below_generation (parent : AccessList) (depth : Nat) :
    ((generation parent (depth + 1)).result >>= fun above =>
      (inherit above (empty .file) .file).result) = .ok (heir .file parent.lasting.entries) := by
  cases depth with
  | zero =>
    rw [result_generation_one, ok_bind, result_inherit_empty, entries_heir]
    simp only [heir, arrivals_arrivals, lasting]
  | succ depth =>
    rw [result_generation_add_two, ok_bind, result_inherit_empty, entries_heir]
    simp only [heir, arrivals_arrivals, lasting, List.filter_filter, Bool.and_self]

/-- How inheriting goes on below a directory with the list `parent`: `first` is the
    list of a directory made in it, `later` that of one further down, `sibling`
    that of a file made in it, and `file` that of one further down. -/
structure Lineage (parent first later sibling file : AccessList) : Prop where
  first_made : (generation parent 1).result = .ok first
  later_made : ∀ depth, (generation parent (depth + 2)).result = .ok later
  sibling_made : (inherit parent (empty .file) .file).result = .ok sibling
  file_made : ∀ depth, (generation parent (depth + 1) >>= fun above =>
    inherit above (empty .file) .file).result = .ok file
  later_inheritable : later.entries = first.entries.filter isInheritable
  later_lasting : (inherit parent.lasting (empty .directory) .directory).result = .ok later
  file_lasting : (inherit parent.lasting (empty .file) .file).result = .ok file
  first_arrives : List.Forall₂ (Arrives .directory) (parent.entries.filter (reaches .directory))
    first.entries
  sibling_arrives : List.Forall₂ (Arrives .file) (parent.entries.filter (reaches .file))
    sibling.entries
  later_arrives : List.Forall₂ (Arrives .directory)
    (parent.entries.filter fun e => e.type.isAccess && e.isInheritable && e.isLasting)
    later.entries
  file_arrives : List.Forall₂ (Arrives .file)
    (parent.entries.filter fun e => e.reaches .file && e.isLasting) file.entries

/-- **Inheritance over any number of generations.**  Directories made in one another
    have the same list from the second on, and files the same at every depth.
    Entries that are not to propagate get to what is made in the parent itself and
    no further; all others that are inheritable get to every depth, unchanged after
    their first step. -/
theorem generation_settles (parent : AccessList) :
    (∃ first later sibling file, Lineage parent first later sibling file) ∧
      ∀ e : Entry, (e.reaches .file || e.reaches .directory) =
        (e.type.isAccess && e.isInheritable) := by
  refine ⟨⟨heir .directory parent.entries, heir .directory parent.lasting.entries,
    heir .file parent.entries, heir .file parent.lasting.entries, ?_⟩, reaches_file_or_directory⟩
  refine {
    first_made := result_generation_one parent
    later_made := result_generation_add_two parent
    sibling_made := result_inherit_empty parent .file
    file_made := ?_
    later_inheritable := (filter_isInheritable_arrivals parent.entries).symm
    later_lasting := result_inherit_empty parent.lasting .directory
    file_lasting := result_inherit_empty parent.lasting .file
    first_arrives := forall₂_arrivals .directory parent.entries
    sibling_arrives := forall₂_arrivals .file parent.entries
    later_arrives := ?_
    file_arrives := ?_ }
  · intro depth
    rw [Attempt.result_bind]
    exact result_file_below_generation parent depth
  · have hlater := forall₂_arrivals .directory parent.lasting.entries
    have hsame : parent.lasting.entries.filter (reaches .directory) =
        parent.entries.filter fun e => e.type.isAccess && e.isInheritable && e.isLasting := by
      rw [lasting, List.filter_filter]
      apply List.filter_congr
      intro e _
      cases hlasting : e.isLasting
      · simp
      · simp [reaches_directory_of_isLasting hlasting]
    rwa [hsame] at hlater
  · have hfile := forall₂_arrivals .file parent.lasting.entries
    rwa [lasting, List.filter_filter] at hfile

end AccessList

end AccessControl
