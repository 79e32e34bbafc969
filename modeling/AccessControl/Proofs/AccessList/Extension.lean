/-
  AccessControl/Proofs/AccessList/Extension.lean
  ==============================================
  **How an extended list is laid out.**

  What a mode says is a list of clauses, some of them before what is inherited and
  some after it (`Mode.leading`, `Mode.trailing`).  No clause speaks of the one right
  that only directories give, so its entry fits lists of either kind, whichever kind
  it is built for (`Clause.fits_entry`).  Hence only what is inherited can be refused,
  and neither the mode nor the entries that are there already have a say in it
  (`extend_eq_error_iff`).

  All that is inherited is marked so and no entry of a mode is.  That is enough for a
  new list to be trivial only if nothing reached it (`isTrivial_extend_iff`), whatever
  the inherited entries do to the mode that the list folds to.
-/
import AccessControl.Proofs.AccessList.Heir
import AccessControl.Proofs.AccessList.Trivial

namespace AccessControl

open Rights (everywhere)

/-! ### Clauses -/

/-- What an entry of a mode says: its type, its rights, and the class that it is for. -/
structure Clause where
  type : EntryType
  mask : Rights
  who : Requester

namespace Clause

variable {clause : Clause} {clauses : List Clause} {kind held : ObjectKind} {e : Entry}

/-- The entry says the clause and nothing else. -/
structure SaidIn (clause : Clause) (e : Entry) : Prop where
  type : e.type = clause.type
  mask : e.mask = clause.mask
  principal : e.principal = clause.who.principal
  flags : e.flags = EntryFlags.forced clause.who.principal

def entry (kind : ObjectKind) (clause : Clause) : Entry :=
  AccessList.classEntry kind clause.type clause.mask clause.who

theorem flags_entry (kind : ObjectKind) (clause : Clause) :
    (clause.entry kind).flags = EntryFlags.forced clause.who.principal := by
  show EntryFlags.settle clause.who.principal Flags.none = _
  rcases clause.who with _ | _ | _ <;> decide

theorem saidIn_entry (hmask : clause.mask ∩ everywhere = clause.mask) (kind : ObjectKind) :
    clause.SaidIn (clause.entry kind) :=
  ⟨rfl, Rights.givenBy_of_everywhere hmask kind, rfl, flags_entry kind clause⟩

theorem forall₂_saidIn (hmasks : ∀ clause ∈ clauses, clause.mask ∩ everywhere = clause.mask)
    (kind : ObjectKind) : List.Forall₂ SaidIn clauses (clauses.map (entry kind)) :=
  List.forall₂_map_right_iff.2 (List.forall₂_same.2 fun _ hmem => saidIn_entry (hmasks _ hmem) kind)

/-- The kind that the entry is built for and the kind of the list need not agree. -/
theorem fits_entry (hmask : clause.mask ∩ everywhere = clause.mask) (kind held : ObjectKind) :
    (clause.entry kind).fits held = true := by
  refine Entry.fits_iff.2 fun _ => ⟨?_, ?_⟩
  · rw [flags_entry]
    rcases clause.who with _ | _ | _ <;> decide
  · rw [(saidIn_entry hmask kind).mask]
    exact Rights.has_deleteChild_of_everywhere hmask

theorem fits_of_mem_entries (hmasks : ∀ clause ∈ clauses, clause.mask ∩ everywhere = clause.mask)
    (kind held : ObjectKind) : ∀ e ∈ clauses.map (entry kind), e.fits held = true := by
  intro e hmem
  obtain ⟨clause, hclause, rfl⟩ := List.mem_map.1 hmem
  exact fits_entry (hmasks clause hclause) kind held

end Clause

namespace Mode

variable {mode : Mode} {kind : ObjectKind}

/-- What a mode says before what is inherited; a clause without rights is left out. -/
def leading (mode : Mode) : List Clause :=
  [⟨.allow, mode.ownerFirst, .owner⟩, ⟨.deny, mode.ownerDenied, .owner⟩,
    ⟨.deny, mode.groupDenied, .group⟩].filter fun clause => !clause.mask.isEmpty

/-- What a mode says after what is inherited. -/
def trailing (mode : Mode) : List Clause :=
  Requester.all.map fun who => ⟨.allow, mode.allowed who, who⟩

theorem everywhere_of_mem_leading (mode : Mode) :
    ∀ clause ∈ mode.leading, clause.mask ∩ everywhere = clause.mask := by
  intro clause hmem
  have hlisted := (List.mem_filter.1 hmem).1
  simp only [List.mem_cons, List.not_mem_nil, or_false] at hlisted
  rcases hlisted with rfl | rfl | rfl
  · exact ownerFirst_inter_everywhere mode
  · exact ownerDenied_inter_everywhere mode
  · exact groupDenied_inter_everywhere mode

theorem everywhere_of_mem_trailing (mode : Mode) :
    ∀ clause ∈ mode.trailing, clause.mask ∩ everywhere = clause.mask := by
  intro clause hmem
  obtain ⟨who, -, rfl⟩ := List.mem_map.1 hmem
  exact allowed_inter_everywhere mode who

theorem deniedEntries_eq :
    AccessList.deniedEntries kind mode = mode.leading.map (Clause.entry kind) := by
  have hone : ∀ type mask who, AccessList.nonemptyEntry kind type mask who =
      (([⟨type, mask, who⟩] : List Clause).filter fun clause => !clause.mask.isEmpty).map
        (Clause.entry kind) := by
    intro type mask who
    rcases hempty : mask.isEmpty with _ | _ <;>
      simp [AccessList.nonemptyEntry, hempty, Clause.entry]
  rw [AccessList.deniedEntries, hone, hone, hone, ← List.map_append, ← List.map_append,
    ← List.filter_append, ← List.filter_append]
  rfl

theorem allowedEntries_eq :
    AccessList.allowedEntries kind mode = mode.trailing.map (Clause.entry kind) := by
  rw [trailing, List.map_map]
  rfl

end Mode

namespace AccessList

variable {list longer : AccessList} {parent : Option AccessList} {mode : Mode} {skipMode : Bool}
  {kind held : ObjectKind} {fault : Fault}

/-! ### Extending in one piece -/

/-- What extending adds: the clauses of the mode around what arrives. -/
def added (parent : Option AccessList) (mode : Mode) (skipMode : Bool) (kind : ObjectKind) :
    List Entry :=
  (if skipMode then [] else mode.leading).map (Clause.entry kind) ++
    (arrivals kind (parentEntries parent) ++
      (if skipMode then [] else mode.trailing).map (Clause.entry kind))

theorem everywhere_of_mem_unless {clauses : List Clause}
    (hmasks : ∀ clause ∈ clauses, clause.mask ∩ everywhere = clause.mask) :
    ∀ clause ∈ (if skipMode then [] else clauses), clause.mask ∩ everywhere = clause.mask := by
  rcases skipMode with _ | _
  · exact hmasks
  · nofun

theorem result_extend_added (hsource : ¬ (parent = none ∧ skipMode = true)) :
    (list.extend parent mode skipMode kind).result =
      (list.append (added parent mode skipMode kind)).result := by
  rcases skipMode with _ | _
  · rw [result_extend, Mode.deniedEntries_eq, Mode.allowedEntries_eq]
    rfl
  · rw [result_extend_skip]
    rcases parent with _ | source
    · exact absurd ⟨rfl, rfl⟩ hsource
    · have harrivals : added (some source) mode true kind = arrivals kind source.entries :=
        List.append_nil _
      rw [harrivals]
      exact result_inherit source list kind

/-- Of what is added, only what arrives may not fit. -/
theorem find?_added (held : ObjectKind) :
    (added parent mode skipMode kind).find? (fun e => !e.fits held) =
      (arrivals kind (parentEntries parent)).find? fun e => !e.fits held := by
  have hfit : ∀ clauses : List Clause,
      (∀ clause ∈ clauses, clause.mask ∩ everywhere = clause.mask) →
      (clauses.map (Clause.entry kind)).find? (fun e => !e.fits held) = none := by
    intro clauses hmasks
    refine List.find?_eq_none.2 fun e hmem => ?_
    rw [Clause.fits_of_mem_entries hmasks kind held e hmem]
    exact Bool.false_ne_true
  rw [added, List.find?_append, List.find?_append,
    hfit _ (everywhere_of_mem_unless mode.everywhere_of_mem_leading),
    hfit _ (everywhere_of_mem_unless mode.everywhere_of_mem_trailing), Option.none_or,
    Option.or_none]

/-- Extending fails for want of a parent, or as inheriting would into any list of the
    kind. -/
theorem extend_eq_error_iff (other : AccessList) (hkind : other.kind = list.kind) :
    (list.extend parent mode skipMode kind).result = .error fault ↔
      (parent = none ∧ skipMode = true ∧ fault = .nothingToInherit) ∨
        ∃ source, parent = some source ∧ (inherit source other kind).result = .error fault := by
  simp only [inherit_eq_error_iff, hkind]
  by_cases hsource : parent = none ∧ skipMode = true
  · obtain ⟨rfl, rfl⟩ := hsource
    rw [result_extend_skip]
    simp [eq_comm]
  · rw [result_extend_added hsource, append_eq_error_iff, find?_added]
    rcases parent with _ | source
    · have hmode : skipMode = false := by simpa using hsource
      simp [hmode, parentEntries, arrivals]
    · simp [parentEntries]

/-- With a parent, a list is extended as one of its own kind. -/
theorem exists_extend (list parent : AccessList) (mode : Mode) (skipMode : Bool) :
    ∃ longer, (list.extend (some parent) mode skipMode list.kind).result = .ok longer := by
  rcases hresult : (list.extend (some parent) mode skipMode list.kind).result with fault | longer
  · rcases (extend_eq_error_iff list rfl).1 hresult with ⟨hnone, -⟩ | ⟨_, ⟨⟩, hrefused⟩
    · cases hnone
    · obtain ⟨heir, hheir⟩ := exists_heir parent list
      rw [hheir] at hrefused
      cases hrefused
  · exact ⟨longer, rfl⟩

/-! ### Layout -/

/-- The entries that a list of some kind inherits from a parent, if there is one. -/
inductive Derives (held kind : ObjectKind) : Option AccessList → List Entry → Prop where
  | nothing : Derives held kind none []
  | inherited (source heir : AccessList)
      (hheir : (inherit source (empty held) kind).result = .ok heir) :
      Derives held kind (some source) heir.entries

/-- `longer` is `list` with the entries of a mode, unless that is skipped, around those
    that are inherited. -/
structure LaidOut (list : AccessList) (parent : Option AccessList) (mode : Mode) (skipMode : Bool)
    (kind : ObjectKind) (longer : AccessList) : Prop where
  kind_eq : longer.kind = list.kind
  flags_eq : longer.flags = list.flags
  entries_eq : ∃ before derived after,
    longer.entries = list.entries ++ (before ++ (derived ++ after)) ∧
    List.Forall₂ Clause.SaidIn (if skipMode then [] else mode.leading) before ∧
    Derives list.kind kind parent derived ∧
    List.Forall₂ Clause.SaidIn (if skipMode then [] else mode.trailing) after

theorem entries_of_extend (hsource : ¬ (parent = none ∧ skipMode = true))
    (hok : (list.extend parent mode skipMode kind).result = .ok longer) :
    longer.entries = list.entries ++ added parent mode skipMode kind := by
  rw [result_extend_added hsource] at hok
  exact (append_eq_ok_iff.1 hok).2.2

theorem derives_of_extend (hok : (list.extend parent mode skipMode kind).result = .ok longer) :
    Derives list.kind kind parent (arrivals kind (parentEntries parent)) := by
  rcases parent with _ | source
  · exact .nothing
  · rcases hresult : (inherit source (empty list.kind) kind).result with fault | heir
    · have hkind : (empty list.kind).kind = list.kind := rfl
      rw [(extend_eq_error_iff (empty list.kind) hkind).2 (.inr ⟨source, rfl, hresult⟩)] at hok
      cases hok
    · have hentries : heir.entries = arrivals kind source.entries := by
        rw [result_inherit] at hresult
        exact (append_eq_ok_iff.1 hresult).2.2
      have hderives := Derives.inherited source heir hresult
      rw [hentries] at hderives
      exact hderives

theorem laidOut_of_extend (hok : (list.extend parent mode skipMode kind).result = .ok longer) :
    LaidOut list parent mode skipMode kind longer := by
  have hderives := derives_of_extend hok
  have hsource : ¬ (parent = none ∧ skipMode = true) := by
    rintro ⟨rfl, rfl⟩
    rw [result_extend_skip] at hok
    cases hok
  rw [result_extend_added hsource] at hok
  obtain ⟨hkind, hflags, hentries⟩ := append_eq_ok_iff.1 hok
  rw [added] at hentries
  exact ⟨hkind, hflags, _, _, _, hentries,
    Clause.forall₂_saidIn (everywhere_of_mem_unless mode.everywhere_of_mem_leading) kind, hderives,
    Clause.forall₂_saidIn (everywhere_of_mem_unless mode.everywhere_of_mem_trailing) kind⟩

/-- The entries before what is inherited are in the copy, whatever comes next. -/
theorem exists_pushDenied (list : AccessList) (kind : ObjectKind) (mode : Mode) :
    ∃ copy before, (list.pushDenied kind mode).result = .ok copy ∧ copy.kind = list.kind ∧
      copy.entries = list.entries ++ before ∧
      List.Forall₂ Clause.SaidIn mode.leading before := by
  have hfit := Clause.fits_of_mem_entries mode.everywhere_of_mem_leading kind list.kind
  refine ⟨list.concat _ hfit, _, ?_, rfl, rfl,
    Clause.forall₂_saidIn mode.everywhere_of_mem_leading kind⟩
  rw [result_pushDenied, Mode.deniedEntries_eq]
  exact append_of_fits hfit

/-- `copy` is what there is of an extended list when it comes to inherit: the list, and
    what the mode says first, unless that is skipped. -/
structure Begun (list : AccessList) (mode : Mode) (skipMode : Bool) (kind : ObjectKind)
    (copy : AccessList) : Prop where
  reached : ((pushDeniedInPlace kind mode).unlessSkipped skipMode).on list = (.ok (), copy)
  pushed : skipMode = false → (list.pushDenied kind mode).result = .ok copy
  kind_eq : copy.kind = list.kind
  entries_eq : ∃ before, copy.entries = list.entries ++ before ∧
    List.Forall₂ Clause.SaidIn (if skipMode then [] else mode.leading) before

theorem exists_begun (list : AccessList) (mode : Mode) (skipMode : Bool) (kind : ObjectKind) :
    ∃ copy, Begun list mode skipMode kind copy := by
  rcases skipMode with _ | _
  · obtain ⟨copy, before, hcopy, hkind, hentries, hsaid⟩ := exists_pushDenied list kind mode
    exact ⟨copy, (performs_pushDenied kind mode).done hcopy, fun _ => hcopy, hkind, before, hentries,
      hsaid⟩
  · exact ⟨list, rfl, nofun, rfl, [], (List.append_nil _).symm, .nil⟩

/-- A draft stops with what there is by then in the copy, and the list untouched. -/
theorem on_extendDraft_of_error {source copy : AccessList}
    (hcopy : Begun list mode skipMode kind copy)
    (hrefused : (inherit source copy kind).result = .error fault) :
    (extendDraft (some source) mode skipMode kind).on ⟨list, list⟩ =
      (.error fault, ⟨list, copy⟩) := by
  have hinherit : (inheritFromInPlace kind (some source)).on copy = (.error fault, copy) := by
    rw [inheritFromInPlace, inheritInPlace_eq, InPlace.on_whole_of_error hrefused]
  apply Draft.on_staged_of_error
  exact (InPlace.on_bind_of_ok hcopy.reached).trans (InPlace.on_bind_of_error hinherit)

/-- **Extending a list.**  In place, the entries of the mode and what is inherited are
    entered into a copy of the list, and the copy takes the place of the list in the end.
    If that goes through, the old entries come first, then what the mode says before what
    is inherited, what is inherited, and what the mode says after it.  It fails exactly
    without a parent where the mode is skipped, or as inheriting from the parent fails for
    any list of the kind; then the list is as it was, though the first entries of the mode
    are in the copy by then, unless they are skipped. -/
theorem extend_laid_out_or_refused (list : AccessList) (parent : Option AccessList) (mode : Mode)
    (skipMode : Bool) (kind : ObjectKind) :
    let after := (extendInPlace parent mode skipMode kind).on list
    (after.1 = .ok () → (list.extend parent mode skipMode kind).result = .ok after.2 ∧
      LaidOut list parent mode skipMode kind after.2) ∧
    (∀ other : AccessList, other.kind = list.kind → ∀ fault,
      after.1 = .error fault ↔
        (parent = none ∧ skipMode = true ∧ fault = .nothingToInherit) ∨
          ∃ source, parent = some source ∧ (inherit source other kind).result = .error fault) ∧
    ∀ fault, after.1 = .error fault →
      (list.extend parent mode skipMode kind).result = .error fault ∧ after.2 = list ∧
      ∀ source, parent = some source →
        ∃ copy, Begun list mode skipMode kind copy ∧
          (inherit source copy kind).result = .error fault ∧
          (extendDraft parent mode skipMode kind).on ⟨list, list⟩ =
            (.error fault, ⟨list, copy⟩) := by
  intro after
  have hafter : after = (InPlace.whole fun list : AccessList =>
      (list.extend parent mode skipMode kind).result).on list := by rw [← extendInPlace_eq]
  have hfails : ∀ fault, after.1 = .error fault ↔
      (list.extend parent mode skipMode kind).result = .error fault := by
    intro fault
    rw [hafter, InPlace.fst_on_whole_eq_error_iff]
  refine ⟨?_, fun other hkind fault => (hfails fault).trans (extend_eq_error_iff other hkind), ?_⟩
  · intro hok
    have hlonger := InPlace.on_whole_eq_ok_iff.1 (hafter.symm.trans (Prod.ext hok rfl))
    exact ⟨hlonger, laidOut_of_extend hlonger⟩
  · intro fault hanswer
    have herror := (hfails fault).1 hanswer
    refine ⟨herror, by rw [hafter, InPlace.on_whole_of_error herror], ?_⟩
    rintro source rfl
    obtain ⟨copy, hcopy⟩ := exists_begun list mode skipMode kind
    have hrefused : (inherit source copy kind).result = .error fault := by
      rcases (extend_eq_error_iff copy hcopy.kind_eq).1 herror with ⟨hnone, -⟩ | ⟨_, ⟨⟩, hrefused⟩
      · cases hnone
      · exact hrefused
    exact ⟨copy, hcopy, hrefused, on_extendDraft_of_error hcopy hrefused⟩

/-- A mode that denies its owner something has said so in the copy when a file that is
    told to be a directory refuses what it would inherit; told to be a file it takes it. -/
theorem extend_laid_out_or_refused_halfway :
    let sweeper : Entry :=
      ⟨.deny, ⟨0x3⟩, Rights.full, .named 8, by decide, by decide, by decide⟩
    let arrived : Entry :=
      ⟨.deny, ⟨0x83⟩, Rights.full, .named 8, by decide, by decide, by decide⟩
    let parent : AccessList := ⟨.directory, Flags.none, [sweeper], by decide⟩
    let list : AccessList := ⟨.file, ⟨0x80000005⟩, [], by decide⟩
    (extendInPlace (some parent) 0x38 false .directory).on list = (.error (misfit arrived), list) ∧
      (∃ copy, copy.size = 1 ∧ (extendDraft (some parent) 0x38 false .directory).on ⟨list, list⟩ =
        (.error (misfit arrived), ⟨list, copy⟩)) ∧
      ∃ longer, (extendInPlace (some parent) 0x38 false .file).on list = (.ok (), longer) ∧
        LaidOut list (some parent) 0x38 false .file longer := by
  intro sweeper arrived parent list
  have herror : (list.extend (some parent) 0x38 false .directory).result =
      .error (misfit arrived) := by decide +kernel
  have hanswer : ((extendInPlace (some parent) 0x38 false .directory).on list).1 =
      .error (misfit arrived) := by
    rw [extendInPlace_eq, InPlace.on_whole_of_error herror]
  obtain ⟨-, hkept, hcopy⟩ :=
    (extend_laid_out_or_refused list (some parent) 0x38 false .directory).2.2 _ hanswer
  obtain ⟨copy, hbegun, -, hdraft⟩ := hcopy parent rfl
  obtain ⟨before, hentries, hsaid⟩ := hbegun.entries_eq
  have hlength : (Mode.leading 0x38).length = 1 := by decide
  have hsize : copy.size = 1 := by
    rw [size, hentries, List.nil_append, ← hsaid.length_eq]
    exact hlength
  obtain ⟨longer, hlonger⟩ := exists_extend list parent 0x38 false
  have hdone : (extendInPlace (some parent) 0x38 false .file).on list = (.ok (), longer) := by
    rw [extendInPlace_eq, InPlace.on_whole_of_ok hlonger]
  obtain ⟨-, hlaid⟩ :=
    (extend_laid_out_or_refused list (some parent) 0x38 false .file).1 (congrArg Prod.fst hdone)
  rw [hdone] at hlaid
  exact ⟨Prod.ext hanswer hkept, ⟨copy, hsize, hdraft⟩, longer, hdone, hlaid⟩

/-! ### Triviality of a new list -/

theorem has_inherited_modeList : ∀ e ∈ (modeList kind mode).entries,
    e.flags.has .inherited = false := by
  intro e hmem
  rw [entries_modeList, Mode.deniedEntries_eq, Mode.allowedEntries_eq, ← List.map_append] at hmem
  obtain ⟨clause, -, rfl⟩ := List.mem_map.1 hmem
  rw [Clause.flags_entry]
  rcases clause.who with _ | _ | _ <;> decide

/-- Entries that are those of a mode are those of the mode that they fold to. -/
theorem value_isTrivial_of_entries (hentries : list.entries = (modeList list.kind mode).entries) :
    list.isTrivial.value = true := by
  have hfolded : list.folded = (modeList list.kind mode).folded :=
    folded_congr (hentries ▸ List.Perm.refl _)
  rw [value_isTrivial, hfolded, folded_modeList, modeList_and_permissions]
  exact decide_eq_true hentries

/-- **A new list is trivial exactly if it inherits nothing.** -/
theorem isTrivial_extend_iff (kind : ObjectKind) (flags : ListFlags) (parent : AccessList)
    (mode : Mode) :
    ∃ list, (((empty kind).setFlags flags).extend (some parent) mode false kind).result = .ok list ∧
      (list.isTrivial.value = true ↔ ∀ e ∈ parent.entries, e.reaches kind = false) := by
  obtain ⟨list, hok⟩ : ∃ list, (((empty kind).setFlags flags).extend (some parent) mode false
      kind).result = .ok list := exists_extend ((empty kind).setFlags flags) parent mode false
  have hkind : list.kind = kind := (laidOut_of_extend hok).kind_eq
  have hentries : list.entries = added (some parent) mode false kind :=
    entries_of_extend (by simp) hok
  refine ⟨list, hok, ?_, ?_⟩
  · intro htrivial e he
    rw [value_isTrivial, decide_eq_true_eq] at htrivial
    by_contra hreaches
    rw [Bool.not_eq_false, ← Entry.isSome_arrival?, Option.isSome_iff_exists] at hreaches
    obtain ⟨a, harrival⟩ := hreaches
    have harrived : a ∈ arrivals kind parent.entries := List.mem_filterMap.2 ⟨e, he, harrival⟩
    have hmem : a ∈ list.entries := by
      rw [hentries]
      exact List.mem_append_right _ (List.mem_append_left _ harrived)
    -- The mark that it bears is one that no entry of a mode has.
    have hmarked : a.flags.has .inherited = true :=
      (Entry.arrival?_eq_some_iff_arrives.1 harrival).2.flags .inherited
    rw [htrivial] at hmem
    rw [has_inherited_modeList a hmem] at hmarked
    cases hmarked
  · intro hnothing
    have hnone : arrivals kind (parentEntries (some parent)) = [] :=
      List.filterMap_eq_nil_iff.2 fun e he => Entry.arrival?_eq_none_iff.2 (hnothing e he)
    have hmode : list.entries = (modeList list.kind mode).entries := by
      rw [hentries, added, hnone, hkind, entries_modeList, Mode.deniedEntries_eq,
        Mode.allowedEntries_eq]
      rfl
    exact value_isTrivial_of_entries hmode

end AccessList

end AccessControl
