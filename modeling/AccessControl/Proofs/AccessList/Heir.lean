/-
  AccessControl/Proofs/AccessList/Heir.lean
  =========================================
  **What a child inherits, and where inheriting stops.**

  A child `Takes` entries when those of them that reach objects of some kind arrive
  behind its own, in their order, and nothing else about it changes.  Whatever the
  kind of the child, that is what inheriting comes to if it comes to anything
  (`takes_of_inheritEntries`).

  The kind of the new object is told apart from the kind of the child, and the two
  need not agree.  What arrives is built for the former and must fit the latter, so
  the one mismatch that can do harm is a file that is told to be a directory
  (`mismatch_of_misfit`).  Then inheriting goes on in a copy up to the first
  entry that a file cannot hold (`Stops`), and the child is left alone, for the copy
  only takes its place in the end.
-/
import AccessControl.Proofs.AccessList.Generations
import AccessControl.Proofs.AccessList.InPlace

namespace AccessControl

namespace Entry

variable {kind held : ObjectKind} {e a : Entry}

/-- Only a directory holds the entry. -/
def NeedsDirectory (e : Entry) : Prop :=
  e.flags.meets EntryFlags.directoryOnly = true ∨ e.mask.has .deleteChild = true

theorem not_fits_iff : e.fits kind = false ↔ kind = .file ∧ e.NeedsDirectory := by
  rw [← Bool.not_eq_true, fits_iff, NeedsDirectory]
  simp only [Classical.not_imp, Decidable.not_and_iff_not_or_not, Bool.not_eq_false]

/-- What fits one kind and not the other is for directories. -/
theorem mismatch_of_misfit (hfits : e.fits kind = true) (hmisfit : e.fits held = false) :
    held = .file ∧ kind = .directory ∧ e.NeedsDirectory := by
  obtain ⟨rfl, hneeds⟩ := not_fits_iff.1 hmisfit
  rcases kind with _ | _
  · rw [hfits] at hmisfit
    cases hmisfit
  · exact ⟨rfl, rfl, hneeds⟩

end Entry

namespace AccessList

open Entry

variable {parent child heir : AccessList} {kind : ObjectKind} {index : Nat} {es : List Entry}
  {fault : Fault}

/-- `heir` is `child` with those of the entries `es` that reach a new object of a kind. -/
structure Takes (kind : ObjectKind) (es : List Entry) (child heir : AccessList) : Prop where
  kind_eq : heir.kind = child.kind
  flags_eq : heir.flags = child.flags
  entries_eq : ∃ arrived, heir.entries = child.entries ++ arrived ∧
    List.Forall₂ (Arrives kind) (es.filter (reaches kind)) arrived

/-- Inheriting stops at `e`, with the fault of the entry `a` that it passes on.  What the
    entries before `e` pass on is in the copy of the draft by then, and the child beside
    it is as it was. -/
inductive Stops (parent child : AccessList) (kind : ObjectKind) : Fault → Prop where
  | misfit (before after : List Entry) (e a : Entry) (copy : AccessList)
      (hentries : parent.entries = before ++ e :: after)
      (hcopy : (child.inheritEntries kind 0 before).result = .ok copy)
      (htakes : Takes kind before child copy)
      (hreaches : e.reaches kind) (harrives : e.Arrives kind a) (hneeds : a.NeedsDirectory)
      (hdraft : (inheritDraft parent kind).on ⟨child, child⟩ =
        (.error (misfit a), ⟨child, copy⟩)) :
      Stops parent child kind (misfit a)

/-! ### When it goes through -/

theorem takes_of_inheritEntries (hok : (child.inheritEntries kind index es).result = .ok heir) :
    Takes kind es child heir := by
  rw [result_inheritEntries] at hok
  obtain ⟨hkind, hflags, hentries⟩ := append_eq_ok_iff.1 hok
  exact ⟨hkind, hflags, arrivals kind es, hentries, forall₂_arrivals kind es⟩

theorem mem_arrivals_iff {a : Entry} :
    a ∈ arrivals kind es ↔ ∃ e ∈ es, e.reaches kind ∧ e.Arrives kind a := by
  simp only [arrivals, List.mem_filterMap, arrival?_eq_some_iff_arrives]

/-! ### When it does not -/

/-- Of the child, only its kind has a say in whether and where inheriting stops. -/
theorem inherit_eq_error_iff : (inherit parent child kind).result = .error fault ↔
    ∃ a, (arrivals kind parent.entries).find? (fun a => !a.fits child.kind) = some a ∧
      fault = misfit a := by
  rw [result_inherit, append_eq_error_iff]

theorem exists_inherit_error_iff : (∃ fault, (inherit parent child kind).result = .error fault) ↔
    child.kind = .file ∧ kind = .directory ∧
      ∃ e ∈ parent.entries, e.reaches kind ∧ ∃ a, e.Arrives kind a ∧ a.NeedsDirectory := by
  constructor
  · rintro ⟨fault, herror⟩
    obtain ⟨a, hfind, -⟩ := inherit_eq_error_iff.1 herror
    have hmem := List.mem_of_find?_eq_some hfind
    have hmisfit : a.fits child.kind = false := by simpa using List.find?_some hfind
    obtain ⟨hfile, hdirectory, hneeds⟩ :=
      mismatch_of_misfit (fits_of_mem_arrivals a hmem) hmisfit
    obtain ⟨e, he, hreaches, harrives⟩ := mem_arrivals_iff.1 hmem
    exact ⟨hfile, hdirectory, e, he, hreaches, a, harrives, hneeds⟩
  · rintro ⟨hfile, -, e, he, hreaches, a, harrives, hneeds⟩
    have hmem : a ∈ arrivals kind parent.entries :=
      mem_arrivals_iff.2 ⟨e, he, hreaches, harrives⟩
    have hmisfit : (!a.fits child.kind) = true := by
      rw [not_fits_iff.2 ⟨hfile, hneeds⟩]
      rfl
    have hsome : ((arrivals kind parent.entries).find? fun a => !a.fits child.kind).isSome :=
      List.find?_isSome.2 ⟨a, hmem, hmisfit⟩
    obtain ⟨first, hfirst⟩ := Option.isSome_iff_exists.1 hsome
    exact ⟨misfit first, inherit_eq_error_iff.2 ⟨first, hfirst, rfl⟩⟩

theorem exists_heir (parent child : AccessList) :
    ∃ heir, (inherit parent child child.kind).result = .ok heir := by
  rcases hresult : (inherit parent child child.kind).result with fault | heir
  · obtain ⟨hfile, hdirectory, -⟩ := exists_inherit_error_iff.1 ⟨fault, hresult⟩
    rw [hdirectory] at hfile
    cases hfile
  · exact ⟨heir, rfl⟩

theorem stops_of_error (herror : (inherit parent child kind).result = .error fault) :
    Stops parent child kind fault := by
  obtain ⟨a, hfind, rfl⟩ := inherit_eq_error_iff.1 herror
  obtain ⟨hmisfit, arrivedBefore, arrivedAfter, hsplit, hfit⟩ :=
    List.find?_eq_some_iff_append.1 hfind
  rw [Bool.not_eq_true'] at hmisfit
  -- What has arrived before `a` comes from entries before one that `a` comes from.
  obtain ⟨early, late, hearly, harrived, hlate⟩ := List.filterMap_eq_append_iff.1 hsplit
  obtain ⟨silent, e, after, hcons, hsilent, harrival, -⟩ := List.filterMap_eq_cons_iff.1 hlate
  obtain ⟨hreaches, harrives⟩ := arrival?_eq_some_iff_arrives.1 harrival
  have hneeds := (mismatch_of_misfit (fits_of_arrival? harrival) hmisfit).2.2
  have hbefore : arrivals kind (early ++ silent) = arrivedBefore := by
    have hnone : silent.filterMap (arrival? kind) = [] := List.filterMap_eq_nil_iff.2 hsilent
    rw [arrivals, List.filterMap_append, harrived, hnone, List.append_nil]
  obtain ⟨copy, hcopy⟩ : ∃ copy, (child.inheritEntries kind 0 (early ++ silent)).result =
      .ok copy := by
    rw [result_inheritEntries, hbefore]
    exact ⟨_, append_of_fits fun b hb => by simpa using hfit b hb⟩
  have htakes := takes_of_inheritEntries hcopy
  rw [← htakes.kind_eq] at hmisfit
  have hentries : parent.entries = (early ++ silent) ++ e :: after := by
    rw [hearly, hcons, List.append_assoc]
  have hdraft : (inheritDraft parent kind).on ⟨child, child⟩ =
      (.error (misfit a), ⟨child, copy⟩) := by
    rw [inheritDraft, hentries]
    exact Draft.on_staged_of_error (on_arrive_of_misfit hcopy harrival hmisfit)
  exact .misfit (early ++ silent) after e a copy hentries hcopy htakes hreaches harrives hneeds
    hdraft

/-- **Inheriting from a parent.**  In place, what arrives is entered into a copy of the
    child, and the copy takes the place of the child in the end.  If that goes through,
    the entries that reach a new object of the given kind arrive behind those of the
    child, in their order, and kind and flags of the child stay.  It stops exactly if a
    file is told to be a directory and some entry arrives that a file cannot hold, and
    then the child is as it was, whatever has arrived in the copy.  With the kind of the
    child itself it goes through. -/
theorem inherit_taken_or_stopped (parent child : AccessList) (kind : ObjectKind) :
    let after := (inheritInPlace parent kind).on child
    (after.1 = .ok () → (inherit parent child kind).result = .ok after.2 ∧
      Takes kind parent.entries child after.2) ∧
    ((∃ fault, after.1 = .error fault) ↔
      child.kind = .file ∧ kind = .directory ∧
        ∃ e ∈ parent.entries, e.reaches kind ∧ ∃ a, e.Arrives kind a ∧ a.NeedsDirectory) ∧
    (∀ fault, after.1 = .error fault → (inherit parent child kind).result = .error fault ∧
      Stops parent child kind fault ∧ after.2 = child) ∧
    (kind = child.kind → after.1 = .ok ()) := by
  intro after
  have hafter : after = (InPlace.whole fun child : AccessList =>
      (inherit parent child kind).result).on child := by rw [← inheritInPlace_eq]
  cases hresult : (inherit parent child kind).result with
  | ok heir =>
    rw [InPlace.on_whole_of_ok hresult] at hafter
    rw [hafter, ← exists_inherit_error_iff, hresult]
    exact ⟨fun _ => ⟨rfl, takes_of_inheritEntries hresult⟩, iff_of_false nofun nofun, nofun,
      fun _ => rfl⟩
  | error fault =>
    rw [InPlace.on_whole_of_error hresult] at hafter
    rw [hafter, ← exists_inherit_error_iff, hresult]
    refine ⟨nofun, iff_of_true ⟨fault, rfl⟩ ⟨fault, rfl⟩, ?_, ?_⟩
    · rintro _ ⟨⟩
      exact ⟨rfl, stops_of_error hresult, rfl⟩
    · rintro rfl
      obtain ⟨heir, hheir⟩ := exists_heir parent child
      rw [hresult] at hheir
      cases hheir

/-- A file that is told to be a directory takes nothing, though the first of two entries
    has arrived in the copy; told to be a file it takes both. -/
theorem inherit_taken_or_stopped_halfway :
    let passing : Entry :=
      ⟨.allow, ⟨0x7⟩, Rights.read, .named 7, by decide, by decide, by decide⟩
    let sweeper : Entry :=
      ⟨.deny, ⟨0x3⟩, Rights.full, .named 8, by decide, by decide, by decide⟩
    let arrived : Entry :=
      ⟨.deny, ⟨0x83⟩, Rights.full, .named 8, by decide, by decide, by decide⟩
    let parent : AccessList := ⟨.directory, Flags.none, [passing, sweeper], by decide⟩
    (inheritInPlace parent .directory).on (empty .file) =
        (.error (misfit arrived), empty .file) ∧
      Stops parent (empty .file) .directory (misfit arrived) ∧
      ∃ heir, (inheritInPlace parent .file).on (empty .file) = (.ok (), heir) ∧
        Takes .file [passing, sweeper] (empty .file) heir ∧ heir.size = 2 := by
  intro passing sweeper arrived parent
  have herror : (inherit parent (empty .file) .directory).result = .error (misfit arrived) := by
    decide +kernel
  have hanswer : ((inheritInPlace parent .directory).on (empty .file)).1 =
      .error (misfit arrived) := by
    rw [inheritInPlace_eq, InPlace.on_whole_of_error herror]
  obtain ⟨-, hstops, hkept⟩ :=
    (inherit_taken_or_stopped parent (empty .file) .directory).2.2.1 _ hanswer
  obtain ⟨htaken, -, -, hgoes⟩ := inherit_taken_or_stopped parent (empty .file) .file
  obtain ⟨-, htakes⟩ := htaken (hgoes rfl)
  refine ⟨Prod.ext hanswer hkept, hstops, _, Prod.ext (hgoes rfl) rfl, htakes, ?_⟩
  obtain ⟨new, hentries, hnew⟩ := htakes.entries_eq
  have hlength : (parent.entries.filter (reaches .file)).length = 2 := by decide
  rw [size, hentries, entries_empty, List.nil_append, ← hnew.length_eq, hlength]

end AccessList

end AccessControl
