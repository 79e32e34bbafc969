/-
  AccessControl/Proofs/AccessList/Append.lean
  ===========================================
  **Adding entries to an access list.**

  Each operation that adds entries is described by one equivalence: it succeeds
  with a list exactly if that list has the kind and flags of the old one and its
  entries with the new ones in their place.  Since every list holds only entries
  that fit its kind, the equivalence also says when the operation fails, and the
  lemmas on misfits say how: adding many entries stops at the first that does not
  fit (`append_eq_error_iff`).
-/
import AccessControl.AccessList.Basic
import AccessControl.Proofs.Entry.Canonical

namespace AccessControl.AccessList

variable {list longer : AccessList} {index : Nat} {e : Entry} {es : List Entry}

theorem ext_parts {a b : AccessList} (hkind : a.kind = b.kind) (hflags : a.flags = b.flags)
    (hentries : a.entries = b.entries) : a = b := by
  cases a; cases b; simp_all

@[simp] theorem entries_empty (kind : ObjectKind) : (empty kind).entries = [] := rfl

@[simp] theorem entries_setFlags (flags : ListFlags) :
    (list.setFlags flags).entries = list.entries := rfl

/-! ### One entry -/

/-- An index past the end is the first fault. -/
theorem insertIdx_outOfRange (hindex : list.size < index) :
    (list.insertIdx index e).result = .error (.outOfRange index list.size) := by
  have hout : ¬ index ≤ list.size := Nat.not_le.2 hindex
  simp [insertIdx, hout]

theorem insertIdx_misfit (hindex : index ≤ list.size) (hfits : e.fits list.kind = false) :
    (list.insertIdx index e).result = .error (misfit e) := by
  simp [insertIdx, hindex, hfits]

theorem insertIdx_eq_ok_iff : (list.insertIdx index e).result = .ok longer ↔
    index ≤ list.size ∧ longer.kind = list.kind ∧ longer.flags = list.flags ∧
      longer.entries = list.entries.insertIdx index e := by
  by_cases hindex : index ≤ list.size
  · cases hfits : e.fits list.kind with
    | false =>
      rw [insertIdx_misfit hindex hfits]
      refine ⟨nofun, fun ⟨_, hkind, _, hentries⟩ => ?_⟩
      have hmem : e ∈ longer.entries := by
        rw [hentries]
        exact (List.mem_insertIdx hindex).2 (.inl rfl)
      have hfits' := longer.all_fit e hmem
      rw [hkind, hfits] at hfits'
      exact absurd hfits' Bool.false_ne_true
    | true =>
      simp only [insertIdx, hindex, hfits, dif_pos, Attempt.result_bind, Attempt.result_pure,
        true_and]
      constructor
      · intro hok
        cases hok
        exact ⟨rfl, rfl, rfl⟩
      · rintro ⟨hkind, hflags, hentries⟩
        exact congrArg Except.ok (ext_parts hkind.symm hflags.symm hentries.symm)
  · rw [insertIdx_outOfRange (Nat.not_le.1 hindex)]
    exact ⟨nofun, fun h => absurd h.1 hindex⟩

theorem push_eq_ok_iff : (list.push e).result = .ok longer ↔
    longer.kind = list.kind ∧ longer.flags = list.flags ∧
      longer.entries = list.entries ++ [e] := by
  rw [push, insertIdx_eq_ok_iff, size, List.insertIdx_length_self]
  simp

theorem push_misfit (hfits : e.fits list.kind = false) :
    (list.push e).result = .error (misfit e) :=
  insertIdx_misfit (Nat.le_refl _) hfits

/-! ### Many entries -/

/-- `list` followed by further entries that fit it. -/
def concat (list : AccessList) (es : List Entry) (fit : ∀ e ∈ es, e.fits list.kind) :
    AccessList :=
  { list with
    entries := list.entries ++ es
    all_fit := by
      intro e hmem
      rcases List.mem_append.1 hmem with hold | hnew
      · exact list.all_fit e hold
      · exact fit e hnew }

theorem push_of_fits (hfits : e.fits list.kind) :
    (list.push e).result = .ok (list.concat [e] (by simpa using hfits)) :=
  push_eq_ok_iff.2 ⟨rfl, rfl, rfl⟩

theorem append_eq_ok_iff : (list.append es).result = .ok longer ↔
    longer.kind = list.kind ∧ longer.flags = list.flags ∧
      longer.entries = list.entries ++ es := by
  induction es generalizing list with
  | nil =>
    rw [append, Attempt.result_pure, List.append_nil]
    constructor
    · intro hok
      cases hok
      exact ⟨rfl, rfl, rfl⟩
    · rintro ⟨hkind, hflags, hentries⟩
      exact congrArg Except.ok (ext_parts hkind.symm hflags.symm hentries.symm)
  | cons e es ih =>
    rw [append, Attempt.result_bind]
    cases hfits : e.fits list.kind with
    | false =>
      rw [push_misfit hfits]
      refine ⟨nofun, fun ⟨hkind, _, hentries⟩ => ?_⟩
      have hfits' := longer.all_fit e (by simp [hentries])
      rw [hkind, hfits] at hfits'
      exact absurd hfits' Bool.false_ne_true
    | true =>
      rw [push_of_fits hfits]
      show (append (list.concat [e] _) es).result = .ok longer ↔ _
      rw [ih]
      simp [concat]

/-- Adding stops at the first entry that does not fit. -/
theorem append_eq_error_iff {fault : Fault} : (list.append es).result = .error fault ↔
    ∃ e, es.find? (fun e => !e.fits list.kind) = some e ∧ fault = misfit e := by
  induction es generalizing list with
  | nil =>
    rw [append, Attempt.result_pure]
    simp
  | cons e es ih =>
    rw [append, Attempt.result_bind, List.find?_cons]
    cases hfits : e.fits list.kind with
    | false =>
      rw [push_misfit hfits]
      show Except.error (misfit e) = .error fault ↔ _
      simp [eq_comm]
    | true =>
      rw [push_of_fits hfits]
      show (append (list.concat [e] _) es).result = .error fault ↔ _
      exact ih

theorem append_of_fits (hfits : ∀ e ∈ es, e.fits list.kind) :
    (list.append es).result = .ok (list.concat es hfits) :=
  append_eq_ok_iff.2 ⟨rfl, rfl, rfl⟩

end AccessControl.AccessList
