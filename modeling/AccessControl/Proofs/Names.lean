/-
  AccessControl/Proofs/Names.lean
  ===============================
  **Names and their ids.**

  A table gives a value under a key exactly if it holds that pair
  (`get?_eq_some_iff`), since no key occurs twice.  So the name that is written
  for an id is the least of those with this id (`name?_eq_some_iff`), and it is
  looked up as that id (`id?_of_name?`).
-/
import AccessControl.Names
import Mathlib.Data.String.Basic

namespace AccessControl

namespace Table

variable {κ ν : Type} [DecidableEq κ]

/-- Where keys are distinct, the first pair with a key is the only one. -/
theorem find?_key_eq_some_iff {pairs : List (κ × ν)} (hdistinct : (pairs.map (·.1)).Nodup)
    {key : κ} {value : ν} :
    pairs.find? (fun pair => pair.1 = key) = some (key, value) ↔ (key, value) ∈ pairs := by
  induction pairs with
  | nil => simp
  | cons pair pairs ih =>
    rw [List.map_cons, List.nodup_cons] at hdistinct
    obtain ⟨hfresh, hrest⟩ := hdistinct
    rw [List.mem_cons]
    by_cases hkey : pair.1 = key
    · have hnot : (key, value) ∉ pairs := by
        intro hmem
        exact hfresh (hkey ▸ List.mem_map_of_mem hmem)
      simp [hkey, hnot, eq_comm]
    · have hne : (key, value) ≠ pair := by
        rintro rfl
        exact hkey rfl
      simp [hkey, hne, ih hrest]

theorem get?_eq_some_iff (t : Table κ ν) {key : κ} {value : ν} :
    t.get? key = some value ↔ (key, value) ∈ t.pairs := by
  rw [get?, Option.map_eq_some_iff, ← find?_key_eq_some_iff t.distinct]
  constructor
  · rintro ⟨pair, hfound, rfl⟩
    obtain rfl : pair.1 = key := by simpa using List.find?_some hfound
    exact hfound
  · intro hfound
    exact ⟨_, hfound, rfl⟩

end Table

namespace Names

variable {names others : Names} {id : Int32} {isGroup : Bool} {name : String}

theorem least?_eq_min? (texts : List String) : least? texts = texts.min? := by
  cases texts with
  | nil => rfl
  | cons text texts =>
    rw [least?, List.min?_cons']
    congr 2
    funext least name
    rw [min_comm, min_def_lt]

theorem mem_named_iff : name ∈ ((names.table isGroup).pairs.filter (·.2 = id)).map (·.1) ↔
    names.id? name isGroup = some id := by
  simp [Names.id?, Table.get?_eq_some_iff]

/-- The name that is written for an id is the least one with this id. -/
theorem name?_eq_some_iff : names.name? id isGroup = some name ↔
    names.id? name isGroup = some id ∧
      ∀ other, names.id? other isGroup = some id → name ≤ other := by
  simp only [name?, least?_eq_min?, List.min?_eq_some_iff, mem_named_iff]

theorem name?_eq_none_iff : names.name? id isGroup = none ↔
    ∀ name, names.id? name isGroup ≠ some id := by
  rw [name?, least?_eq_min?, List.min?_eq_none_iff, List.eq_nil_iff_forall_not_mem]
  simp only [mem_named_iff, ne_eq]

/-- The name that is written for an id is looked up as the id. -/
theorem id?_of_name? (hname : names.name? id isGroup = some name) :
    names.id? name isGroup = some id :=
  (name?_eq_some_iff.1 hname).1

/-- The ids of names decide which name is written for an id. -/
theorem name?_congr (hsame : ∀ name, names.id? name isGroup = others.id? name isGroup)
    (id : Int32) : names.name? id isGroup = others.name? id isGroup := by
  apply Option.ext
  intro name
  simp only [name?_eq_some_iff, hsame]

end Names

end AccessControl
