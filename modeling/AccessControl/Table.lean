/-
  AccessControl/Table.lean
  ========================
  **Finite tables with one value per key.**

  A `Table` is a list of pairs in which no key occurs twice.  The order of the
  pairs means nothing: a table is known by `get?` and by its number of keys,
  `size`.  Still, a value put under a key takes the place of the one that was
  there, so what is put back where it was found leaves the table as it was.
-/

namespace AccessControl

/-- Pairs of keys and values in which no key occurs twice. -/
structure Table (κ ν : Type) where
  pairs : List (κ × ν)
  distinct : (pairs.map (·.1)).Nodup

namespace Table

variable {κ ν : Type}

def empty : Table κ ν := ⟨[], by simp⟩

def size (t : Table κ ν) : Nat := t.pairs.length

variable [DecidableEq κ]

/-- The value under a key. -/
def get? (t : Table κ ν) (key : κ) : Option ν :=
  (t.pairs.find? fun pair => pair.1 = key).map (·.2)

def contains (t : Table κ ν) (key : κ) : Bool := (t.get? key).isSome

/-- The table without a key. -/
def erase (t : Table κ ν) (key : κ) : Table κ ν where
  pairs := t.pairs.filter fun pair => pair.1 ≠ key
  distinct := List.Nodup.sublist (List.filter_sublist.map _) t.distinct

/-- The pairs with a value under a key: in the place of the one that is there, or after
    all others. -/
def setPair (key : κ) (value : ν) : List (κ × ν) → List (κ × ν)
  | [] => [(key, value)]
  | pair :: pairs =>
    if pair.1 = key then (key, value) :: pairs else pair :: setPair key value pairs

theorem mem_keys_setPair {key other : κ} {value : ν} {pairs : List (κ × ν)} :
    other ∈ (setPair key value pairs).map (·.1) ↔ other = key ∨ other ∈ pairs.map (·.1) := by
  induction pairs with
  | nil => simp [setPair]
  | cons pair pairs ih =>
    rw [setPair]
    split
    case isTrue hsame => simp [hsame]
    case isFalse => simp only [List.map_cons, List.mem_cons, ih, or_left_comm]

theorem nodup_setPair {key : κ} {value : ν} {pairs : List (κ × ν)}
    (hdistinct : (pairs.map (·.1)).Nodup) : ((setPair key value pairs).map (·.1)).Nodup := by
  induction pairs with
  | nil => simp [setPair]
  | cons pair pairs ih =>
    obtain ⟨hfirst, hrest⟩ := List.nodup_cons.1 hdistinct
    rw [setPair]
    split
    case isTrue hsame => exact hsame ▸ hdistinct
    case isFalse hother =>
      refine List.nodup_cons.2 ⟨fun hmem => ?_, ih hrest⟩
      exact (mem_keys_setPair.1 hmem).elim hother hfirst

/-- The table with a value under a key, whatever was there before. -/
def insert (t : Table κ ν) (key : κ) (value : ν) : Table κ ν where
  pairs := setPair key value t.pairs
  distinct := nodup_setPair t.distinct

@[simp] theorem get?_empty (key : κ) : (empty : Table κ ν).get? key = none := rfl

theorem find?_setPair (key other : κ) (value : ν) (pairs : List (κ × ν)) :
    (setPair key value pairs).find? (fun pair => pair.1 = other) =
      if key = other then some (key, value) else pairs.find? fun pair => pair.1 = other := by
  induction pairs with
  | nil =>
    rw [setPair, List.find?_cons]
    by_cases hother : key = other <;> simp [hother]
  | cons pair pairs ih =>
    by_cases hsame : pair.1 = key
    · rw [setPair, if_pos hsame]
      by_cases hother : key = other <;> simp [hsame, hother]
    · rw [setPair, if_neg hsame]
      by_cases hfirst : pair.1 = other
      · have hother : ¬ key = other := fun hkey => hsame (hfirst.trans hkey.symm)
        simp [hfirst, hother]
      · simp [hfirst, ih]

theorem get?_insert (t : Table κ ν) (key other : κ) (value : ν) :
    (t.insert key value).get? other = if key = other then some value else t.get? other := by
  rw [get?, insert, find?_setPair]
  split <;> rfl

@[simp] theorem get?_insert_self (t : Table κ ν) (key : κ) (value : ν) :
    (t.insert key value).get? key = some value := by
  rw [get?_insert, if_pos rfl]

@[simp] theorem get?_erase_self (t : Table κ ν) (key : κ) : (t.erase key).get? key = none := by
  simp [get?, erase]

/-- Taking one key out leaves the others as they were. -/
theorem get?_erase_of_ne (t : Table κ ν) {key other : κ} (h : other ≠ key) :
    (t.erase key).get? other = t.get? other := by
  simp only [get?, erase, List.find?_filter]
  congr 1
  apply congrArg (fun p => List.find? p t.pairs)
  funext pair
  by_cases same : pair.1 = other
  · subst same; simp [h]
  · simp [same]

/-- Putting a value under one key leaves the others as they were. -/
theorem get?_insert_of_ne (t : Table κ ν) {key other : κ} (value : ν) (h : other ≠ key) :
    (t.insert key value).get? other = t.get? other := by
  rw [get?_insert, if_neg (Ne.symm h)]

end Table

end AccessControl
