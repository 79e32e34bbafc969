/-
  AccessControl/AccessList/Basic.lean
  ===================================
  **Access lists: entries in the order in which they are evaluated.**

  The kind of object is fixed when a list is made, and every entry fits it
  (`all_fit`).  The operations below are those of a plain list of entries, with
  two additions: an index or an entry that is not there is a fault, and entries
  that come and go are reported as events.  An operation that fails has no list
  to give, so the list it was given is what there is.

  Two lists are compared by their entries alone; flags and kind do not count.
-/
import AccessControl.Diagnostics.Traced

namespace AccessControl

/-- The entries and flags that belong to an object of some kind. -/
structure AccessList where
  kind : ObjectKind
  flags : ListFlags
  entries : List Entry
  all_fit : ∀ e ∈ entries, e.fits kind
deriving DecidableEq

namespace AccessList

/-- The list with no entries and no flags. -/
def empty (kind : ObjectKind) : AccessList :=
  { kind, flags := Flags.none, entries := [], all_fit := by simp }

def size (list : AccessList) : Nat := list.entries.length

/-- The same entries under other flags. -/
def setFlags (list : AccessList) (flags : ListFlags) : AccessList := { list with flags }

/-- The fault of an entry that does not fit. -/
def misfit (e : Entry) : Fault := .doesNotFit e.flags e.mask

/-! ### Looking -/

/-- The entry at an index. -/
def get (list : AccessList) (index : Nat) : Except Fault Entry :=
  match list.entries[index]? with
  | some e => .ok e
  | none => .error (.outOfRange index list.size)

/-- Where an entry occurs first. -/
def position? (list : AccessList) (e : Entry) : Option Nat := list.entries.idxOf? e

/-- Where two lists of entries differ first, with the entries there. -/
def firstDifference : List Entry → List Entry → Nat → Option (Nat × Entry × Entry)
  | a :: as, b :: bs, index =>
    if a = b then firstDifference as bs (index + 1) else some (index, a, b)
  | _, _, _ => none

/-- Whether two lists hold the same entries in the same order.  The first
    difference is reported. -/
def sameEntries (a b : AccessList) : Traced Bool := do
  if a.size = b.size then
    match firstDifference a.entries b.entries 0 with
    | none => return true
    | some (index, left, right) =>
      Traced.emit (.entryMismatch index left right)
      return false
  else
    Traced.emit (.countMismatch a.size b.size)
    return false

/-! ### Inserting and removing -/

/-- An entry before the one at `index`, or after the last one. -/
def insertIdx (list : AccessList) (index : Nat) (e : Entry) : Attempt Fault AccessList := do
  if inside : index ≤ list.size then
    if fit : e.fits list.kind then
      let longer : AccessList :=
        { list with
          entries := list.entries.insertIdx index e
          all_fit := by
            intro a found
            rcases (List.mem_insertIdx inside).1 found with rfl | old
            · exact fit
            · exact list.all_fit a old }
      Traced.emit (.entryInserted index e longer.size)
      return longer
    else
      throw (misfit e)
  else
    throw (.outOfRange index list.size)

/-- An entry after the last one. -/
def push (list : AccessList) (e : Entry) : Attempt Fault AccessList :=
  list.insertIdx list.size e

/-- An entry before the first one. -/
def cons (list : AccessList) (e : Entry) : Attempt Fault AccessList :=
  list.insertIdx 0 e

/-- Every entry of `es`, one after the other, after the last one. -/
def append (list : AccessList) (es : List Entry) : Attempt Fault AccessList :=
  match es with
  | [] => return list
  | e :: es => do
    let longer ← list.push e
    longer.append es

/-- The list without the entry at `index`, and that entry. -/
def eraseIdx (list : AccessList) (index : Nat) : Attempt Fault (Entry × AccessList) := do
  match list.entries[index]? with
  | none => throw (.outOfRange index list.size)
  | some e =>
    let shorter : AccessList :=
      { list with
        entries := list.entries.eraseIdx index
        all_fit := fun a found => list.all_fit a (List.mem_of_mem_eraseIdx found) }
    Traced.emit (.entryRemoved index e.type e.principal shorter.size)
    return (e, shorter)

/-- The list without the first entry equal to `e`, and that entry. -/
def erase (list : AccessList) (e : Entry) : Attempt Fault (Entry × AccessList) :=
  match list.position? e with
  | none => throw .absent
  | some index => list.eraseIdx index

/-- The list with `new` where `old` occurs first.  `new` is put after `old`
    before `old` goes, so all other entries stay where they are. -/
def replace (list : AccessList) (old new : Entry) : Attempt Fault AccessList := do
  match list.position? old with
  | none => throw .absent
  | some index =>
    let longer ← list.insertIdx (index + 1) new
    let (_, replaced) ← longer.eraseIdx index
    return replaced

/-! ### All at once -/

/-- One pass over entries: `new` takes the place of every `old`, and each of them
    is counted. -/
def replaceEach (old new : Entry) : List Entry → Nat × List Entry
  | [] => (0, [])
  | e :: es =>
    let (count, replaced) := replaceEach old new es
    if e = old then (count + 1, new :: replaced) else (count, e :: replaced)

theorem fits_of_mem_replaceEach {kind : ObjectKind} {old new : Entry} {es : List Entry}
    (fit : new.fits kind) (all_fit : ∀ e ∈ es, e.fits kind) :
    ∀ e ∈ (replaceEach old new es).2, e.fits kind := by
  induction es with
  | nil => exact all_fit
  | cons e es ih =>
    rcases List.forall_mem_cons.1 all_fit with ⟨first, rest⟩
    simp only [replaceEach]
    split
    case isTrue => exact List.forall_mem_cons.2 ⟨fit, ih rest⟩
    case isFalse => exact List.forall_mem_cons.2 ⟨first, ih rest⟩

/-- The list with `new` wherever `old` occurs, and how often that is. -/
def replaceAll (list : AccessList) (old new : Entry) : Except Fault (Nat × AccessList) :=
  if fit : new.fits list.kind then
    let replaced := replaceEach old new list.entries
    .ok (replaced.1,
      { list with
        entries := replaced.2
        all_fit := fits_of_mem_replaceEach fit list.all_fit })
  else
    .error (misfit new)

/-- The list without the entries that occur in `targets`, and how many they are. -/
def eraseAll (list : AccessList) (targets : List Entry) : Nat × AccessList :=
  let kept := list.entries.filter fun e => e ∉ targets
  (list.size - kept.length,
    { list with
      entries := kept
      all_fit := fun a found => list.all_fit a (List.mem_filter.1 found).1 })

end AccessList

end AccessControl
