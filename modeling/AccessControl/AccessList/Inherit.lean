/-
  AccessControl/AccessList/Inherit.lean
  =====================================
  **What a new object inherits from the directory it is made in.**

  `Entry.passedOn` is the rule for one entry: either a reason why it stays
  behind, or the flags with which it arrives.  An entry that arrives is always
  marked as inherited.  On a file it keeps no inheritance flag; in a directory
  it keeps them unless it was not to propagate, and one that is for files only
  stays there for inheritance only.
-/
import AccessControl.AccessList.Basic

namespace AccessControl

/-- Whether an entry passes to a new object of the given kind, and with which
    flags.  The reasons not to are tried in this order. -/
def Entry.passedOn (kind : ObjectKind) (e : Entry) : Except Skip EntryFlags :=
  if !e.flags.meets EntryFlags.inheritable then .error .notInheritable
  else if kind = .file ∧ !e.flags.has .fileInherit then .error .notForFiles
  else if kind = .directory ∧ !e.flags.has .directoryInherit ∧ e.flags.has .noPropagate then
    .error .notPropagated
  else if !e.type.isAccess then .error .notAccess
  else
    let arriving := (e.flags \ Flags.of [.inheritOnly]) ∪ Flags.of [.inherited]
    if kind = .file ∨ arriving.has .noPropagate then .ok (arriving \ EntryFlags.directoryOnly)
    else if arriving.has .fileInherit ∧ !arriving.has .directoryInherit then
      .ok (arriving ∪ Flags.of [.inheritOnly])
    else .ok arriving

namespace AccessList

/-- `child` with what passes to it from the entries of a parent; `index` counts
    the parent's entries. -/
def inheritEntries (kind : ObjectKind) (child : AccessList) (index : Nat) :
    List Entry → Attempt Fault AccessList
  | [] => return child
  | e :: es =>
    match e.passedOn kind with
    | .error skip => do
      Traced.emit (.inheritSkipped index e.flags skip)
      inheritEntries kind child (index + 1) es
    | .ok flags => do
      let arrived ← Attempt.silent (Entry.build kind e.type flags e.mask e.principal)
      Traced.emit (.entryInherited index e.flags arrived.flags kind)
      let longer ← child.push arrived
      inheritEntries kind longer (index + 1) es

/-- `child` followed by what a new object of the given kind inherits from
    `parent`. -/
def inherit (parent child : AccessList) (kind : ObjectKind) : Attempt Fault AccessList :=
  child.inheritEntries kind 0 parent.entries

end AccessList

end AccessControl
