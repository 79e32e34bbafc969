/-
  AccessControl/Principal.lean
  ============================
  **Whom an entry applies to.**

  Three principals are well known and carry no number; all others are users or
  groups named by an id.  Whether an id is a user's or a group's is not said
  here but by the flags of the entry.
-/
import AccessControl.Entry.Flag

namespace AccessControl

/-- An entry applies to the owner of the object, to its group, to everyone, or
    to the user or group with an id. -/
inductive Principal where
  | owner
  | group
  | everyone
  | named (id : Int32)
deriving DecidableEq, Inhabited

namespace Principal

/-- The largest id. -/
def maxId : Nat := 2147483647

/-- The id, with `-1` for the well-known principals. -/
def id : Principal → Int32
  | .named id => id
  | _ => -1

def isWellKnown : Principal → Bool
  | .named _ => false
  | _ => true

/-- The written name of a well-known principal. -/
def tag? : Principal → Option String
  | .owner => some "owner@"
  | .group => some "group@"
  | .everyone => some "everyone@"
  | .named _ => none

/-- The well-known name, or the id in decimal. -/
def text (p : Principal) : String :=
  p.tag?.getD (toString p.id.toInt)

/-- The mark that an entry for this principal carries in its flags. -/
def marker : Principal → EntryFlags
  | .owner => Flags.of [.ownerMark]
  | .group => Flags.of [.groupMark]
  | .everyone => Flags.of [.everyoneMark]
  | .named _ => Flags.none

/-- Ids below zero name nobody. -/
def Valid : Principal → Prop
  | .named id => 0 ≤ id
  | _ => True

instance : DecidablePred Valid := fun p => by cases p <;> unfold Valid <;> infer_instance

end Principal

end AccessControl
