/-
  AccessControl/Names.lean
  ========================
  **The names of users and groups.**

  Entries hold ids only; written forms may use names.  Users and groups have
  tables of their own, each giving one id per name.  Several names may share an
  id; then the least of them, by code points, is the one that is written.

  Tables are one way to know names.  A `NameService` is any way to, and entries
  are read and written with one; it need not be consistent with itself, and its
  ids need not be valid.
-/
import AccessControl.Table

namespace AccessControl

/-- The ids of users and groups by name. -/
structure Names where
  users : Table String Int32
  groups : Table String Int32

namespace Names

/-- Nobody has a name. -/
def empty : Names := ⟨Table.empty, Table.empty⟩

/-- The names with a user added, in place of one with the same name. -/
def withUser (names : Names) (name : String) (id : Int32) : Names :=
  { names with users := names.users.insert name id }

/-- The names with a group added, in place of one with the same name. -/
def withGroup (names : Names) (name : String) (id : Int32) : Names :=
  { names with groups := names.groups.insert name id }

def table (names : Names) (isGroup : Bool) : Table String Int32 :=
  if isGroup then names.groups else names.users

/-- The id under a name. -/
def id? (names : Names) (name : String) (isGroup : Bool) : Option Int32 :=
  (names.table isGroup).get? name

/-- The least of several names, by code points. -/
def least? : List String → Option String
  | [] => none
  | name :: rest => some (rest.foldl (fun least name => if name < least then name else least) name)

/-- The least name under which there is this id. -/
def name? (names : Names) (id : Int32) (isGroup : Bool) : Option String :=
  least? (((names.table isGroup).pairs.filter fun pair => pair.2 = id).map (·.1))

end Names

/-- Any way to tell the ids of names and the names of ids, among the users and
    among the groups. -/
structure NameService where
  id? : String → Bool → Option Int32
  name? : Int32 → Bool → Option String

/-- Tables of names as a service. -/
def Names.service (names : Names) : NameService := ⟨names.id?, names.name?⟩

instance : Coe Names NameService := ⟨Names.service⟩

end AccessControl
