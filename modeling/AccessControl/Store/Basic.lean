/-
  AccessControl/Store/Basic.lean
  ==============================
  **Objects and the attributes attached to them.**

  A `Store` has at most one object at each place; an object has a kind, a mode
  and named attributes, each a run of bytes.  Putting an object where one is
  replaces it, attributes and all.  To read an attribute that is not there gives
  nothing and to remove it does nothing, but every operation on a path without an
  object fails.
-/
import AccessControl.AccessList.Mode
import AccessControl.Store.Location
import AccessControl.Table

namespace AccessControl

/-- An object with its attributes. -/
structure StoredObject where
  kind : ObjectKind
  mode : Mode
  attributes : Table String (List UInt8)

/-- Objects by their places. -/
structure Store where
  objects : Table Location StoredObject

/-- There is no object at a path. -/
structure NoSuchObject where
  path : String
deriving DecidableEq

/-- The one place where a missing object is worded; the path is shown as it was
    given. -/
def NoSuchObject.message (missing : NoSuchObject) : String :=
  "no such object: " ++ missing.path

namespace Store

def empty : Store := ⟨Table.empty⟩

/-- The object at a path, if there is one. -/
def find? (store : Store) (path : String) : Option StoredObject :=
  store.objects.get? (Location.ofPath path)

/-- The object at a path. -/
def object (store : Store) (path : String) : Except NoSuchObject StoredObject :=
  match store.find? path with
  | some object => .ok object
  | none => .error ⟨path⟩

/-- The store with an object at a path, whatever was there before. -/
def put (store : Store) (path : String) (object : StoredObject) : Store :=
  ⟨store.objects.insert (Location.ofPath path) object⟩

/-- The store with a new object, which has no attributes. -/
def add (store : Store) (path : String) (kind : ObjectKind) (mode : Mode) : Store :=
  store.put path { kind, mode, attributes := Table.empty }

/-- The number of attributes of the object at a path, if there is one. -/
def attributeCount? (store : Store) (path : String) : Option Nat :=
  (store.find? path).map fun object => object.attributes.size

/-- An attribute of the object at a path. -/
def readAttribute (store : Store) (path name : String) :
    Except NoSuchObject (Option (List UInt8)) := do
  let object ← store.object path
  return object.attributes.get? name

/-- The store with the attributes of one object changed. -/
def changeAttributes (store : Store) (path : String)
    (change : Table String (List UInt8) → Table String (List UInt8)) :
    Except NoSuchObject Store := do
  let object ← store.object path
  return store.put path { object with attributes := change object.attributes }

/-- The store with a value under the name of an attribute. -/
def writeAttribute (store : Store) (path name : String) (value : List UInt8) :
    Except NoSuchObject Store :=
  store.changeAttributes path fun attributes => attributes.insert name value

/-- The store without an attribute. -/
def removeAttribute (store : Store) (path name : String) : Except NoSuchObject Store :=
  store.changeAttributes path fun attributes => attributes.erase name

/-! ### What is found afterwards -/

@[simp] theorem find?_empty (path : String) : empty.find? path = none := rfl

/-- Every path to a place finds what was put there. -/
theorem find?_put_self (store : Store) {path other : String} (object : StoredObject)
    (same : Location.ofPath other = Location.ofPath path) :
    (store.put path object).find? other = some object := by
  unfold find? put
  rw [same]
  exact Table.get?_insert_self store.objects (Location.ofPath path) object

/-- What is at other places stays there. -/
theorem find?_put_of_ne (store : Store) {path other : String} (object : StoredObject)
    (h : Location.ofPath other ≠ Location.ofPath path) :
    (store.put path object).find? other = store.find? other :=
  Table.get?_insert_of_ne store.objects object h

end Store

end AccessControl
