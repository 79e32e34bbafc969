/-
  AccessControl/Proofs/Store/InPlace.lean
  =======================================
  **Operations on stored lists as steps on one store.**

  Who uses an object takes it out of the store and puts another in its place
  (`visit`).  To `look` is to put back the same, and leaves the store as it was;
  to `edit` is the only way in which a store changes once its objects are there.

  The operations are written out as such steps, in their order: the object is
  inspected, the payload read, written or removed, and the lists in between are
  read, made, converted and written aside from the store.  Each of them comes to
  looks before at most one edit, so it changes the store as a whole or not at
  all, as the operations on a store that is given do.
-/
import AccessControl.Proofs.InPlace
import AccessControl.Proofs.Store.Operations

namespace AccessControl.Store

variable {α : Type} {policy : Policy} {path source destination : String} {list : AccessList}

/-! ### Using an object -/

/-- A use of the object at a path: its answer, and the store with the object as the use
    has left it. -/
def visit (path : String) (use : StoredObject → α × StoredObject) :
    InPlace Store NoSuchObject α :=
  .of fun store => match store.find? path with
    | none => (.error ⟨path⟩, store)
    | some object => (.ok (use object).1, store.put path (use object).2)

/-- A use that gives the object back as it was. -/
def look (f : StoredObject → α) (object : StoredObject) : α × StoredObject :=
  (f object, object)

/-- A use that changes the attributes of the object. -/
def edit (change : Table String (List UInt8) → Table String (List UInt8)) (object : StoredObject) :
    Unit × StoredObject :=
  ((), { object with attributes := change object.attributes })

theorem put_of_find? {store : Store} {object : StoredObject}
    (hfound : store.find? path = some object) : store.put path object = store := by
  rw [put, Table.insert_of_get? _ _ hfound]

/-- To look changes nothing. -/
theorem visit_look (path : String) (f : StoredObject → α) :
    visit path (look f) = .reading fun store => (store.object path).map f := by
  apply InPlace.ext_on
  intro store
  rw [visit, InPlace.on_of, InPlace.on_reading]
  cases hfound : store.find? path with
  | none =>
    rw [object_of_missing hfound]
    rfl
  | some object =>
    rw [object_eq_ok_iff.2 hfound]
    exact congrArg (Prod.mk _) (put_of_find? hfound)

theorem visit_edit (path : String)
    (change : Table String (List UInt8) → Table String (List UInt8)) :
    visit path (edit change) = .whole fun store => store.changeAttributes path change := by
  apply InPlace.ext_on
  intro store
  rw [visit, InPlace.on_of, InPlace.whole, InPlace.on_of, changeAttributes]
  cases hfound : store.find? path with
  | none =>
    rw [object_of_missing hfound]
    rfl
  | some object =>
    rw [object_eq_ok_iff.2 hfound]
    rfl

/-- A use of the object at a path, as a step. -/
def visiting (step : StoreStep) (path : String) (use : StoredObject → α × StoredObject) :
    InPlace Store StoreFault α :=
  (visit path use).mapError fun missing => ⟨step, path, .noObject missing⟩

theorem visiting_look (step : StoreStep) (path : String) (f : StoredObject → α) :
    visiting step path (look f) =
      .reading fun store => (accessing step path (store.object path)).result.map f := by
  rw [visiting, visit_look, InPlace.mapError_reading]
  congr 1
  funext store
  rw [result_accessing]
  cases store.object path <;> rfl

theorem visiting_edit (step : StoreStep) (path : String)
    (change : Table String (List UInt8) → Table String (List UInt8)) :
    visiting step path (edit change) =
      .whole fun store => (accessing step path (store.changeAttributes path change)).result := by
  rw [visiting, visit_edit, InPlace.mapError_whole]
  rfl

/-! ### Reading -/

/-- What an object shows, from its payload or else from its mode. -/
def shown (policy : Policy) (path : String) (kind : ObjectKind) (mode : Mode) :
    Option (List UInt8) → Except StoreFault (Option AccessList)
  | some payload => (working .decode path (Wire.decode kind payload)).result.map some
  | none =>
    if policy.synthesize then
      (working .synthesize path (AccessList.ofMode mode kind)).result.map some
    else .ok none

/-- `readList` in place.  The object is looked at twice, first for its kind and mode and
    then for its payload. -/
def readInPlace (policy : Policy) (path : String) :
    InPlace Store StoreFault (Option AccessList) := do
  let (kind, mode) ← visiting .inspect path (look fun object => (object.kind, object.mode))
  let payload ← visiting .read path (look fun object =>
    object.attributes.get? policy.attributeName)
  .aside (shown policy path kind mode payload)

/-- `isTrivialAt` in place. -/
def isTrivialInPlace (policy : Policy) (path : String) : InPlace Store StoreFault Bool := do
  let found ← readInPlace policy path
  return found.elim true fun list => list.isTrivial.value

theorem result_readList (store : Store) (policy : Policy) (path : String) :
    (store.readList policy path).result = (do
      let object ← (accessing .inspect path (store.object path)).result
      let payload ← (accessing .read path (store.readAttribute path policy.attributeName)).result
      shown policy path object.kind object.mode payload) := by
  simp only [readList, Attempt.result_bind, Attempt.result_lift, ok_bind]
  congr 1
  funext object
  congr 1
  funext payload
  cases payload with
  | some payload =>
    rw [shown, Attempt.result_bind]
    cases (working .decode path (Wire.decode object.kind payload)).result <;> rfl
  | none =>
    dsimp only [shown]
    split
    · simp only [Attempt.result_bind, Attempt.result_lift, ok_bind]
      cases (working .synthesize path (AccessList.ofMode object.mode object.kind)).result <;> rfl
    · rfl

theorem readInPlace_eq (policy : Policy) (path : String) :
    readInPlace policy path = .reading fun store => (store.readList policy path).result := by
  simp only [readInPlace, visiting_look, InPlace.aside, InPlace.reading_bind_reading]
  congr 1
  funext store
  rw [result_readList]
  cases hfound : store.find? path with
  | none =>
    rw [object_of_missing hfound]
    rfl
  | some object =>
    rw [object_eq_ok_iff.2 hfound, readAttribute_of_found hfound]
    rfl

theorem isTrivialInPlace_eq (policy : Policy) (path : String) :
    isTrivialInPlace policy path =
      .reading fun store => (store.isTrivialAt policy path).result := by
  apply InPlace.ext_on
  intro store
  rw [isTrivialInPlace, readInPlace_eq, InPlace.on_bind, InPlace.on_reading, InPlace.on_reading,
    result_isTrivialAt]
  cases (store.readList policy path).result <;> rfl

/-! ### Writing, removing and copying -/

/-- `writePayload` in place. -/
def writePayloadInPlace (policy : Policy) (path : String) (list : AccessList) :
    InPlace Store StoreFault Unit := do
  let payload ← .aside (working .encode path (Wire.encode list)).result
  visiting .write path (edit fun attributes => attributes.insert policy.attributeName payload)

/-- `writeList` in place. -/
def writeInPlace (policy : Policy) (path : String) (list : AccessList) :
    InPlace Store StoreFault Unit := do
  let kind ← visiting .inspect path (look StoredObject.kind)
  if list.kind = kind then writePayloadInPlace policy path list
  else throw ⟨.write, path, .list (.kindMismatch kind)⟩

/-- `removeList` in place. -/
def removeInPlace (policy : Policy) (path : String) : InPlace Store StoreFault Unit :=
  visiting .remove path (edit fun attributes => attributes.erase policy.attributeName)

/-- `carryList` in place. -/
def carryInPlace (policy : Policy) (source destination : String) :
    Option AccessList → InPlace Store StoreFault Unit
  | none => removeInPlace policy destination
  | some list => do
    let kind ← visiting .inspect destination (look StoredObject.kind)
    let converted ← .aside (convertList list kind source destination).result
    writePayloadInPlace policy destination converted

/-- `copyList` in place.  Source and destination may be one object. -/
def copyInPlace (policy : Policy) (source destination : String) :
    InPlace Store StoreFault Unit := do
  let found ← readInPlace policy source
  carryInPlace policy source destination found

theorem writePayloadInPlace_eq (policy : Policy) (path : String) (list : AccessList) :
    writePayloadInPlace policy path list =
      .whole fun store => (store.writePayload policy path list).result := by
  simp only [writePayloadInPlace, visiting_edit, InPlace.aside, InPlace.reading_bind_whole]
  congr 1
  funext store
  simp only [writePayload, Attempt.result_bind, Attempt.result_lift, ok_bind, Attempt.result_pure,
    bind_ok]
  rfl

theorem removeInPlace_eq (policy : Policy) (path : String) :
    removeInPlace policy path = .whole fun store => (store.removeList policy path).result := by
  rw [removeInPlace, visiting_edit]
  congr 1
  funext store
  simp only [removeList, Attempt.result_bind, Attempt.result_lift, ok_bind, Attempt.result_pure,
    bind_ok]
  rfl

theorem writeInPlace_eq (policy : Policy) (path : String) (list : AccessList) :
    writeInPlace policy path list = .whole fun store => (store.writeList policy path list).result := by
  have hkind : ∀ kind, (if list.kind = kind then writePayloadInPlace policy path list
      else throw ⟨.write, path, .list (.kindMismatch kind)⟩ : InPlace Store StoreFault Unit) =
      .whole fun store => if list.kind = kind then (store.writePayload policy path list).result
        else .error ⟨.write, path, .list (.kindMismatch kind)⟩ := by
    intro kind
    split
    case isTrue => exact writePayloadInPlace_eq policy path list
    case isFalse => rfl
  simp only [writeInPlace, visiting_look, hkind, InPlace.reading_bind_whole]
  congr 1
  funext store
  rw [writeList, Attempt.result_bind]
  cases (accessing .inspect path (store.object path)).result with
  | error fault => rfl
  | ok object =>
    simp only [Except.map, ok_bind]
    split <;> simp_all

theorem carryInPlace_eq (policy : Policy) (source destination : String)
    (found : Option AccessList) :
    carryInPlace policy source destination found =
      .whole fun store => (store.carryList policy source destination found).result := by
  cases found with
  | none => exact removeInPlace_eq policy destination
  | some list =>
    simp only [carryInPlace, visiting_look, writePayloadInPlace_eq, InPlace.aside,
      InPlace.reading_bind_whole]
    congr 1
    funext store
    simp only [carryList, Attempt.result_bind]
    cases (accessing .inspect destination (store.object destination)).result <;> rfl

theorem copyInPlace_eq (policy : Policy) (source destination : String) :
    copyInPlace policy source destination =
      .whole fun store => (store.copyList policy source destination).result := by
  simp only [copyInPlace, readInPlace_eq, carryInPlace_eq, InPlace.reading_bind_whole]
  congr 1
  funext store
  rw [copyList, Attempt.result_bind]

end AccessControl.Store
