/-
  AccessControl/Store/Payload.lean
  ================================
  **Access lists kept in a store.**

  The list of an object is kept as its wire form in one attribute.  Whether the
  payload is that of a file or of a directory is settled by the object, so a list
  is only written to an object of its own kind, and copying between kinds reads
  the payload anew.  An operation gives the store that it makes, and one that fails
  gives none.  As steps on one store, which is left as it was by those that fail,
  the operations are in Proofs/Store/InPlace.

  A failure says which step failed, on which path, and why.
-/
import AccessControl.Store.Basic
import AccessControl.Store.Policy
import AccessControl.Wire

namespace AccessControl

/-- The steps of working with stored lists. -/
inductive StoreStep where
  | inspect
  | read
  | decode
  | synthesize
  | write
  | encode
  | remove
  | convert
deriving DecidableEq, Repr

def StoreStep.text : StoreStep → String
  | .inspect => "inspect"
  | .read => "read NFSv4 ACL"
  | .decode => "decode NFSv4 ACL"
  | .synthesize => "synthesize NFSv4 ACL"
  | .write => "write NFSv4 ACL"
  | .encode => "encode NFSv4 ACL"
  | .remove => "remove NFSv4 ACL"
  | .convert => "convert NFSv4 ACL"

/-- Why a step failed: for want of an object, or because of the list. -/
inductive StoreCause where
  | noObject (missing : NoSuchObject)
  | list (fault : Fault)
deriving DecidableEq

def StoreCause.message : StoreCause → String
  | .noObject missing => missing.message
  | .list fault => fault.message

/-- A failure of an operation on stored lists. -/
structure StoreFault where
  step : StoreStep
  path : String
  cause : StoreCause
deriving DecidableEq

def StoreFault.message (fault : StoreFault) : String :=
  "failed to " ++ fault.step.text ++ " '" ++ fault.path ++ "': " ++ fault.cause.message

namespace Store

variable {α : Type}

/-- A use of the store, as a step on a path. -/
def accessing (step : StoreStep) (path : String) (x : Except NoSuchObject α) :
    Attempt StoreFault α :=
  Attempt.silent (x.mapError fun missing => ⟨step, path, .noObject missing⟩)

/-- Work on a list, as a step on a path. -/
def working (step : StoreStep) (path : String) (x : Attempt Fault α) : Attempt StoreFault α :=
  x.mapError fun fault => ⟨step, path, .list fault⟩

/-- The list of the object at a path, if it has one or one is made from its
    mode. -/
def readList (store : Store) (policy : Policy) (path : String) :
    Attempt StoreFault (Option AccessList) := do
  let object ← accessing .inspect path (store.object path)
  let payload ← accessing .read path (store.readAttribute path policy.attributeName)
  Traced.emit (.attributeRead path policy.attributeName (payload.map List.length))
  match payload with
  | some payload =>
    let list ← working .decode path (Wire.decode object.kind payload)
    return some list
  | none =>
    if policy.synthesize then
      Traced.emit (.listSynthesized path object.mode object.kind)
      let list ← working .synthesize path (AccessList.ofMode object.mode object.kind)
      return some list
    else
      return none

/-- The store with the payload of a list at a path, whatever the kinds. -/
def writePayload (store : Store) (policy : Policy) (path : String) (list : AccessList) :
    Attempt StoreFault Store := do
  let payload ← working .encode path (Wire.encode list)
  let written ← accessing .write path (store.writeAttribute path policy.attributeName payload)
  Traced.emit (.attributeWritten path policy.attributeName payload.length)
  return written

/-- The store with a list at a path, where the object is of the list's kind. -/
def writeList (store : Store) (policy : Policy) (path : String) (list : AccessList) :
    Attempt StoreFault Store := do
  let object ← accessing .inspect path (store.object path)
  if list.kind ≠ object.kind then
    throw ⟨.write, path, .list (.kindMismatch object.kind)⟩
  store.writePayload policy path list

/-- The store without a list at a path. -/
def removeList (store : Store) (policy : Policy) (path : String) :
    Attempt StoreFault Store := do
  let removed ← accessing .remove path (store.removeAttribute path policy.attributeName)
  Traced.emit (.attributeRemoved path policy.attributeName)
  return removed

/-- A list as one of another kind of object.  The wire form says nothing about
    the kind, so it is written and read anew. -/
def convertList (list : AccessList) (kind : ObjectKind) (source destination : String) :
    Attempt StoreFault AccessList := do
  if list.kind = kind then
    return list
  else
    let payload ← working .encode source (Wire.encode list)
    working .convert destination (Wire.decode kind payload)

/-- The store with what was found at `source` at `destination`.  Without a list there,
    the one at `destination` goes. -/
def carryList (store : Store) (policy : Policy) (source destination : String) :
    Option AccessList → Attempt StoreFault Store
  | none => store.removeList policy destination
  | some list => do
    let object ← accessing .inspect destination (store.object destination)
    let converted ← convertList list object.kind source destination
    store.writePayload policy destination converted

/-- The store with the list at `source` at `destination` as well. -/
def copyList (store : Store) (policy : Policy) (source destination : String) :
    Attempt StoreFault Store := do
  let found ← store.readList policy source
  store.carryList policy source destination found

/-- Whether the list at a path says no more than a mode; no list does not. -/
def isTrivialAt (store : Store) (policy : Policy) (path : String) :
    Attempt StoreFault Bool := do
  match ← store.readList policy path with
  | none => return true
  | some list => list.isTrivial

/-- Whether a payload is kept at a path. -/
def hasList (store : Store) (policy : Policy) (path : String) : Bool :=
  match store.readAttribute path policy.attributeName with
  | .ok payload => payload.isSome
  | .error _ => false

end Store

end AccessControl
