/-
  AccessControl/Proofs/Store/Triviality.lean
  ==========================================
  **Asking whether a stored list is trivial.**

  A missing list can be made from the mode of its object before it is looked at.
  The answer does not show whether it was: the list of a mode is trivial, whatever
  the mode, and a missing list counts as trivial without being made
  (`isTrivialFor_none`).  So the policy's namespace decides where to look, and nothing
  else of the policy plays a part.

  In place, the question takes the object out of the store twice and puts it back
  each time, so the store is left as it was (`isTrivialInPlace_eq`).
-/
import AccessControl.Proofs.AccessList.Extension
import AccessControl.Proofs.Store.InPlace

namespace AccessControl.Store

/-- Whether what was found of an object says no more than its mode. -/
def isTrivialFor (policy : Policy) (path : String) (kind : ObjectKind) (mode : Mode)
    (payload : Option (List UInt8)) : Except StoreFault Bool :=
  (shown policy path kind mode payload).map fun found =>
    found.elim true fun list => list.isTrivial.value

variable {store : Store} {policy : Policy} {path : String} {object : StoredObject}
  {list : AccessList}

/-! ### Answers -/

/-- A list made from a mode is trivial. -/
theorem value_isTrivial_ofMode {mode : Mode} {kind : ObjectKind}
    (hmade : (AccessList.ofMode mode kind).result = .ok list) : list.isTrivial.value = true := by
  rw [AccessList.result_ofMode, Except.ok.injEq] at hmade
  subst hmade
  exact AccessList.value_isTrivial_of_entries rfl

/-- What is said of a missing list does not depend on whether it is made. -/
theorem isTrivialFor_none (policy : Policy) (path : String) (kind : ObjectKind) (mode : Mode) :
    isTrivialFor policy path kind mode none = .ok true := by
  rw [isTrivialFor, shown]
  split_ifs
  · obtain ⟨made, hmade, -⟩ := AccessList.exists_ofMode mode kind
    rw [result_working, hmade]
    exact congrArg Except.ok (value_isTrivial_ofMode hmade)
  · rfl

theorem isTrivialFor_congr (policy other : Policy) (path : String) (kind : ObjectKind)
    (mode : Mode) (payload : Option (List UInt8)) :
    isTrivialFor policy path kind mode payload = isTrivialFor other path kind mode payload := by
  cases payload with
  | none => rw [isTrivialFor_none, isTrivialFor_none]
  | some payload => rfl

theorem result_isTrivialAt_found (hobject : store.find? path = some object) :
    (store.isTrivialAt policy path).result = isTrivialFor policy path object.kind object.mode
      (object.attributes.get? policy.attributeName) := by
  have hread : (store.readList policy path).result = shown policy path object.kind object.mode
      (object.attributes.get? policy.attributeName) := by
    rw [result_readList, object_eq_ok_iff.2 hobject, readAttribute_of_found hobject]
    rfl
  rw [result_isTrivialAt, hread, isTrivialFor]

theorem result_isTrivialAt_missing (hnone : store.find? path = none) :
    (store.isTrivialAt policy path).result = .error ⟨.inspect, path, .noObject ⟨path⟩⟩ := by
  simp only [isTrivialAt, readList, Attempt.result_bind, result_accessing, object, hnone]
  rfl

/-- **Whether a stored list is trivial does not depend on synthesis.**  With and
    without lists made from modes the answer is the same, or the same fault.  An object
    with no payload is trivial, whatever its mode and kind.  To ask in place has the same
    answer and leaves the store as it was. -/
theorem isTrivialAt_either_way (store : Store) (space : AttributeNamespace) (path : String) :
    (store.isTrivialAt ⟨space, true⟩ path).result = (store.isTrivialAt ⟨space, false⟩ path).result ∧
    (∀ object synthesize, store.find? path = some object →
      object.attributes.get? space.attributeName = none →
      (store.isTrivialAt ⟨space, synthesize⟩ path).result = .ok true) ∧
    ∀ synthesize, let after := (isTrivialInPlace ⟨space, synthesize⟩ path).on store
      after.1 = (store.isTrivialAt ⟨space, synthesize⟩ path).result ∧ after.2 = store := by
  refine ⟨?_, fun object synthesize hobject hpayload => ?_, fun synthesize => ?_⟩
  · cases hobject : store.find? path with
    | none => rw [result_isTrivialAt_missing hobject, result_isTrivialAt_missing hobject]
    | some object =>
      rw [result_isTrivialAt_found hobject, result_isTrivialAt_found hobject]
      exact isTrivialFor_congr _ _ path object.kind object.mode _
  · have hmissing : object.attributes.get? (Policy.mk space synthesize).attributeName = none :=
      hpayload
    rw [result_isTrivialAt_found hobject, hmissing, isTrivialFor_none]
  · rw [isTrivialInPlace_eq]
    exact ⟨rfl, rfl⟩

/-- A directory with a mode of twelve bits and no payload, and a file whose payload is
    broken off. -/
theorem isTrivialAt_either_way_sticky :
    let store := (Store.empty.add "/srv" .directory 0o5751).put "/srv/a"
      ⟨.file, 0o644, Table.empty.insert "system.nfs4_acl_xdr" [0, 0, 0]⟩
    (store.isTrivialAt ⟨.system, true⟩ "/srv").result = .ok true ∧
    (store.isTrivialAt ⟨.system, true⟩ "/srv/a").result =
      (store.isTrivialAt ⟨.system, false⟩ "/srv/a").result ∧
    (store.isTrivialAt ⟨.system, false⟩ "/srv/a").result =
      .error ⟨.decode, "/srv/a", .list (.badLength 3)⟩ ∧
    (isTrivialInPlace ⟨.system, true⟩ "/srv").on store = (.ok true, store) := by
  intro store
  obtain ⟨-, hnone, hask⟩ := isTrivialAt_either_way store .system "/srv"
  obtain ⟨hsame, -⟩ := isTrivialAt_either_way store .system "/srv/a"
  have htrivial := hnone ⟨.directory, 0o5751, Table.empty⟩ true rfl rfl
  refine ⟨htrivial, hsame, ?_, Prod.ext ((hask true).1.trans htrivial) (hask true).2⟩
  decide +kernel

end AccessControl.Store
