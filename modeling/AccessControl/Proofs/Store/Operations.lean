/-
  AccessControl/Proofs/Store/Operations.lean
  ==========================================
  **When operations on stored lists succeed, and with what.**

  Each operation is described by one equivalence.  Reading finds what an object
  `Shows`; every change leaves one object `keeping` another payload, or none, and
  touches nothing else (`get?_keeping_of_ne`, `find?_put_of_ne`).
-/
import AccessControl.Proofs.AccessList.Mode
import AccessControl.Proofs.Wire.Conversion
import AccessControl.Store.Payload

namespace AccessControl

/-! ### Tables -/

namespace Table

variable {κ ν : Type}

theorem ext_pairs {s t : Table κ ν} (hpairs : s.pairs = t.pairs) : s = t := by
  cases s; cases t; simp_all

variable [DecidableEq κ] (t : Table κ ν) (key : κ)

theorem erase_erase : (t.erase key).erase key = t.erase key := by
  apply ext_pairs
  simp only [erase, List.filter_filter, Bool.and_self]

theorem setPair_setPair (value other : ν) (pairs : List (κ × ν)) :
    setPair key value (setPair key other pairs) = setPair key value pairs := by
  induction pairs with
  | nil => simp [setPair]
  | cons pair pairs ih =>
    by_cases hsame : pair.1 = key <;> simp [setPair, hsame, ih]

theorem insert_insert (value other : ν) :
    (t.insert key other).insert key value = t.insert key value :=
  ext_pairs (setPair_setPair key value other t.pairs)

theorem setPair_of_find? {value : ν} {pairs : List (κ × ν)}
    (hfound : (pairs.find? fun pair => pair.1 = key).map (·.2) = some value) :
    setPair key value pairs = pairs := by
  induction pairs with
  | nil => cases hfound
  | cons pair pairs ih =>
    rw [setPair]
    by_cases hsame : pair.1 = key
    · rw [List.find?_cons_of_pos (by simpa using hsame), Option.map_some,
        Option.some.injEq] at hfound
      rw [if_pos hsame, ← hsame, ← hfound]
    · rw [List.find?_cons_of_neg (by simpa using hsame)] at hfound
      rw [if_neg hsame, ih hfound]

/-- What is put back where it was found leaves the table as it was. -/
theorem insert_of_get? {value : ν} (hfound : t.get? key = some value) :
    t.insert key value = t :=
  ext_pairs (setPair_of_find? key hfound)

end Table

/-! ### Objects -/

namespace StoredObject

variable {policy : Policy} {object : StoredObject} {list : AccessList}

/-- The list that an object shows under a policy, if it shows one. -/
inductive Shows (policy : Policy) (object : StoredObject) : Option AccessList → Prop where
  | stored (payload : List UInt8) (list : AccessList)
      (hpayload : object.attributes.get? policy.attributeName = some payload)
      (hread : (Wire.decode object.kind payload).result = .ok list) :
      Shows policy object (some list)
  | made (list : AccessList) (hnone : object.attributes.get? policy.attributeName = none)
      (hsynthesize : policy.synthesize)
      (hmade : (AccessList.ofMode object.mode object.kind).result = .ok list) :
      Shows policy object (some list)
  | nothing (hnone : object.attributes.get? policy.attributeName = none)
      (hsynthesize : policy.synthesize = false) : Shows policy object none

theorem Shows.kind_and_size (hshows : object.Shows policy (some list)) :
    list.kind = object.kind ∧ list.size ≤ maxEntries := by
  cases hshows with
  | stored payload _ _ hread => exact Wire.kind_and_size_of_decode hread
  | made _ _ _ hmade =>
    obtain ⟨made, hmade', hkind, hsize⟩ := AccessList.exists_ofMode object.mode object.kind
    rw [hmade'] at hmade
    cases hmade
    exact ⟨hkind, Nat.le_trans hsize (by decide)⟩

/-- The object with another payload under a policy, or without one. -/
def keeping (policy : Policy) (payload : Option (List UInt8)) (object : StoredObject) :
    StoredObject :=
  { object with
    attributes := match payload with
      | some payload => object.attributes.insert policy.attributeName payload
      | none => object.attributes.erase policy.attributeName }

variable (policy) (payload : Option (List UInt8)) (object)

@[simp] theorem kind_keeping : (object.keeping policy payload).kind = object.kind := rfl

@[simp] theorem get?_keeping_self :
    (object.keeping policy payload).attributes.get? policy.attributeName = payload := by
  cases payload <;> simp [keeping]

theorem get?_keeping_of_ne {name : String} (hname : name ≠ policy.attributeName) :
    (object.keeping policy payload).attributes.get? name = object.attributes.get? name := by
  cases payload with
  | none => exact Table.get?_erase_of_ne object.attributes hname
  | some payload => exact Table.get?_insert_of_ne object.attributes payload hname

theorem keeping_keeping :
    (object.keeping policy payload).keeping policy payload = object.keeping policy payload := by
  cases payload with
  | none => simp only [keeping, Table.erase_erase]
  | some payload => simp only [keeping, Table.insert_insert]

variable {policy payload object}

/-- Policies with one namespace keep payloads in the same place. -/
theorem keeping_congr {other : Policy} (hspace : other.space = policy.space) :
    object.keeping other payload = object.keeping policy payload := by
  simp only [keeping, Policy.attributeName, hspace]

theorem shows_keeping {bytes : List UInt8} (hkind : list.kind = object.kind)
    (hencode : (Wire.encode list).result = .ok bytes) :
    (object.keeping policy (some bytes)).Shows policy (some list) := by
  apply StoredObject.Shows.stored bytes list
  · exact get?_keeping_self policy object (some bytes)
  · rw [kind_keeping, ← hkind]
    exact Wire.decode_of_encode hencode

end StoredObject

/-! ### Stores -/

namespace Store

variable {store after : Store} {policy : Policy} {path source destination : String}
  {list converted : AccessList} {kind : ObjectKind} {object : StoredObject}
  {found : Option AccessList}

theorem put_put (store : Store) (path : String) (object other : StoredObject) :
    (store.put path other).put path object = store.put path object := by
  simp only [put, Table.insert_insert]

theorem object_eq_ok_iff : store.object path = .ok object ↔ store.find? path = some object := by
  unfold Store.object
  cases store.find? path <;> simp

theorem object_of_missing (hmissing : store.find? path = none) :
    store.object path = .error ⟨path⟩ := by
  rw [Store.object, hmissing]

theorem readAttribute_of_found {name : String} (hfound : store.find? path = some object) :
    store.readAttribute path name = .ok (object.attributes.get? name) := by
  rw [readAttribute, object_eq_ok_iff.2 hfound, ok_bind]
  rfl

theorem result_accessing {α : Type} (step : StoreStep) (x : Except NoSuchObject α) :
    (accessing step path x).result = x.mapError fun missing => ⟨step, path, .noObject missing⟩ :=
  rfl

theorem result_working {α : Type} (step : StoreStep) (x : Attempt Fault α) :
    (working step path x).result = x.result.mapError fun fault => ⟨step, path, .list fault⟩ := rfl

theorem changeAttributes_eq_ok_iff
    {change : Table String (List UInt8) → Table String (List UInt8)} :
    store.changeAttributes path change = .ok after ↔
      ∃ object, store.find? path = some object ∧
        after = store.put path { object with attributes := change object.attributes } := by
  unfold changeAttributes
  rw [bind_eq_ok_iff]
  simp only [object_eq_ok_iff]
  refine exists_congr fun object => and_congr_right fun _ => ?_
  constructor
  · intro hok
    cases hok
    rfl
  · rintro rfl
    rfl

/-- Nothing has changed but one attribute of the object at a path. -/
structure ChangedOnly (store : Store) (path name : String) (after : Store) : Prop where
  elsewhere : ∀ other, Location.ofPath other ≠ Location.ofPath path →
    after.find? other = store.find? other
  there : ∃ before now, store.find? path = some before ∧ after.find? path = some now ∧
    now.kind = before.kind ∧ now.mode = before.mode ∧
    ∀ other, other ≠ name → now.attributes.get? other = before.attributes.get? other

theorem changedOnly_put_keeping (hobject : store.find? path = some object)
    (payload : Option (List UInt8)) :
    ChangedOnly store path policy.attributeName
      (store.put path (object.keeping policy payload)) where
  elsewhere _ hother := find?_put_of_ne store _ hother
  there := ⟨object, _, hobject, find?_put_self store _ rfl, rfl, rfl, fun _ hname =>
    StoredObject.get?_keeping_of_ne policy object payload hname⟩

/-- The payload is found where it is kept. -/
theorem readAttribute_put_keeping (payload : Option (List UInt8)) :
    (store.put path (object.keeping policy payload)).readAttribute path policy.attributeName =
      .ok payload := by
  have hthere : (store.put path (object.keeping policy payload)).find? path =
      some (object.keeping policy payload) := find?_put_self store _ rfl
  rw [readAttribute_of_found hthere, StoredObject.get?_keeping_self]

theorem readList_eq_ok_iff : (store.readList policy path).result = .ok found ↔
    ∃ object, store.find? path = some object ∧ object.Shows policy found := by
  unfold readList
  rw [Attempt.result_bind, bind_eq_ok_iff]
  simp only [result_accessing, mapError_eq_ok_iff, object_eq_ok_iff]
  refine exists_congr fun object => and_congr_right fun hobject => ?_
  have hread : (accessing .read path (store.readAttribute path policy.attributeName)).result =
      .ok (object.attributes.get? policy.attributeName) := by
    rw [result_accessing, readAttribute_of_found hobject]
    rfl
  rw [Attempt.result_bind, hread, ok_bind, Attempt.result_bind, Attempt.result_lift, ok_bind]
  cases hpayload : object.attributes.get? policy.attributeName with
  | some payload =>
    simp only [Attempt.result_bind, result_working, bind_eq_ok_iff, mapError_eq_ok_iff,
      Attempt.result_pure, Except.ok.injEq]
    constructor
    · rintro ⟨list, hread, rfl⟩
      exact .stored payload list hpayload hread
    · intro hshows
      cases hshows <;> simp_all
  | none =>
    cases hsynthesize : policy.synthesize with
    | true =>
      simp only [if_true, Attempt.result_bind, Attempt.result_lift, result_working, ok_bind,
        bind_eq_ok_iff, mapError_eq_ok_iff, Attempt.result_pure, Except.ok.injEq]
      constructor
      · rintro ⟨list, hmade, rfl⟩
        exact .made list hpayload hsynthesize hmade
      · intro hshows
        cases hshows <;> simp_all
    | false =>
      simp only [Bool.false_eq_true, if_false, Attempt.result_pure, Except.ok.injEq]
      constructor
      · rintro rfl
        exact .nothing hpayload hsynthesize
      · intro hshows
        cases hshows <;> simp_all

/-- Whether an object's list is trivial is told of the list that it shows. -/
theorem result_isTrivialAt (store : Store) (policy : Policy) (path : String) :
    (store.isTrivialAt policy path).result = (store.readList policy path).result.map fun found =>
      found.elim true fun list => list.isTrivial.value := by
  rw [isTrivialAt, Attempt.result_bind]
  rcases (store.readList policy path).result with fault | _ | list
  · rfl
  · rfl
  · exact Attempt.result_lift list.isTrivial

theorem writePayload_eq_ok_iff : (store.writePayload policy path list).result = .ok after ↔
    ∃ payload object, (Wire.encode list).result = .ok payload ∧
      store.find? path = some object ∧
      after = store.put path (object.keeping policy (some payload)) := by
  unfold writePayload
  simp only [Attempt.result_bind, bind_eq_ok_iff, result_working, result_accessing,
    mapError_eq_ok_iff, writeAttribute, changeAttributes_eq_ok_iff, Attempt.result_lift, ok_bind,
    Attempt.result_pure, Except.ok.injEq]
  constructor
  · rintro ⟨payload, hencode, _, ⟨object, hobject, rfl⟩, rfl⟩
    exact ⟨payload, object, hencode, hobject, rfl⟩
  · rintro ⟨payload, object, hencode, hobject, rfl⟩
    exact ⟨payload, hencode, _, ⟨object, hobject, rfl⟩, rfl⟩

theorem removeList_eq_ok_iff : (store.removeList policy path).result = .ok after ↔
    ∃ object, store.find? path = some object ∧
      after = store.put path (object.keeping policy none) := by
  unfold removeList
  simp only [Attempt.result_bind, bind_eq_ok_iff, result_accessing, mapError_eq_ok_iff,
    removeAttribute, changeAttributes_eq_ok_iff, Attempt.result_lift, ok_bind,
    Attempt.result_pure, Except.ok.injEq]
  constructor
  · rintro ⟨_, ⟨object, hobject, rfl⟩, rfl⟩
    exact ⟨object, hobject, rfl⟩
  · rintro ⟨object, hobject, rfl⟩
    exact ⟨_, ⟨object, hobject, rfl⟩, rfl⟩

theorem writeList_eq_ok_iff : (store.writeList policy path list).result = .ok after ↔
    ∃ object, store.find? path = some object ∧ list.kind = object.kind ∧
      (store.writePayload policy path list).result = .ok after := by
  unfold writeList
  rw [Attempt.result_bind, bind_eq_ok_iff]
  simp only [result_accessing, mapError_eq_ok_iff, object_eq_ok_iff]
  refine exists_congr fun object => and_congr_right fun _ => ?_
  by_cases hkind : list.kind = object.kind
  · simp [hkind]
  · simp [hkind]

/-- When a list can be had for an object of a kind, and what it is there. -/
theorem convertList_eq_ok_iff (hsize : list.size ≤ maxEntries) :
    (convertList list kind source destination).result = .ok converted ↔
      (kind = .file → ∀ e ∈ list.entries, e.flags.meets EntryFlags.directoryOnly = false) ∧
        converted.kind = kind ∧ converted.flags = list.flags ∧
        converted.entries = list.entries.map (Entry.heldBy kind) := by
  have hencode := Wire.encode_of_size hsize
  rw [← Wire.decode_as_eq_ok_iff hencode]
  unfold convertList
  split
  case isTrue hkind =>
    -- Without conversion it is as if the list were written and read.
    rw [Attempt.result_pure, ← hkind, Wire.decode_of_encode hencode, Except.ok.injEq,
      Except.ok.injEq]
  case isFalse hkind =>
    simp only [Attempt.result_bind, result_working, hencode]
    show Except.mapError _ _ = _ ↔ _
    rw [mapError_eq_ok_iff]

/-- What takes the place of the payload at a destination of some kind when what
    was found at a source is copied there. -/
inductive Carries (kind : ObjectKind) : Option AccessList → Option (List UInt8) → Prop where
  | nothing : Carries kind none none
  | list (list converted : AccessList) (payload : List UInt8)
      (hflags : kind = .file → ∀ e ∈ list.entries, e.flags.meets EntryFlags.directoryOnly = false)
      (hkind : converted.kind = kind) (hlistFlags : converted.flags = list.flags)
      (hentries : converted.entries = list.entries.map (Entry.heldBy kind))
      (hencode : (Wire.encode converted).result = .ok payload) :
      Carries kind (some list) (some payload)

theorem copyList_eq_ok_iff : (store.copyList policy source destination).result = .ok after ↔
    ∃ found object payload, (store.readList policy source).result = .ok found ∧
      store.find? destination = some object ∧ Carries object.kind found payload ∧
      after = store.put destination (object.keeping policy payload) := by
  unfold copyList
  rw [Attempt.result_bind, bind_eq_ok_iff]
  refine exists_congr fun found => ?_
  cases found with
  | none =>
    rw [carryList, removeList_eq_ok_iff]
    constructor
    · rintro ⟨hread, object, hobject, rfl⟩
      exact ⟨object, none, hread, hobject, .nothing, rfl⟩
    · rintro ⟨object, payload, hread, hobject, hcarries, rfl⟩
      cases hcarries
      exact ⟨hread, object, hobject, rfl⟩
  | some list =>
    simp only [carryList, Attempt.result_bind, bind_eq_ok_iff, result_accessing, mapError_eq_ok_iff,
      object_eq_ok_iff, writePayload_eq_ok_iff]
    have hsize : (store.readList policy source).result = .ok (some list) →
        list.size ≤ maxEntries := by
      intro hread
      obtain ⟨object, -, hshows⟩ := readList_eq_ok_iff.1 hread
      exact hshows.kind_and_size.2
    constructor
    · rintro ⟨hread, object, hobject, converted, hconvert, payload, object', hencode, hobject',
        rfl⟩
      rw [hobject] at hobject'
      cases hobject'
      obtain ⟨hflags, hkind, hlistFlags, hentries⟩ :=
        (convertList_eq_ok_iff (hsize hread)).1 hconvert
      exact ⟨object, some payload, hread, hobject,
        .list list converted payload hflags hkind hlistFlags hentries hencode, rfl⟩
    · rintro ⟨object, payload, hread, hobject, hcarries, rfl⟩
      cases hcarries with
      | list _ converted payload hflags hkind hlistFlags hentries hencode =>
        exact ⟨hread, object, hobject, converted, (convertList_eq_ok_iff (hsize hread)).2
          ⟨hflags, hkind, hlistFlags, hentries⟩, payload, object, hencode, hobject, rfl⟩

end Store

end AccessControl
