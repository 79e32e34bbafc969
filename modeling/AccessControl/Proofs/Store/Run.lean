/-
  AccessControl/Proofs/Store/Run.lean
  ===================================
  **Stored payloads stay readable.**

  A store is `Sound` when every payload in it is one that is written for an object
  of its kind.  A command works on the store in place, and what it leaves is the
  store of the next one, whether it succeeds or fails.  Each command keeps the
  store sound (`sound_apply`): what is new has no payload, and all others are
  written for the kind that the object has at that time, which does not change
  until it is replaced.  So reading never fails after any run (`readable_run`).
-/
import AccessControl.Proofs.Store.InPlace

namespace AccessControl

/-- A payload that is written for an object of a kind, as it is read there. -/
def Wire.IsWritten (kind : ObjectKind) (payload : List UInt8) : Prop :=
  ∃ list, (decode kind payload).result = .ok list ∧ (encode list).result = .ok payload

theorem Wire.isWritten_of_encode {list : AccessList} {payload : List UInt8}
    (hencode : (encode list).result = .ok payload) : IsWritten list.kind payload :=
  ⟨list, decode_of_encode hencode, hencode⟩

namespace StoredObject

/-- The payloads of the object are written for its kind, in each namespace. -/
def Sound (object : StoredObject) : Prop :=
  ∀ (space : AttributeNamespace) (payload : List UInt8),
    object.attributes.get? space.attributeName = some payload →
      Wire.IsWritten object.kind payload

variable {object : StoredObject} {policy : Policy} {payload : Option (List UInt8)}

theorem sound_keeping (hsound : object.Sound)
    (hwritten : ∀ bytes ∈ payload, Wire.IsWritten object.kind bytes) :
    (object.keeping policy payload).Sound := by
  intro space bytes hbytes
  by_cases hspace : space.attributeName = policy.attributeName
  · rw [hspace, get?_keeping_self] at hbytes
    exact hwritten bytes hbytes
  · rw [get?_keeping_of_ne policy object payload hspace] at hbytes
    exact hsound space bytes hbytes

/-- Under every policy a sound object shows a list or shows that there is none. -/
theorem exists_shows (hsound : object.Sound) (policy : Policy) :
    ∃ found, object.Shows policy found := by
  cases hpayload : object.attributes.get? policy.attributeName with
  | some payload =>
    obtain ⟨list, hread, -⟩ := hsound policy.space payload hpayload
    exact ⟨some list, .stored payload list hpayload hread⟩
  | none =>
    cases hsynthesize : policy.synthesize with
    | false => exact ⟨none, .nothing hpayload hsynthesize⟩
    | true =>
      obtain ⟨list, hmade, -⟩ := AccessList.exists_ofMode object.mode object.kind
      exact ⟨some list, .made list hpayload hsynthesize hmade⟩

end StoredObject

namespace Store

/-! ### Runs -/

/-- What can be asked of a store.  Putting an object replaces one of whatever kind. -/
inductive Command where
  | add (path : String) (kind : ObjectKind) (mode : Mode)
  | write (policy : Policy) (path : String) (list : AccessList)
  | remove (policy : Policy) (path : String)
  | copy (policy : Policy) (source destination : String)

/-- A command as a program on one store. -/
def Command.inPlace : Command → InPlace Store StoreFault Unit
  | .add path kind mode => .of fun store => (.ok (), store.add path kind mode)
  | .write policy path list => writeInPlace policy path list
  | .remove policy path => removeInPlace policy path
  | .copy policy source destination => copyInPlace policy source destination

/-- The store as a command leaves it, also one that fails. -/
def apply (store : Store) (command : Command) : Store := (command.inPlace.on store).2

/-- The store after some commands, empty at first. -/
def run (commands : List Command) : Store := commands.foldl apply empty

/-! ### The invariant -/

/-- Every object of the store is sound. -/
def Sound (store : Store) : Prop :=
  ∀ path object, store.find? path = some object → object.Sound

variable {store : Store} {policy : Policy} {path source destination : String} {list : AccessList}
  {object : StoredObject}

theorem sound_put (hsound : store.Sound) (hobject : object.Sound) :
    (store.put path object).Sound := by
  intro other found hfound
  by_cases hsame : Location.ofPath other = Location.ofPath path
  · rw [find?_put_self store object hsame] at hfound
    cases hfound
    exact hobject
  · rw [find?_put_of_ne store object hsame] at hfound
    exact hsound other found hfound

theorem sound_write (hsound : store.Sound) :
    ((writeInPlace policy path list).on store).2.Sound := by
  rw [writeInPlace_eq]
  apply InPlace.left_of_whole hsound
  intro changed hok
  obtain ⟨object, hobject, hkind, hwrite⟩ := writeList_eq_ok_iff.1 hok
  obtain ⟨payload, object', hencode, hobject', rfl⟩ := writePayload_eq_ok_iff.1 hwrite
  rw [hobject] at hobject'
  cases hobject'
  apply sound_put hsound
  apply StoredObject.sound_keeping (hsound path object hobject)
  rintro _ ⟨⟩
  exact hkind ▸ Wire.isWritten_of_encode hencode

theorem sound_remove (hsound : store.Sound) :
    ((removeInPlace policy path).on store).2.Sound := by
  rw [removeInPlace_eq]
  apply InPlace.left_of_whole hsound
  intro changed hok
  obtain ⟨object, hobject, rfl⟩ := removeList_eq_ok_iff.1 hok
  apply sound_put hsound
  exact StoredObject.sound_keeping (hsound path object hobject) nofun

theorem sound_copy (hsound : store.Sound) :
    ((copyInPlace policy source destination).on store).2.Sound := by
  rw [copyInPlace_eq]
  apply InPlace.left_of_whole hsound
  intro changed hok
  obtain ⟨found, object, payload, -, hobject, hcarries, rfl⟩ := copyList_eq_ok_iff.1 hok
  apply sound_put hsound
  apply StoredObject.sound_keeping (hsound destination object hobject)
  cases hcarries with
  | nothing => exact nofun
  | list _ converted bytes _ hkind _ _ hencode =>
    rintro _ ⟨⟩
    exact hkind ▸ Wire.isWritten_of_encode hencode

theorem sound_apply (hsound : store.Sound) (command : Command) : (store.apply command).Sound := by
  cases command with
  | add path kind mode =>
    apply sound_put hsound
    intro space payload hpayload
    cases hpayload
  | write policy path list => exact sound_write hsound
  | remove policy path => exact sound_remove hsound
  | copy policy source destination => exact sound_copy hsound

theorem sound_run (commands : List Command) : (run commands).Sound := by
  have hfold : ∀ (commands : List Command) (store : Store), store.Sound →
      (commands.foldl apply store).Sound := by
    intro commands
    induction commands with
    | nil => exact fun _ hsound => hsound
    | cons command commands ih => exact fun store hsound => ih _ (sound_apply hsound command)
  apply hfold
  intro path object hobject
  cases hobject

/-! ### Reading -/

/-- **Stored payloads stay readable.**  After any run from an empty store, each
    payload of a list, in either namespace, is read for the kind that its object
    has now, and written back as it is.  So under no policy does it fail to read a
    list or to tell whether it is trivial. -/
theorem readable_run (commands : List Command) (path : String) (object : StoredObject)
    (hobject : (run commands).find? path = some object) :
    (∀ (space : AttributeNamespace) (payload : List UInt8),
      object.attributes.get? space.attributeName = some payload →
        ∃ list, (Wire.decode object.kind payload).result = .ok list ∧
          (Wire.encode list).result = .ok payload) ∧
    ∀ policy, (∃ found, ((run commands).readList policy path).result = .ok found) ∧
      ∃ trivial, ((run commands).isTrivialAt policy path).result = .ok trivial := by
  have hsound : object.Sound := sound_run commands path object hobject
  refine ⟨hsound, ?_⟩
  intro policy
  obtain ⟨found, hshows⟩ := StoredObject.exists_shows hsound policy
  have hread : ((run commands).readList policy path).result = .ok found :=
    readList_eq_ok_iff.2 ⟨object, hobject, hshows⟩
  refine ⟨⟨found, hread⟩, ?_⟩
  rw [result_isTrivialAt, hread]
  exact ⟨_, rfl⟩

/-- A directory that has become a file gets its list from another directory, by
    way of a place that is spelled otherwise, and shows it. -/
theorem readable_run_replaced :
    let policy : Policy := ⟨.security, false⟩
    let sweeper : Entry :=
      ⟨.allow, Flags.none, Rights.full, .named 7, by decide, by decide, by decide⟩
    let list : AccessList := ⟨.directory, Flags.none, [sweeper], by decide⟩
    let commands : List Command :=
      [.add "/d" .directory 0x1ED, .write policy "/d" list, .add "/e" .directory 0x1C0,
        .write policy "/e//" list, .add "/d" .file 0x1A4, .write policy "/d" list,
        .copy policy "/e" "/./d"]
    ∃ object, (run commands).find? "/d" = some object ∧ object.kind = .file ∧
      (object.attributes.get? policy.attributeName).isSome ∧
      ∃ found, ((run commands).readList policy "/d").result = .ok found := by
  intro policy sweeper list commands
  have hkind : ((run commands).find? "/d").map StoredObject.kind = some .file := by decide +kernel
  have hpayload : ((run commands).find? "/d").map (fun object =>
      (object.attributes.get? policy.attributeName).isSome) = some true := by decide +kernel
  obtain ⟨object, hobject, hfile⟩ := Option.map_eq_some_iff.1 hkind
  rw [hobject, Option.map_some, Option.some.injEq] at hpayload
  have hreadable := readable_run commands "/d" object hobject
  exact ⟨object, hobject, hfile, hpayload, (hreadable.2 policy).1⟩

end Store

end AccessControl
