/-
  AccessControl/Proofs/Store/History.lean
  =======================================
  **A store holds what was written last.**

  What is at a place depends on the changes made to it and to no other
  (`Change.seenAt`, `find?_changed`).  So one invariant for each path carries over
  a history: there is no object where none was registered, and else an object of
  the kind and mode registered last, with the values written since (`Recounts`).
  A change is a use of one object in the store.  Where there is no object, it is
  refused and leaves the store as it was.
-/
import AccessControl.Proofs.Names
import AccessControl.Proofs.Store.InPlace
import Mathlib.Data.Finset.Card
import Mathlib.Data.Finset.Dedup

namespace AccessControl

/-! ### The last of several -/

/-- An element has a property, and no element behind it undoes it. -/
def LastOf {α : Type} (p undoes : α → Prop) (as : List α) : Prop :=
  ∃ before a after, as = before ++ a :: after ∧ p a ∧ ∀ b ∈ after, ¬ undoes b

section

variable {α : Type} {p undoes : α → Prop} {as : List α} {a : α}

theorem lastOf_append_singleton :
    LastOf p undoes (as ++ [a]) ↔ p a ∨ (¬ undoes a ∧ LastOf p undoes as) := by
  constructor
  · intro hlast
    obtain ⟨before, b, after, hsplit, hb, hafter⟩ := hlast
    rcases List.eq_nil_or_concat' after with hnil | ⟨front, c, hconcat⟩
    · subst hnil
      obtain ⟨-, hab⟩ := List.append_inj' hsplit rfl
      rw [List.singleton_inj.1 hab]
      exact .inl hb
    · subst hconcat
      rw [← List.cons_append, ← List.append_assoc] at hsplit
      obtain ⟨has, hac⟩ := List.append_inj' hsplit rfl
      rw [List.singleton_inj.1 hac]
      refine .inr ⟨hafter c (by simp), before, b, front, has, hb, ?_⟩
      intro d hd
      exact hafter d (by simp [hd])
  · intro hlast
    rcases hlast with ha | ⟨hkept, before, b, after, hsplit, hb, hafter⟩
    · exact ⟨as, a, [], rfl, ha, by simp⟩
    · refine ⟨before, b, after ++ [a], by simp [hsplit], hb, ?_⟩
      intro c hc
      rcases List.mem_append.1 hc with hold | hnew
      · exact hafter c hold
      · exact List.mem_singleton.1 hnew ▸ hkept

end

/-! ### Keys -/

namespace Table

variable {κ ν : Type} [DecidableEq κ]

def keys (t : Table κ ν) : Finset κ := (t.pairs.map (·.1)).toFinset

theorem card_keys (t : Table κ ν) : t.keys.card = t.size := by
  rw [keys, List.toFinset_card_of_nodup t.distinct, List.length_map]
  rfl

theorem mem_keys_iff (t : Table κ ν) {key : κ} :
    key ∈ t.keys ↔ ∃ value, t.get? key = some value := by
  simp [keys, get?_eq_some_iff]

end Table

namespace Store

/-! ### Histories -/

/-- What changes a store. -/
inductive Change where
  | add (path : String) (kind : ObjectKind) (mode : Mode)
  | write (path name : String) (value : List UInt8)
  | remove (path name : String)

/-- The store after a change, or that there is no object to change. -/
def tried (store : Store) : Change → Except NoSuchObject Store
  | .add path kind mode => .ok (store.add path kind mode)
  | .write path name value => store.writeAttribute path name value
  | .remove path name => store.removeAttribute path name

/-- A change as a program on one store. -/
def Change.inPlace : Change → InPlace Store NoSuchObject Unit
  | .add path kind mode => .of fun store => (.ok (), store.add path kind mode)
  | .write path name value => visit path (edit fun attributes => attributes.insert name value)
  | .remove path name => visit path (edit fun attributes => attributes.erase name)

/-- The store as a change leaves it, also one that finds no object. -/
def changed (store : Store) (change : Change) : Store := (change.inPlace.on store).2

/-- The store after some changes, empty at first. -/
def history (changes : List Change) : Store := changes.foldl changed empty

namespace Change

/-- The path that the change is about. -/
def target : Change → String
  | .add path _ _ | .write path _ _ | .remove path _ => path

/-- The change puts an object at the place of a path. -/
def Registers (path : String) : Change → Prop
  | .add other _ _ => Location.ofPath other = Location.ofPath path
  | .write .. | .remove .. => False

/-- The change puts an object of this kind and mode at the place of a path. -/
def RegistersAs (path : String) (kind : ObjectKind) (mode : Mode) : Change → Prop
  | .add other k m => Location.ofPath other = Location.ofPath path ∧ k = kind ∧ m = mode
  | .write .. | .remove .. => False

/-- The change writes a value under a name at the place of a path. -/
def Writes (path name : String) (value : List UInt8) : Change → Prop
  | .write other n written =>
    Location.ofPath other = Location.ofPath path ∧ n = name ∧ written = value
  | .add .. | .remove .. => False

/-- What was under a name at the place of a path is not there after the change. -/
def Ends (path name : String) : Change → Prop
  | .add other _ _ => Location.ofPath other = Location.ofPath path
  | .write other n _ | .remove other n =>
    Location.ofPath other = Location.ofPath path ∧ n = name

/-- What is at the place of a path after the change, by what was there before. -/
def seenAt (path : String) (found : Option StoredObject) : Change → Option StoredObject
  | .add other kind mode =>
    if Location.ofPath other = Location.ofPath path then
      some { kind, mode, attributes := Table.empty }
    else found
  | .write other name value =>
    if Location.ofPath other = Location.ofPath path then
      found.map fun object => { object with attributes := object.attributes.insert name value }
    else found
  | .remove other name =>
    if Location.ofPath other = Location.ofPath path then
      found.map fun object => { object with attributes := object.attributes.erase name }
    else found

end Change

variable {store : Store} {changes : List Change} {path name : String} {found : Option StoredObject}
  {object : StoredObject} {change : Change}

/-- Some change puts an object at the place of a path. -/
def Registered (changes : List Change) (path : String) : Prop :=
  ∃ change ∈ changes, change.Registers path

instance (path : String) : DecidablePred (Change.Registers path)
  | .add other _ _ => inferInstanceAs (Decidable (Location.ofPath other = Location.ofPath path))
  | .write .. | .remove .. => inferInstanceAs (Decidable False)

instance (changes : List Change) (path : String) : Decidable (Registered changes path) :=
  inferInstanceAs (Decidable (∃ change ∈ changes, change.Registers path))

/-- The last object put at the place of a path is of this kind and mode. -/
def LastRegistered (changes : List Change) (path : String) (kind : ObjectKind) (mode : Mode) :
    Prop :=
  LastOf (Change.RegistersAs path kind mode) (Change.Registers path) changes

/-- The value is the last one written under a name at the place of a path, and
    neither was it taken away nor an object put there since. -/
def LastWritten (changes : List Change) (path name : String) (value : List UInt8) : Prop :=
  LastOf (Change.Writes path name value) (Change.Ends path name) changes

/-! ### One change -/

theorem find?_congr {other : String} (hsame : Location.ofPath other = Location.ofPath path) :
    store.find? other = store.find? path := by
  rw [find?, hsame, find?]

theorem changeAttributes_of_missing (hmissing : store.find? path = none)
    (change : Table String (List UInt8) → Table String (List UInt8)) :
    store.changeAttributes path change = .error ⟨path⟩ := by
  rw [changeAttributes, object_of_missing hmissing, error_bind]

theorem Change.inPlace_eq (change : Change) :
    change.inPlace = .whole fun store => store.tried change := by
  cases change with
  | add path kind mode => rfl
  | write path name value => exact visit_edit path _
  | remove path name => exact visit_edit path _

/-- What is found after the attributes of one object are changed, if there is one. -/
theorem find?_visit_edit (store : Store) (other path : String)
    (change : Table String (List UInt8) → Table String (List UInt8)) :
    ((visit other (edit change)).on store).2.find? path =
      if Location.ofPath other = Location.ofPath path then
        (store.find? path).map fun object => { object with attributes := change object.attributes }
      else store.find? path := by
  rw [visit, InPlace.on_of]
  cases hfound : store.find? other with
  | none =>
    dsimp only
    split
    case isTrue hsame =>
      rw [find?_congr hsame] at hfound
      rw [hfound]
      rfl
    case isFalse => rfl
  | some object =>
    dsimp only
    split
    case isTrue hsame =>
      rw [find?_congr hsame] at hfound
      rw [hfound]
      exact find?_put_self store _ hsame.symm
    case isFalse hother => exact find?_put_of_ne store _ (Ne.symm hother)

theorem find?_changed (store : Store) (change : Change) (path : String) :
    (store.changed change).find? path = change.seenAt path (store.find? path) := by
  cases change with
  | add other kind mode =>
    show (store.add other kind mode).find? path = _
    rw [add, Change.seenAt]
    split
    case isTrue hsame => exact find?_put_self store _ hsame.symm
    case isFalse hother => exact find?_put_of_ne store _ (Ne.symm hother)
  | write other name value =>
    exact find?_visit_edit store other path fun attributes => attributes.insert name value
  | remove other name =>
    exact find?_visit_edit store other path fun attributes => attributes.erase name

/-! ### What a history leaves -/

theorem registered_append_singleton :
    Registered (changes ++ [change]) path ↔ Registered changes path ∨ change.Registers path := by
  simp [Registered, or_and_right, exists_or]

theorem Change.Registers.same_place (has : change.Registers path) :
    Location.ofPath change.target = Location.ofPath path := by
  cases change with
  | add => exact has
  | write | remove => exact has.elim

theorem Change.Ends.same_place (has : change.Ends path name) :
    Location.ofPath change.target = Location.ofPath path := by
  cases change with
  | add => exact has
  | write | remove => exact has.1

theorem Change.Writes.ends {value : List UInt8} (has : change.Writes path name value) :
    change.Ends path name := by
  cases change with
  | write => exact ⟨has.1, has.2.1⟩
  | add | remove => exact has.elim

theorem Change.RegistersAs.registers {kind : ObjectKind} {mode : Mode}
    (has : change.RegistersAs path kind mode) : change.Registers path := by
  cases change with
  | add => exact has.1
  | write | remove => exact has

theorem registered_of_lastRegistered {kind : ObjectKind} {mode : Mode}
    (hlast : LastRegistered changes path kind mode) : Registered changes path := by
  obtain ⟨before, change, after, hsplit, hregisters, -⟩ := hlast
  exact ⟨change, by simp [hsplit], hregisters.registers⟩

/-- What is found at a path tells what a history has put and written there. -/
inductive Recounts (changes : List Change) (path : String) : Option StoredObject → Prop where
  | nothing (hnever : ¬ Registered changes path) : Recounts changes path none
  | object (object : StoredObject)
      (hregistered : ∀ kind mode, LastRegistered changes path kind mode ↔
        object.kind = kind ∧ object.mode = mode)
      (hwritten : ∀ name value, LastWritten changes path name value ↔
        object.attributes.get? name = some value) :
      Recounts changes path (some object)

/-- A change that puts no object at a place leaves the kind and mode that are there,
    and the account is true if it is so of the attributes. -/
theorem Recounts.attributes (hrecounts : Recounts changes path found)
    (hregisters : ¬ change.Registers path)
    (edit : Table String (List UInt8) → Table String (List UInt8))
    (hedit : ∀ attributes : Table String (List UInt8),
      (∀ name value, LastWritten changes path name value ↔ attributes.get? name = some value) →
        ∀ name value, LastWritten (changes ++ [change]) path name value ↔
          (edit attributes).get? name = some value) :
    Recounts (changes ++ [change]) path
      (found.map fun object => { object with attributes := edit object.attributes }) := by
  rcases hrecounts with hnever | ⟨object, hregistered, hwritten⟩
  · refine .nothing ?_
    rw [registered_append_singleton]
    exact not_or.2 ⟨hnever, hregisters⟩
  · refine .object _ ?_ (hedit object.attributes hwritten)
    intro kind mode
    have hnot : ¬ change.RegistersAs path kind mode := fun has => hregisters has.registers
    rw [LastRegistered, lastOf_append_singleton, ← LastRegistered, hregistered]
    simp only [hnot, hregisters, not_false_eq_true, true_and, false_or]

theorem recounts_elsewhere (hrecounts : Recounts changes path found)
    (hother : ¬ Location.ofPath change.target = Location.ofPath path) :
    Recounts (changes ++ [change]) path (change.seenAt path found) := by
  have hseen : change.seenAt path found = found := by
    cases change <;> exact if_neg hother
  have hregisters : ¬ change.Registers path := fun has => hother has.same_place
  have hends : ∀ name, ¬ change.Ends path name := fun _ has => hother has.same_place
  have hwrites : ∀ name value, ¬ change.Writes path name value :=
    fun name _ has => hends name has.ends
  have hkept := hrecounts.attributes hregisters id (by
    intro attributes hwritten name value
    rw [LastWritten, lastOf_append_singleton, ← LastWritten, hwritten]
    simp only [hwrites, hends, not_false_eq_true, true_and, false_or, id])
  rw [hseen]
  simpa using hkept

theorem recounts_add {other : String} (kind : ObjectKind) (mode : Mode)
    (hsame : Location.ofPath other = Location.ofPath path) :
    Recounts (changes ++ [.add other kind mode]) path
      (some { kind, mode, attributes := Table.empty }) := by
  refine .object _ ?_ ?_
  · intro k m
    rw [LastRegistered, lastOf_append_singleton]
    simp [Change.RegistersAs, Change.Registers, hsame]
  · intro name value
    rw [LastWritten, lastOf_append_singleton]
    simp [Change.Writes, Change.Ends, hsame]

theorem recounts_write {other : String} (hrecounts : Recounts changes path found)
    (name : String) (value : List UInt8) (hsame : Location.ofPath other = Location.ofPath path) :
    Recounts (changes ++ [.write other name value]) path
      (found.map fun object =>
        { object with attributes := object.attributes.insert name value }) := by
  have hregisters : ¬ (Change.write other name value).Registers path := not_false
  apply hrecounts.attributes hregisters (·.insert name value)
  intro attributes hwritten n v
  rw [LastWritten, lastOf_append_singleton, ← LastWritten, hwritten]
  by_cases hname : n = name
  · subst hname
    simp [Change.Writes, Change.Ends, hsame]
  · rw [Table.get?_insert_of_ne attributes value hname]
    simp [Change.Writes, Change.Ends, Ne.symm hname]

theorem recounts_remove {other : String} (hrecounts : Recounts changes path found)
    (name : String) (hsame : Location.ofPath other = Location.ofPath path) :
    Recounts (changes ++ [.remove other name]) path
      (found.map fun object => { object with attributes := object.attributes.erase name }) := by
  have hregisters : ¬ (Change.remove other name).Registers path := not_false
  apply hrecounts.attributes hregisters (·.erase name)
  intro attributes hwritten n v
  rw [LastWritten, lastOf_append_singleton, ← LastWritten, hwritten]
  by_cases hname : n = name
  · subst hname
    simp [Change.Writes, Change.Ends, hsame]
  · rw [Table.get?_erase_of_ne attributes hname]
    simp [Change.Writes, Change.Ends, Ne.symm hname]

/-- What a change does to one place keeps the account of it true. -/
theorem recounts_seenAt (hrecounts : Recounts changes path found) (change : Change) :
    Recounts (changes ++ [change]) path (change.seenAt path found) := by
  by_cases hsame : Location.ofPath change.target = Location.ofPath path
  · cases change with
    | add other kind mode =>
      change Location.ofPath other = Location.ofPath path at hsame
      rw [Change.seenAt, if_pos hsame]
      exact recounts_add kind mode hsame
    | write other name value =>
      change Location.ofPath other = Location.ofPath path at hsame
      rw [Change.seenAt, if_pos hsame]
      exact recounts_write hrecounts name value hsame
    | remove other name =>
      change Location.ofPath other = Location.ofPath path at hsame
      rw [Change.seenAt, if_pos hsame]
      exact recounts_remove hrecounts name hsame
  · exact recounts_elsewhere hrecounts hsame

theorem history_append_singleton (changes : List Change) (change : Change) :
    history (changes ++ [change]) = (history changes).changed change := by
  rw [history, List.foldl_append]
  rfl

theorem recounts_history (changes : List Change) (path : String) :
    Recounts changes path ((history changes).find? path) := by
  induction changes using List.reverseRecOn with
  | nil => exact .nothing (by simp [Registered])
  | append_singleton changes change ih =>
    rw [history_append_singleton, find?_changed]
    exact recounts_seenAt ih change

/-! ### What is read -/

theorem readAttribute_of_missing (hmissing : store.find? path = none) :
    store.readAttribute path name = .error ⟨path⟩ := by
  rw [readAttribute, object_of_missing hmissing, error_bind]

theorem changed_of_refused {missing : NoSuchObject} (hrefused : store.tried change = .error missing) :
    store.changed change = store := by
  rw [changed, change.inPlace_eq, InPlace.on_whole_of_error hrefused]

/-- Without an object, everything is refused and nothing changes. -/
theorem refused_of_missing (hmissing : store.find? path = none) (name : String)
    (value : List UInt8) :
    store.object path = .error ⟨path⟩ ∧ store.attributeCount? path = none ∧
      store.tried (.write path name value) = .error ⟨path⟩ ∧
      store.tried (.remove path name) = .error ⟨path⟩ ∧
      store.changed (.write path name value) = store ∧
      store.changed (.remove path name) = store := by
  have hwrite : store.tried (.write path name value) = .error ⟨path⟩ := by
    rw [tried, writeAttribute, changeAttributes_of_missing hmissing]
  have hremove : store.tried (.remove path name) = .error ⟨path⟩ := by
    rw [tried, removeAttribute, changeAttributes_of_missing hmissing]
  have hcount : store.attributeCount? path = none := by
    rw [attributeCount?, hmissing, Option.map_none]
  exact ⟨object_of_missing hmissing, hcount, hwrite, hremove, changed_of_refused hwrite,
    changed_of_refused hremove⟩

theorem attributeCount?_eq_some_iff (hfound : store.find? path = some object) (count : Nat) :
    store.attributeCount? path = some count ↔ ∃ names : Finset String, names.card = count ∧
      ∀ other, other ∈ names ↔ ∃ value, object.attributes.get? other = some value := by
  rw [attributeCount?, hfound, Option.map_some, Option.some.injEq, ← Table.card_keys]
  constructor
  · intro hcount
    exact ⟨object.attributes.keys, hcount, fun other => object.attributes.mem_keys_iff⟩
  · intro hnames
    obtain ⟨names, hcard, hmem⟩ := hnames
    have hkeys : object.attributes.keys = names := by
      ext other
      rw [Table.mem_keys_iff, hmem]
    rw [hkeys, hcard]

theorem missing_of_never (hnever : ¬ Registered changes path) :
    (history changes).find? path = none := by
  have hrecounts := recounts_history changes path
  cases hfound : (history changes).find? path with
  | none => rfl
  | some object =>
    rw [hfound] at hrecounts
    obtain _ | ⟨_, hregistered, -⟩ := hrecounts
    have hlast := (hregistered object.kind object.mode).2 ⟨rfl, rfl⟩
    exact absurd (registered_of_lastRegistered hlast) hnever

theorem exists_found (hregistered : Registered changes path) :
    ∃ object, (history changes).find? path = some object ∧
      (∀ kind mode, LastRegistered changes path kind mode ↔
        object.kind = kind ∧ object.mode = mode) ∧
      ∀ name value, LastWritten changes path name value ↔
        object.attributes.get? name = some value := by
  have hrecounts := recounts_history changes path
  cases hfound : (history changes).find? path with
  | none =>
    rw [hfound] at hrecounts
    obtain ⟨hnever⟩ := hrecounts
    exact absurd hregistered hnever
  | some object =>
    rw [hfound] at hrecounts
    obtain _ | ⟨_, hlast, hwritten⟩ := hrecounts
    exact ⟨object, rfl, hlast, hwritten⟩

/-! ### What is told of a history -/

theorem readAttribute_history (changes : List Change) (path name : String) :
    ((history changes).readAttribute path name = .error ⟨path⟩ ↔ ¬ Registered changes path) ∧
    (∀ value, (history changes).readAttribute path name = .ok (some value) ↔
      Registered changes path ∧ LastWritten changes path name value) ∧
    ((history changes).readAttribute path name = .ok none ↔
      Registered changes path ∧ ∀ value, ¬ LastWritten changes path name value) := by
  by_cases hregistered : Registered changes path
  · obtain ⟨object, hfound, -, hwritten⟩ := exists_found hregistered
    simp only [readAttribute_of_found hfound, and_iff_right hregistered, hwritten, Except.ok.injEq]
    exact ⟨iff_of_false (by simp) (not_not_intro hregistered), fun _ => trivial,
      Option.eq_none_iff_forall_ne_some⟩
  · simp only [readAttribute_of_missing (missing_of_never hregistered), hregistered,
      not_false_eq_true, false_and, reduceCtorEq, implies_true, and_self]

theorem object_history_iff (changes : List Change) (path : String) (kind : ObjectKind)
    (mode : Mode) :
    ((history changes).object path).map (fun object => (object.kind, object.mode)) =
      .ok (kind, mode) ↔ LastRegistered changes path kind mode := by
  by_cases hregistered : Registered changes path
  · obtain ⟨object, hfound, hlast, -⟩ := exists_found hregistered
    rw [object_eq_ok_iff.2 hfound, hlast]
    show Except.ok (object.kind, object.mode) = _ ↔ _
    rw [Except.ok.injEq, Prod.mk.injEq]
  · rw [object_of_missing (missing_of_never hregistered)]
    exact iff_of_false nofun fun hlast => hregistered (registered_of_lastRegistered hlast)

theorem attributeCount?_history_iff (changes : List Change) (path : String) (count : Nat) :
    (history changes).attributeCount? path = some count ↔
      Registered changes path ∧ ∃ names : Finset String, names.card = count ∧
        ∀ other, other ∈ names ↔ ∃ value, LastWritten changes path other value := by
  by_cases hregistered : Registered changes path
  · obtain ⟨object, hfound, -, hwritten⟩ := exists_found hregistered
    rw [and_iff_right hregistered, attributeCount?_eq_some_iff hfound]
    simp only [hwritten]
  · simp only [attributeCount?, missing_of_never hregistered, Option.map_none, hregistered,
      false_and, reduceCtorEq]

/-- **A store holds what was written last.**  After any history from an empty store,
    an attribute of a path at which no object was ever registered cannot be read;
    else it has the value that was written last and neither taken away nor cleared by
    a registration since, or none.  The object at a path is of the kind and mode
    registered last, and has as many attributes as there are names with such a value.
    Without an object, everything is refused and nothing changes. -/
theorem holds_last_written (changes : List Change) (path name : String) :
    let store := history changes
    (store.readAttribute path name = .error ⟨path⟩ ↔ ¬ Registered changes path) ∧
    (∀ value, store.readAttribute path name = .ok (some value) ↔
      Registered changes path ∧ LastWritten changes path name value) ∧
    (store.readAttribute path name = .ok none ↔
      Registered changes path ∧ ∀ value, ¬ LastWritten changes path name value) ∧
    (∀ kind mode, (store.object path).map (fun object => (object.kind, object.mode)) =
      .ok (kind, mode) ↔ LastRegistered changes path kind mode) ∧
    (∀ count, store.attributeCount? path = some count ↔
      Registered changes path ∧ ∃ names : Finset String, names.card = count ∧
        ∀ other, other ∈ names ↔ ∃ value, LastWritten changes path other value) ∧
    (¬ Registered changes path → ∀ value,
      store.object path = .error ⟨path⟩ ∧ store.attributeCount? path = none ∧
      store.tried (.write path name value) = .error ⟨path⟩ ∧
      store.tried (.remove path name) = .error ⟨path⟩ ∧
      store.changed (.write path name value) = store ∧
      store.changed (.remove path name) = store) := by
  intro store
  obtain ⟨hnever, hvalue, hnone⟩ := readAttribute_history changes path name
  refine ⟨hnever, hvalue, hnone, object_history_iff changes path,
    attributeCount?_history_iff changes path, ?_⟩
  intro hmissing value
  exact refused_of_missing (missing_of_never hmissing) name value

/-- A write before there is an object is lost, one that spells the path otherwise is
    found, and a path without an object refuses a write. -/
theorem holds_last_written_other_spellings :
    let changes : List Change :=
      [.write "/d" "n" [1], .add "/d" .directory 0x1ED, .write "/d/" "n" [2],
        .write "//d/." "n" [3], .write "/d" "m" [4], .remove "/./d" "m"]
    (history changes).readAttribute "/d" "n" = .ok (some [3]) ∧
      LastWritten changes "/d" "n" [3] ∧ ¬ Registered changes "/e" ∧
      (history changes).tried (.write "/e" "n" [5]) = .error ⟨"/e"⟩ ∧
      (history changes).changed (.write "/e" "n" [5]) = history changes := by
  intro changes
  have hread : (history changes).readAttribute "/d" "n" = .ok (some [3]) := by decide +kernel
  have hnever : ¬ Registered changes "/e" := by decide +kernel
  obtain ⟨-, hvalue, -⟩ := holds_last_written changes "/d" "n"
  obtain ⟨-, -, -, -, -, hrefused⟩ := holds_last_written changes "/e" "n"
  obtain ⟨-, -, hwrite, -, hkept, -⟩ := hrefused hnever [5]
  exact ⟨hread, ((hvalue [3]).1 hread).2, hnever, hwrite, hkept⟩

end Store

end AccessControl
