/-
  AccessControl/Proofs/AccessList/InPlace.lean
  ============================================
  **Inheriting and extending by way of a copy.**

  What a list inherits, and what a mode adds to it, comes one entry after the other,
  and each entry may be refused.  To enter them into the list itself would leave it
  somewhere half way.  So the work is done on a copy: a `Draft` holds a list and the
  copy of it, everything that can fail is done to the copy (`Draft.onCopy`), and in a
  last step, which cannot fail, the copy takes the place of the list (`Draft.commit`).

  Hence the list is untouched whenever the work on the copy fails, whatever has been
  entered there by then (`Draft.on_staged_of_error`), and a program that works on a
  copy is whole though the work is not (`drafting_eq_whole`).
-/
import AccessControl.Proofs.AccessList.Mode
import AccessControl.Proofs.InPlace

namespace AccessControl

/-- A list, and the copy of it that is worked on. -/
structure Draft where
  list : AccessList
  copy : AccessList

namespace Draft

variable {ε : Type} {x : InPlace AccessList ε Unit} {f : AccessList → Except ε AccessList}
  {list copy : AccessList} {fault : ε}

/-- Work on the copy, with the list out of reach. -/
def onCopy (x : InPlace AccessList ε Unit) : InPlace Draft ε Unit :=
  .of fun draft => ((x.on draft.copy).1, { draft with copy := (x.on draft.copy).2 })

/-- The copy takes the place of the list. -/
def commit : InPlace Draft ε Unit := .of fun draft => (.ok (), { draft with list := draft.copy })

/-- Work on the copy, to be kept if all of it goes through. -/
def staged (x : InPlace AccessList ε Unit) : InPlace Draft ε Unit := do
  onCopy x
  commit

/-- A list takes what a draft of it holds for it in the end. -/
def drafting (x : InPlace Draft ε Unit) : InPlace AccessList ε Unit :=
  .of fun list => ((x.on ⟨list, list⟩).1, (x.on ⟨list, list⟩).2.list)

theorem on_staged_of_ok (hx : x.on list = (.ok (), copy)) :
    (staged x).on ⟨list, list⟩ = (.ok (), ⟨copy, copy⟩) := by
  rw [staged, InPlace.on_bind, onCopy, InPlace.on_of, hx]
  rfl

/-- What fails has been done to the copy alone. -/
theorem on_staged_of_error (hx : x.on list = (.error fault, copy)) :
    (staged x).on ⟨list, list⟩ = (.error fault, ⟨list, copy⟩) := by
  rw [staged, InPlace.on_bind, onCopy, InPlace.on_of, hx]

theorem drafting_eq_whole (hx : x.Performs f) : drafting (staged x) = .whole f := by
  apply InPlace.ext_on
  intro list
  rw [drafting, InPlace.on_of]
  cases hresult : f list with
  | ok changed => rw [InPlace.on_whole_of_ok hresult, on_staged_of_ok (hx.done hresult)]
  | error fault =>
    have hfailed : x.on list = (.error fault, (x.on list).2) := Prod.ext (hx.failed hresult) rfl
    rw [InPlace.on_whole_of_error hresult, on_staged_of_error hfailed]

end Draft

namespace AccessList

variable {kind : ObjectKind}

/-! ### One entry after the other -/

def pushInPlace (e : Entry) : InPlace AccessList Fault Unit :=
  .whole fun list => (list.push e).result

/-- What passes on from the entries of a parent is pushed, each as it is reached. -/
def arriveInPlace (kind : ObjectKind) : List Entry → InPlace AccessList Fault Unit
  | [] => return ()
  | e :: es =>
    match e.passedOn kind with
    | .error _ => arriveInPlace kind es
    | .ok flags => do
      let arrived ← .aside (Entry.build kind e.type flags e.mask e.principal)
      pushInPlace arrived
      arriveInPlace kind es

def pushClassInPlace (kind : ObjectKind) (type : EntryType) (mask : Rights)
    (principal : Principal) : InPlace AccessList Fault Unit := do
  let flags := if principal = .group then EntryFlags.identifierGroup else Flags.none
  let e ← .aside (Entry.build kind type flags mask principal)
  pushInPlace e

def pushNonemptyInPlace (kind : ObjectKind) (type : EntryType) (mask : Rights)
    (principal : Principal) : InPlace AccessList Fault Unit :=
  if mask.isEmpty then return () else pushClassInPlace kind type mask principal

def pushDeniedInPlace (kind : ObjectKind) (mode : Mode) : InPlace AccessList Fault Unit := do
  pushNonemptyInPlace kind .allow mode.ownerFirst .owner
  pushNonemptyInPlace kind .deny mode.ownerDenied .owner
  pushNonemptyInPlace kind .deny mode.groupDenied .group

def pushAllowedInPlace (kind : ObjectKind) (mode : Mode) : InPlace AccessList Fault Unit := do
  pushClassInPlace kind .allow (mode.allowed .owner) .owner
  pushClassInPlace kind .allow (mode.allowed .group) .group
  pushClassInPlace kind .allow (mode.allowed .other) .everyone

/-! ### By way of a copy -/

/-- A draft of a child takes what the child inherits. -/
def inheritDraft (parent : AccessList) (kind : ObjectKind) : InPlace Draft Fault Unit :=
  Draft.staged (arriveInPlace kind parent.entries)

/-- `inherit` in place. -/
def inheritInPlace (parent : AccessList) (kind : ObjectKind) : InPlace AccessList Fault Unit :=
  Draft.drafting (inheritDraft parent kind)

/-- What there is of a parent is inherited. -/
def inheritFromInPlace (kind : ObjectKind) : Option AccessList → InPlace AccessList Fault Unit
  | some parent => inheritInPlace parent kind
  | none => return ()

/-- What is done to the copy of a list that is extended.  Inheriting makes a copy of
    the copy. -/
def extendCopy (parent : Option AccessList) (mode : Mode) (skipMode : Bool) (kind : ObjectKind) :
    InPlace AccessList Fault Unit := do
  (pushDeniedInPlace kind mode).unlessSkipped skipMode
  inheritFromInPlace kind parent
  (pushAllowedInPlace kind mode).unlessSkipped skipMode

def extendDraft (parent : Option AccessList) (mode : Mode) (skipMode : Bool) (kind : ObjectKind) :
    InPlace Draft Fault Unit :=
  Draft.staged (extendCopy parent mode skipMode kind)

/-- `extend` in place.  Before there is a copy, it is seen whether there is anything to
    extend the list with. -/
def extendInPlace (parent : Option AccessList) (mode : Mode) (skipMode : Bool)
    (kind : ObjectKind) : InPlace AccessList Fault Unit :=
  if parent.isNone && skipMode then throw .nothingToInherit
  else Draft.drafting (extendDraft parent mode skipMode kind)

/-! ### What the programs come to -/

theorem performs_arrive (kind : ObjectKind) (index : Nat) (es : List Entry) :
    (arriveInPlace kind es).Performs fun child => (child.inheritEntries kind index es).result := by
  induction es generalizing index with
  | nil => exact InPlace.performs_pure
  | cons e es ih =>
    rw [arriveInPlace]
    cases hpassed : e.passedOn kind with
    | error skip =>
      apply (ih (index + 1)).congr
      intro child
      simp [inheritEntries, hpassed]
    | ok flags =>
      have hpush : ∀ arrived, (do pushInPlace arrived; arriveInPlace kind es).Performs
          fun child => (child.push arrived).result >>= fun longer =>
            (longer.inheritEntries kind (index + 1) es).result :=
        fun arrived => (InPlace.performs_whole _).bind (ih (index + 1))
      apply (InPlace.Performs.aside fun arrived _ => hpush arrived).congr
      intro child
      simp [inheritEntries, hpassed]

theorem arriveInPlace_append (kind : ObjectKind) (es fs : List Entry) :
    arriveInPlace kind (es ++ fs) =
      (arriveInPlace kind es >>= fun _ => arriveInPlace kind fs) := by
  induction es with
  | nil => rfl
  | cons e es ih =>
    rw [List.cons_append, arriveInPlace, arriveInPlace]
    cases e.passedOn kind with
    | error skip => exact ih
    | ok flags => simp only [ih, bind_assoc]

/-- An entry that does not fit stops the work, and what has arrived before it stays. -/
theorem on_arrive_of_misfit {before after : List Entry} {e arrived : Entry}
    {child copy : AccessList} (hbefore : (child.inheritEntries kind 0 before).result = .ok copy)
    (harrival : e.arrival? kind = some arrived) (hmisfit : arrived.fits copy.kind = false) :
    (arriveInPlace kind (before ++ e :: after)).on child = (.error (misfit arrived), copy) := by
  obtain ⟨flags, hpassed, hbuild⟩ := Entry.arrival?_eq_some_iff.1 harrival
  have hpush : (pushInPlace arrived).on copy = (.error (misfit arrived), copy) :=
    InPlace.on_whole_of_error (push_misfit hmisfit)
  rw [arriveInPlace_append, InPlace.on_bind_of_ok ((performs_arrive kind 0 before).done hbefore),
    arriveInPlace]
  simp only [hpassed, hbuild]
  exact (InPlace.on_bind_of_ok (InPlace.on_aside _ _)).trans (InPlace.on_bind_of_error hpush)

theorem inheritInPlace_eq (parent : AccessList) (kind : ObjectKind) :
    inheritInPlace parent kind = .whole fun child => (inherit parent child kind).result :=
  Draft.drafting_eq_whole (performs_arrive kind 0 parent.entries)

theorem performs_pushClass (kind : ObjectKind) (type : EntryType) (mask : Rights)
    (principal : Principal) : (pushClassInPlace kind type mask principal).Performs fun list =>
      (list.pushClass kind type mask principal).result := by
  apply (InPlace.Performs.aside fun e _ => InPlace.performs_whole _).congr
  intro list
  simp [pushClass]

theorem performs_pushNonempty (kind : ObjectKind) (type : EntryType) (mask : Rights)
    (principal : Principal) : (pushNonemptyInPlace kind type mask principal).Performs fun list =>
      (list.pushNonempty kind type mask principal).result := by
  unfold pushNonemptyInPlace pushNonempty
  split
  · exact InPlace.performs_pure
  · exact performs_pushClass kind type mask principal

theorem performs_pushDenied (kind : ObjectKind) (mode : Mode) :
    (pushDeniedInPlace kind mode).Performs fun list => (list.pushDenied kind mode).result := by
  apply ((performs_pushNonempty kind .allow mode.ownerFirst .owner).bind
    ((performs_pushNonempty kind .deny mode.ownerDenied .owner).bind
      (performs_pushNonempty kind .deny mode.groupDenied .group))).congr
  intro list
  simp [pushDenied]

theorem performs_pushAllowed (kind : ObjectKind) (mode : Mode) :
    (pushAllowedInPlace kind mode).Performs fun list => (list.pushAllowed kind mode).result := by
  apply ((performs_pushClass kind .allow (mode.allowed .owner) .owner).bind
    ((performs_pushClass kind .allow (mode.allowed .group) .group).bind
      (performs_pushClass kind .allow (mode.allowed .other) .everyone))).congr
  intro list
  simp [pushAllowed]

theorem performs_inheritFrom (kind : ObjectKind) (parent : Option AccessList) :
    (inheritFromInPlace kind parent).Performs fun list => match parent with
      | some parent => (inherit parent list kind).result
      | none => .ok list := by
  cases parent with
  | none => exact InPlace.performs_pure
  | some parent =>
    rw [inheritFromInPlace, inheritInPlace_eq]
    exact InPlace.performs_whole _

theorem performs_extendCopy (parent : Option AccessList) (mode : Mode) (skipMode : Bool)
    (kind : ObjectKind) (hsource : (parent.isNone && skipMode) = false) :
    (extendCopy parent mode skipMode kind).Performs fun list =>
      (list.extend parent mode skipMode kind).result := by
  apply (((performs_pushDenied kind mode).unlessSkipped skipMode).bind
    ((performs_inheritFrom kind parent).bind
      ((performs_pushAllowed kind mode).unlessSkipped skipMode))).congr
  intro list
  simp only [extend, hsource, Bool.false_eq_true, if_false]
  cases skipMode <;> cases parent <;>
    simp only [Bool.false_eq_true, if_false, if_true, Attempt.result_bind, Attempt.result_pure,
      Attempt.result_lift, ok_bind, bind_ok]

theorem extendInPlace_eq (parent : Option AccessList) (mode : Mode) (skipMode : Bool)
    (kind : ObjectKind) : extendInPlace parent mode skipMode kind =
      .whole fun list => (list.extend parent mode skipMode kind).result := by
  rw [extendInPlace]
  cases hsource : parent.isNone && skipMode with
  | true =>
    apply InPlace.ext_on
    intro list
    rw [InPlace.on_whole_of_error]
    · rfl
    · simp [extend, hsource]
  | false =>
    exact Draft.drafting_eq_whole (performs_extendCopy parent mode skipMode kind hsource)

end AccessList

end AccessControl
