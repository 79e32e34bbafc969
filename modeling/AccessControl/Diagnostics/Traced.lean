/-
  AccessControl/Diagnostics/Traced.lean
  =====================================
  **Values with the events that were reported on the way to them.**

  A `Traced α` is a value and the events reported while it was computed, in
  order.  An `Attempt ε α` may fail as well, and a failure keeps the events that
  came before it.  The two projections `Attempt.result` and `Attempt.events`
  say all there is to say about an attempt, and the lemmas below push them
  through sequencing, so that a statement about results never has to mention
  events and the other way round.
-/
import AccessControl.Diagnostics.Event

namespace AccessControl

/-- A value and the events reported on the way to it. -/
structure Traced (α : Type) where
  value : α
  events : List Event

namespace Traced

variable {α β : Type}

instance : Monad Traced where
  pure a := ⟨a, []⟩
  bind x f :=
    let y := f x.value
    ⟨y.value, x.events ++ y.events⟩

/-- Report one event. -/
def emit (event : Event) : Traced Unit := ⟨(), [event]⟩

@[simp] theorem value_pure (a : α) : (pure a : Traced α).value = a := rfl

@[simp] theorem events_pure (a : α) : (pure a : Traced α).events = [] := rfl

@[simp] theorem value_bind (x : Traced α) (f : α → Traced β) :
    (x >>= f).value = (f x.value).value := rfl

@[simp] theorem events_bind (x : Traced α) (f : α → Traced β) :
    (x >>= f).events = x.events ++ (f x.value).events := rfl

@[simp] theorem value_emit (event : Event) : (emit event).value = () := rfl

@[simp] theorem events_emit (event : Event) : (emit event).events = [event] := rfl

/-- Traced values are equal when value and events are. -/
theorem ext_parts {x y : Traced α} (value : x.value = y.value) (events : x.events = y.events) :
    x = y := by
  cases x; cases y; simp_all

instance : LawfulMonad Traced :=
  LawfulMonad.mk' Traced
    (fun x => ext_parts rfl (List.append_nil x.events))
    (fun _ _ => rfl)
    (fun x _ _ => ext_parts rfl (List.append_assoc x.events _ _))

end Traced

/-- A computation that reports events and may fail. -/
abbrev Attempt (ε α : Type) := ExceptT ε Traced α

namespace Attempt

variable {ε α β : Type}

/-- What an attempt comes to, its events aside. -/
def result (x : Attempt ε α) : Except ε α := x.run.value

/-- The events of an attempt, whether it fails or not. -/
def events (x : Attempt ε α) : List Event := x.run.events

/-- An attempt that reports nothing. -/
def silent (x : Except ε α) : Attempt ε α := ExceptT.mk (pure x)

/-- An attempt whose failures are told otherwise. -/
def mapError {ε' : Type} (f : ε → ε') (x : Attempt ε α) : Attempt ε' α :=
  ExceptT.mk ⟨x.result.mapError f, x.events⟩

@[simp] theorem result_pure (a : α) : (pure a : Attempt ε α).result = .ok a := rfl

@[simp] theorem events_pure (a : α) : (pure a : Attempt ε α).events = [] := rfl

@[simp] theorem result_throw (e : ε) : (throw e : Attempt ε α).result = .error e := rfl

@[simp] theorem events_throw (e : ε) : (throw e : Attempt ε α).events = [] := rfl

@[simp] theorem result_silent (x : Except ε α) : (silent x).result = x := rfl

@[simp] theorem events_silent (x : Except ε α) : (silent x).events = [] := rfl

@[simp] theorem silent_ok_bind (a : α) (f : α → Attempt ε β) :
    (silent (.ok a : Except ε α) >>= f) = f a := rfl

@[simp] theorem result_mapError {ε' : Type} (f : ε → ε') (x : Attempt ε α) :
    (x.mapError f).result = x.result.mapError f := rfl

@[simp] theorem events_mapError {ε' : Type} (f : ε → ε') (x : Attempt ε α) :
    (x.mapError f).events = x.events := rfl

@[simp] theorem result_lift (x : Traced α) : (liftM x : Attempt ε α).result = .ok x.value := rfl

@[simp] theorem events_lift (x : Traced α) : (liftM x : Attempt ε α).events = x.events := by
  show x.events ++ [] = x.events
  exact List.append_nil x.events

@[simp] theorem result_bind (x : Attempt ε α) (f : α → Attempt ε β) :
    (x >>= f).result = x.result >>= fun a => (f a).result := by
  show Traced.value (x.run >>= _) = _
  rw [Traced.value_bind]
  unfold result ExceptT.run
  cases Traced.value x with
  | ok a => rfl
  | error e => rfl

/-- The events of a sequence: those of its first part, then, if that succeeds,
    those of the second. -/
theorem events_bind (x : Attempt ε α) (f : α → Attempt ε β) :
    (x >>= f).events = x.events ++ match x.result with
      | .ok a => (f a).events
      | .error _ => [] := by
  show Traced.events (x.run >>= _) = _
  rw [Traced.events_bind]
  unfold result events ExceptT.run
  cases Traced.value x with
  | ok a => rfl
  | error e => rfl

end Attempt

end AccessControl
