/-
  AccessControl/Proofs/InPlace.lean
  =================================
  **Programs that change a state in place.**

  A program of type `InPlace σ ε α` works on one state, step after step, and may
  fail at any of them.  A failure takes nothing back: what is left is the state as
  the steps before have left it.  So whether a failure leaves a state as it was is
  up to the order of the steps, and has to be proved.  What is reported on the way
  plays no part in it and is left out.

  Three shapes are told apart.  To be `reading` is to leave the state alone; to be
  `whole` is to change it in one step or not at all.  Looks before one change make
  a whole program (`reading_bind_whole`).  Any number of changes `Performs` what
  they come to if all go through, and what is left otherwise is somewhere half way.
-/
import AccessControl.Proofs.Outcome

namespace AccessControl

/-- A program on a state that it changes as it goes, also if it fails in the end. -/
abbrev InPlace (σ ε α : Type) := ExceptT ε (StateM σ) α

namespace InPlace

variable {σ ε ε' α β : Type}

/-- The answer of a program, and the state as it is left, whether it fails or not. -/
def on (x : InPlace σ ε α) (state : σ) : Except ε α × σ := x.run.run state

/-- A program by its answers and by what it leaves. -/
def of (f : σ → Except ε α × σ) : InPlace σ ε α := ExceptT.mk f

/-- A look at the state. -/
def reading (f : σ → Except ε α) : InPlace σ ε α := of fun state => (f state, state)

/-- Something that may fail and has nothing to do with the state. -/
def aside (x : Except ε α) : InPlace σ ε α := reading fun _ => x

/-- A program whose failures are told otherwise. -/
def mapError (g : ε → ε') (x : InPlace σ ε α) : InPlace σ ε' α :=
  of fun state => ((x.on state).1.mapError g, (x.on state).2)

/-- A change in one step, which is not made if it fails. -/
def whole (f : σ → Except ε σ) : InPlace σ ε Unit :=
  of fun state => match f state with
    | .ok changed => (.ok (), changed)
    | .error fault => (.error fault, state)

/-- A program without its answer. -/
def unanswered (x : InPlace σ ε α) : InPlace σ ε Unit := do
  let _ ← x
  return ()

/-- A program, or nothing where it is skipped. -/
def unlessSkipped (skip : Bool) (x : InPlace σ ε Unit) : InPlace σ ε Unit :=
  if skip then pure () else x

/-- A program does what a function says: it fails as the function does, or leaves what
    the function gives.  What it leaves when it fails is not said. -/
structure Performs (x : InPlace σ ε Unit) (f : σ → Except ε σ) : Prop where
  done : ∀ {state changed}, f state = .ok changed → x.on state = (.ok (), changed)
  failed : ∀ {state fault}, f state = .error fault → (x.on state).1 = .error fault

variable {x y : InPlace σ ε α} {state : σ}

theorem ext_on (hon : ∀ state, x.on state = y.on state) : x = y := funext hon

/-! ### One step -/

@[simp] theorem on_of (f : σ → Except ε α × σ) (state : σ) : (of f).on state = f state := rfl

@[simp] theorem on_reading (f : σ → Except ε α) (state : σ) :
    (reading f).on state = (f state, state) := rfl

@[simp] theorem on_aside (x : Except ε α) (state : σ) :
    (aside x : InPlace σ ε α).on state = (x, state) := rfl

@[simp] theorem on_pure (a : α) (state : σ) :
    (pure a : InPlace σ ε α).on state = (.ok a, state) := rfl

@[simp] theorem on_throw (fault : ε) (state : σ) :
    (throw fault : InPlace σ ε α).on state = (.error fault, state) := rfl

@[simp] theorem on_mapError (g : ε → ε') (x : InPlace σ ε α) (state : σ) :
    (x.mapError g).on state = ((x.on state).1.mapError g, (x.on state).2) := rfl

theorem on_whole_of_ok {f : σ → Except ε σ} {changed : σ} (hok : f state = .ok changed) :
    (whole f).on state = (.ok (), changed) := by
  rw [whole, on_of, hok]

theorem on_whole_of_error {f : σ → Except ε σ} {fault : ε} (herror : f state = .error fault) :
    (whole f).on state = (.error fault, state) := by
  rw [whole, on_of, herror]

theorem mapError_reading (g : ε → ε') (f : σ → Except ε α) :
    (reading f).mapError g = reading fun state => (f state).mapError g := rfl

theorem mapError_whole (g : ε → ε') (f : σ → Except ε σ) :
    (whole f).mapError g = whole fun state => (f state).mapError g := by
  apply ext_on
  intro state
  rw [on_mapError, whole, whole, on_of, on_of]
  cases f state <;> rfl

/-! ### One step after the other -/

/-- The second program starts where the first has ended.  A failure of the first is that
    of both, and what it has left is left. -/
theorem on_bind (x : InPlace σ ε α) (f : α → InPlace σ ε β) (state : σ) :
    (x >>= f).on state = match x.on state with
      | (.ok a, left) => (f a).on left
      | (.error fault, left) => (.error fault, left) := by
  unfold on ExceptT.run StateT.run
  simp only [bind, ExceptT.bind, ExceptT.mk, StateT.bind, ExceptT.bindCont]
  rcases x state with ⟨answer, left⟩
  cases answer <;> rfl

theorem on_bind_of_ok {f : α → InPlace σ ε β} {a : α} {left : σ}
    (hx : x.on state = (.ok a, left)) : (x >>= f).on state = (f a).on left := by
  rw [on_bind, hx]

theorem on_bind_of_error {f : α → InPlace σ ε β} {fault : ε} {left : σ}
    (hx : x.on state = (.error fault, left)) : (x >>= f).on state = (.error fault, left) := by
  rw [on_bind, hx]

theorem reading_bind_reading (f : σ → Except ε α) (g : α → σ → Except ε β) :
    (reading f >>= fun a => reading (g a)) = reading fun state => f state >>= fun a => g a state := by
  apply ext_on
  intro state
  rw [on_bind, on_reading, on_reading]
  cases f state <;> rfl

/-- A look before a change is part of it: if it fails, nothing has been changed. -/
theorem reading_bind_whole (f : σ → Except ε α) (g : α → σ → Except ε σ) :
    (reading f >>= fun a => whole (g a)) = whole fun state => f state >>= fun a => g a state := by
  apply ext_on
  intro state
  rw [on_bind, on_reading, whole, on_of]
  cases f state <;> rfl

/-! ### Whole programs -/

section

variable {f : σ → Except ε σ} {changed : σ} {fault : ε}

theorem on_whole_eq_ok_iff : (whole f).on state = (.ok (), changed) ↔ f state = .ok changed := by
  cases hresult : f state with
  | ok other => simp [on_whole_of_ok hresult]
  | error fault => simp [on_whole_of_error hresult]

theorem fst_on_whole_eq_error_iff :
    ((whole f).on state).1 = .error fault ↔ f state = .error fault := by
  cases hresult : f state with
  | ok other => simp [on_whole_of_ok hresult]
  | error earlier => simp [on_whole_of_error hresult]

/-- What holds of a state and of all that it is changed to holds of what is left. -/
theorem left_of_whole {P : σ → Prop} (hstate : P state)
    (hchanged : ∀ changed, f state = .ok changed → P changed) : P ((whole f).on state).2 := by
  cases hresult : f state with
  | ok changed =>
    rw [on_whole_of_ok hresult]
    exact hchanged changed hresult
  | error fault =>
    rw [on_whole_of_error hresult]
    exact hstate

end

/-! ### Programs of several changes -/

section

variable {p q : InPlace σ ε Unit} {f g : σ → Except ε σ}

theorem performs_whole (f : σ → Except ε σ) : (whole f).Performs f where
  done hok := on_whole_of_ok hok
  failed herror := by rw [on_whole_of_error herror]

theorem performs_pure : (pure () : InPlace σ ε Unit).Performs .ok where
  done := by
    rintro state _ ⟨⟩
    rfl
  failed := nofun

theorem Performs.bind (hp : p.Performs f) (hq : q.Performs g) :
    (do p; q).Performs fun state => f state >>= g where
  done hok := by
    obtain ⟨between, hfirst, hsecond⟩ := bind_eq_ok_iff.1 hok
    rw [on_bind_of_ok (hp.done hfirst)]
    exact hq.done hsecond
  failed := by
    intro state fault herror
    cases hfirst : f state with
    | ok between =>
      rw [hfirst, ok_bind] at herror
      rw [on_bind_of_ok (hp.done hfirst)]
      exact hq.failed herror
    | error earlier =>
      rw [hfirst, error_bind] at herror
      cases herror
      have hanswer := hp.failed hfirst
      rw [on_bind]
      generalize p.on state = answered at hanswer
      obtain ⟨answer, left⟩ := answered
      cases hanswer
      rfl

theorem Performs.aside {r : Except ε α} {x : α → InPlace σ ε Unit} {f : α → σ → Except ε σ}
    (hx : ∀ a, r = .ok a → (x a).Performs (f a)) :
    (InPlace.aside r >>= x).Performs fun state => r >>= fun a => f a state := by
  cases r with
  | ok a => exact ⟨fun hok => (hx a rfl).done hok, fun herror => (hx a rfl).failed herror⟩
  | error fault =>
    refine ⟨nofun, fun herror => ?_⟩
    cases herror
    rfl

theorem Performs.unlessSkipped (hp : p.Performs f) (skip : Bool) :
    (p.unlessSkipped skip).Performs fun state => if skip then .ok state else f state := by
  cases skip with
  | true => exact performs_pure
  | false => exact hp

theorem Performs.congr (hp : p.Performs f) (hfg : ∀ state, f state = g state) : p.Performs g :=
  (funext hfg : f = g) ▸ hp

end

end InPlace

end AccessControl
