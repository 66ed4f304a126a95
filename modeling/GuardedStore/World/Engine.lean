import GuardedStore.World.Basic

/-!
Computations on the state of a run.

A computation ends with a result, in a panic, or stuck, waiting for what nobody but itself could
give; in each case there is a state it ends in. `ensure` and `onUnwind` run a clean-up also when a
panic passes through, and the panic goes on afterwards.
-/
namespace GuardedStore

inductive Outcome (α : Type) where
  | done (a : α)
  | panicked (text : String)
  | stuck
  deriving DecidableEq

def Engine (α : Type) : Type :=
  World → Outcome α × World

namespace Engine

variable {α β : Type}

protected def pure (a : α) : Engine α := fun w => (.done a, w)

protected def bind (m : Engine α) (f : α → Engine β) : Engine β := fun w =>
  match m w with
  | (.done a, w) => f a w
  | (.panicked text, w) => (.panicked text, w)
  | (.stuck, w) => (.stuck, w)

instance : Monad Engine where
  pure := Engine.pure
  bind := Engine.bind

@[simp] theorem pure_apply (a : α) (w : World) : (pure a : Engine α) w = (.done a, w) := rfl

theorem bind_apply (m : Engine α) (f : α → Engine β) (w : World) :
    (m >>= f) w = match m w with
      | (.done a, w) => f a w
      | (.panicked text, w) => (.panicked text, w)
      | (.stuck, w) => (.stuck, w) := rfl

instance : LawfulMonad Engine :=
  LawfulMonad.mk' Engine
    (by
      intro α m
      funext w
      show Engine.bind m _ w = m w
      rcases h : m w with ⟨_ | _ | _, w'⟩ <;> simp [Engine.bind, h, Engine.pure])
    (fun _ _ => rfl)
    (by
      intro α β γ m f g
      funext w
      show Engine.bind (Engine.bind m f) g w = Engine.bind m (fun a => Engine.bind (f a) g) w
      rcases h : m w with ⟨_ | _ | _, w'⟩ <;> simp [Engine.bind, h])

def get : Engine World := fun w => (.done w, w)

def modify (f : World → World) : Engine Unit := fun w => (.done (), f w)

/-- Waits for ever. -/
def wait : Engine α := fun w => (.stuck, w)

/-- Starts a panic, unless one is already on its way out. -/
def panic (text : String) : Engine Unit := fun w =>
  if w.unwinding then (.done (), w)
  else (.panicked text, { w with unwinding := true, history := .raised text :: w.history })

/-- Runs `cleanup` after `m`, also when a panic leaves `m`. -/
def ensure (m : Engine α) (cleanup : Engine Unit) : Engine α := fun w =>
  match m w with
  | (.done a, w) => Engine.bind cleanup (fun _ => Engine.pure a) w
  | (.panicked text, w) =>
    match cleanup w with
    | (.stuck, w) => (.stuck, w)
    | (_, w) => (.panicked text, w)
  | (.stuck, w) => (.stuck, w)

/-- Runs `cleanup` only when a panic leaves `m`. -/
def onUnwind (m : Engine α) (cleanup : Engine Unit) : Engine α := fun w =>
  match m w with
  | (.panicked text, w) =>
    match cleanup w with
    | (.stuck, w) => (.stuck, w)
    | (_, w) => (.panicked text, w)
  | r => r

/-- Adds to the history. -/
def record (h : Happening) : Engine Unit :=
  modify fun w => { w with history := h :: w.history }

/-- Adds what somebody reports to the history, unless reports are muted. -/
def report (h : Happening) : Engine Unit := fun w =>
  if w.muted then (.done (), w) else record h w

def notice (n : Notice) : Engine Unit :=
  record (.notice n)

def newItem (i : Item) : Engine Nat := fun w =>
  (.done w.items.next,
    { w with items := w.items.push i, history := .made w.items.next i :: w.history })

def newAspect (a : Aspect Nat) : Engine Nat := fun w =>
  (.done w.aspects.next, { w with aspects := w.aspects.push a })

def newRoutine (script : Script) : Engine Nat := fun w =>
  (.done w.routines.next, { w with routines := w.routines.push ⟨script, 0⟩ })

def newDomain (d : Domain) : Engine Nat := fun w =>
  (.done w.domains.next, { w with domains := w.domains.push d })

def newDependent (d : Dependent) : Engine Nat := fun w =>
  (.done w.dependents.next, { w with dependents := w.dependents.push d })

def newStore (s : Store) : Engine Nat := fun w =>
  (.done w.stores.next, { w with stores := w.stores.push s })

/-- The next ticket; the first is one. -/
def newTicket : Engine Nat := fun w =>
  (.done (w.tickets + 1), { w with tickets := w.tickets + 1 })

/-- One more call of a routine, and the steps it asks for. -/
def callRoutine (r : Nat) : Engine (List Step) := fun w =>
  let routine := w.routines.get r
  (.done (routine.script routine.calls),
    { w with routines := w.routines.set r { routine with calls := routine.calls + 1 } })

end Engine

end GuardedStore
