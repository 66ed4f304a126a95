import GuardedStore.World.Delivery
import GuardedStore.World.Passage

/-!
Guarded accesses to items.

A write that every aspect admits is stored, raises one trigger and is then reported to the
aspects; one that is refused changes nothing. A read hands out the value that the aspects were
shown. If a write was stored while they were being asked, the read begins again with the new
value, a limited number of times. A refused read is a fault, since a live item should always be
readable.
-/
namespace GuardedStore.Engine

variable (call : Nat → Engine Unit)

/-- Puts the value of an access into an item's cell and raises the trigger for it. -/
def storeValue (item : Nat) (access : Access) : Engine Unit := do
  modify (World.modifyItem item fun i => i.store access.value)
  record (.stored item access)
  let i := (← get).item item
  notice (.writeStored i.descriptor i.writes)
  let _ ← trigger call (.item item) i.affinity ⟨i.source, i.writes⟩

def write (item : Nat) (value : Value) : Engine Unit := do
  let i := (← get).item item
  let pass ← enter call i.chain .write { descriptor := i.descriptor, value }
  ensure
    (if pass.permitted then
      storeValue call item pass.access
    else do
      let vetoedBy := (← get).vetoedBy pass
      notice (.writeVetoed i.descriptor (vetoedBy.getD ""))
      record (.concluded item pass.access .vetoed))
    (leave call pass)

/-- How many passes a read may make before it settles on an approved value. -/
def readAttempts : Nat := 8

/-- The fault of a read refused by the named aspect. -/
def refusal (d : Descriptor) (refusedBy : String) : Fault :=
  .system <| .corrupt .runtime <|
    "DataItem<" ++ d.type.name ++ ">::read of '" ++ d.name ++
      "' encountered invalid content and could not return valid data (refused by '" ++
      refusedBy ++ "')"

/-- A read that may begin again `retries` times. -/
def readWithin (item : Nat) (retries : Nat) : Engine (Except Fault Value) := do
  let i := (← get).item item
  let pass ← enter call i.chain .read { descriptor := i.descriptor, value := i.value }
  let w ← get
  match w.vetoedBy pass with
  | some refusedBy =>
    leave call pass
    notice (.readRefused i.descriptor refusedBy)
    record (.concluded item pass.access .refused)
    return .error (refusal i.descriptor refusedBy)
  | none =>
    match retries with
    | retries + 1 =>
      if (w.item item).writes ≠ i.writes then
        notice (.readSuperseded i.descriptor (readAttempts - (retries + 1)))
        record (.concluded item pass.access .superseded)
        leave call pass
        readWithin item retries
      else
        leave call pass
        record (.concluded item pass.access (.returned (readAttempts - (retries + 1))))
        return .ok i.value
    | 0 =>
      leave call pass
      record (.concluded item pass.access (.returned readAttempts))
      return .ok i.value

def read (item : Nat) : Engine (Except Fault Value) :=
  readWithin call item (readAttempts - 1)

end GuardedStore.Engine
