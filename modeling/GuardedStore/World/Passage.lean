import GuardedStore.World.Asking

/-!
Ways through a chain of aspects.

The aspects are asked in order until one refuses. When the pass is over, those that admitted it
are told so in reverse order; the one that refused, and those after it, are not. A panic while an
aspect is being asked ends the pass at once, and the decision told is then the one reached so far.
-/
namespace GuardedStore.Engine

variable (call : Nat → Engine Unit)

/-- Tells the given aspects, in the order given, that the pass is over. -/
def tellAll (p : Pass) : List Nat → Engine Unit
  | [] => pure ()
  | aspect :: aspects => do
    tell call aspect p.phase p.access p.permitted
    tellAll p aspects

/-- Ends a pass. A panic out of an aspect that is told so leaves the others untold. -/
def leave (p : Pass) : Engine Unit := do
  onUnwind (tellAll call p p.entered) (record (.left p.access false))
  record (.left p.access true)

/-- Ends a pass that a panic has cut short. -/
def abandon (p : Pass) : Engine Unit := do
  record (.abandoned p.entered p.phase p.access)
  leave call p

/-- Takes a pass on through the rest of its chain. -/
def proceed (p : Pass) : List Nat → Engine Pass
  | [] => pure p
  | aspect :: aspects => do
    if ← onUnwind (ask call aspect p.phase p.access) (abandon call p) then
      proceed { p with entered := aspect :: p.entered } aspects
    else
      return { p with refusedBy := some aspect }

/-- Begins a pass, under a ticket of its own. -/
def enter (chain : List Nat) (phase : Phase) (access : Access) : Engine Pass := do
  let ticket ← newTicket
  let access := { access with ticket }
  record (.began chain phase access)
  proceed call { phase, access, entered := [], refusedBy := none } chain

end GuardedStore.Engine
