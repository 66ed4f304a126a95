import GuardedStore.Guard.Access
import GuardedStore.Guard.Patience

/-!
A lock that at most one access holds.

The holder is known by the ticket of its pass. A held lock refuses an access once the access has
waited as long as the lock's patience allows; a lock of unlimited patience keeps it waiting. Only
the holder's ticket gives the lock back.
-/
namespace GuardedStore

structure Lock where
  patience : Patience
  holder : Option Nat := none
  /-- How many accesses were refused. The count goes up by one with each of them and so never comes
  near `2 ^ 64`: a counter of sixty-four bits holds it. -/
  timeouts : Nat := 0
  deriving DecidableEq, Inhabited

namespace Lock

/-- What comes of trying to take a lock that nobody gives back meanwhile. -/
inductive Attempt where
  | taken (lock : Lock)
  | refused (lock : Lock)
  | waiting
  deriving DecidableEq

def acquire (l : Lock) (ticket : Nat) : Attempt :=
  match l.holder with
  | none => .taken { l with holder := some ticket }
  | some _ =>
    match l.patience with
    | .milliseconds _ => .refused { l with timeouts := l.timeouts + 1 }
    | .unlimited => .waiting

/-- The lock given back, or `none` when the ticket is not the holder's. -/
def release? (l : Lock) (ticket : Nat) : Option Lock :=
  if l.holder = some ticket then some { l with holder := none } else none

def isLocked (l : Lock) : Bool :=
  l.holder.isSome

def inspect (l : Lock) : String :=
  Text.record "LockAspect"
    [("locked", toString l.isLocked), ("timeout", l.patience.inspect),
      ("timeouts", toString l.timeouts)]

end Lock

end GuardedStore
