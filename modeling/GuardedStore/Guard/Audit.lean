import GuardedStore.Guard.Access

/-!
Counts of finished accesses by phase and outcome.

A count goes up by one with an access, so none of them ever comes near `2 ^ 64`: counters of
sixty-four bits hold them.
-/
namespace GuardedStore

structure Audit where
  writes : Nat := 0
  vetoedWrites : Nat := 0
  reads : Nat := 0
  refusedReads : Nat := 0
  deriving DecidableEq, Inhabited

namespace Audit

def count (a : Audit) : Phase → (permitted : Bool) → Audit
  | .write, true => { a with writes := a.writes + 1 }
  | .write, false => { a with vetoedWrites := a.vetoedWrites + 1 }
  | .read, true => { a with reads := a.reads + 1 }
  | .read, false => { a with refusedReads := a.refusedReads + 1 }

def inspect (a : Audit) : String :=
  Text.record "AuditAspect"
    [("writes", toString a.writes), ("vetoed_writes", toString a.vetoedWrites),
      ("reads", toString a.reads), ("refused_reads", toString a.refusedReads)]

end Audit

end GuardedStore
