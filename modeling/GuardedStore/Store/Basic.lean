import GuardedStore.Config.Basic
import GuardedStore.Store.Arena
import GuardedStore.Store.Item
import GuardedStore.Table

/-!
A store of items: who its items are and what they are called, where its triggers go, and the
signal by which it is itself woken.
-/
namespace GuardedStore

/-- Logic to run when a store executes; `script` is a routine by address. -/
structure ModelHook where
  label : String
  script : Option Nat := none
  deriving DecidableEq, Inhabited

/-- How often a store was notified since it last executed, and how often it executed. Both counts go
up by one at a time and so never come near `2 ^ 64`: counters of sixty-four bits hold them. -/
structure Signal where
  triggered : Bool := false
  pending : Nat := 0
  executions : Nat := 0
  hooks : List ModelHook := []
  /-- The hooks are being run, and their list is closed meanwhile. -/
  running : Bool := false
  deriving DecidableEq, Inhabited

def Signal.notify (s : Signal) : Signal :=
  { s with triggered := true, pending := s.pending + 1 }

structure Store where
  id : StoreId
  config : StoreConfig
  arena : Arena Nat := {}
  names : Table String ItemId := {}
  /-- The domain that triggers go to, by address. -/
  affinity : Option Nat := none
  /-- How many calls are raising a trigger through the affinity, which must not change meanwhile. -/
  affinityReaders : Nat := 0
  /-- How often the store itself was triggered; it never comes near `2 ^ 64` either. -/
  triggers : Nat := 0
  signal : Signal := {}
  dropped : Bool := false
  /-- How many calls are using the store without changing who its items are. -/
  sharers : Nat := 0
  /-- One call is creating or destroying an item. -/
  owned : Bool := false
  /-- Another store took its name, and it is to be dropped as soon as it is out of use. -/
  replaced : Bool := false
  deriving Inhabited

namespace Store

def source (s : Store) : Source :=
  .store s.id

def inUse (s : Store) : Bool :=
  s.owned || 0 < s.sharers

end Store

end GuardedStore
