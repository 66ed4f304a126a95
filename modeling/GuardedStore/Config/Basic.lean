import GuardedStore.Fault

/-!
The configuration of a store: its name and which protections its items get by default.

Every protection is on by default. A configuration is valid unless it asks for locking with no time
to wait for a lock, since then every contended access would be refused at once.
-/
namespace GuardedStore

structure AspectConfig where
  /-- Reads and writes of one item exclude each other. -/
  locking : Bool := true
  /-- How many milliseconds an access waits for the lock. -/
  lockTimeout : UInt64 := 100
  /-- Accesses are counted and reported. -/
  audit : Bool := true
  deriving DecidableEq, Inhabited

namespace AspectConfig

/-- No protection at all. -/
def none : AspectConfig :=
  { locking := false, audit := false }

def lockTimeoutNanoseconds (c : AspectConfig) : Nat :=
  c.lockTimeout.toNat * 1000000

def Valid (c : AspectConfig) : Prop :=
  c.locking = true → c.lockTimeout ≠ 0

instance (c : AspectConfig) : Decidable c.Valid := by
  unfold Valid; infer_instance

def validate (c : AspectConfig) : Except ConfigFault Unit :=
  if c.Valid then .ok ()
  else .error (.invalid "lock_timeout_ms must be greater than zero when locking is enabled")

end AspectConfig

structure StoreConfig where
  name : String := "data-store"
  aspects : AspectConfig := {}
  deriving DecidableEq, Inhabited

end GuardedStore
