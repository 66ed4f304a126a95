import GuardedStore.Identity
import GuardedStore.Value.Basic

/-!
What an aspect sees of one guarded access: the item's description, the value at stake, and the
ticket of the pass through the chain. An access made outside a chain has ticket zero, which no
pass has.
-/
namespace GuardedStore

inductive Phase where
  | read
  | write
  deriving DecidableEq, Inhabited

def Phase.name : Phase → String
  | read => "read"
  | write => "write"

/-- The four moments at which an aspect is called. -/
inductive Hook where
  | beforeWrite
  | afterWrite
  | beforeRead
  | afterRead
  deriving DecidableEq

namespace Hook

def name : Hook → String
  | beforeWrite => "before_write"
  | afterWrite => "after_write"
  | beforeRead => "before_read"
  | afterRead => "after_read"

def before : Phase → Hook
  | .read => beforeRead
  | .write => beforeWrite

def after : Phase → Hook
  | .read => afterRead
  | .write => afterWrite

end Hook

/-- What is fixed about an item from its creation on. -/
structure Descriptor where
  store : StoreId
  id : ItemId
  name : String
  type : ValueType
  deriving DecidableEq, Inhabited

namespace Descriptor

def size (d : Descriptor) : Nat :=
  d.type.size

def source (d : Descriptor) : Source :=
  .item d.store d.id

/-- Whether the item holds values of type `t`. -/
def holds (d : Descriptor) (t : ValueType) : Bool :=
  d.type = t

end Descriptor

structure Access where
  descriptor : Descriptor
  value : Value
  ticket : Nat := 0
  deriving DecidableEq, Inhabited

namespace Access

/-- The value, if it is of type `t`, whatever type the item says it has. -/
def cast? (a : Access) (t : ValueType) : Option Value :=
  if a.value.type = t then some a.value else none

def inspect (a : Access) : String :=
  Text.record "Access"
    [("item", a.descriptor.id.inspect), ("name", Text.quoted a.descriptor.name),
      ("type", Text.quoted a.descriptor.type.name), ("size", toString a.descriptor.size),
      ("ticket", toString a.ticket)]

end Access

end GuardedStore
