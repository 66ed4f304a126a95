import GuardedStore.Scenario.Step
import GuardedStore.Table
import GuardedStore.World.Happening

/-!
The state of a run.

Items, aspects, routines, domains, dependents and stores live at addresses and stay there to the
end, so that what was replaced or dropped can still be spoken of by those who hold on to it. What
they are called is kept apart, in tables of names.
-/
namespace GuardedStore

/-- A script and how often it was called. -/
structure Routine where
  script : Script
  calls : Nat := 0

instance : Inhabited Routine := ⟨⟨fun _ => [], 0⟩⟩

/-- Somebody who is woken by a domain; the scripts are routines by address. -/
structure Dependent where
  name : String
  onTrigger : Option Nat := none
  onExecute : Option Nat := none
  /-- Whether somebody other than a running delivery holds on to it. -/
  owned : Bool := true
  deriving DecidableEq, Inhabited

/-- A typed handle to an item. -/
structure Key where
  store : StoreId
  id : ItemId
  type : ValueType
  deriving DecidableEq, Inhabited

namespace Key

def source (k : Key) : Source :=
  .item k.store k.id

def inspect (k : Key) : String :=
  "ItemKey<" ++ k.type.name ++ ">(" ++ k.id.text ++ ")"

end Key

/-- A key and the name of the store it was got from. -/
structure NamedKey where
  storeName : String
  key : Key
  deriving DecidableEq, Inhabited

/-- A way through a chain: the access, the aspects that admitted it, last one first, and the aspect
that refused it, if one did. -/
structure Pass where
  phase : Phase
  access : Access
  entered : List Nat
  refusedBy : Option Nat
  deriving DecidableEq, Inhabited

def Pass.permitted (p : Pass) : Bool :=
  p.refusedBy.isNone

/-- What things are called. -/
structure Names where
  domains : Table String Nat := {}
  stores : Table String Nat := {}
  /-- The identities of stores, by the last name they went by. -/
  storeIds : Table String StoreId := {}
  keys : Table String NamedKey := {}
  aspects : Table String Nat := {}
  chains : Table String (List Nat) := {}
  passages : Table String Pass := {}
  dependents : Table String Nat := {}
  flags : Table String Bool := {}

structure World where
  items : Heap Item := {}
  aspects : Heap (Aspect Nat) := {}
  routines : Heap Routine := {}
  domains : Heap Domain := {}
  dependents : Heap Dependent := {}
  stores : Heap Store := {}
  /-- How many passes have begun. One ticket is given out with each pass, so they never come near
  `2 ^ 64`, and sixty-four bits hold a ticket. -/
  tickets : Nat := 0
  /-- Who is held by a running delivery, as often as it is held. -/
  held : List Subscriber := []
  /-- How many model hooks are running within one another. -/
  modelDepth : Nat := 0
  /-- How many stores are being triggered within one another. -/
  triggerDepth : Nat := 0
  /-- A panic is on its way out. -/
  unwinding : Bool := false
  /-- Accesses are made where nobody reports anything and no script runs. -/
  muted : Bool := false
  names : Names := {}
  /-- What happened, latest first. -/
  history : List Happening := []

namespace World

def item (w : World) (r : Nat) : Item := w.items.get r

def aspect (w : World) (r : Nat) : Aspect Nat := w.aspects.get r

def domain (w : World) (r : Nat) : Domain := w.domains.get r

def dependent (w : World) (r : Nat) : Dependent := w.dependents.get r

def store (w : World) (r : Nat) : Store := w.stores.get r

def modifyItem (r : Nat) (f : Item → Item) (w : World) : World :=
  { w with items := w.items.modify r f }

def setAspect (r : Nat) (a : Aspect Nat) (w : World) : World :=
  { w with aspects := w.aspects.set r a }

def modifyDomain (r : Nat) (f : Domain → Domain) (w : World) : World :=
  { w with domains := w.domains.modify r f }

def modifyDependent (r : Nat) (f : Dependent → Dependent) (w : World) : World :=
  { w with dependents := w.dependents.modify r f }

def modifyStore (r : Nat) (f : Store → Store) (w : World) : World :=
  { w with stores := w.stores.modify r f }

def modifySignal (r : Nat) (f : Signal → Signal) (w : World) : World :=
  w.modifyStore r fun s => { s with signal := f s.signal }

/-- Unset flags are true. -/
def flag (w : World) (name : String) : Bool :=
  (w.names.flags.find? name).getD true

/-- Whether a subscriber can still be woken. -/
def alive (w : World) (s : Subscriber) : Bool :=
  w.held.contains s ||
    match s with
    | .store r => !(w.store r).dropped
    | .dependent r => (w.dependent r).owned

/-- The subscribers of a source in a domain that can still be woken, in order of subscription. -/
def liveSubscribers (w : World) (domain : Nat) (source : Source) : List Subscriber :=
  ((w.domain domain).subscribers source).filter w.alive

/-- The name of the domain behind an affinity. -/
def domainName (w : World) (affinity : Option Nat) : Option String :=
  affinity.map fun d => (w.domain d).label

def inspectAffinity (w : World) (affinity : Option Nat) : String :=
  "Affinity(" ++ ((w.domainName affinity).getD "unbound") ++ ")"

def aspectNames (w : World) (chain : List Nat) : List String :=
  chain.map fun a => (w.aspect a).name

/-- The name of the aspect that refused a pass. -/
def vetoedBy (w : World) (p : Pass) : Option String :=
  p.refusedBy.map fun a => (w.aspect a).name

def decision (w : World) (p : Pass) : Decision :=
  ⟨p.permitted, w.vetoedBy p⟩

/-- The item a key stands for, presented to a store. -/
def locate (w : World) (store : Nat) (key : Key) : Except Fault Nat :=
  let s := w.store store
  if key.store ≠ s.id then .error (.foreignItem key.id key.store s.id)
  else
    match s.arena.get? key.id with
    | some item =>
      if (w.item item).descriptor.type = key.type then .ok item else .error (.staleItem key.id)
    | none => .error (.staleItem key.id)

/-- The key of the item of the given name, if it holds a value of type `type`. -/
def find? (w : World) (store : Nat) (type : ValueType) (name : String) : Option Key := do
  let s := w.store store
  let id ← s.names.find? name
  let item ← s.arena.get? id
  guard ((w.item item).descriptor.type = type)
  return { store := s.id, id, type }

/-- The state of an item of a store; an id that finds no item is that of a destroyed one. -/
def stateOf (w : World) (store : Nat) (id : ItemId) : ItemState :=
  if (w.store store).arena.contains id then .live else .destroyed

/-- The items of a store in slot order. -/
def itemsOf (w : World) (store : Nat) : List Item :=
  (w.store store).arena.toList.map w.item

def inspectStore (w : World) (store : Nat) : String :=
  let s := w.store store
  Text.record "DataStore"
    [("id", s.id.inspect), ("name", Text.quoted s.config.name),
      ("items", toString s.arena.size), ("affinity", w.inspectAffinity s.affinity)]

def inspectItem (w : World) (item : Nat) : String :=
  let i := w.item item
  let d := i.descriptor
  Text.record "DataItem"
    [("id", d.id.inspect), ("name", Text.quoted d.name), ("type", Text.quoted d.type.name),
      ("state", i.state.text), ("writes", toString i.writes),
      ("aspects", Text.quotedList (w.aspectNames i.chain))]

end World

end GuardedStore
