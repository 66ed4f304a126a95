import GuardedStore.World.Stores

/-!
What the names in a step mean when the step is performed.

Performing a step ends early, with the answer to give, when it names something that is not there
or asks for a store that is in use. A store may be shared by any number of calls that only look at
who its items are, and belongs to one call alone while an item is created or destroyed in it.
-/
namespace GuardedStore

/-- A computation that may end early in the answer to give. -/
abbrev Performing := ExceptT Answer Engine

namespace Performing

variable {α : Type}

def ensure (m : Performing α) (cleanup : Engine Unit) : Performing α :=
  ExceptT.mk (Engine.ensure m.run cleanup)

def world : Performing World :=
  ExceptT.lift Engine.get

def update (f : World → World) : Performing Unit :=
  ExceptT.lift (Engine.modify f)

def rename (f : Names → Names) : Performing Unit :=
  update fun w => { w with names := f w.names }

/-- The result, or the fault as the step's answer. -/
def orFault (m : Engine (Except Fault α)) : Performing α := do
  match ← m with
  | .ok a => return a
  | .error fault => throw (.fault fault)

/-- The value, or the complaint that what was written stands for none. -/
def orUnreadable (a : Option α) : Performing α :=
  match a with
  | some a => pure a
  | none => throw .unreadable

def named (kind : Missing) (table : Names → Table String α) (name : String) : Performing α := do
  match (table (← world).names).find? name with
  | some a => return a
  | none => throw (.missing kind name)

def domainNamed : String → Performing Nat :=
  named .domain Names.domains

/-- The domain behind an affinity; no name means none. -/
def affinityNamed : Option String → Performing (Option Nat)
  | some name => some <$> domainNamed name
  | none => pure none

def storeNamed : String → Performing Nat :=
  named .store Names.stores

def keyNamed : String → Performing NamedKey :=
  named .key Names.keys

def aspectNamed : String → Performing Nat :=
  named .aspect Names.aspects

def chainNamed : String → Performing (List Nat) :=
  named .chain Names.chains

def dependentNamed : String → Performing Nat :=
  named .dependent Names.dependents

/-- An identity written in thirty-two digits, or that of the store last built under the name. -/
def storeIdNamed (name : String) : Performing StoreId :=
  match Uuid.ofDigits? name.toList with
  | some uuid => pure (.given uuid)
  | none => named .store Names.storeIds name

def sourceNamed : SourceName → Performing Source
  | .key key => do return (← keyNamed key).key.source
  | .store store => do return .store (← storeIdNamed store)
  | .item store item => do return .item (← storeIdNamed store) item

def descriptor (p : DescriptorPlan) : Performing Descriptor := do
  let store ← match p.store with
    | some store => storeIdNamed store
    | none => pure (.given .zero)
  return { store, id := p.id, name := p.name, type := p.type }

def access (p : AccessPlan) : Performing Access := do
  let descriptor ← descriptor p.descriptor
  let value ← orUnreadable (p.value.value? (p.type.getD descriptor.type))
  return { descriptor, value }

/-- Refuses a store that belongs to one call alone. -/
def checkShareable (store : Nat) : Performing Unit := do
  if ((← world).store store).owned then throw .busy

/-- Performs `m` with the store shared. -/
def sharing (store : Nat) (m : Performing α) : Performing α := do
  checkShareable store
  update (World.modifyStore store fun s => { s with sharers := s.sharers + 1 })
  ensure m (Engine.endSharing store)

/-- Refuses a store that is in use at all. -/
def checkUnused (store : Nat) : Performing Unit := do
  if ((← world).store store).inUse then throw .busy

/-- Performs `m` with the store belonging to it alone. -/
def owning (store : Nat) (m : Performing α) : Performing α := do
  checkUnused store
  update (World.modifyStore store fun s => { s with owned := true })
  ensure m (Engine.endOwning store)

/-- The store a key is presented to: the one it came from, unless another is named. -/
def presentedTo (key : NamedKey) (store : Option String) : Performing Nat :=
  storeNamed (store.getD key.storeName)

/-- Performs `m` on the item a key stands for, with its store shared. -/
def withItem (key : String) (store : Option String) (m : NamedKey → Nat → Nat → Performing α) :
    Performing α := do
  let key ← keyNamed key
  let store ← presentedTo key store
  sharing store do
    match (← world).locate store key.key with
    | .ok item => m key store item
    | .error fault => throw (.fault fault)

/-- Refuses a step where `m` says that it must not be performed. -/
def refuseWhen (step : String) (forbidden : World → Bool) : Performing Unit := do
  if forbidden (← world) then throw (.refused step)

def routine (script : Option Script) : Engine (Option Nat) := do
  match script with
  | some script => return some (← Engine.newRoutine script)
  | none => return none

def probe (p : Probe Script) : Engine (Probe Nat) := do
  let beforeWrite ← routine (p.script .beforeWrite)
  let afterWrite ← routine (p.script .afterWrite)
  let beforeRead ← routine (p.script .beforeRead)
  let afterRead ← routine (p.script .afterRead)
  let script
    | .beforeWrite => beforeWrite
    | .afterWrite => afterWrite
    | .beforeRead => beforeRead
    | .afterRead => afterRead
  return { name := p.name, quiet := p.quiet, writes := p.writes, reads := p.reads, script }

def aspect (plan : AspectPlan Script) : Engine Nat := do
  match plan with
  | .audit => Engine.newAspect (.audit {})
  | .lock patience => Engine.newAspect (.lock { patience })
  | .plain name => Engine.newAspect (.plain name)
  | .validation v => Engine.newAspect (.validation { v with rejections := 0 })
  | .probe p => Engine.newAspect (.probe (← probe p))

def link : Link Script → Performing Nat
  | .shared name => aspectNamed name
  | .fresh plan => aspect plan

def links (ls : List (Link Script)) : Performing (List Nat) :=
  ls.mapM link

/-- The aspects that a configuration asks for. -/
def configured (c : AspectConfig) : Engine (List Nat) :=
  c.aspects.mapM Engine.newAspect

/-- How a factory finds an item's chain, with all names settled. -/
def chainSource : ChainSource Script → Performing (Descriptor → List Nat)
  | .chain name => do
    let chain ← chainNamed name
    return fun _ => chain
  | .links ls => do
    let chain ← links ls
    return fun _ => chain
  | .byItem items => do
    let chains ← items.mapM fun (name, ls) => do return (name, ← links ls)
    return fun d => (chains.lookup d.name).getD []

/-- The factory that a plan describes, for items of the given store. -/
def factory (store : Nat) : FactoryPlan Script → Performing (Descriptor → Engine (List Nat))
  | .store => do
    let config := ((← world).store store).config.aspects
    return fun _ => configured config
  | .none => return fun _ => pure []
  | .config c => return fun _ => configured c
  | .custom spy panics source => do
    let chain ← chainSource source
    return fun d => do
      if spy then Engine.record (.factoryAsked d)
      if panics then Engine.panic "factory"
      return chain d

end Performing

end GuardedStore
