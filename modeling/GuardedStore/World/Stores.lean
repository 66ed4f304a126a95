import GuardedStore.World.Items

/-!
Stores: building and dropping them, and what becomes of their items.

A store is subscribed, in the domain it is bound to, to its own source and to the source of every
item it owns. Binding it to another domain takes its sources out of the old one and subscribes it
in the new.
-/
namespace GuardedStore.Engine

variable (call : Nat → Engine Unit)

/-- A new store under the next identity. -/
def buildStore (config : StoreConfig) (affinity : Option Nat) : Engine (Except Fault Nat) := do
  match config.aspects.validate with
  | .error fault => return .error (.config fault)
  | .ok _ =>
    let id : StoreId := .drawn (← get).stores.next
    let store ← newStore { id, config, affinity }
    record (.bound store affinity)
    subscribe affinity (.store id) (.store store)
    notice (.storeCreated id config.name ((← get).inspectAffinity affinity))
    return .ok store

/-- Builds an item in the slot reserved for it: its first write is made when it is subscribed to and
not yet owned. The argument it is made from is converted twice, for the cell and for the write. -/
def buildIn (store : Nat) (id : ItemId) (name : String) (type : ValueType)
    (convert : Engine Value) (factory : Descriptor → Engine (List Nat)) : Engine Unit := do
  let s := (← get).store store
  let descriptor : Descriptor := { store := s.id, id, name, type }
  let chain ← factory descriptor
  let value ← convert
  let item ← newItem { descriptor, value, chain, affinity := s.affinity }
  subscribe s.affinity descriptor.source (.store store)
  let value ← convert
  write call item value
  modify (World.modifyItem item fun i => { i with state := .live })
  modify (World.modifyStore store fun s => { s with arena := s.arena.fill id item })
  notice (.itemCreated s.id id name type)
  modify (World.modifyStore store fun s => { s with names := s.names.put name id })

/-- A new item, which holds what its argument is converted to and receives one guarded write of it. -/
def createFrom (store : Nat) (name : String) (type : ValueType) (convert : Engine Value)
    (factory : Descriptor → Engine (List Nat)) : Engine (Except Fault ItemId) := do
  let s := (← get).store store
  if s.names.contains name then return .error (.duplicateName name)
  match s.arena.reserve? with
  | none => return .error (.storeFull s.id)
  | some (id, arena) =>
    modify (World.modifyStore store fun s => { s with arena })
    buildIn call store id name type convert factory
    return .ok id

/-- Builds an item from an argument that is easily converted. -/
def createIn (store : Nat) (id : ItemId) (name : String) (value : Value)
    (factory : Descriptor → Engine (List Nat)) : Engine Unit :=
  buildIn call store id name value.type (pure value) factory

def create (store : Nat) (name : String) (value : Value)
    (factory : Descriptor → Engine (List Nat)) : Engine (Except Fault ItemId) :=
  createFrom call store name value.type (pure value) factory

/-- Lets go of an item that the store no longer owns. -/
def release (store : Nat) (item : Nat) : Engine Unit := do
  let w ← get
  let s := w.store store
  let descriptor := (w.item item).descriptor
  unsubscribe s.affinity descriptor.source
  if s.names.find? descriptor.name = some descriptor.id then
    modify (World.modifyStore store fun s => { s with names := s.names.erase descriptor.name })
  modify (World.modifyItem item fun i => { i with state := .destroyed })
  notice (.itemDestroyed s.id descriptor.id descriptor.name)

def destroy (store : Nat) (key : Key) : Engine (Except Fault Unit) := do
  let s := (← get).store store
  if key.store ≠ s.id then return .error (.foreignItem key.id key.store s.id)
  match s.arena.remove? key.id with
  | none => return .error (.staleItem key.id)
  | some (item, arena) =>
    modify (World.modifyStore store fun s => { s with arena })
    release store item
    return .ok ()

/-- Drops a store and every item in it. -/
def dropStore (store : Nat) : Engine Unit := do
  let s := (← get).store store
  let (items, arena) := s.arena.drain
  modify (World.modifyStore store fun s => { s with arena })
  items.forM (release store)
  unsubscribe s.affinity s.source
  modify (World.modifyStore store fun s => { s with dropped := true })
  notice (.storeDropped s.id s.config.name items.length)

/-- Drops a store that was replaced, unless a call is still using it. -/
def dropIfIdle (store : Nat) : Engine Unit := do
  let s := (← get).store store
  if s.replaced && !s.inUse then dropStore store

/-- Gives up the name of a store, whose last use is the end of it. -/
def replace (store : Nat) : Engine Unit := do
  modify (World.modifyStore store fun s => { s with replaced := true })
  dropIfIdle store

/-- Ends one of the calls that share a store. -/
def endSharing (store : Nat) : Engine Unit := do
  modify (World.modifyStore store fun s => { s with sharers := s.sharers - 1 })
  dropIfIdle store

/-- Ends the call that a store belongs to. -/
def endOwning (store : Nat) : Engine Unit := do
  modify (World.modifyStore store fun s => { s with owned := false })
  dropIfIdle store

/-- Binds an item of the store to a domain and subscribes the store to it there. -/
def bindItem (store : Nat) (affinity : Option Nat) (item : Nat) : Engine Unit := do
  modify (World.modifyItem item fun i => { i with affinity })
  subscribe affinity ((← get).item item).source (.store store)

/-- Binds a store and all its items to a domain, or to none; nothing happens if they are bound to it
already. The binding cannot change while a trigger is being raised through it. -/
def setAffinity (store : Nat) (affinity : Option Nat) : Engine Unit := do
  let s := (← get).store store
  if 0 < s.affinityReaders then wait
  if s.affinity = affinity then return
  let items := s.arena.toList
  unsubscribe s.affinity s.source
  items.forM fun item => do unsubscribe s.affinity ((← get).item item).source
  subscribe affinity s.source (.store store)
  items.forM (bindItem store affinity)
  let w ← get
  notice (.affinityChanged s.id (w.inspectAffinity s.affinity) (w.inspectAffinity affinity)
    s.arena.size)
  modify (World.modifyStore store fun s => { s with affinity })
  record (.bound store affinity)

/-- Raises a trigger of the store itself. -/
def triggerStore (store : Nat) : Engine Bool := do
  modify (World.modifyStore store fun s =>
    { s with triggers := s.triggers + 1, affinityReaders := s.affinityReaders + 1 })
  let s := (← get).store store
  ensure (trigger call (.store store) s.affinity ⟨s.source, s.triggers⟩)
    (modify (World.modifyStore store fun s => { s with affinityReaders := s.affinityReaders - 1 }))

/-- Registers a model hook; the hooks cannot change while they are being run. -/
def onExecute (store : Nat) (hook : ModelHook) : Engine Unit := do
  if ((← get).store store).signal.running then wait
  modify (World.modifySignal store fun s => { s with hooks := s.hooks ++ [hook] })
  record (.registered store hook)

end GuardedStore.Engine
