import GuardedStore.Config.Document
import GuardedStore.Scenario.Naming

/-!
Steps about stores and the items in them.
-/
namespace GuardedStore.Performing

variable (call : Nat → Engine Unit)

/-- The settings of a store under construction. -/
structure Settings where
  config : StoreConfig := {}
  affinity : Option Nat := none

def applyCall (s : Settings) : BuilderCall → Performing Settings
  | .name name => pure { s with config := { s.config with name } }
  | .aspects aspects => pure { s with config := { s.config with aspects } }
  | .config config => pure { s with config }
  | .affinity domain => do return { s with affinity := ← affinityNamed domain }
  | .file path content =>
    match StoreConfig.load path content with
    | .ok config => pure { s with config }
    | .error fault => throw (.fault (.config fault))

def settings : StorePlan → Performing Settings
  | .standard => pure {}
  | .config config => pure { config }
  | .builder calls => calls.foldlM applyCall {}

def newStore (name : String) (plan : StorePlan) : Performing Answer := do
  let s ← settings plan
  let store ← orFault (Engine.buildStore s.config s.affinity)
  let w ← world
  let old := w.names.stores.find? name
  let id := (w.store store).id
  rename fun n =>
    { n with stores := n.stores.put name store, storeIds := n.storeIds.put name id }
  old.forM fun old => (Engine.replace old : Performing Unit)
  return .ok

def dropStore (name : String) : Performing Answer := do
  let store ← storeNamed name
  checkUnused store
  rename fun n => { n with stores := n.stores.erase name }
  Engine.dropStore store
  return .ok

def storeInfo (name : String) : Performing Answer := do
  let store ← storeNamed name
  checkShareable store
  let w ← world
  let s := w.store store
  let items := w.itemsOf store
  return .store
    { id := s.id
      config := s.config
      size := s.arena.size
      ids := items.map (·.descriptor.id)
      names := items.map (·.descriptor.name)
      domain := w.domainName s.affinity
      triggered := s.signal.triggered
      executions := s.signal.executions }

def storeDebug (name : String) : Performing Answer := do
  let store ← storeNamed name
  checkShareable store
  return .text ((← world).inspectStore store)

def find (storeName : String) (type : ValueType) (name : String) (key : Option String) :
    Performing Answer := do
  let store ← storeNamed storeName
  checkShareable store
  let found := (← world).find? store type name
  if let some (found, key) := do return (← found, ← key) then
    rename fun n => { n with keys := n.keys.put key ⟨storeName, found⟩ }
  return .found (found.map (·.id))

def contains (name : String) (id : ItemId) : Performing Answer := do
  let store ← storeNamed name
  checkShareable store
  return .truth (((← world).store store).arena.contains id)

def stateOf (name : String) (id : ItemId) : Performing Answer := do
  let store ← storeNamed name
  checkShareable store
  return .state ((← world).stateOf store id)

def onExecute (name label : String) (run : Option Script) : Performing Answer := do
  refuseWhen "on_execute" fun w => 0 < w.modelDepth
  let store ← storeNamed name
  checkShareable store
  let script ← routine run
  Engine.onExecute store { label, script }
  return .ok

/-- Runs the model hooks of a store that was triggered; `step` is the word the step goes by. -/
def execute (step name : String) : Performing Bool := do
  let store ← storeNamed name
  checkShareable store
  refuseWhen step fun w => 0 < w.modelDepth
  sharing store (Engine.executeStore call store : Performing Bool)

def isTriggered (name : String) : Performing Answer := do
  let store ← storeNamed name
  checkShareable store
  return .truth ((← world).store store).signal.triggered

def storeTrigger (name : String) : Performing Answer := do
  let store ← storeNamed name
  sharing store do
    let depth := (← world).triggerDepth
    update fun w => { w with triggerDepth := depth + 1 }
    let accepted ← ensure (Engine.triggerStore call store : Performing Bool)
      (Engine.modify fun w => { w with triggerDepth := depth })
    return .truth accepted

def onTrigger (name : String) (source : SourceName) (sequence : Nat) : Performing Answer := do
  let store ← storeNamed name
  checkShareable store
  let source ← sourceNamed source
  Engine.prompt call store ⟨source, sequence⟩
  return .ok

/-- Binds a store to a domain; `step` is the word the step goes by. -/
def setAffinity (step name : String) (domain : Option String) : Performing Answer := do
  refuseWhen step fun w => 0 < w.triggerDepth
  let store ← storeNamed name
  let affinity ← affinityNamed domain
  checkShareable store
  Engine.setAffinity store affinity
  return .ok

def create (storeName key name : String) (type : ValueType) (argument : Literal)
    (convert : Option ArgumentType) (plan : FactoryPlan Script) : Performing Answer := do
  let store ← storeNamed storeName
  owning store do
    let factory ← factory store plan
    let value ← orUnreadable (argument.argument? type convert)
    let id ← orFault (Engine.create call store name value factory)
    let owner := ((← world).store store).id
    rename fun n => { n with keys := n.keys.put key ⟨storeName, ⟨owner, id, type⟩⟩ }
    return .created id

def destroy (key : String) (store : Option String) : Performing Answer := do
  let key ← keyNamed key
  let store ← presentedTo key store
  owning store do
    orFault (Engine.destroy store key.key)
    return .ok

def write (key : String) (store : Option String) (value : Literal) : Performing Answer :=
  withItem key store fun key _ item => do
    let value ← orUnreadable (value.value? key.key.type)
    Engine.write call item value
    return .ok

def read (key : String) (store : Option String) : Performing Answer :=
  withItem key store fun _ _ item => do
    return .value (← orFault (Engine.read call item))

/-- Reads into a place that holds `init`, which stays there when the read is refused. -/
def readInto (key : String) (store : Option String) (init : Literal) : Performing Answer :=
  withItem key store fun key _ item => do
    let init ← orUnreadable (init.value? key.key.type)
    match ← Engine.read call item with
    | .ok value => return .readInto none value
    | .error fault => return .readInto (some fault) init

def itemInfo (key : String) (store : Option String) : Performing Answer :=
  withItem key store fun _ store item => do
    let w ← world
    let i := w.item item
    return .item
      { descriptor := i.descriptor
        state := i.state
        writes := i.writes
        aspects := w.aspectNames i.chain
        affinity := w.inspectAffinity i.affinity
        sharesAffinity := i.affinity = (w.store store).affinity }

def itemDebug (key : String) (store : Option String) : Performing Answer :=
  withItem key store fun _ _ item => do
    return .text ((← world).inspectItem item)

/-- The writes of several threads, one after the other; each number is written by one of them. -/
def parallelWrite (key : String) (store : Option String) (threads each : Nat) :
    Performing Answer :=
  withItem key store fun key _ item => do
    let values ← orUnreadable <|
      (List.range (threads * each)).mapM (Value.ofNat? key.key.type)
    update fun w => { w with muted := true }
    ensure
      (values.forM fun value => (Engine.write call item value : Performing Unit))
      (Engine.modify fun w => { w with muted := false })
    return .writes ((← world).item item).writes

def keyInfo (key : String) (other : Option String) : Performing Answer := do
  let a := (← keyNamed key).key
  let b := (← keyNamed (other.getD key)).key
  let same := decide (a.store = b.store ∧ a.id = b.id)
  return .key
    { id := a.id
      store := a.store
      inspect := a.inspect
      same := if a.type = b.type then some (same, same) else none }

end GuardedStore.Performing
