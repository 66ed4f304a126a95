import GuardedStore.Guard.Aspect
import GuardedStore.Value.Literal

/-!
What a scenario asks for, step by step.

Steps speak of everything by name: what a name means is settled when the step runs. A script
gives, for each time it is called, the steps to run then; scripts hang on probes, model hooks,
dependents and immediate domains, and are run by whatever calls those.
-/
namespace GuardedStore

/-- What can be named as the source of a trigger. -/
inductive SourceName where
  | key (key : String)
  | store (store : String)
  | item (store : String) (item : ItemId)

/-- A description of an item for hooks called without one. -/
structure DescriptorPlan where
  type : ValueType := .int64
  store : Option String := none
  id : ItemId := ⟨0, 0⟩
  name : String := "x"

/-- A value at stake, of the described item's type unless another is given. -/
structure AccessPlan where
  value : Literal
  type : Option ValueType := none
  descriptor : DescriptorPlan := {}

inductive DomainPlan (σ : Type) where
  | recording
  | cooperative
  | immediate (script : Option σ)

inductive AspectPlan (σ : Type) where
  | audit
  | lock (patience : Patience)
  | plain (name : String)
  | validation (v : Validation)
  | probe (p : Probe σ)

/-- A member of a chain: an aspect shared under its name, or a new one. -/
inductive Link (σ : Type) where
  | shared (aspect : String)
  | fresh (plan : AspectPlan σ)

/-- Where a custom factory takes its chains from. -/
inductive ChainSource (σ : Type) where
  | chain (name : String)
  | links (links : List (Link σ))
  /-- By the name of the item; none where the item's name is missing. -/
  | byItem (links : List (String × List (Link σ)))

inductive FactoryPlan (σ : Type) where
  /-- The store's own default. -/
  | store
  | none
  | config (c : AspectConfig)
  | custom (spy panics : Bool) (source : ChainSource σ)

/-- A setting made on a store under construction. -/
inductive BuilderCall where
  | name (name : String)
  | aspects (c : AspectConfig)
  | config (c : StoreConfig)
  | affinity (domain : Option String)
  | file (path : String) (content : Option ByteArray)

inductive StorePlan where
  | standard
  | config (c : StoreConfig)
  | builder (calls : List BuilderCall)

inductive Step where
  | panic (text : String)
  -- domains and dependents
  | domain (name label : String) (plan : DomainPlan (Nat → List Step))
  | domainInfo (domain : String)
  | sourceInfo (domain : String) (source : SourceName) (sort : Bool)
  | clear (domain : String)
  | runPending (domain : String)
  | trigger (domain : Option String) (source : SourceName) (sequence : Nat)
  | subscribe (domain : Option String) (source : SourceName) (dependent : String)
  | unsubscribe (domain : Option String) (source : SourceName)
  | affinityInfo (domain other : Option String)
  | dependent (name : String) (onTrigger onExecute : Option (Nat → List Step))
  | dropDependent (name : String)
  | dependentAffinity (name : String) (domain : Option String)
  | flag (name : String) (value : Bool)
  | note (text : String)
  -- stores
  | store (name : String) (plan : StorePlan)
  | dropStore (store : String)
  | storeInfo (store : String)
  | storeDebug (store : String)
  | find (store : String) (type : ValueType) (name : String) (key : Option String)
  | contains (store : String) (id : ItemId)
  | stateOf (store : String) (id : ItemId)
  | onExecute (store label : String) (run : Option (Nat → List Step))
  | execute (store : String)
  | onExecuteIfTriggered (store : String)
  | isTriggered (store : String)
  | storeTrigger (store : String)
  | onTrigger (store : String) (source : SourceName) (sequence : Nat)
  | onAffinity (store : String) (domain : Option String)
  | setAffinity (store : String) (domain : Option String)
  -- items
  | create (store key name : String) (type : ValueType) (argument : Literal)
      (convert : Option ArgumentType) (factory : FactoryPlan (Nat → List Step))
  | destroy (key : String) (store : Option String)
  | write (key : String) (store : Option String) (value : Literal)
  | read (key : String) (store : Option String)
  | readInto (key : String) (store : Option String) (init : Literal)
  | itemInfo (key : String) (store : Option String)
  | itemDebug (key : String) (store : Option String)
  | parallelWrite (key : String) (store : Option String) (threads each : Nat)
  | keyInfo (key : String) (other : Option String)
  -- aspects and chains
  | aspect (id : String) (plan : AspectPlan (Nat → List Step))
  | aspectInfo (aspect : String)
  | chain (name : String) (links : List (Link (Nat → List Step)))
  | factory (name : String) (c : AspectConfig) (descriptor : DescriptorPlan)
  | enter (chain : String) (phase : Phase) (passage : Option String) (access : AccessPlan)
  | exit (passage : String)
  | hook (aspect : String) (hook : Hook) (permitted : Bool) (access : AccessPlan)
  | chainWait (chain : String) (phase : Phase) (access : AccessPlan)

instance : Inhabited Step := ⟨.panic ""⟩

/-- The steps to run at each call, counted from zero. -/
abbrev Script := Nat → List Step

/-- The same steps at `times` calls in a row, or at every call, after the first `skip`. -/
def Script.window (skip : Nat) (times : Option Nat) (steps : List Step) : Script := fun n =>
  if skip ≤ n ∧ times.all (n - skip < ·) then steps else []

/-- The word by which a step is asked for. -/
def Step.kind : Step → String
  | panic _ => "panic"
  | domain .. => "domain"
  | domainInfo _ => "domain_info"
  | sourceInfo .. => "source_info"
  | clear _ => "clear"
  | runPending _ => "run_pending"
  | trigger .. => "trigger"
  | subscribe .. => "subscribe"
  | unsubscribe .. => "unsubscribe"
  | affinityInfo .. => "affinity_info"
  | dependent .. => "dependent"
  | dropDependent _ => "drop_dependent"
  | dependentAffinity .. => "dependent_affinity"
  | flag .. => "flag"
  | note _ => "note"
  | store .. => "store"
  | dropStore _ => "drop_store"
  | storeInfo _ => "store_info"
  | storeDebug _ => "store_debug"
  | find .. => "find"
  | contains .. => "contains"
  | stateOf .. => "state_of"
  | onExecute .. => "on_execute"
  | execute _ => "execute"
  | onExecuteIfTriggered _ => "on_execute_if_triggered"
  | isTriggered _ => "is_triggered"
  | storeTrigger _ => "store_trigger"
  | onTrigger .. => "on_trigger"
  | onAffinity .. => "on_affinity"
  | setAffinity .. => "set_affinity"
  | create .. => "create"
  | destroy .. => "destroy"
  | write .. => "write"
  | read .. => "read"
  | readInto .. => "read_into"
  | itemInfo .. => "item_info"
  | itemDebug .. => "item_debug"
  | parallelWrite .. => "parallel_write"
  | keyInfo .. => "key_info"
  | aspect .. => "aspect"
  | aspectInfo _ => "aspect_info"
  | chain .. => "chain"
  | factory .. => "factory"
  | enter .. => "enter"
  | exit _ => "exit"
  | hook .. => "hook"
  | chainWait .. => "chain_wait"

end GuardedStore
