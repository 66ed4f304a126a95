import GuardedStore.Domain.Basic
import GuardedStore.Fault
import GuardedStore.Guard.Aspect
import GuardedStore.Store.Basic

/-!
What a run can tell: the answers of its steps and everything that happened on the way.

A history is one list of happenings. The trace and the log are two readings of it; the happenings
that stand in neither, such as each aspect's answer and each request for a trigger, are there so
that the order of a run can be spoken about.
-/
namespace GuardedStore

/-- Diagnostics of stores, items, domains and aspects. -/
inductive Notice where
  | storeCreated (store : StoreId) (name affinity : String)
  | storeDropped (store : StoreId) (name : String) (released : Nat)
  | itemCreated (store : StoreId) (item : ItemId) (name : String) (type : ValueType)
  | itemDestroyed (store : StoreId) (item : ItemId) (name : String)
  | affinityChanged (store : StoreId) (old new : String) (items : Nat)
  | storeExecuted (store : StoreId) (triggers hooks : Nat)
  | writeStored (item : Descriptor) (sequence : Nat)
  | writeVetoed (item : Descriptor) (vetoedBy : String)
  | readRefused (item : Descriptor) (refusedBy : String)
  | readSuperseded (item : Descriptor) (attempts : Nat)
  | triggerDropped (event : Event)
  | triggerQueued (domain : String) (event : Event)
  | runComplete (domain : String) (stats : RunStats)
  | lockTimedOut (item : Descriptor) (phase : Phase) (milliseconds : Nat)
  | releaseIgnored (item : Descriptor) (ticket : Nat)
  | typeMismatch (aspect : String) (item : Descriptor) (expected : ValueType)
  | valueRejected (aspect : String) (item : Descriptor) (phase : Phase)
  | audited (phase : Phase) (item : Descriptor) (permitted : Bool)
  deriving DecidableEq

/-- What a scenario can name that may not be there. -/
inductive Missing where
  | domain
  | store
  | key
  | aspect
  | chain
  | passage
  | dependent
  deriving DecidableEq

inductive DomainInfo where
  | recording (name : String) (events : List Event)
  | cooperative (name : String) (pending received runs executions : Nat)
  | immediate (name : String)
  deriving DecidableEq

structure SourceInfo where
  source : Source
  /-- The sequence numbers recorded of the source, in a domain that records. -/
  sequences : Option (List Nat)
  subscribers : Nat
  deriving DecidableEq

structure AffinityInfo where
  name : Option String
  same : Bool
  cloneSame : Bool
  inspect : String
  deriving DecidableEq

structure StoreInfo where
  id : StoreId
  config : StoreConfig
  size : Nat
  ids : List ItemId
  names : List String
  domain : Option String
  triggered : Bool
  executions : Nat
  deriving DecidableEq

structure ItemInfo where
  descriptor : Descriptor
  state : ItemState
  writes : Nat
  aspects : List String
  affinity : String
  sharesAffinity : Bool
  deriving DecidableEq

structure KeyInfo where
  id : ItemId
  store : StoreId
  inspect : String
  /-- Whether the keys are equal, and whether their hashes are; `none` when their types differ. -/
  same : Option (Bool × Bool)
  deriving DecidableEq

inductive AspectInfo where
  | audit (a : Audit)
  | lock (l : Lock)
  | validation (name : String) (rejections : Nat) (inspect : String)
  | other (name : String)
  deriving DecidableEq

structure Decision where
  permitted : Bool
  vetoedBy : Option String
  deriving DecidableEq

inductive Answer where
  | ok
  | truth (b : Bool)
  | text (s : String)
  | fault (f : Fault)
  | missing (kind : Missing) (name : String)
  | busy
  | refused (step : String)
  | unreadable
  | panicked (text : String)
  | stuck
  | value (v : Value)
  | readInto (refusal : Option Fault) (out : Value)
  | created (id : ItemId)
  | found (id : Option ItemId)
  | state (s : ItemState)
  | writes (n : Nat)
  | stats (stats : RunStats)
  | domain (info : DomainInfo)
  | source (info : SourceInfo)
  | affinity (info : AffinityInfo)
  | store (info : StoreInfo)
  | item (info : ItemInfo)
  | key (info : KeyInfo)
  | aspect (info : AspectInfo)
  | chain (names : List String)
  | factory (names : List String) (c : AspectConfig)
  | decision (d : Decision)
  | waited (first second : Bool)
  deriving DecidableEq

/-- Who asks for a trigger. -/
inductive Issuer where
  | item (item : Nat)
  | store (store : Nat)
  /-- Somebody who speaks in the name of a source. -/
  | outsider
  deriving DecidableEq

/-- What became of a pass that an item's own access made, where nothing was stored. -/
inductive Upshot where
  | vetoed
  | refused
  /-- A write was stored meanwhile, and the read begins again. -/
  | superseded
  /-- The read hands out its value, after so many passes. -/
  | returned (passes : Nat)
  deriving DecidableEq

inductive Happening where
  -- the trace
  | hook (aspect : String) (hook : Hook) (permitted : Option Bool) (access : Access)
  | stepDone (kind : String) (answer : Answer)
  | tooDeep
  | factoryAsked (item : Descriptor)
  | modelRan (label : String) (triggers : Nat)
  | notified (dependent : String) (event : Event)
  | executed (dependent : String)
  | delivering (domain : String) (event : Event)
  | dropped (domain : String) (event : Event)
  -- the log
  | notice (n : Notice)
  -- neither: items and the passes through their chains
  | made (item : Nat) (contents : Item)
  | began (chain : List Nat) (phase : Phase) (access : Access)
  | admitted (aspect : Nat) (phase : Phase) (access : Access) (answer : Bool)
  /-- A panic came out of asking an aspect, when those `admitted`, last one first, had admitted the
  pass. -/
  | abandoned (admitted : List Nat) (phase : Phase) (access : Access)
  | stored (item : Nat) (access : Access)
  | concluded (item : Nat) (access : Access) (upshot : Upshot)
  | told (aspect : Nat) (phase : Phase) (access : Access) (permitted : Bool)
  /-- A pass is over. It is complete unless a panic came out of telling an aspect so, which then was
  the last one told. -/
  | left (access : Access) (complete : Bool)
  /-- Somebody other than an item calls on aspects. -/
  | visited (aspects : List Nat)
  -- neither: triggers and those they reach
  | requested (issuer : Issuer) (domain : Option Nat) (event : Event)
  | taken (domain : Nat) (events : List Event)
  | handed (domain : Nat) (event : Event) (subscribers : List Subscriber)
  /-- A delivery of a domain is over, and only those are held who were held when it began. -/
  | released (domain : Nat) (held : List Subscriber)
  | signalled (store : Nat) (event : Event)
  /-- A store is let know of an event by somebody who is not a domain. -/
  | prompted (store : Nat) (event : Event)
  | registered (store : Nat) (hook : ModelHook)
  | executing (store : Nat) (triggers : Nat) (hooks : List ModelHook)
  | ran (store : Nat) (hook : ModelHook) (triggers : Nat)
  | bound (store : Nat) (domain : Option Nat)
  /-- Somebody other than a store subscribes to a source. -/
  | subscribed (domain : Option Nat) (source : Source)
  /-- Somebody other than a store removes the subscriptions of a source. -/
  | unsubscribed (domain : Option Nat) (source : Source)
  | raised (text : String)
  deriving DecidableEq

namespace Happening

def inTrace : Happening → Bool
  | hook .. | stepDone .. | tooDeep | factoryAsked _ | modelRan .. | notified .. | executed _
  | delivering .. | dropped .. => true
  | _ => false

def notice? : Happening → Option Notice
  | notice n => some n
  | _ => none

end Happening

end GuardedStore
