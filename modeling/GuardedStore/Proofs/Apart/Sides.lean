import GuardedStore.Scenario.Run

/-!
Two sides that go their own ways.

Names and stores fall to one side or the other. A step keeps to a side if it names nothing but what
is that side's, and so do all the scripts that it hangs on aspects and stores. Keys are an exception:
a side may show its stores keys that are not its own.
-/
namespace GuardedStore

/-- The names and the stores that are one side's, and the names of other keys that it may show to
its stores. -/
structure Side where
  names : String → Bool
  stores : Nat → Bool
  foreign : String → Bool := fun _ => false

namespace Side

/-- Nothing is both the one's and the other's. -/
structure Apart (c b : Side) : Prop where
  names : ∀ {n}, b.names n → c.names n = false
  stores : ∀ {s}, b.stores s → c.stores s = false

theorem Apart.symm {c b : Side} (h : c.Apart b) : b.Apart c where
  names {n} hn := by
    cases hb : b.names n with
    | false => rfl
    | true =>
      rw [h.names hb] at hn
      cases hn
  stores {s} hs := by
    cases hb : b.stores s with
    | false => rfl
    | true =>
      rw [h.stores hb] at hs
      cases hs

/-- Whether a trigger comes from a store of the side or from an item of one. -/
def fires (c : Side) : Source → Bool
  | .item (.drawn s) _ | .store (.drawn s) => c.stores s
  | _ => false

theorem Apart.fires {c b : Side} (h : c.Apart b) {source : Source} (hf : b.fires source) :
    c.fires source = false := by
  unfold Side.fires at hf ⊢
  split
  · exact h.stores hf
  · exact h.stores hf
  · rfl

end Side

namespace AspectPlan

def scripts : AspectPlan Script → List Script
  | .probe p => [.beforeWrite, .afterWrite, .beforeRead, .afterRead].filterMap p.script
  | _ => []

theorem mem_scripts {p : Probe Script} {hook : Hook} {f : Script} (h : p.script hook = some f) :
    f ∈ (AspectPlan.probe p).scripts := by
  cases hook <;> simp [scripts, List.mem_filterMap, h]

end AspectPlan

namespace Link

def words : Link Script → List String
  | .shared aspect => [aspect]
  | .fresh _ => []

def scripts : Link Script → List Script
  | .shared _ => []
  | .fresh plan => plan.scripts

end Link

namespace ChainSource

def words : ChainSource Script → List String
  | .chain name => [name]
  | .links ls => ls.flatMap Link.words
  | .byItem items => items.flatMap fun i => i.2.flatMap Link.words

def scripts : ChainSource Script → List Script
  | .chain _ => []
  | .links ls => ls.flatMap Link.scripts
  | .byItem items => items.flatMap fun i => i.2.flatMap Link.scripts

end ChainSource

namespace FactoryPlan

def words : FactoryPlan Script → List String
  | .custom _ _ source => source.words
  | _ => []

def scripts : FactoryPlan Script → List Script
  | .custom _ _ source => source.scripts
  | _ => []

end FactoryPlan

/-- A source may also speak of any store or item by its identity. -/
def SourceName.keys : SourceName → List String
  | .key k => [k]
  | _ => []

namespace Step

/-- Whether a step is an operation on a store, on what is in it or on aspects for that. -/
def ofStores : Step → Bool
  | panic _ | note _ | dropStore _ | storeInfo _ | storeDebug _ | find .. | contains .. | stateOf ..
  | onExecute .. | execute _ | onExecuteIfTriggered _ | isTriggered _ | storeTrigger _
  | onTrigger .. | onAffinity .. | setAffinity .. | create .. | destroy .. | write .. | read ..
  | readInto .. | itemInfo .. | itemDebug .. | parallelWrite .. | keyInfo .. | aspect .. | chain ..
  => true
  | _ => false

/-- The names of stores, keys, aspects and chains that such a step mentions, but for those of keys
that it only shows. A key that is shown to no other store than the one it came from counts. -/
def words : Step → List String
  | dropStore s | storeInfo s | storeDebug s | contains s _ | stateOf s _ | onExecute s _ _
  | execute s | onExecuteIfTriggered s | isTriggered s | storeTrigger s | onTrigger s _ _
  | onAffinity s _ | setAffinity s _ => [s]
  | find s _ _ key => s :: key.toList
  | create s key _ _ _ _ f => s :: key :: f.words
  | destroy key s | write key s _ | read key s | readInto key s _ | itemInfo key s | itemDebug key s
  | parallelWrite key s _ _ => [s.getD key]
  | aspect id _ => [id]
  | chain name ls => name :: ls.flatMap Link.words
  | _ => []

/-- The names of the keys that such a step shows to a store, or compares. -/
def keys : Step → List String
  | onTrigger _ source _ => source.keys
  | destroy key _ | write key .. | read key _ | readInto key .. | itemInfo key _ | itemDebug key _
  | parallelWrite key .. => [key]
  | keyInfo key other => key :: other.toList
  | _ => []

/-- The scripts that such a step hangs on something. -/
def hung : Step → List Script
  | onExecute _ _ run => run.toList
  | create _ _ _ _ _ _ f => f.scripts
  | aspect _ plan => plan.scripts
  | chain _ ls => ls.flatMap Link.scripts
  | _ => []

/-- The step is an operation on what is the side's, and so are the steps of all scripts that it
hangs on something. -/
inductive KeepsTo (c : Side) : Step → Prop where
  | mk {s : Step} (kind : s.ofStores) (words : ∀ n ∈ s.words, c.names n)
      (keys : ∀ n ∈ s.keys, c.names n ∨ c.foreign n)
      (hung : ∀ f ∈ s.hung, ∀ n, ∀ t ∈ f n, t.KeepsTo c) : s.KeepsTo c

end Step

def Script.KeepsTo (c : Side) (f : Script) : Prop :=
  ∀ n, ∀ s ∈ f n, s.KeepsTo c

end GuardedStore
