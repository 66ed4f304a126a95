import GuardedStore.Scenario.Naming

/-!
Steps about aspects and the chains they are put together to.
-/
namespace GuardedStore.Performing

variable (call : Nat → Engine Unit)

def newAspect (id : String) (plan : AspectPlan Script) : Performing Answer := do
  let a ← aspect plan
  rename fun n => { n with aspects := n.aspects.put id a }
  return .ok

def aspectInfo (id : String) : Performing Answer := do
  return .aspect <|
    match (← world).aspect (← aspectNamed id) with
    | .audit a => .audit a
    | .lock l => .lock l
    | .validation v => .validation v.name v.rejections v.inspect
    | .plain name => .other name
    | .probe p => .other p.name

def newChain (name : String) (ls : List (Link Script)) : Performing Answer := do
  let chain ← links ls
  rename fun n => { n with chains := n.chains.put name chain }
  return .chain ((← world).aspectNames chain)

/-- Makes the chain that a configuration gives a described item. -/
def defaultChain (name : String) (c : AspectConfig) (d : DescriptorPlan) :
    Performing Answer := do
  let _ ← descriptor d
  let chain ← configured c
  rename fun n => { n with chains := n.chains.put name chain }
  return .factory ((← world).aspectNames chain) c

/-- Enters a chain; the pass stays open under the name of a passage, or ends at once. A passage that
went by the name before ends when the new one has begun. -/
def enter (chain : String) (phase : Phase) (passage : Option String) (plan : AccessPlan) :
    Performing Answer := do
  let chain ← chainNamed chain
  let access ← access plan
  Engine.record (.visited chain)
  let pass ← Engine.enter call chain phase access
  let decision := (← world).decision pass
  match passage with
  | some passage =>
    let old := (← world).names.passages.find? passage
    rename fun n => { n with passages := n.passages.put passage pass }
    old.forM fun old => (Engine.leave call old : Performing Unit)
  | none => Engine.leave call pass
  return .decision decision

def exit (passage : String) : Performing Answer := do
  let pass ← named .passage Names.passages passage
  rename fun n => { n with passages := n.passages.erase passage }
  let decision := (← world).decision pass
  Engine.leave call pass
  return .decision decision

/-- Calls one hook of one aspect, outside a chain. -/
def callHook (id : String) (hook : Hook) (permitted : Bool) (plan : AccessPlan) :
    Performing Answer := do
  let aspect ← aspectNamed id
  let access ← access plan
  Engine.record (.visited [aspect])
  match hook with
  | .beforeWrite => return .truth (← Engine.ask call aspect .write access)
  | .beforeRead => return .truth (← Engine.ask call aspect .read access)
  | .afterWrite => Engine.tell call aspect .write access permitted; return .ok
  | .afterRead => Engine.tell call aspect .read access permitted; return .ok

/-- Two passes, of which the second waits for what the first one holds; it begins when the first is
over, and is made where nobody reports anything and no script runs. -/
def chainWait (chain : String) (phase : Phase) (plan : AccessPlan) : Performing Answer := do
  let chain ← chainNamed chain
  let access ← access plan
  Engine.record (.visited chain)
  let first ← Engine.enter call chain .write access
  Engine.leave call first
  update fun w => { w with muted := true }
  let second ← ensure
    (do
      let second ← Engine.enter call chain phase { access with value := .int64 0 }
      Engine.leave call second
      return second)
    (Engine.modify fun w => { w with muted := false })
  return .waited first.permitted second.permitted

end GuardedStore.Performing
