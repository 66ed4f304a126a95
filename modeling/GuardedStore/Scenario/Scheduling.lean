import GuardedStore.Scenario.Naming

/-!
Steps about domains, dependents and triggers.
-/
namespace GuardedStore.Performing

variable (call : Nat → Engine Unit)

def newDomain (name label : String) (plan : DomainPlan Script) : Performing Answer := do
  let mode ← match plan with
    | .recording => pure (.recording {})
    | .cooperative => pure (.cooperative {})
    | .immediate script => do
      let script ← routine script
      pure (.immediate { script })
  let domain ← Engine.newDomain { label, mode }
  rename fun n => { n with domains := n.domains.put name domain }
  return .ok

def domainInfo (domain : String) : Performing Answer := do
  let d := (← world).domain (← domainNamed domain)
  return .domain <|
    match d.mode with
    | .recording r => .recording d.label r.events
    | .cooperative c => .cooperative d.label c.queue.length c.received c.runs c.executions
    | .immediate _ => .immediate d.label

/-- The sequence numbers recorded of a source, in order of arrival or sorted. -/
def sequences (r : Recording) (source : Source) (sort : Bool) : List Nat :=
  let found := (r.events.filter (·.source = source)).map (·.sequence)
  if sort then found.mergeSort else found

def sourceInfo (domain : String) (source : SourceName) (sort : Bool) : Performing Answer := do
  let r ← domainNamed domain
  let source ← sourceNamed source
  let w ← world
  return .source <|
    match (w.domain r).mode with
    | .recording recording =>
      { source, sequences := some (sequences recording source sort)
        subscribers := recording.subscriptions.count source }
    | _ => { source, sequences := none, subscribers := (w.liveSubscribers r source).length }

/-- Forgets what a domain has recorded. -/
def clear (domain : String) : Performing Answer := do
  let r ← domainNamed domain
  match ((← world).domain r).mode with
  | .recording _ =>
    Engine.modifyDomain r Domain.clear
    return .ok
  | _ => throw .unreadable

def runPending (domain : String) : Performing Answer := do
  refuseWhen "run_pending" fun w => 0 < w.modelDepth
  let r ← domainNamed domain
  match ((← world).domain r).mode with
  | .cooperative _ => return .stats (← Engine.runPending call r)
  | _ => throw .unreadable

def trigger (domain : Option String) (source : SourceName) (sequence : Nat) :
    Performing Answer := do
  let source ← sourceNamed source
  let domain ← affinityNamed domain
  return .truth (← Engine.trigger call .outsider domain ⟨source, sequence⟩)

def subscribe (domain : Option String) (source : SourceName) (dependent : String) :
    Performing Answer := do
  let domain ← affinityNamed domain
  let source ← sourceNamed source
  let dependent ← dependentNamed dependent
  Engine.record (.subscribed domain source)
  Engine.subscribe domain source (.dependent dependent)
  return .ok

def unsubscribe (domain : Option String) (source : SourceName) : Performing Answer := do
  let domain ← affinityNamed domain
  let source ← sourceNamed source
  Engine.record (.unsubscribed domain source)
  Engine.unsubscribe domain source
  return .ok

def affinityInfo (domain other : Option String) : Performing Answer := do
  let domain ← affinityNamed domain
  let other ← affinityNamed other
  let w ← world
  return .affinity
    { name := w.domainName domain
      same := domain = other
      cloneSame := true
      inspect := w.inspectAffinity domain }

/-- Nobody but running deliveries holds on to the dependent any more. -/
def disown (dependent : Nat) : Performing Unit :=
  update (World.modifyDependent dependent fun d => { d with owned := false })

def newDependent (name : String) (onTrigger onExecute : Option Script) : Performing Answer := do
  let onTrigger ← routine onTrigger
  let onExecute ← routine onExecute
  let dependent ← Engine.newDependent { name, onTrigger, onExecute }
  let old := (← world).names.dependents.find? name
  rename fun n => { n with dependents := n.dependents.put name dependent }
  old.forM disown
  return .ok

def dropDependent (name : String) : Performing Answer := do
  match (← world).names.dependents.find? name with
  | some dependent =>
    rename fun n => { n with dependents := n.dependents.erase name }
    disown dependent
    return .truth true
  | none => return .truth false

/-- Tells a dependent of its affinity, which it ignores. -/
def dependentAffinity (name : String) (domain : Option String) : Performing Answer := do
  let _ ← dependentNamed name
  let _ ← affinityNamed domain
  return .ok

def setFlag (name : String) (value : Bool) : Performing Answer := do
  rename fun n => { n with flags := n.flags.put name value }
  return .ok

end GuardedStore.Performing
