import GuardedStore.World.Asking

/-!
Raising triggers and delivering them.

What delivers an event first settles whom it goes to, and holds on to them until it is done: someone
dropped in the meantime is still served by this delivery, and by none that begins later.
-/
namespace GuardedStore.Engine

variable (call : Nat → Engine Unit)

def modifyDomain (domain : Nat) (f : Domain → Domain) : Engine Unit :=
  modify (World.modifyDomain domain f)

def subscribe (domain : Option Nat) (source : Source) (subscriber : Subscriber) : Engine Unit :=
  match domain with
  | some d => modifyDomain d fun d => d.subscribe source subscriber
  | none => pure ()

def unsubscribe (domain : Option Nat) (source : Source) : Engine Unit :=
  match domain with
  | some d => modifyDomain d fun d => d.unsubscribe source
  | none => pure ()

/-- Lets a subscriber know of an event. -/
def notify (subscriber : Subscriber) (event : Event) : Engine Unit := do
  match subscriber with
  | .store s =>
    record (.signalled s event)
    modify (World.modifySignal s Signal.notify)
  | .dependent d =>
    let dependent := (← get).dependent d
    report (.notified dependent.name event)
    callAny call dependent.onTrigger

/-- Lets a store know of an event that no domain delivers. -/
def prompt (store : Nat) (event : Event) : Engine Unit := do
  record (.prompted store event)
  notify call (.store store) event

/-- Runs a model hook of a store for an execution that `triggers` notifications led to. -/
def runHook (store triggers : Nat) (hook : ModelHook) : Engine Unit := do
  record (.ran store hook triggers)
  report (.modelRan hook.label triggers)
  let depth := (← get).modelDepth
  modify fun w => { w with modelDepth := depth + 1 }
  ensure (callAny call hook.script) (modify fun w => { w with modelDepth := depth })

/-- Runs the model hooks of a store if it was notified since the last time, and says whether. The
notifications are taken first, so those that arrive meanwhile are for the next execution. -/
def executeStore (store : Nat) : Engine Bool := do
  let s := (← get).store store
  if !s.signal.triggered then return false
  modify (World.modifySignal store fun s => { s with triggered := false, pending := 0 })
  record (.executing store s.signal.pending s.signal.hooks)
  if s.signal.running then wait
  modify (World.modifySignal store fun s => { s with running := true })
  ensure (s.signal.hooks.forM (runHook call store s.signal.pending))
    (modify (World.modifySignal store fun s => { s with running := false }))
  modify (World.modifySignal store fun s => { s with executions := s.executions + 1 })
  notice (.storeExecuted s.id s.signal.pending s.signal.hooks.length)
  return true

/-- Gives a notified subscriber the occasion to act. -/
def execute (subscriber : Subscriber) : Engine Unit := do
  match subscriber with
  | .store s => let _ ← executeStore call s
  | .dependent d =>
    let dependent := (← get).dependent d
    report (.executed dependent.name)
    callAny call dependent.onExecute

def hold (subscribers : List Subscriber) : Engine Unit :=
  modify fun w => { w with held := w.held ++ subscribers }

/-- Lets go, at the end of a delivery `m`, of all that was taken hold of in the course of `m`. -/
def releasing {α : Type} (domain : Nat) (m : Engine α) : Engine α := do
  let held := (← get).held
  ensure m do
    modify fun w => { w with held }
    record (.released domain held)

/-- Delivers an event to each subscriber in turn and has it act at once. -/
def deliverAtOnce (event : Event) (subscribers : List Subscriber) : Engine Unit :=
  subscribers.forM fun s => do
    notify call s event
    execute call s

/-- What a domain that delivers at once does about an event. It lets go of what is raised while it
delivers or while a store has its hooks run; that is a rule of the domains of a scenario, not of
domains as such, and open runs are without it. -/
def deliver (domain : Nat) (label : String) (i : Immediate) (event : Event) : Engine Unit := do
  if 0 < (← get).modelDepth || i.delivering then
    report (.dropped label event)
  else
    report (.delivering label event)
    modifyDomain domain fun d => d.setDelivering true
    ensure
      (releasing domain do
        callAny call i.script
        let subscribers := (← get).liveSubscribers domain event.source
        record (.handed domain event subscribers)
        hold subscribers
        deliverAtOnce call event subscribers)
      (modifyDomain domain fun d => d.setDelivering false)

/-- Passes an event on to a domain, and says whether there is one to take it. -/
def forward (domain : Option Nat) (event : Event) : Engine Bool := do
  match domain with
  | none =>
    notice (.triggerDropped event)
    return false
  | some r =>
    let d := (← get).domain r
    match d.mode with
    | .recording _ => modifyDomain r fun d => d.accept event
    | .cooperative _ =>
      notice (.triggerQueued d.label event)
      modifyDomain r fun d => d.accept event
    | .immediate i => deliver call r d.label i event
    return true

/-- Raises a trigger, and says whether there is a domain to take it. -/
def trigger (issuer : Issuer) (domain : Option Nat) (event : Event) : Engine Bool := do
  record (.requested issuer domain event)
  forward call domain event

/-- What a run has done so far: how many notifications it gave, and to whom, in the order in which
they were first notified. -/
structure Progress where
  notified : Nat := 0
  woken : List Subscriber := []

/-- Notifies the subscribers of an event, in order of subscription. -/
def notifyAll (event : Event) : Progress → List Subscriber → Engine Progress
  | p, [] => pure p
  | p, s :: subscribers => do
    notify call s event
    let woken := if p.woken.contains s then p.woken else p.woken ++ [s]
    notifyAll event { notified := p.notified + 1, woken } subscribers

/-- Delivers events in order, each to those subscribed when its turn comes. -/
def deliverAll (domain : Nat) : Progress → List Event → Engine Progress
  | p, [] => pure p
  | p, event :: events => do
    let subscribers := (← get).liveSubscribers domain event.source
    record (.handed domain event subscribers)
    hold subscribers
    deliverAll domain (← notifyAll call event p subscribers) events

/-- Delivers the events that are queued now and then has everyone notified act once. Events raised
meanwhile wait for the next run. -/
def runPending (domain : Nat) : Engine RunStats := do
  let d := (← get).domain domain
  modifyDomain domain Domain.emptyQueue
  record (.taken domain d.queue)
  if d.queue.isEmpty then return {}
  let stats ← releasing domain do
    let p ← deliverAll call domain {} d.queue
    p.woken.forM (execute call)
    return { events := d.queue.length, notified := p.notified, executed := p.woken.length }
  modifyDomain domain fun d => d.countRun stats
  notice (.runComplete d.label stats)
  return stats

end GuardedStore.Engine
